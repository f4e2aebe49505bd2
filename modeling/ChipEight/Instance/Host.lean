import ChipEight.Amount
import ChipEight.Instance

/-!
# Requests to an instance

Each request answers with the instance after it, a reply where one is due, a failure if there was
one, and the messages printed on the way.
-/
namespace ChipEight.Instance

inductive Request where
  | load (image : List UInt8)
  | loadFile (name : FileName)
  | start
  | stop
  | reset
  | resetAndStop
  | step
  /-- Without a time the clock is read. -/
  | run (now : Option Amount)
  /-- What is not given stays. -/
  | setSpeed (slotsPerSecond slotLength : Option Amount)
  | enableInput (enabled : Bool)
  | setKeys (states : List Bool)

inductive Reply where
  | none
  | accepted (accepted : Bool)
  | executed (count : Nat)
  deriving DecidableEq, Repr

structure Response where
  inst : Instance
  reply : Reply
  failure : Option Failure
  messages : List Message

/-- An answer without reply, failure or message. -/
def silently (inst : Instance) : Response := ⟨inst, .none, none, []⟩

def Progress.response (progress : Progress) : Response :=
  ⟨progress.inst, .executed progress.executed, none, progress.messages⟩

/-- A failed load leaves the instance as far as it had come. -/
def loading (current : Instance) (image : List UInt8) (after : List Diagnostic) : Response :=
  match current.load image with
  | .ok loaded =>
    let notes : List Diagnostic :=
      .resetComplete :: .imageCopied image.length :: .imageLoaded image.length :: after
    ⟨loaded, .none, none, notes.map Message.note⟩
  | .error failed =>
    ⟨failed.inst, .none, some (.image failed.rejected), failed.notes.map Message.note⟩

def answer (directory : Directory) (clock : Float) (current : Instance) : Request → Response
  | .load image => current.loading image []
  | .loadFile name =>
    match directory.read name with
    | .ok image => current.loading image [.instanceLoaded current.id name]
    | .error error => ⟨current, .none, some (.file error), []⟩
  | .start =>
    if current.state = .empty then
      ⟨current, .accepted false, none, [.note (.instanceEmpty current.id)]⟩
    else ⟨current.start clock, .accepted true, none, []⟩
  | .stop => silently current.stop
  | .reset => ⟨current.reset, .none, none, [.note .resetComplete]⟩
  | .resetAndStop => ⟨current.reset.stop, .none, none, [.note .resetComplete]⟩
  | .step => current.step.response
  | .run now => (current.run (now.elim clock Amount.toFloat)).response
  | .setSpeed slotsPerSecond slotLength =>
    let paced := slotsPerSecond.elim current (current.setSlotsPerSecond ·.truncate)
    silently (slotLength.elim paced (paced.setSlotLength ·.truncate))
  | .enableInput enabled => silently { current with inputEnabled := enabled }
  | .setKeys states => silently (current.setKeys states)

/-- A request with the files and the clock that it meets. -/
structure Call where
  directory : Directory
  clock : Float
  request : Request

def respond (current : Instance) (call : Call) : Response :=
  current.answer call.directory call.clock call.request

/-- Answer one call after the other, failed ones included. -/
def answerAll (current : Instance) (calls : List Call) : Instance :=
  calls.foldl (fun current call => (current.respond call).inst) current

end ChipEight.Instance
