import ChipEight.Instance.Host

/-!
# Rosters

A roster keeps instances in the order of their numbers and may have one of them selected. A new
instance gets the least free number.
-/
namespace ChipEight

structure Roster where
  residents : List Instance
  selected : Option Nat

structure UnknownInstance where
  id : Int
  deriving DecidableEq, Repr

def UnknownInstance.message (unknown : UnknownInstance) : String :=
  "No instance with id " ++ toString unknown.id

namespace Roster

def empty : Roster := ⟨[], none⟩

def ids (roster : Roster) : List Nat := roster.residents.map Instance.id

/-- The first position in `low ≤ position < high` whose number is not the position itself, if the
numbers before `low` equal their positions and those from `high` on do not. -/
def freeIdBetween (ids : List Nat) (low high : Nat) : Nat :=
  if low < high then
    let middle := low + (high - low) / 2
    if ids[middle]? = some middle then freeIdBetween ids (middle + 1) high
    else freeIdBetween ids low middle
  else low
termination_by high - low

def freeId (roster : Roster) : Nat := freeIdBetween roster.ids 0 roster.ids.length

def get (roster : Roster) (id : Int) : Except UnknownInstance Instance :=
  match roster.residents.find? fun resident => (resident.id : Int) = id with
  | some resident => .ok resident
  | none => .error ⟨id⟩

def create (roster : Roster) (dialect : Dialect) (seed : Int) (clock : Float) : Roster :=
  let id := roster.freeId
  { roster with residents := roster.residents.insertIdx id (.create id dialect seed clock) }

/-- A deleted instance is no longer selected. -/
def delete (roster : Roster) (id : Int) : Except UnknownInstance Roster := do
  let found ← roster.get id
  return {
    residents := roster.residents.eraseP (·.id == found.id)
    selected := if roster.selected = some found.id then none else roster.selected }

def select (roster : Roster) (id : Int) : Except UnknownInstance Roster := do
  return { roster with selected := some (← roster.get id).id }

/-- The instance that is selected, if one is. -/
def selectedInstance (roster : Roster) : Except UnknownInstance (Option Instance) :=
  match roster.selected with
  | none => .ok none
  | some id => return some (← roster.get id)

def replace (roster : Roster) (next : Instance) : Roster :=
  { roster with
    residents := roster.residents.map fun resident =>
      if resident.id = next.id then next else resident }

/-- A running instance runs and then sees the keys, also if it has just faulted. -/
def drive (now : Float) (keys : Option (List Bool)) (resident : Instance) : Instance.Progress :=
  if resident.state = .running then
    let progress := resident.run now
    { progress with inst := keys.elim progress.inst progress.inst.setKeys }
  else resident.idle

structure Progress where
  roster : Roster
  executed : Nat
  messages : List Message

/-- Drive every instance once, in order. -/
def run (roster : Roster) (now : Float) (keys : Option (List Bool)) : Progress :=
  let driven := roster.residents.map (drive now keys)
  { roster := { roster with residents := driven.map (·.inst) }
    executed := (driven.map (·.executed)).foldl (· + ·) 0
    messages := driven.flatMap (·.messages) }

inductive Request where
  | create (dialect : Dialect) (seed : Int)
  | delete (id : Int)
  | select (id : Int)
  | get (id : Int)
  /-- Without a time the clock is read; without keys none are passed on. -/
  | run (now : Option Amount) (keys : Option (List Bool))
  | toInstance (id : Int) (request : Instance.Request)

inductive Failure where
  | unknown (unknown : UnknownInstance)
  | ofInstance (failure : ChipEight.Failure)
  deriving DecidableEq, Repr

inductive Reply where
  | id (id : Nat)
  | ofInstance (reply : Instance.Reply)
  deriving DecidableEq, Repr

structure Response where
  roster : Roster
  reply : Reply
  failure : Option Failure
  messages : List Message

def refuse (roster : Roster) (unknown : UnknownInstance) : Response :=
  ⟨roster, .ofInstance .none, some (.unknown unknown), []⟩

def answer (directory : Directory) (clock : Float) (roster : Roster) : Request → Response
  | .create dialect seed =>
    ⟨roster.create dialect seed clock, .id roster.freeId, none,
      [.note (.instanceCreated roster.freeId)]⟩
  | .delete id =>
    match roster.delete id with
    | .ok smaller => ⟨smaller, .ofInstance .none, none, [.note (.instanceDeleted id.toNat)]⟩
    | .error unknown => roster.refuse unknown
  | .select id =>
    match roster.select id with
    | .ok selected => ⟨selected, .ofInstance .none, none, []⟩
    | .error unknown => roster.refuse unknown
  | .get id =>
    match roster.get id with
    | .ok found => ⟨roster, .id found.id, none, []⟩
    | .error unknown => roster.refuse unknown
  | .run now keys =>
    let progress := roster.run (now.elim clock Amount.toFloat) keys
    ⟨progress.roster, .ofInstance (.executed progress.executed), none, progress.messages⟩
  | .toInstance id request =>
    match roster.get id with
    | .ok found =>
      let response := found.answer directory clock request
      ⟨roster.replace response.inst, .ofInstance response.reply,
        response.failure.map .ofInstance, response.messages⟩
    | .error unknown => roster.refuse unknown

/-- A request with the files and the clock that it meets. -/
structure Call where
  directory : Directory
  clock : Float
  request : Request

def respond (roster : Roster) (call : Call) : Response :=
  roster.answer call.directory call.clock call.request

/-- Answer one call after the other, failed ones included. -/
def answerAll (roster : Roster) (calls : List Call) : Roster :=
  calls.foldl (fun current call => (current.respond call).roster) roster

end Roster
end ChipEight
