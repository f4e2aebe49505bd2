import ChipEight.Instance

/-!
# Consoles

A console shows what is printed, and has the switch for diagnostics. Every diagnostic looks at the
switch when it is printed, so that a computation could take another course with the switch on. What
a computation says is what it prints with the switch on, if the switch makes no other difference.
Printing never fails here: every console is taken to have all the characters that it is to show.
-/
namespace ChipEight

/-- The messages that some diagnostics are. -/
abbrev Diagnostic.messages (notes : List Diagnostic) : List Message := notes.map Message.note

structure Console where
  debug : Bool
  /-- What has been printed, the last at the end. -/
  printed : List Message

/-- A computation that may print, and goes on after it whatever the text was. -/
abbrev Aloud := StateM Console

/-- No diagnostic gets past the switch when it is off. -/
theorem Diagnostic.filter_messages (notes : List Diagnostic) :
    (messages notes).filter (!·.isNote) = [] := by
  rw [List.filter_eq_nil_iff]
  intro message found
  obtain ⟨note, -, rfl⟩ := List.mem_map.mp found
  exact nofun

namespace Console

/-- A console on which nothing has been printed. -/
def blank (debug : Bool) : Console := ⟨debug, []⟩

def print (message : Message) : Aloud Unit :=
  modify fun console => { console with printed := console.printed ++ [message] }

def debugPrint (diagnostic : Diagnostic) : Aloud Unit := do
  if (← get).debug then print (.note diagnostic)

/-- The console after some messages, of which the switch lets through what it does. -/
def after (console : Console) (messages : List Message) : Console :=
  { console with
    printed := console.printed ++ messages.filter fun message => console.debug || !message.isNote }

theorem after_nil (console : Console) : console.after [] = console := by
  simp [after]

theorem after_append (console : Console) (messages later : List Message) :
    (console.after messages).after later = console.after (messages ++ later) := by
  simp [after]

end Console

open Console (print debugPrint)

/-- The result on a blank console. -/
def Aloud.result {Result : Type} (aloud : Aloud Result) (debug : Bool) : Result :=
  (aloud.run (.blank debug)).1

/-- What is on a blank console afterwards. -/
def Aloud.printed {Result : Type} (aloud : Aloud Result) (debug : Bool) : List Message :=
  (aloud.run (.blank debug)).2.printed

/-- Whatever the switch, a computation has one result, and prints some messages, the diagnostics
among them with the switch on. -/
def Says {Result : Type} (aloud : Aloud Result) (result : Result) (messages : List Message) :
    Prop :=
  ∀ console, aloud.run console = (result, console.after messages)

section Says

variable {Result Later : Type} {aloud : Aloud Result} {result : Result} {messages : List Message}

theorem says_pure (result : Result) : Says (pure result) result [] := by
  intro console
  rw [console.after_nil]
  rfl

theorem Says.bind {next : Result → Aloud Later} {later : Later} {more : List Message}
    (first : Says aloud result messages) (second : Says (next result) later more) :
    Says (aloud >>= next) later (messages ++ more) := by
  intro console
  -- The second part finds the console as the first has left it, with the same switch.
  rw [StateT.run_bind, first console, ← Console.after_append]
  exact second (console.after messages)

/-- What follows has nothing more to say. -/
theorem Says.last {next : Result → Aloud Later} {later : Later}
    (first : Says aloud result messages) (second : Says (next result) later []) :
    Says (aloud >>= next) later messages := by
  have whole := first.bind second
  rwa [List.append_nil] at whole

/-- What came before had nothing to say. -/
theorem Says.first {next : Result → Aloud Later} {later : Later} {more : List Message}
    (first : Says aloud result []) (second : Says (next result) later more) :
    Says (aloud >>= next) later more :=
  first.bind second

theorem says_print {message : Message} (loud : message.isNote = false) :
    Says (print message) () [message] := by
  intro console
  simp [Console.after, loud]
  rfl

theorem says_debugPrint (diagnostic : Diagnostic) :
    Says (debugPrint diagnostic) () [.note diagnostic] := by
  rintro ⟨debug, printed⟩
  -- The one place where the switch decides.
  cases debug with
  | false =>
    simp [debugPrint, Console.after, Message.isNote]
    rfl
  | true => rfl

theorem says_mapM {Item : Type} {aloud : Item → Aloud Result} {result : Item → Result}
    {messages : Item → List Message}
    (said : ∀ item, Says (aloud item) (result item) (messages item)) (items : List Item) :
    Says (items.mapM aloud) (items.map result) (items.flatMap messages) := by
  induction items with
  | nil => exact says_pure []
  | cons item items ih =>
    rw [List.mapM_cons, List.flatMap_cons]
    exact (said item).bind (ih.last (says_pure _))

theorem Says.result_eq (said : Says aloud result messages) (debug : Bool) :
    aloud.result debug = result :=
  congrArg Prod.fst (said (.blank debug))

theorem Says.printed_eq (said : Says aloud result messages) (debug : Bool) :
    aloud.printed debug = messages.filter fun message => debug || !message.isNote := by
  rw [Aloud.printed, said]
  rfl

theorem Says.printed_true (said : Says aloud result messages) : aloud.printed true = messages := by
  simp [said.printed_eq]

theorem Says.printed_false (said : Says aloud result messages) :
    aloud.printed false = messages.filter (!·.isNote) :=
  said.printed_eq false

end Says

/-- Answer one call after the other, and list what each comes to. -/
def playAloud {State Call Outcome : Type} (answer : State → Call → Aloud (State × Outcome)) :
    State → List Call → Aloud (List (State × Outcome))
  | _, [] => return []
  | state, call :: calls => do
    let first ← answer state call
    let rest ← playAloud answer first.1 calls
    return first :: rest

/-- The same in silence, with all that there was to say. -/
def play {State Call Outcome : Type} (answer : State → Call → (State × Outcome) × List Message) :
    State → List Call → List (State × Outcome) × List Message
  | _, [] => ([], [])
  | state, call :: calls =>
    let first := answer state call
    let rest := play answer first.1.1 calls
    (first.1 :: rest.1, first.2 ++ rest.2)

theorem says_play {State Call Outcome : Type} {aloud : State → Call → Aloud (State × Outcome)}
    {answer : State → Call → (State × Outcome) × List Message}
    (said : ∀ state call, Says (aloud state call) (answer state call).1 (answer state call).2)
    (state : State) (calls : List Call) :
    Says (playAloud aloud state calls) (play answer state calls).1 (play answer state calls).2 := by
  induction calls generalizing state with
  | nil => exact says_pure []
  | cons call calls ih => exact (said state call).bind ((ih _).last (says_pure _))

end ChipEight
