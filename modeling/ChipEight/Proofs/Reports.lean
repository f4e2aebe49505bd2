import ChipEight.Proofs.Console
import ChipEight.Proofs.InstanceStates
import ChipEight.Proofs.SelfJumps

/-!
# What is reported

The report of a halt looks at the hint that the same jump raises: it is made exactly when the hint
goes up. An undefined word is reported whenever it is executed. Both follow from single steps to any
course of a machine or an instance on which nothing takes the hint back.
-/
namespace ChipEight

namespace Message

def isSelfJump : Message → Bool
  | note (.selfJump _) => true
  | _ => false

def isUndefinedWord : Message → Bool
  | note (.undefinedWord _ _) => true
  | _ => false

end Message

/-- The reports on the way from one machine to another agree with the hint of both and with the
states in which the steps were made. -/
structure Accounts (before after : Machine) (begun : List Machine) (messages : List Message) :
    Prop where
  selfJumps : messages.countP (·.isSelfJump) + before.cpu.halted.toNat = after.cpu.halted.toNat
  undefinedWords :
    messages.countP (·.isUndefinedWord) = begun.countP fun machine => machine.upcoming = .undefined

section Accounts

variable {before after final : Machine} {begun later : List Machine}
  {messages more : List Message}

theorem Accounts.append (first : Accounts before after begun messages)
    (second : Accounts after final later more) :
    Accounts before final (begun ++ later) (messages ++ more) where
  selfJumps := by
    rw [List.countP_append, ← second.selfJumps, ← first.selfJumps]
    omega
  undefinedWords := by
    rw [List.countP_append, List.countP_append, first.undefinedWords, second.undefinedWords]

/-- Messages about something else. -/
theorem accounts_aside (same : after.cpu.halted = before.cpu.halted)
    (aside : ∀ message ∈ messages, ¬message.isSelfJump ∧ ¬message.isUndefinedWord) :
    Accounts before after [] messages where
  selfJumps := by
    rw [List.countP_eq_zero.mpr fun message found => (aside message found).1, same, Nat.zero_add]
  undefinedWords := List.countP_eq_zero.mpr fun message found => (aside message found).2

theorem accounts_silent (same : after.cpu.halted = before.cpu.halted) :
    Accounts before after [] [] :=
  accounts_aside same (fun _ found => absurd found List.not_mem_nil)

/-- A machine just after a reset has not halted. -/
theorem Accounts.since_reset (accounts : Accounts before after begun messages)
    (lowered : before.cpu.halted = false) :
    messages.countP (·.isSelfJump) ≤ 1 ∧
      (0 < messages.countP (·.isSelfJump) ↔ after.cpu.halted = true) := by
  have count := accounts.selfJumps
  rw [lowered] at count
  rw [show messages.countP (·.isSelfJump) = after.cpu.halted.toNat from count]
  cases after.cpu.halted <;> simp

end Accounts

open Diagnostic (messages)

/-- A dropped write is reported as just that. -/
theorem Operation.notes_aside {operation : Operation} {word : Word} {cpu : Processor}
    (defined : operation ≠ .undefined) (no_target : operation.target? word cpu = none) :
    ∀ message ∈ messages (operation.notes word cpu),
      ¬message.isSelfJump ∧ ¬message.isUndefinedWord := by
  have dropped {write : Address × UInt8} {note : Diagnostic}
      (reported : Diagnostic.ofWrite? write = some note) :
      ¬(Message.note note).isSelfJump ∧ ¬(Message.note note).isUndefinedWord := by
    unfold Diagnostic.ofWrite? at reported
    split at reported <;> cases reported
    exact ⟨nofun, nofun⟩
  intro message found
  obtain ⟨note, noted, rfl⟩ := List.mem_map.mp found
  cases operation with
  | undefined => exact absurd rfl defined
  | jump | jumpOffset _ => cases no_target
  | decimal | store _ =>
    obtain ⟨write, -, reported⟩ := List.mem_filterMap.mp noted
    exact dropped reported
  | _ => exact absurd noted List.not_mem_nil

theorem Operation.notes_of_target {operation : Operation} {word : Word} {cpu : Processor}
    {target : UInt16} (found : operation.target? word cpu = some target) :
    operation.notes word cpu =
      if target = cpu.last.address ∧ cpu.halted = false then [.selfJump target] else [] := by
  cases operation with
  | jump | jumpOffset _ => simp only [notes, found]
  | _ => cases found

namespace Machine

theorem accounts_step (machine : Machine) :
    Accounts machine machine.step.machine [machine] (messages machine.step.notes) := by
  have kept (no_target : machine.upcoming.target? machine.word machine.fetch.cpu = none) :
      machine.step.machine.cpu.halted = machine.cpu.halted :=
    step_part (·.cpu.halted) rfl rfl fun _ done =>
      (Operation.execute_spares done).halted no_target
  rw [step_notes]
  -- Of the operations only two kinds report anything that counts: undefined ones and jumps.
  by_cases undefined : machine.upcoming = .undefined
  · have same := kept (by rw [undefined]; rfl)
    rw [undefined]
    refine ⟨?_, ?_⟩
    · rw [same]
      exact Nat.zero_add _
    · simp [undefined, Operation.notes, Message.isUndefinedWord]
  cases found : machine.upcoming.target? machine.word machine.fetch.cpu with
  | none =>
    have aside := accounts_aside (kept found) (Operation.notes_aside undefined found)
    refine ⟨aside.selfJumps, aside.undefinedWords.trans ?_⟩
    simp [undefined]
  | some target =>
    have stepped := (step_of_ok (Operation.execute_of_target found)).1
    have raised : machine.step.machine.cpu.halted =
        (machine.cpu.halted || target == machine.fetch.cpu.last.address) := by
      rw [stepped]
      rfl
    have hint : machine.fetch.cpu.halted = machine.cpu.halted := rfl
    rw [Operation.notes_of_target found, hint]
    refine ⟨?_, ?_⟩
    · rw [raised]
      -- Reported is a jump in place, unless the hint was up already.
      by_cases here : target = machine.fetch.cpu.last.address
      · cases machine.cpu.halted <;> simp [here, Message.isSelfJump]
      · have away : (target == machine.fetch.cpu.last.address) = false := beq_false_of_ne here
        simp [here, away]
    · have uncounted : [machine].countP (·.upcoming = .undefined) = 0 := by simp [undefined]
      rw [uncounted]
      split <;> rfl

theorem accounts_run (count : Nat) (machine : Machine) :
    Accounts machine (run count machine).machine (visited count machine)
      (messages (run count machine).notes) := by
  induction count generalizing machine with
  | zero => exact accounts_silent rfl
  | succ count ih =>
    have stepped := machine.accounts_step
    cases faulted : machine.step.fault with
    | some fault =>
      rw [run_succ_of_fault faulted, visited, faulted]
      exact stepped
    | none =>
      have whole := stepped.append (ih machine.step.machine)
      rw [← List.map_append] at whole
      simpa [run, visited, faulted] using whole

/-- Actions that take the hint back. -/
def Action.Resets : Action → Prop
  | .reset | .unload => True
  | _ => False

theorem loading_notes (machine : Machine) (image : List UInt8) (after : List Diagnostic) :
    (machine.loading image after).notes =
      if image.length ≤ Memory.imageCapacity then
        .imageCopied image.length :: .imageLoaded image.length :: after
      else [] := by
  rw [loading_eq]
  split <;> rfl

theorem accounts_loading (machine : Machine) (image : List UInt8) {after : List Diagnostic}
    (aside : ∀ message ∈ messages after, ¬message.isSelfJump ∧ ¬message.isUndefinedWord) :
    Accounts machine (machine.loading image after).machine []
      (messages (machine.loading image after).notes) := by
  obtain ⟨memory, same⟩ := machine.loading_memory image after
  rw [same, loading_notes]
  split
  · refine accounts_aside rfl fun message found => ?_
    simp only [messages, List.map_cons, List.mem_cons] at found
    obtain rfl | rfl | found := found
    · exact ⟨nofun, nofun⟩
    · exact ⟨nofun, nofun⟩
    · exact aside message found
  · exact accounts_silent rfl

theorem accounts_perform (machine : Machine) (directory : Directory) {action : Action}
    (lasting : ¬action.Resets) :
    Accounts machine (machine.perform directory action).machine (machine.visitedBy action)
      (messages (machine.perform directory action).notes) := by
  cases action with
  | load image => exact machine.accounts_loading image nofun
  | loadFile name =>
    dsimp only [perform]
    cases directory.read name with
    | ok image =>
      exact machine.accounts_loading image (by simp [Message.isSelfJump, Message.isUndefinedWord])
    | error error => exact accounts_silent rfl
  | unload | reset => exact absurd trivial lasting
  | step => exact machine.accounts_step
  | run count => exact machine.accounts_run count
  | tick | setKeys _ | holdKey _ _ | setRedraw _ => exact accounts_silent rfl

end Machine

namespace Instance

/-- A slot reports what its run does, and the fault that ends it. -/
theorem runSlot_messages (length : Nat) (current : Instance) :
    (runSlot length current).messages =
      messages (Machine.run length current.machine).notes ++
        (Machine.run length current.machine).fault.toList.map (.faulted current.id) := by
  induction length generalizing current with
  | zero => rfl
  | succ length ih =>
    cases faulted : current.machine.step.fault with
    | some fault =>
      -- What the failing step reports comes before the line of its fault.
      rw [Machine.run_succ_of_fault faulted, faulted]
      simp only [runSlot, faulted]
      rfl
    | none =>
      simp only [runSlot, Machine.run, faulted, messages, List.map_append, List.append_assoc]
      rw [ih]

theorem faults_visited (count : Nat) (machine : Machine) :
    (Machine.visited count machine).filterMap (·.step.fault) =
      (Machine.run count machine).fault.toList := by
  induction count generalizing machine with
  | zero => rfl
  | succ count ih =>
    cases faulted : machine.step.fault with
    | some fault => simp [Machine.visited, Machine.run, faulted]
    | none => simp [Machine.visited, Machine.run, faulted, ih]

/-- What some steps of the machine make an instance report. -/
structure Reports (before after : Instance) (begun : List Machine) (reported : List Message) :
    Prop where
  accounts : Accounts before.machine after.machine begun reported
  faults : reported.filter (!·.isNote) =
    (begun.filterMap (·.step.fault)).map (.faulted before.id)

variable {current later : Instance}

theorem reports_runSlot (length : Nat) (current : Instance) :
    Reports current (runSlot length current).inst (current.machine.visited length)
      (runSlot length current).messages where
  accounts := by
    have fault : Accounts (Machine.run length current.machine).machine
        (Machine.run length current.machine).machine []
        ((Machine.run length current.machine).fault.toList.map (.faulted current.id)) :=
      accounts_aside rfl (by simp [Message.isSelfJump, Message.isUndefinedWord])
    have whole := (current.machine.accounts_run length).append fault
    rwa [List.append_nil, ← runSlot_messages, ← runSlot_machine] at whole
  faults := by
    have lines : ((Machine.run length current.machine).fault.toList.map
        (Message.faulted current.id)).filter (!·.isNote) =
        (Machine.run length current.machine).fault.toList.map (Message.faulted current.id) :=
      List.filter_eq_self.mpr (by simp [Message.isNote])
    rw [runSlot_messages, faults_visited, List.filter_append, Diagnostic.filter_messages,
      List.nil_append, lines]

/-- Nothing was executed, and nothing printed that tells of an execution. -/
theorem reports_idle (same : later.machine.cpu.halted = current.machine.cpu.halted)
    (notes : List Diagnostic)
    (aside : ∀ message ∈ messages notes, ¬message.isSelfJump ∧ ¬message.isUndefinedWord) :
    Reports current later [] (messages notes) :=
  ⟨accounts_aside same aside, Diagnostic.filter_messages notes⟩

theorem reports_silent (same : later.machine.cpu.halted = current.machine.cpu.halted) :
    Reports current later [] [] :=
  reports_idle same [] nofun

theorem reports_step (current : Instance) (directory : Directory) (clock : Float) :
    Reports current current.step.inst (current.visited ⟨directory, clock, .step⟩)
      current.step.messages := by
  unfold step
  dsimp only [visited]
  split
  · exact reports_silent rfl
  · exact reports_runSlot current.slotLength current

theorem reports_run (current : Instance) (directory : Directory) (clock : Float)
    (now : Option Amount) :
    Reports current (current.run (now.elim clock Amount.toFloat)).inst
      (current.visited ⟨directory, clock, .run now⟩)
      (current.run (now.elim clock Amount.toFloat)).messages := by
  obtain ⟨machine, lastTick, either, ⟨begun, lastSlot, slot⟩ | ⟨begun, idle⟩⟩ :=
    current.run_cases directory clock now
  all_goals
    have hint : machine.cpu.halted = current.machine.cpu.halted := by
      obtain rfl | rfl := either <;> rfl
  · rw [begun, slot]
    -- The slot starts from the ticked machine, with the same hint.
    obtain ⟨⟨selfJumps, undefinedWords⟩, faults⟩ :=
      reports_runSlot current.slotLength { current with machine, lastTick }
    rw [hint] at selfJumps
    exact ⟨⟨selfJumps, undefinedWords⟩, faults⟩
  · rw [begun, idle]
    exact reports_silent hint

theorem reports_of_calm (current : Instance) {call : Call} (calm : call.request.Calm) :
    Reports current (current.respond call).inst (current.visited call)
      (current.respond call).messages := by
  obtain ⟨keys, same⟩ := current.respond_machine_of_calm calm
  have hint : (current.respond call).inst.machine.cpu.halted = current.machine.cpu.halted := by
    rw [same]
  obtain ⟨directory, clock, request⟩ := call
  cases request with
  | start =>
    by_cases empty : current.state = .empty
    · rw [respond_start_of_empty empty] at hint ⊢
      exact reports_idle rfl [.instanceEmpty current.id]
        (by simp [Message.isSelfJump, Message.isUndefinedWord])
    · rw [respond_start_of_occupied empty]
      exact reports_silent rfl
  | stop | setSpeed _ _ | enableInput _ | setKeys _ => exact reports_silent hint
  | load _ | loadFile _ | reset | resetAndStop | step | run _ => exact calm.elim

theorem Event.reports {event : Event} (lasting : ¬event.Clears) :
    Reports event.inst event.response.inst (event.inst.visited event.call)
      event.response.messages := by
  by_cases asked : event.call.request.ForProgram
  · have rejected : event.response.failure ≠ none := fun done => lasting (.inr (.inr ⟨asked, done⟩))
    obtain ⟨machine, notes, responded⟩ | ⟨failure, responded⟩ := event.inst.respond_forProgram asked
    · exact absurd (by rw [response, responded]) rejected
    · rw [event.visited_of_forProgram asked, response, responded]
      exact reports_silent rfl
  obtain ⟨current, directory, clock, request⟩ := event
  cases request with
  | load _ | loadFile _ => exact absurd trivial asked
  | reset => exact absurd (.inl rfl) lasting
  | resetAndStop => exact absurd (.inr (.inl rfl)) lasting
  | step => exact current.reports_step directory clock
  | run now => exact current.reports_run directory clock now
  | start | stop | setSpeed _ _ | enableInput _ | setKeys _ =>
    exact current.reports_of_calm trivial

/-- The lines that a call prints whether they were asked for or not. -/
def Event.faultLines (event : Event) : List Message :=
  ((event.inst.visited event.call).filterMap (·.step.fault)).map (.faulted event.inst.id)

/-- A call that clears the hint prints diagnostics alone, and executes nothing. -/
theorem Event.idle_of_clears {event : Event} (clears : event.Clears) :
    event.inst.visited event.call = [] ∧ ∃ notes, event.response.messages = messages notes := by
  by_cases asked : event.call.request.ForProgram
  · refine ⟨event.visited_of_forProgram asked, ?_⟩
    obtain ⟨machine, notes, responded⟩ | ⟨failure, responded⟩ := event.inst.respond_forProgram asked
    · exact ⟨notes, by rw [response, responded]⟩
    · exact ⟨[], by rw [response, responded]; rfl⟩
  obtain ⟨current, directory, clock, request⟩ := event
  cases request with
  | load _ | loadFile _ => exact absurd trivial asked
  | reset => exact ⟨rfl, [_], rfl⟩
  | resetAndStop => exact ⟨rfl, [_], rfl⟩
  | _ => simp [Clears, Loads, Request.ForProgram] at clears

theorem Event.filter_messages (event : Event) :
    event.response.messages.filter (!·.isNote) = event.faultLines := by
  by_cases clears : event.Clears
  · obtain ⟨idle, notes, silent⟩ := event.idle_of_clears clears
    rw [silent, Diagnostic.filter_messages, faultLines, idle]
    rfl
  · exact (event.reports clears).faults

end Instance
end ChipEight
