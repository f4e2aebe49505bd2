import ChipEight.Proofs.Arithmetic
import ChipEight.Proofs.DialectIndependence
import ChipEight.Proofs.NextAddress
import ChipEight.Proofs.VisitedStates

/-!
# Waiting for a key

A program waits for a key by executing one word again and again, each time going back to it as long
as no key is held. Main statement: however often it is executed in vain, wherever in memory it
stands, the machine stays as it is but for the host's own ticks and keys, until a step finds a key,
takes the lowest and goes on. The hint that a key is awaited tells whether the latest step since the
last reset was one in vain.
-/
namespace ChipEight

/-- `FX0A`. -/
def Word.AwaitsKey (word : Word) : Prop := word.family.val = 0xF ∧ word.nn = 0x0A

namespace Keypad

def NoneHeld (keys : Keypad) : Prop := ∀ key, keys.isHeld key = false

/-- The key is held and none before it is. -/
def Lowest (keys : Keypad) (key : Fin 16) : Prop :=
  keys.isHeld key = true ∧ ∀ before < key, keys.isHeld before = false

theorem lowestHeld?_eq_some_iff (keys : Keypad) (key : Fin 16) :
    keys.lowestHeld? = some key ↔ keys.Lowest key := by
  rw [lowestHeld?, List.find?_eq_some_iff_getElem]
  apply and_congr_right
  intro _
  constructor
  · rintro ⟨place, inside, rfl, earlier⟩ before lower
    have passed := earlier before.val (by simpa [Fin.lt_def] using lower)
    simpa using passed
  · intro earlier
    refine ⟨key.val, by simp, by simp, ?_⟩
    intro before lower
    simpa using earlier ⟨before, by omega⟩ (by simpa [Fin.lt_def] using lower)

theorem exists_lowest {keys : Keypad} {held : Fin 16} (down : keys.isHeld held = true) :
    ∃ key, keys.Lowest key := by
  cases lowest : keys.lowestHeld? with
  | none =>
    have released := keys.lowestHeld?_eq_none_iff.mp lowest held
    rw [down] at released
    cases released
  | some key => exact ⟨key, (keys.lowestHeld?_eq_some_iff key).mp lowest⟩

theorem Lowest.unique {keys : Keypad} {key other : Fin 16} (lowest : keys.Lowest key)
    (also : keys.Lowest other) : key = other := by
  rw [← lowestHeld?_eq_some_iff] at lowest also
  exact Option.some.inj (lowest.symm.trans also)

end Keypad

/-- What is left of a timer after some ticks. -/
def Processor.countdown (timer : UInt8) (ticks : Nat) : UInt8 := UInt8.ofNat (timer.toNat - ticks)

theorem Processor.countdown_zero (timer : UInt8) : countdown timer 0 = timer := by
  simp [countdown]

/-- A tick takes one off a timer that has not run out. -/
theorem Processor.countdown_succ (timer : UInt8) (ticks : Nat) :
    (if countdown timer ticks = 0 then 0 else countdown timer ticks - 1) =
      countdown timer (ticks + 1) := by
  have bound := timer.toNat_lt
  have left (ticks : Nat) : (countdown timer ticks).toNat = timer.toNat - ticks := by
    rw [countdown, UInt8.toNat_ofNat']
    omega
  have before := left ticks
  apply UInt8.toNat_inj.mp
  rw [left]
  by_cases out : countdown timer ticks = 0
  · rw [out, UInt8.toNat_zero] at before
    rw [if_pos out, UInt8.toNat_zero]
    omega
  · have positive : (countdown timer ticks).toNat ≠ 0 := fun zero => out (UInt8.toNat_inj.mp zero)
    rw [if_neg out, UInt8.toNat_sub, UInt8.toNat_one]
    omega

namespace Machine

/-- The next step executes a wait and finds no key. -/
def WaitsInVain (machine : Machine) : Prop := machine.word.AwaitsKey ∧ machine.keys.NoneHeld

/-- What a host may do while a program waits. -/
def Action.Waits : Action → Prop
  | .step | .run _ | .tick | .setKeys _ | .holdKey _ _ => True
  | _ => False

def Action.makesStep : Action → Bool
  | .step => true
  | .run count => 0 < count
  | _ => false

/-- The keys after an action that sets them, or another one. -/
def Action.keysAfter (keys : Keypad) : Action → Keypad
  | .setKeys states => keys.copy states
  | .holdKey key held => keys.hold key held
  | _ => keys

/-- The machine while it waits: the host has set its keys and ticked its timers, and steps made in
vain have left their record. -/
def inWait (machine : Machine) (keys : Keypad) (ticks : Nat) (stepped : Bool) : Machine :=
  { machine with
    keys
    cpu := { machine.cpu with
      delay := Processor.countdown machine.cpu.delay ticks
      sound := Processor.countdown machine.cpu.sound ticks
      last := if stepped then ⟨machine.word, machine.cpu.pc⟩ else machine.cpu.last
      awaitingKey := stepped || machine.cpu.awaitingKey } }

@[simp] theorem inWait_pc (machine : Machine) (keys : Keypad) (ticks : Nat) (stepped : Bool) :
    (machine.inWait keys ticks stepped).cpu.pc = machine.cpu.pc := rfl

@[simp] theorem inWait_keys (machine : Machine) (keys : Keypad) (ticks : Nat) (stepped : Bool) :
    (machine.inWait keys ticks stepped).keys = keys := rfl

variable {machine : Machine} {directory : Directory}

theorem upcoming_of_awaitsKey (awaits : machine.word.AwaitsKey) : machine.upcoming = .awaitKey :=
  machine.upcoming_eq_awaitKey_iff.mpr awaits

/-! ### One step -/

theorem step_of_waitsInVain (within : machine.cpu.pc.toNat < 4096) (vain : machine.WaitsInVain) :
    machine.step.machine =
      { machine with
        cpu := { machine.cpu with last := ⟨machine.word, machine.cpu.pc⟩, awaitingKey := true } } ∧
    machine.step.fault = none := by
  have released : machine.fetch.keys.lowestHeld? = none :=
    machine.keys.lowestHeld?_eq_none_iff.mpr vain.2
  have waited := @Operation.execute_awaitKey_of_released machine.word machine.fetch released
  -- The counter has moved on before the word is executed, and goes back across the same edge.
  have back : (machine.fetch.cpu.pc - 2) % 4096 = machine.cpu.pc := Processor.following_sub within
  rw [← upcoming_of_awaitsKey vain.1, back] at waited
  exact step_of_ok waited

theorem step_of_lowest {key : Fin 16} (awaits : machine.word.AwaitsKey)
    (lowest : machine.keys.Lowest key) :
    machine.step.machine =
      machine.goingOn (machine.cpu.registers.set machine.word.x.val (UInt8.ofNat key.val))
        machine.cpu.index ∧
    machine.step.fault = none := by
  have held : machine.fetch.keys.lowestHeld? = some key :=
    (machine.keys.lowestHeld?_eq_some_iff key).mpr lowest
  have found := @Operation.execute_awaitKey_of_held machine.word machine.fetch key held
  rw [← upcoming_of_awaitsKey awaits] at found
  exact step_of_ok found

/-- Every step says anew whether a key is awaited. -/
theorem step_awaitingKey_iff (machine : Machine) :
    machine.step.machine.cpu.awaitingKey = true ↔ machine.WaitsInVain := by
  by_cases awaits : machine.word.AwaitsKey
  · have waits := upcoming_of_awaitsKey awaits
    cases lowest : machine.keys.lowestHeld? with
    | none =>
      have none_held := machine.keys.lowestHeld?_eq_none_iff.mp lowest
      exact iff_of_true (step_awaitKey_of_released waits lowest).2 ⟨awaits, none_held⟩
    | some key =>
      have found := (machine.keys.lowestHeld?_eq_some_iff key).mp lowest
      have goes_on : machine.step.machine.cpu.awaitingKey = false := by
        rw [(step_of_lowest awaits found).1]
        rfl
      refine iff_of_false (by simp [goes_on]) ?_
      intro vain
      have unheld := vain.2 key
      rw [found.1] at unheld
      cases unheld
  · have other : machine.upcoming ≠ .awaitKey := by
      intro waits
      exact awaits (machine.upcoming_eq_awaitKey_iff.mp waits)
    have lowered : machine.step.machine.cpu.awaitingKey = false := by
      cases outcome : machine.upcoming.execute machine.word machine.fetch with
      | ok next =>
        rw [(step_of_ok outcome).1, (Operation.execute_spares outcome).awaitingKey other]
        rfl
      | error fault =>
        rw [(step_of_error outcome).1]
        rfl
    exact iff_of_false (by simp [lowered]) (fun vain => awaits vain.1)

/-! ### A wait -/

variable {keys : Keypad} {ticks : Nat} {stepped : Bool}

theorem inWait_start (machine : Machine) : machine.inWait machine.keys 0 false = machine := by
  simp only [inWait, Processor.countdown_zero, Bool.false_eq_true, if_false, Bool.false_or]

theorem step_inWait (within : machine.cpu.pc.toNat < 4096) (awaits : machine.word.AwaitsKey)
    (none_held : keys.NoneHeld) :
    (machine.inWait keys ticks stepped).step.machine = machine.inWait keys ticks true ∧
    (machine.inWait keys ticks stepped).step.fault = none := by
  have vain : (machine.inWait keys ticks stepped).WaitsInVain := ⟨awaits, none_held⟩
  exact step_of_waitsInVain within vain

theorem run_inWait (within : machine.cpu.pc.toNat < 4096) (awaits : machine.word.AwaitsKey)
    (count : Nat) (none_held : 0 < count → keys.NoneHeld) (stepped : Bool) :
    (run count (machine.inWait keys ticks stepped)).machine =
        machine.inWait keys ticks (stepped || decide (0 < count)) ∧
    (run count (machine.inWait keys ticks stepped)).fault = none := by
  induction count generalizing stepped with
  | zero =>
    simp only [Nat.lt_irrefl, decide_false, Bool.or_false]
    exact ⟨rfl, rfl⟩
  | succ count ih =>
    obtain ⟨stayed, unfaulted⟩ :=
      @step_inWait machine keys ticks stepped within awaits (none_held count.succ_pos)
    obtain ⟨reached, outcome⟩ := run_succ unfaulted count
    rw [reached, outcome, stayed]
    have rest := ih (fun _ => none_held count.succ_pos) true
    simpa using rest

theorem tick_inWait (machine : Machine) (keys : Keypad) (ticks : Nat) (stepped : Bool) :
    (machine.inWait keys ticks stepped).tick = machine.inWait keys (ticks + 1) stepped := by
  simp only [inWait, ← Processor.countdown_succ]
  rfl

/-- Whatever the host does, a wait goes on as long as no step meets a key. -/
theorem perform_inWait (within : machine.cpu.pc.toNat < 4096) (awaits : machine.word.AwaitsKey)
    {action : Action} (waits : action.Waits)
    (none_held : ∀ state ∈ (machine.inWait keys ticks stepped).visitedBy action,
      state.keys.NoneHeld) :
    ((machine.inWait keys ticks stepped).perform directory action).machine =
        machine.inWait (action.keysAfter keys) (ticks + if action.isTick then 1 else 0)
          (stepped || action.makesStep) ∧
    ((machine.inWait keys ticks stepped).perform directory action).failure = none := by
  cases action with
  | step =>
    obtain ⟨stayed, unfaulted⟩ := @step_inWait machine keys ticks stepped within awaits
      (none_held _ List.mem_cons_self)
    simp only [perform, Response.ofOutcome, stayed, unfaulted, Action.makesStep, Bool.or_true]
    exact ⟨rfl, rfl⟩
  | run count =>
    have first (positive : 0 < count) : keys.NoneHeld := none_held _ (mem_visited positive _)
    obtain ⟨stayed, unfaulted⟩ := @run_inWait machine keys ticks within awaits count first stepped
    simp only [perform, Response.ofOutcome, stayed, unfaulted]
    exact ⟨rfl, rfl⟩
  | tick =>
    simp only [perform, tick_inWait, Action.makesStep, Bool.or_false]
    exact ⟨rfl, trivial⟩
  | setKeys states | holdKey key held =>
    simp only [perform, setKeys, holdKey, inWait, Action.makesStep, Bool.or_false]
    exact ⟨rfl, trivial⟩
  | load _ | loadFile _ | unload | reset | setRedraw _ => exact waits.elim

theorem performAll_inWait (within : machine.cpu.pc.toNat < 4096) (awaits : machine.word.AwaitsKey)
    (actions : List Action) (waits : ∀ action ∈ actions, action.Waits)
    (none_held : ∀ state ∈ visitedByAll directory (machine.inWait keys ticks stepped) actions,
      state.keys.NoneHeld) :
    (machine.inWait keys ticks stepped).performAll directory actions =
        machine.inWait (actions.foldl Action.keysAfter keys)
          (ticks + actions.countP Action.isTick) (stepped || actions.any Action.makesStep) ∧
    ∀ response ∈ (machine.inWait keys ticks stepped).responses directory actions,
      response.failure = none := by
  induction actions generalizing keys ticks stepped with
  | nil =>
    simp only [List.any_nil, Bool.or_false]
    exact ⟨rfl, by simp [responses]⟩
  | cons action actions ih =>
    rw [List.forall_mem_cons] at waits
    rw [visitedByAll, List.forall_mem_append] at none_held
    obtain ⟨stayed, unfailed⟩ :=
      @perform_inWait machine directory keys ticks stepped within awaits action waits.1 none_held.1
    rw [stayed] at none_held
    obtain ⟨reached, rest⟩ := ih waits.2 none_held.2
    have counted : ticks + (action :: actions).countP Action.isTick =
        ticks + (if action.isTick then 1 else 0) + actions.countP Action.isTick := by
      rw [List.countP_cons]
      omega
    rw [performAll, List.foldl_cons, stayed, responses, List.forall_mem_cons, stayed, counted,
      List.any_cons, ← Bool.or_assoc]
    exact ⟨reached, unfailed, rest⟩

/-! ### The latest step -/

/-- The states since the last reset: `passed` before the action, the result after it. -/
def visitedSince (machine : Machine) (passed : List Machine) : Action → List Machine
  | .unload | .reset => []
  | action => passed ++ machine.visitedBy action

def visitedSinceAll (directory : Directory) : Machine → List Machine → List Action → List Machine
  | _, passed, [] => passed
  | machine, passed, action :: actions =>
    visitedSinceAll directory (machine.perform directory action).machine
      (machine.visitedSince passed action) actions

/-- The hint that a key is awaited tells whether the latest state was one of a wait in vain. -/
def KeyHintExact (machine : Machine) (passed : List Machine) : Prop :=
  machine.cpu.awaitingKey = true ↔
    ∃ latest, passed.getLast? = some latest ∧ latest.WaitsInVain

variable {passed : List Machine}

/-- A run ends where the latest of its steps leads. -/
theorem run_machine_eq (count : Nat) (machine : Machine) :
    (run count machine).machine =
      (visited count machine).getLast?.elim machine fun latest => latest.step.machine := by
  induction count generalizing machine with
  | zero => rfl
  | succ count ih =>
    rw [visited]
    cases faulted : machine.step.fault with
    | some fault =>
      rw [run_succ_of_fault faulted]
      rfl
    | none =>
      rw [(run_succ faulted count).1, ih, if_pos rfl, List.getLast?_cons]
      cases (visited count machine.step.machine).getLast? <;> rfl

theorem keyHintExact_of_lowered (lowered : machine.cpu.awaitingKey = false) :
    machine.KeyHintExact [] := by
  simp [KeyHintExact, lowered]

theorem KeyHintExact.congr (exact : machine.KeyHintExact passed) {later : Machine}
    (same : later.cpu.awaitingKey = machine.cpu.awaitingKey) : later.KeyHintExact passed := by
  rw [KeyHintExact, same]
  exact exact

theorem KeyHintExact.visit (exact : machine.KeyHintExact passed) {later : Machine}
    {states : List Machine}
    (reached : later = states.getLast?.elim machine fun latest => latest.step.machine) :
    later.KeyHintExact (passed ++ states) := by
  unfold KeyHintExact
  rw [reached, List.getLast?_append]
  cases states.getLast? with
  | none =>
    rw [Option.none_or]
    exact exact
  | some latest =>
    -- Whatever was before, the latest step alone decides.
    simp only [Option.elim_some, Option.some_or, Option.some.injEq, exists_eq_left']
    exact step_awaitingKey_iff latest

theorem KeyHintExact.perform (exact : machine.KeyHintExact passed) (directory : Directory)
    (action : Action) :
    (machine.perform directory action).machine.KeyHintExact
      (machine.visitedSince passed action) := by
  cases action with
  | unload | reset => exact keyHintExact_of_lowered rfl
  | step => exact exact.visit rfl
  | run count => exact exact.visit (run_machine_eq count machine)
  | load image =>
    obtain ⟨memory, loaded⟩ := machine.loading_memory image []
    simp only [Machine.perform, visitedSince, visitedBy, List.append_nil, loaded]
    exact exact.congr rfl
  | loadFile name =>
    obtain ⟨memory, loaded⟩ := machine.perform_loadFile_memory directory name
    simp only [visitedSince, visitedBy, List.append_nil, loaded]
    exact exact.congr rfl
  | tick | setKeys _ | holdKey _ _ | setRedraw _ =>
    simp only [visitedSince, visitedBy, List.append_nil]
    exact exact.congr rfl

theorem KeyHintExact.performAll (exact : machine.KeyHintExact passed) (directory : Directory)
    (actions : List Action) :
    (machine.performAll directory actions).KeyHintExact
      (visitedSinceAll directory machine passed actions) := by
  induction actions generalizing machine passed with
  | nil => exact exact
  | cons action actions ih => exact ih (exact.perform directory action)

theorem performAll_of_awaitsKey (within : machine.cpu.pc.toNat < 4096)
    (awaits : machine.word.AwaitsKey) {waiting : List Action}
    (waits : ∀ action ∈ waiting, action.Waits)
    (none_held : ∀ state ∈ machine.visitedByAll directory waiting, state.keys.NoneHeld) :
    machine.performAll directory waiting =
        machine.inWait (waiting.foldl Action.keysAfter machine.keys)
          (waiting.countP Action.isTick) (waiting.any Action.makesStep) ∧
    ∀ response ∈ machine.responses directory waiting, response.failure = none := by
  have from_start := @performAll_inWait machine directory machine.keys 0 false within awaits waiting
    waits
  rw [machine.inWait_start, Bool.false_or, Nat.zero_add] at from_start
  exact from_start none_held

/-- The word is still the one that the program came to, so that the step that meets a key executes
it. -/
theorem step_inWait_of_lowest (awaits : machine.word.AwaitsKey) {key : Fin 16}
    (lowest : keys.Lowest key) :
    let later := machine.inWait keys ticks stepped
    later.step.fault = none ∧
    later.step.machine.cpu.pc.toNat = (machine.cpu.pc.toNat + 2) % 4096 ∧
    later.step.machine = later.goingOn
      (later.cpu.registers.set machine.word.x.val (UInt8.ofNat key.val)) later.cpu.index := by
  intro later
  have still : later.word.AwaitsKey := awaits
  obtain ⟨taken, unfaulted⟩ := step_of_lowest still lowest
  refine ⟨unfaulted, ?_, taken⟩
  rw [taken]
  exact Processor.toNat_following machine.cpu.pc

/-- What comes of a wait: nothing fails, the machine stays, and the first step that meets a key
takes the lowest and goes on. -/
structure WaitsThrough (directory : Directory) (machine : Machine) (waiting : List Action) :
    Prop where
  unfailed : ∀ response ∈ machine.responses directory waiting, response.failure = none
  stayed : machine.performAll directory waiting =
    machine.inWait (waiting.foldl Action.keysAfter machine.keys) (waiting.countP Action.isTick)
      (waiting.any Action.makesStep)
  ended : let later := machine.performAll directory waiting
    ∀ held, later.keys.isHeld held = true → ∃ key, later.keys.Lowest key ∧
      later.step.fault = none ∧
      later.step.machine.cpu.pc.toNat = (machine.cpu.pc.toNat + 2) % 4096 ∧
      later.step.machine = later.goingOn
        (later.cpu.registers.set machine.word.x.val (UInt8.ofNat key.val)) later.cpu.index

theorem waitsThrough (within : machine.cpu.pc.toNat < 4096) (awaits : machine.word.AwaitsKey)
    {waiting : List Action} (waits : ∀ action ∈ waiting, action.Waits)
    (none_held : ∀ state ∈ machine.visitedByAll directory waiting, state.keys.NoneHeld) :
    WaitsThrough directory machine waiting := by
  obtain ⟨stayed, unfailed⟩ := performAll_of_awaitsKey within awaits waits none_held
  refine ⟨unfailed, stayed, ?_⟩
  rw [stayed]
  intro later held down
  obtain ⟨key, lowest⟩ := Keypad.exists_lowest down
  exact ⟨key, lowest, step_inWait_of_lowest awaits lowest⟩

/-- A program that stands at a wait stays there, whatever keys and ticks the host makes in between,
until a step meets a key. The hint is raised by each step in vain, and lowered by any other step and
by a reset. -/
theorem waits_end_with_the_lowest_key (directory : Directory) (dialect : Dialect) (seed : Int)
    (actions : List Action) :
    let machine := (initial dialect seed).performAll directory actions
    (machine.word.AwaitsKey → ∀ waiting : List Action, (∀ action ∈ waiting, action.Waits) →
      (∀ state ∈ machine.visitedByAll directory waiting, state.keys.NoneHeld) →
      WaitsThrough directory machine waiting) ∧
    (machine.cpu.awaitingKey = true ↔ ∃ latest,
      (visitedSinceAll directory (initial dialect seed) [] actions).getLast? = some latest ∧
        latest.WaitsInVain) := by
  intro machine
  have within : machine.cpu.pc.toNat < 4096 :=
    (performAll_withinMemory directory dialect seed actions).pc
  have fresh : (initial dialect seed).KeyHintExact [] := keyHintExact_of_lowered rfl
  refine ⟨?_, fresh.performAll directory actions⟩
  intro awaits waiting waits none_held
  exact waitsThrough within awaits waits none_held

/-- A step in vain and two keys held after it: the lower one ends the wait. -/
theorem wait_takes_lower_of_two_keys :
    let machine := (initial {} 0).performAll [] [.load #[0xF3, 0x0A].toList]
    let waiting : List Action := [.tick, .step, .holdKey 9 true, .holdKey 5 true]
    let later := machine.performAll [] waiting
    machine.word.AwaitsKey ∧ (∀ action ∈ waiting, action.Waits) ∧
    (∀ state ∈ machine.visitedByAll [] waiting, state.keys.NoneHeld) ∧
    later.cpu.awaitingKey = true ∧ later.cpu.pc = 0x200 ∧
    later.step.machine.cpu.pc.toNat = 0x202 ∧ later.step.machine.cpu.get 3 = 5 := by
  intro machine waiting later
  have start : machine = holding #[0xF3, 0x0A] := performAll_load [] (by decide)
  have word : machine.word = 0xF30A := by
    rw [start, word_holding (by decide) (by decide)]
    decide
  have pc : machine.cpu.pc = 0x200 := by
    rw [start]
    rfl
  have keys : machine.keys = Keypad.released := by
    rw [start]
    rfl
  have awaits : machine.word.AwaitsKey := by
    rw [word]
    exact ⟨by decide, by decide⟩
  have waits : ∀ action ∈ waiting, action.Waits := by
    simp [waiting, Action.Waits]
  have none_held : ∀ state ∈ machine.visitedByAll [] waiting, state.keys.NoneHeld := by
    -- The machine that steps has been ticked, and its keys are those of power on.
    have visits (machine : Machine) : machine.visitedByAll [] waiting = [machine.tick] := rfl
    have ticked (machine : Machine) : machine.tick.keys = machine.keys := rfl
    rw [visits, List.forall_mem_singleton, ticked, keys]
    unfold Keypad.NoneHeld
    decide
  have through : WaitsThrough [] machine waiting :=
    (waits_end_with_the_lowest_key [] {} 0 [.load #[0xF3, 0x0A].toList]).1 awaits waiting waits
      none_held
  have stayed : later = machine.inWait _ 1 true := through.stayed
  have held : waiting.foldl Action.keysAfter machine.keys =
      (Keypad.released.hold 9 true).hold 5 true := by
    rw [keys]
    rfl
  have lowest : later.keys.Lowest 5 := by
    rw [stayed, inWait_keys, held]
    unfold Keypad.Lowest
    decide
  obtain ⟨key, taken_key, -, moved, taken⟩ := through.ended 5 lowest.1
  obtain rfl : 5 = key := lowest.unique taken_key
  refine ⟨awaits, waits, none_held, ?_, ?_, ?_, ?_⟩
  · rw [stayed]
    rfl
  · rw [stayed, inWait_pc, pc]
  · have two_on : ((0x200 : UInt16).toNat + 2) % 4096 = 0x202 := by decide
    rw [moved, pc, two_on]
  · have third : machine.word.x = 3 := by
      rw [word]
      rfl
    have put (machine : Machine) (register : Register) (value : UInt8) (index : UInt16) :
        (machine.goingOn (machine.cpu.registers.set register.val value) index).cpu.get register =
          value := Vector.getElem_set_self register.isLt
    rw [taken, ← third, put]
    rfl

end Machine
end ChipEight
