import ChipEight.Proofs.VisitedStates

/-!
# Random bytes

One instruction draws random bytes, one at each execution. Main statement: the generator that a
machine was made with is advanced by these draws and by nothing else, so that the bytes depend on
the seed alone, whatever programs run and whatever the host does.
-/
namespace ChipEight

namespace Random.Generator

/-- The generator after a number of bytes. -/
def after (generator : Generator) : Nat → Generator
  | 0 => generator
  | count + 1 => (generator.after count).nextByte.2

/-- The byte that follows a number of others. -/
def byteAt (generator : Generator) (count : Nat) : UInt8 := (generator.after count).nextByte.1

theorem after_add (generator : Generator) (first second : Nat) :
    generator.after (first + second) = (generator.after first).after second := by
  induction second with
  | zero => rfl
  | succ second ih => rw [← Nat.add_assoc, after, after, ih]

end Random.Generator

open ChipEight.Random (Generator)

/-- The word puts a random byte into a register. -/
def Word.DrawsByte (word : Word) : Prop := word.family.val = 0xC

instance (word : Word) : Decidable word.DrawsByte := inferInstanceAs (Decidable (_ = _))

namespace Machine

variable {machine : Machine} {directory : Directory}

/-- The states in which a sequence of actions draws a random byte. -/
def draws (directory : Directory) (machine : Machine) (actions : List Action) : List Machine :=
  (visitedByAll directory machine actions).filter (·.word.DrawsByte)

/-! ### One step -/

theorem step_of_drawsByte (draws : machine.word.DrawsByte) :
    machine.step.machine =
      { machine.fetch with
        cpu := machine.fetch.cpu.set machine.word.x (machine.random.nextByte.1 &&& machine.word.nn)
        random := machine.random.nextByte.2 } := by
  have executed := Operation.execute_random machine.word machine.fetch
  have random : machine.fetch.random = machine.random := rfl
  rw [← machine.upcoming_eq_random_iff.mpr draws, random] at executed
  exact (step_of_ok executed).1

theorem step_random_of_drawsByte (draws : machine.word.DrawsByte) :
    machine.step.machine.random = machine.random.nextByte.2 := by
  rw [step_of_drawsByte draws]

theorem step_get_of_drawsByte (draws : machine.word.DrawsByte) :
    machine.step.machine.cpu.get machine.word.x =
      machine.random.nextByte.1 &&& machine.word.nn := by
  rw [step_of_drawsByte draws, Processor.get_set, if_pos rfl]

theorem step_memory_of_drawsByte (draws : machine.word.DrawsByte) :
    machine.step.machine.memory = machine.memory := by
  simp only [step_of_drawsByte draws, fetch]

theorem step_random_of_idle (idle : ¬machine.word.DrawsByte) :
    machine.step.machine.random = machine.random := by
  have other : machine.upcoming ≠ .random := by
    intro upcoming
    exact idle (machine.upcoming_eq_random_iff.mp upcoming)
  apply step_part Machine.random rfl rfl
  intro next done
  exact (Operation.execute_spares done).random other

theorem step_random (machine : Machine) :
    machine.step.machine.random =
      if machine.word.DrawsByte then machine.random.nextByte.2 else machine.random := by
  split
  next draws => exact step_random_of_drawsByte draws
  next idle => exact step_random_of_idle idle

/-! ### Sequences of steps -/

/-- Drawing states that take one generator to another, each by one byte. -/
structure TakesOn (draws : List Machine) (first last : Generator) : Prop where
  last_eq : last = first.after draws.length
  each : ∀ count state, draws[count]? = some state → state.random = first.after count

theorem takesOn_nil (generator : Generator) : TakesOn [] generator generator where
  last_eq := rfl
  each count state found := by simp at found

theorem takesOn_step (machine : Machine) :
    TakesOn ([machine].filter (·.word.DrawsByte)) machine.random machine.step.machine.random := by
  by_cases draws : machine.word.DrawsByte
  · rw [List.filter_cons_of_pos (by simpa using draws), List.filter_nil]
    refine ⟨step_random_of_drawsByte draws, ?_⟩
    intro count state found
    cases count with
    | zero =>
      cases found
      rfl
    | succ count => cases found
  · rw [List.filter_cons_of_neg (by simpa using draws), List.filter_nil, step_random_of_idle draws]
    exact takesOn_nil machine.random

theorem TakesOn.append {draws later : List Machine} {first middle last : Generator}
    (before : TakesOn draws first middle) (behind : TakesOn later middle last) :
    TakesOn (draws ++ later) first last where
  last_eq := by
    rw [List.length_append, Generator.after_add, ← before.last_eq]
    exact behind.last_eq
  each count state found := by
    by_cases earlier : count < draws.length
    · rw [List.getElem?_append_left earlier] at found
      exact before.each count state found
    · -- A later draw is counted behind all of the earlier ones.
      have passed : draws.length ≤ count := Nat.le_of_not_lt earlier
      rw [List.getElem?_append_right passed] at found
      have there := behind.each _ state found
      rw [before.last_eq, ← Generator.after_add, Nat.add_sub_cancel' passed] at there
      exact there

theorem takesOn_run (count : Nat) (machine : Machine) :
    TakesOn ((visited count machine).filter (·.word.DrawsByte)) machine.random
      (run count machine).machine.random := by
  induction count generalizing machine with
  | zero => exact takesOn_nil machine.random
  | succ count ih =>
    rw [visited, ← List.singleton_append, List.filter_append]
    apply (takesOn_step machine).append
    -- After a fault there is no rest of the run.
    cases faulted : machine.step.fault with
    | some fault =>
      rw [if_neg (by simp), run_succ_of_fault faulted]
      exact takesOn_nil _
    | none =>
      rw [if_pos rfl, (run_succ faulted count).1]
      exact ih machine.step.machine

theorem takesOn_perform (directory : Directory) (machine : Machine) (action : Action) :
    TakesOn ((machine.visitedBy action).filter (·.word.DrawsByte)) machine.random
      (machine.perform directory action).machine.random := by
  cases action with
  | step => exact takesOn_step machine
  | run count => exact takesOn_run count machine
  | load image =>
    obtain ⟨memory, loaded⟩ := machine.loading_memory image []
    rw [perform, loaded]
    exact takesOn_nil machine.random
  | loadFile name =>
    obtain ⟨memory, loaded⟩ := machine.perform_loadFile_memory directory name
    rw [loaded]
    exact takesOn_nil machine.random
  | unload | reset | tick | setKeys _ | holdKey _ _ | setRedraw _ =>
    simp only [perform, unload, reset, tick, setKeys, holdKey, setRedraw]
    exact takesOn_nil machine.random

theorem takesOn_performAll (directory : Directory) (machine : Machine) (actions : List Action) :
    TakesOn (machine.draws directory actions) machine.random
      (machine.performAll directory actions).random := by
  induction actions generalizing machine with
  | nil => exact takesOn_nil machine.random
  | cons action actions ih =>
    rw [draws, visitedByAll, List.filter_append]
    exact (takesOn_perform directory machine action).append (ih _)

theorem mem_draws {actions : List Action} {count : Nat} {state : Machine}
    (found : (machine.draws directory actions)[count]? = some state) : state.word.DrawsByte := by
  simpa using (List.mem_filter.mp (List.mem_of_getElem? found)).2

/-- The bytes of a machine are those of its seed, in their order: each draw takes one, and nothing
else takes any. So machines of one seed get the same bytes, in whatever dialects they execute
whatever programs for whatever hosts. -/
theorem random_bytes_follow_the_seed (seed : Int) :
    (∀ machine : Machine, machine.step.machine.random =
      if machine.word.DrawsByte then machine.random.nextByte.2 else machine.random) ∧
    (∀ (directory : Directory) (machine : Machine) (action : Action),
      machine.visitedBy action = [] →
        (machine.perform directory action).machine.random = machine.random) ∧
    (∀ (directory : Directory) (dialect : Dialect) (actions : List Action),
      let machine := initial dialect seed
      let bytes := Generator.ofSeed seed
      (machine.performAll directory actions).random =
        bytes.after (machine.draws directory actions).length ∧
      ∀ count state, (machine.draws directory actions)[count]? = some state →
        state.random = bytes.after count ∧
        state.step.machine.random = bytes.after (count + 1) ∧
        state.step.machine.cpu.get state.word.x = bytes.byteAt count &&& state.word.nn) ∧
    ∀ (directory otherDirectory : Directory) (dialect otherDialect : Dialect)
      (actions otherActions : List Action) (count : Nat) (state other : Machine),
      ((initial dialect seed).draws directory actions)[count]? = some state →
      ((initial otherDialect seed).draws otherDirectory otherActions)[count]? = some other →
        state.random.nextByte = other.random.nextByte := by
  have taken (directory : Directory) (dialect : Dialect) (actions : List Action) :=
    takesOn_performAll directory (initial dialect seed) actions
  refine ⟨step_random, ?_, ?_, ?_⟩
  · intro directory machine action none_visited
    have idle := (takesOn_perform directory machine action).last_eq
    rw [none_visited] at idle
    exact idle
  · intro directory dialect actions machine bytes
    refine ⟨(taken directory dialect actions).last_eq, ?_⟩
    intro count state found
    have here := (taken directory dialect actions).each count state found
    have draws := mem_draws found
    refine ⟨here, ?_, ?_⟩
    · rw [step_random_of_drawsByte draws, here]
      rfl
    · rw [step_get_of_drawsByte draws, here]
      rfl
  · intro directory otherDirectory dialect otherDialect actions otherActions count state other found
      otherFound
    rw [(taken directory dialect actions).each count state found,
      (taken otherDirectory otherDialect otherActions).each count other otherFound]
    rfl

/-- A reset brings the program back to its beginning. -/
theorem word_after_reset (draws : machine.word.DrawsByte)
    (begins : machine.cpu.pc = Processor.initial.pc) :
    machine.step.machine.reset.word = machine.word := by
  have memory : machine.step.machine.reset.memory = machine.memory :=
    step_memory_of_drawsByte draws
  rw [word, word, memory, begins]
  rfl

theorem draws_around_reset (draws : machine.word.DrawsByte)
    (begins : machine.cpu.pc = Processor.initial.pc) :
    machine.draws directory [.step, .reset, .step] = [machine, machine.step.machine.reset] := by
  have again : machine.step.machine.reset.word.DrawsByte := by
    rw [word_after_reset draws begins]
    exact draws
  have visited : visitedByAll directory machine [.step, .reset, .step] =
      [machine, machine.step.machine.reset] := rfl
  rw [Machine.draws, visited]
  simp [draws, again]

/-- A program that draws one byte, and what it draws after a reset. -/
theorem second_byte_after_a_reset :
    let rolling := holding #[0xC1, 0xFF]
    let again := rolling.step.machine.reset
    (initial {} 0).draws [] [.load [0xC1, 0xFF], .step, .reset, .step] = [rolling, again] ∧
    again.step.machine.cpu.get again.word.x =
      (Generator.ofSeed 0).byteAt 1 &&& again.word.nn := by
  intro rolling again
  have fits : ([0xC1, 0xFF] : List UInt8).length ≤ Memory.imageCapacity := by decide
  have loaded : ((initial {} 0).perform [] (.load [0xC1, 0xFF])).machine = rolling := by
    rw [perform_load (initial {} 0) [] fits]
    rfl
  have draws : rolling.word.DrawsByte := by
    rw [word_holding (by decide) (by decide)]
    decide
  have found : (initial {} 0).draws [] [.load [0xC1, 0xFF], .step, .reset, .step] =
      [rolling, again] := by
    have later : rolling.draws [] [.step, .reset, .step] = [rolling, again] :=
      draws_around_reset draws rfl
    rw [Machine.draws] at later ⊢
    rw [visitedByAll, visitedBy, List.nil_append, loaded]
    exact later
  refine ⟨found, ?_⟩
  obtain ⟨-, -, bytes, -⟩ := random_bytes_follow_the_seed 0
  have second := (bytes [] {} [.load [0xC1, 0xFF], .step, .reset, .step]).2 1 again
  rw [found] at second
  exact (second rfl).2.2

end Machine
end ChipEight
