import ChipEight.Proofs.Step

/-!
# Independence of the dialect

A dialect decides eight opcodes and nothing else. Main statement: if a run never executes a word on
which two dialects disagree, then a machine of the other dialect goes through the same states with
the same failures, whatever the host does and however the program rewrites itself.
-/
namespace ChipEight

/-- The dialects differ in a choice, and the word is one of those that the choice is about. -/
def Dialect.Disputes (first second : Dialect) (word : Word) : Prop :=
  (first.logicClearsFlag ≠ second.logicClearsFlag ∧
    word.family.val = 0x8 ∧ (word.n.val = 0x1 ∨ word.n.val = 0x2 ∨ word.n.val = 0x3)) ∨
  (first.jumpAddsNamed ≠ second.jumpAddsNamed ∧ word.family.val = 0xB) ∨
  (first.shiftInPlace ≠ second.shiftInPlace ∧
    word.family.val = 0x8 ∧ (word.n.val = 0x6 ∨ word.n.val = 0xE)) ∨
  (first.indexAdvance ≠ second.indexAdvance ∧
    word.family.val = 0xF ∧ (word.nn = 0x55 ∨ word.nn = 0x65))

instance (first second : Dialect) (word : Word) : Decidable (first.Disputes second word) :=
  inferInstanceAs (Decidable (_ ∨ _))

namespace OpcodeTable

variable {first second : Dialect} {word : Word}

theorem families_eq (agreed : ¬first.Disputes second word) :
    families first word.family = families second word.family := by
  have offset : word.family.val = 0xB → first.jumpAddsNamed = second.jumpAddsNamed :=
    fun family => by_contra fun differ => agreed (.inr (.inl ⟨differ, family⟩))
  generalize word.family = family at offset ⊢
  fin_cases family
  case «11» => exact congrArg (FamilyEntry.operation ∘ Operation.jumpOffset) (offset rfl)
  all_goals rfl

theorem groupEight_eq (agreed : ¬first.Disputes second word) (family : word.family.val = 0x8) :
    groupEight first word.n = groupEight second word.n := by
  have logic : word.n.val = 0x1 ∨ word.n.val = 0x2 ∨ word.n.val = 0x3 →
      first.logicClearsFlag = second.logicClearsFlag :=
    fun listed => by_contra fun differ => agreed (.inl ⟨differ, family, listed⟩)
  have shift : word.n.val = 0x6 ∨ word.n.val = 0xE → first.shiftInPlace = second.shiftInPlace :=
    fun listed => by_contra fun differ => agreed (.inr (.inr (.inl ⟨differ, family, listed⟩)))
  generalize word.n = nibble at logic shift ⊢
  fin_cases nibble
  case «1» | «2» | «3» => exact congrArg (Operation.logic _) (logic (by decide))
  case «6» | «14» => exact congrArg (Operation.shift _) (shift (by decide))
  all_goals rfl

theorem groupF_eq (agreed : ¬first.Disputes second word) (family : word.family.val = 0xF) :
    groupF first word.nn = groupF second word.nn := by
  by_cases copies : word.nn = 0x55 ∨ word.nn = 0x65
  · have same : first.indexAdvance = second.indexAdvance :=
      by_contra fun differ => agreed (.inr (.inr (.inr ⟨differ, family, copies⟩)))
    unfold groupF
    rw [same]
  · unfold groupF
    generalize word.nn = byte at copies ⊢
    split
    case h_8 => exact absurd (.inl rfl) copies
    case h_9 => exact absurd (.inr rfl) copies
    all_goals rfl

/-- Undisputed words mean the same. -/
theorem lookup_eq (agreed : ¬first.Disputes second word) :
    (ofDialect first).lookup word = (ofDialect second).lookup word := by
  simp only [lookup, ofDialect]
  rw [families_eq agreed]
  cases found : families second word.family with
  | operation operation => rfl
  | group group =>
    have family := (families_eq_group_iff second word.family).mp found
    cases group with
    | zero | e => rfl
    | eight => exact groupEight_eq agreed family
    | f => exact groupF_eq agreed family

end OpcodeTable

theorem Dialect.not_disputes_self (dialect : Dialect) (word : Word) :
    ¬dialect.Disputes dialect word := by
  simp [Disputes]

namespace Machine

def withDialect (machine : Machine) (dialect : Dialect) : Machine := { machine with dialect }

def Outcome.withDialect (outcome : Outcome) (dialect : Dialect) : Outcome :=
  { outcome with machine := outcome.machine.withDialect dialect }

def Response.withDialect (response : Response) (dialect : Dialect) : Response :=
  { response with machine := response.machine.withDialect dialect }

/-- The words that a run executes, the one that fails included. -/
def executedInRun : Nat → Machine → List Word
  | 0, _ => []
  | count + 1, machine =>
    machine.word ::
      if machine.step.fault = none then executedInRun count machine.step.machine else []

def executed (machine : Machine) : Action → List Word
  | .step => [machine.word]
  | .run count => executedInRun count machine
  | .load _ | .loadFile _ | .unload | .reset | .tick | .setKeys _ | .holdKey _ _ | .setRedraw _ =>
    []

/-- The words that a sequence of actions executes. -/
def executedInAll (directory : Directory) : Machine → List Action → List Word
  | _, [] => []
  | machine, action :: actions =>
    machine.executed action ++
      executedInAll directory (machine.perform directory action).machine actions

/-- What the host gets for each of its actions. -/
def responses (directory : Directory) : Machine → List Action → List Response
  | _, [] => []
  | machine, action :: actions =>
    machine.perform directory action ::
      responses directory (machine.perform directory action).machine actions

end Machine

/-- No operation looks at the dialect: its choices are part of the operation. -/
theorem Operation.execute_withDialect (operation : Operation) (word : Word) (machine : Machine)
    (dialect : Dialect) :
    operation.execute word (machine.withDialect dialect) =
      (operation.execute word machine).map (·.withDialect dialect) := by
  cases operation with
  | ret | call | awaitKey =>
    simp only [execute, Machine.withDialect]
    split <;> rfl
  | add | subtract | subtractFrom | addIndex => rfl
  | load advance => simp only [execute, Machine.withDialect, Except.map, loadedRegisters]
  | _ => simp only [execute, Machine.withDialect, Except.map, writes]

namespace Machine

variable {machine : Machine} {dialect : Dialect}

theorem step_withDialect (agreed : ¬machine.dialect.Disputes dialect machine.word) :
    (machine.withDialect dialect).step = machine.step.withDialect dialect := by
  have upcoming : (machine.withDialect dialect).upcoming = machine.upcoming :=
    (OpcodeTable.lookup_eq agreed).symm
  have executed : machine.upcoming.execute (machine.withDialect dialect).word
      (machine.withDialect dialect).fetch =
        (machine.upcoming.execute machine.word machine.fetch).map (·.withDialect dialect) :=
    machine.upcoming.execute_withDialect machine.word machine.fetch dialect
  rw [step_eq, step_eq, upcoming, executed]
  cases machine.upcoming.execute machine.word machine.fetch <;> rfl

theorem withDialect_self (machine : Machine) : machine.withDialect machine.dialect = machine := rfl

theorem step_dialect (machine : Machine) : machine.step.machine.dialect = machine.dialect := by
  have same := step_withDialect (machine.dialect.not_disputes_self machine.word)
  rw [withDialect_self] at same
  exact congrArg (·.machine.dialect) same

theorem run_withDialect (count : Nat)
    (agreed : ∀ word ∈ executedInRun count machine, ¬machine.dialect.Disputes dialect word) :
    run count (machine.withDialect dialect) = (run count machine).withDialect dialect := by
  induction count generalizing machine with
  | zero => rfl
  | succ count ih =>
    rw [executedInRun, List.forall_mem_cons] at agreed
    simp only [run, step_withDialect agreed.1]
    cases faulted : machine.step.fault with
    | some fault =>
      simp only [Outcome.withDialect, faulted]
    | none =>
      have rest := agreed.2
      rw [if_pos faulted, ← step_dialect machine] at rest
      simp only [Outcome.withDialect, faulted]
      have later := ih rest
      simp only [later, Outcome.withDialect]

theorem loading_withDialect (machine : Machine) (dialect : Dialect) (image : List UInt8)
    (after : List Diagnostic) :
    (machine.withDialect dialect).loading image after =
      (machine.loading image after).withDialect dialect := by
  rw [loading_eq, loading_eq]
  split <;> rfl

theorem perform_withDialect (directory : Directory) (action : Action)
    (agreed : ∀ word ∈ machine.executed action, ¬machine.dialect.Disputes dialect word) :
    (machine.withDialect dialect).perform directory action =
      (machine.perform directory action).withDialect dialect := by
  cases action with
  | load image => exact loading_withDialect machine dialect image []
  | loadFile name =>
    simp only [perform]
    split
    · exact loading_withDialect machine dialect _ _
    · rfl
  | step =>
    have stepped := step_withDialect (agreed machine.word (by simp [executed]))
    simp only [perform, stepped]
    rfl
  | run count =>
    simp only [perform, run_withDialect count agreed]
    rfl
  | unload | reset | tick | setKeys _ | holdKey _ _ | setRedraw _ =>
    simp only [perform, Response.withDialect, withDialect, unload, reset, tick, setKeys, holdKey,
      setRedraw]

theorem perform_dialect (directory : Directory) (machine : Machine) (action : Action) :
    (machine.perform directory action).machine.dialect = machine.dialect := by
  have same := perform_withDialect directory action
    (fun word _ => machine.dialect.not_disputes_self word)
  rw [withDialect_self] at same
  exact congrArg (·.machine.dialect) same

theorem responses_withDialect (directory : Directory) (actions : List Action)
    (agreed : ∀ word ∈ executedInAll directory machine actions,
      ¬machine.dialect.Disputes dialect word) :
    responses directory (machine.withDialect dialect) actions =
      (responses directory machine actions).map (·.withDialect dialect) := by
  induction actions generalizing machine with
  | nil => rfl
  | cons action actions ih =>
    rw [executedInAll, List.forall_mem_append] at agreed
    have now := perform_withDialect directory action agreed.1
    -- The other machine has stayed beside this one, so the rest is again a run of both.
    have rest := agreed.2
    rw [← perform_dialect directory machine action] at rest
    rw [responses, responses, now, List.map_cons]
    exact congrArg _ (ih rest)

/-- As long as no disputed word is executed, both dialects give the same answers: the same machine
after each action, the same failures and the same reports. -/
theorem undisputed_runs_agree (directory : Directory) (first second : Dialect) (seed : Int)
    (actions : List Action)
    (undisputed : ∀ word ∈ executedInAll directory (initial first seed) actions,
      ¬first.Disputes second word) :
    responses directory (initial second seed) actions =
      (responses directory (initial first seed) actions).map (·.withDialect second) :=
  responses_withDialect directory actions undisputed

/-- Different from the usual dialect in every choice. -/
def contrary : Dialect where
  logicClearsFlag := true
  jumpAddsNamed := true
  shiftInPlace := false
  indexAdvance := .unchanged

/-- A sum stands between the disputed operations of its family. -/
theorem sums_agree_in_contrary_dialects :
    (∀ word ∈ executedInAll [] (initial {} 0) [.load [0x81, 0x24], .step, .tick],
      ¬Dialect.Disputes {} contrary word) ∧
    responses [] (initial contrary 0) [.load [0x81, 0x24], .step, .tick] =
      (responses [] (initial {} 0) [.load [0x81, 0x24], .step, .tick]).map
        (·.withDialect contrary) := by
  have fits : ([0x81, 0x24] : List UInt8).length ≤ Memory.imageCapacity := by decide
  have loaded := perform_load (initial {} 0) [] fits
  have undisputed : ∀ word ∈ executedInAll [] (initial {} 0) [.load [0x81, 0x24], .step, .tick],
      ¬Dialect.Disputes {} contrary word := by
    simp only [executedInAll, executed, loaded, List.nil_append, List.append_nil,
      List.forall_mem_singleton]
    change ¬Dialect.Disputes {} contrary (holding #[0x81, 0x24]).word
    rw [word_holding (by decide) (by decide)]
    decide
  exact ⟨undisputed, undisputed_runs_agree [] {} contrary 0 _ undisputed⟩

end Machine
end ChipEight
