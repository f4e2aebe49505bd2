import ChipEight.Proofs.VisitedStates

/-!
# The history of an instance

Each call meets the instance that the calls before it have left. If one kind of call brings a
property about and another kind ends it, then the instance has the property exactly if the first has
happened and none of the second since.
-/
namespace ChipEight.Instance

/-- A call with the instance that it meets. -/
structure Event where
  inst : Instance
  call : Call

def Event.response (event : Event) : Response := event.inst.respond event.call

/-- The calls of a sequence, each with the instance that the ones before it have left. -/
def history : Instance → List Call → List Event
  | _, [] => []
  | current, call :: calls => ⟨current, call⟩ :: history (current.respond call).inst calls

/-- One kind of event has happened, and none of another kind since. -/
def Since (raises lowers : Event → Prop) (events : List Event) : Prop :=
  ∃ before event after, events = before ++ event :: after ∧ raises event ∧
    ∀ later ∈ after, ¬lowers later

variable {raises lowers : Event → Prop}

theorem not_since_nil : ¬Since raises lowers [] := by
  rintro ⟨before, event, after, split, -⟩
  simp at split

theorem since_cons (event : Event) (events : List Event) :
    Since raises lowers (event :: events) ↔
      Since raises lowers events ∨ raises event ∧ ∀ later ∈ events, ¬lowers later := by
  constructor
  · rintro ⟨before, found, after, split, raised, kept⟩
    cases before with
    | nil =>
      obtain ⟨rfl, rfl⟩ := List.cons.inj split
      exact .inr ⟨raised, kept⟩
    | cons _ before =>
      obtain ⟨-, rfl⟩ := List.cons.inj split
      exact .inl ⟨before, found, after, rfl, raised, kept⟩
  · rintro (⟨before, found, after, rfl, raised, kept⟩ | ⟨raised, kept⟩)
    · exact ⟨event :: before, found, after, rfl, raised, kept⟩
    · exact ⟨[], event, events, rfl, raised, kept⟩

/-- What never ends has happened if it has happened at all. -/
theorem since_false_iff (events : List Event) :
    Since raises (fun _ => False) events ↔ ∃ event ∈ events, raises event := by
  induction events with
  | nil => simp [not_since_nil]
  | cons event events ih => simp [since_cons, ih, or_comm]

/-- From any instance on, the property is brought about on the way or was there from the start. -/
theorem holds_answerAll_iff {holds : Instance → Prop}
    (law : ∀ event : Event,
      holds event.response.inst ↔ raises event ∨ holds event.inst ∧ ¬lowers event)
    (current : Instance) (calls : List Call) :
    holds (current.answerAll calls) ↔
      Since raises lowers (current.history calls) ∨
        holds current ∧ ∀ event ∈ current.history calls, ¬lowers event := by
  induction calls generalizing current with
  | nil => simp [answerAll, history, not_since_nil]
  | cons call calls ih =>
    have next : holds (current.respond call).inst ↔
        raises ⟨current, call⟩ ∨ holds current ∧ ¬lowers ⟨current, call⟩ :=
      law ⟨current, call⟩
    rw [history, since_cons, List.forall_mem_cons]
    refine (ih (current.respond call).inst).trans ?_
    rw [next]
    tauto

theorem holds_iff_since {holds : Instance → Prop}
    (law : ∀ event : Event,
      holds event.response.inst ↔ raises event ∨ holds event.inst ∧ ¬lowers event)
    {current : Instance} (lowered : ¬holds current) (calls : List Call) :
    holds (current.answerAll calls) ↔ Since raises lowers (current.history calls) := by
  rw [holds_answerAll_iff law, or_iff_left (fun held => lowered held.1)]

end ChipEight.Instance
