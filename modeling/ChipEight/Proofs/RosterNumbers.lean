import Mathlib.Data.List.InsertIdx
import Mathlib.Data.List.Nodup
import ChipEight.Proofs.FreeNumber
import ChipEight.Proofs.InstanceRequests

/-!
# The numbers of a roster

The residents of a roster stand in the order of their numbers, which are all different, and the
selected one is among them. Main statement: what each request does to the residents and to the
selection, after any requests before it.
-/
namespace ChipEight.Roster

/-- The residents are in order, and the selected one is among them. -/
structure Ordered (roster : Roster) : Prop where
  increasing : roster.ids.Pairwise (· < ·)
  selected : ∀ id, roster.selected = some id → id ∈ roster.ids

variable {roster : Roster}

theorem ordered_empty : empty.Ordered where
  increasing := .nil
  selected := by simp [empty]

theorem Ordered.firstGap (ordered : roster.Ordered) : FirstGap roster.ids roster.freeId := by
  apply freeIdBetween_firstGap ordered.increasing 0 _ (Nat.zero_le _) (Nat.le_refl _)
  · intro place before
    exact absurd before (Nat.not_lt_zero place)
  · simp

theorem Ordered.eq_of_id (ordered : roster.Ordered) {resident other : Instance}
    (member : resident ∈ roster.residents) (other_member : other ∈ roster.residents)
    (same : resident.id = other.id) : resident = other := by
  have different : roster.ids.Nodup := ordered.increasing.imp Nat.ne_of_lt
  exact List.inj_on_of_nodup_map different member other_member same

theorem mem_ids_of_mem {resident : Instance} (member : resident ∈ roster.residents) :
    resident.id ∈ roster.ids :=
  List.mem_map_of_mem member

theorem mem_of_get {id : Int} {found : Instance} (get : roster.get id = .ok found) :
    found ∈ roster.residents ∧ (found.id : Int) = id := by
  unfold Roster.get at get
  split at get
  next resident first =>
    cases get
    exact ⟨List.mem_of_find?_eq_some first, by simpa using List.find?_some first⟩
  · cases get

theorem Ordered.get_of_mem (ordered : roster.Ordered) {resident : Instance}
    (member : resident ∈ roster.residents) : roster.get resident.id = .ok resident := by
  unfold Roster.get
  split
  next found first =>
    have same : (found.id : Int) = resident.id := by simpa using List.find?_some first
    have same : found.id = resident.id := Int.ofNat.inj same
    rw [ordered.eq_of_id (List.mem_of_find?_eq_some first) member same]
  next none_found =>
    have differs := List.find?_eq_none.mp none_found resident member
    simp at differs

theorem get_of_unknown {id : Int}
    (unknown : ∀ resident ∈ roster.residents, (resident.id : Int) ≠ id) :
    roster.get id = .error ⟨id⟩ := by
  have none_found : (roster.residents.find? fun resident => (resident.id : Int) = id) = none :=
    List.find?_eq_none.mpr (by simpa using unknown)
  simp only [Roster.get, none_found]

/-! ### A new resident -/

theorem insertIdx_eq (residents : List Instance) (place : Nat) (inside : place ≤ residents.length)
    (gained : Instance) :
    residents.insertIdx place gained = residents.take place ++ gained :: residents.drop place := by
  induction residents generalizing place with
  | nil =>
    have start : place = 0 := Nat.le_zero.mp inside
    subst start
    rfl
  | cons resident residents ih =>
    cases place with
    | zero => rfl
    | succ place =>
      rw [List.insertIdx_succ_cons, ih place (by simpa using inside)]
      rfl

theorem filter_parts {front back : List Instance} {number : Nat}
    (less : ∀ resident ∈ front, resident.id < number)
    (greater : ∀ resident ∈ back, number < resident.id) :
    (front ++ back).filter (·.id < number) = front ∧
      (front ++ back).filter (number < ·.id) = back := by
  constructor
  · have none_behind : back.filter (·.id < number) = [] := by
      refine List.filter_eq_nil_iff.mpr fun resident member => ?_
      simpa using Nat.le_of_lt (greater resident member)
    have all_before : front.filter (·.id < number) = front :=
      List.filter_eq_self.mpr fun resident member => by simpa using less resident member
    rw [List.filter_append, all_before, none_behind, List.append_nil]
  · have none_before : front.filter (number < ·.id) = [] := by
      refine List.filter_eq_nil_iff.mpr fun resident member => ?_
      simpa using Nat.le_of_lt (less resident member)
    have all_behind : back.filter (number < ·.id) = back :=
      List.filter_eq_self.mpr fun resident member => by simpa using greater resident member
    rw [List.filter_append, none_before, all_behind, List.nil_append]

theorem getElem?_ids {place : Nat} {resident : Instance}
    (found : roster.residents[place]? = some resident) : roster.ids[place]? = some resident.id := by
  rw [ids, List.getElem?_map, found]
  rfl

theorem Ordered.lt_freeId (ordered : roster.Ordered) {resident : Instance}
    (member : resident ∈ roster.residents.take roster.freeId) : resident.id < roster.freeId := by
  obtain ⟨place, found⟩ := List.mem_iff_getElem?.mp member
  rw [List.getElem?_take] at found
  split at found
  next before =>
    -- Before the gap a number is its own position.
    have filled := ordered.firstGap.filled place before
    rw [getElem?_ids found] at filled
    have same := Option.some.inj filled
    omega
  · cases found

theorem Ordered.freeId_lt (ordered : roster.Ordered) {resident : Instance}
    (member : resident ∈ roster.residents.drop roster.freeId) : roster.freeId < resident.id := by
  obtain ⟨place, found⟩ := List.mem_iff_getElem?.mp member
  rw [List.getElem?_drop] at found
  have number := getElem?_ids found
  have above := le_of_getElem? ordered.increasing number
  have taken : resident.id ≠ roster.freeId := by
    intro same
    exact ordered.firstGap.notMem ordered.increasing (same ▸ List.mem_of_getElem? number)
  omega

theorem Ordered.create_residents (ordered : roster.Ordered) (dialect : Dialect) (seed : Int)
    (clock : Float) :
    (roster.create dialect seed clock).residents =
      roster.residents.filter (·.id < roster.freeId) ++
        .create roster.freeId dialect seed clock ::
          roster.residents.filter (roster.freeId < ·.id) := by
  have inside : roster.freeId ≤ roster.residents.length := by
    simpa [ids] using ordered.firstGap.inside
  obtain ⟨front, back⟩ := filter_parts (fun _ => ordered.lt_freeId) (fun _ => ordered.freeId_lt)
  rw [List.take_append_drop] at front back
  rw [front, back]
  exact insertIdx_eq roster.residents roster.freeId inside _

theorem Ordered.create (ordered : roster.Ordered) (dialect : Dialect) (seed : Int)
    (clock : Float) : (roster.create dialect seed clock).Ordered where
  increasing := by
    have front :
        ((roster.residents.filter (·.id < roster.freeId)).map Instance.id).Pairwise (· < ·) :=
      ordered.increasing.sublist (List.filter_sublist.map _)
    have back :
        ((roster.residents.filter (roster.freeId < ·.id)).map Instance.id).Pairwise (· < ·) :=
      ordered.increasing.sublist (List.filter_sublist.map _)
    rw [ids, ordered.create_residents, List.map_append, List.map_cons, List.pairwise_append,
      List.pairwise_cons]
    refine ⟨front, ⟨?_, back⟩, ?_⟩
    · intro number behind
      obtain ⟨resident, member, rfl⟩ := List.mem_map.mp behind
      have greater : roster.freeId < resident.id := by simpa using (List.mem_filter.mp member).2
      exact greater
    · intro number before other behind
      obtain ⟨resident, member, rfl⟩ := List.mem_map.mp before
      have less : resident.id < roster.freeId := by simpa using (List.mem_filter.mp member).2
      rcases List.mem_cons.mp behind with rfl | behind
      · exact less
      · obtain ⟨later, later_member, rfl⟩ := List.mem_map.mp behind
        have greater : roster.freeId < later.id := by
          simpa using (List.mem_filter.mp later_member).2
        omega
  selected := by
    intro id selected
    obtain ⟨resident, member, rfl⟩ := List.mem_map.mp (ordered.selected id selected)
    exact mem_ids_of_mem (List.subset_insertIdx roster.residents roster.freeId _ member)

/-! ### A resident less -/

theorem eraseP_eq_filter {residents : List Instance}
    (increasing : (residents.map Instance.id).Pairwise (· < ·)) (id : Nat) :
    residents.eraseP (·.id == id) = residents.filter (·.id ≠ id) := by
  induction residents with
  | nil => rfl
  | cons resident residents ih =>
    rw [List.map_cons, List.pairwise_cons] at increasing
    by_cases same : resident.id = id
    · -- Behind the one that goes all numbers are greater, so that all stay.
      have others : residents.filter (·.id ≠ id) = residents := by
        refine List.filter_eq_self.mpr fun other member => ?_
        have greater := increasing.1 other.id (List.mem_map_of_mem member)
        simpa using Nat.ne_of_gt (same ▸ greater)
      rw [List.eraseP_cons_of_pos (by simpa using same),
        List.filter_cons_of_neg (by simpa using same), others]
    · rw [List.eraseP_cons_of_neg (by simpa using same),
        List.filter_cons_of_pos (by simpa using same), ih increasing.2]

theorem Ordered.delete_of_mem (ordered : roster.Ordered) {resident : Instance}
    (member : resident ∈ roster.residents) :
    roster.delete resident.id = .ok
      { residents := roster.residents.filter (·.id ≠ resident.id)
        selected := if roster.selected = some resident.id then none else roster.selected } := by
  rw [← eraseP_eq_filter ordered.increasing]
  simp only [delete, ordered.get_of_mem member]
  rfl

theorem Ordered.delete (ordered : roster.Ordered) {id : Int} {smaller : Roster}
    (deleted : roster.delete id = .ok smaller) : smaller.Ordered := by
  cases get : roster.get id with
  | error unknown =>
    simp only [Roster.delete, get] at deleted
    cases deleted
  | ok resident =>
    obtain ⟨member, rfl⟩ := mem_of_get get
    rw [ordered.delete_of_mem member] at deleted
    cases deleted
    refine ⟨ordered.increasing.sublist (List.filter_sublist.map _), ?_⟩
    intro id selected
    split at selected
    · cases selected
    next other =>
      obtain ⟨chosen, chosen_member, rfl⟩ := List.mem_map.mp (ordered.selected id selected)
      refine List.mem_map_of_mem (List.mem_filter.mpr ⟨chosen_member, ?_⟩)
      have different : chosen.id ≠ resident.id := fun same => other (same ▸ selected)
      simpa using different

/-! ### The same residents -/

theorem ids_replace (roster : Roster) (next : Instance) :
    (roster.replace next).ids = roster.ids := by
  rw [ids, replace, List.map_map]
  refine List.map_congr_left fun resident _ => ?_
  dsimp only [Function.comp]
  split
  next same => exact same.symm
  · rfl

theorem drive_id (now : Float) (keys : Option (List Bool)) (resident : Instance) :
    (drive now keys resident).inst.id = resident.id := by
  unfold drive
  split
  · cases keys with
    | none => exact resident.run_id now
    | some states =>
      have keyed := (resident.run now).inst.setKeys_sameHost states
      exact keyed.id.trans (resident.run_id now)
  · rfl

theorem ids_run (roster : Roster) (now : Float) (keys : Option (List Bool)) :
    (roster.run now keys).roster.ids = roster.ids := by
  simp only [ids, run, List.map_map]
  exact List.map_congr_left fun resident _ => drive_id now keys resident

theorem Ordered.of_ids (ordered : roster.Ordered) {later : Roster} (ids : later.ids = roster.ids)
    (selected : later.selected = roster.selected) : later.Ordered where
  increasing := ids ▸ ordered.increasing
  selected := by
    rw [ids, selected]
    exact ordered.selected

theorem Ordered.select_of_mem (ordered : roster.Ordered) {resident : Instance}
    (member : resident ∈ roster.residents) :
    roster.select resident.id = .ok { roster with selected := some resident.id } := by
  simp only [select, ordered.get_of_mem member]
  rfl

theorem Ordered.respond (ordered : roster.Ordered) (call : Call) :
    (roster.respond call).roster.Ordered := by
  obtain ⟨directory, clock, request⟩ := call
  cases request with
  | create dialect seed => exact ordered.create dialect seed clock
  | delete id =>
    simp only [Roster.respond, answer]
    split
    next smaller deleted => exact ordered.delete deleted
    · exact ordered
  | select id =>
    simp only [Roster.respond, answer]
    cases get : roster.get id with
    | error unknown =>
      simp only [select, get]
      exact ordered
    | ok resident =>
      obtain ⟨member, rfl⟩ := mem_of_get get
      rw [ordered.select_of_mem member]
      refine ⟨ordered.increasing, ?_⟩
      intro id selected
      cases selected
      exact mem_ids_of_mem member
  | get id =>
    simp only [Roster.respond, answer]
    split <;> exact ordered
  | run now keys => exact ordered.of_ids (roster.ids_run _ keys) rfl
  | toInstance id request =>
    simp only [Roster.respond, answer]
    split
    next found get => exact ordered.of_ids (roster.ids_replace _) rfl
    · exact ordered

theorem Ordered.answerAll (ordered : roster.Ordered) (calls : List Call) :
    (roster.answerAll calls).Ordered := by
  induction calls generalizing roster with
  | nil => exact ordered
  | cons call calls ih => exact ih (ordered.respond call)

/-! ### After any requests -/

/-- A new resident takes the least free number and stands in its place among the others. -/
structure Gains (before after : Roster) (gained : Instance) : Prop where
  free : gained.id ∉ before.ids
  least : ∀ smaller < gained.id, smaller ∈ before.ids
  residents : after.residents =
    before.residents.filter (·.id < gained.id) ++
      gained :: before.residents.filter (gained.id < ·.id)
  selected : after.selected = before.selected

/-- One resident goes, with its selection if it had it. -/
structure Loses (before after : Roster) (lost : Instance) : Prop where
  residents : after.residents = before.residents.filter (·.id ≠ lost.id)
  selected : after.selected = if before.selected = some lost.id then none else before.selected

theorem Ordered.gains (ordered : roster.Ordered) (dialect : Dialect) (seed : Int) (clock : Float) :
    Gains roster (roster.create dialect seed clock)
      (.create roster.freeId dialect seed clock) where
  free := ordered.firstGap.notMem ordered.increasing
  least _ less := ordered.firstGap.mem less
  residents := ordered.create_residents dialect seed clock
  selected := rfl

theorem Ordered.answer_delete (ordered : roster.Ordered) {resident : Instance}
    (member : resident ∈ roster.residents) (directory : Directory) (clock : Float) :
    (roster.answer directory clock (.delete resident.id)).failure = none ∧
      Loses roster (roster.answer directory clock (.delete resident.id)).roster resident := by
  simp only [answer, ordered.delete_of_mem member]
  exact ⟨trivial, rfl, rfl⟩

theorem Ordered.selectedInstance (ordered : roster.Ordered) :
    ∃ chosen, roster.selectedInstance = .ok chosen ∧ chosen.map Instance.id = roster.selected ∧
      ∀ resident ∈ chosen, resident ∈ roster.residents := by
  cases selected : roster.selected with
  | none => exact ⟨none, by simp only [Roster.selectedInstance, selected], rfl, by simp⟩
  | some id =>
    obtain ⟨chosen, member, rfl⟩ := List.mem_map.mp (ordered.selected id selected)
    refine ⟨some chosen, ?_, rfl, by simpa using member⟩
    simp only [Roster.selectedInstance, selected, ordered.get_of_mem member]
    rfl

/-- Requests about a number that no resident has. -/
def Request.About (id : Int) (request : Request) : Prop :=
  request = .get id ∨ request = .delete id ∨ request = .select id

theorem answer_of_unknown {id : Int}
    (unknown : ∀ resident ∈ roster.residents, (resident.id : Int) ≠ id) {request : Request}
    (about : request.About id) (directory : Directory) (clock : Float) :
    roster.answer directory clock request = roster.refuse ⟨id⟩ := by
  have none_found := get_of_unknown unknown
  rcases about with rfl | rfl | rfl
  · simp only [answer, none_found]
  · simp only [answer, Roster.delete, none_found]
    rfl
  · simp only [answer, select, none_found]
    rfl

/-- Only a selection selects. -/
theorem respond_selected (unselected : roster.selected = none) {call : Call}
    (no_selection : ∀ id, call.request ≠ .select id) :
    (roster.respond call).roster.selected = none := by
  obtain ⟨directory, clock, request⟩ := call
  cases request with
  | create _ _ | run _ _ => exact unselected
  | delete id =>
    simp only [respond, answer, Roster.delete]
    cases roster.get id with
    | ok found =>
      change (if roster.selected = some found.id then none else roster.selected) = none
      rw [unselected, ite_self]
    | error unknown => exact unselected
  | select id => exact absurd rfl (no_selection id)
  | get _ | toInstance _ _ =>
    simp only [respond, answer]
    split <;> exact unselected

theorem answerAll_selected (unselected : roster.selected = none) {calls : List Call}
    (no_selection : ∀ call ∈ calls, ∀ id, call.request ≠ .select id) :
    (roster.answerAll calls).selected = none := by
  induction calls generalizing roster with
  | nil => exact unselected
  | cons call calls ih =>
    rw [List.forall_mem_cons] at no_selection
    exact ih (respond_selected unselected no_selection.1) no_selection.2

/-- After any requests the numbers are in order and the selected one is among them, a new instance
takes the least free number, a deleted one goes alone, an unknown number is refused without any
change, and after the selected instance is deleted nothing is selected until a selection. -/
theorem numbers_least_and_in_order (calls : List Call) (directory : Directory) (clock : Float) :
    let roster := empty.answerAll calls
    roster.ids.Pairwise (· < ·) ∧
    (∃ chosen, roster.selectedInstance = .ok chosen ∧ chosen.map Instance.id = roster.selected ∧
      ∀ resident ∈ chosen, resident ∈ roster.residents) ∧
    (∀ dialect seed,
      let response := roster.answer directory clock (.create dialect seed)
      ∃ id, response.reply = .id id ∧ response.failure = none ∧ SearchEnds roster.ids id ∧
        Gains roster response.roster (.create id dialect seed clock)) ∧
    (∀ resident ∈ roster.residents,
      let response := roster.answer directory clock (.delete resident.id)
      response.failure = none ∧ Loses roster response.roster resident) ∧
    (∀ id : Int, (∀ resident ∈ roster.residents, (resident.id : Int) ≠ id) →
      ∀ request : Request, request.About id →
        let response := roster.answer directory clock request
        response.failure = some (.unknown ⟨id⟩) ∧ response.roster = roster) ∧
    (∀ id : Nat, roster.selected = some id →
      ∀ later : List Call, (∀ call ∈ later, ∀ other, call.request ≠ .select other) →
        ((roster.answer directory clock (.delete id)).roster.answerAll later).selected = none) := by
  intro roster
  have ordered : roster.Ordered := ordered_empty.answerAll calls
  refine ⟨ordered.increasing, ordered.selectedInstance, ?_, ?_, ?_, ?_⟩
  · intro dialect seed
    exact ⟨roster.freeId, rfl, rfl, searchEnds roster.ids, ordered.gains dialect seed clock⟩
  · intro resident member
    exact ordered.answer_delete member directory clock
  · intro id unknown request about
    dsimp only
    rw [answer_of_unknown unknown about directory clock]
    exact ⟨rfl, rfl⟩
  · intro id selected later no_selection
    obtain ⟨resident, member, rfl⟩ := List.mem_map.mp (ordered.selected id selected)
    have gone := (ordered.answer_delete member directory clock).2.selected
    rw [if_pos selected] at gone
    exact answerAll_selected gone no_selection

/-- Three instances, of which the second goes and the third is selected. -/
def twoOfThree : List Call :=
  [ ⟨[], 0, .create {} 0⟩, ⟨[], 0, .create {} 0⟩, ⟨[], 0, .create {} 0⟩,
    ⟨[], 0, .delete 1⟩, ⟨[], 0, .select 2⟩ ]

theorem ids_twoOfThree : (empty.answerAll twoOfThree).ids = [0, 2] := by
  decide +kernel

theorem selected_twoOfThree : (empty.answerAll twoOfThree).selected = some 2 := by
  decide +kernel

/-- The gap is filled again, its number is unknown until then, and with the selected instance the
selection goes for good. -/
theorem gap_of_twoOfThree :
    let roster := empty.answerAll twoOfThree
    (roster.answer [] 0 (.create {} 0)).reply = .id 1 ∧
    (roster.answer [] 0 (.get 1)).failure = some (.unknown ⟨1⟩) ∧
    ((roster.answer [] 0 (.delete 2)).roster.answerAll
      [⟨[], 0, .create {} 0⟩, ⟨[], 0, .create {} 0⟩]).selected = none := by
  obtain ⟨-, -, created, -, refused, unselected⟩ := numbers_least_and_in_order twoOfThree [] 0
  have ids := ids_twoOfThree
  refine ⟨?_, ?_, ?_⟩
  · obtain ⟨id, reply, -, -, gains⟩ := created {} 0
    have free : id ∉ (empty.answerAll twoOfThree).ids := gains.free
    have least : ∀ smaller < id, smaller ∈ (empty.answerAll twoOfThree).ids := gains.least
    rw [ids] at free least
    have not_above : ¬1 < id := fun above => by simpa using least 1 above
    simp only [List.mem_cons, List.not_mem_nil, or_false, not_or] at free
    have one : id = 1 := by omega
    exact one ▸ reply
  · refine (refused 1 ?_ (.get 1) (.inl rfl)).1
    intro resident member
    have number := mem_ids_of_mem member
    simp only [ids, List.mem_cons, List.not_mem_nil, or_false] at number
    omega
  · exact unselected 2 selected_twoOfThree _ (by simp)

end ChipEight.Roster
