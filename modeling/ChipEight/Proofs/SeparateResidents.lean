import ChipEight.Proofs.RosterNumbers

/-!
# Residents side by side

What a resident of a roster has come to depends on the calls that were meant for it and on nothing
that happened to the others. Main statement: after any requests every resident is the instance
that its own calls alone lead to, and a run of the roster drives each of them by itself.
-/
namespace ChipEight.Roster

variable {roster : Roster}

/-- What a run of the roster asks of a running instance. -/
def driving (directory : Directory) (clock : Float) (now : Option Amount)
    (keys : Option (List Bool)) : List Instance.Call :=
  ⟨directory, clock, .run now⟩ ::
    keys.toList.map fun states => ⟨directory, clock, .setKeys states⟩

/-- The calls of the instance of a number that a call of the roster amounts to. A run counts if
that instance is running just then. -/
def addressed (roster : Roster) (number : Nat) (call : Call) : List Instance.Call :=
  match call.request with
  | .toInstance id request =>
    if (number : Int) = id then [⟨call.directory, call.clock, request⟩] else []
  | .run now keys =>
    if ∃ resident ∈ roster.residents, resident.id = number ∧ resident.state = .running then
      driving call.directory call.clock now keys
    else []
  | .create _ _ | .delete _ | .select _ | .get _ => []

/-- The calls for one number among many, each read where its turn comes. -/
def addressedAll (roster : Roster) (number : Nat) : List Call → List Instance.Call
  | [] => []
  | call :: calls =>
    roster.addressed number call ++ addressedAll (roster.respond call).roster number calls

theorem answerAll_append (roster : Roster) (calls later : List Call) :
    roster.answerAll (calls ++ later) = (roster.answerAll calls).answerAll later :=
  List.foldl_append

theorem addressedAll_concat (roster : Roster) (number : Nat) (calls : List Call) (call : Call) :
    roster.addressedAll number (calls ++ [call]) =
      roster.addressedAll number calls ++ (roster.answerAll calls).addressed number call := by
  induction calls generalizing roster with
  | nil => exact List.append_nil _
  | cons first calls ih =>
    rw [List.cons_append, addressedAll, addressedAll, ih, List.append_assoc]
    rfl

/-! ### One call -/

theorem addressed_run (roster : Roster) (number : Nat) (directory : Directory) (clock : Float)
    (now : Option Amount) (keys : Option (List Bool)) :
    roster.addressed number ⟨directory, clock, .run now keys⟩ =
      if ∃ resident ∈ roster.residents, resident.id = number ∧ resident.state = .running then
        driving directory clock now keys
      else [] :=
  rfl

theorem addressed_toInstance (roster : Roster) (number : Nat) (directory : Directory)
    (clock : Float) (id : Int) (request : Instance.Request) :
    roster.addressed number ⟨directory, clock, .toInstance id request⟩ =
      if (number : Int) = id then [⟨directory, clock, request⟩] else [] :=
  rfl

theorem drive_of_running {resident : Instance} (running : resident.state = .running)
    (now : Float) (keys : Option (List Bool)) :
    drive now keys resident =
      { resident.run now with
        inst := keys.elim (resident.run now).inst (resident.run now).inst.setKeys } := by
  unfold drive
  rw [if_pos running]

theorem drive_of_not_running {resident : Instance} (resting : resident.state ≠ .running)
    (now : Float) (keys : Option (List Bool)) : drive now keys resident = resident.idle := by
  unfold drive
  rw [if_neg resting]

theorem drive_inst (directory : Directory) (clock : Float) (now : Option Amount)
    (keys : Option (List Bool)) (resident : Instance) :
    (drive (now.elim clock Amount.toFloat) keys resident).inst =
      if resident.state = .running then resident.answerAll (driving directory clock now keys)
      else resident := by
  by_cases running : resident.state = .running
  · rw [if_pos running, drive_of_running running]
    cases keys <;> rfl
  · rw [if_neg running, drive_of_not_running running]
    rfl

/-- Whoever has the number of a resident is that resident. -/
theorem Ordered.running_iff (ordered : roster.Ordered) {resident : Instance}
    (member : resident ∈ roster.residents) :
    (∃ other ∈ roster.residents, other.id = resident.id ∧ other.state = .running) ↔
      resident.state = .running := by
  constructor
  · rintro ⟨other, other_member, same, running⟩
    rw [ordered.eq_of_id member other_member same.symm]
    exact running
  · intro running
    exact ⟨resident, member, rfl, running⟩

theorem Ordered.drive_eq (ordered : roster.Ordered) {resident : Instance}
    (member : resident ∈ roster.residents) (directory : Directory) (clock : Float)
    (now : Option Amount) (keys : Option (List Bool)) :
    (drive (now.elim clock Amount.toFloat) keys resident).inst =
      resident.answerAll (roster.addressed resident.id ⟨directory, clock, .run now keys⟩) := by
  rw [drive_inst directory, addressed_run]
  simp only [ordered.running_iff member]
  split <;> rfl

theorem Ordered.mem_replace (ordered : roster.Ordered) {found : Instance}
    (found_member : found ∈ roster.residents) (call : Instance.Call) {later : Instance}
    (member : later ∈ (roster.replace (found.respond call).inst).residents) :
    ∃ resident ∈ roster.residents,
      later = resident.answerAll (if resident.id = found.id then [call] else []) := by
  obtain ⟨resident, resident_member, rfl⟩ := List.mem_map.mp member
  refine ⟨resident, resident_member, ?_⟩
  rw [Instance.respond_id]
  by_cases same : resident.id = found.id
  · rw [if_pos same, if_pos same, ordered.eq_of_id resident_member found_member same]
    rfl
  · rw [if_neg same, if_neg same]
    rfl

theorem Ordered.ne_of_unknown (ordered : roster.Ordered) {id : Int} {unknown : UnknownInstance}
    (refused : roster.get id = .error unknown) {resident : Instance}
    (member : resident ∈ roster.residents) : (resident.id : Int) ≠ id := by
  rintro rfl
  rw [ordered.get_of_mem member] at refused
  cases refused

/-- Whoever is there after a call was there before and has answered what the call asked of it, or
is new. -/
theorem Ordered.mem_respond (ordered : roster.Ordered) {call : Call} {later : Instance}
    (member : later ∈ (roster.respond call).roster.residents) :
    (∃ resident ∈ roster.residents, call.request ≠ .delete resident.id ∧
      later = resident.answerAll (roster.addressed resident.id call)) ∨
    ∃ dialect seed, call.request = .create dialect seed ∧
      later = .create roster.freeId dialect seed call.clock := by
  obtain ⟨directory, clock, request⟩ := call
  cases request with
  | create dialect seed =>
    change later ∈ (roster.create dialect seed clock).residents at member
    rw [ordered.create_residents, List.mem_append, List.mem_cons] at member
    rcases member with before | new | behind
    · exact .inl ⟨later, (List.mem_filter.mp before).1, by simp, rfl⟩
    · exact .inr ⟨dialect, seed, rfl, new⟩
    · exact .inl ⟨later, (List.mem_filter.mp behind).1, by simp, rfl⟩
  | delete id =>
    refine .inl ⟨later, ?_⟩
    cases get : roster.get id with
    | ok lost =>
      -- Who is still there has another number than the one that went.
      obtain ⟨lost_member, rfl⟩ := mem_of_get get
      have loses := (ordered.answer_delete lost_member directory clock).2
      rw [Roster.respond, loses.residents, List.mem_filter] at member
      have other : later.id ≠ lost.id := by simpa using member.2
      exact ⟨member.1, fun same => other (Int.ofNat.inj (Request.delete.inj same)).symm, rfl⟩
    | error unknown =>
      simp only [Roster.respond, answer, Roster.delete, get] at member
      have other := ordered.ne_of_unknown get member
      exact ⟨member, fun same => other (Request.delete.inj same).symm, rfl⟩
  | select id =>
    simp only [Roster.respond, answer, select] at member
    cases get : roster.get id <;> rw [get] at member <;>
      exact .inl ⟨later, member, by simp, rfl⟩
  | get id =>
    simp only [Roster.respond, answer] at member
    split at member <;> exact .inl ⟨later, member, by simp, rfl⟩
  | run now keys =>
    simp only [Roster.respond, answer, Roster.run, List.map_map, List.mem_map] at member
    obtain ⟨resident, resident_member, rfl⟩ := member
    exact .inl ⟨resident, resident_member, by simp,
      ordered.drive_eq resident_member directory clock now keys⟩
  | toInstance id request =>
    -- One resident answers, and for all others the list of calls is empty.
    left
    simp only [Roster.respond, answer] at member
    simp only [addressed_toInstance]
    split at member
    next found get =>
      obtain ⟨found_member, rfl⟩ := mem_of_get get
      obtain ⟨resident, resident_member, rfl⟩ :=
        ordered.mem_replace found_member ⟨directory, clock, request⟩ member
      refine ⟨resident, resident_member, by simp, ?_⟩
      simp only [Int.natCast_inj]
    next unknown get =>
      refine ⟨later, member, by simp, ?_⟩
      rw [if_neg (ordered.ne_of_unknown get member)]
      rfl

/-! ### Many calls -/

/-- One of the calls created the resident, which was not deleted since and has become what its own
calls lead to from there. -/
structure GrownAlone (calls before : List Call) (created : Call) (after : List Call)
    (dialect : Dialect) (seed : Int) (resident : Instance) : Prop where
  calls : calls = before ++ created :: after
  creates : created.request = .create dialect seed
  number : ((empty.answerAll before).respond created).reply = .id resident.id
  kept : ∀ call ∈ after, call.request ≠ .delete resident.id
  grown : resident =
    (Instance.create resident.id dialect seed created.clock).answerAll
      ((empty.answerAll (before ++ [created])).addressedAll resident.id after)

theorem GrownAlone.respond {calls before after : List Call} {created : Call} {dialect : Dialect}
    {seed : Int} {resident : Instance}
    (life : GrownAlone calls before created after dialect seed resident) {call : Call}
    (kept : call.request ≠ .delete resident.id) :
    GrownAlone (calls ++ [call]) before created (after ++ [call]) dialect seed
      (resident.answerAll ((empty.answerAll calls).addressed resident.id call)) := by
  have roster_then : (empty.answerAll (before ++ [created])).answerAll after =
      empty.answerAll calls := by
    rw [← answerAll_append, life.calls, List.append_assoc]
    rfl
  have same := resident.answerAll_id ((empty.answerAll calls).addressed resident.id call)
  constructor
  · rw [life.calls, List.append_assoc, List.cons_append]
  · exact life.creates
  · rw [same]
    exact life.number
  · rw [same]
    intro later member
    rcases List.mem_append.mp member with before_last | last
    · exact life.kept later before_last
    · exact List.mem_singleton.mp last ▸ kept
  · rw [same, addressedAll_concat, roster_then, Instance.answerAll_append, ← life.grown]

theorem exists_grownAlone (calls : List Call) {resident : Instance}
    (member : resident ∈ (empty.answerAll calls).residents) :
    ∃ before created after dialect seed,
      GrownAlone calls before created after dialect seed resident := by
  -- The last call decides: who was there before has grown by it, who is new begins with it.
  induction calls using List.reverseRecOn generalizing resident with
  | nil => cases member
  | append_singleton calls call ih =>
    rw [answerAll_append] at member
    rcases (ordered_empty.answerAll calls).mem_respond member with
      ⟨earlier, earlier_member, kept, rfl⟩ | ⟨dialect, seed, creates, rfl⟩
    · obtain ⟨before, created, after, dialect, seed, life⟩ := ih earlier_member
      exact ⟨before, created, after ++ [call], dialect, seed, life.respond kept⟩
    · refine ⟨calls, call, [], dialect, seed, rfl, creates, ?_, nofun, rfl⟩
      rw [Roster.respond, creates]
      rfl

/-! ### One run of all -/

theorem executed_drive (now : Float) (keys : Option (List Bool)) (residents : List Instance)
    (sum : Nat) :
    ((residents.map (drive now keys)).map (·.executed)).foldl (· + ·) sum =
      ((residents.filter (·.state = .running)).map fun resident =>
        (resident.run now).executed).foldl (· + ·) sum := by
  induction residents generalizing sum with
  | nil => rfl
  | cons resident residents ih =>
    rw [List.map_cons, List.map_cons, List.foldl_cons, ih]
    by_cases running : resident.state = .running
    · rw [List.filter_cons_of_pos (by simpa using running), drive_of_running running]
      rfl
    · rw [List.filter_cons_of_neg (by simpa using running), drive_of_not_running running]
      rfl

theorem messages_drive (now : Float) (keys : Option (List Bool)) (residents : List Instance) :
    (residents.map (drive now keys)).flatMap (·.messages) =
      (residents.filter (·.state = .running)).flatMap fun resident =>
        (resident.run now).messages := by
  induction residents with
  | nil => rfl
  | cons resident residents ih =>
    rw [List.map_cons, List.flatMap_cons, ih]
    by_cases running : resident.state = .running
    · rw [List.filter_cons_of_pos (by simpa using running), drive_of_running running]
      rfl
    · rw [List.filter_cons_of_neg (by simpa using running), drive_of_not_running running]
      rfl

/-- After any calls every resident has become what its own calls alone lead to. A run of the roster
never fails, whatever faults there are: each resident is driven by itself, and the number of
instructions is the sum over those that were running. -/
theorem residents_are_on_their_own (calls : List Call) :
    let roster := empty.answerAll calls
    (∀ resident ∈ roster.residents, ∃ before created after dialect seed,
      GrownAlone calls before created after dialect seed resident) ∧
    ∀ directory clock now keys,
      let response := roster.respond ⟨directory, clock, .run now keys⟩
      let running := roster.residents.filter (·.state = .running)
      let alone (resident : Instance) := resident.respond ⟨directory, clock, .run now⟩
      response.failure = none ∧
      response.roster.residents =
        (roster.residents.map fun resident =>
          if resident.state = .running then resident.answerAll (driving directory clock now keys)
          else resident) ∧
      response.messages = running.flatMap (fun resident => (alone resident).messages) ∧
      ∃ counts : List Nat,
        running.map (fun resident => (alone resident).reply) =
          counts.map Instance.Reply.executed ∧
        response.reply = .ofInstance (.executed (counts.foldl (· + ·) 0)) := by
  intro roster
  refine ⟨fun resident => exists_grownAlone calls, ?_⟩
  intro directory clock now keys
  -- What a run makes of a resident is a function of that resident.
  have residents_then := roster.residents.map_congr_left fun resident _ =>
    drive_inst directory clock now keys resident
  refine ⟨rfl, ?_, messages_drive _ keys roster.residents, ?_⟩
  · rw [← residents_then]
    exact List.map_map
  · refine ⟨(roster.residents.filter (·.state = .running)).map fun resident =>
      (resident.run (now.elim clock Amount.toFloat)).executed, ?_, ?_⟩
    · rw [List.map_map]
      rfl
    · exact congrArg (fun count => Reply.ofInstance (.executed count))
        (executed_drive _ keys roster.residents 0)

/-- A number is taken for the second time while its neighbour is running. -/
def newBesideRunning : List Call :=
  [ ⟨[], 0, .create {} 0⟩, ⟨[], 0, .create {} 0⟩, ⟨[], 0, .toInstance 1 (.load [0x12, 0x00])⟩,
    ⟨[], 0, .toInstance 1 .start⟩, ⟨[], 0, .delete 0⟩, ⟨[], 0, .create {} 7⟩ ]

/-- The new one is not asked in a run, and the running one is not due yet. -/
theorem run_of_newBesideRunning :
    let roster := empty.answerAll newBesideRunning
    let response := roster.respond ⟨[], 0, .run none (some [true])⟩
    roster.residents.map (·.state) = [.empty, .running] ∧
    response.failure = none ∧
    response.reply = .ofInstance (.executed 0) ∧
    ∃ resident ∈ roster.residents, resident.id = 0 ∧ ∃ before created after dialect seed,
      GrownAlone newBesideRunning before created after dialect seed resident := by
  obtain ⟨alone, runs⟩ := residents_are_on_their_own newBesideRunning
  have resides : 0 ∈ (empty.answerAll newBesideRunning).ids := by decide +kernel
  obtain ⟨resident, member, number⟩ := List.mem_map.mp resides
  obtain ⟨failure, -⟩ := runs [] 0 none (some [true])
  refine ⟨?_, failure, ?_, resident, member, number, alone resident member⟩
  · decide +kernel
  · decide +kernel

end ChipEight.Roster
