import ChipEight.Proofs.DialectIndependence

/-!
# The redraw flag

The host takes the flag back when it has drawn the screen. Main statement: from then on the flag is
raised exactly if something asked for it, a program that cleared the screen or drew on it or a host
that reset the machine, and a screen that looks different from what the host has drawn never goes
without it.
-/
namespace ChipEight

/-- The word clears the screen or draws on it. -/
def Word.Paints (word : Word) : Prop :=
  word.family.val = 0x0 ∧ word.nn = 0xE0 ∨ word.family.val = 0xD

instance (word : Word) : Decidable word.Paints := inferInstanceAs (Decidable (_ ∨ _))

namespace Screen

/-- What happened to a screen: whether somebody asked for it to be drawn again, and if nobody did,
it is the same. -/
structure Follows (asked : Prop) (before after : Screen) : Prop where
  redraw_iff : after.redraw = true ↔ before.redraw = true ∨ asked
  cells_eq : ¬asked → after.cells = before.cells

theorem follows_same {asked : Prop} (unasked : ¬asked) (screen : Screen) :
    Follows asked screen screen where
  redraw_iff := (or_iff_left unasked).symm
  cells_eq _ := rfl

theorem follows_of_asked {asked : Prop} (holds : asked) {before after : Screen}
    (redraw : after.redraw = true) : Follows asked before after where
  redraw_iff := iff_of_true redraw (.inr holds)
  cells_eq unasked := absurd holds unasked

theorem Follows.trans {first second : Prop} {before middle after : Screen}
    (now : Follows first before middle) (later : Follows second middle after) :
    Follows (first ∨ second) before after where
  redraw_iff := by rw [later.redraw_iff, now.redraw_iff, or_assoc]
  cells_eq unasked := by
    rw [not_or] at unasked
    rw [later.cells_eq unasked.2, now.cells_eq unasked.1]

theorem Follows.congr {asked other : Prop} {before after : Screen}
    (follows : Follows asked before after) (same : asked ↔ other) : Follows other before after where
  redraw_iff := by rw [← same, follows.redraw_iff]
  cells_eq unasked := follows.cells_eq (same.not.mpr unasked)

end Screen

theorem Operation.execute_screen {operation : Operation} {word : Word} {machine next : Machine}
    (done : operation.execute word machine = .ok next) (no_clear : operation ≠ .clear)
    (no_draw : operation ≠ .draw) : next.screen = machine.screen := by
  cases operation with
  | clear => exact absurd rfl no_clear
  | draw => exact absurd rfl no_draw
  | call | ret | awaitKey =>
    simp only [execute] at done
    split at done <;> cases done <;> rfl
  | random =>
    rw [execute_random, Except.ok.injEq] at done
    rw [← done]
  | _ => cases done; rfl

namespace Machine

variable {machine : Machine} {directory : Directory}

theorem step_redraw_of_paints (paints : machine.word.Paints) :
    machine.step.machine.screen.redraw = true := by
  rcases paints with clears | draws
  · have executed : machine.upcoming.execute machine.word machine.fetch =
        .ok { machine.fetch with screen := .blank } := by
      rw [machine.upcoming_eq_clear_iff.mpr clears]
      rfl
    rw [(step_of_ok executed).1]
    rfl
  · cases outcome : machine.upcoming.execute machine.word machine.fetch with
    | error fault =>
      rw [machine.upcoming_eq_draw_iff.mpr draws] at outcome
      cases outcome
    | ok next =>
      rw [(step_of_ok outcome).1]
      rw [machine.upcoming_eq_draw_iff.mpr draws] at outcome
      simp only [Operation.execute, Except.ok.injEq] at outcome
      rw [← outcome]
      rfl

theorem step_screen_of_not_paints (unpainted : ¬machine.word.Paints) :
    machine.step.machine.screen = machine.screen := by
  rw [Word.Paints, not_or] at unpainted
  have no_clear : machine.upcoming ≠ .clear := by
    intro upcoming
    exact unpainted.1 (machine.upcoming_eq_clear_iff.mp upcoming)
  have no_draw : machine.upcoming ≠ .draw := by
    intro upcoming
    exact unpainted.2 (machine.upcoming_eq_draw_iff.mp upcoming)
  apply step_part Machine.screen rfl rfl
  intro next done
  exact Operation.execute_screen done no_clear no_draw

theorem follows_step (machine : Machine) :
    Screen.Follows machine.word.Paints machine.screen machine.step.machine.screen := by
  by_cases paints : machine.word.Paints
  · exact Screen.follows_of_asked paints (step_redraw_of_paints paints)
  · rw [step_screen_of_not_paints paints]
    exact Screen.follows_same paints machine.screen

theorem follows_run (count : Nat) (machine : Machine) :
    Screen.Follows (∃ word ∈ executedInRun count machine, word.Paints) machine.screen
      (run count machine).machine.screen := by
  induction count generalizing machine with
  | zero => exact Screen.follows_same (by simp [executedInRun]) machine.screen
  | succ count ih =>
    simp only [executedInRun, List.exists_mem_cons_iff]
    apply (follows_step machine).trans
    -- After a fault there is no rest of the run.
    cases faulted : machine.step.fault with
    | some fault =>
      rw [if_neg (by simp), run_succ_of_fault faulted]
      exact Screen.follows_same (by simp) _
    | none =>
      rw [if_pos rfl, (run_succ faulted count).1]
      exact ih machine.step.machine

/-- An action asks for the screen to be drawn again. -/
def AskedBy (machine : Machine) (action : Action) : Prop :=
  action = .reset ∨ action = .unload ∨ action = .setRedraw true ∨
    ∃ word ∈ machine.executed action, word.Paints

def Asked (directory : Directory) (machine : Machine) (actions : List Action) : Prop :=
  .reset ∈ actions ∨ .unload ∈ actions ∨ .setRedraw true ∈ actions ∨
    ∃ word ∈ executedInAll directory machine actions, word.Paints

theorem asked_cons (directory : Directory) (machine : Machine) (action : Action)
    (actions : List Action) :
    Asked directory machine (action :: actions) ↔
      machine.AskedBy action ∨
        Asked directory (machine.perform directory action).machine actions := by
  simp only [Asked, AskedBy, executedInAll, List.mem_cons, List.mem_append, or_and_right, exists_or,
    eq_comm (b := action)]
  grind

theorem follows_perform (directory : Directory) (machine : Machine) {action : Action}
    (kept : action ≠ .setRedraw false) :
    Screen.Follows (machine.AskedBy action) machine.screen
      (machine.perform directory action).machine.screen := by
  cases action with
  | reset => exact Screen.follows_of_asked (.inl rfl) rfl
  | unload => exact Screen.follows_of_asked (.inr (.inl rfl)) rfl
  | setRedraw redraw =>
    cases redraw with
    | false => exact absurd rfl kept
    | true => exact Screen.follows_of_asked (.inr (.inr (.inl rfl))) rfl
  | step => exact (follows_step machine).congr (by simp [AskedBy, executed])
  | run count => exact (follows_run count machine).congr (by simp [AskedBy, executed])
  | load image =>
    obtain ⟨memory, loaded⟩ := machine.loading_memory image []
    rw [perform, loaded]
    exact Screen.follows_same (by simp [AskedBy, executed]) machine.screen
  | loadFile name =>
    obtain ⟨memory, loaded⟩ := machine.perform_loadFile_memory directory name
    rw [loaded]
    exact Screen.follows_same (by simp [AskedBy, executed]) machine.screen
  | tick | setKeys _ | holdKey _ _ =>
    simp only [perform, tick, setKeys, holdKey]
    exact Screen.follows_same (by simp [AskedBy, executed]) machine.screen

theorem follows_performAll (directory : Directory) (machine : Machine) {actions : List Action}
    (kept : .setRedraw false ∉ actions) :
    Screen.Follows (Asked directory machine actions) machine.screen
      (machine.performAll directory actions).screen := by
  induction actions generalizing machine with
  | nil => exact Screen.follows_same (by simp [Asked, executedInAll]) machine.screen
  | cons action actions ih =>
    rw [List.mem_cons, not_or] at kept
    have now := follows_perform directory machine (Ne.symm kept.1)
    have later := ih (machine.perform directory action).machine kept.2
    exact (now.trans later).congr (asked_cons directory machine action actions).symm

/-- A host that draws whenever it finds the flag raised misses nothing. Before it has first taken
the flag back, the flag is raised. After that it is raised exactly if a program painted or the host
reset the machine (or raised the flag) since, and if the screen has changed since. -/
theorem no_redraw_is_missed (directory : Directory) (dialect : Dialect) (seed : Int) :
    let machine := initial dialect seed
    (∀ actions : List Action, .setRedraw false ∉ actions →
      (machine.performAll directory actions).screen.redraw = true) ∧
    ∀ before after : List Action, .setRedraw false ∉ after →
      let cleared := machine.performAll directory (before ++ [.setRedraw false])
      let now := machine.performAll directory (before ++ .setRedraw false :: after)
      (now.screen.redraw = true ↔
        .reset ∈ after ∨ .unload ∈ after ∨ .setRedraw true ∈ after ∨
          ∃ word ∈ executedInAll directory cleared after, word.Paints) ∧
      (now.screen.cells ≠ cleared.screen.cells → now.screen.redraw = true) := by
  intro machine
  constructor
  · intro actions kept
    exact (follows_performAll directory machine kept).redraw_iff.mpr (.inl rfl)
  · intro before after kept cleared now
    have since : now = cleared.performAll directory after := by
      simp only [now, cleared, performAll_append]
      rfl
    -- The host has taken the flag back, so that only what was asked since then counts.
    have lowered : cleared.screen.redraw = false := by
      simp only [cleared, performAll_append]
      rfl
    have follows := follows_performAll directory cleared kept
    rw [← since] at follows
    have raised_iff : now.screen.redraw = true ↔ Asked directory cleared after := by
      rw [follows.redraw_iff, or_iff_right (by simp [lowered])]
    refine ⟨raised_iff, ?_⟩
    intro changed
    rw [raised_iff]
    by_contra unasked
    exact changed (follows.cells_eq unasked)

/-- A program that draws a sprite: a tick leaves the flag down, the draw raises it. -/
theorem draw_asks_again :
    let machine := initial {} 0
    let before : List Action := [.load [0xD0, 0x01]]
    (machine.performAll [] (before ++ .setRedraw false :: [.tick])).screen.redraw = false ∧
    (machine.performAll [] (before ++ .setRedraw false :: [.tick, .step])).screen.redraw =
      true := by
  intro machine before
  have missed := (no_redraw_is_missed [] {} 0).2 before
  constructor
  · rw [← Bool.not_eq_true, (missed [.tick] (by simp)).1]
    simp [executedInAll, executed]
  · rw [(missed [.tick, .step] (by simp)).1]
    have fits : ([0xD0, 0x01] : List UInt8).length ≤ Memory.imageCapacity := by decide
    have loaded : machine.performAll [] (before ++ [.setRedraw false]) =
        (holding #[0xD0, 0x01]).setRedraw false := by
      rw [performAll_append]
      simp only [before, performAll, List.foldl_cons, List.foldl_nil, perform_load machine [] fits]
      rfl
    have paints : ((holding #[0xD0, 0x01]).setRedraw false).tick.word.Paints := by
      change (holding #[0xD0, 0x01]).word.Paints
      rw [word_holding (by decide) (by decide)]
      decide
    rw [loaded]
    refine .inr (.inr (.inr ⟨_, ?_, paints⟩))
    simp [executedInAll, executed, perform]

end Machine
end ChipEight
