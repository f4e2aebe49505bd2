import Mathlib.Logic.Function.Basic
import ChipEight.Proofs.PrintingHosts
import ChipEight.Proofs.Reports
import ChipEight.Proofs.SeparateResidents

/-!
# The debug switch

Machines, instances and rosters are put on one console with a switch for diagnostics. Main
statement: whatever is asked of them in whatever order, results, failures and states are the same
with the switch on and off, and with the switch off the diagnostics are missing and nothing else.
What remains are the faults of instances. With the switch on, the report of a halt comes once for
each time that the hint goes up, and that of an undefined word each time that one is executed.
-/
namespace ChipEight

open Diagnostic (messages)

namespace Machine

/-- An action, and the files that it meets. -/
abbrev Order := Directory × Action

def obeyAloud (machine : Machine) (order : Order) : Aloud (Machine × Option Failure) :=
  machine.performAloud order.1 order.2

def obey (machine : Machine) (order : Order) : (Machine × Option Failure) × List Message :=
  let response := machine.perform order.1 order.2
  ((response.machine, response.failure), messages response.notes)

theorem says_obey (machine : Machine) (order : Order) :
    Says (machine.obeyAloud order) (machine.obey order).1 (machine.obey order).2 :=
  says_perform order.1 machine order.2

/-- The machine after some orders, failed ones included. -/
def obeyAll (machine : Machine) (orders : List Order) : Machine :=
  orders.foldl (fun current order => (current.obey order).1.1) machine

/-- The states in which some orders make the machine step. -/
def begunBy : Machine → List Order → List Machine
  | _, [] => []
  | machine, order :: orders =>
    machine.visitedBy order.2 ++ (machine.obey order).1.1.begunBy orders

theorem accounts_play (machine : Machine) {orders : List Order}
    (lasting : ∀ order ∈ orders, ¬order.2.Resets) :
    Accounts machine (machine.obeyAll orders) (machine.begunBy orders)
      (play obey machine orders).2 := by
  induction orders generalizing machine with
  | nil => exact accounts_silent rfl
  | cons order orders ih =>
    obtain ⟨first, rest⟩ := List.forall_mem_cons.mp lasting
    exact (machine.accounts_perform order.1 first).append (ih _ rest)

end Machine

namespace Instance

def obey (current : Instance) (call : Call) : Answer × List Message :=
  ((current.respond call).answer, (current.respond call).messages)

theorem says_obey (current : Instance) (call : Call) :
    Says (current.respondAloud call) (current.obey call).1 (current.obey call).2 :=
  current.says_respond call

/-- The states in which some calls make the machine step. -/
def begunBy (current : Instance) (calls : List Call) : List Machine :=
  (current.history calls).flatMap fun event => event.inst.visited event.call

theorem accounts_play (current : Instance) {calls : List Call}
    (lasting : ∀ event ∈ current.history calls, ¬event.Clears) :
    Accounts current.machine (current.answerAll calls).machine (current.begunBy calls)
      (play obey current calls).2 := by
  induction calls generalizing current with
  | nil => exact accounts_silent rfl
  | cons call calls ih =>
    obtain ⟨first, rest⟩ := List.forall_mem_cons.mp lasting
    exact (Event.reports first).accounts.append (ih _ rest)

end Instance

namespace Roster

/-- The calls that a call to a roster passes on, each with the resident that it meets. -/
def passedOn (roster : Roster) (call : Call) : List Instance.Event :=
  match call.request with
  | .run now _ =>
    (roster.residents.filter (·.state = .running)).map fun resident =>
      ⟨resident, call.directory, call.clock, .run now⟩
  | .toInstance id request =>
    match roster.get id with
    | .ok found => [⟨found, call.directory, call.clock, request⟩]
    | .error _ => []
  | .create _ _ | .delete _ | .select _ | .get _ => []

/-- A roster has nothing to add to the faults of its residents. -/
theorem filter_messages (roster : Roster) (call : Call) :
    (roster.respond call).messages.filter (!·.isNote) =
      (roster.passedOn call).flatMap Instance.Event.faultLines := by
  obtain ⟨directory, clock, request⟩ := call
  cases request with
  | create dialect seed => rfl
  | delete id =>
    simp only [respond, answer]
    cases roster.delete id <;> rfl
  | select id =>
    simp only [respond, answer]
    cases roster.select id <;> rfl
  | get id =>
    simp only [respond, answer]
    cases roster.get id <;> rfl
  | run now keys =>
    -- Residents that do not run are passed over, and print nothing.
    have driven := messages_drive (now.elim clock Amount.toFloat) keys roster.residents
    change ((roster.residents.map (drive _ keys)).flatMap (·.messages)).filter _ = _
    rw [driven, List.filter_flatMap]
    simp only [passedOn, List.flatMap_map, ← Instance.Event.filter_messages]
    rfl
  | toInstance id request =>
    simp only [respond, answer, passedOn]
    cases roster.get id with
    | error unknown => rfl
    | ok found =>
      have lines := Instance.Event.filter_messages ⟨found, directory, clock, request⟩
      exact lines.trans (List.flatMap_singleton _ _).symm

end Roster

/-- Any number of machines, instances and rosters. -/
structure Workbench where
  machines : Nat → Machine
  instances : Nat → Instance
  rosters : Nat → Roster

namespace Workbench

/-- A call to one of them. -/
inductive Command where
  | toMachine (which : Nat) (order : Machine.Order)
  | toInstance (which : Nat) (call : Instance.Call)
  | toRoster (which : Nat) (call : Roster.Call)

/-- What its owner gets to see of it. -/
inductive Answer where
  | ofMachine (failure : Option Failure)
  | ofInstance (reply : Instance.Reply) (failure : Option Failure)
  | ofRoster (reply : Roster.Reply) (failure : Option Roster.Failure)

variable (bench : Workbench)

def withMachine (which : Nat) (machine : Machine) : Workbench :=
  { bench with machines := Function.update bench.machines which machine }

def withInstance (which : Nat) (inst : Instance) : Workbench :=
  { bench with instances := Function.update bench.instances which inst }

def withRoster (which : Nat) (roster : Roster) : Workbench :=
  { bench with rosters := Function.update bench.rosters which roster }

def obeyAloud : Command → Aloud (Workbench × Answer)
  | .toMachine which order => do
    let (machine, failure) ← (bench.machines which).obeyAloud order
    return (bench.withMachine which machine, .ofMachine failure)
  | .toInstance which call => do
    let (inst, reply, failure) ← (bench.instances which).respondAloud call
    return (bench.withInstance which inst, .ofInstance reply failure)
  | .toRoster which call => do
    let (roster, reply, failure) ← (bench.rosters which).respondAloud call
    return (bench.withRoster which roster, .ofRoster reply failure)

def obey : Command → (Workbench × Answer) × List Message
  | .toMachine which order =>
    let response := (bench.machines which).perform order.1 order.2
    ((bench.withMachine which response.machine, .ofMachine response.failure),
      messages response.notes)
  | .toInstance which call =>
    let response := (bench.instances which).respond call
    ((bench.withInstance which response.inst, .ofInstance response.reply response.failure),
      response.messages)
  | .toRoster which call =>
    let response := (bench.rosters which).respond call
    ((bench.withRoster which response.roster, .ofRoster response.reply response.failure),
      response.messages)

theorem says_obey (command : Command) :
    Says (bench.obeyAloud command) (bench.obey command).1 (bench.obey command).2 := by
  cases command with
  | toMachine which order => exact ((bench.machines which).says_obey order).last (says_pure _)
  | toInstance which call => exact ((bench.instances which).says_respond call).last (says_pure _)
  | toRoster which call => exact ((bench.rosters which).says_respond call).last (says_pure _)

end Workbench

/-- The switch for diagnostics does nothing but silence them. With the switch on or off, any calls
to any machines, instances and rosters come to the same results and states, and what is printed with
the switch off is what is printed with it on, without the diagnostics. Without them a machine prints
nothing, an instance a line for each fault, and a roster the lines of its residents. With them, a
machine has printed since its last reset that it halted once if it has halted and never if it has
not, and a line for each undefined word that it executed; the same goes for the machine of an
instance since it was reset or loaded. -/
theorem debug_switch_only_silences :
    (∀ (bench : Workbench) (commands : List Workbench.Command),
      let played := playAloud Workbench.obeyAloud bench commands
      let silent := play Workbench.obey bench commands
      (∀ debug, played.result debug = silent.1 ∧
        (played.printed debug).map Message.text = Message.shown debug silent.2) ∧
      played.result true = played.result false ∧
      played.printed false = (played.printed true).filter (!·.isNote)) ∧
    (∀ (machine : Machine) (order : Machine.Order), (machine.obeyAloud order).printed false = []) ∧
    (∀ (current : Instance) (call : Instance.Call),
      (current.respondAloud call).printed false =
        ((current.visited call).filterMap (·.step.fault)).map (.faulted current.id)) ∧
    (∀ (roster : Roster) (call : Roster.Call),
      (roster.respondAloud call).printed false =
        (roster.passedOn call).flatMap fun event =>
          (event.inst.respondAloud event.call).printed false) ∧
    (∀ (machine : Machine) (orders : List Machine.Order), (∀ order ∈ orders, ¬order.2.Resets) →
      let printed := (playAloud Machine.obeyAloud machine.reset orders).printed true
      printed.countP (·.isSelfJump) ≤ 1 ∧
      (0 < printed.countP (·.isSelfJump) ↔ (machine.reset.obeyAll orders).cpu.halted = true) ∧
      printed.countP (·.isUndefinedWord) =
        (machine.reset.begunBy orders).countP fun begun => begun.upcoming = .undefined) ∧
    (∀ (current : Instance) (calls : List Instance.Call),
      (∀ event ∈ current.reset.history calls, ¬event.Clears) →
      let printed := (playAloud Instance.respondAloud current.reset calls).printed true
      printed.countP (·.isSelfJump) ≤ 1 ∧
      (0 < printed.countP (·.isSelfJump) ↔
        (current.reset.answerAll calls).machine.cpu.halted = true) ∧
      printed.countP (·.isUndefinedWord) =
        (current.reset.begunBy calls).countP fun begun => begun.upcoming = .undefined) := by
  refine ⟨fun bench commands => ?_, fun machine order => ?_, fun current call => ?_,
    fun roster call => ?_, fun machine orders lasting => ?_, fun current calls lasting => ?_⟩
  · have said := says_play Workbench.says_obey bench commands
    refine ⟨fun debug => ⟨said.result_eq debug, ?_⟩,
      (said.result_eq true).trans (said.result_eq false).symm, ?_⟩
    · rw [said.printed_eq, Message.shown]
    · rw [said.printed_true, said.printed_false]
  · rw [(machine.says_obey order).printed_false]
    exact Diagnostic.filter_messages _
  · rw [(current.says_respond call).printed_false]
    exact Instance.Event.filter_messages ⟨current, call⟩
  · rw [(roster.says_respond call).printed_false, roster.filter_messages]
    congr 1
    funext event
    rw [(event.inst.says_respond event.call).printed_false]
    exact event.filter_messages.symm
  · -- A reset lowers the hint, so that the reports since then count how often it was raised.
    have accounts := machine.reset.accounts_play lasting
    have said := says_play Machine.says_obey machine.reset orders
    rw [← said.printed_true] at accounts
    obtain ⟨once, iff⟩ := accounts.since_reset rfl
    exact ⟨once, iff, accounts.undefinedWords⟩
  · have accounts := current.reset.accounts_play lasting
    have said := says_play Instance.says_obey current.reset calls
    rw [← said.printed_true] at accounts
    obtain ⟨once, iff⟩ := accounts.since_reset rfl
    exact ⟨once, iff, accounts.undefinedWords⟩

theorem jump_in_place_is_reported_once :
    let machine := Machine.holding #[0x12, 0x00]
    let orders : List Machine.Order := [([], .step), ([], .tick), ([], .step)]
    let loaded := ((Instance.create 0 {} 0 0).respond ⟨[], 0, .load [0x12, 0x00]⟩).inst
    let calls : List Instance.Call := [⟨[], 0, .step⟩]
    ((playAloud Machine.obeyAloud machine.reset orders).printed true).countP (·.isSelfJump) = 1 ∧
    ((playAloud Instance.respondAloud loaded.reset calls).printed true).countP (·.isSelfJump) =
      1 := by
  intro machine orders loaded calls
  obtain ⟨-, -, -, -, machines, instances⟩ := debug_switch_only_silences
  constructor
  · obtain ⟨most, raised, -⟩ := machines machine orders (by simp [orders, Machine.Action.Resets])
    have begins : machine.reset.cpu.pc = 0x200 := rfl
    have held : machine.reset.memory =
        Memory.initial.overlay Memory.imageStart #[0x12, 0x00] := rfl
    have here : machine.reset.AtSelfJump := by
      rw [Machine.AtSelfJump, Machine.word_of_overlay begins held (by decide) (by decide), begins]
      exact .inl (by decide)
    -- Neither the tick nor the second jump takes the hint back.
    have stays (machine : Machine) (here : machine.AtSelfJump) :
        (machine.obeyAll orders).cpu.halted = true := by
      have first : machine.step.machine.tick.cpu.halted = true :=
        (Machine.step_halted_iff machine).mpr (.inr here)
      exact (Machine.step_halted_iff _).mpr (.inl first)
    exact le_antisymm most (raised.mpr (stays _ here))
  · obtain ⟨named, load⟩ : ∃ named, loaded = named := ⟨_, rfl⟩
    obtain ⟨here, replaced⟩ := Instance.loaded_atSelfJump load
    have same : named.reset = named := by
      rw [replaced]
      rfl
    obtain ⟨-, halted⟩ :=
      Instance.step_rests here (by rw [replaced]; decide) (by rw [replaced]; decide)
    have lasting : ∀ event ∈ named.reset.history calls, ¬event.Clears := by
      simp [calls, Instance.history, Instance.Event.Clears, Instance.Event.Loads,
        Instance.Request.ForProgram]
    obtain ⟨most, raised, -⟩ := instances named calls lasting
    rw [load]
    exact le_antisymm most (raised.mpr (by rw [same]; exact halted))

end ChipEight
