import ChipEight.Proofs.InstanceRequests
import ChipEight.Proofs.PrintingMachine
import ChipEight.Roster

/-!
# Instances and rosters that print

An instance prints the faults that end its slots, and those whatever the switch. The machines of
instances print as they do alone, and the instances of a roster one after the other. Main
statements: instances and rosters say what their responses report.
-/
namespace ChipEight

open Console (print debugPrint)
open Diagnostic (messages)

namespace Instance

def runSlotAloud : Nat → Instance → Aloud (Instance × Nat)
  | 0, current => return (current, 0)
  | length + 1, current => do
    let (machine, fault) ← current.machine.stepAloud
    match fault with
    | some fault =>
      print (.faulted current.id fault)
      return (stop { current with machine, fault := some fault }, 0)
    | none =>
      let (later, executed) ← runSlotAloud length { current with
        machine, log := remember current.log machine.cpu.last }
      return (later, executed + 1)

def stepAloud (current : Instance) : Aloud (Instance × Nat) :=
  if current.state = .empty then return (current, 0) else runSlotAloud current.slotLength current

def runAloud (current : Instance) (now : Float) : Aloud (Instance × Nat) :=
  if current.state = .running ∧ current.slotsPerSecond ≠ 0 then
    let ticked := current.tickIfDue now
    if due now ticked.lastSlot (1.0 / Float.ofNat ticked.slotsPerSecond) then do
      let (later, executed) ← runSlotAloud ticked.slotLength ticked
      return ({ later with lastSlot := now }, executed)
    else return (ticked, 0)
  else return (current, 0)

/-- The old program is given up only for an image that fits. -/
def loadAloud (current : Instance) (image : List UInt8) : Aloud (Instance × Option Failure) :=
  if image.length ≤ Memory.imageCapacity then do
    let cleared ← current.machine.unloadAloud
    let (machine, failure) ← cleared.loadAloud image
    -- A failure here would leave the new machine beside the old state.
    if failure.isSome then return ({ current with machine }, failure)
    else return ({ current with machine, state := .loaded, log := #[], fault := none }, none)
  else return (current, some (.image ⟨image.length⟩))

def resetAloud (current : Instance) : Aloud Instance := do
  let machine ← current.machine.resetAloud
  return { current with machine, log := #[], fault := none }

/-- What a call comes back with, and the instance after it. -/
abbrev Answer := Instance × Reply × Option Failure

def Response.answer (response : Response) : Answer :=
  (response.inst, response.reply, response.failure)

def respondAloud (current : Instance) (call : Call) : Aloud Answer :=
  match call.request with
  | .load image => do
    let (later, failure) ← current.loadAloud image
    return (later, .none, failure)
  | .loadFile name =>
    match call.directory.read name with
    | .error error => return (current, .none, some (.file error))
    | .ok image => do
      let (later, failure) ← current.loadAloud image
      if failure = none then debugPrint (.instanceLoaded current.id name)
      return (later, .none, failure)
  | .start =>
    if current.state = .empty then do
      debugPrint (.instanceEmpty current.id)
      return (current, .accepted false, none)
    else return (current.start call.clock, .accepted true, none)
  | .stop => return (current.stop, .none, none)
  | .reset => do return (← current.resetAloud, .none, none)
  | .resetAndStop => do
    let later ← current.resetAloud
    return (later.stop, .none, none)
  | .step => do
    let (later, executed) ← current.stepAloud
    return (later, .executed executed, none)
  | .run now => do
    let (later, executed) ← current.runAloud (now.elim call.clock Amount.toFloat)
    return (later, .executed executed, none)
  | .setSpeed _ _ | .enableInput _ | .setKeys _ => return (current.respond call).answer

theorem says_runSlot (length : Nat) (current : Instance) :
    Says (runSlotAloud length current)
      ((runSlot length current).inst, (runSlot length current).executed)
      (runSlot length current).messages := by
  induction length generalizing current with
  | zero => exact says_pure _
  | succ length ih =>
    have stepped := current.machine.says_step
    cases faulted : current.machine.step.fault with
    | some fault =>
      rw [faulted] at stepped
      simp only [runSlot, faulted]
      exact stepped.bind ((says_print rfl).last (says_pure _))
    | none =>
      rw [faulted] at stepped
      simp only [runSlot, faulted]
      exact stepped.bind ((ih _).last (says_pure _))

theorem says_step (current : Instance) :
    Says current.stepAloud (current.step.inst, current.step.executed) current.step.messages := by
  unfold stepAloud step
  split
  · exact says_pure _
  · exact says_runSlot current.slotLength current

theorem says_run (current : Instance) (now : Float) :
    Says (current.runAloud now) ((current.run now).inst, (current.run now).executed)
      (current.run now).messages := by
  unfold runAloud run slotIfDue
  dsimp only
  split
  · split
    · exact (says_runSlot _ _).last (says_pure _)
    · exact says_pure _
  · exact says_pure _

theorem says_load_of_fits (current : Instance) {image : List UInt8}
    (fits : image.length ≤ Memory.imageCapacity) :
    Says (current.loadAloud image)
      ({ current with
        machine := { current.machine.unload with
          memory := current.machine.unload.memory.overlay Memory.imageStart image.toArray }
        state := .loaded
        log := #[]
        fault := none }, none)
      (messages [.resetComplete, .imageCopied image.length, .imageLoaded image.length]) := by
  rw [loadAloud, if_pos fits]
  exact current.machine.says_unload.bind
    ((current.machine.unload.says_load_of_fits fits).last (says_pure _))

theorem says_load_of_excess (current : Instance) {image : List UInt8}
    (excess : ¬image.length ≤ Memory.imageCapacity) :
    Says (current.loadAloud image) (current, some (.image ⟨image.length⟩)) [] := by
  rw [loadAloud, if_neg excess]
  exact says_pure _

theorem says_reset (current : Instance) :
    Says current.resetAloud current.reset (messages [.resetComplete]) :=
  current.machine.says_reset.last (says_pure _)

theorem says_respond (current : Instance) (call : Call) :
    Says (current.respondAloud call) (current.respond call).answer
      (current.respond call).messages := by
  obtain ⟨directory, clock, request⟩ := call
  cases request with
  | load image =>
    dsimp only [respondAloud, respond, answer]
    rw [loading_eq]
    split
    next fits => exact (current.says_load_of_fits fits).last (says_pure _)
    next excess => exact (current.says_load_of_excess excess).last (says_pure _)
  | loadFile name =>
    dsimp only [respondAloud]
    cases read : directory.read name with
    | error error =>
      rw [respond_loadFile_of_error current read]
      exact says_pure _
    | ok image =>
      rw [respond_loadFile_of_ok current read, loading_eq]
      by_cases fits : image.length ≤ Memory.imageCapacity
      · rw [if_pos fits]
        exact (current.says_load_of_fits fits).bind ((says_debugPrint _).last (says_pure _))
      · rw [if_neg fits]
        exact (current.says_load_of_excess fits).first (says_pure _)
  | start =>
    dsimp only [respondAloud]
    by_cases empty : current.state = .empty
    · rw [respond_start_of_empty empty, if_pos empty]
      exact (says_debugPrint _).last (says_pure _)
    · rw [respond_start_of_occupied empty, if_neg empty]
      rw [start, if_neg empty]
      exact says_pure _
  | reset => exact current.says_reset.last (says_pure _)
  | resetAndStop => exact current.says_reset.last (says_pure _)
  | step => exact current.says_step.last (says_pure _)
  | run now => exact (current.says_run _).last (says_pure _)
  | stop | setSpeed _ _ | enableInput _ | setKeys _ => exact says_pure _

end Instance

namespace Roster

def driveAloud (now : Float) (keys : Option (List Bool)) (resident : Instance) :
    Aloud (Instance × Nat) :=
  if resident.state = .running then do
    let (later, executed) ← resident.runAloud now
    return (keys.elim later later.setKeys, executed)
  else return (resident, 0)

def runAloud (roster : Roster) (now : Float) (keys : Option (List Bool)) :
    Aloud (Roster × Nat) := do
  let driven ← roster.residents.mapM (driveAloud now keys)
  return ({ roster with residents := driven.map (·.1) }, (driven.map (·.2)).foldl (· + ·) 0)

abbrev Answer := Roster × Reply × Option Failure

def Response.answer (response : Response) : Answer :=
  (response.roster, response.reply, response.failure)

def respondAloud (roster : Roster) (call : Call) : Aloud Answer :=
  match call.request with
  | .create dialect seed => do
    let later := roster.create dialect seed call.clock
    debugPrint (.instanceCreated roster.freeId)
    return (later, .id roster.freeId, none)
  | .delete id =>
    match roster.delete id with
    | .error unknown => return (roster.refuse unknown).answer
    | .ok smaller => do
      debugPrint (.instanceDeleted id.toNat)
      return (smaller, .ofInstance .none, none)
  | .run now keys => do
    let (later, executed) ← roster.runAloud (now.elim call.clock Amount.toFloat) keys
    return (later, .ofInstance (.executed executed), none)
  | .toInstance id request =>
    match roster.get id with
    | .error unknown => return (roster.refuse unknown).answer
    | .ok found => do
      let (inst, reply, failure) ← found.respondAloud ⟨call.directory, call.clock, request⟩
      return (roster.replace inst, .ofInstance reply, failure.map .ofInstance)
  | .select _ | .get _ => return (roster.respond call).answer

theorem says_drive (now : Float) (keys : Option (List Bool)) (resident : Instance) :
    Says (driveAloud now keys resident)
      ((drive now keys resident).inst, (drive now keys resident).executed)
      (drive now keys resident).messages := by
  unfold driveAloud drive
  split
  · exact (resident.says_run now).last (says_pure _)
  · exact says_pure _

theorem says_run (roster : Roster) (now : Float) (keys : Option (List Bool)) :
    Says (roster.runAloud now keys) ((roster.run now keys).roster, (roster.run now keys).executed)
      (roster.run now keys).messages := by
  have driven := says_mapM (says_drive now keys) roster.residents
  unfold runAloud run
  simp only [List.flatMap_map]
  refine driven.last ?_
  simp only [List.map_map]
  exact says_pure _

theorem says_respond (roster : Roster) (call : Call) :
    Says (roster.respondAloud call) (roster.respond call).answer
      (roster.respond call).messages := by
  obtain ⟨directory, clock, request⟩ := call
  cases request with
  | create dialect seed => exact (says_debugPrint _).last (says_pure _)
  | delete id =>
    dsimp only [respondAloud, respond, answer]
    cases roster.delete id with
    | error unknown => exact says_pure _
    | ok smaller => exact (says_debugPrint _).last (says_pure _)
  | run now keys => exact (roster.says_run _ keys).last (says_pure _)
  | toInstance id request =>
    dsimp only [respondAloud, respond, answer]
    cases roster.get id with
    | error unknown => exact says_pure _
    | ok found => exact (found.says_respond ⟨directory, clock, request⟩).last (says_pure _)
  | select id =>
    dsimp only [respondAloud, respond, answer]
    cases roster.select id <;> exact says_pure _
  | get id =>
    dsimp only [respondAloud, respond, answer]
    cases roster.get id <;> exact says_pure _

end Roster
end ChipEight
