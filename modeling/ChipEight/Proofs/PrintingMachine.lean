import ChipEight.Proofs.Console
import ChipEight.Proofs.Step

/-!
# Machines that print

The operations of a machine, with each diagnostic printed at the place that it is about: where a
write is dropped, a jump stays in place, an undefined word is passed over. Main statement: they say
what the operations that collect their diagnostics report, and have the same results.
-/
namespace ChipEight

open Console (debugPrint)

open Diagnostic (messages)

namespace Memory

def storeAloud (memory : Memory) (write : Address × UInt8) : Aloud Memory :=
  if Font.Occupies write.1.val then do
    debugPrint (.droppedWrite write.2 write.1)
    return memory
  else return ⟨memory.bytes.set write.1.val write.2⟩

def storeAllAloud (memory : Memory) (writes : List (Address × UInt8)) : Aloud Memory :=
  writes.foldlM storeAloud memory

theorem says_store (memory : Memory) (write : Address × UInt8) :
    Says (memory.storeAloud write) (memory.store write.1 write.2)
      (messages (Diagnostic.ofWrite? write).toList) := by
  unfold storeAloud store Diagnostic.ofWrite?
  split
  · exact (says_debugPrint _).last (says_pure _)
  · exact says_pure _

theorem says_storeAll (memory : Memory) (writes : List (Address × UInt8)) :
    Says (memory.storeAllAloud writes) (memory.storeAll writes)
      (messages (writes.filterMap Diagnostic.ofWrite?)) := by
  induction writes generalizing memory with
  | nil => exact says_pure memory
  | cons write writes ih =>
    have split : (write :: writes).filterMap Diagnostic.ofWrite? =
        (Diagnostic.ofWrite? write).toList ++ writes.filterMap Diagnostic.ofWrite? := by
      rw [List.filterMap_cons]
      cases Diagnostic.ofWrite? write <;> rfl
    rw [split, messages, List.map_append]
    exact (says_store memory write).bind (ih _)

end Memory

/-- The note of a jump in place looks at the hint that the jump is about to raise. -/
def Processor.jumpAloud (cpu : Processor) (target : UInt16) : Aloud Processor :=
  if target = cpu.last.address then do
    if !cpu.halted then debugPrint (.selfJump target)
    return { cpu with pc := target, halted := true }
  else return { cpu with pc := target }

theorem Processor.says_jump (cpu : Processor) (target : UInt16) :
    Says (cpu.jumpAloud target) (cpu.jump target)
      (messages (if target = cpu.last.address ∧ cpu.halted = false then [.selfJump target]
        else [])) := by
  unfold jumpAloud jump
  by_cases here : target = cpu.last.address
  · cases halted : cpu.halted with
    | false =>
      simp only [here, beq_self_eq_true, Bool.or_true, and_self, if_true]
      exact (says_debugPrint _).last (says_pure _)
    | true =>
      simp only [here, beq_self_eq_true, Bool.or_true, if_true]
      exact says_pure _
  · have away : (target == cpu.last.address) = false := beq_false_of_ne here
    simp only [here, away, Bool.or_false, false_and, if_false]
    exact says_pure _

namespace Operation

def executeAloud (operation : Operation) (word : Word) (machine : Machine) :
    Aloud (Except StackFault Machine) :=
  match operation with
  | undefined => do
    debugPrint (.undefinedWord word machine.cpu.last.address)
    return .ok machine
  | jump | jumpOffset _ =>
    match operation.target? word machine.cpu with
    | some target => do
      let cpu ← machine.cpu.jumpAloud target
      return .ok { machine with cpu }
    | none => return .ok machine
  | decimal => do
    let memory ← machine.memory.storeAllAloud (operation.writes word machine.cpu)
    return .ok { machine with memory }
  | store advance => do
    let memory ← machine.memory.storeAllAloud (operation.writes word machine.cpu)
    let index := machine.cpu.index + UInt16.ofNat (advance.distance word.x.val)
    return .ok { machine with cpu := machine.cpu.setIndex index, memory }
  | _ => return operation.execute word machine

theorem says_execute (operation : Operation) (word : Word) (machine : Machine) :
    Says (operation.executeAloud word machine) (operation.execute word machine)
      (messages (operation.notes word machine.cpu)) := by
  cases operation with
  | undefined => exact (says_debugPrint _).last (says_pure _)
  | jump | jumpOffset _ => exact (machine.cpu.says_jump _).last (says_pure _)
  | decimal | store _ => exact (machine.memory.says_storeAll _).last (says_pure _)
  | _ => exact says_pure _

end Operation

namespace Machine

/-- Fetch a word and execute it; a failure leaves the counter at the instruction. -/
def stepAloud (machine : Machine) : Aloud (Machine × Option StackFault) := do
  let ready := machine.fetch
  match ← ready.operation.executeAloud ready.cpu.last.word ready with
  | .ok next => return (next, none)
  | .error fault =>
    return ({ ready with cpu := { ready.cpu with pc := machine.cpu.pc } }, some fault)

def runAloud : Nat → Machine → Aloud (Machine × Option StackFault)
  | 0, machine => return (machine, none)
  | count + 1, machine => do
    let (next, fault) ← machine.stepAloud
    if fault.isSome then return (next, fault) else runAloud count next

theorem says_step (machine : Machine) :
    Says machine.stepAloud (machine.step.machine, machine.step.fault)
      (messages machine.step.notes) := by
  have executed := machine.fetch.operation.says_execute machine.fetch.cpu.last.word machine.fetch
  unfold stepAloud step
  dsimp only
  cases outcome : machine.fetch.operation.execute machine.fetch.cpu.last.word machine.fetch with
  | ok next =>
    rw [outcome] at executed
    exact executed.last (says_pure _)
  | error fault =>
    rw [outcome] at executed
    exact executed.last (says_pure _)

theorem says_run (count : Nat) (machine : Machine) :
    Says (runAloud count machine) ((run count machine).machine, (run count machine).fault)
      (messages (run count machine).notes) := by
  induction count generalizing machine with
  | zero => exact says_pure _
  | succ count ih =>
    have stepped := machine.says_step
    cases faulted : machine.step.fault with
    | some fault =>
      -- The run is over, and has said what the failing step had to say.
      rw [run_succ_of_fault faulted]
      rw [faulted] at stepped ⊢
      exact stepped.last (says_pure _)
    | none =>
      rw [faulted] at stepped
      simp only [run, faulted, messages, List.map_append]
      exact stepped.bind (ih machine.step.machine)

def resetAloud (machine : Machine) : Aloud Machine := do
  debugPrint .resetComplete
  return machine.reset

def unloadAloud (machine : Machine) : Aloud Machine := do
  let clear ← machine.resetAloud
  return { clear with memory := clear.memory.clearImage }

def loadAloud (machine : Machine) (image : List UInt8) : Aloud (Machine × Option Failure) :=
  match machine.memory.load image with
  | .error rejected => return (machine, some (.image rejected))
  | .ok memory => do
    debugPrint (.imageCopied image.length)
    debugPrint (.imageLoaded image.length)
    return ({ machine with memory }, none)

def performAloud (directory : Directory) (machine : Machine) :
    Action → Aloud (Machine × Option Failure)
  | .load image => machine.loadAloud image
  | .loadFile name =>
    match directory.read name with
    | .error error => return (machine, some (.file error))
    | .ok image => do
      let (loaded, failure) ← machine.loadAloud image
      if failure = none then debugPrint (.fileLoaded name)
      return (loaded, failure)
  | .unload => do return (← machine.unloadAloud, none)
  | .reset => do return (← machine.resetAloud, none)
  | .step => do
    let (next, fault) ← machine.stepAloud
    return (next, fault.map .stack)
  | .run count => do
    let (next, fault) ← runAloud count machine
    return (next, fault.map .stack)
  | .tick => return (machine.tick, none)
  | .setKeys states => return (machine.setKeys states, none)
  | .holdKey key held => return (machine.holdKey key held, none)
  | .setRedraw redraw => return (machine.setRedraw redraw, none)

theorem says_reset (machine : Machine) :
    Says machine.resetAloud machine.reset (messages [.resetComplete]) :=
  (says_debugPrint _).last (says_pure _)

theorem says_unload (machine : Machine) :
    Says machine.unloadAloud machine.unload (messages [.resetComplete]) :=
  machine.says_reset.last (says_pure _)

theorem says_load_of_fits (machine : Machine) {image : List UInt8}
    (fits : image.length ≤ Memory.imageCapacity) :
    Says (machine.loadAloud image)
      ({ machine with memory := machine.memory.overlay Memory.imageStart image.toArray }, none)
      (messages [.imageCopied image.length, .imageLoaded image.length]) := by
  simp only [loadAloud, Memory.load, if_pos fits]
  exact (says_debugPrint _).bind ((says_debugPrint _).last (says_pure _))

theorem says_load_of_excess (machine : Machine) {image : List UInt8}
    (excess : ¬image.length ≤ Memory.imageCapacity) :
    Says (machine.loadAloud image) (machine, some (.image ⟨image.length⟩)) [] := by
  simp only [loadAloud, Memory.load, if_neg excess]
  exact says_pure _

/-- Every operation has the same result as the one that collects its diagnostics, and says them. -/
theorem says_perform (directory : Directory) (machine : Machine) (action : Action) :
    Says (machine.performAloud directory action)
      ((machine.perform directory action).machine, (machine.perform directory action).failure)
      (messages (machine.perform directory action).notes) := by
  cases action with
  | load image =>
    dsimp only [perform, performAloud]
    rw [loading_eq]
    split
    next fits => exact machine.says_load_of_fits fits
    next excess => exact machine.says_load_of_excess excess
  | loadFile name =>
    dsimp only [perform, performAloud]
    cases directory.read name with
    | error error => exact says_pure _
    | ok image =>
      dsimp only
      rw [loading_eq]
      split
      next fits =>
        exact (machine.says_load_of_fits fits).bind ((says_debugPrint _).last (says_pure _))
      next excess =>
        exact (machine.says_load_of_excess excess).first (says_pure _)
  | unload => exact machine.says_unload.last (says_pure _)
  | reset => exact machine.says_reset.last (says_pure _)
  | step => exact machine.says_step.last (says_pure _)
  | run count => exact (machine.says_run count).last (says_pure _)
  | tick | setKeys _ | holdKey _ _ | setRedraw _ => exact says_pure _

end Machine
end ChipEight
