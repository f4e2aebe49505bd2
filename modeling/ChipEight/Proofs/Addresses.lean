import ChipEight.Proofs.Step

/-!
# Addresses within memory

The program counter, the address of the last instruction and every slot of the call stack, in use or
not, name one of the 4096 bytes. Nothing else keeps them there: their type has room for more.
-/
namespace ChipEight

namespace Processor

structure WithinMemory (cpu : Processor) : Prop where
  pc : cpu.pc.toNat < 4096
  last : cpu.last.address.toNat < 4096
  slots : ∀ slot : Fin 16, cpu.stack.slots[slot].toNat < 4096

variable {cpu next : Processor}

theorem withinMemory_initial : initial.WithinMemory where
  pc := by decide
  last := by decide
  slots slot := by simp [initial, CallStack.empty]

theorem WithinMemory.of_same (within : cpu.WithinMemory) (pc : next.pc = cpu.pc)
    (last : next.last = cpu.last) (stack : next.stack = cpu.stack) : next.WithinMemory where
  pc := pc ▸ within.pc
  last := last ▸ within.last
  slots := stack ▸ within.slots

theorem WithinMemory.goto (within : cpu.WithinMemory) {target : UInt16}
    (small : target.toNat < 4096) : { cpu with pc := target }.WithinMemory where
  pc := small
  last := within.last
  slots := within.slots

theorem WithinMemory.jump (within : cpu.WithinMemory) {target : UInt16}
    (small : target.toNat < 4096) : (cpu.jump target).WithinMemory where
  pc := small
  last := within.last
  slots := within.slots

theorem following_lt (address : UInt16) : (following address).toNat < 4096 := by
  rw [toNat_following]
  exact Nat.mod_lt _ (by decide)

theorem mod_lt (address : UInt16) : (address % 4096).toNat < 4096 := by
  rw [UInt16.toNat_mod]
  exact Nat.mod_lt _ (by decide)

theorem WithinMemory.skipIf (within : cpu.WithinMemory) (condition : Bool) :
    (cpu.skipIf condition).WithinMemory := by
  cases condition
  · exact within
  · exact within.goto (following_lt cpu.pc)

theorem WithinMemory.push (within : cpu.WithinMemory) {address : UInt16}
    (small : address.toNat < 4096) {stack : CallStack}
    (pushed : cpu.stack.push? address = some stack) : { cpu with stack }.WithinMemory where
  pc := within.pc
  last := within.last
  slots slot := by
    unfold CallStack.push? at pushed
    split at pushed
    · cases pushed
      -- One slot takes the new address; the others, in use or not, keep theirs.
      have kept := within.slots slot
      simp only [Fin.getElem_fin, Vector.getElem_set] at kept ⊢
      split
      · exact small
      · exact kept
    · simp at pushed

theorem WithinMemory.pop (within : cpu.WithinMemory) {address : UInt16} {stack : CallStack}
    (popped : cpu.stack.pop? = some (address, stack)) :
    { cpu with stack, pc := address }.WithinMemory := by
  unfold CallStack.pop? at popped
  split at popped
  · cases popped
    -- The counter comes out of a slot, which is why the slots are part of the invariant.
    exact ⟨within.slots ⟨cpu.stack.depth.val - 1, by omega⟩, within.last, within.slots⟩
  · simp at popped

end Processor

/-- Every operation, in each of its variants, leaves the addresses within memory. -/
theorem Operation.execute_withinMemory {operation : Operation} {word : Word}
    {machine next : Machine} (done : operation.execute word machine = .ok next)
    (within : machine.cpu.WithinMemory) : next.cpu.WithinMemory := by
  cases operation with
  | call =>
    simp only [execute] at done
    split at done
    next stack pushed =>
      cases done
      exact (within.push within.pc pushed).goto (Word.nnn_lt word)
    · simp at done
  | ret =>
    simp only [execute] at done
    split at done
    next address stack popped =>
      cases done
      exact within.pop popped
    · simp at done
  | awaitKey =>
    simp only [execute] at done
    split at done
    · cases done
      exact within.of_same rfl rfl rfl
    · cases done
      exact (within.goto (Processor.mod_lt _)).of_same rfl rfl rfl
  | jump =>
    cases done
    exact within.jump (Word.nnn_lt word)
  | jumpOffset addsNamed =>
    cases done
    exact within.jump (Processor.mod_lt _)
  | skipByte whenEqual | skipRegister whenEqual | skipKey whenHeld =>
    cases done
    exact within.skipIf _
  | logic op clearsFlag =>
    cases clearsFlag <;> cases done <;> exact within.of_same rfl rfl rfl
  | _ =>
    cases done
    exact within.of_same rfl rfl rfl

namespace Machine

variable {machine : Machine}

theorem fetch_withinMemory (within : machine.cpu.WithinMemory) :
    machine.fetch.cpu.WithinMemory where
  pc := Processor.following_lt machine.cpu.pc
  last := within.pc
  slots := within.slots

theorem step_withinMemory (within : machine.cpu.WithinMemory) :
    machine.step.machine.cpu.WithinMemory := by
  cases outcome : machine.upcoming.execute machine.word machine.fetch with
  | ok next =>
    rw [(step_of_ok outcome).1]
    exact Operation.execute_withinMemory outcome (fetch_withinMemory within)
  | error fault =>
    rw [(step_of_error outcome).1]
    exact ⟨within.pc, within.pc, within.slots⟩

theorem perform_withinMemory (directory : Directory) (machine : Machine) (action : Action)
    (within : machine.cpu.WithinMemory) :
    (machine.perform directory action).machine.cpu.WithinMemory := by
  cases action with
  | load image =>
    obtain ⟨memory, loaded⟩ := machine.loading_memory image []
    rw [perform, loaded]
    exact within
  | loadFile name =>
    rw [perform]
    cases directory.read name with
    | ok image =>
      obtain ⟨memory, loaded⟩ := machine.loading_memory image [.fileLoaded name]
      simp only [loaded]
      exact within
    | error error => exact within
  | unload | reset => exact Processor.withinMemory_initial
  | step => exact step_withinMemory within
  | run count =>
    exact run_keeps (fun machine => machine.cpu.WithinMemory) (fun _ => step_withinMemory) count
      within
  | tick => exact within.of_same rfl rfl rfl
  | setKeys states | holdKey key held | setRedraw redraw =>
    -- Unfolded by hand: comparing whole machines would compare their keys.
    simp only [perform, setKeys, holdKey, setRedraw]
    exact within

theorem performAll_withinMemory (directory : Directory) (dialect : Dialect) (seed : Int)
    (actions : List Action) :
    ((initial dialect seed).performAll directory actions).cpu.WithinMemory :=
  performAll_keeps (fun machine => machine.cpu.WithinMemory) directory
    (perform_withinMemory directory) actions Processor.withinMemory_initial

end Machine
end ChipEight
