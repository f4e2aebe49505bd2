import ChipEight.Proofs.Images
import ChipEight.Proofs.InstanceActions
import ChipEight.Proofs.SelfJumps

/-!
# What outlives a program

An instance that gets another program goes on with its random generator and with the few bytes that
neither the font nor an image covers. Main statement: in all else its machine is one that was never
used before, so that two pasts which agree in these cannot be told apart.
-/
namespace ChipEight

namespace Memory

/-- The addresses that neither the font nor an image covers. -/
def Spare (address : Address) : Prop :=
  address.val < 0x50 ∨ 0xA0 ≤ address.val ∧ address.val < 0x200

instance : DecidablePred Spare := fun address =>
  inferInstanceAs (Decidable (address.val < 0x50 ∨ 0xA0 ≤ address.val ∧ address.val < 0x200))

theorem spare_iff (address : Address) :
    Spare address ↔ ¬imageStart ≤ address.val ∧ ¬Font.Occupies address.val := by
  simp only [Spare, Font.Occupies, Font.start, Font.stop, imageStart]
  omega

theorem not_imageStart_le_of_spare {address : Address} (spare : Spare address) :
    ¬imageStart ≤ address.val :=
  ((spare_iff address).mp spare).1

/-- A new image over the remains of an old one. -/
theorem get_overlay_clearImage (memory : Memory) (image : Array UInt8) (address : Address) :
    (memory.clearImage.overlay imageStart image).get address =
      if imageStart ≤ address.val then image.getD (address.val - imageStart) 0
      else memory.get address := by
  rw [get_overlay, get_clearImage]
  split <;> rfl

theorem get_overlay_initial {address : Address} (inside : imageStart ≤ address.val)
    (image : Array UInt8) :
    (initial.overlay imageStart image).get address = image.getD (address.val - imageStart) 0 := by
  have apart : ¬Font.Occupies address.val := fun font => not_imageStart_le font inside
  rw [get_overlay, if_pos inside, get_initial, dif_neg apart]

/-- Where the old memory cannot be seen, a new one looks the same. -/
theorem get_overlay_clearImage_eq {memory : Memory} (intact : memory.FontInPlace)
    (image : Array UInt8) (address : Address) :
    (memory.clearImage.overlay imageStart image).get address =
      if Spare address then memory.get address
      else (initial.overlay imageStart image).get address := by
  rw [get_overlay_clearImage]
  by_cases inside : imageStart ≤ address.val
  · rw [if_pos inside, if_neg (fun spare => not_imageStart_le_of_spare spare inside),
      get_overlay_initial inside]
  · by_cases font : Font.Occupies address.val
    · have covered : ¬Spare address := fun spare => ((spare_iff address).mp spare).2 font
      rw [if_neg inside, if_neg covered, intact address font,
        fontInPlace_initial.overlay image address font]
    · rw [if_neg inside, if_pos ((spare_iff address).mpr ⟨inside, font⟩)]

end Memory

namespace Instance

/-- The machine after the program was replaced. -/
def reloaded (current : Instance) (image : List UInt8) : Machine :=
  { current.machine.unload with
    memory := current.machine.memory.clearImage.overlay Memory.imageStart image.toArray }

variable {current : Instance} {image : List UInt8}

theorem respond_load (current : Instance) (fits : image.length ≤ Memory.imageCapacity)
    (directory : Directory) (clock : Float) :
    (current.respond ⟨directory, clock, .load image⟩).failure = none ∧
    (current.respond ⟨directory, clock, .load image⟩).inst =
      { current with
        machine := current.reloaded image, state := .loaded, log := #[], fault := none } := by
  have loaded := current.loading_eq image []
  rw [if_pos fits] at loaded
  change (current.loading image []).failure = none ∧ (current.loading image []).inst = _
  rw [loaded]
  exact ⟨rfl, rfl⟩

/-- An instance keeps its dialect, whatever it is asked. -/
theorem reloaded_eq_fresh {dialect : Dialect} (same : current.machine.dialect = dialect)
    (fits : image.length ≤ Memory.imageCapacity) (directory : Directory) (seed : Int) :
    current.reloaded image =
      { ((Machine.initial dialect seed).perform directory (.load image)).machine with
        memory := (current.reloaded image).memory
        random := current.machine.random } := by
  rw [Machine.perform_load _ directory fits, ← same]
  rfl

theorem get_reloaded (intact : current.machine.memory.FontInPlace)
    (fits : image.length ≤ Memory.imageCapacity) (dialect : Dialect) (directory : Directory)
    (seed : Int) (address : Address) :
    (current.reloaded image).memory.get address =
      if Memory.Spare address then current.machine.memory.get address
      else ((Machine.initial dialect seed).perform directory (.load image)).machine.memory.get
        address := by
  rw [Machine.perform_load _ directory fits]
  exact Memory.get_overlay_clearImage_eq intact image.toArray address

/-- All that the past of an instance leaves behind when its program is replaced. -/
theorem reloaded_eq {left right : Instance} (left_intact : left.machine.memory.FontInPlace)
    (right_intact : right.machine.memory.FontInPlace)
    (dialect : left.machine.dialect = right.machine.dialect)
    (spare : ∀ address, Memory.Spare address →
      left.machine.memory.get address = right.machine.memory.get address)
    (random : left.machine.random = right.machine.random)
    (fits : image.length ≤ Memory.imageCapacity) : left.reloaded image = right.reloaded image := by
  have memory : (left.reloaded image).memory = (right.reloaded image).memory := by
    apply Memory.ext_get
    intro address
    -- Any new machine will do: what is not spare is the same in all of them.
    rw [get_reloaded left_intact fits {} [] 0, get_reloaded right_intact fits {} [] 0]
    split
    next kept => exact spare address kept
    next => rfl
  calc left.reloaded image
      = { ((Machine.initial right.machine.dialect 0).perform [] (.load image)).machine with
          memory := (left.reloaded image).memory, random := left.machine.random } :=
        reloaded_eq_fresh dialect fits [] 0
    _ = { ((Machine.initial right.machine.dialect 0).perform [] (.load image)).machine with
          memory := (right.reloaded image).memory, random := right.machine.random } := by
        rw [memory, random]
    _ = right.reloaded image := (reloaded_eq_fresh rfl fits [] 0).symm

/-- Replacing the program makes the machine of an instance a new one apart from the spare bytes and
the random generator, and so does a reset apart from all of memory and the generator. -/
theorem replaced_program_leaves_spare_bytes_and_generator (id : Nat) (dialect : Dialect)
    (seed : Int) (clock : Float) (calls : List Call) (directory : Directory) (now : Float)
    (image : List UInt8) (fits : image.length ≤ 3584) :
    let current := (create id dialect seed clock).answerAll calls
    let response := current.respond ⟨directory, now, .load image⟩
    let machine := response.inst.machine
    response.failure = none ∧
    response.inst = { current with machine, state := .loaded, log := #[], fault := none } ∧
    (∀ anySeed,
      let fresh := ((Machine.initial dialect anySeed).perform directory (.load image)).machine
      machine = { fresh with memory := machine.memory, random := current.machine.random } ∧
      ∀ address, machine.memory.get address =
        if Memory.Spare address then current.machine.memory.get address
        else fresh.memory.get address) ∧
    (∀ address : Address, 0x200 + image.length ≤ address.val → machine.memory.get address = 0) ∧
    (∀ used : Machine, ∀ anySeed, (used.perform directory .reset).machine =
      { Machine.initial used.dialect anySeed with memory := used.memory, random := used.random }) ∧
    ∀ otherId otherSeed otherClock otherCalls otherDirectory otherNow,
      let other := (create otherId dialect otherSeed otherClock).answerAll otherCalls
      (∀ address, Memory.Spare address →
        other.machine.memory.get address = current.machine.memory.get address) →
      other.machine.random = current.machine.random →
      (other.respond ⟨otherDirectory, otherNow, .load image⟩).inst.machine = machine := by
  intro current response machine
  have intact : current.machine.memory.FontInPlace :=
    fontInPlace_answerAll id dialect seed clock calls
  have same : current.machine.dialect = dialect := answerAll_dialect _ calls
  obtain ⟨unfailed, loaded⟩ := current.respond_load fits directory now
  have replaced : machine = current.reloaded image := congrArg Instance.machine loaded
  refine ⟨unfailed, ?_, ?_, ?_, ?_, ?_⟩
  · rw [replaced]
    exact loaded
  · intro anySeed
    rw [replaced]
    exact ⟨reloaded_eq_fresh same fits directory anySeed,
      get_reloaded intact fits dialect directory anySeed⟩
  · intro address behind
    have inside : Memory.imageStart ≤ address.val := Nat.le_of_add_right_le behind
    have past : image.length ≤ address.val - Memory.imageStart := Nat.le_sub_of_add_le' behind
    rw [replaced, reloaded, Memory.get_overlay_clearImage, if_pos inside]
    simp [past]
  · intro used anySeed
    rfl
  · intro otherId otherSeed otherClock otherCalls otherDirectory otherNow other spare random
    have other_intact : other.machine.memory.FontInPlace :=
      fontInPlace_answerAll otherId dialect otherSeed otherClock otherCalls
    have other_dialect : other.machine.dialect = dialect := answerAll_dialect _ otherCalls
    rw [(other.respond_load fits otherDirectory otherNow).2, replaced]
    exact reloaded_eq other_intact intact (other_dialect.trans same.symm) spare random fits

/-- A slot of jumps to themselves. -/
theorem step_rests {current : Instance} (here : current.machine.AtSelfJump)
    (occupied : current.state ≠ .empty) (positive : 0 < current.slotLength) :
    current.step.inst.machine.Rests current.machine ∧
      current.step.inst.machine.cpu.halted = true := by
  have rests_step (later : Machine) (rests : later.Rests current.machine) :
      later.step.machine.Rests current.machine := by
    have idle : Machine.Action.step.Idle := trivial
    exact (rests.perform here [] idle).2
  rw [step_machine, if_neg occupied, Machine.run_halted_iff]
  exact ⟨Machine.run_keeps _ rests_step current.slotLength ⟨Machine.Agrees.refl _, rfl⟩,
    .inr ⟨_, Machine.mem_visited positive _, here⟩⟩

/-- Whatever an instance did before, a jump to `0x200` holds it in place. -/
theorem loaded_atSelfJump {fresh loaded : Instance}
    (load : (fresh.respond ⟨[], 0, .load [0x12, 0x00]⟩).inst = loaded) :
    loaded.machine.AtSelfJump ∧
      loaded = { fresh with
        machine := fresh.reloaded [0x12, 0x00], state := .loaded, log := #[], fault := none } := by
  have fits : ([0x12, 0x00] : List UInt8).length ≤ Memory.imageCapacity := by decide
  have replaced := (fresh.respond_load fits [] 0).2
  rw [load] at replaced
  have held : loaded.machine.memory =
      fresh.machine.memory.clearImage.overlay Memory.imageStart #[0x12, 0x00] := by
    rw [replaced]
    rfl
  have begins : loaded.machine.cpu.pc = 0x200 := by
    rw [replaced]
    rfl
  have word : loaded.machine.word = 0x1200 := by
    rw [Machine.word_of_overlay begins held (by decide) (by decide)]
    decide
  have here : loaded.machine.AtSelfJump := by
    rw [Machine.AtSelfJump, word, begins]
    exact .inl (by decide)
  exact ⟨here, replaced⟩

/-- The calls that load a jump to itself and execute it ten times. -/
def jumpsInPlace : List Call :=
  [⟨[], 0, .load [0x12, 0x00]⟩, ⟨[], 0, .step⟩]

theorem answerAll_jumpsInPlace (fresh : Instance) :
    fresh.answerAll jumpsInPlace =
      (fresh.respond ⟨[], 0, .load [0x12, 0x00]⟩).inst.step.inst :=
  rfl

theorem reload_after_jumpsInPlace :
    ((create 0 {} 0 0).answerAll jumpsInPlace).machine.cpu.halted = true ∧
    ((create 7 {} 0 5).respond ⟨[], 0, .load [0x00, 0xE0]⟩).inst.machine =
      (((create 0 {} 0 0).answerAll jumpsInPlace).respond
        ⟨[], 0, .load [0x00, 0xE0]⟩).inst.machine := by
  obtain ⟨-, -, -, -, -, alike⟩ :=
    replaced_program_leaves_spare_bytes_and_generator 0 {} 0 0 jumpsInPlace [] 0 [0x00, 0xE0]
      (by decide)
  obtain ⟨loaded, load⟩ :
    ∃ loaded, ((create 0 {} 0 0).respond ⟨[], 0, .load [0x12, 0x00]⟩).inst = loaded := ⟨_, rfl⟩
  obtain ⟨here, replaced⟩ := loaded_atSelfJump load
  have stepped : (create 0 {} 0 0).answerAll jumpsInPlace = loaded.step.inst := by
    rw [answerAll_jumpsInPlace, load]
  obtain ⟨rests, raised⟩ := step_rests here (by rw [replaced]; decide) (by rw [replaced]; decide)
  rw [← stepped] at rests raised
  refine ⟨raised, alike 7 0 5 [] [] 0 ?_ ?_⟩
  · intro address spare
    -- The jumps wrote nothing, and loading them covered no spare byte.
    have low := Memory.not_imageStart_le_of_spare spare
    have kept := Memory.get_overlay_clearImage Memory.initial #[0x12, 0x00] address
    rw [if_neg low] at kept
    rw [rests.agrees.memory, replaced]
    exact kept.symm
  · rw [rests.random, replaced]
    rfl

end Instance
end ChipEight
