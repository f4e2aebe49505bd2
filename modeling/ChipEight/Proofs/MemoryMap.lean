import ChipEight.Proofs.Images

/-!
# Memory as a map

Memory is kept as 4096 bytes in a row, written one at a time or by whole images. A reader need only
know a map from residues modulo 4096 to bytes. Main statement: after any edits, the readers of
memory show what the same edits make of the map, for addresses and lengths of any size.
-/
namespace ChipEight

/-- What can be done to memory. Any integer is an address, and any integer is a value. -/
inductive Memory.Edit where
  | write (address value : Int)
  | load (image : List UInt8)
  | clearImage

/-- The byte at each residue modulo 4096, as a number. -/
abbrev Contents := Int → Int

namespace Contents

/-- The font in place and zero elsewhere. -/
def initial : Contents := fun place =>
  if 0x50 ≤ place ∧ place < 0xA0 then (Font.bytes.toList.getD (place - 0x50).toNat 0).toNat else 0

/-- Font bytes keep their value. -/
def write (contents : Contents) (address value : Int) : Contents := fun place =>
  if place = address % 4096 ∧ ¬(0x50 ≤ place ∧ place < 0xA0) then value % 256 else contents place

def load (contents : Contents) (image : List UInt8) : Contents := fun place =>
  if 0x200 ≤ place ∧ place < 0x200 + image.length then (image.getD (place - 0x200).toNat 0).toNat
  else contents place

def clearImage (contents : Contents) : Contents := fun place =>
  if 0x200 ≤ place then 0 else contents place

/-- The contents after an edit, and its error. -/
def edit (contents : Contents) : Memory.Edit → Contents × Option ImageTooLarge
  | .write address value => (contents.write address value, none)
  | .load image =>
    if image.length ≤ 3584 then (contents.load image, none) else (contents, some ⟨image.length⟩)
  | .clearImage => (contents.clearImage, none)

/-- The contents after edits, and their errors in order. -/
def editAll (contents : Contents) : List Memory.Edit → Contents × List (Option ImageTooLarge)
  | [] => (contents, [])
  | edit :: edits =>
    let edited := contents.edit edit
    let after := editAll edited.1 edits
    (after.1, edited.2 :: after.2)

end Contents

namespace Memory

/-- Memory after an edit, and its error. -/
def edit (memory : Memory) : Edit → Memory × Option ImageTooLarge
  | .write address value => (memory.write address value, none)
  | .load image =>
    match memory.load image with
    | .ok loaded => (loaded, none)
    | .error tooLarge => (memory, some tooLarge)
  | .clearImage => (memory.clearImage, none)

/-- Memory after edits, and their errors in order. -/
def editAll (memory : Memory) : List Edit → Memory × List (Option ImageTooLarge)
  | [] => (memory, [])
  | edit :: edits =>
    let edited := memory.edit edit
    let after := editAll edited.1 edits
    (after.1, edited.2 :: after.2)

/-- The byte at each residue is the map's. -/
def Refines (memory : Memory) (contents : Contents) : Prop :=
  ∀ place : Address, ((memory.get place).toNat : Int) = contents place.val

variable {memory : Memory} {contents : Contents}

/-! ### One edit -/

theorem eq_ofInt_iff (place : Address) (address : Int) :
    place = Address.ofInt address ↔ (place.val : Int) = address % 4096 := by
  rw [← Address.val_ofInt, Fin.ext_iff, Int.natCast_inj]

theorem toNat_ofInt (value : Int) : ((UInt8.ofInt value).toNat : Int) = value % 256 := by
  rw [UInt8.ofInt, UInt8.toNat_ofNat']
  omega

theorem refines_initial : initial.Refines Contents.initial := by
  intro place
  rw [get_initial, Contents.initial]
  by_cases font : Font.Occupies place.val
  · have row : ((place.val : Int) - 0x50).toNat = place.val - Font.start := by
      unfold Font.start
      omega
    have inside : place.val - Font.start < Font.bytes.toList.length := by
      have occupied := font
      simp only [Font.Occupies, Font.start, Font.stop, Vector.length_toList] at occupied ⊢
      omega
    rw [dif_pos font, if_pos ((Font.occupies_iff _).mp font), row, Font.byteAt,
      ← @List.getElem_eq_getD _ _ _ inside, Vector.getElem_toList]
    rfl
  · rw [dif_neg font, if_neg (mt (Font.occupies_iff _).mpr font)]
    rfl

theorem Refines.write (refines : memory.Refines contents) (address value : Int) :
    (memory.write address value).Refines (contents.write address value) := by
  intro place
  have written : (place = Address.ofInt address ∧ ¬Font.Occupies (Address.ofInt address).val) ↔
      (place.val : Int) = address % 4096 ∧
        ¬(0x50 ≤ (place.val : Int) ∧ (place.val : Int) < 0xA0) := by
    rw [← eq_ofInt_iff, ← Font.occupies_iff]
    -- The protection asks about the address written, which is then the one that is read.
    apply and_congr_right
    rintro rfl
    rfl
  rw [Memory.write, get_store, Contents.write]
  by_cases changes : place = Address.ofInt address ∧ ¬Font.Occupies (Address.ofInt address).val
  · rw [if_pos changes, if_pos (written.mp changes)]
    exact toNat_ofInt value
  · rw [if_neg changes, if_neg (mt written.mpr changes)]
    exact refines place

/-- Of an image that is too long what has no place is left out. -/
theorem Refines.load (refines : memory.Refines contents) (image : List UInt8) :
    (memory.overlay imageStart image.toArray).Refines (contents.load image) := by
  intro place
  have named_iff : 0x200 ≤ (place.val : Int) ∧ (place.val : Int) < 0x200 + image.length ↔
      imageStart ≤ place.val ∧ place.val - imageStart < image.length := by
    unfold imageStart
    omega
  rw [get_overlay, Contents.load]
  by_cases named : 0x200 ≤ (place.val : Int) ∧ (place.val : Int) < 0x200 + image.length
  · obtain ⟨after, inside⟩ := named_iff.mp named
    have offset : ((place.val : Int) - 0x200).toNat = place.val - imageStart := by
      unfold imageStart
      omega
    rw [if_pos named, if_pos after, offset, ← @List.getElem_eq_getD _ _ _ inside]
    simp [Array.getD, inside]
  · rw [if_neg named]
    -- A place that the image leaves alone is in front of it or behind it.
    split
    next after =>
      have behind : ¬place.val - imageStart < image.length := by
        intro inside
        exact named (named_iff.mpr ⟨after, inside⟩)
      simpa [Array.getD, behind] using refines place
    next => exact refines place

theorem Refines.clearImage (refines : memory.Refines contents) :
    memory.clearImage.Refines contents.clearImage := by
  intro place
  have after : imageStart ≤ place.val ↔ 0x200 ≤ (place.val : Int) := by
    unfold imageStart
    omega
  rw [get_clearImage, Contents.clearImage]
  by_cases image : imageStart ≤ place.val
  · rw [if_pos image, if_pos (after.mp image)]
    rfl
  · rw [if_neg image, if_neg (mt after.mpr image)]
    exact refines place

/-- Memory and map give the same error, and the image that does not fit leaves both as they are. -/
theorem Refines.edit (refines : memory.Refines contents) (edit : Edit) :
    (memory.edit edit).1.Refines (contents.edit edit).1 ∧
    (memory.edit edit).2 = (contents.edit edit).2 := by
  cases edit with
  | write address value => exact ⟨refines.write address value, rfl⟩
  | clearImage => exact ⟨refines.clearImage, rfl⟩
  | load image =>
    rw [Memory.edit, Memory.load, Contents.edit, imageCapacity]
    by_cases fits : image.length ≤ 3584
    · rw [if_pos fits, if_pos fits]
      exact ⟨refines.load image, rfl⟩
    · rw [if_neg fits, if_neg fits]
      exact ⟨refines, rfl⟩

theorem Refines.editAll (refines : memory.Refines contents) (edits : List Edit) :
    (memory.editAll edits).1.Refines (contents.editAll edits).1 ∧
    (memory.editAll edits).2 = (contents.editAll edits).2 := by
  induction edits generalizing memory contents with
  | nil => exact ⟨refines, rfl⟩
  | cons edit edits ih =>
    obtain ⟨edited, error⟩ := refines.edit edit
    obtain ⟨after, errors⟩ := ih edited
    rw [Memory.editAll, Contents.editAll]
    refine ⟨after, ?_⟩
    rw [error, errors]

/-! ### Readers -/

theorem Refines.read (refines : memory.Refines contents) (address : Int) :
    ((memory.read address).toNat : Int) = contents (address % 4096) := by
  rw [Memory.read, refines, Address.val_ofInt]

theorem toNat_readWord (memory : Memory) (address : Int) :
    (memory.readWord address).toNat =
      256 * (memory.read address).toNat + (memory.read (address + 1)).toNat := by
  rw [readWord, Word.toNat_ofBytes, Nat.mul_comm]

theorem getElem?_readBlock (memory : Memory) (address length : Int) (offset : Nat) :
    (memory.readBlock address length)[offset]? =
      if (offset : Int) < length then some (memory.read (address + offset)) else none := by
  rw [readBlock, List.getElem?_map]
  by_cases inside : (offset : Int) < length
  · rw [if_pos inside, List.getElem?_range (by omega)]
    rfl
  · rw [if_neg inside, List.getElem?_eq_none (by rw [List.length_range]; omega)]
    rfl

theorem getElem?_toList (memory : Memory) (place : Nat) :
    memory.toList[place]? = if place < 4096 then some (memory.read place) else none := by
  by_cases bound : place < 4096
  · have inside : place < memory.toList.length := by rwa [length_toList]
    have own : Address.ofInt place = ⟨place, bound⟩ := by
      rw [eq_comm, eq_ofInt_iff]
      change (place : Int) = place % 4096
      omega
    rw [if_pos bound, List.getElem?_eq_getElem inside, getElem_toList _ bound, Memory.read, own]
  · rw [if_neg bound, List.getElem?_eq_none (by rw [length_toList]; omega)]

/-- What readers show: each of them what the map has at the residues that it reads. -/
structure Shows (memory : Memory) (contents : Contents) : Prop where
  read : ∀ address : Int, ((memory.read address).toNat : Int) = contents (address % 4096)
  readWord : ∀ address : Int, (memory.readWord address).toNat =
    256 * (memory.read address).toNat + (memory.read (address + 1)).toNat
  /-- As many bytes as asked for, none for a negative length, each at its own address. -/
  readBlock : ∀ (address length : Int) (offset : Nat), (memory.readBlock address length)[offset]? =
    if (offset : Int) < length then some (memory.read (address + offset)) else none
  toList : ∀ place : Nat, memory.toList[place]? =
    if place < 4096 then some (memory.read place) else none

theorem Refines.shows (refines : memory.Refines contents) : memory.Shows contents where
  read := refines.read
  readWord := memory.toNat_readWord
  readBlock := memory.getElem?_readBlock
  toList := memory.getElem?_toList

/-- Memory after edits is the map after them, to every reader, and each edit fails or not as the map
says. -/
theorem edits_show_in_readers (edits : List Edit) :
    let memory := initial.editAll edits
    let contents := Contents.initial.editAll edits
    memory.2 = contents.2 ∧ memory.1.Shows contents.1 := by
  obtain ⟨after, errors⟩ := refines_initial.editAll edits
  exact ⟨errors, after.shows⟩

end Memory
end ChipEight
