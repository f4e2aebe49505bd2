import Mathlib.Data.Int.Bitwise
import ChipEight.Proofs.MemoryEffects
import ChipEight.Proofs.Unbounded.Drawing

/-!
# Drawing a sprite

A sprite covers a cell when the cell lies in the eight columns and the lines that start at the
wrapped origin and its bit is set. Main statement: drawing inverts the covered cells and no others,
tells whether one of them was lit, and never leaves the cells of the screen; a program draws bytes
of its memory in this way and gets the answer in its flag register.
-/
namespace ChipEight

namespace Sprite

/-- Columns and lines are counted from the origin, bits from the right. -/
def Covers (x y : Int) (rows : List Int) (cell : Cell) : Prop :=
  ∃ (column line : Nat) (row : Int), (cell.x : Int) - x % 64 = column ∧ column < 8 ∧
    (cell.y : Int) - y % 32 = line ∧ rows[line]? = some row ∧ row.testBit (7 - column) = true

theorem bit_eq_testBit (row : Int) (column : Nat) : bit row column = row.testBit (7 - column) := by
  unfold bit
  generalize 7 - column = place
  have power : Int.pow 2 place = ((2 ^ place : Nat) : Int) := by
    rw [Nat.cast_pow]
    rfl
  rw [power]
  cases row with
  | ofNat number =>
    change decide ((number : Int) / _ % 2 = 1) = number.testBit place
    rw [Nat.testBit_eq_decide_div_mod_eq]
    exact decide_eq_decide.mpr (by omega)
  | negSucc number =>
    -- The bits of a negative number are those of its complement, turned over.
    have quotient : Int.negSucc number / ((2 ^ place : Nat) : Int) =
        -(((number / 2 ^ place : Nat) : Int) + 1) :=
      Int.negSucc_ediv number (Int.natCast_pos.mpr (Nat.two_pow_pos place))
    change _ = !number.testBit place
    rw [quotient, Nat.testBit_eq_decide_div_mod_eq, ← decide_not]
    exact decide_eq_decide.mpr (by omega)

theorem covers_iff_mem (x y : Int) (rows : List Int) (cell : Cell) :
    Covers x y rows cell ↔ cell ∈ cells x y rows := by
  have left : ((x % 64).toNat : Int) = x % 64 := Int.toNat_of_nonneg (by omega)
  have upper : ((y % 32).toNat : Int) = y % 32 := Int.toNat_of_nonneg (by omega)
  -- The origin is wrapped once; from there on both sides count in natural numbers.
  rw [mem_cells_iff]
  simp only [bit_eq_testBit]
  constructor
  · rintro ⟨column, line, row, across, inside, down, found, set⟩
    exact ⟨column, line, row, inside, found, set, by omega, by omega⟩
  · rintro ⟨column, line, row, inside, found, set, across, down⟩
    exact ⟨column, line, row, by omega, inside, by omega, found, set⟩

instance (x y : Int) (rows : List Int) : DecidablePred (Covers x y rows) := fun cell =>
  decidable_of_iff _ (covers_iff_mem x y rows cell).symm

/-- All cells that a sprite covers, row by row. -/
def covered (x y : Int) (rows : List Int) : List Cell :=
  (List.finRange 2048).filter (Covers x y rows)

end Sprite

namespace Screen

variable (screen : Screen) (x y : Int) (rows : List Int)

theorem lit_eq_get : screen.lit = screen.cells.get := rfl

/-- Inverting cells that are all different inverts each of them once. -/
theorem get_foldl_toggle {covered : List Cell} (distinct : covered.Nodup)
    (cells : Vector Bool 2048) (cell : Cell) :
    (covered.foldl toggle cells).get cell = (cells.get cell ^^ decide (cell ∈ covered)) := by
  induction covered generalizing cells with
  | nil => simp
  | cons first covered ih =>
    obtain ⟨alone, distinct⟩ := List.nodup_cons.mp distinct
    have inverted : (toggle cells first).get cell = (cells.get cell ^^ decide (cell = first)) :=
      getElem_toggle cells first cell
    rw [List.foldl_cons, ih distinct, inverted]
    -- The first cell is not inverted a second time, since it is not among the others.
    by_cases same : cell = first
    · simp [same, alone]
    · simp [same]

theorem lit_draw (cell : Cell) :
    (screen.draw x y rows).1.lit cell =
      (screen.lit cell ^^ decide (Sprite.Covers x y rows cell)) := by
  have inverted := get_foldl_toggle (Sprite.nodup_cells x y rows) screen.cells cell
  simp only [← Sprite.covers_iff_mem] at inverted
  exact inverted

theorem draw_collides_iff :
    (screen.draw x y rows).2 = true ↔
      ∃ cell, Sprite.Covers x y rows cell ∧ screen.lit cell = true := by
  change (Sprite.cells x y rows).any screen.lit = true ↔ _
  simp only [List.any_eq_true, Sprite.covers_iff_mem]

theorem litCount_eq_countP : screen.litCount = (List.finRange 2048).countP screen.lit := by
  have listed : screen.cells.toList = (List.finRange 2048).map screen.cells.get := by
    apply List.ext_getElem
    · simp
    · intro index _ _
      rw [Vector.getElem_toList, List.getElem_map, List.getElem_finRange]
      rfl
  rw [litCount, listed, List.count_eq_countP, List.countP_map]
  refine List.countP_congr fun cell _ => ?_
  simp [lit_eq_get]

/-- Each inverted cell counts once more or once less. -/
theorem countP_xor (before inverted : Cell → Bool) (among : List Cell) :
    among.countP (fun cell => before cell ^^ inverted cell) +
        2 * (among.filter inverted).countP before =
      among.countP before + (among.filter inverted).length := by
  induction among with
  | nil => rfl
  | cons cell among ih =>
    cases lit : before cell <;> cases inside : inverted cell <;>
      simp [lit, inside] <;> omega

theorem litCount_draw :
    ((screen.draw x y rows).1.litCount : Int) =
      screen.litCount + (Sprite.covered x y rows).length -
        2 * ((Sprite.covered x y rows).filter screen.lit).length := by
  have counted := countP_xor screen.lit (fun cell => decide (Sprite.Covers x y rows cell))
    (List.finRange 2048)
  have drawn : (screen.draw x y rows).1.litCount =
      (List.finRange 2048).countP
        (fun cell => screen.lit cell ^^ decide (Sprite.Covers x y rows cell)) := by
    rw [litCount_eq_countP]
    exact List.countP_congr fun cell _ => by rw [lit_draw]
  rw [drawn, litCount_eq_countP, ← List.countP_eq_length_filter]
  rw [Sprite.covered]
  omega

/-- The loops over rows and columns find every cell that they ask for. -/
theorem drawRows_draw :
    Unbounded.drawRows (x % 64) (y % 32) rows (screen.cells.toList.map Unbounded.ofCell, false) =
      .ok ((screen.draw x y rows).1.cells.toList.map Unbounded.ofCell,
        (screen.draw x y rows).2) := by
  have left : x % 64 = ((x % 64).toNat : Nat) := (Int.toNat_of_nonneg (by omega)).symm
  have upper : y % 32 = ((y % 32).toNat : Nat) := (Int.toNat_of_nonneg (by omega)).symm
  rw [left, upper]
  refine (Unbounded.drawRows_viewSurface _ _ rows (screen.cells, false)).trans ?_
  rw [← Sprite.cells_eq_blockCells, Sprite.foldl_paint (Sprite.nodup_cells x y rows), Bool.false_or]
  rfl

end Screen

theorem Memory.readBlock_natCast (memory : Memory) (start count : Nat) :
    memory.readBlock start count =
      (List.range count).map fun offset => memory.get (.ofNat (start + offset)) := by
  rw [readBlock, Int.toNat_natCast]
  refine List.map_congr_left fun offset _ => ?_
  rw [read, ← Int.natCast_add, Address.ofInt_natCast]

namespace Machine

/-- The rows that a draw at the program counter takes from memory, from the index register on. -/
def spriteRows (machine : Machine) : List Int :=
  (List.range machine.word.n.val).map fun offset =>
    ((machine.memory.get (.ofNat (machine.cpu.index.toNat + offset))).toNat : Int)

/-- The screen that a draw at the program counter leads to, and whether it collides. -/
def spriteDrawn (machine : Machine) : Screen × Bool :=
  machine.screen.draw (machine.cpu.get machine.word.x).toNat (machine.cpu.get machine.word.y).toNat
    machine.spriteRows

theorem step_draw {machine : Machine} (draws : machine.upcoming = .draw) :
    machine.step.fault = none ∧ machine.step.machine.screen = machine.spriteDrawn.1 ∧
      machine.step.machine.cpu = machine.fetch.cpu.setFlag machine.spriteDrawn.2 := by
  have rows : (machine.memory.readBlock machine.cpu.index.toNat machine.word.n.val).map
      (fun byte => (byte.toNat : Int)) = machine.spriteRows := by
    rw [Memory.readBlock_natCast, List.map_map]
    rfl
  cases outcome : machine.upcoming.execute machine.word machine.fetch with
  | error fault =>
    rw [draws] at outcome
    cases outcome
  | ok next =>
    obtain ⟨stepped, unfaulted⟩ := step_of_ok outcome
    rw [draws] at outcome
    -- Origin and rows come from the fetched machine, whose registers and memory are the old ones.
    simp only [Operation.execute, Except.ok.injEq] at outcome
    rw [stepped, ← outcome, spriteDrawn, ← rows]
    exact ⟨unfaulted, rfl, rfl⟩

end Machine

/-- Drawing inverts the cells that the sprite covers, tells whether one of them was lit, and finds
each cell that it asks for. The instruction draws bytes of memory at the point that two registers
name, and only then writes the flag register. -/
theorem drawing_inverts_covered_cells (screen : Screen) (x y : Int) (rows : List Int)
    (machine : Machine) :
    let drawn := screen.draw x y rows
    (∀ cell, drawn.1.lit cell = (screen.lit cell ^^ decide (Sprite.Covers x y rows cell))) ∧
    (drawn.2 = true ↔ ∃ cell, Sprite.Covers x y rows cell ∧ screen.lit cell = true) ∧
    (drawn.1.litCount : Int) =
      screen.litCount + (Sprite.covered x y rows).length -
        2 * ((Sprite.covered x y rows).filter screen.lit).length ∧
    drawn.1.redraw = true ∧
    Unbounded.drawRows (x % 64) (y % 32) rows
        (screen.cells.toList.map Unbounded.ofCell, false) =
      .ok (drawn.1.cells.toList.map Unbounded.ofCell, drawn.2) ∧
    (machine.word.family.val = 0xD →
      machine.step.fault = none ∧ machine.step.machine.screen = machine.spriteDrawn.1 ∧
      ∀ register, machine.step.machine.cpu.get register =
        if register = .flag then (if machine.spriteDrawn.2 then 1 else 0)
        else machine.cpu.get register) := by
  intro drawn
  refine ⟨screen.lit_draw x y rows, screen.draw_collides_iff x y rows,
    screen.litCount_draw x y rows, rfl, screen.drawRows_draw x y rows, ?_⟩
  intro family
  obtain ⟨unfaulted, painted, cpu⟩ := Machine.step_draw (machine.upcoming_eq_draw_iff.mpr family)
  refine ⟨unfaulted, painted, ?_⟩
  intro register
  rw [cpu, Processor.setFlag, Processor.get_set]
  rfl

/-- The glyph of zero at the lower right corner: two columns of two rows are inside. The registers
that name the corner are the flag register itself. -/
theorem zero_in_the_corner :
    let machine := Machine.beside 0x50 62 #[0xDF, 0xF5]
    machine.step.machine.cpu.get .flag = 0 ∧
    machine.step.machine.screen.lit 1983 = true ∧
    machine.step.machine.screen.lit 2047 = false ∧
    machine.step.machine.screen.lit 0 = false := by
  intro machine
  let rows : List Int := [0xF0, 0x90, 0x90, 0x90, 0xF0]
  have word : machine.word = 0xDFF5 := by
    rw [Machine.word_beside, Machine.word_holding (by decide) (by decide)]
    decide
  obtain ⟨inverts, collides, -, -, -, draws⟩ :=
    drawing_inverts_covered_cells .blank 62 62 rows machine
  obtain ⟨-, painted, flagged⟩ := draws (by rw [word]; decide)
  have glyph (address : Address) (font : Font.Occupies address.val) :
      machine.memory.get address = Font.byteAt address.val font :=
    Memory.fontInPlace_initial.overlay _ address font
  have read : machine.spriteRows = rows := by
    rw [Machine.spriteRows, word]
    change [((machine.memory.get 0x50).toNat : Int), ((machine.memory.get 0x51).toNat : Int),
      ((machine.memory.get 0x52).toNat : Int), ((machine.memory.get 0x53).toNat : Int),
      ((machine.memory.get 0x54).toNat : Int)] = rows
    rw [glyph 0x50 (by decide), glyph 0x51 (by decide), glyph 0x52 (by decide),
      glyph 0x53 (by decide), glyph 0x54 (by decide)]
    rfl
  have drawn : machine.spriteDrawn = Screen.blank.draw 62 62 rows := by
    rw [Machine.spriteDrawn, read, word]
    rfl
  have dark (cell : Cell) : Screen.blank.lit cell = false := by simp [Screen.blank, Screen.lit]
  have clear : (Screen.blank.draw 62 62 rows).2 = false := by
    rw [← Bool.not_eq_true, collides]
    simp [dark]
  rw [painted, drawn, flagged, if_pos rfl, drawn, clear]
  refine ⟨rfl, ?_, ?_, ?_⟩
  · rw [inverts, dark]
    decide
  · rw [inverts, dark]
    decide
  · rw [inverts, dark]
    decide

end ChipEight
