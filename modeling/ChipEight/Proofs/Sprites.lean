import Mathlib.Data.List.Nodup
import ChipEight.Screen

/-!
# Sprites

A sprite covers no cell twice. Its cells can therefore be inverted one after the other, and a cell
that is met lit was lit before the sprite was drawn.
-/
namespace ChipEight.Sprite

/-- The cells that some columns of one row invert. -/
def rowCells (x y : Nat) (row : Int) (columns : List Nat) : List Cell :=
  columns.filterMap fun across => if bit row across then Cell.at? (x + across) y else none

theorem mem_rowCells_iff (x y : Nat) (row : Int) (columns : List Nat) (cell : Cell) :
    cell ∈ rowCells x y row columns ↔
      ∃ across ∈ columns, bit row across = true ∧ x + across = cell.x ∧ y = cell.y := by
  simp only [rowCells, List.mem_filterMap, Option.ite_none_right_eq_some, Cell.at?_eq_some_iff]

/-- The cells that rows from line `y` on invert. -/
def blockCells (x y : Nat) (rows : List Int) : List Cell :=
  (rows.zipIdx y).flatMap fun (row, line) => rowCells x line row (List.range 8)

theorem blockCells_cons (x y : Nat) (row : Int) (rows : List Int) :
    blockCells x y (row :: rows) =
      rowCells x y row (List.range 8) ++ blockCells x (y + 1) rows := by
  rw [blockCells, List.zipIdx_cons, List.flatMap_cons]
  rfl

theorem cells_eq_blockCells (x y : Int) (rows : List Int) :
    cells x y rows = blockCells (x % 64).toNat (y % 32).toNat rows := by
  rw [blockCells, List.zipIdx_eq_map_add, List.flatMap_map]
  rfl

theorem nodup_rowCells (x y : Nat) (row : Int) (columns : List Nat) (distinct : columns.Nodup) :
    (rowCells x y row columns).Nodup := by
  refine distinct.filterMap ?_
  intro left right cell fromLeft fromRight
  simp only [Option.mem_def, Option.ite_none_right_eq_some, Cell.at?_eq_some_iff]
    at fromLeft fromRight
  omega

theorem le_of_mem_blockCells {x y : Nat} {rows : List Int} {cell : Cell}
    (member : cell ∈ blockCells x y rows) : y ≤ cell.y := by
  simp only [blockCells, List.mem_flatMap, Prod.exists] at member
  obtain ⟨row, line, numbered, covered⟩ := member
  obtain ⟨_, _, _, _, same⟩ := (mem_rowCells_iff ..).mp covered
  have below := List.le_snd_of_mem_zipIdx numbered
  omega

theorem nodup_blockCells (x y : Nat) (rows : List Int) : (blockCells x y rows).Nodup := by
  induction rows generalizing y with
  | nil => exact List.nodup_nil
  | cons row rows ih =>
    rw [blockCells_cons, List.nodup_append']
    refine ⟨nodup_rowCells x y row _ List.nodup_range, ih (y + 1), ?_⟩
    -- Rows further down do not reach back into this line.
    intro cell here further
    obtain ⟨_, _, _, _, same⟩ := (mem_rowCells_iff ..).mp here
    have below := le_of_mem_blockCells further
    omega

theorem nodup_cells (x y : Int) (rows : List Int) : (cells x y rows).Nodup := by
  rw [cells_eq_blockCells]
  exact nodup_blockCells _ _ _

/-- Invert one cell and remember whether it was lit. -/
def paint (surface : Vector Bool 2048 × Bool) (cell : Cell) : Vector Bool 2048 × Bool :=
  (Screen.toggle surface.1 cell, surface.2 || surface.1.get cell)

theorem foldl_paint {covered : List Cell} (distinct : covered.Nodup)
    (cells : Vector Bool 2048) (collided : Bool) :
    covered.foldl paint (cells, collided) =
      (covered.foldl Screen.toggle cells, collided || covered.any cells.get) := by
  induction covered generalizing cells collided with
  | nil => simp
  | cons cell covered ih =>
    obtain ⟨alone, distinct⟩ := List.nodup_cons.mp distinct
    -- The cell just inverted does not come again, so the others look as they did before.
    have unpainted : covered.any (Screen.toggle cells cell).get = covered.any cells.get := by
      rw [Bool.eq_iff_iff, List.any_eq_true, List.any_eq_true]
      refine exists_congr fun other => and_congr_right ?_
      intro member
      have apart : other ≠ cell := fun same => alone (same ▸ member)
      have kept := Screen.getElem_toggle cells cell other
      rw [decide_eq_false apart, Bool.xor_false] at kept
      have same : (Screen.toggle cells cell).get other = cells.get other := kept
      rw [same]
    rw [List.foldl_cons, List.foldl_cons, paint, ih distinct, unpainted, List.any_cons,
      Bool.or_assoc]

end ChipEight.Sprite
