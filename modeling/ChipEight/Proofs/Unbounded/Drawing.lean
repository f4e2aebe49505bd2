import ChipEight.Proofs.Sprites
import ChipEight.Proofs.Unbounded.View

/-!
# Drawing on a view

The loops over rows and columns leave at the edges and so meet every cell that a sprite covers, in
order, and no other number.
-/
namespace ChipEight.Unbounded

/-- Cells in the course of drawing, with the collision that was found so far. -/
def viewSurface (surface : Vector Bool 2048 × Bool) : List Int × Bool :=
  (surface.1.toList.map ofCell, surface.2)

theorem ofCell_not (on : Bool) : ofCell (!on) = Int.xor (ofCell on) lit := by
  cases on <;> rfl

theorem ofCell_beq_lit (on : Bool) : (ofCell on == lit) = on := by
  cases on <;> rfl

theorem entry_ofCell (cells : Vector Bool 2048) (cell : Cell) :
    entry (cells.toList.map ofCell) cell.val = .ok (ofCell (cells.get cell)) :=
  entry_shown cells ofCell cell.val cell.isLt

theorem ofCell_toggle (cells : Vector Bool 2048) (cell : Cell) :
    replace (cells.toList.map ofCell) cell.val (Int.xor (ofCell (cells.get cell)) lit) =
      .ok ((Screen.toggle cells cell).toList.map ofCell) := by
  rw [← ofCell_not]
  exact replace_shown cells ofCell cell.val cell.isLt _

theorem rowCells_of_beyond {x y : Nat} {row : Int} {columns : List Nat}
    (beyond : ∀ column ∈ columns, 64 ≤ x + column) : Sprite.rowCells x y row columns = [] := by
  rw [List.eq_nil_iff_forall_not_mem]
  intro cell member
  obtain ⟨column, named, _, place, _⟩ := (Sprite.mem_rowCells_iff ..).mp member
  have reached := beyond column named
  have bound : cell.x < 64 := Nat.mod_lt _ (by decide)
  omega

theorem drawColumns_viewSurface (pixels : Int) (x y : Nat) (inside : y < 32) {columns : List Nat}
    (rising : columns.Pairwise (· < ·)) (surface : Vector Bool 2048 × Bool) :
    drawColumns pixels x (y * 64) columns (viewSurface surface) =
      .ok (viewSurface ((Sprite.rowCells x y pixels columns).foldl Sprite.paint surface)) := by
  induction columns generalizing surface with
  | nil => rfl
  | cons column columns ih =>
    obtain ⟨first, rising⟩ := List.pairwise_cons.mp rising
    obtain ⟨cells, collided⟩ := surface
    rw [viewSurface, drawColumns]
    -- Columns rise, so that the first one beyond the edge leaves only others beyond it.
    by_cases beyond : 64 ≤ x + column
    · have past : ∀ other ∈ column :: columns, 64 ≤ x + other := by
        intro other member
        rcases List.mem_cons.mp member with rfl | later
        · exact beyond
        · have after := first other later
          omega
      rw [if_pos (by omega), rowCells_of_beyond past]
      rfl
    · -- Within the edges the number is a cell's own, and it may be read and written.
      obtain ⟨cell, cell_val⟩ : ∃ cell : Cell, cell.val = y * 64 + (x + column) :=
        ⟨⟨y * 64 + (x + column), by omega⟩, rfl⟩
      have place : Cell.at? (x + column) y = some cell := by
        rw [Cell.at?, dif_pos ⟨by omega, inside⟩, Option.some_inj]
        exact Fin.ext cell_val.symm
      rw [if_neg (by omega), Sprite.rowCells, List.filterMap_cons, place]
      by_cases unset : pixels / Int.pow 2 (7 - column) % 2 = 0
      · have dark : Sprite.bit pixels column = false := decide_eq_false (by omega)
        rw [if_pos unset, dark]
        exact ih rising (cells, collided)
      · have bright : Sprite.bit pixels column = true := decide_eq_true (by omega)
        have number : (y : Int) * 64 + (x + column) = (cell.val : Nat) := by omega
        rw [if_neg unset, bright, number, entry_ofCell, ok_bind, ofCell_toggle, ok_bind,
          ofCell_beq_lit]
        exact ih rising (Sprite.paint (cells, collided) cell)

theorem blockCells_of_below {x y : Nat} (below : 32 ≤ y) (rows : List Int) :
    Sprite.blockCells x y rows = [] := by
  rw [List.eq_nil_iff_forall_not_mem]
  intro cell member
  have reached := Sprite.le_of_mem_blockCells member
  have bound : cell.y < 32 := Nat.div_lt_of_lt_mul cell.isLt
  omega

theorem drawRows_viewSurface (x y : Nat) (rows : List Int) (surface : Vector Bool 2048 × Bool) :
    drawRows x y rows (viewSurface surface) =
      .ok (viewSurface ((Sprite.blockCells x y rows).foldl Sprite.paint surface)) := by
  induction rows generalizing y surface with
  | nil => rfl
  | cons pixels rows ih =>
    rw [drawRows]
    by_cases below : 32 ≤ y
    · rw [if_pos (by omega), blockCells_of_below below]
      rfl
    · have columns := drawColumns_viewSurface pixels x y (by omega)
        (List.pairwise_lt_range (n := 8)) surface
      rw [if_neg (by omega), columns, ok_bind, Sprite.blockCells_cons, List.foldl_append]
      exact ih (y + 1) _

theorem drawRows_view (machine : Machine) (left upper : UInt8) (rows : List UInt8) :
    drawRows (ofByte left % 64) (ofByte upper % 32) (rows.map ofByte)
        ((view machine).screen, false) =
      .ok (viewSurface
        ((machine.screen.draw left.toNat upper.toNat (rows.map (·.toNat))).1.cells,
          (machine.screen.draw left.toNat upper.toNat (rows.map (·.toNat))).2)) := by
  have column : ofByte left % 64 = (((left.toNat : Int) % 64).toNat : Nat) := by
    simp only [ofByte]
    omega
  have line : ofByte upper % 32 = (((upper.toNat : Int) % 32).toNat : Nat) := by
    simp only [ofByte]
    omega
  -- The origin wraps once, before the loops; within them nothing wraps.
  rw [column, line]
  refine (drawRows_viewSurface _ _ _ (machine.screen.cells, false)).trans ?_
  rw [← Sprite.cells_eq_blockCells, Sprite.foldl_paint (Sprite.nodup_cells _ _ _), Bool.false_or]
  rfl

end ChipEight.Unbounded
