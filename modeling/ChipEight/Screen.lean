/-!
# The screen

The screen has 64 by 32 cells, numbered row by row from the upper left, and a flag that asks the
host to draw again. A sprite is eight cells wide. Its origin wraps around the edges; its body does
not, so that a cell beyond the right or lower edge is left out.
-/
namespace ChipEight

abbrev Cell := Fin 2048

namespace Cell

def at? (x y : Nat) : Option Cell :=
  if inside : x < 64 ∧ y < 32 then some ⟨y * 64 + x, by omega⟩ else none

def x (cell : Cell) : Nat := cell.val % 64

def y (cell : Cell) : Nat := cell.val / 64

theorem at?_eq_some_iff (x y : Nat) (cell : Cell) :
    at? x y = some cell ↔ x = cell.x ∧ y = cell.y := by
  unfold at? Cell.x Cell.y
  have bound := cell.isLt
  split
  · simp only [Option.some.injEq, Fin.ext_iff]
    omega
  · simp only [reduceCtorEq, false_iff]
    omega

end Cell

namespace Sprite

/-- The high bit of a row's low byte is its leftmost cell; higher bits are not drawn. -/
def bit (row : Int) (column : Nat) : Bool := row / Int.pow 2 (7 - column) % 2 = 1

/-- The cells that a sprite inverts, in drawing order. -/
def cells (x y : Int) (rows : List Int) : List Cell :=
  rows.zipIdx.flatMap fun (row, down) =>
    (List.range 8).filterMap fun across =>
      if bit row across then Cell.at? ((x % 64).toNat + across) ((y % 32).toNat + down) else none

/-- A cell belongs to a sprite when it lies within the eight columns and the rows that start at the
wrapped origin and its bit is set. -/
theorem mem_cells_iff (x y : Int) (rows : List Int) (cell : Cell) :
    cell ∈ cells x y rows ↔
      ∃ across down row, across < 8 ∧ rows[down]? = some row ∧ bit row across = true ∧
        (x % 64).toNat + across = cell.x ∧ (y % 32).toNat + down = cell.y := by
  simp only [cells, List.mem_flatMap, List.mem_filterMap, List.mem_range, Prod.exists,
    List.mem_zipIdx_iff_getElem?, Option.ite_none_right_eq_some, Cell.at?_eq_some_iff]
  constructor
  · rintro ⟨row, down, found, across, inside, set, place⟩
    exact ⟨across, down, row, inside, found, set, place⟩
  · rintro ⟨across, down, row, inside, found, set, place⟩
    exact ⟨row, down, found, across, inside, set, place⟩

end Sprite

/-- Why a cell number names no cell. -/
inductive CellError where
  | outside
  /-- The number does not even fit sixty-four bits. -/
  | unrepresentable
  deriving DecidableEq, Repr

def CellError.message : CellError → String
  | outside => "list index out of range"
  | unrepresentable => "cannot fit 'int' into an index-sized integer"

structure Screen where
  cells : Vector Bool 2048
  redraw : Bool
  deriving DecidableEq

namespace Screen

/-- All cells off, to be drawn again. -/
def blank : Screen := ⟨Vector.replicate 2048 false, true⟩

def lit (screen : Screen) (cell : Cell) : Bool := screen.cells[cell.val]

def toggle (cells : Vector Bool 2048) (cell : Cell) : Vector Bool 2048 :=
  cells.set cell.val (!cells[cell.val])

theorem getElem_toggle (cells : Vector Bool 2048) (cell other : Cell) :
    (toggle cells cell)[other.val] = (cells[other.val] ^^ decide (other = cell)) := by
  unfold toggle
  rw [Vector.getElem_set]
  by_cases same : other = cell
  · subst same
    simp
  · have different : ¬cell.val = other.val := fun equal => same (Fin.ext equal.symm)
    simp [same, different]

/-- Draw a sprite and tell whether it turned off a lit cell. -/
def draw (screen : Screen) (x y : Int) (rows : List Int) : Screen × Bool :=
  let covered := Sprite.cells x y rows
  (⟨covered.foldl toggle screen.cells, true⟩, covered.any screen.lit)

def setRedraw (screen : Screen) (redraw : Bool) : Screen := { screen with redraw }

/-- Cells are numbered row by row; a number from `-2048` to `-1` counts back from the last cell. -/
def pixel (screen : Screen) (x y : Int) : Except CellError Bool :=
  let index := y * 64 + x
  if index < -0x8000000000000000 ∨ 0x8000000000000000 ≤ index then .error .unrepresentable
  else if inside : -2048 ≤ index ∧ index < 2048 then
    .ok (screen.lit ⟨(index % 2048).toNat, by omega⟩)
  else .error .outside

def litCount (screen : Screen) : Nat := screen.cells.toList.count true

end Screen
end ChipEight
