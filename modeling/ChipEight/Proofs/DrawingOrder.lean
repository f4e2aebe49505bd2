import ChipEight.Proofs.SpriteDrawing

/-!
# The order of drawing

Each sprite inverts the cells that it covers, so that in the end only the number of sprites over a
cell counts. Main statement: sprites drawn in another order leave the same screen, and a sprite
drawn twice leaves none of it behind. Whether a sprite collides depends on what was drawn before it.
-/
namespace ChipEight

/-- A sprite with the place where it is drawn. -/
structure PlacedSprite where
  x : Int
  y : Int
  rows : List Int

namespace PlacedSprite

def Covers (sprite : PlacedSprite) (cell : Cell) : Prop :=
  Sprite.Covers sprite.x sprite.y sprite.rows cell

instance (sprite : PlacedSprite) : DecidablePred sprite.Covers := fun cell =>
  inferInstanceAs (Decidable (Sprite.Covers sprite.x sprite.y sprite.rows cell))

/-- How many of some sprites cover a cell. -/
def layers (sprites : List PlacedSprite) (cell : Cell) : Nat :=
  sprites.countP fun sprite => sprite.Covers cell

end PlacedSprite

namespace Screen

open PlacedSprite (layers)

def drawSprite (screen : Screen) (sprite : PlacedSprite) : Screen × Bool :=
  screen.draw sprite.x sprite.y sprite.rows

/-- Draw one sprite after the other. -/
def drawAll (screen : Screen) (sprites : List PlacedSprite) : Screen :=
  sprites.foldl (fun current sprite => (current.drawSprite sprite).1) screen

theorem drawAll_cons (screen : Screen) (sprite : PlacedSprite) (sprites : List PlacedSprite) :
    screen.drawAll (sprite :: sprites) = (screen.drawSprite sprite).1.drawAll sprites :=
  rfl

theorem lit_drawSprite (screen : Screen) (sprite : PlacedSprite) (cell : Cell) :
    (screen.drawSprite sprite).1.lit cell = (screen.lit cell ^^ decide (sprite.Covers cell)) :=
  screen.lit_draw sprite.x sprite.y sprite.rows cell

theorem drawSprite_collides_iff (screen : Screen) (sprite : PlacedSprite) :
    (screen.drawSprite sprite).2 = true ↔
      ∃ cell, sprite.Covers cell ∧ screen.lit cell = true :=
  screen.draw_collides_iff sprite.x sprite.y sprite.rows

theorem lit_drawAll (screen : Screen) (sprites : List PlacedSprite) (cell : Cell) :
    (screen.drawAll sprites).lit cell =
      (screen.lit cell ^^ decide (layers sprites cell % 2 = 1)) := by
  induction sprites generalizing screen with
  | nil => simp [drawAll, layers]
  | cons sprite sprites ih =>
    rw [drawAll_cons, ih, lit_drawSprite, layers, layers, List.countP_cons]
    by_cases covers : sprite.Covers cell
    · -- One layer more turns the parity over.
      rw [decide_eq_true covers, if_pos rfl, Bool.xor_assoc]
      congr 1
      generalize sprites.countP _ = count
      rcases Nat.mod_two_eq_zero_or_one count with even | odd <;> simp [Nat.add_mod, *]
    · rw [decide_eq_false covers, if_neg (by simp), Bool.xor_false, Nat.add_zero]

/-- The flag is up as soon as something was drawn. -/
theorem drawAll_redraw (screen : Screen) (sprites : List PlacedSprite) :
    (screen.drawAll sprites).redraw = (screen.redraw || !sprites.isEmpty) := by
  induction sprites generalizing screen with
  | nil => simp [drawAll]
  | cons sprite sprites ih =>
    rw [drawAll_cons, ih]
    simp [drawSprite, draw]

theorem ext_lit {left right : Screen} (redraw : left.redraw = right.redraw)
    (same : ∀ cell, left.lit cell = right.lit cell) : left = right := by
  obtain ⟨leftCells, _⟩ := left
  obtain ⟨rightCells, _⟩ := right
  have cells : leftCells = rightCells := Vector.ext fun index inside => same ⟨index, inside⟩
  exact congrArg₂ mk cells redraw

theorem drawAll_perm (screen : Screen) {sprites others : List PlacedSprite}
    (reordered : sprites.Perm others) : screen.drawAll others = screen.drawAll sprites := by
  apply ext_lit
  · rw [drawAll_redraw, drawAll_redraw, reordered.isEmpty_eq]
  · intro cell
    rw [lit_drawAll, lit_drawAll, layers, layers, reordered.countP_eq]

/-- What the first drawing inverted, the second inverts back. -/
theorem drawSprite_drawSprite (screen : Screen) (sprite : PlacedSprite) :
    ((screen.drawSprite sprite).1.drawSprite sprite).1.cells = screen.cells := by
  refine Vector.ext fun index inside => ?_
  have twice := lit_drawSprite (screen.drawSprite sprite).1 sprite ⟨index, inside⟩
  rw [lit_drawSprite screen, Bool.xor_assoc, Bool.xor_self, Bool.xor_false] at twice
  exact twice

/-- The second drawing meets lit cells where the first one found dark ones. -/
theorem redrawn_collides_iff (screen : Screen) (sprite : PlacedSprite) :
    ((screen.drawSprite sprite).1.drawSprite sprite).2 = true ↔
      ∃ cell, sprite.Covers cell ∧ screen.lit cell = false := by
  rw [drawSprite_collides_iff]
  refine exists_congr fun cell => and_congr_right fun covers => ?_
  rw [lit_drawSprite, decide_eq_true covers, Bool.xor_true, Bool.not_eq_true']

/-- A cell ends lit if the sprites over it inverted it to that, whatever their order was; a sprite
drawn twice is gone, and collides the second time where it had lit something. -/
theorem drawing_forgets_order (screen : Screen) (sprites : List PlacedSprite) :
    (∀ cell, (screen.drawAll sprites).lit cell =
      (screen.lit cell ^^ decide (layers sprites cell % 2 = 1))) ∧
    (∀ others : List PlacedSprite, sprites.Perm others →
      screen.drawAll others = screen.drawAll sprites) ∧
    ∀ sprite : PlacedSprite,
      let once := screen.drawSprite sprite
      let twice := once.1.drawSprite sprite
      twice.1.cells = screen.cells ∧
      (twice.2 = true ↔ ∃ cell, sprite.Covers cell ∧ screen.lit cell = false) := by
  refine ⟨screen.lit_drawAll sprites, fun others => screen.drawAll_perm, ?_⟩
  intro sprite once twice
  exact ⟨screen.drawSprite_drawSprite sprite, screen.redrawn_collides_iff sprite⟩

/-- A dot in the lower right corner. -/
def dot : PlacedSprite := ⟨63, 31, [0x80]⟩

/-- A bar that ends in the lower right corner. -/
def bar : PlacedSprite := ⟨-1, -2, [0x80, 0x80]⟩

/-- Two dots cancel out, whether the bar is drawn between them or after them. -/
theorem bar_between_dots :
    [dot, dot, bar].Perm [dot, bar, dot] ∧
    blank.drawAll [dot, bar, dot] = blank.drawAll [dot, dot, bar] ∧
    (blank.drawAll [dot, dot, bar]).lit 2047 = true := by
  obtain ⟨parity, reorders, -⟩ := drawing_forgets_order blank [dot, dot, bar]
  have reordered : [dot, dot, bar].Perm [dot, bar, dot] := (List.Perm.swap _ _ _).cons _
  refine ⟨reordered, reorders _ reordered, ?_⟩
  have dark : blank.lit 2047 = false := by simp [blank, lit]
  rw [parity, dark]
  decide

end Screen
end ChipEight
