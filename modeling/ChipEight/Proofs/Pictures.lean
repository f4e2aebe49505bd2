import ChipEight.Proofs.DrawingOrder
import ChipEight.Proofs.ImageLibraries

/-!
# What a picture shows

A cell is packed as four equal bytes, and a picture makes a square block of pixels of it. Main
statement: after any drawings and clearings each pixel has the colour of the cell that it lies in,
at every scale and with every library of images, so that the cells can be read back from the
picture. Where cells are kept as numbers without a limit, they are zero or all ones throughout, and
their bytes are the packed ones.
-/
namespace ChipEight

/-! ### Lists in blocks -/

section Blocks
variable {α β : Type}

/-- In a row of blocks of one size, a quotient finds the block and a remainder the entry. -/
theorem getElem?_flatMap_blocks {block : α → List β} {size : Nat}
    (sized : ∀ item, (block item).length = size) (items : List α) (index : Nat) {offset : Nat}
    (inside : offset < size) :
    (items.flatMap block)[size * index + offset]? =
      items[index]?.bind fun item => (block item)[offset]? := by
  induction items generalizing index with
  | nil => simp
  | cons item items ih =>
    rw [List.flatMap_cons]
    cases index with
    | zero =>
      rw [List.getElem?_append_left (by simp [sized, inside])]
      simp
    | succ index =>
      -- The first block is passed over.
      have later : size * (index + 1) + offset = (block item).length + (size * index + offset) := by
        rw [sized, Nat.mul_succ]
        omega
      rw [later, List.getElem?_append_right (by omega), Nat.add_sub_cancel_left, ih,
        List.getElem?_cons_succ]

theorem length_flatMap_blocks {block : α → List β} {size : Nat}
    (sized : ∀ item, (block item).length = size) (items : List α) :
    (items.flatMap block).length = size * items.length := by
  simp [List.length_flatMap, sized, Nat.mul_comm]

theorem getElem?_flatMap_replicate {size : Nat} (positive : 0 < size) (items : List α)
    (index : Nat) : (items.flatMap (List.replicate size))[index]? = items[index / size]? := by
  have inside := Nat.mod_lt index positive
  have sized (item : α) : (List.replicate size item).length = size := List.length_replicate
  have found := getElem?_flatMap_blocks sized items (index / size) inside
  rw [Nat.div_add_mod] at found
  simp [found, inside]

theorem count_flatMap_replicate [BEq α] [LawfulBEq α] (value : α) (size : Nat) (items : List α) :
    (items.flatMap (List.replicate size)).count value = size * items.count value := by
  induction items with
  | nil => simp
  | cons item items ih =>
    rw [List.flatMap_cons, List.count_append, ih, List.count_cons, List.count_replicate,
      Nat.mul_add]
    split <;> omega

/-- Numbers up to a multiple, by the block that they lie in. -/
theorem map_range_div (f : Nat → β) (blocks : Nat) {size : Nat} (positive : 0 < size) :
    (List.range (blocks * size)).map (fun index => f (index / size)) =
      ((List.range blocks).map f).flatMap (List.replicate size) := by
  apply List.ext_getElem?
  intro index
  rw [getElem?_flatMap_replicate positive, List.getElem?_map, List.getElem?_map]
  by_cases inside : index < blocks * size
  · have block : index / size < blocks := (Nat.div_lt_iff_lt_mul positive).mpr inside
    simp [inside, block]
  · have block : ¬index / size < blocks := by rwa [Nat.div_lt_iff_lt_mul positive]
    simp [inside, block]

theorem count_flatten_flatMap_replicate [BEq α] [LawfulBEq α] (value : α) (size : Nat)
    (rows : List (List α)) :
    (rows.flatMap (List.replicate size)).flatten.count value = size * rows.flatten.count value := by
  induction rows with
  | nil => simp
  | cons row rows ih =>
    rw [List.flatMap_cons, List.flatten_append, List.count_append, ih, List.flatten_cons,
      List.count_append, Nat.mul_add]
    simp [List.count_flatten]

/-- Rows of one width are the list that they were cut from. -/
theorem flatMap_rows (items : List α) {width height : Nat}
    (enough : items.length = width * height) :
    ((List.range height).flatMap fun y => (List.range width).map fun x => items[width * y + x]?) =
      items.map some := by
  rcases Nat.eq_zero_or_pos width with rfl | positive
  · obtain rfl : items = [] := List.eq_nil_of_length_eq_zero (by rw [enough, Nat.zero_mul])
    simp
  apply List.ext_getElem?
  intro index
  have sized (y : Nat) :
      ((List.range width).map fun x => items[width * y + x]?).length = width := by
    simp
  have column := Nat.mod_lt index positive
  have found := getElem?_flatMap_blocks sized (List.range height) (index / width) column
  rw [Nat.div_add_mod] at found
  rw [found, List.getElem?_map]
  by_cases inside : index < items.length
  · have row : index / width < height := Nat.div_lt_of_lt_mul (enough ▸ inside)
    simp [row, column, inside, Nat.div_add_mod]
  · have row : ¬index / width < height := by
      rw [Nat.div_lt_iff_lt_mul positive, Nat.mul_comm, ← enough]
      exact inside
    simp [row, inside]

/-- Where the entries of a grid are spread over squares, each value is there as often as the squares
say. -/
theorem count_squares [BEq α] [LawfulBEq α] (items : List α) {width height size : Nat}
    (positive : 0 < size) (enough : items.length = width * height) (value : α) :
    ((List.range (height * size)).flatMap fun y => (List.range (width * size)).map fun x =>
      items[width * (y / size) + x / size]?).count (some value) =
        size * size * items.count value := by
  let row (y : Nat) : List (Option α) := (List.range width).map fun x => items[width * y + x]?
  let wide (y : Nat) : List (Option α) := (row y).flatMap (List.replicate size)
  have across (y : Nat) : (List.range (width * size)).map (fun x => items[width * y + x / size]?) =
      wide y :=
    map_range_div (fun x => items[width * y + x]?) width positive
  have down : (List.range (height * size)).map (fun y => wide (y / size)) =
      ((List.range height).map wide).flatMap (List.replicate size) :=
    map_range_div wide height positive
  have injective : Function.Injective (some : α → Option α) := Option.some_injective α
  calc ((List.range (height * size)).flatMap fun y => (List.range (width * size)).map fun x =>
          items[width * (y / size) + x / size]?).count (some value)
      = ((List.range (height * size)).map fun y => wide (y / size)).flatten.count (some value) := by
        simp only [across, List.flatMap_def]
    _ = size * ((List.range height).flatMap wide).count (some value) := by
        rw [down, count_flatten_flatMap_replicate, List.flatMap_def]
    _ = size * (size * ((List.range height).flatMap row).count (some value)) := by
        rw [← List.flatMap_assoc, count_flatMap_replicate]
    _ = size * (size * items.count value) := by
        rw [flatMap_rows items enough, List.count_map_of_injective _ _ injective]
    _ = size * size * items.count value := by rw [Nat.mul_assoc]

end Blocks

/-! ### Reading images -/

namespace ImageLibrary

variable (library : ImageLibrary)

/-- The number of pixels of one colour. -/
def countOf (image : library.Image) (colour : Pixel) : Nat :=
  ((List.range (library.height image)).flatMap fun y =>
    (List.range (library.width image)).map fun x => library.pixel? image x y).count (some colour)

/-- The cells that a picture shows, each read at the upper left corner of its block. -/
def readCells (image : library.Image) : Vector Bool 2048 :=
  Vector.ofFn fun cell : Cell =>
    library.pixel? image (cell.x * (library.width image / 64))
      (cell.y * (library.height image / 32)) = some .white

end ImageLibrary

/-! ### Pictures of a screen -/

namespace Screen

/-- The colour of a cell on an opaque picture. -/
def shade (lit : Bool) : Pixel := if lit then .white else .black

/-- Each cell is a block of `size` by `size` pixels in its colour, and there is nothing else. -/
structure ShownBy (screen : Screen) (library : ImageLibrary) (size : Nat) (image : library.Image) :
    Prop where
  sized : library.HasSize image (64 * size) (32 * size)
  pixel : ∀ x y, x < 64 * size → y < 32 * size → ∃ cell,
    Cell.at? (x / size) (y / size) = some cell ∧
      library.pixel? image x y = some (shade (screen.lit cell))

variable (screen : Screen)

theorem getElem?_cells (cell : Cell) :
    screen.cells.toList[64 * cell.y + cell.x]? = some (screen.lit cell) := by
  have number : 64 * cell.y + cell.x = cell.val := Nat.div_add_mod cell.val 64
  simp [number, lit]

theorem length_cellBytes (lit : Bool) :
    (List.replicate 4 (if lit then (0xFF : UInt8) else 0)).length = 4 :=
  List.length_replicate

theorem length_toRgba : screen.toRgba.length = 8192 := by
  rw [toRgba, length_flatMap_blocks length_cellBytes, Vector.length_toList]

theorem getElem?_toRgba (cell : Cell) {part : Nat} (inside : part < 4) :
    screen.toRgba[4 * (64 * cell.y + cell.x) + part]? =
      some (if screen.lit cell then 0xFF else 0) := by
  rw [toRgba, getElem?_flatMap_blocks length_cellBytes _ _ inside, screen.getElem?_cells cell,
    Option.bind_some, List.getElem?_replicate, if_pos inside]

/-- The four bytes of a cell as a pixel. -/
def packed (lit : Bool) : Pixel := if lit then .white else .transparent

theorem getElem?_toRgba_packed (cell : Cell) {part : Nat} (inside : part < 4) :
    screen.toRgba[4 * (64 * cell.y + cell.x) + part]? =
      (packed (screen.lit cell)).toList[part]? := by
  rw [screen.getElem?_toRgba cell inside]
  obtain rfl | rfl | rfl | rfl : part = 0 ∨ part = 1 ∨ part = 2 ∨ part = 3 := by omega
  all_goals cases screen.lit cell <;> rfl

/-- A place on the surface belongs to a cell. -/
theorem exists_cell {x y : Nat} (across : x < 64) (down : y < 32) :
    ∃ cell : Cell, Cell.at? x y = some cell ∧ cell.x = x ∧ cell.y = y := by
  obtain ⟨cell, place⟩ : ∃ cell, Cell.at? x y = some cell := by
    rw [Cell.at?, dif_pos ⟨across, down⟩]
    exact ⟨_, rfl⟩
  obtain ⟨left, upper⟩ := (Cell.at?_eq_some_iff _ _ cell).mp place
  exact ⟨cell, place, left.symm, upper.symm⟩

variable {library : ImageLibrary}

/-- What is laid together is the picture of scale one, and is enlarged for the scales above. -/
theorem exists_composed (makes : library.Makes 64 32) (screen : Screen) :
    ∃ composed, screen.ShownBy library 1 composed ∧
      ∀ scale : Int, screen.toImage library scale =
        if scale > 1 then library.resize composed (64 * scale) (32 * scale) else .ok composed := by
  obtain ⟨cells, made, cells_sized, cells_pixel⟩ := makes.fromBytes _ screen.length_toRgba
  obtain ⟨backdrop, filled, backdrop_sized, backdrop_pixel⟩ := makes.filled .black
  obtain ⟨composed, laid, sized, pixel⟩ := makes.layUnder _ _ backdrop_sized cells_sized
  refine ⟨composed, ⟨sized, ?_⟩, ?_⟩
  · intro x y across down
    rw [Nat.div_one, Nat.div_one]
    obtain ⟨cell, place, rfl, rfl⟩ := exists_cell across down
    have here : library.pixel? cells cell.x cell.y = some (packed (screen.lit cell)) :=
      cells_pixel _ _ _ across down fun part inside => screen.getElem?_toRgba_packed cell inside
    obtain ⟨hides, shows⟩ := pixel _ _ _ across down here
    refine ⟨cell, place, ?_⟩
    -- A lit cell hides the backdrop, and any other shows its black.
    cases lit : screen.lit cell with
    | true =>
      rw [lit] at hides
      exact hides rfl
    | false =>
      rw [lit] at shows
      rw [shows rfl]
      exact backdrop_pixel _ _ across down
  · intro scale
    rw [toImage, made, filled]
    change (library.layUnder backdrop cells >>= _) = _
    rw [laid]
    rfl

/-- The size of a cell on a picture. -/
def blockSize (scale : Int) : Nat := (max scale 1).toNat

theorem blockSize_pos (scale : Int) : 0 < blockSize scale := by
  unfold blockSize
  omega

theorem exists_toImage (makes : library.Makes 64 32) (screen : Screen) {scale : Int}
    (enlarges : 1 < scale → library.Enlarges 64 32 scale.toNat) :
    ∃ picture, screen.toImage library scale = .ok picture ∧
      screen.ShownBy library (blockSize scale) picture := by
  obtain ⟨composed, shown, made⟩ := exists_composed makes screen
  by_cases larger : scale > 1
  · have size : blockSize scale = scale.toNat := by
      unfold blockSize
      omega
    have positive := blockSize_pos scale
    obtain ⟨picture, resized, sized, pixel⟩ := enlarges larger composed shown.sized
    rw [← size] at resized sized pixel
    refine ⟨picture, ?_, sized, ?_⟩
    · have across : ((64 * blockSize scale : Nat) : Int) = 64 * scale := by omega
      have down : ((32 * blockSize scale : Nat) : Int) = 32 * scale := by omega
      rw [made, if_pos larger, ← resized, across, down]
    · intro x y across down
      -- Every pixel of the large picture is a copy of one in the small picture.
      have column : x / blockSize scale < 64 := (Nat.div_lt_iff_lt_mul positive).mpr across
      have line : y / blockSize scale < 32 := (Nat.div_lt_iff_lt_mul positive).mpr down
      obtain ⟨cell, place, colour⟩ := shown.pixel _ _ column line
      rw [Nat.div_one, Nat.div_one] at place
      exact ⟨cell, place, (pixel x y across down).trans colour⟩
  · have size : blockSize scale = 1 := by
      unfold blockSize
      omega
    exact ⟨composed, by rw [made, if_neg larger], size ▸ shown⟩

variable {screen} {size : Nat} {image : library.Image}

theorem ShownBy.readCells (shown : screen.ShownBy library size image) (positive : 0 < size) :
    library.readCells image = screen.cells := by
  refine Vector.ext fun index inside => ?_
  let cell : Cell := ⟨index, inside⟩
  have column : cell.x < 64 := Nat.mod_lt _ (by decide)
  have line : cell.y < 32 := Nat.div_lt_of_lt_mul inside
  obtain ⟨found, place, pixel⟩ := shown.pixel (cell.x * size) (cell.y * size)
    (Nat.mul_lt_mul_of_pos_right column positive) (Nat.mul_lt_mul_of_pos_right line positive)
  -- The corner of a cell's block belongs to that cell.
  rw [Nat.mul_div_cancel _ positive, Nat.mul_div_cancel _ positive,
    (Cell.at?_eq_some_iff _ _ cell).mpr ⟨rfl, rfl⟩, Option.some_inj] at place
  subst place
  rw [ImageLibrary.readCells, Vector.getElem_ofFn]
  change decide (library.pixel? image (cell.x * _) (cell.y * _) = some Pixel.white) =
    screen.lit cell
  rw [shown.sized.width, shown.sized.height, Nat.mul_div_cancel_left _ (by decide),
    Nat.mul_div_cancel_left _ (by decide), pixel]
  cases screen.lit cell <;> rfl

theorem ShownBy.countOf (shown : screen.ShownBy library size image) (positive : 0 < size) :
    library.countOf image .white = size * size * screen.litCount := by
  have injective : Function.Injective shade := by decide
  have entries : ∀ y ∈ List.range (32 * size), ∀ x ∈ List.range (64 * size),
      library.pixel? image x y =
        (screen.cells.toList.map shade)[64 * (y / size) + x / size]? := by
    intro y down x across
    obtain ⟨cell, place, pixel⟩ :=
      shown.pixel x y (List.mem_range.mp across) (List.mem_range.mp down)
    obtain ⟨left, upper⟩ := (Cell.at?_eq_some_iff _ _ cell).mp place
    rw [pixel, left, upper, List.getElem?_map, screen.getElem?_cells]
    rfl
  have colours : ((List.range (32 * size)).flatMap fun y => (List.range (64 * size)).map fun x =>
      library.pixel? image x y) =
      (List.range (32 * size)).flatMap fun y => (List.range (64 * size)).map fun x =>
        (screen.cells.toList.map shade)[64 * (y / size) + x / size]? := by
    refine List.flatMap_congr fun y down => List.map_congr_left fun x across => ?_
    exact entries y down x across
  rw [ImageLibrary.countOf, shown.sized.width, shown.sized.height, colours,
    count_squares _ positive (by simp), litCount,
    ← List.count_map_of_injective _ shade injective true]
  rfl

/-! ### Changes of a screen -/

/-- What may be done to the cells of a screen. -/
inductive Change where
  | draw (sprite : PlacedSprite)
  | clear
  | reset

def change (screen : Screen) : Change → Screen
  | .draw sprite => (screen.drawSprite sprite).1
  | .clear | .reset => blank

def changeAll (screen : Screen) (changes : List Change) : Screen := changes.foldl change screen

end Screen

namespace Unbounded

/-- Drawing and clearing where cells are numbers. -/
def change (cells : List Int) : Screen.Change → Except Fault (List Int)
  | .draw sprite => do
    let drawn ← drawRows (sprite.x % 64) (sprite.y % 32) sprite.rows (cells, false)
    .ok drawn.1
  | .clear | .reset => .ok (cells.map fun _ => 0)

def changeAll : List Int → List Screen.Change → Except Fault (List Int)
  | cells, [] => .ok cells
  | cells, first :: changes => do
    let changed ← change cells first
    changeAll changed changes

/-- The bytes of a number that has no more than four, lowest first. -/
def bytesOf? (cell : Int) : Option (List Int) :=
  if 0 ≤ cell ∧ cell < 0x100000000 then
    some [cell % 256, cell / 0x100 % 256, cell / 0x10000 % 256, cell / 0x1000000]
  else none

def rgba? : List Int → Option (List Int)
  | [] => some []
  | cell :: cells => do
    let bytes ← bytesOf? cell
    let later ← rgba? cells
    some (bytes ++ later)

/-- The numbers that stand for the cells of a screen. -/
def surface (screen : Screen) : List Int := screen.cells.toList.map ofCell

theorem surface_blank : surface .blank = List.replicate 2048 0 := by
  rw [surface, Screen.blank, Vector.toList_replicate, List.map_replicate]
  rfl

theorem change_surface (screen : Screen) (step : Screen.Change) :
    change (surface screen) step = .ok (surface (screen.change step)) := by
  cases step with
  | draw sprite =>
    rw [change, surface, screen.drawRows_draw sprite.x sprite.y sprite.rows, ok_bind]
    rfl
  | clear | reset =>
    rw [change, Screen.change, surface_blank, List.map_const', surface, List.length_map,
      Vector.length_toList]

theorem changeAll_surface (screen : Screen) (changes : List Screen.Change) :
    changeAll (surface screen) changes = .ok (surface (screen.changeAll changes)) := by
  induction changes generalizing screen with
  | nil => rfl
  | cons first changes ih =>
    rw [changeAll, change_surface, ok_bind]
    exact ih (screen.change first)

/-- Two numbers stand for cells, and the bytes of each are all the same. -/
theorem bytesOf?_ofCell (lit : Bool) :
    bytesOf? (ofCell lit) = some (List.replicate 4 (ofByte (if lit then 0xFF else 0))) := by
  cases lit <;> rfl

theorem rgba?_surface (screen : Screen) :
    rgba? (surface screen) = some (screen.toRgba.map ofByte) := by
  unfold surface Screen.toRgba
  induction screen.cells.toList with
  | nil => rfl
  | cons lit cells ih =>
    rw [List.map_cons, rgba?, bytesOf?_ofCell, ih, List.flatMap_cons, List.map_append,
      List.map_replicate]
    rfl

end Unbounded

namespace Screen

/-- After any changes the cells are zero or all ones where they are numbers, and their bytes are
packed row by row. With a library that makes images of the screen's size, and enlarges them where
the scale is above one, there is a picture, which shows each cell as a block and nothing else, so
that the cells and their number can be read back. -/
theorem pictures_show_every_cell (library : ImageLibrary) (makes : library.Makes 64 32)
    (changes : List Change) (scale : Int)
    (enlarges : 1 < scale → library.Enlarges 64 32 scale.toNat) :
    let screen := blank.changeAll changes
    let size := (max scale 1).toNat
    Unbounded.changeAll (List.replicate 2048 0) changes =
      .ok (screen.cells.toList.map Unbounded.ofCell) ∧
    Unbounded.rgba? (screen.cells.toList.map Unbounded.ofCell) =
      some (screen.toRgba.map Unbounded.ofByte) ∧
    screen.toRgba.length = 8192 ∧
    (∀ (cell : Cell) (part : Nat), part < 4 →
      screen.toRgba[4 * (64 * cell.y + cell.x) + part]? =
        some (if screen.lit cell then 0xFF else 0)) ∧
    ∃ picture, screen.toImage library scale = .ok picture ∧
      screen.ShownBy library size picture ∧
      library.readCells picture = screen.cells ∧
      library.countOf picture .white = size * size * screen.litCount := by
  intro screen size
  have positive : 0 < size := blockSize_pos scale
  obtain ⟨picture, made, shown⟩ := exists_toImage makes screen enlarges
  refine ⟨?_, Unbounded.rgba?_surface screen, screen.length_toRgba,
    fun cell part inside => screen.getElem?_toRgba cell inside, picture, made, shown,
    shown.readCells positive, shown.countOf positive⟩
  rw [← Unbounded.surface_blank]
  exact Unbounded.changeAll_surface blank changes

/-- A dot in the last corner, drawn after a bar was cleared. Its block is three pixels wide and
high; a scale below one makes it a pixel. -/
theorem dot_in_the_last_block :
    let screen := blank.changeAll [.draw bar, .clear, .draw dot]
    Raster.library.Makes 64 32 ∧ Raster.library.Enlarges 64 32 3 ∧
    screen.toRgba[8191]? = some 0xFF ∧
    (∃ picture, screen.toImage Raster.library 3 = .ok picture ∧
      Raster.library.pixel? picture 189 93 = some .white ∧
      Raster.library.pixel? picture 188 93 = some .black) ∧
    ∃ picture, screen.toImage Raster.library (-2) = .ok picture ∧
      Raster.library.pixel? picture 63 31 = some .white := by
  intro screen
  have corner : screen.lit 2047 = true := by
    change (blank.drawSprite dot).1.lit 2047 = true
    rw [lit_drawSprite]
    simp [blank, lit]
    decide
  have beside : screen.lit 2046 = false := by
    change (blank.drawSprite dot).1.lit 2046 = false
    rw [lit_drawSprite]
    simp [blank, lit]
    decide
  have makes : Raster.library.Makes 64 32 := Raster.library_makes (by decide)
  have enlarges : Raster.library.Enlarges 64 32 3 :=
    Raster.library_enlarges_screen (by decide) (by decide)
  obtain ⟨-, -, -, bytes, large, large_made, large_shown, -⟩ :=
    pictures_show_every_cell Raster.library makes [.draw bar, .clear, .draw dot] 3
      fun _ => enlarges
  obtain ⟨-, -, -, -, small, small_made, small_shown, -⟩ :=
    pictures_show_every_cell Raster.library makes [.draw bar, .clear, .draw dot] (-2)
      fun larger => absurd larger (by decide)
  have last := bytes 2047 3 (by decide)
  obtain ⟨cell, place, first⟩ := large_shown.pixel 189 93 (by decide) (by decide)
  obtain rfl : 2047 = cell := Option.some.inj place
  obtain ⟨cell, place, second⟩ := large_shown.pixel 188 93 (by decide) (by decide)
  obtain rfl : 2046 = cell := Option.some.inj place
  obtain ⟨cell, place, third⟩ := small_shown.pixel 63 31 (by decide) (by decide)
  obtain rfl : 2047 = cell := Option.some.inj place
  rw [corner] at last first third
  rw [beside] at second
  exact ⟨makes, enlarges, last, ⟨large, large_made, first, second⟩, small, small_made, third⟩

end Screen
end ChipEight
