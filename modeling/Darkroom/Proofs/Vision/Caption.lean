import Darkroom.Proofs.Image.Raster
import Darkroom.Vision.Caption
import Mathlib.Data.Nat.Bitwise
import Mathlib.Tactic.IntervalCases
import Mathlib.Tactic.Linarith
import Mathlib.Tactic.Ring

/-!
# What captions paint

To draw a caption is to paint an area: the pixels of the image within it get the colour, and all
others stay (`Caption.Paints`). What is painted step by step is the union of the areas, and an area
and a colour determine the result (`Caption.Paints.unique`), so neither the order of the steps nor
their repetition matters. The area of a caption is the union of the widened cells of its characters
(`Caption.Inked`), wherever they lie with respect to the image.

`Caption.draw` is drawing without bounds: it counts in all integers and fills whole squares.
`Caption.drawWords` draws on words of 64 bits with sign, each square being filled pixel by pixel at
coordinates cut to 32 bits. Such a run ends when a sum does not fit, and otherwise it paints the
same area, never leaving the image (`Caption.runPaints_drawWords`). All sums fit for a caption that
is not too far out and not too large.

## Main definitions

* `Caption.draw` : drawing without bounds.
* `Caption.Paints` : the result of painting an area.
* `Caption.Inked` : the area of a caption.
* `Caption.RunPaints` : what a run on words comes to.
* `Caption.Near` : captions for which all sums fit.

## Main results

* `Caption.paints_draw`, `Caption.runPaints_drawWords` : both paint the area of the caption.
* `Caption.draw_paints_cells` : what a caption leaves on an image.
-/

namespace Darkroom.Caption

open Numeric (Fits WordFault word)

/-! ### Drawing without bounds -/

/-- Fills the part of a square that lies within the image. -/
def fillSquare (image : Raster Rgb) (x y size : Int) (color : Rgb) : Raster Rgb :=
  let left := max x 0
  let top := max y 0
  let right := min (x + size) image.width.toNat
  let bottom := min (y + size) image.height.toNat
  image.setRect left.toNat top.toNat (right - left).toNat color (bottom - top).toNat

/-- Whether the cell in column `column` of a row of a character is set. -/
def isSet (bits column : Nat) : Bool := bits.testBit (glyphWidth - 1 - column)

/-- Draws the set cells of one row of a character, in columns below `columns`. -/
def drawCells (image : Raster Rgb) (left top cell pad : Int) (color : Rgb) (bits : Nat) :
    (columns : Nat) → Raster Rgb
  | 0 => image
  | column + 1 =>
    let before := drawCells image left top cell pad color bits column
    if isSet bits column then
      fillSquare before (left + column * cell - pad) (top - pad) (cell + 2 * pad) color
    else before

/-- Draws the rows of a character, the first of them with its upper edge at `top`. -/
def drawRows (image : Raster Rgb) (left top cell pad : Int) (color : Rgb) : List Nat → Raster Rgb
  | [] => image
  | bits :: rows =>
    drawRows (drawCells image left top cell pad color bits glyphWidth) left (top + cell) cell pad
      color rows

/-- Draws characters, the first of them with its left edge at `left`. -/
def drawCharacters (image : Raster Rgb) (left top cell pad : Int) (color : Rgb) :
    List Char → Raster Rgb
  | [] => image
  | c :: cs =>
    drawCharacters (drawRows image left top cell pad color (glyph c)) (left + advance * cell) top
      cell pad color cs

/-- Draws a text with the left end of its base line at `(x, y)`. -/
def draw (image : Raster Rgb) (text : String) (x y : Int) (scale : Float) (thickness : Int)
    (color : Rgb) : Raster Rgb :=
  let cell := cellSize scale
  drawCharacters image x (y - glyphHeight * cell) cell (padding thickness) color text.toList

/-! ### Painting -/

/-- An image after an area of it has been painted in one colour. -/
structure Paints (area : Int → Int → Prop) (color : Rgb) (image painted : Raster Rgb) : Prop where
  width : painted.width = image.width
  height : painted.height = image.height
  within : ∀ px py : Nat, image.inside px py = true → area px py → painted.get? px py = some color
  beside : ∀ px py : Nat, ¬ area px py → painted.get? px py = image.get? px py

namespace Paints

variable {area area' : Int → Int → Prop} {color : Rgb} {image painted painted' : Raster Rgb}

theorem inside (h : Paints area color image painted) (px py : Nat) :
    painted.inside px py = image.inside px py := by
  rw [Raster.inside, Raster.inside, h.width, h.height]

theorem refl (h : ∀ px py, ¬ area px py) (color : Rgb) (image : Raster Rgb) :
    Paints area color image image :=
  ⟨rfl, rfl, fun px py _ hin => absurd hin (h px py), fun _ _ _ => rfl⟩

/-- One area after another are their union. -/
theorem trans (h : Paints area color image painted) (h' : Paints area' color painted painted') :
    Paints (fun px py => area px py ∨ area' px py) color image painted' where
  width := h'.width.trans h.width
  height := h'.height.trans h.height
  within px py hinside hin := by
    by_cases hlater : area' px py
    · exact h'.within px py (by rwa [h.inside]) hlater
    · rw [h'.beside px py hlater]
      exact h.within px py hinside (hin.resolve_right hlater)
  beside px py hout := by
    obtain ⟨hfirst, hlater⟩ := not_or.mp hout
    rw [h'.beside px py hlater, h.beside px py hfirst]

/-- Only the part of an area within the image counts. -/
theorem congr (h : Paints area color image painted)
    (harea : ∀ px py : Nat, image.inside px py = true → (area px py ↔ area' px py)) :
    Paints area' color image painted where
  width := h.width
  height := h.height
  within px py hinside hin := h.within px py hinside ((harea px py hinside).mpr hin)
  beside px py hout := by
    by_cases hinside : image.inside px py = true
    · exact h.beside px py fun hin => hout ((harea px py hinside).mp hin)
    · rw [Raster.get?_of_not_inside hinside, Raster.get?_of_not_inside (by rwa [h.inside])]

/-- An area and a colour determine the result. -/
theorem unique (h : Paints area color image painted) (h' : Paints area color image painted') :
    painted' = painted := by
  refine Raster.ext_get? (h'.width.trans h.width.symm) (h'.height.trans h.height.symm)
    fun px py hinside => ?_
  rw [h'.inside] at hinside
  by_cases hin : area px py
  · rw [h.within px py hinside hin, h'.within px py hinside hin]
  · rw [h.beside px py hin, h'.beside px py hin]

/-- What has been painted is left as it is when the same is painted over it. -/
theorem again (h : Paints area color image painted) (h' : Paints area color painted painted') :
    painted' = painted :=
  h.unique ((h.trans h').congr fun _ _ _ => or_self_iff)

end Paints

/-! ### Squares and characters -/

/-- The positions of a square. -/
def Square (x y size px py : Int) : Prop := (x ≤ px ∧ px < x + size) ∧ y ≤ py ∧ py < y + size

theorem paints_fillSquare (image : Raster Rgb) (x y size : Int) (color : Rgb) :
    Paints (Square x y size) color image (fillSquare image x y size color) where
  width := Raster.width_setRect ..
  height := Raster.height_setRect ..
  within px py hinside hin := by
    obtain ⟨hwidth, hheight⟩ := Raster.inside_iff.mp hinside
    obtain ⟨hx, hy⟩ := hin
    rw [fillSquare, Raster.get?_setRect, if_pos ⟨by omega, by omega, hinside⟩]
  beside px py hout := by
    rw [fillSquare, Raster.get?_setRect, if_neg]
    rintro ⟨hx, hy, hinside⟩
    refine hout ⟨?_, ?_⟩ <;> omega

/-- An entry of a list with one more in front is that one, or an entry one place further back. -/
theorem exists_getElem?_cons {α : Type} {a : α} {l : List α} {P : Nat → α → Prop} :
    (∃ i b, (a :: l)[i]? = some b ∧ P i b) ↔ P 0 a ∨ ∃ i b, l[i]? = some b ∧ P (i + 1) b := by
  constructor
  · rintro ⟨i, b, hi, hb⟩
    cases i with
    | zero =>
      obtain rfl : a = b := Option.some.inj hi
      exact .inl hb
    | succ i => exact .inr ⟨i, b, hi, hb⟩
  · rintro (ha | ⟨i, b, hi, hb⟩)
    · exact ⟨0, a, rfl, ha⟩
    · exact ⟨i + 1, b, hi, hb⟩

section Cells

variable (left top cell pad : Int)

/-- The positions of the widened cells of a row, in columns below `columns`. -/
def RowCells (bits columns : Nat) (px py : Int) : Prop :=
  ∃ column < columns, isSet bits column = true ∧
    Square (left + column * cell - pad) (top - pad) (cell + 2 * pad) px py

/-- The positions of the widened cells of rows. -/
def RowsCells (rows : List Nat) (px py : Int) : Prop :=
  ∃ (row : Nat) (bits : Nat), rows[row]? = some bits ∧
    RowCells left (top + row * cell) cell pad bits glyphWidth px py

/-- The positions of the widened cells of characters. -/
def CharactersCells (cs : List Char) (px py : Int) : Prop :=
  ∃ (index : Nat) (c : Char), cs[index]? = some c ∧
    RowsCells (left + index * advance * cell) top cell pad (glyph c) px py

variable {left top cell pad} {px py : Int}

theorem rowCells_succ {bits column : Nat} :
    RowCells left top cell pad bits (column + 1) px py ↔
      RowCells left top cell pad bits column px py ∨ isSet bits column = true ∧
        Square (left + column * cell - pad) (top - pad) (cell + 2 * pad) px py := by
  simp only [RowCells, Nat.lt_succ_iff_lt_or_eq]
  constructor
  · rintro ⟨found, hfound | rfl, hset⟩
    · exact .inl ⟨found, hfound, hset⟩
    · exact .inr hset
  · rintro (⟨found, hfound, hset⟩ | hset)
    · exact ⟨found, .inl hfound, hset⟩
    · exact ⟨column, .inr rfl, hset⟩

theorem rowsCells_cons {bits : Nat} {rows : List Nat} :
    RowsCells left top cell pad (bits :: rows) px py ↔
      RowCells left top cell pad bits glyphWidth px py ∨
        RowsCells left (top + cell) cell pad rows px py := by
  have hfirst : top + (0 : Nat) * cell = top := by simp
  have hnext (row : Nat) : top + (row + 1 : Nat) * cell = top + cell + row * cell := by
    push_cast
    ring
  simp only [RowsCells, exists_getElem?_cons, hfirst, hnext]

theorem charactersCells_cons {c : Char} {cs : List Char} :
    CharactersCells left top cell pad (c :: cs) px py ↔
      RowsCells left top cell pad (glyph c) px py ∨
        CharactersCells (left + advance * cell) top cell pad cs px py := by
  have hfirst : left + (0 : Nat) * advance * cell = left := by simp
  have hnext (index : Nat) : left + (index + 1 : Nat) * advance * cell =
      left + advance * cell + index * advance * cell := by
    push_cast
    ring
  simp only [CharactersCells, exists_getElem?_cons, hfirst, hnext]

end Cells

section Draw

variable (image : Raster Rgb) (left top cell pad : Int) (color : Rgb)

theorem paints_drawCells (bits columns : Nat) :
    Paints (RowCells left top cell pad bits columns) color image
      (drawCells image left top cell pad color bits columns) := by
  induction columns with
  | zero => exact .refl (fun px py ⟨_, hcolumn, _⟩ => Nat.not_lt_zero _ hcolumn) color image
  | succ column ih =>
    rw [drawCells]
    split_ifs with hset
    · refine (ih.trans (paints_fillSquare ..)).congr fun px py _ => ?_
      rw [rowCells_succ, and_iff_right hset]
    · refine ih.congr fun px py _ => ?_
      rw [rowCells_succ, or_iff_left fun h => hset h.1]

theorem paints_drawRows (rows : List Nat) :
    Paints (RowsCells left top cell pad rows) color image
      (drawRows image left top cell pad color rows) := by
  induction rows generalizing image top with
  | nil => exact .refl (fun px py ⟨_, _, hrow, _⟩ => nomatch hrow) color image
  | cons bits rows ih =>
    exact ((paints_drawCells ..).trans (ih ..)).congr fun px py _ => rowsCells_cons.symm

theorem paints_drawCharacters (cs : List Char) :
    Paints (CharactersCells left top cell pad cs) color image
      (drawCharacters image left top cell pad color cs) := by
  induction cs generalizing image left with
  | nil => exact .refl (fun px py ⟨_, _, hindex, _⟩ => nomatch hindex) color image
  | cons c cs ih =>
    exact ((paints_drawRows ..).trans (ih ..)).congr fun px py _ => charactersCells_cons.symm

end Draw

/-! ### Glyphs -/

theorem length_glyph (c : Char) : (glyph c).length = glyphHeight := by
  rw [glyph]
  split <;> rfl

theorem isSet_iff {bits column : Nat} (hcolumn : column < glyphWidth) :
    isSet bits column = true ↔ bits &&& (0x10 >>> column) ≠ 0 := by
  have hmask : 0x10 >>> column = 2 ^ (glyphWidth - 1 - column) := by
    rw [glyphWidth] at hcolumn ⊢
    interval_cases column <;> rfl
  rw [hmask, Nat.and_two_pow, isSet]
  cases bits.testBit (glyphWidth - 1 - column) with
  | false => simp
  | true => simp

/-! ### Drawing on words -/

/-- What a run on words comes to: an area is painted, or a number does not fit, and not so where the
run is safe. -/
def RunPaints (safe : Prop) (area : Int → Int → Prop) (color : Rgb) (image : Raster Rgb)
    (run : Except WordFault (Raster Rgb)) : Prop :=
  (∃ painted, run = .ok painted ∧ Paints area color image painted) ∨
    ¬ safe ∧ run = .error .overflow

namespace RunPaints

variable {safe : Prop} {area area' : Int → Int → Prop} {color : Rgb} {image painted : Raster Rgb}
  {run : Except WordFault (Raster Rgb)}

theorem congr (h : RunPaints safe area color image run)
    (harea : ∀ px py : Nat, image.inside px py = true → (area px py ↔ area' px py)) :
    RunPaints safe area' color image run :=
  h.imp_left fun ⟨painted, hrun, hpaints⟩ => ⟨painted, hrun, hpaints.congr harea⟩

/-- A number is computed before the rest is painted. -/
theorem word_bind {n : Int} {f : Int → Except WordFault (Raster Rgb)} (hfits : safe → Fits n)
    (h : RunPaints safe area color image (f n)) :
    RunPaints safe area color image (word n >>= f) := by
  rw [word]
  split_ifs with hn
  · exact h
  · exact .inr ⟨fun hsafe => hn (hfits hsafe), rfl⟩

/-- One part is painted after the other. -/
theorem bind {f : Raster Rgb → Except WordFault (Raster Rgb)}
    (h : RunPaints safe area color image run)
    (hf : ∀ painted, Paints area color image painted →
      RunPaints safe area' color painted (f painted)) :
    RunPaints safe (fun px py => area px py ∨ area' px py) color image (run >>= f) := by
  obtain ⟨painted, rfl, hpaints⟩ | ⟨hsafe, rfl⟩ := h
  · obtain ⟨painted', hrun, hpaints'⟩ | hfault := hf painted hpaints
    · exact .inl ⟨painted', hrun, hpaints.trans hpaints'⟩
    · exact .inr hfault
  · exact .inr ⟨hsafe, rfl⟩

/-- A loop paints what its rounds paint. -/
theorem foldlM {ι : Type} {area : ι → Int → Int → Prop} {l : List ι}
    {f : Raster Rgb → ι → Except WordFault (Raster Rgb)}
    (h : ∀ i ∈ l, ∀ other, other.width = image.width → other.height = image.height →
      RunPaints safe (area i) color other (f other i)) :
    RunPaints safe (fun px py => ∃ i ∈ l, area i px py) color image (l.foldlM f image) := by
  induction l generalizing image with
  | nil => exact .inl ⟨image, rfl, .refl (fun px py ⟨_, hi, _⟩ => nomatch hi) color image⟩
  | cons i l ih =>
    rw [List.foldlM_cons]
    refine ((h i List.mem_cons_self image rfl rfl).bind fun painted hpaints => ih ?_).congr
      fun px py _ => ?_
    · intro j hj other hwidth hheight
      exact h j (List.mem_cons_of_mem i hj) other (hwidth.trans hpaints.width)
        (hheight.trans hpaints.height)
    · simp only [List.mem_cons, exists_eq_or_imp]

end RunPaints

theorem mem_numbers {start stop n : Int} : n ∈ numbers start stop ↔ start ≤ n ∧ n < stop := by
  rw [numbers, List.mem_map]
  constructor
  · rintro ⟨k, hk, rfl⟩
    rw [List.mem_range] at hk
    omega
  · rintro ⟨hstart, hstop⟩
    refine ⟨(n - start).toNat, ?_, ?_⟩
    · rw [List.mem_range]
      omega
    · omega

section Runs

variable (safe : Prop) {image : Raster Rgb} (color : Rgb)

/-- Within the image no coordinate is changed by being cut. -/
theorem runPaints_putWord {px py : Int} (hx : 0 ≤ px ∧ px < image.width.toNat)
    (hy : 0 ≤ py ∧ py < image.height.toNat) :
    RunPaints safe (fun qx qy => qx = px ∧ qy = py) color image (putWord image px py color) := by
  have hwidth := image.width.toNat_lt_size
  have hheight := image.height.toNat_lt_size
  have hcut : px % UInt32.size = px ∧ py % UInt32.size = py :=
    ⟨Int.emod_eq_of_lt hx.1 (by omega), Int.emod_eq_of_lt hy.1 (by omega)⟩
  have hinside : image.inside px.toNat py.toNat = true :=
    Raster.inside_iff.mpr ⟨by omega, by omega⟩
  rw [putWord, hcut.1, hcut.2, if_pos hinside]
  refine .inl ⟨_, rfl, Raster.width_set .., Raster.height_set .., fun qx qy hin hq => ?_,
    fun qx qy hq => ?_⟩
  · rw [Raster.get?_set, if_pos ⟨by omega, by omega, hin⟩]
  · rw [Raster.get?_set, if_neg]
    rintro ⟨rfl, rfl, -⟩
    exact hq ⟨by omega, by omega⟩

/-- The part of a square within the image is the square, as far as painting goes. -/
theorem runPaints_fillWords {x y size : Int} (hright : safe → Fits (x + size))
    (hbottom : safe → Fits (y + size)) :
    RunPaints safe (Square x y size) color image (fillWords image x y size color) := by
  refine .word_bind hright (.word_bind hbottom ?_)
  have hrow : ∀ py ∈ numbers (max y 0) (min (y + size) image.height.toNat), ∀ other : Raster Rgb,
      other.width = image.width → other.height = image.height →
      RunPaints safe (fun qx qy => ∃ px ∈ numbers (max x 0) (min (x + size) image.width.toNat),
        qx = px ∧ qy = py) color other
        ((numbers (max x 0) (min (x + size) image.width.toNat)).foldlM (fun image px =>
          putWord image px py color) other) := by
    intro py hpy other hwidth hheight
    refine .foldlM fun px hpx another hwidth' hheight' => runPaints_putWord safe color ?_ ?_
    · rw [mem_numbers] at hpx
      rw [hwidth', hwidth]
      omega
    · rw [mem_numbers] at hpy
      rw [hheight', hheight]
      omega
  refine (RunPaints.foldlM hrow).congr fun qx qy hinside => ?_
  -- Rows and columns are cut to the image, so this is the square within the image only.
  have hsize := Raster.inside_iff.mp hinside
  simp only [mem_numbers, Square]
  constructor
  · rintro ⟨py, hy, px, hx, rfl, rfl⟩
    omega
  · rintro ⟨hx, hy⟩
    exact ⟨qy, by omega, qx, by omega, rfl, rfl⟩

variable {left top cell pad : Int} (hcell : 1 ≤ cell) (hpad : 0 ≤ pad)
  (hnear : safe → left.natAbs + 6 * cell + 3 * pad < 2 ^ 63 ∧
    top.natAbs + 8 * cell + 3 * pad < 2 ^ 63)

include hcell hpad hnear

/-- A cell reaches at most six cells to the right of its character and eight below its top. -/
theorem runPaints_cellWords {row bits column : Nat} (hrow : row < glyphHeight)
    (hcolumn : column < glyphWidth) :
    RunPaints safe (fun px py => isSet bits column = true ∧
        Square (left + column * cell - pad) (top + row * cell - pad) (cell + 2 * pad) px py)
      color image (cellWords left top cell pad color row bits image column) := by
  rw [cellWords]
  split_ifs with hclear
  · refine .inl ⟨image, rfl, .refl (fun px py h => ?_) color image⟩
    exact (isSet_iff hcolumn).mp h.1 hclear
  · have hset := (isSet_iff hcolumn).mpr hclear
    have hacross : 0 ≤ column * cell ∧ column * cell ≤ 4 * cell := by
      rw [glyphWidth] at hcolumn
      constructor <;> nlinarith
    have hdown : 0 ≤ row * cell ∧ row * cell ≤ 6 * cell := by
      rw [glyphHeight] at hrow
      constructor <;> nlinarith
    refine RunPaints.congr ?_ fun px py _ => (and_iff_right hset).symm
    refine .word_bind ?_ (.word_bind ?_ (.word_bind ?_ (.word_bind ?_ (.word_bind ?_
      (.word_bind ?_ (.word_bind ?_ (.word_bind ?_ (runPaints_fillWords safe color ?_ ?_))))))))
    all_goals
      intro hsafe
      obtain ⟨hx, hy⟩ := hnear hsafe
      rw [Fits]
      omega

theorem runPaints_row {row bits : Nat} (hrow : row < glyphHeight) :
    RunPaints safe (RowCells left (top + row * cell) cell pad bits glyphWidth) color image
      ((List.range glyphWidth).foldlM (cellWords left top cell pad color row bits) image) := by
  refine (RunPaints.foldlM fun column hcolumn other _ _ => runPaints_cellWords safe color hcell hpad
    hnear hrow (List.mem_range.mp hcolumn)).congr fun px py _ => ?_
  simp only [List.mem_range, RowCells]

theorem runPaints_rows (c : Char) :
    RunPaints safe (RowsCells left top cell pad (glyph c)) color image
      ((glyph c).zipIdx.foldlM (fun image (bits, row) =>
        (List.range glyphWidth).foldlM (cellWords left top cell pad color row bits) image)
        image) := by
  have hrows : ∀ entry ∈ (glyph c).zipIdx, ∀ other : Raster Rgb, other.width = image.width →
      other.height = image.height →
      RunPaints safe (RowCells left (top + entry.2 * cell) cell pad entry.1 glyphWidth) color other
        ((List.range glyphWidth).foldlM (cellWords left top cell pad color entry.2 entry.1)
          other) := by
    intro entry hentry other _ _
    have hrow : entry.2 < glyphHeight := by
      rw [← length_glyph c]
      exact (List.getElem?_eq_some_iff.mp (List.mem_zipIdx_iff_getElem?.mp hentry)).1
    exact runPaints_row safe color hcell hpad hnear hrow
  refine (RunPaints.foldlM hrows).congr fun px py _ => ?_
  simp only [Prod.exists, List.mem_zipIdx_iff_getElem?, RowsCells]
  exact exists_comm

omit hnear in
theorem runPaints_characterWords {x : Int} {c : Char} {index : Nat}
    (hnear : safe → x.natAbs + 6 * (index * cell) + 6 * cell + 3 * pad < 2 ^ 63 ∧
      top.natAbs + 8 * cell + 3 * pad < 2 ^ 63) :
    RunPaints safe (RowsCells (x + index * advance * cell) top cell pad (glyph c)) color image
      (characterWords x top cell pad color image (c, index)) := by
  have hcells : (index * advance : Int) * cell = 6 * (index * cell) := by
    rw [advance]
    push_cast
    ring
  have hindex : (index : Int) ≤ index * cell := by nlinarith
  refine .word_bind ?_ (.word_bind ?_ (.word_bind ?_ (runPaints_rows safe color hcell hpad ?_ c)))
  all_goals
    intro hsafe
    obtain ⟨hx, hy⟩ := hnear hsafe
  · rw [Fits, advance]
    omega
  · rw [Fits, hcells]
    omega
  · rw [Fits, hcells]
    omega
  · rw [hcells]
    omega

end Runs

/-! ### Captions -/

theorem one_le_cellSize (scale : Float) : 1 ≤ cellSize scale := Int.le_max_right ..

theorem padding_nonneg (thickness : Int) : 0 ≤ padding thickness := by
  rw [padding]
  omega

section Captions

variable (image : Raster Rgb) (text : String) (x y : Int) (scale : Float) (thickness : Int)
  (color : Rgb)

/-- The area of a caption with the left end of its base line at `(x, y)`: the union of the cells
that are set in the glyphs of its characters, each widened on all sides. -/
def Inked (text : String) (x y cell pad px py : Int) : Prop :=
  ∃ (i : Nat) (c : Char) (r bits k : Nat), text.toList[i]? = some c ∧ r < 7 ∧ k < 5 ∧
    (glyph c)[r]? = some bits ∧ isSet bits k = true ∧
    (x + 6 * cell * i + cell * k - pad ≤ px ∧ px < x + 6 * cell * i + cell * (k + 1) + pad) ∧
    y - 7 * cell + cell * r - pad ≤ py ∧ py < y - 7 * cell + cell * (r + 1) + pad

/-- Whether a caption is small and lies near the image, as far as words of 64 bits go. -/
def Near (text : String) (x y cell pad : Int) : Prop :=
  x.natAbs + y.natAbs + 8 * (cell * (text.length + 1)) + 4 * pad < 2 ^ 63

theorem inked_iff {text : String} {x y cell pad px py : Int} :
    Inked text x y cell pad px py ↔
      CharactersCells x (y - glyphHeight * cell) cell pad text.toList px py := by
  have hsquare (i r k : Nat) :
      Square (x + i * advance * cell + k * cell - pad)
          (y - glyphHeight * cell + r * cell - pad) (cell + 2 * pad) px py ↔
        (x + 6 * cell * i + cell * k - pad ≤ px ∧ px < x + 6 * cell * i + cell * (k + 1) + pad) ∧
          y - 7 * cell + cell * r - pad ≤ py ∧ py < y - 7 * cell + cell * (r + 1) + pad := by
    have hleft : x + i * advance * cell + k * cell - pad = x + 6 * cell * i + cell * k - pad := by
      rw [advance]
      push_cast
      ring
    have htop : y - glyphHeight * cell + r * cell - pad = y - 7 * cell + cell * r - pad := by
      rw [glyphHeight]
      push_cast
      ring
    rw [Square, hleft, htop, mul_add, mul_add, mul_one]
    constructor <;> intro h <;> omega
  simp only [Inked, CharactersCells, RowsCells, RowCells, hsquare]
  constructor
  · rintro ⟨i, c, r, bits, k, hi, -, hk, hr, hset, hin⟩
    exact ⟨i, c, hi, r, bits, hr, k, hk, hset, hin⟩
  · rintro ⟨i, c, hi, r, bits, hr, k, hk, hset, hin⟩
    have hrow : r < 7 := (List.getElem?_eq_some_iff.mp hr).1.trans_eq (length_glyph c)
    exact ⟨i, c, r, bits, k, hi, hrow, hk, hr, hset, hin⟩

theorem paints_draw :
    Paints (Inked text x y (cellSize scale) (padding thickness)) color image
      (draw image text x y scale thickness color) :=
  (paints_drawCharacters ..).congr fun _ _ _ => inked_iff.symm

theorem runPaints_drawWords :
    RunPaints (Near text x y (cellSize scale) (padding thickness))
      (Inked text x y (cellSize scale) (padding thickness)) color image
      (drawWords image text x y scale thickness color) := by
  have hcell := one_le_cellSize scale
  have hpad := padding_nonneg thickness
  have hlength : 0 ≤ cellSize scale * text.length := by positivity
  have hnear : Near text x y (cellSize scale) (padding thickness) →
      x.natAbs + y.natAbs + 8 * (cellSize scale * text.length) + 8 * cellSize scale +
        4 * padding thickness < 2 ^ 63 := by
    rw [Near, mul_add, mul_one]
    omega
  have hcharacters : ∀ entry ∈ text.toList.zipIdx, ∀ other : Raster Rgb,
      other.width = image.width → other.height = image.height →
      RunPaints (Near text x y (cellSize scale) (padding thickness))
        (RowsCells (x + entry.2 * advance * cellSize scale) (y - glyphHeight * cellSize scale)
          (cellSize scale) (padding thickness) (glyph entry.1))
        color other (characterWords x (y - glyphHeight * cellSize scale) (cellSize scale)
          (padding thickness) color other entry) := by
    intro entry hentry other _ _
    refine runPaints_characterWords _ color hcell hpad fun hsafe => ?_
    have hindex : entry.2 < text.length := by
      rw [← String.length_toList]
      exact (List.getElem?_eq_some_iff.mp (List.mem_zipIdx_iff_getElem?.mp hentry)).1
    have hbefore : 0 ≤ entry.2 * cellSize scale := by positivity
    -- The cells of all characters up to this one are among those that the text is counted with.
    have hcells : entry.2 * cellSize scale + cellSize scale ≤ cellSize scale * text.length := by
      nlinarith
    have hbound := hnear hsafe
    rw [glyphHeight]
    constructor <;> omega
  refine (RunPaints.word_bind ?_ (.word_bind ?_ (.foldlM hcharacters))).congr fun px py _ => ?_
  · intro hsafe
    have hbound := hnear hsafe
    rw [Fits, glyphHeight]
    omega
  · intro hsafe
    have hbound := hnear hsafe
    rw [Fits, glyphHeight]
    omega
  · rw [inked_iff]
    simp only [Prod.exists, List.mem_zipIdx_iff_getElem?, CharactersCells]
    exact exists_comm

end Captions

/-- **What a caption leaves on an image.** The pixels within the widened cells of its characters get
the colour, and all others stay; to draw the same caption again changes nothing. On words the same
comes out, or a sum does not fit, which does not happen for a caption that is not too large and not
too far out; no pixel outside of the image is asked for. -/
theorem draw_paints_cells (image : Raster Rgb) (text : String) (x y : Int) (scale : Float)
    (thickness : Int) (color : Rgb) :
    1 ≤ cellSize scale ∧ padding thickness = (max thickness 1 - 1) / 2 ∧
      Paints (Inked text x y (cellSize scale) (padding thickness)) color image
        (draw image text x y scale thickness color) ∧
      draw (draw image text x y scale thickness color) text x y scale thickness color =
        draw image text x y scale thickness color ∧
      (drawWords image text x y scale thickness color ≠ .error .overflow →
        drawWords image text x y scale thickness color =
          .ok (draw image text x y scale thickness color)) ∧
      (Near text x y (cellSize scale) (padding thickness) →
        drawWords image text x y scale thickness color =
          .ok (draw image text x y scale thickness color)) := by
  have hpaints := paints_draw image text x y scale thickness color
  refine ⟨one_le_cellSize scale, rfl, hpaints, hpaints.again (paints_draw ..), ?_⟩
  obtain ⟨painted, hrun, hpainted⟩ | ⟨hnear, hrun⟩ :=
    runPaints_drawWords image text x y scale thickness color
  · rw [hrun, hpaints.unique hpainted]
    exact ⟨fun _ => rfl, fun _ => rfl⟩
  · exact ⟨fun h => absurd hrun h, fun h => absurd h hnear⟩

end Darkroom.Caption
