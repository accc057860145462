import Darkroom.Proofs.Image.Raster
import Darkroom.Proofs.Vision.Reflection
import Mathlib.Data.Fintype.Basic
import Mathlib.Tactic.FinCases

/-!
# Gaussian blur on machine words

`Filter.gaussian` is the blur without bounds: it looks pixels up in images that have one everywhere.
`Filter.gaussianWords` counts in words: the sums along rows go into a buffer of samples, three for a
pixel, and those along columns are read from it. Its run ends when a sum or product does not fit, or
when a pixel or a sample is missing. It comes to the same image whenever the number of samples is a
word of 32 bits, however many weights there are, and it overflows for every larger image
(`Filter.gaussianWords_eq`).

Two facts carry this. Reflection leads from a position of the image to another one of the same row
or column (`Filter.Position.inRow`, `Filter.Position.inColumn`), so whatever the kernel reaches for
is there. And a loop over positions that succeeds in each of its rounds succeeds as a whole, and
fills what its rounds fill (`Filter.Fills`); the place of a sample tells its position and its
channel, so no round spoils what another one has filled.

## Main definitions

* `Filter.gaussian` : the blur without bounds.
* `Filter.Position` : the positions of an image.
* `Filter.Fills` : runs that succeed and leave certain entries filled.
* `Filter.rowSum`, `Filter.columnSum` : what the blurred image consists of.

## Main results

* `Filter.get?_gaussian` : the pixels of the blurred image.
* `Filter.exists_rowsWords`, `Filter.exists_columnsWords` : what the loops leave.
* `Filter.gaussianWords_eq` : which images are blurred on words.
* `Filter.gaussian_stays_in_bounds` : reflection, and the blur of images within the limit.
-/

namespace Darkroom.Filter

open Numeric (WordFault shortWord shortWord_of_lt)

/-! ### Blurring without bounds -/

/-- The weighted sum of pixels, `pixel k` going with the weight `k`. -/
def weightedSum (weights : List Float) (pixel : Nat → Levels) : Levels :=
  weights.zipIdx.foldl (fun acc (w, k) =>
    let p := pixel k
    ⟨acc.r + w * p.r, acc.g + w * p.g, acc.b + w * p.b⟩) ⟨0.0, 0.0, 0.0⟩

/-- Blurs rows, then columns, with a kernel of the given size. -/
def gaussian (image : Raster Rgb) (size : Nat) (sigma : Float) : Raster Rgb :=
  if size ≤ 1 ∨ image.width = 0 ∨ image.height = 0 then image
  else
    let kernel := gaussianKernel size sigma
    let radius : Int := (size / 2 : Nat)
    let w := image.width.toNat
    let h := image.height.toNat
    let source := image.map fun p => (⟨level p.r, level p.g, level p.b⟩ : Levels)
    let across := Raster.ofFn image.width image.height fun x y =>
      weightedSum kernel fun k => source.getD (reflect ((x : Int) + k - radius) w) y default
    Raster.ofFn image.width image.height fun x y =>
      let p := weightedSum kernel fun k =>
        across.getD x (reflect ((y : Int) + k - radius) h) default
      ⟨saturate p.r, saturate p.g, saturate p.b⟩

/-! ### Positions of an image -/

/-- A position of an image. -/
@[ext] structure Position (image : Raster Rgb) where
  x : Nat
  y : Nat
  inside : image.inside x y = true

namespace Position

variable {image : Raster Rgb} (p : Position image)

theorem x_lt : p.x < image.width.toNat := (Raster.inside_iff.mp p.inside).1

theorem y_lt : p.y < image.height.toNat := (Raster.inside_iff.mp p.inside).2

/-- The colour of an image at a position. -/
def color : Rgb := image.getD p.x p.y default

/-- The position of the same row that reflection leads to. -/
def inRow (index : Int) : Position image where
  x := reflect index image.width.toNat
  y := p.y
  inside := Raster.inside_iff.mpr ⟨reflect_lt index (Nat.zero_lt_of_lt p.x_lt), p.y_lt⟩

/-- The position of the same column that reflection leads to. -/
def inColumn (index : Int) : Position image where
  x := p.x
  y := reflect index image.height.toNat
  inside := Raster.inside_iff.mpr ⟨p.x_lt, reflect_lt index (Nat.zero_lt_of_lt p.y_lt)⟩

/-- The place of a channel among the samples of an image. -/
def place (c : Fin 3) : Nat := (p.y * image.width.toNat + p.x) * 3 + c

theorem place_lt (c : Fin 3) : p.place c < image.width.toNat * image.height.toNat * 3 := by
  have hpixel := Raster.index_lt p.inside
  rw [image.size_pixels] at hpixel
  rw [place]
  omega

/-- Two channels of pixels share no place. -/
theorem place_inj {p q : Position image} {c d : Fin 3} : p.place c = q.place d ↔ p = q ∧ c = d := by
  constructor
  · intro hplace
    rw [place, place] at hplace
    have hpixel : p.y * image.width.toNat + p.x = q.y * image.width.toNat + q.x := by omega
    obtain ⟨hx, hy⟩ := (Raster.index_inj p.x_lt q.x_lt p.y q.y).mp hpixel
    exact ⟨Position.ext hx hy, Fin.ext (by omega)⟩
  · rintro ⟨rfl, rfl⟩
    rfl

theorem placeWord_eq (hfits : image.width.toNat * image.height.toNat * 3 < UInt32.size)
    (c : Fin 3) : placeWord image.width.toNat p.x p.y c = .ok (p.place c) := by
  have hplace := p.place_lt c
  rw [place] at hplace
  rw [placeWord, shortWord_of_lt (by omega), ok_bind, shortWord_of_lt (by omega), ok_bind,
    shortWord_of_lt (by omega)]
  rfl

theorem fetch_eq (c : Fin 3) : fetch image p.x p.y c = .ok (level (channel p.color c)) := by
  rw [fetch, image.get?_eq_getD p.inside default]
  rfl

end Position

/-! ### Weighted sums -/

/-- The three channels of a pixel in double precision. -/
def levels (p : Rgb) : Levels := ⟨level p.r, level p.g, level p.b⟩

/-- The channels of a pixel in double precision, by number. -/
def Levels.channel (p : Levels) : Fin 3 → Float
  | 0 => p.r
  | 1 => p.g
  | 2 => p.b

theorem channel_levels (p : Rgb) (c : Fin 3) : (levels p).channel c = level (channel p c) := by
  fin_cases c <;> rfl

/-- A loop whose rounds all succeed, seen through a view of the state of a plain loop. -/
theorem foldlM_eq_foldl {ι α β ε : Type} {f : β → ι → Except ε β} {g : α → ι → α} (view : α → β)
    {l : List ι} (h : ∀ i ∈ l, ∀ a, f (view a) i = .ok (view (g a i))) (a : α) :
    l.foldlM f (view a) = .ok (view (l.foldl g a)) := by
  induction l generalizing a with
  | nil => rfl
  | cons i l ih =>
    rw [List.foldlM_cons, h i List.mem_cons_self, ok_bind, List.foldl_cons]
    exact ih (fun j hj => h j (List.mem_cons_of_mem i hj)) (g a i)

/-- The weighted sum of pixels has the weighted sum of each channel. -/
theorem sumWords_eq {weights : List Float} {sample : Nat → Except WordFault Float}
    {pixel : Nat → Levels} {c : Fin 3}
    (h : ∀ k < weights.length, sample k = .ok ((pixel k).channel c)) :
    sumWords weights sample = .ok ((weightedSum weights pixel).channel c) := by
  have hzero : Levels.channel ⟨0.0, 0.0, 0.0⟩ c = 0.0 := by
    fin_cases c <;> rfl
  have hround : ∀ entry ∈ weights.zipIdx, ∀ sum : Levels,
      addSample sample (sum.channel c) entry =
        .ok (Levels.channel ⟨sum.r + entry.1 * (pixel entry.2).r,
          sum.g + entry.1 * (pixel entry.2).g, sum.b + entry.1 * (pixel entry.2).b⟩ c) := by
    intro entry hentry sum
    rw [addSample, h entry.2 (List.snd_lt_of_mem_zipIdx hentry)]
    fin_cases c <;> rfl
  have hloop := foldlM_eq_foldl (fun sum : Levels => sum.channel c) hround ⟨0.0, 0.0, 0.0⟩
  rwa [hzero] at hloop

/-! ### What the loops leave -/

/-- Whether a run succeeds from every good state, ends in a good one and gives certain entries what
they should have, while entries that have it keep it. -/
def Fills {σ κ : Type} (good : σ → Prop) (has : κ → σ → Prop) (keys : κ → Prop)
    (run : σ → Except WordFault σ) : Prop :=
  ∀ state, good state → ∃ state', run state = .ok state' ∧ good state' ∧
    ∀ key, keys key ∨ has key state → has key state'

namespace Fills

variable {σ κ : Type} {good : σ → Prop} {has : κ → σ → Prop}

/-- A loop fills what its rounds fill. -/
theorem loop {ι : Type} {keys : ι → κ → Prop} {round : ι → σ → Except WordFault σ} {l : List ι}
    (h : ∀ i ∈ l, Fills good has (keys i) (round i)) :
    Fills good has (fun key => ∃ i ∈ l, keys i key) (loop round l) := by
  induction l with
  | nil => exact fun state hgood =>
      ⟨state, rfl, hgood, fun key hkey => hkey.resolve_left fun ⟨_, hi, _⟩ => nomatch hi⟩
  | cons i l ih =>
    intro state hgood
    obtain ⟨next, hnext, hgoodNext, hfirst⟩ := h i List.mem_cons_self state hgood
    obtain ⟨last, hlast, hgoodLast, hrest⟩ :=
      ih (fun j hj => h j (List.mem_cons_of_mem i hj)) next hgoodNext
    refine ⟨last, ?_, hgoodLast, fun key hkey => hrest key ?_⟩
    · rw [Filter.loop, List.foldlM_cons, hnext]
      exact hlast
    · simp only [List.mem_cons, exists_eq_or_imp] at hkey
      obtain (hi | hl) | hhas := hkey
      · exact .inr (hfirst key (.inl hi))
      · exact .inl hl
      · exact .inr (hfirst key (.inr hhas))

theorem mono {keys keys' : κ → Prop} {run : σ → Except WordFault σ} (h : Fills good has keys run)
    (hkeys : ∀ key, keys' key → keys key) : Fills good has keys' run := by
  intro state hgood
  obtain ⟨state', hrun, hgood', hhas⟩ := h state hgood
  exact ⟨state', hrun, hgood', fun key hkey => hhas key (hkey.imp_left (hkeys key))⟩

/-- A loop over the positions of an image fills what it fills at each of them. -/
theorem forPixels {image : Raster Rgb} {keys : Position image → κ → Prop}
    {round : Nat → Nat → σ → Except WordFault σ}
    (h : ∀ p : Position image, Fills good has (keys p) (round p.x p.y)) :
    Fills good has (fun key => ∃ p, keys p key) (forPixels image round) := by
  have hround : ∀ y ∈ List.range image.height.toNat, ∀ x ∈ List.range image.width.toNat,
      Fills good has (fun key => ∃ p, (p.x = x ∧ p.y = y) ∧ keys p key) (round x y) := by
    intro y hy x hx
    -- Numbers within the ranges are a position, and a position is determined by its numbers.
    let p : Position image :=
      ⟨x, y, Raster.inside_iff.mpr ⟨List.mem_range.mp hx, List.mem_range.mp hy⟩⟩
    refine (h p).mono ?_
    rintro key ⟨q, ⟨hqx, hqy⟩, hkey⟩
    rwa [show q = p from Position.ext hqx hqy] at hkey
  refine (Fills.loop fun y hy => Fills.loop (hround y hy)).mono ?_
  rintro key ⟨p, hkey⟩
  exact ⟨p.y, List.mem_range.mpr p.y_lt, p.x, List.mem_range.mpr p.x_lt, p, ⟨rfl, rfl⟩, hkey⟩

end Fills

section Gaussian

variable {image : Raster Rgb} (weights : List Float) (radius : Nat)

/-- The weighted sum along a row. -/
def rowSum (p : Position image) : Levels :=
  weightedSum weights fun k => levels (p.inRow ((p.x : Int) + k - radius)).color

/-- The weighted sum along a column of the sums along rows. -/
def columnSum (p : Position image) : Levels :=
  weightedSum weights fun k => rowSum weights radius (p.inColumn ((p.y : Int) + k - radius))

/-- The colour that has the given sums, rounded. -/
def rounded (p : Levels) : Rgb := ⟨saturate p.r, saturate p.g, saturate p.b⟩

/-- The blurred image has the sums of sums, rounded. -/
theorem get?_gaussian {size : Nat} (sigma : Float)
    (h : ¬ (size ≤ 1 ∨ image.width = 0 ∨ image.height = 0)) (p : Position image) :
    (gaussian image size sigma).get? p.x p.y =
      some (rounded (columnSum (gaussianKernel size sigma) (size / 2) p)) := by
  -- The sums along rows are an image of their own, from which the columns are read.
  have hrow (q : Position image) : (Raster.ofFn image.width image.height fun x y =>
        weightedSum (gaussianKernel size sigma) fun k => (image.map levels).getD
          (reflect ((x : Int) + k - (size / 2 : Nat)) image.width.toNat) y default).getD
            q.x q.y default = rowSum (gaussianKernel size sigma) (size / 2) q := by
    rw [Raster.getD, Raster.get?_ofFn, if_pos ⟨q.x_lt, q.y_lt⟩, Option.getD_some]
    refine congrArg (weightedSum _) (funext fun k => ?_)
    have hpixel := image.get?_eq_getD (q.inRow ((q.x : Int) + k - (size / 2 : Nat))).inside default
    exact congrArg (Option.getD · default)
      ((Raster.get?_map levels image _ _).trans (congrArg (Option.map levels) hpixel))
  rw [gaussian, if_neg h]
  refine (Raster.get?_ofFn ..).trans ((if_pos ⟨p.x_lt, p.y_lt⟩).trans ?_)
  refine congrArg (some <| rounded <| weightedSum _ ·) (funext fun k => ?_)
  exact hrow (p.inColumn ((p.y : Int) + k - (size / 2 : Nat)))

/-- Whether a buffer has a sample for each channel of the pixels of an image. -/
def HasSamples (image : Raster Rgb) (buffer : Array Float) : Prop :=
  buffer.size = image.width.toNat * image.height.toNat * 3

/-- Whether a buffer has the sum along a row in a channel. -/
def HasRowSum (key : Position image × Fin 3) (buffer : Array Float) : Prop :=
  buffer[key.1.place key.2]? = some ((rowSum weights radius key.1).channel key.2)

/-- Whether an image has the sum of sums of another one. -/
def HasColumnSum (p : Position image) (out : Raster Rgb) : Prop :=
  out.get? p.x p.y = some (rounded (columnSum weights radius p))

variable {weights radius} (hweights : weights.length ≤ UInt32.size) (hradius : radius < UInt32.size)

include hweights hradius

theorem rowSumWord_eq (p : Position image) (c : Fin 3) :
    rowSumWord image weights radius p.x p.y c = .ok ((rowSum weights radius p).channel c) := by
  refine sumWords_eq fun k hk => ?_
  rw [neighbourWord_eq p.x_lt image.width.toNat_lt.le (Nat.lt_of_lt_of_le hk hweights) hradius,
    ok_bind, channel_levels]
  exact (p.inRow _).fetch_eq c

variable (hfits : image.width.toNat * image.height.toNat * 3 < UInt32.size)

include hfits

theorem fills_storeRowSum (p : Position image) (c : Fin 3) :
    Fills (HasSamples image) (HasRowSum weights radius) (· = (p, c))
      (storeRowSum image weights radius p.x p.y c) := by
  intro buffer hsize
  have hplace : p.place c < buffer.size := hsize ▸ p.place_lt c
  refine ⟨buffer.setIfInBounds (p.place c) ((rowSum weights radius p).channel c), ?_,
    (Array.size_setIfInBounds ..).trans hsize, ?_⟩
  · rw [storeRowSum, rowSumWord_eq hweights hradius, ok_bind, p.placeWord_eq hfits, ok_bind, store,
      if_pos hplace]
  · rintro ⟨q, d⟩ hkey
    -- One place belongs to one channel of one position, so the sample stored is the one wanted.
    rw [HasRowSum, Array.getElem?_setIfInBounds]
    split_ifs with hsame
    · obtain ⟨rfl, rfl⟩ := Position.place_inj.mp hsame
      rfl
    · refine hkey.resolve_left fun heq => hsame ?_
      obtain ⟨rfl, rfl⟩ := Prod.mk.inj heq
      rfl

/-- The buffer has the sums along the rows. -/
theorem exists_rowsWords :
    ∃ buffer, rowsWords image weights radius = .ok buffer ∧
      ∀ (p : Position image) (c : Fin 3), HasRowSum weights radius (p, c) buffer := by
  have hstore (p : Position image) : Fills (HasSamples image) (HasRowSum weights radius)
      (fun key => ∃ c ∈ List.finRange 3, key = (p, c))
      (storeRowSums image weights radius p.x p.y) :=
    .loop fun c _ => fills_storeRowSum hweights hradius hfits p c
  obtain ⟨buffer, hrun, -, hhas⟩ := Fills.forPixels hstore
    (Array.replicate (image.width.toNat * image.height.toNat * 3) 0.0) Array.size_replicate
  refine ⟨buffer, ?_, fun p c => hhas (p, c) (.inl ⟨p, c, List.mem_finRange c, rfl⟩)⟩
  rw [rowsWords, shortWord_of_lt (by omega), ok_bind, shortWord_of_lt hfits, ok_bind]
  exact hrun

section Columns

variable {buffer : Array Float}
  (hbuffer : ∀ (p : Position image) (c : Fin 3), HasRowSum weights radius (p, c) buffer)

include hbuffer

theorem columnSumWord_eq (p : Position image) (c : Fin 3) :
    columnSumWord image weights radius buffer p.x p.y c =
      .ok ((columnSum weights radius p).channel c) := by
  refine sumWords_eq fun k hk => ?_
  have hplace := (p.inColumn ((p.y : Int) + k - radius)).placeWord_eq hfits c
  have hsample := hbuffer (p.inColumn ((p.y : Int) + k - radius)) c
  rw [HasRowSum] at hsample
  rw [neighbourWord_eq p.y_lt image.height.toNat_lt.le (Nat.lt_of_lt_of_le hk hweights) hradius,
    ok_bind]
  refine (congrArg (· >>= load buffer) hplace).trans ?_
  rw [ok_bind, load, hsample]

theorem fills_putColumnSum (p : Position image) :
    Fills (Raster.SameSize · image) (HasColumnSum weights radius) (· = p)
      (putColumnSum image weights radius buffer p.x p.y) := by
  rintro out ⟨hwidth, hheight⟩
  have hinside (q : Position image) : out.inside q.x q.y = true := by
    rw [Raster.inside, hwidth, hheight]
    exact q.inside
  refine ⟨out.set p.x p.y (rounded (columnSum weights radius p)), ?_,
    ⟨(Raster.width_set ..).trans hwidth, (Raster.height_set ..).trans hheight⟩, fun q hkey => ?_⟩
  · rw [putColumnSum, columnSumWord_eq hweights hradius hfits hbuffer, ok_bind,
      columnSumWord_eq hweights hradius hfits hbuffer, ok_bind,
      columnSumWord_eq hweights hradius hfits hbuffer, ok_bind, put, if_pos (hinside p)]
    rfl
  · rw [HasColumnSum, Raster.get?_set]
    split_ifs with hsame
    · rw [Position.ext hsame.1 hsame.2.1]
    · refine hkey.resolve_left fun heq => hsame ?_
      rw [heq]
      exact ⟨rfl, rfl, hinside p⟩

/-- Blurring the columns of the buffer gives the sums of sums. -/
theorem exists_columnsWords :
    ∃ out, columnsWords image weights radius buffer = .ok out ∧ out.SameSize image ∧
      ∀ p : Position image, HasColumnSum weights radius p out := by
  obtain ⟨out, hrun, hsize, hhas⟩ :=
    Fills.forPixels (fills_putColumnSum hweights hradius hfits hbuffer)
      (Raster.solid image.width image.height Rgb.black) ⟨rfl, rfl⟩
  exact ⟨out, hrun, hsize, fun p => hhas p (.inl ⟨p, rfl⟩)⟩

end Columns

end Gaussian

theorem length_gaussianKernel (size : Nat) (sigma : Float) :
    (gaussianKernel size sigma).length = size := by
  simp only [gaussianKernel, List.length_map, List.length_range]

theorem sameSize_gaussian (image : Raster Rgb) (size : Nat) (sigma : Float) :
    (gaussian image size sigma).SameSize image := by
  rw [gaussian]
  split_ifs
  · exact .refl image
  · exact ⟨rfl, rfl⟩

section Blur

variable {image : Raster Rgb}

/-- Rows and columns one after the other give the blurred image. -/
theorem rowsWords_bind_columnsWords {size : Nat} (hsize : size < UInt32.size)
    (hfits : image.width.toNat * image.height.toNat * 3 < UInt32.size)
    (h : ¬ (size ≤ 1 ∨ image.width = 0 ∨ image.height = 0)) (sigma : Float) :
    (rowsWords image (gaussianKernel size sigma) (size / 2) >>=
        columnsWords image (gaussianKernel size sigma) (size / 2)) =
      .ok (gaussian image size sigma) := by
  have hweights := (length_gaussianKernel size sigma).trans_le hsize.le
  have hradius := Nat.lt_of_le_of_lt (Nat.div_le_self size 2) hsize
  obtain ⟨buffer, hrows, hbuffer⟩ := exists_rowsWords hweights hradius hfits
  obtain ⟨out, hcolumns, ⟨hwidth, hheight⟩, hout⟩ :=
    exists_columnsWords hweights hradius hfits hbuffer
  obtain ⟨hwidth', hheight'⟩ := sameSize_gaussian image size sigma
  rw [hrows, ok_bind, hcolumns]
  refine congrArg Except.ok (Raster.ext_get? (hwidth.trans hwidth'.symm)
    (hheight.trans hheight'.symm) fun x y hin => ?_)
  rw [Raster.inside, hwidth, hheight] at hin
  let p : Position image := ⟨x, y, hin⟩
  exact (hout p).trans (get?_gaussian sigma h p).symm

/-- A number of samples that is not a word ends the run. -/
theorem rowsWords_eq_error (h : UInt32.size ≤ image.width.toNat * image.height.toNat * 3)
    (weights : List Float) (radius : Nat) :
    rowsWords image weights radius = .error .overflow := by
  rw [rowsWords, shortWord]
  split_ifs
  · rw [ok_bind, shortWord, if_neg (by omega)]
    rfl
  · rfl

/-- The blur on words comes to the same image when the number of samples is a word, and overflows
otherwise. -/
theorem gaussianWords_eq (image : Raster Rgb) (size : UInt32) (sigma : Float) :
    gaussianWords image size sigma =
      if size ≤ 1 ∨ image.width.toNat * image.height.toNat * 3 < UInt32.size then
        .ok (gaussian image size.toNat sigma)
      else .error .overflow := by
  have hone : size ≤ 1 ↔ size.toNat ≤ 1 := UInt32.le_iff_toNat_le
  have hradius : (size / 2).toNat = size.toNat / 2 := UInt32.toNat_div ..
  rw [gaussianWords, hradius]
  dsimp only
  by_cases hleft : size ≤ 1 ∨ image.width = 0 ∨ image.height = 0
  · have hsame : gaussian image size.toNat sigma = image := by
      rw [gaussian, if_pos (by rwa [← hone])]
    rw [if_pos hleft, hsame, if_pos]
    -- An image without pixels has no samples.
    refine hleft.imp_right ?_
    rintro (hzero | hzero) <;> simp [hzero]
  · rw [if_neg hleft]
    split_ifs with hfits
    · have hfits := hfits.resolve_left fun h => hleft (.inl h)
      exact rowsWords_bind_columnsWords size.toNat_lt hfits (by rwa [← hone]) sigma
    · rw [rowsWords_eq_error (by omega)]
      rfl

end Blur

/-- **The blur stays within its image.** Reflection leads into a line, to the only position that is
the given one or its opposite up to whole periods, and on words too. So, for every image within the
limit on sizes and every kernel, the blur on words comes to the blurred image: no pixel or sample is
missing and no number fails to fit. -/
theorem gaussian_stays_in_bounds (index : Int) {length : Nat} (hlength : 1 ≤ length)
    (image : Raster Rgb) (size : UInt32) (sigma : Float)
    (hpixels : image.width.toNat * image.height.toNat ≤ maxOutputPixels) :
    (reflect index length < length ∧
      (1 < length → ∀ j < length, j = reflect index length ↔
        (j : Int) ≡ index [ZMOD 2 * ((length : Int) - 1)] ∨
          (j : Int) ≡ -index [ZMOD 2 * ((length : Int) - 1)])) ∧
    (length ≤ UInt32.size → reflectWord index length = .ok (reflect index length)) ∧
    gaussianWords image size sigma = .ok (gaussian image size.toNat sigma) := by
  refine ⟨⟨reflect_lt index hlength, fun hone j hj => eq_reflect_iff hone hj⟩,
    reflectWord_eq index hlength, ?_⟩
  have hfits : image.width.toNat * image.height.toNat * 3 < UInt32.size :=
    Nat.lt_of_le_of_lt (Nat.mul_le_mul_right 3 hpixels) (by decide)
  rw [gaussianWords_eq, if_pos (.inr hfits)]

/-- A kernel of 99 weights reaches over the ends of a line of three many times. -/
theorem gaussian_stays_in_bounds_wide_kernel :
    let image : Raster Rgb := ⟨3, 1, #[⟨10, 0, 7⟩, ⟨21, 0, 9⟩, ⟨40, 50, 60⟩], rfl⟩
    (1 ≤ 3 ∧ image.width.toNat * image.height.toNat ≤ maxOutputPixels) ∧
      reflect (-49) 3 = 1 ∧ reflectWord (-49) 3 = .ok 1 ∧
      gaussianWords image 99 0.0 = .ok (gaussian image 99 0.0) := by
  intro image
  have hlength : 1 ≤ 3 := by decide
  have hpixels : image.width.toNat * image.height.toNat ≤ maxOutputPixels := by decide
  obtain ⟨⟨-, hunique⟩, hword, hblur⟩ :=
    gaussian_stays_in_bounds (-49) hlength image 99 0.0 hpixels
  have hreflect : 1 = reflect (-49) 3 := (hunique (by decide) 1 (by decide)).mpr (.inr rfl)
  refine ⟨⟨hlength, hpixels⟩, hreflect.symm, ?_, hblur⟩
  rw [hreflect]
  exact hword (by decide)

end Darkroom.Filter
