import Darkroom.Proofs.Fault
import Darkroom.Proofs.Image.Raster
import Darkroom.Proofs.Numeric.Word
import Darkroom.Vision.Warp

/-!
# What comes of a warp

A warp fills a canvas of the size that was asked for, or it breaks off. It breaks off only where a
position of the canvas is taken to a point so far out that no word comes after its coordinate
(`Warp.Strays`). Every position of the canvas is a pixel of it, so none is looked for outside.

## Main definitions

* `Warp.Strays` : maps that take a position too far out.

## Main results

* `Warp.apply_yields` : the canvas, or why there is none.
-/

namespace Darkroom.Warp

open Numeric (Fits WordFault toWord word word_eq_error_iff)

/-- Whether a coordinate is so far out that the position after it is no word. -/
def IsLast (coordinate : Float) : Prop := ¬ Fits (toWord .down coordinate + 1)

/-- Whether the inverse of a map takes a position of a canvas to a point that is too far out. -/
def Strays (m : Affine) (width height : UInt32) : Prop :=
  ∃ inv, m.inverse? = some inv ∧ ∃ x y : Nat, (x < width.toNat ∧ y < height.toNat) ∧
    (IsLast (inv.across x y) ∨ IsLast (inv.down x y))

/-- What breaks a sampling off is the position after that of a coordinate. -/
theorem sample_yields (image : Raster Rgb) (x y : Float) :
    Yields (fun _ => True) (fun cause => cause = WordFault.overflow ∧ (IsLast x ∨ IsLast y))
      (sample image x y) := by
  rw [sample]
  cases hright : word (toWord .down x + 1) with
  | error cause =>
    obtain ⟨hlast, rfl⟩ := word_eq_error_iff.mp hright
    exact ⟨rfl, .inl hlast⟩
  | ok right =>
    cases hbottom : word (toWord .down y + 1) with
    | error cause =>
      obtain ⟨hlast, rfl⟩ := word_eq_error_iff.mp hbottom
      exact ⟨rfl, .inr hlast⟩
    | ok bottom => trivial

/-- A warp gives a canvas of the size asked for, unless it takes a position of it too far out. -/
theorem apply_yields (image : Raster Rgb) (m : Affine) (width height : UInt32) :
    Yields (fun out => out.width = width ∧ out.height = height)
      (fun cause => cause = WordFault.overflow ∧ Strays m width height)
      (apply image m width height) := by
  rw [apply]
  cases hinverse : m.inverse? with
  | none => exact ⟨rfl, rfl⟩
  | some inv =>
    refine Yields.foldlM (fun y hy => fun row hrow => Yields.foldlM (fun x hx => ?_) hrow)
      ⟨rfl, rfl⟩
    rintro out ⟨hwidth, hheight⟩
    have hinside : x < width.toNat ∧ y < height.toNat :=
      ⟨List.mem_range.mp hx, List.mem_range.mp hy⟩
    have hsample := (sample_yields image (inv.across x y) (inv.down x y)).imp
      fun cause h => (⟨h.1, inv, hinverse, x, y, hinside, h.2⟩ :
        cause = WordFault.overflow ∧ Strays m width height)
    refine hsample.bind fun color _ => ?_
    rw [Filter.put, if_pos (Raster.inside_iff.mpr (by rwa [hwidth, hheight]))]
    exact ⟨(Raster.width_set ..).trans hwidth, (Raster.height_set ..).trans hheight⟩

end Darkroom.Warp
