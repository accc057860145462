import Darkroom.Proofs.Fault
import Darkroom.Proofs.Numeric.Reading
import Darkroom.Proofs.Text.Blank
import Darkroom.Region

/-!
# How regions are written

A region is written as four numerals between commas: its corner, its width and its height. Each may
have a plus sign and blanks around it (`Region.SpellsCoordinate`). These are exactly the texts that
are read, and what is read is the region of the numerals in their order
(`Region.read_eq_ok_iff`); so a region that is written down is read back, whatever blanks are put
around its numbers.

## Main definitions

* `Region.SpellsCoordinate` : the parts of a text that give a coordinate.

## Main results

* `Region.read_eq_ok_iff` : all texts that are read.
* `Region.reads_four_coordinates` : this, what is read of written regions, and what a refusal says.
-/

namespace Darkroom.Region

/-- Whether a part of a text gives a coordinate: a numeral, perhaps after a plus sign, with blanks
around it. -/
def SpellsCoordinate (part : List Char) (n : UInt32) : Prop :=
  ∃ digits, Numeric.IsNumeral digits n.toNat ∧
    (Text.Padded part digits ∨ Text.Padded part ('+' :: digits))

/-! ### Parts -/

theorem splitAtCommas_eq (s : List Char) : splitAtCommas s = s.splitOn ',' := by
  induction s with
  | nil => exact (List.splitOn_nil ',').symm
  | cons c rest ih =>
    rw [splitAtCommas, ih, List.splitOn, List.splitOn, List.splitOnP_cons_eq_if_modifyHead]
    by_cases hc : c = ','
    · rw [if_pos hc, if_pos (beq_iff_eq.mpr hc)]
    · rw [if_neg hc, if_neg (fun h => hc (beq_iff_eq.mp h))]
      cases hparts : rest.splitOnP (· == ',') with
      | nil => exact absurd hparts (List.splitOnP_ne_nil _ _)
      | cons part parts => rfl

/-! ### Coordinates -/

theorem isBlank_of_isDigit {c : Char} (h : c.isDigit = true) : Text.isBlank c = false := by
  simp only [Char.isDigit, Bool.and_eq_true, decide_eq_true_eq, ge_iff_le,
    UInt32.le_iff_toNat_le] at h
  have hrange : 48 ≤ c.toNat ∧ c.toNat ≤ 57 := h
  rw [← Bool.not_eq_true]
  intro hblank
  simp only [Text.isBlank, Bool.or_eq_true, Bool.and_eq_true, decide_eq_true_eq,
    beq_iff_eq] at hblank
  omega

theorem readCoordinate_eq_ok_iff {whole : String} {part : List Char} {n : UInt32} :
    readCoordinate whole (Text.trim part) = .ok n ↔ SpellsCoordinate part n := by
  have hread : readCoordinate whole (Text.trim part) = .ok n ↔
      Numeric.natural? UInt32.size (Text.trim part) = some n.toNat := by
    rw [readCoordinate]
    cases hnatural : Numeric.natural? UInt32.size (Text.trim part) with
    | none => exact ⟨nofun, nofun⟩
    | some m =>
      have hm := (Numeric.natural?_eq_some_iff.mp hnatural).1
      simp only [Except.ok.injEq, Option.some.injEq]
      rw [← UInt32.toNat_inj, UInt32.toNat_ofNat_of_lt' hm]
  rw [hread, Numeric.natural?_eq_some_iff, and_iff_right n.toNat_lt]
  constructor
  · rintro ⟨digits, htrim, hnumeral⟩
    exact ⟨digits, hnumeral, htrim.imp (fun h => (Text.trim_eq_iff.mp h).1)
      fun h => (Text.trim_eq_iff.mp h).1⟩
  · rintro ⟨digits, hnumeral, hpadded⟩
    have hdigits : ∀ c ∈ digits, Text.isBlank c = false := fun c hc =>
      isBlank_of_isDigit (hnumeral.2.1 c hc)
    refine ⟨digits, hpadded.imp (fun h => ?_) fun h => ?_, hnumeral⟩
    · exact Text.trim_eq_iff.mpr ⟨h, Text.isTrimmed_of_forall hdigits⟩
    · have hsigned : ∀ c ∈ '+' :: digits, Text.isBlank c = false :=
        List.forall_mem_cons.mpr ⟨by decide, hdigits⟩
      exact Text.trim_eq_iff.mpr ⟨h, Text.isTrimmed_of_forall hsigned⟩

/-! ### Regions -/

/-- **All texts that are read**: four coordinates between commas. -/
theorem read_eq_ok_iff {s : String} {r : Region} :
    read s = .ok r ↔ ∃ x y width height, s.toList.splitOn ',' = [x, y, width, height] ∧
      SpellsCoordinate x r.x ∧ SpellsCoordinate y r.y ∧
      SpellsCoordinate width r.width ∧ SpellsCoordinate height r.height := by
  unfold read
  rw [splitAtCommas_eq]
  constructor
  · intro h
    split at h
    · next hparts =>
      obtain ⟨x, _, hsplit, rfl, hafterX⟩ := List.map_eq_cons_iff.mp hparts
      obtain ⟨y, _, rfl, rfl, hafterY⟩ := List.map_eq_cons_iff.mp hafterX
      obtain ⟨width, _, rfl, rfl, hafterWidth⟩ := List.map_eq_cons_iff.mp hafterY
      obtain ⟨height, _, rfl, rfl, hnone⟩ := List.map_eq_cons_iff.mp hafterWidth
      obtain rfl := List.map_eq_nil_iff.mp hnone
      obtain ⟨_, hx, h⟩ := bind_eq_ok_iff.mp h
      obtain ⟨_, hy, h⟩ := bind_eq_ok_iff.mp h
      obtain ⟨_, hwidth, h⟩ := bind_eq_ok_iff.mp h
      obtain ⟨_, hheight, h⟩ := bind_eq_ok_iff.mp h
      obtain rfl := Except.ok.inj h
      exact ⟨x, y, width, height, hsplit, readCoordinate_eq_ok_iff.mp hx,
        readCoordinate_eq_ok_iff.mp hy, readCoordinate_eq_ok_iff.mp hwidth,
        readCoordinate_eq_ok_iff.mp hheight⟩
    · exact nomatch h
  · rintro ⟨x, y, width, height, hsplit, hx, hy, hwidth, hheight⟩
    rw [hsplit]
    simp only [List.map_cons, List.map_nil]
    rw [readCoordinate_eq_ok_iff.mpr hx, readCoordinate_eq_ok_iff.mpr hy,
      readCoordinate_eq_ok_iff.mpr hwidth, readCoordinate_eq_ok_iff.mpr hheight]
    rfl

theorem notMem_of_spellsCoordinate {part : List Char} {n : UInt32}
    (h : SpellsCoordinate part n) : ',' ∉ part := by
  obtain ⟨digits, hnumeral, hpadded⟩ := h
  have hdigits : ',' ∉ digits := fun hmem => absurd (hnumeral.2.1 _ hmem) (by decide)
  rcases hpadded with hpadded | hpadded
  · exact hpadded.notMem (by decide) hdigits
  · exact hpadded.notMem (by decide) (List.not_mem_cons_of_ne_of_not_mem (by decide) hdigits)

/-- Coordinates between commas are read as the region that has them. -/
theorem read_intercalate {r : Region} {x y width height : List Char}
    (hx : SpellsCoordinate x r.x) (hy : SpellsCoordinate y r.y)
    (hwidth : SpellsCoordinate width r.width) (hheight : SpellsCoordinate height r.height) :
    read (String.ofList ([','].intercalate [x, y, width, height])) = .ok r := by
  refine read_eq_ok_iff.mpr ⟨x, y, width, height, ?_, hx, hy, hwidth, hheight⟩
  rw [String.toList_ofList]
  refine List.splitOn_intercalate ',' (fun part hpart => ?_) (List.cons_ne_nil _ _)
  simp only [List.mem_cons, List.not_mem_nil, or_false] at hpart
  rcases hpart with rfl | rfl | rfl | rfl
  · exact notMem_of_spellsCoordinate hx
  · exact notMem_of_spellsCoordinate hy
  · exact notMem_of_spellsCoordinate hwidth
  · exact notMem_of_spellsCoordinate hheight

theorem spellsCoordinate_of_padded {part : List Char} {n : UInt32}
    (h : Text.Padded part (toString n).toList) : SpellsCoordinate part n := by
  have hdigits : (toString n).toList = Nat.toDigits 10 n.toNat := by
    have htext : toString n = toString n.toNat := rfl
    rw [htext, Nat.toString_eq_ofList_toDigits, String.toList_ofList]
  rw [hdigits] at h
  exact ⟨_, Numeric.isNumeral_toDigits n.toNat, .inl h⟩

/-- A region is read back from its numbers between commas, with any blanks around them. -/
theorem read_padded {r : Region} {x y width height : List Char}
    (hx : Text.Padded x (toString r.x).toList) (hy : Text.Padded y (toString r.y).toList)
    (hwidth : Text.Padded width (toString r.width).toList)
    (hheight : Text.Padded height (toString r.height).toList) :
    read (String.ofList ([','].intercalate [x, y, width, height])) = .ok r :=
  read_intercalate (spellsCoordinate_of_padded hx) (spellsCoordinate_of_padded hy)
    (spellsCoordinate_of_padded hwidth) (spellsCoordinate_of_padded hheight)

theorem read_text (r : Region) : read r.text = .ok r := by
  have htext : r.text = String.ofList ([','].intercalate [(toString r.x).toList,
      (toString r.y).toList, (toString r.width).toList, (toString r.height).toList]) := by
    have hcomma : (toString ",").toList = [','] := rfl
    rw [← String.toList_inj]
    simp [text, hcomma]
  have hbare (s : List Char) : Text.Padded s s := ⟨[], [], nofun, nofun, by simp⟩
  rw [htext]
  exact read_padded (hbare _) (hbare _) (hbare _) (hbare _)

theorem readCoordinate_eq_error {whole : String} {part : List Char} {fault : Fault}
    (h : readCoordinate whole part = .error fault) :
    ∃ reason, fault = .invalidValue "region" whole reason := by
  rw [readCoordinate] at h
  split at h
  · exact nomatch h
  · exact ⟨_, (Except.error.inj h).symm⟩

/-- What a refusal says. -/
theorem read_eq_error {s : String} {fault : Fault} (h : read s = .error fault) :
    ∃ reason, fault = .invalidValue "region" s reason := by
  unfold read at h
  split at h
  · rcases bind_eq_error_iff.mp h with h | ⟨_, -, h⟩
    · exact readCoordinate_eq_error h
    rcases bind_eq_error_iff.mp h with h | ⟨_, -, h⟩
    · exact readCoordinate_eq_error h
    rcases bind_eq_error_iff.mp h with h | ⟨_, -, h⟩
    · exact readCoordinate_eq_error h
    rcases bind_eq_error_iff.mp h with h | ⟨_, -, h⟩
    · exact readCoordinate_eq_error h
    exact nomatch h
  · exact ⟨_, (Except.error.inj h).symm⟩

/-- **The texts that are read as regions** are four coordinates between commas, each of them a
numeral of a word, perhaps after a plus sign, with blanks around it; and what is read is the region
of these numbers in order. So the numbers of a region are read back as that region, whatever blanks
are put around them, and as it is written without any. Other texts are refused, as values of
`region`. -/
theorem reads_four_coordinates :
    (∀ s r, read s = .ok r ↔ ∃ x y width height, s.toList.splitOn ',' = [x, y, width, height] ∧
      SpellsCoordinate x r.x ∧ SpellsCoordinate y r.y ∧
      SpellsCoordinate width r.width ∧ SpellsCoordinate height r.height) ∧
    (∀ (r : Region) (x y width height : List Char),
      Text.Padded x (toString r.x).toList → Text.Padded y (toString r.y).toList →
      Text.Padded width (toString r.width).toList → Text.Padded height (toString r.height).toList →
      read (String.ofList ([','].intercalate [x, y, width, height])) = .ok r) ∧
    (∀ r : Region, read r.text = .ok r) ∧
    ∀ s fault, read s = .error fault → ∃ reason, fault = .invalidValue "region" s reason :=
  ⟨fun _ _ => read_eq_ok_iff, fun _ _ _ _ _ hx hy hwidth hheight =>
    read_padded hx hy hwidth hheight, read_text, fun _ _ => read_eq_error⟩

/-- The greatest word, and blanks of several kinds; then plus signs and zeros; then a number that is
no word. -/
theorem spacedRegion_is_read :
    read "\t4294967295 ,0,\u00a012,7\n" = .ok ⟨4294967295, 0, 12, 7⟩ ∧
    SpellsCoordinate " +007".toList 7 ∧
    ∃ reason,
      read "1,2,3,4294967296" = .error (.invalidValue "region" "1,2,3,4294967296" reason) := by
  refine ⟨?_, ?_, ?_⟩
  · have hread := reads_four_coordinates.2.1 ⟨4294967295, 0, 12, 7⟩ "\t4294967295 ".toList
      "0".toList "\u00a012".toList "7\n".toList
      ⟨['\t'], [' '], List.forall_mem_singleton.mpr rfl, List.forall_mem_singleton.mpr rfl,
        by decide +kernel⟩
      ⟨[], [], nofun, nofun, by decide +kernel⟩
      ⟨['\u00a0'], [], List.forall_mem_singleton.mpr rfl, nofun, by decide +kernel⟩
      ⟨[], ['\n'], nofun, List.forall_mem_singleton.mpr rfl, by decide +kernel⟩
    have htext : "\t4294967295 ,0,\u00a012,7\n" = String.ofList ([','].intercalate
        ["\t4294967295 ".toList, "0".toList, "\u00a012".toList, "7\n".toList]) := by
      decide +kernel
    rwa [htext]
  · obtain ⟨_, _, _, _, hsplit, hx, -⟩ :=
      (reads_four_coordinates.1 " +007,0,1,1" ⟨7, 0, 1, 1⟩).mp (by decide +kernel)
    have hparts : " +007,0,1,1".toList.splitOn ',' =
        [" +007".toList, "0".toList, "1".toList, "1".toList] := by decide +kernel
    rw [hparts] at hsplit
    rwa [(List.cons.inj hsplit).1]
  · have hrefused : ¬ (read "1,2,3,4294967296").isOk := by decide +kernel
    obtain ⟨fault, hfault⟩ := exists_of_not_isOk hrefused
    obtain ⟨reason, rfl⟩ := reads_four_coordinates.2.2.2 _ _ hfault
    exact ⟨reason, hfault⟩

end Darkroom.Region
