import Darkroom.Graph.Value
import Darkroom.Proofs.Graph.Kind
import Darkroom.Proofs.Vision.Caption
import Darkroom.Proofs.Vision.Gaussian
import Darkroom.Proofs.Vision.Warp

/-!
# What an operation does with its slots

The value of a node is described once for all kinds of computations (`Node.compute`), by how its
slots are read. Two readings that are related slot by slot therefore give related values, for every
relation that the steps of a computation keep (`Congruent`). Equality is such a relation, so an
operation depends on the slots of its kind only. The relation between evaluation with a table and
evaluation without one is another.

In a computation that only fails, an operation reads all slots of its kind one after the other and
checks its parameters last (`Node.compute_awaits`): it ends with the failure of the first slot that
has one, and when all slots have values, it gives a value of the type of its kind or fails by
itself. In the latter case it has a parameter that it cannot use, or the values on its slots lead it
to a number that is no machine word (`NodeKind.Overflows`): a blur to the number of samples of a
huge image, a warp to a point too far out, a caption to the edges of a cell of huge size or far out.

## Main definitions

* `Congruent` : the relations that hold of whole computations when they hold of their steps.
* `Awaits` : computations that read slots in turn.
* `NodeKind.Overflows` : the values on which an operation breaks off.
* `Node.OwnFailure` : the failures of a node's own operation.

## Main results

* `Congruent.compute` : related slots give related values.
* `Node.compute_awaits` : what an operation does with slots of the right types.
* `Node.compute_yields` : slots of the right types give a value of the right type.
-/

namespace Darkroom

/-! ### Related computations -/

section Congruent

variable {m m' : Type → Type} [Monad m] [MonadExceptOf Failure m] [Monad m']
  [MonadExceptOf Failure m']

/-- Whether a relation between computations holds of equal values and of equal failures, and is kept
when computations follow each other. -/
structure Congruent (R : (α : Type) → m α → m' α → Prop) : Prop where
  pure {α : Type} (a : α) : R α (pure a) (pure a)
  throw {α : Type} (failure : Failure) : R α (throw failure) (throw failure)
  bind {α β : Type} {x : m α} {x' : m' α} {f : α → m β} {f' : α → m' β} (hx : R α x x')
    (hf : ∀ a, R β (f a) (f' a)) : R β (x >>= f) (x' >>= f')

theorem Congruent.eq : Congruent (m := m) fun _ x y => x = y where
  pure _ := rfl
  throw _ := rfl
  bind hx hf := by
    subst hx
    exact congrArg _ (funext hf)

namespace Congruent

variable {R : (α : Type) → m α → m' α → Prop} (h : Congruent R)
variable {node : Node} {read : Nat → m Value} {read' : Nat → m' Value}

include h

theorem lift {α : Type} (x : Except Failure α) : R α (Failure.lift x) (Failure.lift x) := by
  cases x with
  | ok a => exact h.pure a
  | error failure => exact h.throw failure

theorem inputAs {α : Type} (part? : Value → Option α) {index : Nat}
    (hread : R _ (read index) (read' index)) :
    R _ (node.inputAs part? read index) (node.inputAs part? read' index) := by
  refine h.bind hread fun value => ?_
  cases part? value with
  | some part => exact h.pure part
  | none => exact h.throw _

/-- **Related slots give related values**, where only the slots of the node's kind count. -/
theorem compute [ImageLibrary] (images : Images)
    (hread : ∀ index < node.kind.inputs.length, R _ (read index) (read' index)) :
    R _ (node.compute images read) (node.compute images read') := by
  unfold Node.compute
  generalize hkind : node.kind = kind at hread
  cases kind with
  | int | float | string | image => exact h.lift _
  | endNode => exact hread 0 (by decide)
  | sepia | grey | invert =>
    exact h.bind (h.inputAs _ (hread 0 (by decide))) fun _ => h.pure _
  | bright =>
    refine h.bind (h.inputAs _ (hread 0 (by decide))) fun _ => ?_
    exact h.bind (h.inputAs _ (hread 1 (by decide))) fun _ => h.pure _
  | gaussian | rotate =>
    refine h.bind (h.inputAs _ (hread 0 (by decide))) fun _ => ?_
    refine h.bind (h.inputAs _ (hread 1 (by decide))) fun _ => ?_
    exact h.bind (h.lift _) fun _ => h.pure _
  | scalePixel | scale | movePixel | move =>
    refine h.bind (h.inputAs _ (hread 0 (by decide))) fun _ => ?_
    refine h.bind (h.inputAs _ (hread 1 (by decide))) fun _ => ?_
    refine h.bind (h.inputAs _ (hread 2 (by decide))) fun _ => ?_
    exact h.bind (h.lift _) fun _ => h.pure _
  | addTextPixel | addText =>
    refine h.bind (h.inputAs _ (hread 0 (by decide))) fun _ => ?_
    refine h.bind (h.inputAs _ (hread 1 (by decide))) fun _ => ?_
    refine h.bind (h.inputAs _ (hread 2 (by decide))) fun _ => ?_
    refine h.bind (h.inputAs _ (hread 3 (by decide))) fun _ => ?_
    refine h.bind (h.inputAs _ (hread 4 (by decide))) fun _ => ?_
    exact h.bind (h.lift _) fun _ => h.pure _

end Congruent

end Congruent

/-! ### Values of the right types -/

/-- Whether the values of a type are those that `make` makes, and `part?` takes apart. -/
def Value.PartOf {α : Type} (part? : Value → Option α) (make : α → Value) (type : ValueType) :
    Prop :=
  ∀ value, value.type = type → ∃ part, value = make part ∧ part? value = some part

theorem Value.int?_partOf : Value.PartOf Value.int? .int .int := by
  intro value htype
  cases value with
  | int n => exact ⟨n, rfl, rfl⟩
  | _ => exact nomatch htype

theorem Value.float?_partOf : Value.PartOf Value.float? .float .float := by
  intro value htype
  cases value with
  | float x => exact ⟨x, rfl, rfl⟩
  | _ => exact nomatch htype

theorem Value.text?_partOf : Value.PartOf Value.text? .text .string := by
  intro value htype
  cases value with
  | text s => exact ⟨s, rfl, rfl⟩
  | _ => exact nomatch htype

theorem Value.image?_partOf : Value.PartOf Value.image? .image .image := by
  intro value htype
  cases value with
  | image raster => exact ⟨raster, rfl, rfl⟩
  | _ => exact nomatch htype

theorem Failure.lift_eq {α : Type} (x : Except Failure α) :
    (Failure.lift x : Except Failure α) = x := by
  cases x <;> rfl

/-! ### Slots in turn -/

/-- Whether a computation reads slots in turn: it ends with the failure of the first slot that has
one; and when all slots have values, `P` holds of its value and `Q` of its failure. -/
def Awaits {α : Type} (P : α → Prop) (Q : Failure → Prop) :
    (slots : List (Except Failure Value)) → Except Failure α → Prop
  | [], x => Yields P Q x
  | .error failure :: _, x => x = .error failure
  | .ok _ :: slots, x => Awaits P Q slots x

namespace Awaits

variable {α β : Type} {P : α → Prop} {Q : Failure → Prop} {slots : List (Except Failure Value)}

theorem of_ok {a : α} (h : Awaits P Q slots (.ok a)) :
    P a ∧ ∀ slot ∈ slots, ∃ value, slot = .ok value := by
  induction slots with
  | nil => exact ⟨h, fun _ hmem => absurd hmem List.not_mem_nil⟩
  | cons slot slots ih =>
    cases slot with
    | error failure => exact nomatch (h : Except.ok a = .error failure)
    | ok value =>
      obtain ⟨ha, hslots⟩ := ih h
      exact ⟨ha, List.forall_mem_cons.mpr ⟨⟨value, rfl⟩, hslots⟩⟩

theorem of_error {failure : Failure}
    (h : Awaits P Q slots (.error failure : Except Failure α)) :
    .error failure ∈ slots ∨ Q failure ∧ ∀ slot ∈ slots, ∃ value, slot = .ok value := by
  induction slots with
  | nil => exact .inr ⟨h, fun _ hmem => absurd hmem List.not_mem_nil⟩
  | cons slot slots ih =>
    cases slot with
    | error first =>
      obtain rfl := Except.error.inj (h : Except.error failure = .error first)
      exact .inl List.mem_cons_self
    | ok value =>
      rcases ih h with hmem | ⟨hfailure, hslots⟩
      · exact .inl (List.mem_cons_of_mem _ hmem)
      · exact .inr ⟨hfailure, List.forall_mem_cons.mpr ⟨⟨value, rfl⟩, hslots⟩⟩

theorem yields {x : Except Failure α} (h : Awaits P Q slots x) {Q' : Failure → Prop}
    (hown : ∀ failure, Q failure → Q' failure)
    (hslots : ∀ failure, .error failure ∈ slots → Q' failure) : Yields P Q' x := by
  cases x with
  | ok a => exact h.of_ok.1
  | error failure =>
    rcases h.of_error with hmem | ⟨hfailure, -⟩
    · exact hslots failure hmem
    · exact hown failure hfailure

theorem single {x : Except Failure Value} {P : Value → Prop}
    (hx : Yields P (fun _ => True) x) : Awaits P Q [x] x := by
  cases x with
  | ok value => exact hx
  | error failure => rfl

theorem bind {x : Except Failure Value} {f : Value → Except Failure α}
    (hf : ∀ value, x = .ok value → Awaits P Q slots (f value)) :
    Awaits P Q (x :: slots) (x >>= f) := by
  cases x with
  | ok value => exact hf value rfl
  | error failure => rfl

theorem inputAs {node : Node} {part? : Value → Option β} {make : β → Value} {type : ValueType}
    (hpart : Value.PartOf part? make type) {read : Nat → Except Failure Value} {index : Nat}
    (hread : Yields (fun value => value.type = type) (fun _ => True) (read index))
    {f : β → Except Failure α}
    (hf : ∀ part, read index = .ok (make part) → Awaits P Q slots (f part)) :
    Awaits P Q (read index :: slots) (node.inputAs part? read index >>= f) := by
  rw [Node.inputAs, bind_assoc]
  refine bind fun value hvalue => ?_
  rw [hvalue] at hread
  obtain ⟨part, rfl, hsome⟩ := hpart value hread
  rw [hsome]
  exact hf part hvalue

end Awaits

/-! ### Values that lead to no machine word -/

/-- Whether the values on the slots of a kind lead its operation to a number that is no machine
word: the number of samples of an image that is blurred, the position after a coordinate that a warp
looks at, or an edge of a cell of a caption. -/
def NodeKind.Overflows (kind : NodeKind) (read : Nat → Except Failure Value) : Prop :=
  match kind with
  | .gaussian => ∃ image k size, read 0 = .ok (.image image) ∧ read 1 = .ok (.int k) ∧
      Filter.kernelSize? k = some size ∧ 1 < size ∧
      UInt32.size ≤ image.width.toNat * image.height.toNat * 3
  | .movePixel => ∃ image x y, read 0 = .ok (.image image) ∧ read 1 = .ok (.int x) ∧
      read 2 = .ok (.int y) ∧
      Warp.Strays (Affine.shift (Float.ofInt x) (Float.ofInt y)) image.width image.height
  | .move => ∃ image px py, read 0 = .ok (.image image) ∧ read 1 = .ok (.float px) ∧
      read 2 = .ok (.float py) ∧
      Warp.Strays (Affine.shift (Node.percent image.width px) (Node.percent image.height py))
        image.width image.height
  | .rotate => ∃ image degrees, read 0 = .ok (.image image) ∧ read 1 = .ok (.float degrees) ∧
      Warp.Strays (Warp.turn image (Numeric.widened degrees)) image.width image.height
  | .addTextPixel => ∃ x y caption scale, read 1 = .ok (.int x) ∧ read 2 = .ok (.int y) ∧
      read 3 = .ok (.text caption) ∧ read 4 = .ok (.float scale) ∧
      ¬ Caption.Near caption x y (Caption.cellSize (Numeric.widened scale))
        (Caption.padding (Numeric.wholePart32 scale))
  | .addText => ∃ image px py caption scale, read 0 = .ok (.image image) ∧
      read 1 = .ok (.float px) ∧ read 2 = .ok (.float py) ∧ read 3 = .ok (.text caption) ∧
      read 4 = .ok (.float scale) ∧
      ¬ Caption.Near caption (Numeric.wholePart (Node.percent image.width px))
        (Numeric.wholePart (Node.percent image.height py))
        (Caption.cellSize (Numeric.widened scale)) (Caption.padding Node.percentThickness)
  | _ => False

namespace Node

variable {node : Node} {read : Nat → Except Failure Value}

/-- Whether a failure is that of the operation of a node: a parameter that cannot be used, or values
on the slots that lead to no machine word. -/
def OwnFailure (node : Node) (read : Nat → Except Failure Value) (failure : Failure) : Prop :=
  (∃ reason, failure = .fault (.invalidParameter node.id reason)) ∨
    failure = .broken .overflow ∧ node.kind.Overflows read

theorem ownFailure_invalid (reason : String) :
    node.OwnFailure read (.fault (.invalidParameter node.id reason)) :=
  .inl ⟨reason, rfl⟩

/-- What breaks the work on words off is that a number does not fit. -/
theorem onWords_yields {run : Except Numeric.WordFault (Raster Rgb)} {P : Raster Rgb → Prop}
    {Q : Prop} (hrun : Yields P (fun cause => cause = .overflow ∧ Q) run)
    (hoverflows : Q → node.kind.Overflows read) :
    Yields (fun _ => True) (node.OwnFailure read) (onWords run) := by
  cases run with
  | ok image => trivial
  | error cause =>
    obtain ⟨rfl, hq⟩ := hrun
    exact .inr ⟨rfl, hoverflows hq⟩

theorem source_yields (images : Images) (hdata : node.kind.holdsData) :
    Yields (fun value => value.type = node.kind.output) (node.OwnFailure read)
      (node.source images) := by
  unfold source
  cases hkind : node.kind with
  | int =>
    dsimp only
    split
    · rfl
    · exact ownFailure_invalid _
  | float =>
    dsimp only
    split
    · rfl
    · exact ownFailure_invalid _
  | string => rfl
  | image =>
    dsimp only
    split_ifs
    · exact ownFailure_invalid _
    · split
      · rfl
      · exact ownFailure_invalid _
  | _ =>
    rw [hkind] at hdata
    exact nomatch hdata

theorem blurred_yields {image : Raster Rgb} {k : Int}
    (hoverflows : (∃ size, Filter.kernelSize? k = some size ∧ 1 < size ∧
      UInt32.size ≤ image.width.toNat * image.height.toNat * 3) → node.kind.Overflows read) :
    Yields (fun _ => True) (node.OwnFailure read) (node.blurred image k) := by
  unfold blurred
  split
  · next size hsize =>
    refine onWords_yields (P := fun _ => True) ?_ hoverflows
    rw [Filter.gaussianWords_eq]
    split_ifs with hfits
    · trivial
    · obtain ⟨hone, hsamples⟩ := not_or.mp hfits
      exact ⟨rfl, size, hsize, UInt32.not_le.mp hone, Nat.not_lt.mp hsamples⟩
  · exact ownFailure_invalid _

theorem captioned_yields {image : Raster Rgb} {x y : Int} {caption : String} {scale : Float32}
    {thickness : Int}
    (hoverflows : ¬ Caption.Near caption x y (Caption.cellSize (Numeric.widened scale))
      (Caption.padding thickness) → node.kind.Overflows read) :
    Yields (fun _ => True) (node.OwnFailure read)
      (node.captioned image x y caption scale thickness) := by
  unfold captioned
  split_ifs
  · refine onWords_yields (P := fun _ => True) ?_ hoverflows
    obtain ⟨painted, hrun, -⟩ | ⟨hfar, hrun⟩ := Caption.runPaints_drawWords image caption x y
      (Numeric.widened scale) thickness captionColor
    · rw [hrun]
      trivial
    · rw [hrun]
      exact ⟨rfl, hfar⟩
  · exact ownFailure_invalid _

section Library

variable [ImageLibrary]

theorem scaledTo_yields (image : Raster Rgb) (x y : Int) :
    Yields (fun _ => True) (node.OwnFailure read) (node.scaledTo image x y) := by
  unfold scaledTo
  split_ifs
  · exact ownFailure_invalid _
  · exact ownFailure_invalid _
  · trivial

theorem scaledBy_yields (image : Raster Rgb) (px py : Float32) :
    Yields (fun _ => True) (node.OwnFailure read) (node.scaledBy image px py) := by
  dsimp only [scaledBy]
  split_ifs
  · exact ownFailure_invalid _
  · exact ownFailure_invalid _
  · trivial

/-- **An operation reads all slots of its kind in turn**, and fails by itself only when they all
have values. -/
theorem compute_awaits (images : Images)
    (hread : ∀ index type, (node.kind.inputs[index]?).map Slot.type = some type →
      Yields (fun value => value.type = type) (fun _ => True) (read index)) :
    Awaits (fun value => value.type = node.kind.valueType) (node.OwnFailure read)
      ((List.range node.kind.inputs.length).map read) (node.compute images read) := by
  have hsource (hdata : node.kind.holdsData) :
      Yields (fun value => value.type = node.kind.output) (node.OwnFailure read)
        (node.source images) :=
    source_yields images hdata
  unfold compute
  simp only [Failure.lift_eq]
  generalize hkind : node.kind = kind at hread hsource ⊢
  cases kind with
  | int | float | string | image => exact hsource rfl
  | endNode => exact .single (hread 0 .image rfl)
  | sepia | grey | invert =>
    exact .inputAs Value.image?_partOf (hread 0 .image rfl) fun _ _ => rfl
  | bright =>
    refine .inputAs Value.image?_partOf (hread 0 .image rfl) fun image _ => ?_
    exact .inputAs Value.float?_partOf (hread 1 .float rfl) fun _ _ => rfl
  | rotate =>
    refine .inputAs Value.image?_partOf (hread 0 .image rfl) fun image himage => ?_
    refine .inputAs Value.float?_partOf (hread 1 .float rfl) fun degrees hdegrees => ?_
    refine (onWords_yields (Warp.apply_yields ..) fun hstrays => ?_).bind fun _ _ => rfl
    rw [hkind]
    exact ⟨image, degrees, himage, hdegrees, hstrays⟩
  | gaussian =>
    refine .inputAs Value.image?_partOf (hread 0 .image rfl) fun image himage => ?_
    refine .inputAs Value.int?_partOf (hread 1 .int rfl) fun k hk => ?_
    refine (blurred_yields fun hsamples => ?_).bind fun _ _ => rfl
    obtain ⟨size, hsize⟩ := hsamples
    rw [hkind]
    exact ⟨image, k, size, himage, hk, hsize⟩
  | scalePixel =>
    refine .inputAs Value.image?_partOf (hread 0 .image rfl) fun image _ => ?_
    refine .inputAs Value.int?_partOf (hread 1 .int rfl) fun x _ => ?_
    refine .inputAs Value.int?_partOf (hread 2 .int rfl) fun y _ => ?_
    exact (scaledTo_yields image x y).bind fun _ _ => rfl
  | scale =>
    refine .inputAs Value.image?_partOf (hread 0 .image rfl) fun image _ => ?_
    refine .inputAs Value.float?_partOf (hread 1 .float rfl) fun px _ => ?_
    refine .inputAs Value.float?_partOf (hread 2 .float rfl) fun py _ => ?_
    exact (scaledBy_yields image px py).bind fun _ _ => rfl
  | movePixel =>
    refine .inputAs Value.image?_partOf (hread 0 .image rfl) fun image himage => ?_
    refine .inputAs Value.int?_partOf (hread 1 .int rfl) fun x hx => ?_
    refine .inputAs Value.int?_partOf (hread 2 .int rfl) fun y hy => ?_
    refine (onWords_yields (Warp.apply_yields ..) fun hstrays => ?_).bind fun _ _ => rfl
    rw [hkind]
    exact ⟨image, x, y, himage, hx, hy, hstrays⟩
  | move =>
    refine .inputAs Value.image?_partOf (hread 0 .image rfl) fun image himage => ?_
    refine .inputAs Value.float?_partOf (hread 1 .float rfl) fun px hpx => ?_
    refine .inputAs Value.float?_partOf (hread 2 .float rfl) fun py hpy => ?_
    refine (onWords_yields (Warp.apply_yields ..) fun hstrays => ?_).bind fun _ _ => rfl
    rw [hkind]
    exact ⟨image, px, py, himage, hpx, hpy, hstrays⟩
  | addTextPixel =>
    refine .inputAs Value.image?_partOf (hread 0 .image rfl) fun image _ => ?_
    refine .inputAs Value.int?_partOf (hread 1 .int rfl) fun x hx => ?_
    refine .inputAs Value.int?_partOf (hread 2 .int rfl) fun y hy => ?_
    refine .inputAs Value.text?_partOf (hread 3 .string rfl) fun caption hcaption => ?_
    refine .inputAs Value.float?_partOf (hread 4 .float rfl) fun scale hscale => ?_
    refine (captioned_yields fun hfar => ?_).bind fun _ _ => rfl
    rw [hkind]
    exact ⟨x, y, caption, scale, hx, hy, hcaption, hscale, hfar⟩
  | addText =>
    refine .inputAs Value.image?_partOf (hread 0 .image rfl) fun image himage => ?_
    refine .inputAs Value.float?_partOf (hread 1 .float rfl) fun px hpx => ?_
    refine .inputAs Value.float?_partOf (hread 2 .float rfl) fun py hpy => ?_
    refine .inputAs Value.text?_partOf (hread 3 .string rfl) fun caption hcaption => ?_
    refine .inputAs Value.float?_partOf (hread 4 .float rfl) fun scale hscale => ?_
    refine (captioned_yields fun hfar => ?_).bind fun _ _ => rfl
    rw [hkind]
    exact ⟨image, px, py, caption, scale, himage, hpx, hpy, hcaption, hscale, hfar⟩

/-- **An operation on slots of the right types gives a value of the right type**, where it does
not fail on a slot or by itself. -/
theorem compute_yields {Q : Failure → Prop}
    (hinvalid : ∀ reason, Q (.fault (.invalidParameter node.id reason)))
    (hoverflow : Q (.broken .overflow)) (images : Images)
    (hread : ∀ index type, (node.kind.inputs[index]?).map Slot.type = some type →
      Yields (fun value => value.type = type) Q (read index)) :
    Yields (fun value => value.type = node.kind.valueType) Q (node.compute images read) := by
  have hawaits := compute_awaits images fun index type htype =>
    (hread index type htype).imp fun _ _ => trivial
  refine hawaits.yields (fun failure hown => ?_) fun failure hslot => ?_
  · obtain ⟨reason, rfl⟩ | ⟨rfl, -⟩ := hown
    · exact hinvalid reason
    · exact hoverflow
  · obtain ⟨index, hindex, hfailure⟩ := List.mem_map.mp hslot
    have hyields := hread index _ (by rw [List.getElem?_eq_getElem (List.mem_range.mp hindex)]; rfl)
    rwa [hfailure] at hyields

end Library

end Node

end Darkroom
