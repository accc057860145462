import Darkroom.Proofs.Graph.Ancestors
import Darkroom.Proofs.Graph.Evaluation

/-!
# What the value of a node depends on

The value of a node follows from its kind and data, from its picture, and from the values of the
nodes linked to its slots. So if two graphs agree on these for some nodes (`Graph.AgreeOn`), and
whatever feeds one of the nodes is one of them (`Graph.Encloses`), they give each of the nodes the
same value or the same failure, whatever else they hold, wherever nodes stand and however nodes and
links are ordered and named (`Graph.AgreeOn.evaluate_eq`). The smallest such nodes are a node and
its ancestors.

An edit that spares these nodes (`Graph.Edit.Spares`) leads to a graph that agrees on them. They
are as closed in that graph as before, so any number of such edits does.

## Main definitions

* `Graph.AgreeOn`, `Graph.Encloses` : graphs that are the same for some nodes, and nodes that are
  fed only by each other.
* `Graph.Edit.Spares` : edits that leave some nodes alone.

## Main results

* `Graph.AgreeOn.evaluate_eq` : equal values in graphs that agree.
* `Graph.WellFormed.agreeOn_apply`, `Graph.WellFormed.agreeOn_edits` : graphs agree with what one
  edit, and any number of edits, make of them.
* `Graph.evaluate_depends_on_cone` : both for the ancestors of a node in reachable graphs.
-/

namespace Darkroom

open Relation

/-! ### One node -/

section Compute

variable {node node' : Node} {images images' : Images}

theorem Node.source_congr (hid : node.id = node'.id) (hkind : node.kind = node'.kind)
    (hdata : node.data = node'.data) (himage : images.get? node.id = images'.get? node.id) :
    node.source images = node'.source images' := by
  unfold Node.source Node.invalid
  rw [himage, hid, hkind, hdata]

/-- Where a node stands makes no difference to its value, and of the pictures only its own does. -/
theorem Node.compute_congr [ImageLibrary] {m : Type → Type} [Monad m] [MonadExceptOf Failure m]
    (hid : node.id = node'.id) (hkind : node.kind = node'.kind) (hdata : node.data = node'.data)
    (himage : images.get? node.id = images'.get? node.id) (read : Nat → m Value) :
    node.compute images read = node'.compute images' read := by
  have hsource := Node.source_congr hid hkind hdata himage
  obtain ⟨id, kind, position, data⟩ := node
  obtain ⟨id', kind', position', data'⟩ := node'
  obtain rfl : id = id' := hid
  obtain rfl : kind = kind' := hkind
  obtain rfl : data = data' := hdata
  cases kind with
  | int | float | string | image => exact congrArg Failure.lift hsource
  | _ => rfl

end Compute

namespace Graph

variable {g g' : Graph} {images images' : Images} {ids : String → Prop}

/-! ### Graphs that agree on some nodes -/

/-- Whether a link leads from a node into a slot of another. -/
def Links (g : Graph) (producer consumer slot : String) : Prop :=
  ∃ link ∈ g.links, link.producer = producer ∧ link.consumer = consumer ∧ link.slot = slot

instance (producer consumer slot : String) : Decidable (g.Links producer consumer slot) :=
  inferInstanceAs (Decidable (∃ link ∈ g.links, _))

/-- Whether two graphs with pictures are the same for some identifiers: a node of the first is in
the second with its kind and data, the same nodes are linked to its slots, and it has the same
picture. -/
structure AgreeOn (ids : String → Prop) (g g' : Graph) (images images' : Images) : Prop where
  nodes : ∀ node ∈ g.nodes, ids node.id →
    ∃ node' ∈ g'.nodes, node'.id = node.id ∧ node'.kind = node.kind ∧ node'.data = node.data
  links : ∀ producer consumer slot, ids consumer →
    (g.Links producer consumer slot ↔ g'.Links producer consumer slot)
  images : ∀ id, ids id → images.get? id = images'.get? id

/-- Whether whatever feeds one of some nodes is one of them. -/
def Encloses (g : Graph) (ids : String → Prop) : Prop :=
  ∀ producer consumer, ids consumer → g.Feeds producer consumer → ids producer

theorem exists_links_iff_feeds {producer consumer : String} :
    (∃ slot, g.Links producer consumer slot) ↔ g.Feeds producer consumer := by
  constructor
  · rintro ⟨slot, link, hlink, hproducer, hconsumer, -⟩
    exact ⟨link, hlink, hproducer, hconsumer⟩
  · rintro ⟨link, hlink, hproducer, hconsumer⟩
    exact ⟨link.slot, link, hlink, hproducer, hconsumer, rfl⟩

theorem WellFormed.links_iff (h : g.WellFormed) {producer consumer slot : String} :
    g.Links producer consumer slot ↔
      (g.linkInto? consumer slot).map Link.producer = some producer := by
  rw [Option.map_eq_some_iff]
  constructor
  · rintro ⟨link, hlink, hproducer, hends⟩
    exact ⟨link, h.linkInto?_eq_some_iff.mpr ⟨hlink, hends⟩, hproducer⟩
  · rintro ⟨link, hlink, hproducer⟩
    obtain ⟨hmem, hends⟩ := h.linkInto?_eq_some_iff.mp hlink
    exact ⟨link, hmem, hproducer, hends⟩

/-- A slot is read from the node that is linked to it, by whatever link. -/
theorem input_congr {value value' : String → Except Failure Value} {node node' : Node}
    (hid : node.id = node'.id) (hkind : node.kind = node'.kind)
    (hlinks : ∀ slot, (g.linkInto? node.id slot).map Link.producer =
      (g'.linkInto? node'.id slot).map Link.producer)
    (hvalue : ∀ producer, g.Feeds producer node.id → value producer = value' producer)
    (index : Nat) : g.input value node index = g'.input value' node' index := by
  rw [input, input, hkind]
  cases node'.kind.inputs[index]? with
  | none => rw [hid]
  | some slot =>
    dsimp only
    have hproducer := hlinks slot.name
    cases hlink : g.linkInto? node.id slot.name with
    | none =>
      rw [hlink, Option.map_none, eq_comm, Option.map_eq_none_iff] at hproducer
      rw [hproducer, hid]
    | some link =>
      rw [hlink, Option.map_some, eq_comm, Option.map_eq_some_iff] at hproducer
      obtain ⟨link', hlink', heq⟩ := hproducer
      have hfeeds : g.Feeds link.producer node.id := by
        have hends := List.find?_some hlink
        simp only [decide_eq_true_eq] at hends
        exact ⟨link, List.mem_of_find?_eq_some hlink, rfl, hends.1⟩
      rw [hlink']
      dsimp only
      rw [heq, hvalue _ hfeeds, hid]

namespace AgreeOn

theorem refl (ids : String → Prop) (g : Graph) (images : Images) :
    AgreeOn ids g g images images where
  nodes node hnode _ := ⟨node, hnode, rfl, rfl, rfl⟩
  links _ _ _ _ := Iff.rfl
  images _ _ := rfl

theorem trans {g'' : Graph} {images'' : Images} (hfirst : AgreeOn ids g g' images images')
    (hsecond : AgreeOn ids g' g'' images' images'') : AgreeOn ids g g'' images images'' where
  nodes node hnode hid := by
    obtain ⟨node', hnode', hid', hkind', hdata'⟩ := hfirst.nodes node hnode hid
    obtain ⟨node'', hnode'', hid'', hkind'', hdata''⟩ :=
      hsecond.nodes node' hnode' (hid'.symm ▸ hid)
    exact ⟨node'', hnode'', hid''.trans hid', hkind''.trans hkind', hdata''.trans hdata'⟩
  links producer consumer slot hconsumer :=
    (hfirst.links producer consumer slot hconsumer).trans
      (hsecond.links producer consumer slot hconsumer)
  images id hid := (hfirst.images id hid).trans (hsecond.images id hid)

variable (hagree : AgreeOn ids g g' images images')

include hagree

theorem feeds_iff {producer consumer : String} (hconsumer : ids consumer) :
    g.Feeds producer consumer ↔ g'.Feeds producer consumer := by
  rw [← exists_links_iff_feeds, ← exists_links_iff_feeds]
  exact exists_congr fun slot => hagree.links producer consumer slot hconsumer

theorem encloses (hclosed : g.Encloses ids) : g'.Encloses ids := fun _ _ hconsumer hfeeds =>
  hclosed _ _ hconsumer ((hagree.feeds_iff hconsumer).mpr hfeeds)

/-- A node has the same ancestors in both graphs. -/
theorem chain_iff (hclosed : g.Encloses ids) {id other : String} (hid : ids id) :
    ReflTransGen g.Feeds other id ↔ ReflTransGen g'.Feeds other id := by
  have hchain {a b : Graph} (ha : a.Encloses ids)
      (hfeeds : ∀ {producer consumer}, ids consumer → a.Feeds producer consumer →
        b.Feeds producer consumer) (hother : ReflTransGen a.Feeds other id) :
      ids other ∧ ReflTransGen b.Feeds other id := by
    induction hother using ReflTransGen.head_induction_on with
    | refl => exact ⟨hid, .refl⟩
    | head hstep _ ih => exact ⟨ha _ _ ih.1 hstep, .head (hfeeds ih.1 hstep) ih.2⟩
  constructor
  · exact fun hother => (hchain hclosed (fun hid => (hagree.feeds_iff hid).mp) hother).2
  · exact fun hother =>
      (hchain (hagree.encloses hclosed) (fun hid => (hagree.feeds_iff hid).mpr) hother).2

variable (h : g.WellFormed) (h' : g'.WellFormed)

include h h'

theorem linkInto?_eq {consumer : String} (hconsumer : ids consumer) (slot : String) :
    (g.linkInto? consumer slot).map Link.producer =
      (g'.linkInto? consumer slot).map Link.producer := by
  refine Option.ext fun producer => ?_
  rw [← h.links_iff, ← h'.links_iff]
  exact hagree.links producer consumer slot hconsumer

/-- **Graphs that agree on some nodes and on all that feeds them give them the same values.** -/
theorem evaluate_eq [ImageLibrary] (hclosed : g.Encloses ids) {node : Node} (hnode : node ∈ g.nodes)
    (hid : ids node.id) : g.evaluate node.id images = g'.evaluate node.id images' := by
  revert hid
  refine h.induction_along_links (motive := fun node => ids node.id →
    g.evaluate node.id images = g'.evaluate node.id images') (fun node hnode ih hid => ?_) hnode
  obtain ⟨node', hnode', hsame, hkind, hdata⟩ := hagree.nodes node hnode hid
  have hvalue (producer : String) (hfeeds : g.Feeds producer node.id) :
      g.evaluate producer images = g'.evaluate producer images' := by
    obtain ⟨source, hsource, rfl⟩ := List.mem_map.mp (h.mem_nodes_of_feeds hfeeds)
    exact ih source hsource hfeeds (hclosed _ _ hid hfeeds)
  have hlinks (slot : String) : (g.linkInto? node.id slot).map Link.producer =
      (g'.linkInto? node'.id slot).map Link.producer := by
    rw [hsame]
    exact hagree.linkInto?_eq h h' hid slot
  have hread := input_congr hsame.symm hkind.symm hlinks hvalue
  have himage := hagree.images node.id hid
  calc g.evaluate node.id images
      = node.compute images (g.input (fun id => g.evaluate id images) node) :=
        (h.describes_evaluate images).eq_compute (h.evaluated_eq hnode)
    _ = node'.compute images' (g'.input (fun id => g'.evaluate id images') node') := by
        rw [Node.compute_congr hsame.symm hkind.symm hdata.symm himage, funext hread]
    _ = g'.evaluate node.id images' := by
        rw [← hsame]
        exact ((h'.describes_evaluate images').eq_compute (h'.evaluated_eq hnode')).symm

end AgreeOn

/-! ### Edits that spare some nodes -/

/-- Whether an edit leaves some nodes and the links into them as they are. -/
def Edit.Spares (ids : String → Prop) : Edit → Prop
  | .addNode _ | .create _ _ | .setPosition _ _ => True
  | .setData id _ | .removeNode id => ¬ ids id
  | .connect _ consumer _ | .disconnect consumer _ => ¬ ids consumer
  | .reload _ => False

instance [DecidablePred ids] : (edit : Edit) → Decidable (edit.Spares ids)
  | .addNode _ | .create _ _ | .setPosition _ _ => inferInstanceAs (Decidable True)
  | .setData id _ | .removeNode id => inferInstanceAs (Decidable (¬ ids id))
  | .connect _ consumer _ | .disconnect consumer _ => inferInstanceAs (Decidable (¬ ids consumer))
  | .reload _ => inferInstanceAs (Decidable False)

theorem AgreeOn.of_mem (hnodes : ∀ node ∈ g.nodes, ids node.id → node ∈ g'.nodes)
    (hlinks : ∀ link : Link, ids link.consumer → (link ∈ g.links ↔ link ∈ g'.links)) :
    AgreeOn ids g g' images images where
  nodes node hnode hid := ⟨node, hnodes node hnode hid, rfl, rfl, rfl⟩
  links producer consumer slot hconsumer := by
    refine exists_congr fun link => and_congr_left ?_
    rintro ⟨-, rfl, -⟩
    exact hlinks link hconsumer
  images _ _ := rfl

theorem AgreeOn.addNode {kind : NodeKind} {id : String} (hadd : g.addNode kind = .ok (id, g')) :
    AgreeOn ids g g' images images := by
  obtain ⟨-, -, hlinks, hnodes⟩ := addNode_eq_ok hadd
  refine .of_mem (fun node hnode _ => ?_) fun link _ => by rw [hlinks]
  rw [hnodes]
  exact List.mem_append_left _ hnode

theorem AgreeOn.modifyNode {id : String} {change : Node → Node}
    (hchange : ∀ node, (change node).id = node.id ∧ (change node).kind = node.kind ∧
      (ids node.id → node.id = id → (change node).data = node.data)) :
    AgreeOn ids g { g with nodes := Graph.modifyNode id change g.nodes } images images where
  nodes node hnode hid := by
    rcases exists_mem_modifyNode change id hnode with hkept | ⟨hchanged, hmem⟩
    · exact ⟨node, hkept, rfl, rfl, rfl⟩
    · obtain ⟨hsame, hkind, hdata⟩ := hchange node
      exact ⟨change node, hmem, hsame, hkind, hdata hid hchanged⟩
  links _ _ _ _ := Iff.rfl
  images _ _ := rfl

/-- The links that go with a removed node lead neither into nodes that are spared, nor from them,
as these are not fed by it. -/
theorem AgreeOn.removeNode (hclosed : g.Encloses ids) {id : String} (hid : ¬ ids id) {node : Node}
    (hremove : g.removeNode id = .ok (node, g')) : AgreeOn ids g g' images images := by
  obtain ⟨-, -, hnodes, hlinks⟩ := removeNode_eq_ok hremove
  refine .of_mem (fun other hother hspared => ?_) fun link hspared => ?_
  · have hne : other.id ≠ id := fun heq => hid (heq ▸ hspared)
    rw [hnodes, List.mem_eraseP_of_neg (by simpa using hne)]
    exact hother
  · rw [hlinks, List.mem_filter, decide_eq_true_eq]
    refine ⟨fun hlink => ⟨hlink, fun heq => hid (heq ▸ hspared), fun heq => hid ?_⟩, And.left⟩
    exact heq ▸ hclosed _ _ hspared ⟨link, hlink, rfl, rfl⟩

namespace WellFormed

variable (h : g.WellFormed)

include h

theorem mem_withoutLinkInto_iff {consumer slot : String} (hconsumer : ¬ ids consumer) {link : Link}
    (hspared : ids link.consumer) : link ∈ g.withoutLinkInto consumer slot ↔ link ∈ g.links := by
  rw [mem_withoutLinkInto h.one_link, and_iff_left]
  exact fun hends => hconsumer (hends.1 ▸ hspared)

theorem agreeOn_connect (images : Images) (producer : String) {consumer : String} (slot : String)
    (hconsumer : ¬ ids consumer) :
    AgreeOn ids g (g.connect producer consumer slot).2 images images := by
  rcases g.connect_eq producer consumer slot with hrefused | hlink
  · rw [hrefused]
    exact .of_mem (fun _ hnode _ => hnode) fun _ _ => Iff.rfl
  · obtain ⟨-, -, -, hlinked⟩ := Graph.insertLink_eq_ok_iff.mp hlink
    rw [hlinked]
    refine .of_mem (fun _ hnode _ => hnode) fun link hspared => ?_
    have hold : link ∈ g.withoutLinkInto consumer slot ↔ link ∈ g.links :=
      h.mem_withoutLinkInto_iff hconsumer hspared
    refine ⟨fun hmem => List.mem_append_left _ (hold.mpr hmem), fun hmem => ?_⟩
    rcases List.mem_append.mp hmem with hmem | hmem
    · exact hold.mp hmem
    · rw [List.mem_singleton.mp hmem] at hspared
      exact absurd hspared hconsumer

theorem agreeOn_disconnect (images : Images) {consumer slot : String} (hconsumer : ¬ ids consumer)
    {link : Link} (hcut : g.disconnect consumer slot = some (link, g')) :
    AgreeOn ids g g' images images := by
  obtain ⟨found, -, heq⟩ := Option.map_eq_some_iff.mp hcut
  obtain ⟨-, rfl⟩ := Prod.mk.inj heq
  refine .of_mem (fun _ hnode _ => hnode) fun link hspared => ?_
  exact (h.mem_withoutLinkInto_iff hconsumer hspared).symm

/-- **An edit that spares some nodes leads to a graph that agrees on them.** -/
theorem agreeOn_apply (images : Images) (hclosed : g.Encloses ids) {edit : Edit}
    (hedit : edit.Spares ids) : AgreeOn ids g (g.apply edit) images images := by
  have hself := AgreeOn.refl ids g images
  have of_ok {x : Except Fault Graph}
      (hok : ∀ g', x = .ok g' → AgreeOn ids g g' images images) :
      AgreeOn ids g (x.toOption.getD g) images images :=
    getD_of_ok (P := (AgreeOn ids g · images images)) hself hok
  have of_ok_snd {α : Type} {x : Except Fault (α × Graph)}
      (hok : ∀ a g', x = .ok (a, g') → AgreeOn ids g g' images images) :
      AgreeOn ids g ((x.toOption.map Prod.snd).getD g) images images :=
    getD_of_ok_snd (P := (AgreeOn ids g · images images)) hself hok
  cases edit with
  | addNode kind => exact of_ok_snd fun _ _ hadd => .addNode hadd
  | create registry name =>
    refine of_ok_snd fun _ _ hcreate => ?_
    obtain ⟨kind, hadd⟩ := create_eq_ok hcreate
    exact .addNode hadd
  | setData id data =>
    refine of_ok fun _ hset => ?_
    rw [setData_eq_ok hset]
    exact .modifyNode fun node => ⟨rfl, rfl, fun hid heq => absurd (heq ▸ hid) hedit⟩
  | setPosition id position =>
    refine of_ok fun _ hset => ?_
    rw [setPosition_eq_ok hset]
    exact .modifyNode fun node => ⟨rfl, rfl, fun _ _ => rfl⟩
  | removeNode id => exact of_ok_snd fun _ _ hremove => .removeNode hclosed hedit hremove
  | connect producer consumer slot => exact h.agreeOn_connect images producer slot hedit
  | disconnect consumer slot =>
    rw [Graph.apply]
    cases hcut : g.disconnect consumer slot with
    | none => exact hself
    | some result => exact h.agreeOn_disconnect images hedit hcut
  | reload registry => exact hedit.elim

/-- Any number of edits that spare some nodes leads to a graph that agrees on them. -/
theorem agreeOn_edits (images : Images) (hclosed : g.Encloses ids) {edits : List Edit}
    (hedits : ∀ edit ∈ edits, edit.Spares ids) :
    AgreeOn ids g (edits.foldl Graph.apply g) images images := by
  induction edits generalizing g with
  | nil => exact .refl ids g images
  | cons edit rest ih =>
    obtain ⟨hedit, hrest⟩ := List.forall_mem_cons.mp hedits
    have hfirst := h.agreeOn_apply images hclosed hedit
    exact hfirst.trans (ih (h.apply edit) (hfirst.encloses hclosed) hrest)

theorem encloses_cone (id : String) : g.Encloses (· ∈ g.cone id) := by
  intro producer consumer hconsumer hfeeds
  exact h.mem_cone.mpr (.head hfeeds (h.mem_cone.mp hconsumer))

end WellFormed

/-! ### Reachable graphs -/

/-- **The value of a node depends on what feeds it, and on nothing else.** If a reachable graph and
pictures agree with others on a node and all its ancestors, then the node has the same ancestors in
the other graph, and the same value or failure. So none of the edits that move or add nodes, that
change or remove other nodes than these, or that link or cut inputs of other nodes ever change
it. -/
theorem evaluate_depends_on_cone [ImageLibrary] (h : g.Reachable) {id : String}
    (hid : id ∈ g.nodes.map Node.id) :
    (∀ g' : Graph, g'.Reachable → ∀ images images',
      AgreeOn (· ∈ g.cone id) g g' images images' →
        (∀ other, other ∈ g.cone id ↔ other ∈ g'.cone id) ∧
        g.evaluate id images = g'.evaluate id images') ∧
    ∀ edits : List Edit, (∀ edit ∈ edits, edit.Spares (· ∈ g.cone id)) →
      ∀ images, (edits.foldl apply g).evaluate id images = g.evaluate id images := by
  have hg := h.wellFormed
  have hclosed := hg.encloses_cone id
  have hself : id ∈ g.cone id := List.mem_cons_self
  obtain ⟨node, hnode, rfl⟩ := List.mem_map.mp hid
  refine ⟨fun g' h' images images' hagree => ⟨fun other => ?_, ?_⟩, fun edits hedits images => ?_⟩
  · rw [hg.mem_cone, h'.wellFormed.mem_cone]
    exact hagree.chain_iff hclosed hself
  · exact hagree.evaluate_eq hg h'.wellFormed hclosed hnode hself
  · have hagree := hg.agreeOn_edits images hclosed hedits
    exact (hagree.evaluate_eq hg (h.edits edits).wellFormed hclosed hnode hself).symm

/-- The picture and the number of `shiftFlow`, linked to the filter the other way round; there is a
second picture, and nothing arrives at the end node. -/
def rearrangedFlow : Graph :=
  [Edit.addNode .image, .addNode .int, .addNode .movePixel, .addNode .image,
    .connect "int-2" "move_pixel-3" "thirdLink", .connect "int-2" "move_pixel-3" "secondLink",
    .setData "image-1" "photo.png", .setData "image-4" "other.png",
    .setPosition "move_pixel-3" ⟨40, 20⟩,
    .connect "image-1" "move_pixel-3" "firstLink"].foldl apply Graph.new

theorem rearrangedFlow_reachable : rearrangedFlow.Reachable :=
  Reachable.new.edits _

/-- Pictures for both image nodes of `rearrangedFlow`. -/
def twoPictures : Images := ("image-4", Raster.solid 2 1 ⟨10, 20, 30⟩) :: onePixel

theorem agreeOn_rearrangedFlow :
    AgreeOn (· ∈ shiftFlow.cone "move_pixel-3") shiftFlow rearrangedFlow onePixel twoPictures where
  nodes := by decide +kernel
  links := by
    have hkept : ∀ link ∈ shiftFlow.links, link.consumer ∈ shiftFlow.cone "move_pixel-3" →
        rearrangedFlow.Links link.producer link.consumer link.slot := by decide +kernel
    have hnew : ∀ link ∈ rearrangedFlow.links, link.consumer ∈ shiftFlow.cone "move_pixel-3" →
        shiftFlow.Links link.producer link.consumer link.slot := by decide +kernel
    intro producer consumer slot hconsumer
    constructor
    · rintro ⟨link, hlink, rfl, rfl, rfl⟩
      exact hkept link hlink hconsumer
    · rintro ⟨link, hlink, rfl, rfl, rfl⟩
      exact hnew link hlink hconsumer
  images := by
    have hother : "image-4" ∉ shiftFlow.cone "move_pixel-3" := by decide +kernel
    intro id hid
    have hne : id ≠ "image-4" := fun heq => hother (heq ▸ hid)
    rw [twoPictures, Images.get?, Images.get?, List.lookup_cons, beq_false_of_ne hne]

/-- Edits of `shiftFlow` after which the filter stands elsewhere and does not feed the end node. -/
def filterSparingEdits : List Edit :=
  [.setPosition "move_pixel-3" ⟨40, 20⟩, .addNode .bright,
    .connect "image-1" "bright-9" "firstLink", .connect "bright-9" "endNode" "firstLink",
    .addNode .float, .removeNode "float-12", .disconnect "endNode" "firstLink"]

theorem shiftFlow_filter_unchanged :
    (∃ found, shiftFlow.evaluate "move_pixel-3" onePixel = .ok found ∧
      rearrangedFlow.evaluate "move_pixel-3" twoPictures = .ok found) ∧
    (filterSparingEdits.foldl apply shiftFlow).evaluate "move_pixel-3" onePixel =
      shiftFlow.evaluate "move_pixel-3" onePixel := by
  have hfilter : "move_pixel-3" ∈ shiftFlow.nodes.map Node.id := by decide +kernel
  obtain ⟨hgraphs, hedits⟩ := evaluate_depends_on_cone shiftFlow_reachable hfilter
  have hspared : ∀ edit ∈ filterSparingEdits, edit.Spares (· ∈ shiftFlow.cone "move_pixel-3") := by
    decide +kernel
  obtain ⟨found, hfound⟩ :=
    exists_of_isOk (x := shiftFlow.evaluate "move_pixel-3" onePixel) (by decide +kernel)
  have hsame := (hgraphs _ rearrangedFlow_reachable _ _ agreeOn_rearrangedFlow).2
  exact ⟨⟨found, hfound, hsame ▸ hfound⟩, hedits _ hspared onePixel⟩

end Graph

end Darkroom
