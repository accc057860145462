import Darkroom.Proofs.Graph.Evaluation
import Mathlib.Data.List.Chain

/-!
# The calls of evaluation

Evaluation of a node calls evaluation of the nodes linked to it, to a depth that is not known
beforehand. Here it is taken apart into single moments without any bound on the depth: the call
that is worked on, the calls that wait for one another, and the table (`Moment`). A moment has at
most one next one (`Graph.next?`), so that evaluation ends exactly when the moments do.

The calls under way form a chain of links, each node feeding the one whose call waits for it
(`Graph.Orderly`). As no chain of links is closed, they are calls of different nodes; and since a
producer is fed by fewer nodes than its consumer, the calls come to an end, with the answer and the
table of `Graph.eval` (`Graph.WellFormed.steps_eval`).

## Main definitions

* `Calling` : computations that call nodes for their values.
* `Moment`, `Graph.next?` : evaluation at a moment, and the moment after it.
* `Moment.underWay` : the nodes whose calls are under way.
* `Graph.Completes`, `Graph.AnswersInTurn` : calls that end, with few calls under way at all times.

## Main results

* `Graph.WellFormed.completes` : every call ends, from any table.
* `Graph.evaluation_ends` : evaluation, rendering and the status of nodes end.
-/

namespace Darkroom

open Relation

/-! ### Computations that call nodes -/

/-- A computation that ends with a result, or calls a node and goes on with the answer. -/
inductive Calling (α : Type) where
  | ends (result : Except Failure α)
  | calls (id : String) (next : Except Failure Value → Calling α)

namespace Calling

variable {α β : Type}

/-- The value of a node, by calling it. -/
def call (id : String) : Calling Value := .calls id .ends

/-- One computation after another, which begins with the value of the first. -/
def bind (f : α → Calling β) : Calling α → Calling β
  | ends (.ok a) => f a
  | ends (.error failure) => ends (.error failure)
  | calls id next => calls id fun answer => (next answer).bind f

/-- A computation with another one in place of its failure. -/
def rescue (f : Failure → Calling α) : Calling α → Calling α
  | ends (.ok a) => ends (.ok a)
  | ends (.error failure) => f failure
  | calls id next => calls id fun answer => (next answer).rescue f

instance : Monad Calling where
  pure a := ends (.ok a)
  bind x f := x.bind f

instance : MonadExceptOf Failure Calling where
  throw failure := ends (.error failure)
  tryCatch x f := x.rescue f

/-- Whether a computation calls no nodes but those of a kind, whatever they answer. -/
def Within (P : String → Prop) : Calling α → Prop
  | ends _ => True
  | calls id next => P id ∧ ∀ answer, (next answer).Within P

theorem within_congruent (P : String → Prop) :
    Congruent fun α (x _ : Calling α) => x.Within P where
  pure _ := trivial
  throw _ := trivial
  bind {α β x _ f _} hx hf := by
    change (x.bind f).Within P
    induction x with
    | ends result =>
      cases result with
      | ok a => exact hf a
      | error failure => trivial
    | calls id next ih => exact ⟨hx.1, fun answer => ih answer (hx.2 answer)⟩

/-- Performs a computation, where `fetch` answers the calls. -/
def perform (fetch : String → Evaluation Value) : Calling α → Evaluation α
  | ends result => Failure.lift result
  | calls id next => ExceptT.mk do
    let answer ← (fetch id).run
    ((next answer).perform fetch).run

/-- A computation is performed by performing its steps, and a call by the evaluation it calls. -/
theorem perform_congruent (fetch : String → Evaluation Value) :
    Congruent fun α (x : Calling α) (y : Evaluation α) => x.perform fetch = y where
  pure _ := rfl
  throw _ := rfl
  bind {α β x _ f _} hx hf := by
    subst hx
    rw [← funext hf]
    change (x.bind f).perform fetch = _
    induction x with
    | ends result => cases result <;> rfl
    | calls id next ih =>
      funext memo
      exact congrFun (ih ((fetch id).run.run memo).1) ((fetch id).run.run memo).2

theorem perform_call (fetch : String → Evaluation Value) (id : String) :
    (call id).perform fetch = fetch id := by
  funext memo
  change (Failure.lift ((fetch id).run.run memo).1 : Evaluation Value).run.run
    ((fetch id).run.run memo).2 = (fetch id).run.run memo
  generalize (fetch id).run.run memo = result
  obtain ⟨answer, after⟩ := result
  cases answer <;> rfl

end Calling

/-! ### Moments of evaluation -/

/-- A call that waits for the answer of another one. -/
structure Waiting where
  id : String
  next : Except Failure Value → Calling Value

/-- What evaluation is at: a call begins, is worked on, or has been answered. -/
inductive Turn where
  | enter (id : String)
  | work (id : String) (rest : Calling Value)
  | leave (answer : Except Failure Value)

/-- Evaluation at a moment: what it is at, the calls that wait, the innermost first, and the
table. -/
structure Moment where
  turn : Turn
  waiting : List Waiting
  memo : Memo

namespace Moment

/-- The first moment of a call. -/
def start (id : String) (memo : Memo) : Moment := ⟨.enter id, [], memo⟩

/-- The last moment of a call that no other one waits for. -/
def done (answer : Except Failure Value) (memo : Memo) : Moment := ⟨.leave answer, [], memo⟩

/-- The nodes whose calls are under way, the innermost first. -/
def underWay (m : Moment) : List String :=
  match m.turn with
  | .enter id | .work id _ => id :: m.waiting.map Waiting.id
  | .leave _ => m.waiting.map Waiting.id

end Moment

namespace Graph

section Running

variable [ImageLibrary] {g : Graph} {images : Images}

/-- The next moment. A call is answered from the table or worked on; what it calls is called; and
its value is kept in the table when it ends. -/
def next? (g : Graph) (images : Images) : Moment → Option Moment
  | ⟨.enter id, waiting, memo⟩ =>
    match memo.lookup id with
    | some value => some ⟨.leave (.ok value), waiting, memo⟩
    | none =>
      match g.evaluated id with
      | .ok node => some ⟨.work id (node.compute images (g.input Calling.call node)), waiting, memo⟩
      | .error failure => some ⟨.leave (.error failure), waiting, memo⟩
  | ⟨.work id (.calls producer next), waiting, memo⟩ =>
    some ⟨.enter producer, ⟨id, next⟩ :: waiting, memo⟩
  | ⟨.work id (.ends (.ok value)), waiting, memo⟩ =>
    some ⟨.leave (.ok value), waiting, (id, value) :: memo⟩
  | ⟨.work _ (.ends (.error failure)), waiting, memo⟩ =>
    some ⟨.leave (.error failure), waiting, memo⟩
  | ⟨.leave answer, ⟨id, next⟩ :: waiting, memo⟩ => some ⟨.work id (next answer), waiting, memo⟩
  | ⟨.leave _, [], _⟩ => none

/-- Whether a moment follows another one, at once or later. -/
def Steps (g : Graph) (images : Images) : Moment → Moment → Prop :=
  ReflTransGen fun m m' => g.next? images m = some m'

/-! ### Few calls are under way -/

/-- Whether the calls under way form a chain of links, and what is left of each calls only nodes
that feed its node. -/
structure Orderly (g : Graph) (m : Moment) : Prop where
  chain : m.underWay.IsChain g.Feeds
  working : ∀ id rest, m.turn = .work id rest → rest.Within (g.Feeds · id)
  waiting : ∀ call ∈ m.waiting, ∀ answer, (call.next answer).Within (g.Feeds · call.id)

omit [ImageLibrary] in
theorem Orderly.start (id : String) (memo : Memo) : g.Orderly (.start id memo) :=
  ⟨List.isChain_singleton id, nofun, nofun⟩

/-- The computation of a node calls only nodes that feed it. -/
theorem within_compute (images : Images) {id : String} {node : Node}
    (hnode : g.evaluated id = .ok node) :
    (node.compute images (g.input Calling.call node)).Within (g.Feeds · id) := by
  have hcongruent := Calling.within_congruent (g.Feeds · id)
  have hcall : ∀ producer, g.Feeds producer id → (Calling.call producer).Within (g.Feeds · id) :=
    fun _ hfeeds => ⟨hfeeds, fun _ => trivial⟩
  -- The relation looks at one computation only, so the other one has to be given.
  exact @compute_related g images _ _ _ _ _ _ _ _ hcongruent _ Calling.call id node hnode hcall

theorem Orderly.next {m m' : Moment} (h : g.Orderly m) (hnext : g.next? images m = some m') :
    g.Orderly m' := by
  obtain ⟨turn, waiting, memo⟩ := m
  obtain ⟨hchain, hworking, hwaiting⟩ := h
  have hwait : (waiting.map Waiting.id).IsChain g.Feeds := by
    cases turn with
    | enter id => exact hchain.tail
    | work id rest => exact hchain.tail
    | leave answer => exact hchain
  have hleave : ∀ answer memo, g.Orderly ⟨.leave answer, waiting, memo⟩ :=
    fun _ _ => ⟨hwait, nofun, hwaiting⟩
  cases turn with
  | enter id =>
    rw [next?] at hnext
    split at hnext
    · obtain rfl := Option.some.inj hnext
      exact hleave _ _
    · split at hnext
      · next node hnode =>
        obtain rfl := Option.some.inj hnext
        refine ⟨hchain, fun _ _ heq => ?_, hwaiting⟩
        obtain ⟨rfl, rfl⟩ := Turn.work.inj heq
        exact within_compute images hnode
      · obtain rfl := Option.some.inj hnext
        exact hleave _ _
  | work id rest =>
    cases rest with
    | ends result =>
      cases result with
      | ok value =>
        obtain rfl := Option.some.inj hnext
        exact hleave _ _
      | error failure =>
        obtain rfl := Option.some.inj hnext
        exact hleave _ _
    | calls producer next =>
      obtain rfl := Option.some.inj hnext
      obtain ⟨hfeeds, hrest⟩ := hworking id _ rfl
      refine ⟨List.isChain_cons_cons.mpr ⟨hfeeds, hchain⟩, nofun, ?_⟩
      exact List.forall_mem_cons.mpr ⟨hrest, hwaiting⟩
  | leave answer =>
    cases waiting with
    | nil => exact nomatch hnext
    | cons call waiting =>
      obtain rfl := Option.some.inj hnext
      obtain ⟨hcall, hothers⟩ := List.forall_mem_cons.mp hwaiting
      refine ⟨hchain, fun _ _ heq => ?_, hothers⟩
      obtain ⟨rfl, rfl⟩ := Turn.work.inj heq
      exact hcall answer

theorem Orderly.steps {m m' : Moment} (h : g.Orderly m) (hsteps : g.Steps images m m') :
    g.Orderly m' := by
  induction hsteps with
  | refl => exact h
  | tail _ hnext ih => exact ih.next hnext

omit [ImageLibrary] in
/-- The nodes of a chain of links are different, as no chain is closed. -/
theorem WellFormed.nodup_of_isChain (h : g.WellFormed) {ids : List String}
    (hchain : ids.IsChain g.Feeds) : ids.Nodup := by
  have hpairwise : ids.Pairwise (TransGen g.Feeds) :=
    List.isChain_iff_pairwise.mp (hchain.imp fun _ _ => .single)
  refine hpairwise.imp ?_
  rintro id _ hchain rfl
  exact h.acyclic id hchain

omit [ImageLibrary] in
theorem WellFormed.mem_nodes_of_isChain (h : g.WellFormed) {id : String} {ids : List String}
    (hid : id ∈ g.nodes.map Node.id) (hchain : (id :: ids).IsChain g.Feeds) :
    id :: ids ⊆ g.nodes.map Node.id := by
  induction ids generalizing id with
  | nil => exact List.cons_subset.mpr ⟨hid, List.nil_subset _⟩
  | cons consumer ids ih =>
    obtain ⟨⟨link, hlink, -, hconsumer⟩, hrest⟩ := List.isChain_cons_cons.mp hchain
    obtain ⟨-, -, node, hnode, -, hnodeId, -⟩ := h.joins link hlink
    refine List.cons_subset.mpr ⟨hid, ih ?_ hrest⟩
    exact hconsumer ▸ hnodeId ▸ List.mem_map_of_mem hnode

omit [ImageLibrary] in
/-- A chain of links has no more nodes than the graph; a single one need not be a node. -/
theorem WellFormed.length_le_of_isChain (h : g.WellFormed) {ids : List String}
    (hchain : ids.IsChain g.Feeds) : ids.length ≤ g.nodes.length := by
  cases ids with
  | nil => exact Nat.zero_le _
  | cons id ids =>
    cases ids with
    | nil =>
      obtain ⟨node, hnode, -⟩ := h.exists_endNode
      exact List.length_pos_of_mem hnode
    | cons consumer ids =>
      have hid := h.mem_nodes_of_feeds (List.isChain_cons_cons.mp hchain).1
      have hsubset := h.mem_nodes_of_isChain hid hchain
      have hlength := ((h.nodup_of_isChain hchain).subperm hsubset).length_le
      rwa [List.length_map] at hlength

/-! ### Every call ends -/

/-- If every call that a computation makes is answered as `fetch` says, the computation ends as
performing it does. -/
theorem steps_perform {fetch : String → Evaluation Value} {P : String → Prop}
    (hfetch : ∀ producer, P producer → ∀ waiting memo,
      g.Steps images ⟨.enter producer, waiting, memo⟩
        ⟨.leave ((fetch producer).run.run memo).1, waiting, ((fetch producer).run.run memo).2⟩)
    (id : String) {rest : Calling Value} (hrest : rest.Within P) (waiting : List Waiting)
    (memo : Memo) :
    g.Steps images ⟨.work id rest, waiting, memo⟩
      ⟨.work id (.ends ((rest.perform fetch).run.run memo).1), waiting,
        ((rest.perform fetch).run.run memo).2⟩ := by
  induction rest generalizing memo with
  | ends result => cases result <;> exact .refl
  | calls producer next ih =>
    obtain ⟨hproducer, hnext⟩ := hrest
    have hcall : g.next? images ⟨.work id (.calls producer next), waiting, memo⟩ =
        some ⟨.enter producer, ⟨id, next⟩ :: waiting, memo⟩ := rfl
    have hanswered := hfetch producer hproducer (⟨id, next⟩ :: waiting) memo
    have hresumed : ∀ answer after,
        g.next? images ⟨.leave answer, ⟨id, next⟩ :: waiting, after⟩ =
          some ⟨.work id (next answer), waiting, after⟩ := fun _ _ => rfl
    exact .head hcall (hanswered.trans (.head (hresumed _ _) (ih _ (hnext _) _)))

/-- A call ends with the answer and the table of evaluation, whatever calls wait for it. -/
theorem WellFormed.steps_eval (h : g.WellFormed) {depth : Nat} {id : String}
    (hdepth : g.height id < depth) (waiting : List Waiting) (memo : Memo) :
    g.Steps images ⟨.enter id, waiting, memo⟩
      ⟨.leave ((g.eval images depth id).run.run memo).1, waiting,
        ((g.eval images depth id).run.run memo).2⟩ := by
  induction depth generalizing id waiting memo with
  | zero => exact absurd hdepth (Nat.not_lt_zero _)
  | succ depth ih =>
    rw [eval, Evaluation.run_bind_of_ok (x := get) rfl]
    cases hlookup : memo.lookup id with
    | some found => exact .single (by rw [next?, hlookup]; rfl)
    | none =>
      cases hnode : g.evaluated id with
      | error failure => exact .single (by rw [next?, hlookup, hnode]; rfl)
      | ok node =>
        have hentered : g.next? images ⟨.enter id, waiting, memo⟩ =
            some ⟨.work id (node.compute images (g.input Calling.call node)), waiting, memo⟩ := by
          rw [next?, hlookup, hnode]
        have hperform :
            (node.compute images (g.input Calling.call node)).perform (g.eval images depth) =
              node.compute images (g.input (g.eval images depth) node) :=
          compute_related (Calling.perform_congruent _) hnode
            fun producer _ => Calling.perform_call _ producer
        have hlower : ∀ producer, g.Feeds producer id → g.height producer < depth :=
          fun producer hfeeds => Nat.lt_of_lt_of_le (h.height_lt hfeeds) (Nat.le_of_lt_succ hdepth)
        have hworked := steps_perform (fun producer hfeeds => ih (hlower producer hfeeds)) id
          (within_compute images hnode) waiting memo
        rw [hperform] at hworked
        dsimp only
        rw [Evaluation.run_bind_of_ok (x := Failure.lift (.ok node)) rfl]
        cases hrun : (node.compute images (g.input (g.eval images depth) node)).run.run memo with
        | mk result after =>
          rw [hrun] at hworked
          cases result with
          | ok value =>
            rw [Evaluation.run_bind_of_ok hrun]
            exact .head hentered (hworked.tail rfl)
          | error failure =>
            rw [Evaluation.run_bind_of_error hrun]
            exact .head hentered (hworked.tail rfl)

/-- A run that has come to a last moment could not have gone on for ever. -/
theorem acc_of_steps {m m' : Moment} (hsteps : g.Steps images m m')
    (hlast : g.next? images m' = none) :
    Acc (fun later earlier => g.next? images earlier = some later) m := by
  induction hsteps using ReflTransGen.head_induction_on with
  | refl => exact ⟨_, fun later hnext => nomatch hlast.symm.trans hnext⟩
  | head hnext _ ih =>
    refine ⟨_, fun later hlater => ?_⟩
    rwa [Option.some.inj (hlater.symm.trans hnext)]

/-- Whether the call of a node from a table ends, with an answer and a table, and at all times the
calls under way are of different nodes and no more than the graph has nodes. -/
structure Completes (g : Graph) (images : Images) (memo : Memo) (id : String)
    (answer : Except Failure Value) (after : Memo) : Prop where
  terminates : Acc (fun later earlier => g.next? images earlier = some later) (.start id memo)
  ends : g.Steps images (.start id memo) (.done answer after)
  nodup : ∀ m, g.Steps images (.start id memo) m → m.underWay.Nodup
  length_le : ∀ m, g.Steps images (.start id memo) m → m.underWay.length ≤ g.nodes.length

/-- Calls one after the other, each from the table that the one before it has left. -/
inductive AnswersInTurn (g : Graph) (images : Images) :
    Memo → List String → List (Except Failure Value) → Prop
  | nil (memo : Memo) : AnswersInTurn g images memo [] []
  | cons {memo after : Memo} {id : String} {ids : List String} {answer : Except Failure Value}
      {answers : List (Except Failure Value)} (first : g.Completes images memo id answer after)
      (rest : AnswersInTurn g images after ids answers) :
      AnswersInTurn g images memo (id :: ids) (answer :: answers)

theorem WellFormed.completes (h : g.WellFormed) (images : Images) (memo : Memo) (id : String) :
    g.Completes images memo id ((g.eval images g.maxDepth id).run.run memo).1
      ((g.eval images g.maxDepth id).run.run memo).2 := by
  have hends : g.Steps images (.start id memo) _ :=
    h.steps_eval (g.height_lt_maxDepth id) [] memo
  have horderly : ∀ m, g.Steps images (.start id memo) m → g.Orderly m :=
    fun _ hsteps => (Orderly.start id memo).steps hsteps
  exact ⟨acc_of_steps hends rfl, hends,
    fun m hsteps => h.nodup_of_isChain (horderly m hsteps).chain,
    fun m hsteps => h.length_le_of_isChain (horderly m hsteps).chain⟩

/-- The status of nodes is found by calling them in turn, as long as none breaks off. -/
theorem WellFormed.statusFrom_answers (h : g.WellFormed) (images : Images) (memo : Memo)
    (nodes : List Node) :
    ∃ called answers, called <+: nodes ∧
      g.AnswersInTurn images memo (called.map Node.id) answers ∧
      g.statusFrom images memo nodes =
        (called.zip answers).mapM (fun entry => statusOf entry.1 entry.2) ∧
      ((g.statusFrom images memo nodes).isOk = true → called = nodes) := by
  induction nodes generalizing memo with
  | nil => exact ⟨[], [], List.prefix_rfl, .nil memo, rfl, fun _ => rfl⟩
  | cons node nodes ih =>
    have hfirst := h.completes images memo node.id
    rw [statusFrom]
    generalize (g.eval images g.maxDepth node.id).run.run memo = result at hfirst ⊢
    obtain ⟨answer, after⟩ := result
    dsimp only
    cases hshown : statusOf node answer with
    | error cause =>
      refine ⟨[node], [answer], List.prefix_append [node] nodes, .cons hfirst (.nil after), ?_,
        fun hok => ?_⟩
      · rw [List.zip_cons_cons, List.mapM_cons, hshown]
        rfl
      · cases hok
    | ok status =>
      obtain ⟨called, answers, hprefix, hrest, hstatus, hall⟩ := ih after
      refine ⟨node :: called, answer :: answers, List.cons_prefix_cons.mpr ⟨rfl, hprefix⟩,
        .cons hfirst hrest, ?_, fun hok => congrArg _ (hall ?_)⟩
      · rw [List.zip_cons_cons, List.mapM_cons, ← hstatus, hshown]
      · cases hothers : g.statusFrom images after nodes with
        | ok others => rfl
        | error cause =>
          rw [hothers] at hok
          cases hok

/-- **Evaluation always ends.** In a reachable graph the calls that evaluation of any node makes
come to an end, and so do those of rendering and of the status of all nodes, which are calls of the
end node and of each node in turn, up to one that breaks off if there is one. The answers are those
of `evaluate`, `render` and `status`. At no time are two calls of one node under way, nor more calls
than the graph has nodes. -/
theorem evaluation_ends (h : g.Reachable) (images : Images) :
    (∀ id, g.AnswersInTurn images [] [id] [g.evaluate id images]) ∧
    (∃ id, g.endNodeId? = some id ∧
      g.AnswersInTurn images [] [id] [(g.render images).map Value.image]) ∧
    ∃ called answers, called <+: g.nodes ∧
      g.AnswersInTurn images [] (called.map Node.id) answers ∧
      g.status images = (called.zip answers).mapM (fun entry => statusOf entry.1 entry.2) ∧
      ((g.status images).isOk = true → called = g.nodes) := by
  have hg := h.wellFormed
  have hevaluate : ∀ id, g.AnswersInTurn images [] [id] [g.evaluate id images] :=
    fun id => .cons (hg.completes images [] id) (.nil _)
  obtain ⟨node, hnode, hkind⟩ := hg.exists_endNode
  refine ⟨hevaluate, ⟨node.id, hg.endNodeId?_eq hnode hkind, ?_⟩,
    hg.statusFrom_answers images [] g.nodes⟩
  rw [hg.render_eq images hnode hkind]
  exact hevaluate node.id

end Running

/-- The number of `shiftFlow` feeds two slots, so it is called twice, but never within itself. -/
theorem shiftFlow_evaluation_ends :
    shiftFlow.nodes.length = 4 ∧ (shiftFlow.evaluate "endNode" onePixel).isOk = true ∧
      shiftFlow.AnswersInTurn onePixel [] ["endNode"] [shiftFlow.evaluate "endNode" onePixel] :=
  ⟨by decide +kernel, by decide +kernel,
    (evaluation_ends shiftFlow_reachable onePixel).1 "endNode"⟩

end Graph

end Darkroom
