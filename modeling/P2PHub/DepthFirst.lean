import Mathlib.Data.List.Chain
import Mathlib.Data.List.Nodup
import Mathlib.Algebra.Order.BigOperators.Group.List
import Mathlib.Algebra.GroupWithZero.Nat
import Mathlib.Algebra.Order.Group.Nat

/-!
# Depth-first searches with labels

A search with a stack of nodes and their depths.  Nodes are told apart by their
labels only, which two nodes may share, and a node beyond the limit ends the
search.
-/

namespace P2PHub.DepthFirst

structure Frame (Node : Type*) where
  node : Node
  depth : ℕ

/-- What a search depends on: the nodes that a node leads to, the topmost
first, what nodes are told apart by, and which depths are beyond the limit. -/
structure Graph (Node Label : Type*) where
  next : Node → List Node
  label : Node → Label
  beyond : ℕ → Bool

/-- The nodes to come and the nodes visited, the latest one first. -/
structure Search (Node : Type*) where
  stack : List (Frame Node)
  visits : List (Frame Node)

section

variable {Node Label : Type*} (graph : Graph Node Label)

def Graph.seen (visits : List (Frame Node)) : List Label :=
  visits.map fun frame => graph.label frame.node

def Graph.children (frame : Frame Node) : List (Frame Node) :=
  (graph.next frame.node).map fun node => ⟨node, frame.depth + 1⟩

inductive Graph.Step : Search Node → Search Node → Prop
  | skip {frame : Frame Node} {rest visits : List (Frame Node)}
      (within : graph.beyond frame.depth = false)
      (again : graph.label frame.node ∈ graph.seen visits) :
      Step ⟨frame :: rest, visits⟩ ⟨rest, visits⟩
  | visit {frame : Frame Node} {rest visits : List (Frame Node)}
      (within : graph.beyond frame.depth = false)
      (fresh : graph.label frame.node ∉ graph.seen visits) :
      Step ⟨frame :: rest, visits⟩ ⟨graph.children frame ++ rest, frame :: visits⟩

def start (root : Node) : Search Node :=
  ⟨[⟨root, 0⟩], []⟩

def Graph.Reached (root : Node) (search : Search Node) : Prop :=
  Relation.ReflTransGen graph.Step (start root) search

def Graph.Reachable (root node : Node) : Prop :=
  Relation.ReflTransGen (fun node later => later ∈ graph.next node) root node

/-- The chains of nodes from a root, the last one first. -/
inductive Graph.Chain (root : Node) : List Node → Prop
  | root : Chain root [root]
  | next {node later : Node} {chain : List Node} (before : Chain root (node :: chain))
      (leads : later ∈ graph.next node) : Chain root (later :: node :: chain)

/-- Some chain of different nodes is longer than the limit. -/
def Graph.LongChain (root : Node) : Prop :=
  ∃ node chain, graph.Chain root (node :: chain) ∧ (node :: chain).Nodup ∧
    graph.beyond chain.length = true

def Graph.Apart (root : Node) : Prop :=
  ∀ node other, graph.Reachable root node → graph.Reachable root other →
    graph.label node = graph.label other → node = other

/-- What a visit of a node would put on the stack, were it not seen. -/
def Graph.cost [DecidableEq Label] (visits : List (Frame Node)) (node : Node) : ℕ :=
  if graph.label node ∈ graph.seen visits then 0 else (graph.next node).length

/-- What is still to be taken from the stack, where the search stays among some
nodes. -/
def Graph.work [DecidableEq Label] (nodes : List Node) (search : Search Node) : ℕ :=
  search.stack.length + (nodes.map (graph.cost search.visits)).sum

end

section

variable {Node Label : Type*} {graph : Graph Node Label} {root node : Node}
  {search later : Search Node} {frame : Frame Node} {rest visits : List (Frame Node)}
  {chain : List Node}

theorem Graph.Chain.reachable (reaches : graph.Chain root chain) :
    ∀ node ∈ chain, graph.Reachable root node := by
  induction reaches with
  | root =>
    intro node member
    rw [List.mem_singleton.mp member]
    exact .refl
  | next before leads ih =>
    intro node member
    rcases List.mem_cons.mp member with rfl | inside
    · exact (ih _ List.mem_cons_self).tail leads
    · exact ih node inside

theorem Graph.Chain.reverse (reaches : graph.Chain root chain) : chain.reverse.head? = some root ∧
      chain.reverse.IsChain fun node later => later ∈ graph.next node := by
  induction reaches with
  | root => exact ⟨rfl, .singleton root⟩
  | @next node later chain before leads ih =>
    rw [List.reverse_cons] at ih
    rw [List.reverse_cons, List.reverse_cons]
    constructor
    · rw [List.head?_append, ih.1, Option.some_or]
    · rw [List.append_assoc]
      exact List.isChain_append_cons_cons.mpr ⟨ih.2, leads, .singleton later⟩

variable (graph root visits) in
/-- A node on the stack is the root, or a visited node leads to it. -/
inductive Placed : Frame Node → Prop
  | root : Placed ⟨root, 0⟩
  | child {parent : Frame Node} {node : Node} (visited : parent ∈ visits)
      (leads : node ∈ graph.next parent.node) : Placed ⟨node, parent.depth + 1⟩

variable (graph root visits) in
/-- A chain of different visited nodes leads to a node at its depth. -/
def Traced (frame : Frame Node) : Prop :=
  ∃ chain, graph.Chain root (frame.node :: chain) ∧ (frame.node :: chain).Nodup ∧
    chain.length = frame.depth ∧ ∀ node ∈ frame.node :: chain, node ∈ visits.map Frame.node

variable (graph root) in
/-- What holds of every state of a search. -/
structure Invariant (search : Search Node) : Prop where
  distinct : (graph.seen search.visits).Nodup
  placed : ∀ frame ∈ search.stack, Placed graph root search.visits frame
  traced : ∀ frame ∈ search.visits, Traced graph root search.visits frame
  rootTaken : root ∈ search.stack.map Frame.node ∨ graph.label root ∈ graph.seen search.visits
  taken : ∀ frame ∈ search.visits, ∀ node ∈ graph.next frame.node,
    node ∈ search.stack.map Frame.node ∨ graph.label node ∈ graph.seen search.visits

theorem seen_of_visited (visited : node ∈ visits.map Frame.node) :
    graph.label node ∈ graph.seen visits := by
  obtain ⟨frame, member, rfl⟩ := List.mem_map.mp visited
  exact List.mem_map_of_mem member

theorem Placed.mono (placed : Placed graph root visits frame) (visited : Frame Node) :
    Placed graph root (visited :: visits) frame := by
  cases placed with
  | root => exact .root
  | child member leads => exact .child (List.mem_cons_of_mem _ member) leads

theorem Traced.mono (traced : Traced graph root visits frame) (visited : Frame Node) :
    Traced graph root (visited :: visits) frame := by
  obtain ⟨chain, reaches, nodup, length, inside⟩ := traced
  exact ⟨chain, reaches, nodup, length,
    fun node member => List.mem_cons_of_mem _ (inside node member)⟩

/-- A chain of different nodes leads to a node on the stack that has not been
seen. -/
theorem Invariant.chain_of_fresh (holds : Invariant graph root ⟨frame :: rest, visits⟩)
    (fresh : graph.label frame.node ∉ graph.seen visits) :
    ∃ chain, graph.Chain root (frame.node :: chain) ∧ (frame.node :: chain).Nodup ∧
      chain.length = frame.depth ∧ ∀ node ∈ chain, node ∈ visits.map Frame.node := by
  cases holds.placed frame List.mem_cons_self with
  | root => exact ⟨[], .root, List.nodup_singleton _, rfl, fun node member => by cases member⟩
  | @child parent node visited leads =>
    obtain ⟨chain, reaches, nodup, length, inside⟩ := holds.traced parent visited
    have unvisited : node ∉ parent.node :: chain :=
      fun member => fresh (seen_of_visited (inside node member))
    refine ⟨parent.node :: chain, reaches.next leads, nodup.cons unvisited, ?_, inside⟩
    rw [List.length_cons, length]

theorem Invariant.start (graph : Graph Node Label) (root : Node) :
    Invariant graph root (start root) where
  distinct := .nil
  placed := by
    intro frame member
    rw [List.mem_singleton.mp member]
    exact .root
  traced := by
    intro frame member
    cases member
  rootTaken := Or.inl List.mem_cons_self
  taken := by
    intro frame member
    cases member

section

variable (holds : Invariant graph root ⟨frame :: rest, visits⟩)
include holds

theorem Invariant.skip
    (again : graph.label frame.node ∈ graph.seen visits) : Invariant graph root ⟨rest, visits⟩ := by
  have below {node : Node} (taken : node ∈ (frame :: rest).map Frame.node ∨
      graph.label node ∈ graph.seen visits) :
      node ∈ rest.map Frame.node ∨ graph.label node ∈ graph.seen visits := by
    rcases taken with stacked | seen
    · rcases List.mem_cons.mp stacked with rfl | deeper
      · exact Or.inr again
      · exact Or.inl deeper
    · exact Or.inr seen
  exact ⟨holds.distinct, fun other member => holds.placed other (List.mem_cons_of_mem _ member),
    holds.traced, below holds.rootTaken,
    fun other visited node leads => below (holds.taken other visited node leads)⟩

theorem Invariant.visit (fresh : graph.label frame.node ∉ graph.seen visits) :
    Invariant graph root ⟨graph.children frame ++ rest, frame :: visits⟩ := by
  have seen : graph.seen (frame :: visits) = graph.label frame.node :: graph.seen visits := rfl
  have below {node : Node} (taken : node ∈ (frame :: rest).map Frame.node ∨
      graph.label node ∈ graph.seen visits) :
      node ∈ (graph.children frame ++ rest).map Frame.node ∨
        graph.label node ∈ graph.seen (frame :: visits) := by
    rw [seen, List.map_append, List.mem_append, List.mem_cons]
    rcases taken with stacked | before
    · rcases List.mem_cons.mp stacked with rfl | deeper
      · exact Or.inr (Or.inl rfl)
      · exact Or.inl (Or.inr deeper)
    · exact Or.inr (Or.inr before)
  constructor
  · rw [seen]
    exact holds.distinct.cons fresh
  · intro other member
    rcases List.mem_append.mp member with child | deeper
    · obtain ⟨node, leads, rfl⟩ := List.mem_map.mp child
      exact .child List.mem_cons_self leads
    · exact (holds.placed other (List.mem_cons_of_mem _ deeper)).mono frame
  · intro other member
    rcases List.mem_cons.mp member with rfl | before
    · obtain ⟨chain, reaches, nodup, length, inside⟩ := holds.chain_of_fresh fresh
      refine ⟨chain, reaches, nodup, length, fun node member => ?_⟩
      rcases List.mem_cons.mp member with rfl | earlier
      · exact List.mem_cons_self
      · exact List.mem_cons_of_mem _ (inside node earlier)
    · exact (holds.traced other before).mono frame
  · exact below holds.rootTaken
  · intro other member node leads
    rcases List.mem_cons.mp member with rfl | before
    · refine Or.inl (List.mem_map.mpr ⟨⟨node, other.depth + 1⟩, ?_, rfl⟩)
      exact List.mem_append_left _ (List.mem_map.mpr ⟨node, leads, rfl⟩)
    · exact below (holds.taken other before node leads)

end

theorem Graph.Step.invariant (step : graph.Step search later)
    (holds : Invariant graph root search) : Invariant graph root later := by
  cases step with
  | skip within again => exact holds.skip again
  | visit within fresh => exact holds.visit fresh

theorem Graph.Reached.invariant (reached : graph.Reached root search) :
    Invariant graph root search := by
  induction reached with
  | refl => exact .start graph root
  | tail _ step ih => exact step.invariant ih

theorem Invariant.nodup (holds : Invariant graph root search) :
    (search.visits.map Frame.node).Nodup := by
  refine List.Nodup.of_map graph.label ?_
  rw [List.map_map]
  exact holds.distinct

theorem Invariant.reachable (holds : Invariant graph root search)
    (visited : node ∈ search.visits.map Frame.node) : graph.Reachable root node := by
  obtain ⟨frame, member, rfl⟩ := List.mem_map.mp visited
  obtain ⟨chain, reaches, _⟩ := holds.traced frame member
  exact reaches.reachable _ List.mem_cons_self

theorem Invariant.longChain (holds : Invariant graph root ⟨frame :: rest, visits⟩)
    (fresh : graph.label frame.node ∉ graph.seen visits)
    (beyond : graph.beyond frame.depth) : graph.LongChain root := by
  obtain ⟨chain, reaches, nodup, length, _⟩ := holds.chain_of_fresh fresh
  exact ⟨frame.node, chain, reaches, nodup, by rw [length, beyond]⟩

/-- A search that comes to its end has visited all that is reachable, if and
only if no two nodes of that share a label. -/
theorem Invariant.complete_iff (holds : Invariant graph root ⟨[], visits⟩) :
    (∀ node, graph.Reachable root node → node ∈ visits.map Frame.node) ↔ graph.Apart root := by
  constructor
  · intro complete node other reaches otherReaches same
    refine List.inj_on_of_nodup_map (f := graph.label) ?_ (complete node reaches)
      (complete other otherReaches) same
    rw [List.map_map]
    exact holds.distinct
  · intro apart node reaches
    have visited {node : Node} (reaches : graph.Reachable root node)
        (taken : node ∈ List.map Frame.node [] ∨ graph.label node ∈ graph.seen visits) :
        node ∈ visits.map Frame.node := by
      rcases taken with stacked | seen
      · cases stacked
      · obtain ⟨frame, member, same⟩ := List.mem_map.mp seen
        have inside : frame.node ∈ visits.map Frame.node := List.mem_map_of_mem member
        rwa [← apart frame.node node (holds.reachable inside) reaches same]
    induction reaches with
    | refl => exact visited .refl holds.rootTaken
    | tail before leads ih =>
      obtain ⟨frame, member, same⟩ := List.mem_map.mp ih
      subst same
      exact visited (before.tail leads) (holds.taken frame member _ leads)

end

variable {Node Label : Type*} [DecidableEq Label] {graph : Graph Node Label}
  {search later : Search Node} {frame : Frame Node} {visits : List (Frame Node)}
  {nodes : List Node}

theorem cost_visit_le (graph : Graph Node Label) (frame : Frame Node) (visits : List (Frame Node))
    (node : Node) : graph.cost (frame :: visits) node ≤ graph.cost visits node := by
  have seen : graph.seen (frame :: visits) = graph.label frame.node :: graph.seen visits := rfl
  rw [Graph.cost, Graph.cost, seen]
  by_cases before : graph.label node ∈ graph.seen visits
  · rw [if_pos (List.mem_cons_of_mem _ before)]
    exact Nat.zero_le _
  · rw [if_neg before]
    split
    · exact Nat.zero_le _
    · exact le_rfl

theorem sum_cost_visit_le (fresh : graph.label frame.node ∉ graph.seen visits)
    (member : frame.node ∈ nodes) :
    (nodes.map (graph.cost (frame :: visits))).sum + (graph.next frame.node).length ≤
      (nodes.map (graph.cost visits)).sum := by
  induction nodes with
  | nil => cases member
  | cons node nodes ih =>
    rw [List.map_cons, List.sum_cons, List.map_cons, List.sum_cons]
    rcases List.mem_cons.mp member with rfl | inside
    · have others : (nodes.map (graph.cost (frame :: visits))).sum ≤
          (nodes.map (graph.cost visits)).sum :=
        List.sum_le_sum fun node _ => cost_visit_le graph frame visits node
      have here : graph.cost visits frame.node = (graph.next frame.node).length := if_neg fresh
      have done : graph.cost (frame :: visits) frame.node = 0 := if_pos List.mem_cons_self
      omega
    · have others := ih inside
      have here := cost_visit_le graph frame visits node
      omega

theorem Graph.Step.work_lt (step : graph.Step search later)
    (inside : ∀ frame ∈ search.stack, frame.node ∈ nodes) :
    graph.work nodes later < graph.work nodes search := by
  cases step with
  | @skip frame rest visits within again =>
    rw [Graph.work, Graph.work, List.length_cons]
    dsimp only
    omega
  | @visit frame rest visits within fresh =>
    have spent := sum_cost_visit_le fresh (inside frame List.mem_cons_self)
    have pushed : (graph.children frame).length = (graph.next frame.node).length :=
      List.length_map _
    rw [Graph.work, Graph.work, List.length_append, List.length_cons, pushed]
    dsimp only
    omega

omit [DecidableEq Label] in
theorem Graph.Step.stack_mem (step : graph.Step search later)
    (closed : ∀ node ∈ nodes, graph.next node ⊆ nodes)
    (inside : ∀ frame ∈ search.stack, frame.node ∈ nodes) :
    ∀ frame ∈ later.stack, frame.node ∈ nodes := by
  cases step with
  | skip => exact fun other member => inside other (List.mem_cons_of_mem _ member)
  | @visit frame rest visits within fresh =>
    intro other member
    rcases List.mem_append.mp member with child | deeper
    · obtain ⟨node, leads, rfl⟩ := List.mem_map.mp child
      exact closed frame.node (inside frame List.mem_cons_self) leads
    · exact inside other (List.mem_cons_of_mem _ deeper)

end P2PHub.DepthFirst
