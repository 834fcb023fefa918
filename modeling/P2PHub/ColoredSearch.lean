import P2PHub.WorklistSearch

/-!
# Depth-first search with three colours

A node is white before it is met, gray while its successors are searched and
black afterwards.  The search keeps its nodes on a stack, so a node may stand
there more than once.  It fails as soon as it meets a gray node; when it does not
fail, no node leads back to itself.
-/

namespace P2PHub

open WorklistSearch

section

variable {Node : Type*} {related : Node → Node → Prop}

def Acyclic (related : Node → Node → Prop) : Prop :=
  ∀ node, ¬Relation.TransGen related node node

theorem Acyclic.mono {other : Node → Node → Prop} (acyclic : Acyclic related)
    (fewer : ∀ node successor, other node successor → related node successor) : Acyclic other :=
  fun node cycle => acyclic node (Relation.TransGen.mono fewer node node cycle)

theorem acyclic_of_acc (accessible : ∀ node,
    Acc (fun successor node => related node successor) node) : Acyclic related := by
  intro node
  induction accessible node with
  | intro node _ ih =>
    intro cycle
    obtain ⟨next, first, rest⟩ := Relation.TransGen.head'_iff.mp cycle
    exact ih next first (.tail' rest first)

theorem Acyclic.addEdge {source target : Node} (acyclic : Acyclic related)
    (unreached : ¬Relation.ReflTransGen related target source) :
    Acyclic fun node successor => related node successor ∨ (node = source ∧ successor = target) :=
      by
  have detour {node last : Node} (path : Relation.TransGen (fun node successor =>
      related node successor ∨ (node = source ∧ successor = target)) node last) :
      Relation.TransGen related node last ∨
        (Relation.ReflTransGen related node source ∧ Relation.ReflTransGen related target last) :=
          by
    induction path with
    | single step =>
      rcases step with old | ⟨rfl, rfl⟩
      · exact .inl (.single old)
      · exact .inr ⟨.refl, .refl⟩
    | tail _ step ih =>
      rcases step with old | ⟨rfl, rfl⟩
      · exact ih.imp (·.tail old) fun both => ⟨both.1, both.2.tail old⟩
      · rcases ih with path | ⟨path, _⟩
        · exact .inr ⟨path.to_reflTransGen, .refl⟩
        · exact .inr ⟨path, .refl⟩
  intro node cycle
  rcases detour cycle with path | ⟨toSource, fromTarget⟩
  · exact acyclic node path
  · exact unreached (fromTarget.trans toSource)

end

/-- A graph by its nodes with successors. -/
structure Adjacency (Node : Type*) where
  nodes : List Node
  next : Node → List Node
  outside : ∀ node, node ∉ nodes → next node = []

namespace Adjacency

inductive Color
  | white
  | gray
  | black
  deriving DecidableEq, Repr

variable {Node : Type*}

def Succeeds (graph : Adjacency Node) (successor node : Node) : Prop :=
  successor ∈ graph.next node

/-- The white nodes among successors, unless one of them is gray. -/
def whites (color : Node → Color) : List Node → Option (List Node)
  | [] => some []
  | node :: nodes =>
    match color node with
    | .white => (whites color nodes).map (node :: ·)
    | .gray => none
    | .black => whites color nodes

variable {color : Node → Color} {node : Node} {shade : Color} {graph : Adjacency Node}

theorem whites_spec {nodes pushed : List Node} (found : whites color nodes = some pushed) :
    pushed.length ≤ nodes.length ∧ (∀ node ∈ pushed, color node = .white) ∧
      ∀ node ∈ nodes, color node = .black ∨ node ∈ pushed := by
  induction nodes generalizing pushed with
  | nil =>
    cases found
    simp
  | cons node nodes ih =>
    rw [whites] at found
    cases shade : color node with
    | white =>
      rw [shade] at found
      obtain ⟨others, foundOthers, rfl⟩ := Option.map_eq_some_iff.mp found
      obtain ⟨short, white, covered⟩ := ih foundOthers
      refine ⟨Nat.succ_le_succ short, ?_, ?_⟩
      · rintro other (_ | ⟨_, member⟩)
        · exact shade
        · exact white other member
      · rintro other (_ | ⟨_, member⟩)
        · exact .inr List.mem_cons_self
        · exact (covered other member).imp_right (List.mem_cons_of_mem node)
    | gray =>
      rw [shade] at found
      cases found
    | black =>
      rw [shade] at found
      obtain ⟨short, white, covered⟩ := ih found
      refine ⟨Nat.le_succ_of_le short, white, ?_⟩
      rintro other (_ | ⟨_, member⟩)
      · exact .inl shade
      · exact covered other member

variable [DecidableEq Node]

def paint (color : Node → Color) (node : Node) (shade : Color) : Node → Color :=
  fun other => if other = node then shade else color other

@[simp] theorem paint_self (color : Node → Color) (node : Node) (shade : Color) :
    paint color node shade node = shade :=
  if_pos rfl

theorem paint_of_ne {other : Node}
    (apart : other ≠ node) : paint color node shade other = color other :=
  if_neg apart

def isWhite (color : Node → Color) (node : Node) : Bool :=
  decide (color node = .white)

def potential (graph : Adjacency Node) (color : Node → Color) (node : Node) : Nat :=
  if isWhite color node then 2 * (graph.next node).length else 0

/-- What white nodes may push, and what is on the stack, white nodes counted
twice. -/
def effort (graph : Adjacency Node) (color : Node → Color) (stack : List Node) : Nat :=
  (graph.nodes.map (graph.potential color)).sum + stack.length + stack.countP (isWhite color)

theorem countP_paint_le (color : Node → Color) (node : Node)
    (dark : shade ≠ .white) (nodes : List Node) :
    nodes.countP (isWhite (paint color node shade)) ≤ nodes.countP (isWhite color) := by
  apply List.countP_mono_left
  intro other _ white
  by_cases same : other = node
  · subst same
    simp [isWhite, dark] at white
  · simpa [isWhite, paint_of_ne same] using white

theorem potential_paint_le (graph : Adjacency Node) (color : Node → Color) (node : Node)
    (dark : shade ≠ .white) (nodes : List Node) :
    (nodes.map (graph.potential (paint color node shade))).sum +
        (if node ∈ nodes then graph.potential color node else 0) ≤
      (nodes.map (graph.potential color)).sum := by
  have painted : graph.potential (paint color node shade) node = 0 := by
    simp [potential, isWhite, dark]
  induction nodes with
  | nil => simp
  | cons head nodes ih =>
    simp only [List.map_cons, List.sum_cons, List.mem_cons]
    by_cases same : node = head
    · subst same
      rw [painted, if_pos (Or.inl rfl)]
      split at ih <;> omega
    · have kept : graph.potential (paint color node shade) head = graph.potential color head := by
        rw [potential, potential, isWhite, isWhite, paint_of_ne (Ne.symm same)]
      simp only [same, false_or]
      omega

theorem effort_paint_le (graph : Adjacency Node) {rest : List Node} (dark : shade ≠ .white) :
    graph.effort (paint color node shade) rest < graph.effort color (node :: rest) := by
  have potentials := graph.potential_paint_le color node dark graph.nodes
  have whites := countP_paint_le color node dark rest
  simp only [effort, List.length_cons, List.countP_cons]
  omega

theorem effort_push_lt (graph : Adjacency Node)
    {rest pushed : List Node} (white : color node = .white)
    (short : pushed.length ≤ (graph.next node).length) :
    graph.effort (paint color node .gray) (push pushed (node :: rest)) <
      graph.effort color (node :: rest) := by
  have dark : Color.gray ≠ .white := fun same => nomatch same
  have potentials := graph.potential_paint_le color node dark graph.nodes
  have whites := countP_paint_le color node dark rest
  have pushes : pushed.countP (isWhite (paint color node .gray)) ≤ pushed.length :=
    List.countP_le_length
  have paid : 2 * (graph.next node).length ≤
      if node ∈ graph.nodes then graph.potential color node else 0 := by
    split
    · simp [potential, isWhite, white]
    · next absent => simp [graph.outside node absent]
  have gray : isWhite (paint color node .gray) node = false := by simp [isWhite]
  have white' : isWhite color node := by simp [isWhite, white]
  simp only [effort, push, List.length_append, List.length_reverse,
    List.length_cons, List.countP_append, List.countP_reverse, List.countP_cons, gray, white',
    if_true]
  simp
  omega

def descend (graph : Adjacency Node) (color : Node → Color) (stack : List Node) :
    Option (Node → Color) :=
  match stack with
  | [] => some color
  | node :: rest =>
    if _white : color node = .white then
      match _found : whites (paint color node .gray) (graph.next node) with
      | none => none
      | some pushed =>
        graph.descend (paint color node .gray) (push pushed (node :: rest))
    else graph.descend (paint color node .black) rest
termination_by graph.effort color stack
decreasing_by
  · exact graph.effort_push_lt ‹_› (whites_spec ‹_›).1
  · exact graph.effort_paint_le (fun same => nomatch same)

/-- A search from every node that is still white; whether it failed. -/
def hasCycle (graph : Adjacency Node) : Bool :=
  (graph.nodes.foldlM (fun color node =>
    if color node = .white then graph.descend color [node] else some color)
    fun _ => Color.white).isNone

/-- What holds while a search runs: the gray nodes are on the stack, the
successors of one are black or above it, and no path leads on for ever from a
black one. -/
structure Descending (graph : Adjacency Node) (color : Node → Color) (stack : List Node) :
    Prop where
  pending : ∀ node, color node = .gray → node ∈ stack
  above : ∀ front node back, stack = front ++ node :: back → node ∉ front →
    color node = .gray → ∀ successor ∈ graph.next node, color successor = .black ∨ successor ∈ front
  settled : ∀ node, color node = .black → Acc graph.Succeeds node

section

variable {graph : Adjacency Node} {color final : Node → Color} {node : Node}
  {rest pushed stack : List Node}

theorem Descending.push (held : graph.Descending color (node :: rest)) (white : color node = .white)
    (found : whites (paint color node .gray) (graph.next node) = some pushed) :
    graph.Descending (paint color node .gray) (WorklistSearch.push pushed (node :: rest)) := by
  obtain ⟨-, fresh, covered⟩ := whites_spec found
  have unpushed {other : Node} (gray : paint color node .gray other = .gray) :
      other ∉ pushed.reverse := by
    intro member
    have isWhite := fresh other (List.mem_reverse.mp member)
    rw [gray] at isWhite
    cases isWhite
  refine ⟨?_, ?_, ?_⟩
  · intro other gray
    apply WorklistSearch.mem_push.mpr
    by_cases same : other = node
    · exact .inr (same ▸ List.mem_cons_self)
    · rw [paint_of_ne same] at gray
      exact .inr (held.pending other gray)
  · intro front other back split absent gray successor follows
    obtain ⟨kept, rfl⟩ : ∃ kept, front = pushed.reverse ++ kept := by
      have behind : pushed.reverse <+: front ++ other :: back :=
        ⟨node :: rest, by rw [← split, WorklistSearch.push]⟩
      have long : pushed.reverse.length ≤ front.length := by
        by_contra short
        have whole : front ++ [other] <+: front ++ other :: back := ⟨back, by simp⟩
        have inside : front ++ [other] <+: pushed.reverse := by
          apply List.prefix_of_prefix_length_le whole behind
          simp only [List.length_append, List.length_singleton]
          omega
        have member : other ∈ pushed.reverse := inside.subset (by simp)
        exact unpushed gray member
      obtain ⟨kept, split⟩ := List.prefix_of_prefix_length_le behind
        (List.prefix_append front (other :: back)) long
      exact ⟨kept, split.symm⟩
    rw [WorklistSearch.push, List.append_assoc] at split
    have tail := List.append_cancel_left split
    by_cases same : other = node
    · subst same
      rcases covered successor follows with black | new
      · exact .inl black
      · exact .inr (List.mem_append_left kept (List.mem_reverse.mpr new))
    · rw [paint_of_ne same] at gray
      have absentKept : other ∉ kept := fun member => absent (List.mem_append_right _ member)
      rcases held.above kept other back tail absentKept gray successor follows with black | beyond
      · left
        have apart : successor ≠ node := by
          rintro rfl
          rw [white] at black
          cases black
        rw [paint_of_ne apart]
        exact black
      · exact .inr (List.mem_append_right _ beyond)
  · intro other black
    have apart : other ≠ node := by
      rintro rfl
      rw [paint_self] at black
      cases black
    rw [paint_of_ne apart] at black
    exact held.settled other black

theorem Descending.pop (held : graph.Descending color (node :: rest))
    (dark : color node ≠ .white) : graph.Descending (paint color node .black) rest := by
  have accessible : Acc graph.Succeeds node := by
    cases shade : color node with
    | white => exact absurd shade dark
    | black => exact held.settled node shade
    | gray =>
      apply Acc.intro
      intro successor follows
      rcases held.above [] node rest rfl List.not_mem_nil shade successor follows with
        black | beyond
      · exact held.settled successor black
      · cases beyond
  refine ⟨?_, ?_, ?_⟩
  · intro other gray
    have apart : other ≠ node := by
      rintro rfl
      rw [paint_self] at gray
      cases gray
    rw [paint_of_ne apart] at gray
    exact List.mem_of_ne_of_mem apart (held.pending other gray)
  · intro front other back split absent gray successor follows
    have apart : other ≠ node := by
      rintro rfl
      rw [paint_self] at gray
      cases gray
    rw [paint_of_ne apart] at gray
    have whole : node :: rest = (node :: front) ++ other :: back := by rw [split]; rfl
    have unmet : other ∉ node :: front :=  fun member => (List.mem_cons.mp member).elim apart absent
    by_cases same : successor = node
    · subst same
      exact .inl (paint_self color successor .black)
    · rw [paint_of_ne same]
      rcases held.above (node :: front) other back whole unmet gray successor follows with
        black | beyond
      · exact .inl black
      · exact .inr (List.mem_of_ne_of_mem same beyond)
  · intro other black
    by_cases same : other = node
    · exact same ▸ accessible
    · rw [paint_of_ne same] at black
      exact held.settled other black

theorem descend_spec (held : graph.Descending color stack)
    (searched : graph.descend color stack = some final) :
    graph.Descending final [] ∧ (∀ node, color node = .black → final node = .black) ∧
      ∀ node ∈ stack, final node = .black := by
  fun_induction descend graph color stack with
  | case1 =>
    cases searched
    exact ⟨held, fun _ black => black, fun _ member => absurd member List.not_mem_nil⟩
  | case2 => cases searched
  | case3 color node rest white pushed found ih =>
    obtain ⟨ended, stays, settled⟩ := ih (held.push white found) searched
    refine ⟨ended, fun other black => stays other ?_, fun other member =>
      settled other (mem_push.mpr (.inr member))⟩
    have apart : other ≠ node := by
      rintro rfl
      rw [white] at black
      cases black
    rw [paint_of_ne apart]
    exact black
  | case4 color node rest dark ih =>
    obtain ⟨ended, stays, settled⟩ := ih (held.pop dark) searched
    have blackened : final node = .black := stays node (paint_self color node .black)
    refine ⟨ended, fun other black => ?_, ?_⟩
    · by_cases same : other = node
      · exact same ▸ blackened
      · exact stays other ((paint_of_ne same).trans black)
    · rintro other (_ | ⟨_, member⟩)
      · exact blackened
      · exact settled other member

omit [DecidableEq Node] in
theorem descending_blank : graph.Descending (fun _ => Color.white) [] := by
  refine ⟨?_, ?_, ?_⟩
  · intro _ gray
    cases gray
  · intro front other back split
    simp at split
  · intro _ black
    cases black

omit [DecidableEq Node] in
theorem Descending.start (held : graph.Descending color []) (noGray : ∀ other, color other ≠ .gray)
    : graph.Descending color [node] := by
  refine ⟨fun other gray => absurd gray (noGray other), ?_, held.settled⟩
  intro _ other _ _ _ gray
  exact absurd gray (noGray other)

end

section

variable {graph : Adjacency Node} {color : Node → Color} {node : Node}
  {rest pushed stack nodes : List Node}

/-- A path of at least one edge from a node to another. -/
abbrev Reaches (graph : Adjacency Node) : Node → Node → Prop :=
  Relation.TransGen fun node successor => successor ∈ graph.next node

/-- What holds while a search runs: the gray nodes are on the stack, and each of
them leads to whatever stands above it. -/
structure Tracing (graph : Adjacency Node) (color : Node → Color) (stack : List Node) :
    Prop where
  pending : ∀ node, color node = .gray → node ∈ stack
  leads : ∀ front node back, stack = front ++ node :: back → ∀ gray ∈ back,
    color gray = .gray → gray ≠ node → gray ∉ front → graph.Reaches gray node

omit [DecidableEq Node] in
theorem whites_none (failed : whites color nodes = none) : ∃ node ∈ nodes, color node = .gray := by
  induction nodes with
  | nil => cases failed
  | cons node nodes ih =>
    rw [whites] at failed
    cases shade : color node with
    | white =>
      rw [shade] at failed
      obtain ⟨other, member, gray⟩ := ih (Option.map_eq_none_iff.mp failed)
      exact ⟨other, List.mem_cons_of_mem node member, gray⟩
    | gray => exact ⟨node, List.mem_cons_self, shade⟩
    | black =>
      rw [shade] at failed
      obtain ⟨other, member, gray⟩ := ih failed
      exact ⟨other, List.mem_cons_of_mem node member, gray⟩

omit [DecidableEq Node] in
theorem whites_mem (found : whites color nodes = some pushed) : ∀ node ∈ pushed, node ∈ nodes := by
  induction nodes generalizing pushed with
  | nil =>
    cases found
    exact fun _ member => member
  | cons node nodes ih =>
    rw [whites] at found
    cases shade : color node with
    | white =>
      rw [shade] at found
      obtain ⟨others, foundOthers, rfl⟩ := Option.map_eq_some_iff.mp found
      rintro other (_ | ⟨_, member⟩)
      · exact List.mem_cons_self
      · exact List.mem_cons_of_mem node (ih foundOthers other member)
    | gray =>
      rw [shade] at found
      cases found
    | black =>
      rw [shade] at found
      exact fun other member => List.mem_cons_of_mem node (ih found other member)

omit [DecidableEq Node] in
theorem Tracing.start (noGray : ∀ other, color other ≠ .gray) : graph.Tracing color [node] := by
  refine ⟨fun other gray => absurd gray (noGray other), ?_⟩
  intro _ _ _ _ other _ gray
  exact absurd gray (noGray other)

section

variable (held : graph.Tracing color (node :: rest))
include held

omit [DecidableEq Node] in
theorem Tracing.reaches {gray : Node}
    (isGray : color gray = .gray) (apart : gray ≠ node) : graph.Reaches gray node := by
  have below : gray ∈ rest := List.mem_of_ne_of_mem apart (held.pending gray isGray)
  exact held.leads [] node rest rfl gray below isGray apart List.not_mem_nil

theorem Tracing.push (white : color node = .white)
    (found : whites (paint color node .gray) (graph.next node) = some pushed) :
    graph.Tracing (paint color node .gray) (push pushed (node :: rest)) := by
  have old {other : Node} (apart : other ≠ node)
      (gray : paint color node .gray other = .gray) : color other = .gray := by
    rwa [paint_of_ne apart] at gray
  refine ⟨?_, ?_⟩
  · intro other gray
    apply mem_push.mpr
    by_cases same : other = node
    · exact .inr (same ▸ List.mem_cons_self)
    · exact .inr (held.pending other (old same gray))
  · intro front target back split gray below isGray apart absent
    rcases List.append_eq_append_iff.mp split with
      ⟨kept, frontEq, tailEq⟩ | ⟨beyond, pushedEq, tailEq⟩
    · -- the target is an old entry, the searched node or below it
      rcases List.cons_eq_append_iff.mp tailEq with ⟨rfl, sameTail⟩ | ⟨more, rfl, restEq⟩
      · cases sameTail
        exact held.reaches (old apart isGray) apart
      · have other : gray ≠ node := by
          rintro rfl
          apply absent
          rw [frontEq]
          simp
        have unmet : gray ∉ node :: more := fun member => absent (by rw [frontEq]; simp [member])
        exact held.leads (node :: more) target back (by rw [restEq]; rfl) gray below
          (old other isGray) apart unmet
    · rcases List.cons_eq_append_iff.mp tailEq with ⟨rfl, sameTail⟩ | ⟨more, rfl, restEq⟩
      · cases sameTail
        exact held.reaches (old apart isGray) apart
      · -- the target has just been pushed
        have isPushed : target ∈ pushed := by
          rw [← List.mem_reverse, pushedEq]
          simp
        have follows : target ∈ graph.next node := whites_mem found target isPushed
        by_cases same : gray = node
        · exact .single (same ▸ follows)
        · exact (held.reaches (old same isGray) same).tail follows

theorem Tracing.pop (dark : color node ≠ .white) :
    graph.Tracing (paint color node .black) rest := by
  have old {other : Node} (gray : paint color node .black other = .gray) :
      other ≠ node ∧ color other = .gray := by
    have apart : other ≠ node := by
      rintro rfl
      rw [paint_self] at gray
      cases gray
    rw [paint_of_ne apart] at gray
    exact ⟨apart, gray⟩
  refine ⟨?_, ?_⟩
  · intro other gray
    obtain ⟨apart, gray⟩ := old gray
    exact List.mem_of_ne_of_mem apart (held.pending other gray)
  · intro front target back split gray below isGray apart absent
    obtain ⟨other, isGray⟩ := old isGray
    have unmet : gray ∉ node :: front := fun member => (List.mem_cons.mp member).elim other absent
    exact held.leads (node :: front) target back (by rw [split]; rfl) gray below isGray apart unmet

end

theorem descend_none (held : graph.Tracing color stack)
    (failed : graph.descend color stack = none) : ∃ node, graph.Reaches node node := by
  fun_induction descend graph color stack with
  | case1 => cases failed
  | case2 color node rest white found =>
    obtain ⟨successor, follows, gray⟩ := whites_none found
    by_cases same : successor = node
    · exact ⟨node, .single (same ▸ follows)⟩
    · rw [paint_of_ne same] at gray
      exact ⟨node, Relation.TransGen.trans (.single follows) (held.reaches gray same)⟩
  | case3 color node rest white pushed found ih => exact ih (held.push white found) failed
  | case4 color node rest dark ih => exact ih (held.pop dark) failed

end

theorem acc_of_hasCycle (acyclic : graph.hasCycle = false)
    (node : Node) : Acc graph.Succeeds node := by
  have searched (nodes : List Node) (color : Node → Color) (held : graph.Descending color [])
      (passes : (nodes.foldlM (fun color node =>
        if color node = .white then graph.descend color [node] else some color) color).isSome) :
      ∃ final, graph.Descending final [] ∧ (∀ node, color node = .black → final node = .black) ∧
        ∀ node ∈ nodes, final node = .black := by
    induction nodes generalizing color with
    | nil => exact ⟨color, held, fun _ black => black,
      fun _ member => absurd member List.not_mem_nil⟩
    | cons head nodes ih =>
      rw [List.foldlM_cons] at passes
      by_cases white : color head = .white
      · rw [if_pos white] at passes
        cases turned : graph.descend color [head] with
        | none =>
          rw [turned] at passes
          cases passes
        | some between =>
          rw [turned] at passes
          have started : graph.Descending color [head] :=
            held.start fun other gray => absurd (held.pending other gray) List.not_mem_nil
          obtain ⟨ended, stays, settled⟩ := descend_spec started turned
          obtain ⟨final, holds, later, black⟩ := ih between ended passes
          refine ⟨final, holds, fun other dark => later other (stays other dark), ?_⟩
          rintro other (_ | ⟨_, member⟩)
          · exact later head (settled head List.mem_cons_self)
          · exact black other member
      · rw [if_neg white] at passes
        obtain ⟨final, holds, later, black⟩ := ih color held passes
        refine ⟨final, holds, later, ?_⟩
        rintro other (_ | ⟨_, member⟩)
        · apply later
          cases shade : color head with
          | white => exact absurd shade white
          | gray => exact absurd (held.pending head shade) List.not_mem_nil
          | black => rfl
        · exact black other member
  obtain ⟨final, holds, -, black⟩ := searched graph.nodes _ descending_blank
    (by simpa [hasCycle] using acyclic)
  by_cases known : node ∈ graph.nodes
  · exact holds.settled node (black node known)
  · apply Acc.intro
    intro successor follows
    rw [Succeeds, graph.outside node known] at follows
    cases follows

theorem hasCycle_iff : graph.hasCycle ↔ ∃ node, graph.Reaches node node := by
  constructor
  · intro fails
    rw [hasCycle, Option.isNone_iff_eq_none] at fails
    have searched (nodes : List Node) (color : Node → Color) (held : graph.Descending color [])
        (failed : nodes.foldlM (fun color node =>
          if color node = .white then graph.descend color [node] else some color) color = none) :
        ∃ node, graph.Reaches node node := by
      induction nodes generalizing color with
      | nil => cases failed
      | cons head nodes ih =>
        have noGray : ∀ other, color other ≠ .gray :=
          fun other gray => absurd (held.pending other gray) List.not_mem_nil
        rw [List.foldlM_cons] at failed
        split at failed
        · cases turned : graph.descend color [head] with
          | none => exact descend_none (.start noGray) turned
          | some between =>
            rw [turned] at failed
            exact ih between (descend_spec (held.start noGray) turned).1 failed
        · exact ih color held failed
    exact searched graph.nodes _ descending_blank fails
  · rintro ⟨node, cycle⟩
    by_contra passes
    rw [Bool.not_eq_true] at passes
    exact acyclic_of_acc (acc_of_hasCycle passes) node cycle

end Adjacency

end P2PHub
