import Mathlib.Algebra.BigOperators.Group.List.Basic
import Mathlib.Tactic.Ring

/-!
# Worklist searches

A search keeps a stack of nodes and the nodes that it has visited.  It pops a
node, skips one that it has visited, and visits another: the visit stops the
search, or changes its state and pushes nodes.  Only some nodes push any, and
each of them no more than its degree, so every search ends.
-/

namespace P2PHub

/-- How a search visits a node, given its state and the nodes visited so far. -/
structure WorklistSearch (Node State Stop : Type*) [DecidableEq Node] where
  visit : State → List Node → Node → Except Stop (State × List Node)
  sources : List Node
  degree : Node → Nat
  bounded : ∀ state visited node after pushed, visit state visited node = .ok (after, pushed) →
    pushed.length ≤ if node ∈ sources then degree node else 0

namespace WorklistSearch

section

variable {Node : Type*}

def push (pushed stack : List Node) : List Node :=
  pushed.reverse ++ stack

@[simp] theorem mem_push {pushed stack : List Node} {node : Node} :
    node ∈ push pushed stack ↔ node ∈ pushed ∨ node ∈ stack := by
  simp [push]

end

variable {Node State Stop : Type*} [DecidableEq Node]

/-- What the nodes that are not visited may still push, and their visits. -/
def weight (degree : Node → Nat) (sources visited : List Node) : Nat :=
  (sources.map fun source => if source ∈ visited then 0 else degree source + 1).sum

def pending (search : WorklistSearch Node State Stop) (visited stack : List Node) : Nat :=
  weight search.degree search.sources visited + stack.length

theorem weight_visited (sources visited : List Node) (degree : Node → Nat) {node : Node}
    (fresh : node ∉ visited) : weight degree sources (node :: visited) +
        (if node ∈ sources then degree node + 1 else 0) ≤ weight degree sources visited := by
  induction sources with
  | nil => simp [weight]
  | cons source sources ih =>
    unfold weight at ih ⊢
    simp only [List.map_cons, List.sum_cons, List.mem_cons] at ih ⊢
    by_cases same : node = source
    · subst same
      simp only [true_or, if_true, fresh, if_false]
      split at ih <;> omega
    · have other : ¬source = node := fun eq => same eq.symm
      simp only [same, other, false_or]
      omega

theorem pending_visit (search : WorklistSearch Node State Stop) {state after : State}
    {node : Node} {visited stack pushed : List Node} (fresh : node ∉ visited)
    (visits : search.visit state (node :: visited) node = .ok (after, pushed)) :
    search.pending (node :: visited) (push pushed stack) <
      search.pending visited (node :: stack) := by
  have bound := search.bounded _ _ _ _ _ visits
  have lighter := weight_visited search.sources visited search.degree fresh
  simp only [pending, push, List.length_append, List.length_reverse, List.length_cons]
  by_cases source : node ∈ search.sources
  · rw [if_pos source] at bound lighter
    omega
  · rw [if_neg source] at bound lighter
    omega

def run (search : WorklistSearch Node State Stop) (state : State) (visited stack : List Node) :
    Except Stop (State × List Node) :=
  match stack with
  | [] => .ok (state, visited)
  | node :: rest =>
    if _seen : node ∈ visited then search.run state visited rest
    else
      match _visits : search.visit state (node :: visited) node with
      | .error stop => .error stop
      | .ok (after, pushed) => search.run after (node :: visited) (push pushed rest)
termination_by search.pending visited stack
decreasing_by
  · simp only [pending, List.length_cons]
    omega
  · exact search.pending_visit ‹_› ‹_›

section

variable {search : WorklistSearch Node State Stop} {state final : State} {stop : Stop}
  {visited stack seen : List Node}

variable (holds : State → List Node → List Node → Prop)
    (skips : ∀ state visited node stack, node ∈ visited → holds state visited (node :: stack) →
    holds state visited stack)
    (visits : ∀ state visited node stack after pushed, node ∉ visited →
    holds state visited (node :: stack) → search.visit state (node :: visited) node = .ok (after,
    pushed) → holds after (node :: visited) (push pushed stack))
    (start : holds state visited stack)
include holds skips visits start

theorem run_invariant
    (ran : search.run state visited stack = .ok (final, seen)) : holds final seen [] := by
  fun_induction run search state visited stack with
  | case1 =>
    cases ran
    exact start
  | case2 state visited node rest old ih => exact ih (skips _ _ _ _ old start) ran
  | case3 state visited node rest fresh stop stops => cases ran
  | case4 state visited node rest fresh after pushed visited' ih =>
    exact ih (visits _ _ _ _ _ _ fresh start visited') ran

theorem run_stops (ran : search.run state visited stack = .error stop) :
    ∃ last passed node rest, node ∉ passed ∧ holds last passed (node :: rest) ∧
      search.visit last (node :: passed) node = .error stop := by
  fun_induction run search state visited stack with
  | case1 => cases ran
  | case2 state visited node rest old ih => exact ih (skips _ _ _ _ old start) ran
  | case3 state visited node rest fresh stopped stops =>
    cases ran
    exact ⟨state, visited, node, rest, fresh, start, stops⟩
  | case4 state visited node rest fresh after pushed visited' ih =>
    exact ih (visits _ _ _ _ _ _ fresh start visited') ran

end

/-- A node leads to another along the successors of nodes. -/
abbrev Leads (next : Node → List Node) : Node → Node → Prop :=
  Relation.ReflTransGen fun node successor => successor ∈ next node

variable {search : WorklistSearch Node State Stop} {state final : State} {stack seen : List Node}
  {next : Node → List Node} {node : Node}

section

variable (covers : ∀ state visited node after pushed, search.visit state visited node = .ok (after,
    pushed) → ∀ successor ∈ next node, successor ∈ visited ∨ successor ∈ pushed)
    (ran : search.run state [] stack = .ok (final, seen))
include covers ran

/-- The search visits the nodes on its stack, and with a node its successors,
when every visit pushes those that have not been visited. -/
theorem run_closed :
    (∀ node ∈ stack, node ∈ seen) ∧ ∀ node ∈ seen, ∀ successor ∈ next node, successor ∈ seen := by
  have kept := run_invariant
    (fun _ visited pending => (∀ node ∈ stack, node ∈ visited ∨ node ∈ pending) ∧
      ∀ node ∈ visited, ∀ successor ∈ next node, successor ∈ visited ∨ successor ∈ pending)
    (by
      rintro _ visited node pending old ⟨starts, closed⟩
      have stays {other : Node} (known : other ∈ visited ∨ other ∈ node :: pending) :
          other ∈ visited ∨ other ∈ pending := by
        rcases known with before | ahead
        · exact .inl before
        · rcases List.mem_cons.mp ahead with rfl | ahead
          · exact .inl old
          · exact .inr ahead
      exact ⟨fun other member => stays (starts other member),
        fun other member successor follows => stays (closed other member successor follows)⟩)
    (by
      rintro _ visited node pending _ pushed fresh ⟨starts, closed⟩ visits
      have stays {other : Node} (known : other ∈ visited ∨ other ∈ node :: pending) :
          other ∈ node :: visited ∨ other ∈ push pushed pending := by
        rcases known with before | ahead
        · exact .inl (List.mem_cons_of_mem node before)
        · rcases List.mem_cons.mp ahead with rfl | ahead
          · exact .inl List.mem_cons_self
          · exact .inr (mem_push.mpr (.inr ahead))
      refine ⟨fun other member => stays (starts other member), ?_⟩
      intro other member successor follows
      rcases List.mem_cons.mp member with rfl | before
      · rcases covers _ _ _ _ _ visits successor follows with known | new
        · exact .inl known
        · exact .inr (mem_push.mpr (.inl new))
      · exact stays (closed other before successor follows))
    ⟨fun _ member => .inr member, fun _ member => absurd member List.not_mem_nil⟩ ran
  obtain ⟨starts, closed⟩ := kept
  simp only [List.not_mem_nil, or_false] at starts closed
  exact ⟨starts, closed⟩

theorem run_visits {target : Node}
    (start : node ∈ stack) (leads : Leads next node target) : target ∈ seen := by
  obtain ⟨starts, closed⟩ := run_closed covers ran
  induction leads with
  | refl => exact starts node start
  | tail _ follows ih => exact closed _ ih _ follows

end

theorem run_passed {passes : Node → Prop} (passed : ∀ state visited node after pushed,
      search.visit state visited node = .ok (after, pushed) → passes node)
    (ran : search.run state [] stack = .ok (final, seen)) : ∀ node ∈ seen, passes node := by
  refine run_invariant (fun _ visited _ => ∀ node ∈ visited, passes node)
    (fun _ _ _ _ _ held => held) ?_ (fun _ member => absurd member List.not_mem_nil) ran
  intro _ visited node _ _ _ _ held visits other member
  rcases List.mem_cons.mp member with rfl | before
  · exact passed _ _ _ _ _ visits
  · exact held other before

theorem run_misses {target : Node} (covers : ∀ state visited node after pushed,
      search.visit state visited node = .ok (after, pushed) →
        node ≠ target ∧ ∀ successor ∈ next node, successor ∈ visited ∨ successor ∈ pushed)
    (ran : search.run state [] stack = .ok (final, seen)) (start : node ∈ stack) :
    ¬Leads next node target := by
  intro leads
  have visited : target ∈ seen :=
    run_visits (fun _ _ _ _ _ visits => (covers _ _ _ _ _ visits).2) ran start leads
  have apart : ∀ other ∈ seen, other ≠ target :=
    run_passed (fun _ _ _ _ _ visits => (covers _ _ _ _ _ visits).1) ran
  exact apart target visited rfl

variable (follows : ∀ state visited node after pushed, search.visit state visited node = .ok (after,
    pushed) → ∀ other ∈ pushed, other ∈ next node)
include follows

/-- The search visits no other nodes than those its stack leads to, when no visit
pushes anything but successors. -/
theorem run_reached (ran : search.run state [] stack = .ok (final, seen)) (visited : node ∈ seen) :
    ∃ start ∈ stack, Leads next start node := by
  have kept := run_invariant (fun _ visited pending => ∀ node, node ∈ visited ∨ node ∈ pending →
      ∃ start ∈ stack, Leads next start node)
    (fun _ _ _ _ _ held node member =>
      held node (member.imp_right (List.mem_cons_of_mem _)))
    (by
      intro _ visited node pending _ pushed _ held visits other member
      obtain ⟨start, isStart, leads⟩ := held node (.inr List.mem_cons_self)
      rcases member with before | ahead
      · rcases List.mem_cons.mp before with rfl | before
        · exact ⟨start, isStart, leads⟩
        · exact held other (.inl before)
      · rcases mem_push.mp ahead with new | ahead
        · exact ⟨start, isStart, leads.tail (follows _ _ _ _ _ visits other new)⟩
        · exact held other (.inr (List.mem_cons_of_mem _ ahead)))
    (by
      rintro node (none | member)
      · cases none
      · exact ⟨node, member, .refl⟩) ran
  exact kept node (.inl visited)

/-- A search is stopped at a node that its stack leads to, when no visit pushes
anything but successors. -/
theorem run_stops_reached {stop : Stop} (ran : search.run state [] stack = .error stop) :
    ∃ start ∈ stack, ∃ node last visited, Leads next start node ∧
      search.visit last visited node = .error stop := by
  obtain ⟨last, visited, node, rest, _, reached, stops⟩ := run_stops
    (fun _ _ pending => ∀ node ∈ pending, ∃ start ∈ stack, Leads next start node)
    (fun _ _ _ _ _ held node member => held node (List.mem_cons_of_mem _ member))
    (by
      intro _ _ node pending _ pushed _ held visits other member
      rcases mem_push.mp member with new | ahead
      · obtain ⟨start, isStart, leads⟩ := held node List.mem_cons_self
        exact ⟨start, isStart, leads.tail (follows _ _ _ _ _ visits other new)⟩
      · exact held other (List.mem_cons_of_mem _ ahead))
    (fun node member => ⟨node, member, .refl⟩) ran
  obtain ⟨start, isStart, leads⟩ := reached node List.mem_cons_self
  exact ⟨start, isStart, node, last, node :: visited, leads, stops⟩

end WorklistSearch

end P2PHub
