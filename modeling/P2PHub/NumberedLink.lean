import Mathlib.Data.List.Basic

/-!
# Numbered messages on an ordered link

A sender numbers its messages with a counter, a link carries them in order, and
a receiver drops every number that is not above the last one it has seen.  The
two are in step when the numbers in flight increase from the one last seen and
none exceeds the counter: then nothing in flight and nothing still to be sent
is dropped.
-/

namespace P2PHub.NumberedLink

/-- The counter of the sender, the number last seen and the numbers in flight. -/
structure InStep (counter seen : Nat) (flight : List Nat) : Prop where
  increasing : (seen :: flight).Pairwise (· < ·)
  counted : ∀ number ∈ seen :: flight, number ≤ counter

namespace InStep

variable {counter seen number : Nat} {flight : List Nat}

theorem start (counter : Nat) : InStep counter 0 [] where
  increasing := List.pairwise_singleton _ _
  counted := by simp

theorem seen_lt_next (inStep : InStep counter seen flight) : seen < counter + 1 := by
  have bound := inStep.counted seen List.mem_cons_self
  omega

theorem seen_lt_head (inStep : InStep counter seen (number :: flight)) : seen < number :=
  List.rel_of_pairwise_cons inStep.increasing List.mem_cons_self

section

variable (inStep : InStep counter seen flight)
include inStep

theorem send : InStep (counter + 1) seen (flight ++ [counter + 1]) where
  increasing := by
    rw [← List.cons_append, List.pairwise_append]
    refine ⟨inStep.increasing, List.pairwise_singleton _ _, ?_⟩
    intro earlier earlierMem later laterMem
    have bound := inStep.counted earlier earlierMem
    rw [List.mem_singleton] at laterMem
    omega
  counted := by
    intro sent member
    rw [← List.cons_append, List.mem_append, List.mem_singleton] at member
    rcases member with earlier | rfl
    · have bound := inStep.counted sent earlier
      omega
    · exact Nat.le_refl _

theorem advance {later : Nat} (above : counter ≤ later) : InStep later seen flight where
  increasing := inStep.increasing
  counted sent member := Nat.le_trans (inStep.counted sent member) above

theorem forget {earlier : Nat} (below : earlier ≤ seen) : InStep counter earlier flight where
  increasing := by
    obtain ⟨above, ordered⟩ := List.pairwise_cons.mp inStep.increasing
    refine List.pairwise_cons.mpr ⟨fun later member => ?_, ordered⟩
    have bound := above later member
    omega
  counted := by
    intro sent member
    rcases List.mem_cons.mp member with rfl | inFlight
    · exact Nat.le_trans below (inStep.counted seen List.mem_cons_self)
    · exact inStep.counted sent (List.mem_cons_of_mem _ inFlight)

end

theorem deliver (inStep : InStep counter seen (number :: flight)) :
    InStep counter number flight where
  increasing := (List.pairwise_cons.mp inStep.increasing).2
  counted sent member := inStep.counted sent (List.mem_cons_of_mem _ member)

theorem drop (inStep : InStep counter seen (number :: flight)) : InStep counter seen flight :=
  inStep.deliver.forget (Nat.le_of_lt inStep.seen_lt_head)

end InStep

end P2PHub.NumberedLink
