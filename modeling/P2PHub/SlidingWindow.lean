import Mathlib.Algebra.GroupWithZero.Nat
import Mathlib.Algebra.Order.BigOperators.Group.List
import Mathlib.Algebra.Order.Group.Nat
import Mathlib.Data.List.TakeWhile

/-!
# Budgets over sliding windows

A limiter keeps the part of its history that still counts and forgets the
rest.  This file says when forgetting is harmless and shows that admitting an
entry against what is kept keeps every window of the whole history within its
budget.
-/

namespace P2PHub.SlidingWindow

variable {Entry : Type*} {time : Entry → Int} {weight : Entry → Nat}
  {window now : Int} {budget : Nat} {history kept : List Entry} {entry : Entry}

/-- Total weight of the entries in the half-open window `(now - window, now]`. -/
def windowWeight (time : Entry → Int) (weight : Entry → Nat) (window now : Int)
    (history : List Entry) : Nat :=
  ((history.filter fun entry =>
    decide (now - window < time entry ∧ time entry ≤ now)).map weight).sum

def Within (time : Entry → Int) (weight : Entry → Nat) (window : Int) (budget : Nat)
    (history : List Entry) : Prop :=
  ∀ now, windowWeight time weight window now history ≤ budget

/-- `kept` is the history without a prefix that has left the window at `now`. -/
def Retains (time : Entry → Int) (window now : Int) (history kept : List Entry) : Prop :=
  ∃ dropped, history = dropped ++ kept ∧ ∀ entry ∈ dropped, time entry ≤ now - window

theorem within_nil : Within time weight window budget [] :=
  fun _ => Nat.zero_le _

theorem retains_nil : Retains time window now [] [] :=
  ⟨[], rfl, by simp⟩

theorem windowWeight_append (first second : List Entry) :
    windowWeight time weight window now (first ++ second) =
      windowWeight time weight window now first + windowWeight time weight window now second := by
  simp [windowWeight]

theorem windowWeight_map {Source : Type*} (source : Source → Entry) (history : List Source) :
    windowWeight time weight window now (history.map source) =
      windowWeight (time ∘ source) (weight ∘ source) window now history := by
  simp [windowWeight, List.filter_map, Function.comp_def]

theorem windowWeight_eq_zero
    (outside : ∀ entry ∈ history, time entry ≤ now - window ∨ now < time entry) :
    windowWeight time weight window now history = 0 := by
  have empty : (history.filter fun entry =>
      decide (now - window < time entry ∧ time entry ≤ now)) = [] := by
    apply List.filter_eq_nil_iff.mpr
    intro entry member
    have side := outside entry member
    simp only [decide_eq_true_eq, not_and]
    omega
  rw [windowWeight, empty]
  rfl

theorem windowWeight_le_sum (time : Entry → Int) (weight : Entry → Nat) (window now : Int)
    (history : List Entry) :
    windowWeight time weight window now history ≤ (history.map weight).sum := by
  apply List.Sublist.sum_le_sum
  · exact List.filter_sublist.map weight
  · intro value _
    exact Nat.zero_le value

theorem windowWeight_le_of_sublist {part : List Entry} (sublist : part.Sublist history) :
    windowWeight time weight window now part ≤ windowWeight time weight window now history := by
  apply List.Sublist.sum_le_sum
  · exact (sublist.filter _).map weight
  · intro value _
    exact Nat.zero_le value

section

variable (retains : Retains time window now history kept)
include retains

theorem Retains.later {later : Int}
    (passed : now ≤ later) : Retains time window later history kept := by
  obtain ⟨dropped, split, expired⟩ := retains
  refine ⟨dropped, split, fun entry member => ?_⟩
  have bound := expired entry member
  omega

theorem Retains.snoc : Retains time window now (history ++ [entry]) (kept ++ [entry]) := by
  obtain ⟨dropped, split, expired⟩ := retains
  exact ⟨dropped, by rw [split, List.append_assoc], expired⟩

theorem Retains.expire : Retains time window now history
      (kept.dropWhile fun entry => decide (time entry ≤ now - window)) := by
  obtain ⟨dropped, split, expired⟩ := retains
  refine ⟨dropped ++ kept.takeWhile fun entry => decide (time entry ≤ now - window), ?_, ?_⟩
  · rw [List.append_assoc, List.takeWhile_append_dropWhile, split]
  · intro entry member
    rcases List.mem_append.mp member with old | front
    · exact expired entry old
    · simpa using List.mem_takeWhile_imp front

end

theorem dropWhile_eq_filter {cutoff : Int}
    (ordered : history.Pairwise fun earlier later => time earlier ≤ time later) :
    (history.dropWhile fun entry => decide (time entry ≤ cutoff)) =
      history.filter fun entry => decide (cutoff < time entry) := by
  induction history with
  | nil => rfl
  | cons entry history ih =>
    obtain ⟨first, rest⟩ := List.pairwise_cons.mp ordered
    by_cases expired : time entry ≤ cutoff
    · have early : ¬cutoff < time entry := by omega
      simpa [expired, early] using ih rest
    · have late : ∀ later ∈ entry :: history, decide (cutoff < time later) := by
        intro later member
        rcases List.mem_cons.mp member with rfl | member
        · exact decide_eq_true (by omega)
        · have bound := first later member
          exact decide_eq_true (by omega)
      rw [List.filter_eq_self.mpr late, List.dropWhile_cons, decide_eq_false expired]
      rfl

theorem Retains.recent_eq (retains : Retains time window now history kept)
    (ordered : history.Pairwise fun earlier later => time earlier ≤ time later) :
    (kept.dropWhile fun entry => decide (time entry ≤ now - window)) =
      history.filter fun entry => decide (now - window < time entry) := by
  obtain ⟨dropped, rfl, expired⟩ := retains
  have gone : (dropped.filter fun entry => decide (now - window < time entry)) = [] := by
    apply List.filter_eq_nil_iff.mpr
    intro entry member
    have bound := expired entry member
    simp only [decide_eq_true_eq]
    omega
  rw [dropWhile_eq_filter (List.pairwise_append.mp ordered).2.1, List.filter_append, gone,
    List.nil_append]

theorem Retains.forget (retains : Retains time window now history kept)
    (expired : ∀ entry ∈ kept, time entry ≤ now - window) : Retains time window now history [] := by
  obtain ⟨dropped, split, droppedExpired⟩ := retains
  refine ⟨history, by simp, fun entry member => ?_⟩
  rw [split] at member
  rcases List.mem_append.mp member with old | recent
  · exact droppedExpired entry old
  · exact expired entry recent

/-- Admitting an entry that fits beside what is kept keeps every window of the
history within its budget. -/
theorem Within.snoc (within : Within time weight window budget history)
    (ordered : ∀ earlier ∈ history, time earlier ≤ time entry)
    (retains : Retains time window (time entry) history kept)
    (fits : (kept.map weight).sum + weight entry ≤ budget) :
    Within time weight window budget (history ++ [entry]) := by
  intro now
  rw [windowWeight_append]
  by_cases before : now < time entry
  · have newOutside : windowWeight time weight window now [entry] = 0 :=
      windowWeight_eq_zero (by simp [before])
    rw [newOutside, Nat.add_zero]
    exact within now
  · obtain ⟨dropped, rfl, expired⟩ := retains
    have droppedOutside : windowWeight time weight window now dropped = 0 := by
      apply windowWeight_eq_zero
      intro old member
      have bound := expired old member
      omega
    have keptBound := windowWeight_le_sum time weight window now kept
    have newBound := windowWeight_le_sum time weight window now [entry]
    rw [windowWeight_append, droppedOutside]
    simp only [List.map_cons, List.map_nil, List.sum_singleton] at newBound
    omega

/-- From the clock on every window of the history can be read off what is
kept, in whatever order entries expire. -/
def Shows (time : Entry → Int) (window clock : Int) (history kept : List Entry) : Prop :=
  ∀ later, clock ≤ later → (kept.filter fun entry => decide (later - window < time entry)) =
      history.filter fun entry => decide (later - window < time entry)

theorem Shows.refl (time : Entry → Int) (window clock : Int) (history : List Entry) :
    Shows time window clock history history :=
  fun _ _ => rfl

theorem Shows.later {clock later : Int} (shows : Shows time window clock history kept)
    (passed : clock ≤ later) : Shows time window later history kept :=
  fun moment reached => shows moment (passed.trans reached)

variable (shows : Shows time window now history kept)
include shows

theorem Shows.snoc : Shows time window now (history ++ [entry]) (kept ++ [entry]) := by
  intro later reached
  rw [List.filter_append, List.filter_append, shows later reached]

theorem Shows.expire : Shows time window now history
      (kept.filter fun entry => decide (now - window < time entry)) := by
  intro later reached
  rw [List.filter_filter, ← shows later reached]
  apply List.filter_congr
  intro entry _
  by_cases recent : later - window < time entry
  · have still : now - window < time entry := by omega
    simp [recent, still]
  · simp [recent]

theorem Shows.forget
    (expired : ∀ entry ∈ kept, time entry ≤ now - window) : Shows time window now history [] := by
  intro later reached
  rw [← shows later reached, List.filter_nil, eq_comm, List.filter_eq_nil_iff]
  intro entry member
  have bound := expired entry member
  simp only [decide_eq_true_eq]
  omega

end P2PHub.SlidingWindow
