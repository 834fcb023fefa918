import Mathlib.Data.List.Induction
import Mathlib.Tactic.Linarith

/-!
# Bijective numerals

Numerals whose digits run from one to the base, so that every number has
exactly one of them.
-/

namespace P2PHub.Bijective

variable {base number : ℕ} {digitList : List ℕ}

/-- The digits of a number, the most significant first. -/
def digits (base number : ℕ) : List ℕ :=
  if number = 0 then []
  else digits base ((number - 1) / base) ++ [(number - 1) % base + 1]
termination_by number
decreasing_by
  have quotient := Nat.div_le_self (number - 1) base
  omega

def value (base : ℕ) (digitList : List ℕ) : ℕ :=
  digitList.foldl (fun total digit => total * base + digit) 0

theorem digits_zero (base : ℕ) : digits base 0 = [] := by
  rw [digits, if_pos rfl]

theorem digits_of_pos (positive : 0 < number) :
    digits base number = digits base ((number - 1) / base) ++ [(number - 1) % base + 1] := by
  rw [digits, if_neg positive.ne']

theorem value_nil (base : ℕ) : value base [] = 0 :=
  rfl

theorem value_append_singleton (base : ℕ) (digitList : List ℕ) (digit : ℕ) :
    value base (digitList ++ [digit]) = value base digitList * base + digit := by
  rw [value, List.foldl_append]
  rfl

theorem digits_ne_nil (positive : 0 < number) : digits base number ≠ [] := by
  rw [digits_of_pos positive]
  exact List.append_ne_nil_of_right_ne_nil _ (List.cons_ne_nil _ _)

theorem mem_digits (basePositive : 0 < base) : ∀ digit ∈ digits base number, 1 ≤ digit ∧
    digit ≤ base := by
  induction number using Nat.strong_induction_on with
  | _ number ih =>
    rcases Nat.eq_zero_or_pos number with rfl | positive
    · rw [digits_zero]
      exact nofun
    · intro digit member
      rw [digits_of_pos positive, List.mem_append, List.mem_singleton] at member
      rcases member with earlier | rfl
      · have quotient := Nat.div_le_self (number - 1) base
        exact ih _ (by omega) digit earlier
      · have remainder := Nat.mod_lt (number - 1) basePositive
        omega

theorem value_digits (base number : ℕ) : value base (digits base number) = number := by
  induction number using Nat.strong_induction_on with
  | _ number ih =>
    rcases Nat.eq_zero_or_pos number with rfl | positive
    · rw [digits_zero, value_nil]
    · have quotient := Nat.div_le_self (number - 1) base
      have split := Nat.div_add_mod' (number - 1) base
      rw [digits_of_pos positive, value_append_singleton, ih _ (by omega)]
      omega

theorem digits_value (bounded : ∀ digit ∈ digitList, 1 ≤ digit ∧ digit ≤ base) :
    digits base (value base digitList) = digitList := by
  induction digitList using List.reverseRecOn with
  | nil => exact digits_zero base
  | append_singleton front last ih =>
    obtain ⟨frontBounded, lastBounded⟩ := List.forall_mem_append.mp bounded
    obtain ⟨lastPositive, lastBelow⟩ := lastBounded last (List.mem_singleton_self last)
    have before : value base front * base + last - 1 = last - 1 + base * value base front := by
      rw [Nat.mul_comm]
      omega
    have below : last - 1 < base := by omega
    rw [value_append_singleton, digits_of_pos (by omega), before,
      Nat.add_mul_div_left _ _ (by omega), Nat.div_eq_of_lt below, Nat.zero_add,
      Nat.add_mul_mod_self_left, Nat.mod_eq_of_lt below, ih frontBounded,
      Nat.sub_add_cancel lastPositive]

end P2PHub.Bijective
