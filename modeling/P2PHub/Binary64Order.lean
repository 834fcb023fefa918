import P2PHub.Binary64

/-!
# The order of binary64 numbers

Rounding is monotone, and so is the addition of numbers that are not negative,
an infinite one among them.
-/

namespace P2PHub.Binary64

section

variable {first second : ℚ}

theorem roundHalfEven_mono (below : first ≤ second) :
    roundHalfEven first ≤ roundHalfEven second := by
  rcases lt_or_eq_of_le (Int.floor_le_floor below) with less | same
  · have up : roundHalfEven first ≤ ⌊first⌋ + 1 := by
      rcases roundHalfEven_cases first with down | ⟨above, _⟩ <;> omega
    have down : ⌊second⌋ ≤ roundHalfEven second := le_roundHalfEven (Int.floor_le second)
    omega
  · have rest : first - ⌊first⌋ ≤ second - ⌊second⌋ := by
      rw [same]
      linarith
    unfold roundHalfEven
    dsimp only
    rw [same] at rest ⊢
    split
    · split
      · exact le_rfl
      · split
        · omega
        · split
          · exact le_rfl
          · omega
    · next notLess =>
        have notLessSecond : ¬second - ⌊second⌋ < 1 / 2 := by linarith
        split
        · next more =>
            have moreSecond : 1 / 2 < second - ⌊second⌋ := by linarith
            rw [if_pos moreSecond]
        · split
          · split
            · omega
            · exact le_rfl
          · split <;> exact le_rfl

theorem unitExponent_mono (nonneg : 0 ≤ first) (below : first ≤ second) :
    unitExponent first ≤ unitExponent second ∨ first = 0 := by
  rcases nonneg.eq_or_lt with zero | positive
  · exact Or.inr zero.symm
  · have log : Int.log 2 |first| ≤ Int.log 2 |second| := by
      rw [abs_of_nonneg nonneg, abs_of_nonneg (nonneg.trans below)]
      exact Int.log_mono_right positive below
    refine Or.inl ?_
    unfold unitExponent
    omega

theorem nearest_nonneg (nonneg : 0 ≤ first) : 0 ≤ nearest first := by
  have rounded : (0 : ℤ) ≤ roundHalfEven (first / 2 ^ unitExponent first) := by
    apply le_roundHalfEven
    exact div_nonneg nonneg (two_zpow_pos _).le
  exact mul_nonneg (by exact_mod_cast rounded) (two_zpow_pos _).le

theorem nearest_mono (nonneg : 0 ≤ first) (below : first ≤ second) :
    nearest first ≤ nearest second := by
  have secondNonneg := nonneg.trans below
  rcases unitExponent_mono nonneg below with units | rfl
  · rcases units.lt_or_eq with less | same
    · have small : roundHalfEven (first / 2 ^ unitExponent first) ≤ 2 ^ 53 := by
        apply roundHalfEven_le
        have scaled := (le_abs_self _).trans (abs_scaled_lt first).le
        exact_mod_cast scaled
      have nonzero : second ≠ 0 := by
        rintro rfl
        have zero : first = 0 := le_antisymm below nonneg
        rw [zero] at less
        exact lt_irrefl _ less
      have normal : unitExponent second ≠ -1074 := by
        have least : (-1074 : ℤ) ≤ unitExponent first := le_max_right _ _
        omega
      have large : 2 ^ 52 ≤ roundHalfEven (second / 2 ^ unitExponent second) := by
        apply le_roundHalfEven
        have scaled := le_abs_scaled nonzero normal
        rw [abs_of_nonneg (div_nonneg secondNonneg (two_zpow_pos _).le)] at scaled
        exact_mod_cast scaled
      calc nearest first ≤ 2 ^ 53 * 2 ^ unitExponent first :=
            mul_le_mul_of_nonneg_right (by exact_mod_cast small) (two_zpow_pos _).le
        _ = 2 ^ 52 * 2 ^ (unitExponent first + 1) := by
            rw [zpow_add₀ (by norm_num), zpow_one]
            ring
        _ ≤ 2 ^ 52 * 2 ^ unitExponent second :=
            mul_le_mul_of_nonneg_left (zpow_le_zpow_right₀ (by norm_num) less) (by norm_num)
        _ ≤ nearest second :=
            mul_le_mul_of_nonneg_right (by exact_mod_cast large) (two_zpow_pos _).le
    · have rounded : roundHalfEven (first / 2 ^ unitExponent first) ≤
          roundHalfEven (second / 2 ^ unitExponent second) := by
        apply roundHalfEven_mono
        rw [same]
        exact div_le_div_of_nonneg_right below (two_zpow_pos _).le
      unfold nearest
      rw [same] at rounded ⊢
      exact mul_le_mul_of_nonneg_right (by exact_mod_cast rounded) (two_zpow_pos _).le
  · rw [nearest_of_representable representable_zero]
    exact nearest_nonneg secondNonneg

end

variable {first second third weight : Binary64} {value : ℚ}

def Nonneg : Binary64 → Prop
  | finite value _ => 0 ≤ value
  | infinite negative => negative = false
  | nan => False

theorem le_finite {other : ℚ} {representable : Representable value}
    {otherRepresentable : Representable other} :
    le (finite value representable) (finite other otherRepresentable) ↔ value ≤ other := by
  simp [le, lt, same, le_iff_lt_or_eq]

theorem le_infinite (nonneg : first.Nonneg) : first.le (infinite false) := by
  cases first with
  | finite => rfl
  | infinite =>
    obtain rfl := nonneg
    rfl
  | nan => exact absurd nonneg not_false

theorem zero_le (nonneg : first.Nonneg) : (ofInt 0).le first := by
  have zero : ofInt 0 = finite 0 representable_zero := by
    decide +kernel
  rw [zero]
  cases first with
  | finite => exact le_finite.mpr nonneg
  | infinite =>
    obtain rfl := nonneg
    rfl
  | nan => exact absurd nonneg not_false

theorem not_infinite_le (representable : Representable value) :
    ¬le (infinite false) (finite value representable) := by
  simp [le, lt, same]

theorem Nonneg.le_refl (nonneg : first.Nonneg) : first.le first := by
  cases first with
  | finite => exact le_finite.mpr le_rfl
  | infinite => simp [le, same]
  | nan => exact absurd nonneg not_false

theorem le_of_lt (less : first.lt second) : first.le second := by
  rw [le, less, Bool.true_or]

theorem Nonneg.le_trans (nonneg : first.Nonneg) (secondNonneg : second.Nonneg)
    (thirdNonneg : third.Nonneg) (below : first.le second)
    (above : second.le third) : first.le third := by
  cases third with
  | nan => exact absurd thirdNonneg not_false
  | infinite =>
    obtain rfl := thirdNonneg
    exact le_infinite nonneg
  | finite =>
    cases second with
    | nan => exact absurd secondNonneg not_false
    | infinite =>
      obtain rfl := secondNonneg
      exact absurd above (not_infinite_le _)
    | finite =>
      cases first with
      | nan => exact absurd nonneg not_false
      | infinite =>
        obtain rfl := nonneg
        exact absurd below (not_infinite_le _)
      | finite => exact le_finite.mpr ((le_finite.mp below).trans (le_finite.mp above))

theorem Nonneg.le_of_not_lt (nonneg : first.Nonneg) (secondNonneg : second.Nonneg)
    (notLess : ¬first.lt second) : second.le first := by
  cases first with
  | nan => exact absurd nonneg not_false
  | infinite =>
    obtain rfl := nonneg
    exact le_infinite secondNonneg
  | finite =>
    cases second with
    | nan => exact absurd secondNonneg not_false
    | infinite =>
      obtain rfl := secondNonneg
      exact absurd rfl notLess
    | finite =>
      rw [lt, decide_eq_true_eq, not_lt] at notLess
      exact le_finite.mpr notLess

theorem not_lt_of_le (nonneg : first.Nonneg) (below : first.le second) :
    ¬second.lt first := by
  cases first with
  | nan => exact absurd nonneg not_false
  | infinite =>
    obtain rfl := nonneg
    cases second <;> simp_all [le, lt, same]
  | finite =>
    cases second with
    | finite =>
      rw [lt, decide_eq_true_eq, not_lt]
      exact le_finite.mp below
    | _ => simp_all [le, lt, same]

theorem ofRat_nonneg (nonneg : 0 ≤ value) : (ofRat value).Nonneg := by
  unfold ofRat
  split
  · exact nearest_nonneg nonneg
  · exact decide_eq_false nonneg.not_gt

theorem ofRat_mono {other : ℚ} (nonneg : 0 ≤ value) (below : value ≤ other) :
    (ofRat value).le (ofRat other) := by
  have rounded := nearest_mono nonneg below
  have otherNonneg := nonneg.trans below
  by_cases bounded : |nearest other| < 2 ^ 1024
  · have firstBounded : |nearest value| < 2 ^ 1024 := by
      rw [abs_of_nonneg (nearest_nonneg otherNonneg)] at bounded
      rw [abs_of_nonneg (nearest_nonneg nonneg)]
      exact rounded.trans_lt bounded
    rw [ofRat, ofRat, dif_pos bounded, dif_pos firstBounded]
    exact le_finite.mpr rounded
  · have overflow : ofRat other = infinite false := by
      rw [ofRat, dif_neg bounded, decide_eq_false otherNonneg.not_gt]
    rw [overflow]
    exact le_infinite (ofRat_nonneg nonneg)

theorem Nonneg.add (nonneg : first.Nonneg) (secondNonneg : second.Nonneg) :
    (first.add second).Nonneg := by
  cases first with
  | nan => exact absurd nonneg not_false
  | infinite negative =>
    obtain rfl := nonneg
    cases second with
    | nan => exact absurd secondNonneg not_false
    | infinite =>
      obtain rfl := secondNonneg
      rfl
    | finite => rfl
  | finite =>
    cases second with
    | nan => exact absurd secondNonneg not_false
    | infinite => exact secondNonneg
    | finite => exact ofRat_nonneg (add_nonneg nonneg secondNonneg)

theorem Nonneg.add_le_add (weightNonneg : weight.Nonneg) (nonneg : first.Nonneg)
    (secondNonneg : second.Nonneg) (below : first.le second) :
    (weight.add first).le (weight.add second) := by
  cases weight with
  | nan => exact absurd weightNonneg not_false
  | infinite negative =>
    obtain rfl := weightNonneg
    have infinite_add {other : Binary64} (otherNonneg : other.Nonneg) :
        (infinite false).add other = infinite false := by
      cases other with
      | nan => exact absurd otherNonneg not_false
      | infinite =>
        obtain rfl := otherNonneg
        rfl
      | finite => rfl
    rw [infinite_add nonneg, infinite_add secondNonneg]
    rfl
  | finite =>
    cases second with
    | nan => exact absurd secondNonneg not_false
    | infinite =>
      obtain rfl := secondNonneg
      exact le_infinite (Nonneg.add weightNonneg nonneg)
    | finite =>
      cases first with
      | nan => exact absurd nonneg not_false
      | infinite =>
        obtain rfl := nonneg
        exact absurd below (not_infinite_le _)
      | finite =>
        refine ofRat_mono (add_nonneg weightNonneg nonneg) ?_
        exact add_le_add_right (le_finite.mp below) _

end P2PHub.Binary64
