import Mathlib.Algebra.Order.Field.Power
import Mathlib.Data.Int.Log
import Mathlib.Data.Rat.Floor

/-!
# Binary64 numbers

The numbers of IEEE 754 binary64 as rationals of 53 significant bits, the two
infinities and not-a-number, with rounding to nearest, ties to even.  The two
zeros are one number here: they compare equal and have one text.
-/

namespace P2PHub

namespace Binary64

def roundHalfEven (value : ℚ) : ℤ :=
  let below := ⌊value⌋
  let rest := value - below
  if rest < 1 / 2 then below
  else if 1 / 2 < rest then below + 1
  else if below % 2 = 0 then below
  else below + 1

/-- The exponent of the last bit of a number of this magnitude. -/
def unitExponent (value : ℚ) : ℤ :=
  max (Int.log 2 |value| - 52) (-1074)

/-- The nearest number of 53 bits, with no bound above. -/
def nearest (value : ℚ) : ℚ :=
  roundHalfEven (value / 2 ^ unitExponent value) * 2 ^ unitExponent value

def Representable (value : ℚ) : Prop :=
  ∃ mantissa exponent : ℤ, |mantissa| < 2 ^ 53 ∧ -1074 ≤ exponent ∧ exponent ≤ 971 ∧
    value = mantissa * 2 ^ exponent

section

variable {value : ℚ} {bound : ℤ}

theorem roundHalfEven_cases (value : ℚ) : roundHalfEven value = ⌊value⌋ ∨
      (roundHalfEven value = ⌊value⌋ + 1 ∧ (⌊value⌋ : ℚ) < value) := by
  unfold roundHalfEven
  dsimp only
  split
  · exact Or.inl rfl
  · next atLeast =>
      have above : (⌊value⌋ : ℚ) < value := by
        linarith
      split
      · exact Or.inr ⟨rfl, above⟩
      · split
        · exact Or.inl rfl
        · exact Or.inr ⟨rfl, above⟩

theorem roundHalfEven_intCast (whole : ℤ) : roundHalfEven (whole : ℚ) = whole := by
  rcases roundHalfEven_cases (whole : ℚ) with down | ⟨_, above⟩
  · rw [down, Int.floor_intCast]
  · rw [Int.floor_intCast] at above
    exact absurd above (lt_irrefl _)

theorem le_roundHalfEven (above : (bound : ℚ) ≤ value) : bound ≤ roundHalfEven value := by
  have floorAbove : bound ≤ ⌊value⌋ := Int.le_floor.mpr above
  rcases roundHalfEven_cases value with down | ⟨up, _⟩ <;> omega

theorem roundHalfEven_le (below : value ≤ (bound : ℚ)) : roundHalfEven value ≤ bound := by
  have floorBelow : ⌊value⌋ ≤ bound := by
    have floorLe := Int.floor_le value
    exact_mod_cast floorLe.trans below
  rcases roundHalfEven_cases value with down | ⟨up, above⟩
  · omega
  · have strict : ⌊value⌋ < bound := by exact_mod_cast above.trans_le below
    omega

theorem abs_roundHalfEven_le (below : |value| ≤ (bound : ℚ)) : |roundHalfEven value| ≤ bound := by
  rw [abs_le] at below ⊢
  have negBelow : ((-bound : ℤ) : ℚ) ≤ value := by
    exact below.1
  exact ⟨le_roundHalfEven negBelow, roundHalfEven_le below.2⟩

theorem le_abs_roundHalfEven (above : (bound : ℚ) ≤ |value|) : bound ≤ |roundHalfEven value| := by
  rcases le_abs.mp above with positive | negative
  · exact (le_roundHalfEven positive).trans (le_abs_self _)
  · have below : value ≤ ((-bound : ℤ) : ℚ) := by
      rw [Int.cast_neg]
      linarith
    have rounded := roundHalfEven_le below
    exact le_abs.mpr (Or.inr (by omega))

theorem two_zpow_pos (exponent : ℤ) : (0 : ℚ) < 2 ^ exponent :=
  zpow_pos (by norm_num) exponent

theorem abs_scaled_lt (value : ℚ) : |value / 2 ^ unitExponent value| < 2 ^ 53 := by
  have positive := two_zpow_pos (unitExponent value)
  rw [abs_div, abs_of_pos positive, div_lt_iff₀ positive]
  have below : |value| < (2 : ℚ) ^ (Int.log 2 |value| + 1) := by
    exact_mod_cast Int.lt_zpow_succ_log_self (by norm_num : 1 < 2) |value|
  have split : (2 : ℚ) ^ (53 : ℕ) * 2 ^ unitExponent value = 2 ^ (53 + unitExponent value) := by
    rw [zpow_add₀ (by norm_num)]
    norm_num
  rw [split]
  refine below.trans_le (zpow_le_zpow_right₀ (by norm_num) ?_)
  unfold unitExponent
  omega

theorem le_abs_scaled (nonzero : value ≠ 0) (normal : unitExponent value ≠ -1074) :
    (2 : ℚ) ^ 52 ≤ |value / 2 ^ unitExponent value| := by
  have positive := two_zpow_pos (unitExponent value)
  rw [abs_div, abs_of_pos positive, le_div_iff₀ positive]
  have above : (2 : ℚ) ^ Int.log 2 |value| ≤ |value| := by
    exact_mod_cast Int.zpow_log_le_self (b := 2) (by norm_num) (abs_pos.mpr nonzero)
  have unit : unitExponent value = Int.log 2 |value| - 52 := by
    unfold unitExponent at normal ⊢
    omega
  have split : (2 : ℚ) ^ (52 : ℕ) * 2 ^ unitExponent value = 2 ^ Int.log 2 |value| := by
    rw [← zpow_natCast, ← zpow_add₀ (by norm_num), unit]
    congr 1
    omega
  rw [split]
  exact above

theorem zpow_lt_zpow_iff {first second : ℤ} : (2 : ℚ) ^ first < 2 ^ second ↔ first < second :=
  zpow_lt_zpow_iff_right₀ (by norm_num)

theorem representable_nearest (bounded : |nearest value| < 2 ^ 1024) :
    Representable (nearest value) := by
  have scaled : |roundHalfEven (value / 2 ^ unitExponent value)| ≤ 2 ^ 53 := by
    refine abs_roundHalfEven_le ?_
    exact_mod_cast (abs_scaled_lt value).le
  have unitAbove : -1074 ≤ unitExponent value := le_max_right _ _
  have positive := two_zpow_pos (unitExponent value)
  have magnitude : |nearest value| =
      |(roundHalfEven (value / 2 ^ unitExponent value) : ℚ)| * 2 ^ unitExponent value := by
    rw [nearest, abs_mul, abs_of_pos positive]
  -- a magnitude of 2 ^ bits units bounds the exponent of the unit
  have unitBelow (bits : ℕ)
      (full : (2 : ℤ) ^ bits ≤ |roundHalfEven (value / 2 ^ unitExponent value)|) :
      bits + unitExponent value < 1024 := by
    have fullCast : (2 : ℚ) ^ bits ≤ |(roundHalfEven (value / 2 ^ unitExponent value) : ℚ)| := by
      exact_mod_cast full
    have above : (2 : ℚ) ^ ((bits : ℤ) + unitExponent value) ≤ |nearest value| := by
      rw [magnitude, zpow_add₀ (by norm_num), zpow_natCast]
      exact mul_le_mul_of_nonneg_right fullCast positive.le
    have below : (2 : ℚ) ^ ((bits : ℤ) + unitExponent value) < 2 ^ (1024 : ℤ) := by
      refine above.trans_lt ?_
      exact_mod_cast bounded
    exact zpow_lt_zpow_iff.mp below
  rcases scaled.lt_or_eq with below | carry
  · refine ⟨_, unitExponent value, below, unitAbove, ?_, rfl⟩
    by_cases tiny : unitExponent value = -1074
    · omega
    · by_cases zero : value = 0
      · subst zero
        simp [unitExponent]
      · have full : (2 : ℤ) ^ 52 ≤ |roundHalfEven (value / 2 ^ unitExponent value)| := by
          refine le_abs_roundHalfEven ?_
          exact_mod_cast le_abs_scaled zero tiny
        have bound := unitBelow 52 full
        omega
  · have bound := unitBelow 53 carry.ge
    obtain ⟨half, halfEq, halfAbs⟩ : ∃ half : ℤ,
        roundHalfEven (value / 2 ^ unitExponent value) = half * 2 ∧ |half| < 2 ^ 53 := by
      rcases abs_eq (by norm_num : (0 : ℤ) ≤ 2 ^ 53) |>.mp carry with up | down
      · exact ⟨2 ^ 52, by omega, by norm_num⟩
      · exact ⟨-2 ^ 52, by omega, by norm_num⟩
    refine ⟨half, unitExponent value + 1, halfAbs, by omega, by omega, ?_⟩
    rw [nearest, halfEq, zpow_add₀ (by norm_num)]
    push_cast
    ring

theorem nearest_of_representable (representable : Representable value) : nearest value = value := by
  obtain ⟨mantissa, exponent, bounded, unitAbove, _, rfl⟩ := representable
  have positive := two_zpow_pos exponent
  by_cases zero : mantissa = 0
  · subst zero
    simp [nearest, roundHalfEven]
  · have nonzero : (0 : ℚ) < |(mantissa : ℚ) * 2 ^ exponent| := by
      rw [abs_pos]
      exact mul_ne_zero (Int.cast_ne_zero.mpr zero) positive.ne'
    have below : |(mantissa : ℚ) * 2 ^ exponent| < 2 ^ (53 + exponent) := by
      rw [abs_mul, abs_of_pos positive, zpow_add₀ (by norm_num)]
      have boundedCast : |(mantissa : ℚ)| < 2 ^ (53 : ℤ) := by exact_mod_cast bounded
      exact mul_lt_mul_of_pos_right boundedCast positive
    have logBelow : Int.log 2 |(mantissa : ℚ) * 2 ^ exponent| < 53 + exponent := by
      refine (Int.lt_zpow_iff_log_lt (by norm_num) nonzero).mp ?_
      exact_mod_cast below
    have unitBelow : unitExponent ((mantissa : ℚ) * 2 ^ exponent) ≤ exponent := by
      unfold unitExponent
      omega
    obtain ⟨shift, shiftEq⟩ := Int.eq_ofNat_of_zero_le (Int.sub_nonneg_of_le unitBelow)
    have whole : (mantissa : ℚ) * 2 ^ exponent / 2 ^ unitExponent ((mantissa : ℚ) * 2 ^ exponent) =
        ((mantissa * 2 ^ shift : ℤ) : ℚ) := by
      rw [mul_div_assoc, ← zpow_sub₀ (by norm_num), shiftEq]
      push_cast
      rw [zpow_natCast]
    rw [nearest, whole, roundHalfEven_intCast, ← whole]
    exact div_mul_cancel₀ _ (two_zpow_pos _).ne'

theorem representable_zero : Representable 0 :=
  ⟨0, 0, by norm_num, by norm_num, by norm_num, by simp⟩

theorem Representable.neg {value : ℚ} (representable : Representable value) :
    Representable (-value) := by
  obtain ⟨mantissa, exponent, bounded, unitAbove, unitBelow, valueEq⟩ := representable
  refine ⟨-mantissa, exponent, by rwa [abs_neg], unitAbove, unitBelow, ?_⟩
  rw [valueEq]
  push_cast
  ring

theorem representable_intCast {whole : ℤ} (bounded : |whole| ≤ 2 ^ 53) :
    Representable (whole : ℚ) := by
  rcases bounded.lt_or_eq with below | atBound
  · exact ⟨whole, 0, below, by norm_num, by norm_num, by simp⟩
  · rcases abs_eq (by norm_num : (0 : ℤ) ≤ 2 ^ 53) |>.mp atBound with rfl | rfl
    · exact ⟨2 ^ 52, 1, by norm_num, by norm_num, by norm_num, by norm_num⟩
    · exact ⟨-2 ^ 52, 1, by norm_num, by norm_num, by norm_num, by norm_num⟩

end

theorem abs_lt_of_representable {value : ℚ} (representable : Representable value) :
    |value| < 2 ^ 1024 := by
  obtain ⟨mantissa, exponent, bounded, _, unitBelow, rfl⟩ := representable
  have positive := two_zpow_pos exponent
  have boundedCast : |(mantissa : ℚ)| < 2 ^ (53 : ℤ) := by exact_mod_cast bounded
  rw [abs_mul, abs_of_pos positive]
  calc |(mantissa : ℚ)| * 2 ^ exponent
      < 2 ^ (53 : ℤ) * 2 ^ exponent := mul_lt_mul_of_pos_right boundedCast positive
    _ = 2 ^ (53 + exponent) := (zpow_add₀ (by norm_num) _ _).symm
    _ ≤ 2 ^ (1024 : ℤ) := zpow_le_zpow_right₀ (by norm_num) (by omega)
    _ = 2 ^ 1024 := zpow_ofNat _ _

end Binary64

inductive Binary64
  | finite (value : ℚ) (representable : Binary64.Representable value)
  | infinite (negative : Bool)
  | nan

namespace Binary64

instance : DecidableEq Binary64
  | finite first _, finite second _ =>
    if same : first = second then isTrue (by subst same; rfl)
    else isFalse fun equal => by cases equal; exact same rfl
  | infinite first, infinite second =>
    if same : first = second then isTrue (by rw [same])
    else isFalse fun equal => by cases equal; exact same rfl
  | nan, nan => isTrue rfl
  | finite _ _, infinite _ => isFalse nofun
  | finite _ _, nan => isFalse nofun
  | infinite _, finite _ _ => isFalse nofun
  | infinite _, nan => isFalse nofun
  | nan, finite _ _ => isFalse nofun
  | nan, infinite _ => isFalse nofun

/-- The number nearest to a value, infinite beyond the greatest one. -/
def ofRat (value : ℚ) : Binary64 :=
  if bounded : |nearest value| < 2 ^ 1024 then
    finite (nearest value) (representable_nearest bounded)
  else infinite (decide (value < 0))

theorem ofRat_overflow {value : ℚ} (large : 2 ^ 1024 ≤ value) : ofRat value = infinite false := by
  have positive : 0 < value := lt_of_lt_of_le (by norm_num) large
  have log : (1024 : ℤ) ≤ Int.log 2 |value| := by
    rw [abs_of_pos positive]
    exact (Int.zpow_le_iff_le_log (by norm_num) positive).mp (by exact_mod_cast large)
  have unit : (972 : ℤ) ≤ unitExponent value := by
    unfold unitExponent
    omega
  have scaled : (2 : ℚ) ^ 52 ≤ |value / 2 ^ unitExponent value| :=
    le_abs_scaled positive.ne' (by omega)
  have rounded : ((2 ^ 52 : ℤ) : ℚ) ≤ |(roundHalfEven (value / 2 ^ unitExponent value) : ℚ)| := by
    exact_mod_cast le_abs_roundHalfEven (by exact_mod_cast scaled)
  have nearestLarge : (2 : ℚ) ^ 1024 ≤ |nearest value| := by
    rw [nearest, abs_mul, abs_of_pos (two_zpow_pos _)]
    calc (2 : ℚ) ^ 1024 = 2 ^ 52 * 2 ^ (972 : ℤ) := by
          exact pow_add 2 52 972
      _ ≤ |(roundHalfEven (value / 2 ^ unitExponent value) : ℚ)| * 2 ^ unitExponent value :=
        mul_le_mul (by exact_mod_cast rounded) (zpow_le_zpow_right₀ (by norm_num) unit)
          (two_zpow_pos _).le (abs_nonneg _)
  rw [ofRat, dif_neg (not_lt.mpr nearestLarge), decide_eq_false (not_lt.mpr positive.le)]

def ofInt (whole : ℤ) : Binary64 :=
  ofRat whole

def toRat? : Binary64 → Option ℚ
  | finite value _ => some value
  | infinite _ => none
  | nan => none

theorem ofRat_of_representable {value : ℚ} (representable : Representable value) :
    ofRat value = finite value representable := by
  have same := nearest_of_representable representable
  have bounded : |nearest value| < 2 ^ 1024 := by
    rw [same]
    exact abs_lt_of_representable representable
  rw [ofRat, dif_pos bounded]
  congr 1

def Safe (whole : ℤ) : Prop :=
  |whole| ≤ 2 ^ 53

instance (whole : ℤ) : Decidable (Safe whole) :=
  inferInstanceAs (Decidable (_ ≤ _))

theorem Safe.of_nonneg {whole : ℤ} (nonneg : 0 ≤ whole) (below : whole ≤ 2 ^ 53) : Safe whole := by
  unfold Safe
  rwa [abs_of_nonneg nonneg]

theorem ofInt_of_safe {whole : ℤ} (safe : Safe whole) :
    ofInt whole = finite whole (representable_intCast safe) :=
  ofRat_of_representable _

def neg : Binary64 → Binary64
  | finite value _ => ofRat (-value)
  | infinite negative => infinite (!negative)
  | nan => nan

def add : Binary64 → Binary64 → Binary64
  | finite first _, finite second _ => ofRat (first + second)
  | infinite first, infinite second => if first = second then infinite first else nan
  | infinite first, finite _ _ => infinite first
  | finite _ _, infinite second => infinite second
  | nan, _ => nan
  | _, nan => nan

def sub (first second : Binary64) : Binary64 :=
  add first second.neg

def isNegative : Binary64 → Bool
  | finite value _ => decide (value < 0)
  | infinite negative => negative
  | nan => false

def isZero : Binary64 → Bool
  | finite value _ => decide (value = 0)
  | infinite _ => false
  | nan => false

def mul : Binary64 → Binary64 → Binary64
  | finite first _, finite second _ => ofRat (first * second)
  | nan, _ => nan
  | _, nan => nan
  | first, second =>
    if first.isZero || second.isZero then nan
    else infinite (first.isNegative != second.isNegative)

def div : Binary64 → Binary64 → Binary64
  | finite first _, finite second _ =>
    if second = 0 then if first = 0 then nan else infinite (decide (first < 0))
    else ofRat (first / second)
  | infinite first, finite second _ => infinite (first != decide (second < 0))
  | finite _ _, infinite _ => ofRat 0
  | infinite _, infinite _ => nan
  | nan, _ => nan
  | _, nan => nan

/-- The remainder `%`, with the sign of the dividend. -/
def rem : Binary64 → Binary64 → Binary64
  | finite first _, finite second _ =>
    if second = 0 then nan
    else
      let quotient := first / second
      ofRat (first - second * (if quotient < 0 then ⌈quotient⌉ else ⌊quotient⌋))
  | finite first representable, infinite _ => finite first representable
  | _, _ => nan

/-- `Number.isInteger`. -/
def isInteger : Binary64 → Bool
  | finite value _ => decide (value.den = 1)
  | _ => false

def floor : Binary64 → Binary64
  | finite value _ => ofInt ⌊value⌋
  | number => number

/-- `Math.trunc`: round towards zero. -/
def trunc : Binary64 → Binary64
  | finite value _ => ofInt (if value < 0 then ⌈value⌉ else ⌊value⌋)
  | number => number

def lt : Binary64 → Binary64 → Bool
  | finite first _, finite second _ => decide (first < second)
  | infinite first, infinite second => first && !second
  | infinite first, finite _ _ => first
  | finite _ _, infinite second => !second
  | nan, _ => false
  | _, nan => false

/-- Equality of numbers: not-a-number is equal to nothing. -/
def same : Binary64 → Binary64 → Bool
  | nan, _ => false
  | first, second => decide (first = second)

def le (first second : Binary64) : Bool :=
  lt first second || same first second

section

variable {first second : ℤ} {dividend divisor : ℕ}

theorem add_ofInt (firstSafe : Safe first) (secondSafe : Safe second) :
    add (ofInt first) (ofInt second) = ofInt (first + second) := by
  rw [ofInt_of_safe firstSafe, ofInt_of_safe secondSafe]
  simp [add, ofInt]

theorem neg_ofInt (safe : Safe first) : neg (ofInt first) = ofInt (-first) := by
  rw [ofInt_of_safe safe]
  simp [neg, ofInt]

theorem Safe.neg (safe : Safe first) : Safe (-first) := by
  unfold Safe at safe ⊢
  rwa [abs_neg]

section

variable (firstSafe : Safe first) (secondSafe : Safe second)
include firstSafe secondSafe

theorem sub_ofInt : sub (ofInt first) (ofInt second) = ofInt (first - second) := by
  rw [sub, neg_ofInt secondSafe, add_ofInt firstSafe secondSafe.neg, sub_eq_add_neg]

theorem lt_ofInt : lt (ofInt first) (ofInt second) = decide (first < second) := by
  rw [ofInt_of_safe firstSafe, ofInt_of_safe secondSafe]
  simp [lt]

theorem mul_ofInt : mul (ofInt first) (ofInt second) = ofInt (first * second) := by
  rw [ofInt_of_safe firstSafe, ofInt_of_safe secondSafe]
  simp [mul, ofInt]

theorem same_ofInt : same (ofInt first) (ofInt second) = decide (first = second) := by
  rw [ofInt_of_safe firstSafe, ofInt_of_safe secondSafe]
  simp [same]

theorem le_ofInt : le (ofInt first) (ofInt second) = decide (first ≤ second) := by
  rw [le, lt_ofInt firstSafe secondSafe, same_ofInt firstSafe secondSafe, ← Bool.decide_or]
  exact decide_eq_decide.mpr le_iff_lt_or_eq.symm

end

theorem rem_ofInt (nonneg : 0 ≤ first) (positive : 0 < second) (firstSafe : Safe first)
    (secondSafe : Safe second) : rem (ofInt first) (ofInt second) = ofInt (first % second) := by
  have quotient : ⌊(first : ℚ) / second⌋ = first / second := by
    obtain ⟨divisor, rfl⟩ := Int.eq_ofNat_of_zero_le positive.le
    exact Rat.floor_intCast_div_natCast first divisor
  have notNegative : ¬((first : ℚ) / second < 0) := by
    rw [not_lt]
    have firstNonneg : (0 : ℚ) ≤ first := by exact_mod_cast nonneg
    have secondNonneg : (0 : ℚ) ≤ second := by exact_mod_cast positive.le
    exact div_nonneg firstNonneg secondNonneg
  have nonzero : (second : ℚ) ≠ 0 := by exact_mod_cast positive.ne'
  have remainder : (first : ℚ) - second * ((first / second : ℤ) : ℚ) = ((first % second : ℤ) : ℚ) :=
    by
    rw [Int.emod_def]
    push_cast
    ring
  rw [ofInt_of_safe firstSafe, ofInt_of_safe secondSafe]
  simp only [rem, if_neg nonzero, if_neg notNegative, quotient, remainder, ofInt]

theorem abs_roundHalfEven_sub_le (value : ℚ) : |(roundHalfEven value : ℚ) - value| ≤ 1 / 2 := by
  have floorLe := Int.floor_le value
  have ltFloor := Int.lt_floor_add_one value
  unfold roundHalfEven
  dsimp only
  rw [abs_le]
  split
  · constructor <;> linarith
  · next atLeast =>
      split
      · push_cast
        constructor <;> linarith
      · next atMost =>
          split
          · constructor <;> linarith
          · push_cast
            constructor <;> linarith

theorem abs_nearest_sub_le (value : ℚ) : |nearest value - value| ≤ 2 ^ unitExponent value / 2 := by
  have positive := two_zpow_pos (unitExponent value)
  have scaled := abs_roundHalfEven_sub_le (value / 2 ^ unitExponent value)
  have difference : nearest value - value =
      (roundHalfEven (value / 2 ^ unitExponent value) - value / 2 ^ unitExponent value) *
        2 ^ unitExponent value := by
    rw [sub_mul, div_mul_cancel₀ _ positive.ne', nearest]
  rw [difference, abs_mul, abs_of_pos positive]
  have product := mul_le_mul_of_nonneg_right scaled positive.le
  linarith

/-- The quotient of two exact integers is rounded by less than what parts it
from the next integer. -/
theorem abs_nearest_div_sub_lt (below : dividend < 2 ^ 53)
    (positive : 0 < divisor) (divisorBelow : divisor ≤ 2 ^ 53) :
    |nearest ((dividend : ℚ) / divisor) - dividend / divisor| < 1 / divisor := by
  have divisorPositive : (0 : ℚ) < divisor := by exact_mod_cast positive
  by_cases zero : (dividend : ℚ) / divisor = 0
  · rw [zero, nearest_of_representable representable_zero, sub_zero, abs_zero]
    positivity
  refine (abs_nearest_sub_le _).trans_lt ?_
  rw [div_lt_div_iff₀ (by norm_num) divisorPositive, one_mul]
  by_cases normal : unitExponent ((dividend : ℚ) / divisor) = -1074
  · rw [normal]
    have bound : (divisor : ℚ) ≤ 2 ^ 53 := by exact_mod_cast divisorBelow
    have tiny : (2 : ℚ) ^ (-1074 : ℤ) ≤ 2 ^ (-53 : ℤ) :=
      zpow_le_zpow_right₀ (by norm_num) (by norm_num)
    calc
      (2 : ℚ) ^ (-1074 : ℤ) * divisor ≤ 2 ^ (-53 : ℤ) * 2 ^ 53 :=
        mul_le_mul tiny bound divisorPositive.le (two_zpow_pos _).le
      _ < 2 := by norm_num
  · have unitPositive := two_zpow_pos (unitExponent ((dividend : ℚ) / divisor))
    have nonneg : (0 : ℚ) ≤ dividend / divisor := by positivity
    have scaled := le_abs_scaled zero normal
    rw [abs_of_nonneg (div_nonneg nonneg unitPositive.le), le_div_iff₀ unitPositive,
      le_div_iff₀ divisorPositive] at scaled
    have bound : (dividend : ℚ) < 2 ^ 53 := by exact_mod_cast below
    linarith

theorem floor_nearest_div {quotient remainder : ℕ} (below : dividend < 2 ^ 53)
    (remainderBelow : remainder < divisor) (divisorBelow : divisor ≤ 2 ^ 53)
    (split : quotient * divisor + remainder = dividend) :
    ⌊nearest ((dividend : ℚ) / divisor)⌋ = (quotient : ℤ) := by
  have positive : 0 < divisor := Nat.zero_lt_of_lt remainderBelow
  have divisorPositive : (0 : ℚ) < divisor := by exact_mod_cast positive
  have close := abs_nearest_div_sub_lt below positive divisorBelow
  rw [abs_lt] at close
  have quotientEq : (dividend : ℚ) / divisor = quotient + remainder / divisor := by
    rw [← split]
    push_cast
    field_simp
  rw [Int.floor_eq_iff, Int.cast_natCast]
  constructor
  · rcases Nat.eq_zero_or_pos remainder with rfl | left
    · have whole : (dividend : ℚ) / divisor = (quotient : ℤ) := by
        rw [quotientEq]
        simp
      have small : Safe (quotient : ℤ) := by
        have quotientLe := Nat.le_mul_of_pos_right quotient positive
        refine Safe.of_nonneg (Int.natCast_nonneg _) ?_
        exact_mod_cast (by omega : quotient ≤ 2 ^ 53)
      rw [whole, nearest_of_representable (representable_intCast small), Int.cast_natCast]
    · have remainderAbove : (1 : ℚ) / divisor ≤ (remainder : ℚ) / divisor := by
        refine div_le_div_of_nonneg_right ?_ divisorPositive.le
        exact_mod_cast left
      linarith
  · have most : (remainder : ℚ) + 1 ≤ divisor := by
      exact_mod_cast remainderBelow
    have remainderMost : (remainder : ℚ) / divisor ≤ 1 - 1 / divisor := by
      rw [div_le_iff₀ divisorPositive, sub_mul, one_mul, one_div,
        inv_mul_cancel₀ divisorPositive.ne']
      linarith
    linarith

theorem floor_div_ofInt (below : dividend < 2 ^ 53)
    (positive : 0 < divisor) (divisorBelow : divisor ≤ 2 ^ 53) :
    floor (div (ofInt dividend) (ofInt divisor)) = ofInt (dividend / divisor : ℕ) := by
  have dividendSafe : Safe (dividend : ℤ) :=
    Safe.of_nonneg (Int.natCast_nonneg _) (by exact_mod_cast below.le)
  have divisorSafe : Safe (divisor : ℤ) :=
    Safe.of_nonneg (Int.natCast_nonneg _) (by exact_mod_cast divisorBelow)
  have nonzero : (divisor : ℚ) ≠ 0 := by exact_mod_cast positive.ne'
  have split := Nat.div_add_mod' dividend divisor
  have quotientBelow : dividend / divisor ≤ 2 ^ 53 :=
    (Nat.div_le_self dividend divisor).trans below.le
  generalize dividend / divisor = quotient at split quotientBelow ⊢
  have floorEq := floor_nearest_div below (Nat.mod_lt dividend positive) divisorBelow split
  have bounded : |nearest ((dividend : ℚ) / divisor)| < 2 ^ 1024 := by
    obtain ⟨above, under⟩ := Int.floor_eq_iff.mp floorEq
    have quotientLe : (quotient : ℚ) ≤ 2 ^ 53 := by exact_mod_cast quotientBelow
    rw [Int.cast_natCast] at above under
    have room : (2 : ℚ) ^ 54 ≤ 2 ^ 1024 := pow_le_pow_right₀ (by norm_num) (by norm_num)
    generalize (2 : ℚ) ^ 1024 = top at room ⊢
    rw [abs_lt]
    constructor <;> linarith
  rw [ofInt_of_safe dividendSafe, ofInt_of_safe divisorSafe]
  simp only [div, Int.cast_natCast, if_neg nonzero, ofRat, dif_pos bounded, floor, floorEq]

end

theorem abs_lt_of_abs_nearest_le {value : ℚ} {bound : ℕ} (small : bound + 1 < 2 ^ 53)
    (below : |nearest value| ≤ bound) : |value| < bound + 1 := by
  have smallCast : (bound : ℚ) + 1 < 2 ^ 53 := by exact_mod_cast small
  have rounded := abs_nearest_sub_le value
  have reach : |value| ≤ |nearest value| + |nearest value - value| := by
    have sum := abs_sub_abs_le_abs_sub value (nearest value)
    rw [abs_sub_comm value] at sum
    linarith
  by_cases normal : unitExponent value = -1074
  · have tiny : (2 : ℚ) ^ unitExponent value ≤ 1 := by
      rw [normal]
      exact zpow_le_one_of_nonpos₀ (by norm_num) (by norm_num)
    linarith
  · by_cases zero : value = 0
    · rw [zero, abs_zero]
      positivity
    · have scaled := le_abs_scaled zero normal
      have positive := two_zpow_pos (unitExponent value)
      rw [abs_div, abs_of_pos positive, le_div_iff₀ positive] at scaled
      linarith

end Binary64

end P2PHub
