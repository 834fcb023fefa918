import P2PHub.Binary64

/-!
# Decimal texts of binary64 numbers

Unsigned decimal numerals with a fraction and an exponent, the number a numeral
stands for, and the text that JavaScript writes for a number: the shortest
decimal that rounds to it.  Reading that text gives the number back.
-/

namespace P2PHub

/-- An unsigned numeral: the digits before and after the point, and the
exponent. -/
structure Numeral where
  whole : List Char
  fraction : List Char
  exponent : Int
  deriving DecidableEq, Repr

namespace Numeral

def value (numeral : Numeral) : ℚ :=
  (Nat.ofDigitChars 10 (numeral.whole ++ numeral.fraction) 0 : ℕ) *
    10 ^ (numeral.exponent - numeral.fraction.length)

def number (numeral : Numeral) : Binary64 :=
  .ofRat numeral.value

/-- Digits that begin with a zero before another digit. -/
def leadingZero : List Char → Bool
  | '0' :: _ :: _ => true
  | _ => false

def scanFraction (text : List Char) : List Char × List Char :=
  match text with
  | '.' :: rest =>
    match rest.takeWhile Char.isDigit with
    | [] => ([], text)
    | digits => (digits, rest.dropWhile Char.isDigit)
  | _ => ([], text)

def scanSign (text : List Char) : Bool × List Char :=
  match text with
  | '-' :: rest => (true, rest)
  | '+' :: rest => (false, rest)
  | _ => (false, text)

def scanExponent (text : List Char) : Int × List Char :=
  match text with
  | mark :: rest =>
    if mark = 'e' ∨ mark = 'E' then
      let (negative, signless) := scanSign rest
      match signless.takeWhile Char.isDigit with
      | [] => (0, text)
      | digits =>
        let magnitude : Int := Nat.ofDigitChars 10 digits 0
        (if negative then -magnitude else magnitude, signless.dropWhile Char.isDigit)
    else (0, text)
  | [] => (0, [])

/-- The longest numeral at the start of a text, after
`\d+(\.\d+)?([eE][+-]?\d+)?`, and what follows it. -/
def scan (text : List Char) : Option (Numeral × List Char) :=
  match text.takeWhile Char.isDigit with
  | [] => none
  | whole =>
    let (fraction, afterFraction) := scanFraction (text.dropWhile Char.isDigit)
    let (exponent, rest) := scanExponent afterFraction
    some (⟨whole, fraction, exponent⟩, rest)

end Numeral

namespace Binary64

/-- The decimals of `digits` digits around a positive value, as a whole number
and a power of ten. -/
def decimalsAround (value : ℚ) (digits : ℕ) : List (ℕ × ℤ) :=
  let point := Int.log 10 value + 1
  let below := ⌊value * 10 ^ (digits - point)⌋₊
  [(below, point - digits),
    if below + 1 = 10 ^ digits then (1, point) else (below + 1, point - digits)]

def decimalValue (decimal : ℕ × ℤ) : ℚ :=
  decimal.1 * 10 ^ decimal.2

def closerDecimal (value : ℚ) (first second : ℕ × ℤ) : ℕ × ℤ :=
  let firstError := |decimalValue first - value|
  let secondError := |decimalValue second - value|
  if firstError < secondError then first
  else if secondError < firstError then second
  else if first.1 % 2 = 0 then first else second

/-- The closest decimal of `digits` digits that rounds to a value. -/
def decimalOf (value : ℚ) (digits : ℕ) : Option (ℕ × ℤ) :=
  match (decimalsAround value digits).filter fun decimal => nearest (decimalValue decimal) =
    value with
  | [] => none
  | [only] => some only
  | first :: second :: _ => some (closerDecimal value first second)

/-- The shortest decimal that rounds to a value.  Every number has one of 17
digits; the exact decimal stands for the case that cannot occur. -/
def shortestDecimal (value : ℚ) : ℕ × ℤ :=
  ((List.range' 1 17).findSome? (decimalOf value)).getD (⌊value * 10 ^ 1074⌋₊, -1074)

/-- How `Number::toString` lays out a decimal. -/
def layOut (decimal : ℕ × ℤ) : List Char :=
  let digits := Nat.toDigits 10 decimal.1
  let point : ℤ := digits.length + decimal.2
  if 0 ≤ decimal.2 ∧ point ≤ 21 then digits ++ List.replicate decimal.2.toNat '0'
  else if 0 < point ∧ point ≤ 21 then
    digits.take point.toNat ++ '.' :: digits.drop point.toNat
  else if -6 < point ∧ point ≤ 0 then
    '0' :: '.' :: List.replicate (-point).toNat '0' ++ digits
  else
    let mantissa := match digits with
      | [] => []
      | [digit] => [digit]
      | digit :: rest => digit :: '.' :: rest
    mantissa ++ 'e' :: (if 0 ≤ point - 1 then '+' else '-') :: Nat.toDigits 10 (point - 1).natAbs

/-- The text of a value that is not negative.  The digits of a whole number
below 2 ^ 53 are its shortest decimal. -/
def magnitudeText (value : ℚ) : List Char :=
  if value.den = 1 ∧ value < 2 ^ 53 then Nat.toDigits 10 value.num.toNat
  else layOut (shortestDecimal value)

/-- `String(number)`. -/
def text : Binary64 → List Char
  | finite value _ => if value < 0 then '-' :: magnitudeText (-value) else magnitudeText value
  | infinite false => "Infinity".toList
  | infinite true => "-Infinity".toList
  | nan => "NaN".toList

end Binary64

namespace Binary64

theorem text_of_neg {value : ℚ} (representable : Representable value) (negative : value < 0) :
    (finite value representable).text = '-' :: magnitudeText (-value) :=
  if_pos negative

theorem text_of_nonneg {value : ℚ} (representable : Representable value) (nonneg : 0 ≤ value) :
    (finite value representable).text = magnitudeText value :=
  if_neg nonneg.not_gt

end Binary64

section

open Numeral

variable {digits fraction rest : List Char}

theorem takeWhile_run {test : Char → Bool} (all : ∀ char ∈ digits, test char)
    (stops : ∀ next ∈ rest.head?, test next = false) :
    (digits ++ rest).takeWhile test = digits ∧ (digits ++ rest).dropWhile test = rest := by
  induction digits with
  | nil =>
    cases rest with
    | nil => exact ⟨rfl, rfl⟩
    | cons next =>
      have other := stops next rfl
      simp [other]
  | cons digit digits ih =>
    obtain ⟨taken, dropped⟩ := ih fun other member => all other (List.mem_cons_of_mem _ member)
    have passes := all digit List.mem_cons_self
    simp [passes, taken, dropped]

/-- What may follow a numeral without being read as part of it. -/
def EndsNumeral (rest : List Char) : Prop :=
  ∀ next ∈ rest.head?, next.isDigit = false ∧ next ≠ '.' ∧ next ≠ 'e' ∧ next ≠ 'E'

theorem EndsNumeral.stops (ends : EndsNumeral rest) : ∀ next ∈ rest.head?, next.isDigit = false :=
  fun next member => (ends next member).1

theorem scanFraction_none (ends : ∀ next ∈ rest.head?, next ≠ '.') :
    scanFraction rest = ([], rest) := by
  unfold scanFraction
  split
  · exact absurd rfl (ends '.' rfl)
  · rfl

theorem scanFraction_some (all : ∀ digit ∈ fraction, digit.isDigit) (some : fraction ≠ [])
    (stops : ∀ next ∈ rest.head?, next.isDigit = false) :
    scanFraction ('.' :: (fraction ++ rest)) = (fraction, rest) := by
  obtain ⟨taken, dropped⟩ := takeWhile_run all stops
  simp only [scanFraction, taken, dropped]

theorem scanExponent_none (ends : ∀ next ∈ rest.head?, next ≠ 'e' ∧ next ≠ 'E') :
    scanExponent rest = (0, rest) := by
  cases rest with
  | nil => rfl
  | cons next =>
    obtain ⟨notLower, notUpper⟩ := ends next rfl
    simp [scanExponent, notLower, notUpper]

theorem scanExponent_some (exponent : ℤ) (stops : ∀ next ∈ rest.head?, next.isDigit = false) :
    scanExponent ('e' :: (if 0 ≤ exponent then '+' else '-') ::
      (Nat.toDigits 10 exponent.natAbs ++ rest)) = (exponent, rest) := by
  have all : ∀ digit ∈ Nat.toDigits 10 exponent.natAbs, digit.isDigit :=
    fun digit member => Nat.isDigit_of_mem_toDigits (by norm_num) (by norm_num) member
  obtain ⟨taken, dropped⟩ := takeWhile_run all stops
  by_cases nonneg : 0 ≤ exponent
  · simp only [scanExponent, nonneg, if_true, scanSign, true_or, taken, dropped]
    simp [nonneg]
  · have magnitude : -|exponent| = exponent := by rw [abs_of_neg (not_le.mp nonneg), neg_neg]
    simp only [scanExponent, nonneg, if_true, if_false, scanSign, true_or, taken, dropped]
    simp [magnitude]

end

namespace Numeral

variable {whole fraction rest : List Char} {exponent : ℤ}

theorem head_of_scan {text : List Char} {read : Numeral × List Char} (scanned : scan text =
    some read) : ∃ digit tail, text = digit :: tail ∧ digit.isDigit := by
  cases text with
  | nil => cases scanned
  | cons digit tail =>
    refine ⟨digit, tail, rfl, ?_⟩
    by_contra notDigit
    simp [scan, notDigit] at scanned

/-- The text of a numeral with digits before the point. -/
def spelled (numeral : Numeral) (marked : Bool) : List Char :=
  numeral.whole ++ (if numeral.fraction = [] then [] else '.' :: numeral.fraction) ++
    (if marked then
      'e' :: (if 0 ≤ numeral.exponent then '+' else '-') :: Nat.toDigits 10 numeral.exponent.natAbs
    else [])

theorem scan_spelled {numeral : Numeral} {marked : Bool}
    (wholeDigits : ∀ digit ∈ numeral.whole, digit.isDigit) (someWhole : numeral.whole ≠ [])
    (fractionDigits : ∀ digit ∈ numeral.fraction, digit.isDigit)
    (unmarked : marked = false → numeral.exponent = 0) (ends : EndsNumeral rest) :
    scan (numeral.spelled marked ++ rest) = some (numeral, rest) := by
  obtain ⟨whole, fraction, exponent⟩ := numeral
  dsimp only at wholeDigits someWhole fractionDigits unmarked
  -- the part from the exponent on
  obtain ⟨tail, tailEq, tailScans, tailStops, tailPoint⟩ : ∃ tail : List Char,
      tail = (if marked then 'e' :: (if 0 ≤ exponent then '+' else '-') ::
        Nat.toDigits 10 exponent.natAbs else []) ++ rest ∧
      scanExponent tail = (exponent, rest) ∧
      (∀ next ∈ tail.head?, next.isDigit = false) ∧ ∀ next ∈ tail.head?, next ≠ '.' := by
    cases marked with
    | false =>
      refine ⟨rest, by simp, ?_, ends.stops, fun next member => (ends next member).2.1⟩
      rw [scanExponent_none fun next member => (ends next member).2.2, unmarked rfl]
    | true =>
      refine ⟨_, rfl, ?_, ?_, ?_⟩
      · simpa using scanExponent_some exponent ends.stops
      · intro next member
        obtain rfl : 'e' = next := by simpa using member
        rfl
      · intro next member
        obtain rfl : 'e' = next := by simpa using member
        decide
  have textEq : spelled ⟨whole, fraction, exponent⟩ marked ++ rest =
      whole ++ ((if fraction = [] then [] else '.' :: fraction) ++ tail) := by
    rw [tailEq]
    simp [spelled]
  have pointed : scanFraction ((if fraction = [] then [] else '.' :: fraction) ++ tail) =
      (fraction, tail) := by
    by_cases none : fraction = []
    · subst none
      simpa using scanFraction_none tailPoint
    · simpa [none] using scanFraction_some fractionDigits none tailStops
  have stops : ∀ next ∈ ((if fraction = [] then [] else '.' :: fraction) ++ tail).head?,
      next.isDigit = false := by
    intro next member
    by_cases none : fraction = []
    · subst none
      exact tailStops next (by simpa using member)
    · obtain rfl : '.' = next := by simpa [none] using member
      rfl
  obtain ⟨taken, dropped⟩ := takeWhile_run wholeDigits stops
  rw [textEq, scan, taken, dropped, pointed]
  cases whole with
  | nil => exact absurd rfl someWhole
  | cons => simp only [tailScans]

end Numeral

namespace Binary64

variable {number : ℕ} {value : ℚ}

theorem isDigit_toDigits : ∀ digit ∈ Nat.toDigits 10 number, digit.isDigit :=
  fun _ member => Nat.isDigit_of_mem_toDigits (by norm_num) (by norm_num) member

theorem ofDigitChars_zeros (digits : List Char) (count : ℕ) :
    Nat.ofDigitChars 10 (digits ++ List.replicate count '0') 0 =
      Nat.ofDigitChars 10 digits 0 * 10 ^ count := by
  rw [Nat.ofDigitChars_append, Nat.ofDigitChars_replicate_zero, Nat.mul_comm]

theorem head_toDigits (positive : 0 < number) : (Nat.toDigits 10 number).head? ≠ some '0' := by
  induction number using Nat.strong_induction_on with
  | _ number ih =>
    rw [Nat.toDigits_eq_if (by norm_num)]
    split
    · simp [positive.ne']
    · have shorter := ih (number / 10) (by omega) (by omega)
      cases digitsEq : Nat.toDigits 10 (number / 10) with
      | nil => exact absurd digitsEq Nat.toDigits_ne_nil
      | cons =>
        rw [digitsEq] at shorter
        simpa using shorter

theorem leadingZero_of_head {digits : List Char} (head : digits.head? ≠ some '0') :
    Numeral.leadingZero digits = false := by
  unfold Numeral.leadingZero
  split
  · exact absurd rfl head
  · rfl

theorem leadingZero_toDigits (number : ℕ) :
    Numeral.leadingZero (Nat.toDigits 10 number) = false := by
  rcases Nat.eq_zero_or_pos number with rfl | positive
  · rfl
  · exact leadingZero_of_head (head_toDigits positive)

theorem layOut_spells {decimal : ℕ × ℤ} (positive : 0 < decimal.1) :
    ∃ (numeral : Numeral) (marked : Bool), layOut decimal = numeral.spelled marked ∧
      (∀ digit ∈ numeral.whole, digit.isDigit) ∧ numeral.whole ≠ [] ∧
      (∀ digit ∈ numeral.fraction, digit.isDigit) ∧
      (marked = false → numeral.exponent = 0) ∧ numeral.value = decimalValue decimal ∧
      Numeral.leadingZero numeral.whole = false := by
  obtain ⟨significand, shift⟩ := decimal
  have digitsEq : Nat.ofDigitChars 10 (Nat.toDigits 10 significand) 0 = significand :=
    Nat.ofDigitChars_ten_toDigits
  have some : Nat.toDigits 10 significand ≠ [] := Nat.toDigits_ne_nil
  have all := @isDigit_toDigits significand
  have head := head_toDigits positive
  revert digitsEq some all head
  unfold layOut
  dsimp only
  generalize Nat.toDigits 10 significand = digits
  intro digitsEq some all head
  split
  · next whole =>
      obtain ⟨nonneg, _⟩ := whole
      refine ⟨⟨digits ++ List.replicate shift.toNat '0', [], 0⟩, false, by simp [Numeral.spelled],
        ?_, by simp [some], by simp, fun _ => rfl, ?_,
        leadingZero_of_head (by rwa [List.head?_append_of_ne_nil _ some])⟩
      · intro digit member
        rcases List.mem_append.mp member with own | zero
        · exact all digit own
        · rw [List.eq_of_mem_replicate zero]
          rfl
      · have shiftEq : ((10 : ℚ) ^ shift.toNat) = 10 ^ shift := by
          rw [← zpow_natCast, Int.toNat_of_nonneg nonneg]
        simp [Numeral.value, decimalValue, ofDigitChars_zeros, digitsEq, shiftEq]
  · next notWhole =>
      split
      · next pointed =>
          obtain ⟨above, below⟩ := pointed
          have shorter : ((digits.length : ℤ) + shift).toNat < digits.length := by omega
          refine ⟨⟨digits.take ((digits.length : ℤ) + shift).toNat,
            digits.drop ((digits.length : ℤ) + shift).toNat, 0⟩, false, ?_, ?_, ?_, ?_,
            fun _ => rfl, ?_, leadingZero_of_head ?_⟩
          · simp [Numeral.spelled, Nat.not_le.mpr shorter]
          · exact fun digit member => all digit (List.mem_of_mem_take member)
          · simp [some]
            omega
          · exact fun digit member => all digit (List.mem_of_mem_drop member)
          · have exponentEq : (0 : ℤ) - ((digits.drop ((digits.length : ℤ) + shift).toNat).length : ℕ) =
                shift := by
              rw [List.length_drop]
              omega
            simp only [Numeral.value, decimalValue, List.take_append_drop, digitsEq, exponentEq]
          · rwa [List.head?_take, if_neg (by omega)]
      · split
        · next leading =>
            obtain ⟨above, below⟩ := leading
            refine ⟨⟨['0'], List.replicate (-((digits.length : ℤ) + shift)).toNat '0' ++ digits,
              0⟩, false, by simp [Numeral.spelled, some], by simp, by simp, ?_, fun _ => rfl, ?_,
              rfl⟩
            · intro digit member
              rcases List.mem_append.mp member with zero | own
              · rw [List.eq_of_mem_replicate zero]
                rfl
              · exact all digit own
            · have exponentEq : (0 : ℤ) - ((List.replicate (-((digits.length : ℤ) + shift)).toNat '0' ++
                  digits).length : ℕ) = shift := by
                rw [List.length_append, List.length_replicate]
                omega
              have zeros : Nat.ofDigitChars 10 (['0'] ++
                  (List.replicate (-((digits.length : ℤ) + shift)).toNat '0' ++ digits)) 0 =
                    significand := by
                rw [Nat.ofDigitChars_append, Nat.ofDigitChars_append,
                  Nat.ofDigitChars_replicate_zero]
                simpa [Nat.ofDigitChars_cons] using digitsEq
              simp only [Numeral.value, decimalValue, zeros, exponentEq]
        · cases digits with
          | nil => exact absurd rfl some
          | cons digit rest =>
            have exponentEq : (((digit :: rest).length : ℕ) : ℤ) + shift - 1 - rest.length =
                shift := by
              rw [List.length_cons]
              push_cast
              ring
            refine ⟨⟨[digit], rest, (((digit :: rest).length : ℕ) : ℤ) + shift - 1⟩, true, ?_,
              ?_, by simp, ?_, nofun, ?_, by simp [Numeral.leadingZero]⟩
            · cases rest with
              | nil | cons => rfl
            · intro other member
              exact all other (by simp [List.mem_singleton.mp member])
            · exact fun other member => all other (List.mem_cons_of_mem _ member)
            · simp only [Numeral.value, decimalValue, List.singleton_append, digitsEq, exponentEq]

theorem mem_decimalOf {digits : ℕ} {decimal : ℕ × ℤ}
    (chosen : decimalOf value digits = some decimal) : nearest (decimalValue decimal) = value := by
  have passes {candidates : List (ℕ × ℤ)} (kept : (decimalsAround value digits).filter
        (fun decimal => nearest (decimalValue decimal) = value) = candidates) :
      ∀ other ∈ candidates, nearest (decimalValue other) = value := by
    intro other member
    rw [← kept, List.mem_filter, decide_eq_true_eq] at member
    exact member.2
  unfold decimalOf at chosen
  split at chosen
  · cases chosen
  · next kept =>
      cases chosen
      exact passes kept _ List.mem_cons_self
  · next first second others kept =>
      cases chosen
      unfold closerDecimal
      dsimp only
      split
      · exact passes kept first (by simp)
      · split
        · exact passes kept second (by simp)
        · split
          · exact passes kept first (by simp)
          · exact passes kept second (by simp)

theorem whole_of_binary {mantissa exponent : ℤ} {places : ℕ} (above : -(places : ℤ) ≤ exponent) :
    ∃ whole : ℤ, (mantissa : ℚ) * 2 ^ exponent * 10 ^ places = whole := by
  obtain ⟨shift, shiftEq⟩ := Int.eq_ofNat_of_zero_le (show 0 ≤ exponent + places by omega)
  have split : (10 : ℚ) ^ places = 2 ^ (places : ℤ) * 5 ^ places := by
    rw [zpow_natCast, ← mul_pow]
    norm_num
  have powers : (2 : ℚ) ^ exponent * 10 ^ places = 2 ^ shift * 5 ^ places := by
    rw [split, ← mul_assoc, ← zpow_add₀ (by norm_num), shiftEq, zpow_natCast]
  refine ⟨mantissa * 2 ^ shift * 5 ^ places, ?_⟩
  rw [mul_assoc, powers]
  push_cast
  ring

section

variable (representable : Representable value) (nonneg : 0 ≤ value)
include representable nonneg

theorem nearest_shortestDecimal : nearest (decimalValue (shortestDecimal value)) = value := by
  unfold shortestDecimal
  cases found : (List.range' 1 17).findSome? (decimalOf value) with
  | some =>
    obtain ⟨digits, _, chosen⟩ := List.exists_of_findSome?_eq_some found
    exact mem_decimalOf chosen
  | none =>
    have exact : decimalValue (⌊value * 10 ^ 1074⌋₊, -1074) = value := by
      obtain ⟨mantissa, exponent, _, unitAbove, _, valueEq⟩ := representable
      obtain ⟨whole, wholeEq⟩ :=
        @whole_of_binary mantissa exponent 1074 (by exact_mod_cast unitAbove)
      rw [← valueEq] at wholeEq
      have wholeNonneg : (0 : ℚ) ≤ whole := wholeEq ▸ by positivity
      have floorEq : ((⌊value * 10 ^ 1074⌋₊ : ℕ) : ℚ) = value * 10 ^ 1074 := by
        rw [wholeEq, natCast_floor_eq_intCast_floor wholeNonneg, Int.floor_intCast]
      rw [decimalValue, floorEq, mul_assoc, zpow_neg, zpow_ofNat,
        mul_inv_cancel₀ (by positivity), mul_one]
    rw [Option.getD_none, exact, nearest_of_representable representable]

theorem magnitudeText_spells :
    ∃ (numeral : Numeral) (marked : Bool), magnitudeText value = numeral.spelled marked ∧
      (∀ digit ∈ numeral.whole, digit.isDigit) ∧ numeral.whole ≠ [] ∧
      (∀ digit ∈ numeral.fraction, digit.isDigit) ∧
      (marked = false → numeral.exponent = 0) ∧ numeral.number = finite value representable ∧
      Numeral.leadingZero numeral.whole = false := by
  have reads {numeral : Numeral} (near : nearest numeral.value = value) :
      numeral.number = finite value representable := by
    have bounded : |nearest numeral.value| < 2 ^ 1024 := by
      rw [near]
      exact abs_lt_of_representable representable
    rw [Numeral.number, ofRat, dif_pos bounded]
    congr 1
  unfold magnitudeText
  split
  · next integral =>
      have valueEq : ((value.num.toNat : ℕ) : ℚ) = value := by
        have numNonneg : ((value.num.toNat : ℕ) : ℤ) = value.num :=
          Int.toNat_of_nonneg (Rat.num_nonneg.mpr nonneg)
        have cast : ((value.num.toNat : ℕ) : ℚ) = (value.num : ℚ) := by exact_mod_cast numNonneg
        rw [cast]
        exact Rat.coe_int_num_of_den_eq_one integral.1
      refine ⟨⟨Nat.toDigits 10 value.num.toNat, [], 0⟩, false, by simp [Numeral.spelled],
        isDigit_toDigits, Nat.toDigits_ne_nil, by simp, fun _ => rfl, reads ?_,
        leadingZero_toDigits _⟩
      have wholeEq : Numeral.value ⟨Nat.toDigits 10 value.num.toNat, [], 0⟩ = value := by
        simp [Numeral.value, valueEq]
      rw [wholeEq, nearest_of_representable representable]
  · next notWhole =>
      have near := nearest_shortestDecimal representable nonneg
      have positive : 0 < (shortestDecimal value).1 := by
        by_contra zero
        have valueZero : decimalValue (shortestDecimal value) = 0 := by
          simp [decimalValue, Nat.eq_zero_of_not_pos zero]
        rw [valueZero, nearest_of_representable representable_zero] at near
        subst near
        exact notWhole (by norm_num)
      obtain ⟨numeral, marked, laidOut, wholeDigits, someWhole, fractionDigits, unmarked, valueEq,
        noZero⟩ := layOut_spells positive
      refine ⟨numeral, marked, laidOut, wholeDigits, someWhole, fractionDigits, unmarked, reads ?_,
        noZero⟩
      rw [valueEq, near]

theorem scan_magnitudeText {rest : List Char} (ends : EndsNumeral rest) :
    ∃ numeral, Numeral.scan (magnitudeText value ++ rest) = some (numeral, rest) ∧
      numeral.number = finite value representable ∧ Numeral.leadingZero numeral.whole = false := by
  obtain ⟨numeral, marked, spelled, wholeDigits, someWhole, fractionDigits, unmarked, numberEq,
    noZero⟩ := magnitudeText_spells representable nonneg
  rw [spelled]
  exact ⟨numeral, Numeral.scan_spelled wholeDigits someWhole fractionDigits unmarked ends,
    numberEq, noZero⟩

end

theorem text_ofNat (exact : number ≤ 2 ^ 53) : (ofInt number).text = Nat.toDigits 10 number := by
  have safe : Safe (number : ℤ) :=
    Safe.of_nonneg (Int.natCast_nonneg _) (by exact_mod_cast exact)
  have nonneg : (0 : ℚ) ≤ ((number : ℤ) : ℚ) := by exact_mod_cast Nat.zero_le number
  rw [ofInt_of_safe safe, text_of_nonneg _ nonneg, Int.cast_natCast]
  rcases exact.lt_or_eq with below | rfl
  · have small : ((number : ℚ)).den = 1 ∧ (number : ℚ) < 2 ^ 53 :=
      ⟨Rat.den_natCast number, by exact_mod_cast below⟩
    rw [magnitudeText, if_pos small, Rat.num_natCast, Int.toNat_natCast]
  · decide +kernel

/-- The characters that the text of a number is made of. -/
def isNumberChar (char : Char) : Bool :=
  char.isDigit || char ∈ ['.', 'e', '+', '-']

theorem isNumberChar_of_isDigit {digits : List Char} (all : ∀ digit ∈ digits, digit.isDigit) :
    ∀ digit ∈ digits, isNumberChar digit := by
  intro digit member
  rw [isNumberChar, all digit member, Bool.true_or]

theorem isNumberChar_spelled {numeral : Numeral} (marked : Bool)
    (wholeDigits : ∀ digit ∈ numeral.whole, digit.isDigit)
    (fractionDigits : ∀ digit ∈ numeral.fraction, digit.isDigit) :
    ∀ char ∈ numeral.spelled marked, isNumberChar char := by
  intro char member
  rw [Numeral.spelled, List.mem_append, List.mem_append] at member
  rcases member with (whole | fraction) | exponent
  · exact isNumberChar_of_isDigit wholeDigits char whole
  · by_cases empty : numeral.fraction = []
    · simp [empty] at fraction
    · rw [if_neg empty, List.mem_cons] at fraction
      rcases fraction with rfl | fraction
      · rfl
      · exact isNumberChar_of_isDigit fractionDigits char fraction
  · cases marked with
    | false => simp at exponent
    | true =>
      rw [if_pos rfl, List.mem_cons, List.mem_cons] at exponent
      rcases exponent with rfl | rfl | digit
      · rfl
      · split <;> rfl
      · exact isNumberChar_of_isDigit isDigit_toDigits char digit

theorem isNumberChar_text (representable : Representable value) :
    ∀ char ∈ (finite value representable).text, isNumberChar char := by
  rcases lt_or_ge value 0 with negative | nonneg
  · obtain ⟨numeral, marked, spelled, wholeDigits, _, fractionDigits, _⟩ :=
      magnitudeText_spells representable.neg (by linarith)
    rw [text_of_neg representable negative, spelled]
    intro char member
    rcases List.mem_cons.mp member with rfl | rest
    · rfl
    · exact isNumberChar_spelled marked wholeDigits fractionDigits char rest
  · obtain ⟨numeral, marked, spelled, wholeDigits, _, fractionDigits, _⟩ :=
      magnitudeText_spells representable nonneg
    rw [text_of_nonneg representable nonneg, spelled]
    exact isNumberChar_spelled marked wholeDigits fractionDigits

end Binary64

end P2PHub
