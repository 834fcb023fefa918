import P2PHub.BijectiveNumerals
import P2PHub.FormulaPrinting

/-!
# Coordinates of a sheet

The coordinates, labels and ranges of `plugins/calc/src/formula.ts`.  Indices
are binary64 numbers: up to 2^53 they are exact, and a label is the coordinate
that it was made from.
-/

namespace P2PHub.Calc

open Binary64 Bijective

structure CellCoord where
  col : Binary64
  row : Binary64
  deriving DecidableEq

/-- `Number` of the letters of a column, the first column being 1. -/
def columnNumber (letters : List Char) : Binary64 :=
  letters.foldl (fun col char => ((col.mul (ofInt 26)).add (ofInt (char.toUpper.toNat - 64))))
    (ofInt 0)

/-- `parseInt` of decimal digits. -/
def parseDigits (digits : List Char) : Binary64 :=
  ofInt (Nat.ofDigitChars 10 digits 0 : ℕ)

def parseCoord (coord : String) : Option CellCoord :=
  let text := trim coord.toList
  let letters := text.takeWhile Char.isAlpha
  let digits := text.dropWhile Char.isAlpha
  if letters ≠ [] ∧ digits ≠ [] ∧ digits.all Char.isDigit then
    some ⟨(columnNumber letters).sub (ofInt 1), (parseDigits digits).sub (ofInt 1)⟩
  else none

/-- The code unit that `String.fromCharCode` makes of a number. -/
def charCode : Binary64 → Nat
  | .finite value _ => ((if value < 0 then ⌈value⌉ else ⌊value⌋) % 2 ^ 16).toNat
  | _ => 0

/-- The loop of `coordToLabel` with the letters found so far.  Nothing is
returned when the loop does not end. -/
def labelLetters : Nat → Binary64 → List Char → Option (List Char)
  | 0, _, _ => none
  | fuel + 1, number, letters =>
    if (ofInt 0).lt number then
      let previous := number.sub (ofInt 1)
      let letter := Char.ofNat (charCode ((ofInt 65).add (previous.rem (ofInt 26))))
      labelLetters fuel (previous.div (ofInt 26)).floor (letter :: letters)
    else some letters

/-- A finite number is below 2^1024 and each turn divides it by 26. -/
def labelTurns : Nat := 1024

def coordToLabel (col row : Binary64) : Option String :=
  (labelLetters labelTurns (col.add (ofInt 1)) []).map fun letters =>
    String.ofList (letters ++ (row.add (ofInt 1)).text)

structure CellRange where
  start : String
  stop : String
  deriving DecidableEq

def scanCoord (text : List Char) : Option (List Char × List Char) :=
  let letters := text.takeWhile Char.isAlpha
  let rest := text.dropWhile Char.isAlpha
  let digits := rest.takeWhile Char.isDigit
  if letters = [] ∨ digits = [] then none
  else some (letters ++ digits, rest.dropWhile Char.isDigit)

def parseRange (token : List Char) : Option CellRange :=
  match scanCoord (trim token) with
  | some (start, []) => some ⟨String.ofList start, String.ofList start⟩
  | some (start, ':' :: rest) =>
    match scanCoord rest with
    | some (stop, []) => some ⟨String.ofList start, String.ofList stop⟩
    | _ => none
  | _ => none

def maxRangeCells : Nat := 1000000

/-- The numbers of a loop that counts up to a bound.  Nothing is returned when
the loop does not end: a bounded one has no more turns than a range has cells. -/
def countUp : Nat → Binary64 → Binary64 → Option (List Binary64)
  | 0, _, _ => none
  | fuel + 1, number, last =>
    if number.le last then
      (countUp fuel (number.add (ofInt 1)) last).map fun numbers => number :: numbers
    else some []

/-- `Math.min` of two numbers. -/
def minOf (first second : Binary64) : Binary64 :=
  if first = .nan ∨ second = .nan then .nan else if second.lt first then second else first

/-- `Math.max` of two numbers. -/
def maxOf (first second : Binary64) : Binary64 :=
  if first = .nan ∨ second = .nan then .nan else if first.lt second then second else first

/-- The inner loop of `rangeCells`. -/
def rowCells (minCol maxCol row : Binary64) : Option (List String) := do
  let cols ← countUp (maxRangeCells + 1) minCol maxCol
  cols.mapM fun col => coordToLabel col row

/-- The labels of the cells between two corners, row by row. -/
def cellsBetween (start stop : CellCoord) : Option (List String) :=
  let minCol := minOf start.col stop.col
  let maxCol := maxOf start.col stop.col
  let minRow := minOf start.row stop.row
  let maxRow := maxOf start.row stop.row
  let colCount := (maxCol.sub minCol).add (ofInt 1)
  let rowCount := (maxRow.sub minRow).add (ofInt 1)
  if colCount.le (ofInt 0) || rowCount.le (ofInt 0) ||
      (ofInt maxRangeCells).lt (colCount.mul rowCount) then
    some []
  else do
    let rows ← countUp (maxRangeCells + 1) minRow maxRow
    let labels ← rows.mapM (rowCells minCol maxCol)
    return labels.flatten

def rangeCells (range : CellRange) : Option (List String) :=
  match parseCoord range.start, parseCoord range.stop with
  | some start, some stop => cellsBetween start stop
  | _, _ => some []

section

def columnLetters (number : ℕ) : List Char :=
  (digits 26 number).map fun digit => Char.ofNat (64 + digit)

def label (col row : ℕ) : String :=
  String.ofList (columnLetters (col + 1) ++ Nat.toDigits 10 (row + 1))

variable {number : ℕ} {letters digits : List Char}

theorem ofNat_letter {digit : ℕ} (bounded : 1 ≤ digit ∧ digit ≤ 26) :
    (Char.ofNat (64 + digit)).toNat = 64 + digit := by
  have all : ∀ other < 27, (Char.ofNat (64 + other)).toNat = 64 + other := by decide
  exact all digit (by omega)

theorem isAlpha_columnLetters : ∀ char ∈ columnLetters number, char.isAlpha := by
  intro char member
  obtain ⟨digit, digitMember, rfl⟩ := List.mem_map.mp member
  have bounded := mem_digits (by norm_num) digit digitMember
  rw [isAlpha_iff, ofNat_letter bounded]
  omega

theorem toUpper_columnLetters : ∀ char ∈ columnLetters number, char.toUpper = char := by
  intro char member
  obtain ⟨digit, digitMember, rfl⟩ := List.mem_map.mp member
  have bounded := mem_digits (by norm_num) digit digitMember
  refine toUpper_of_not_lower ?_
  rw [ofNat_letter bounded]
  omega

theorem columnLetters_ne_nil (positive : 0 < number) : columnLetters number ≠ [] := by
  have some : digits 26 number ≠ [] := digits_ne_nil positive
  simpa [columnLetters] using some

theorem safe_ofNat (exact : number ≤ 2 ^ 53) : Safe (number : ℤ) :=
  Safe.of_nonneg (Int.natCast_nonneg _) (by exact_mod_cast exact)

def letterNumber (letters : List Char) : ℕ :=
  value 26 (letters.map fun char => char.toUpper.toNat - 64)

theorem toUpper_letter {char : Char} (letter : char.isAlpha) :
    65 ≤ char.toUpper.toNat ∧ char.toUpper.toNat ≤ 90 := by
  let test (other : Char) : Bool :=
    other.isAlpha → 65 ≤ other.toUpper.toNat ∧ other.toUpper.toNat ≤ 90
  have all : ∀ code < 128, test (Char.ofNat code) := by decide +kernel
  have below : char.toNat < 128 := by
    rw [isAlpha_iff] at letter
    omega
  exact of_decide_eq_true (char_all_lt all below) letter

theorem columnNumber_exact (alpha : ∀ char ∈ letters, char.isAlpha)
    (exact : letterNumber letters ≤ 2 ^ 53) :
    columnNumber letters = ofInt (letterNumber letters : ℕ) := by
  induction letters using List.reverseRecOn with
  | nil => rfl
  | append_singleton front last ih =>
    obtain ⟨frontAlpha, lastAlpha⟩ := List.forall_mem_append.mp alpha
    have bounds := toUpper_letter (lastAlpha last (List.mem_singleton_self last))
    have spelled : letterNumber (front ++ [last]) =
        letterNumber front * 26 + (last.toUpper.toNat - 64) := by
      rw [letterNumber, List.map_append]
      exact value_append_singleton _ _ _
    rw [spelled] at exact ⊢
    have frontExact : letterNumber front ≤ 2 ^ 53 := by omega
    have digit : ((last.toUpper.toNat : ℤ) - 64) = ((last.toUpper.toNat - 64 : ℕ) : ℤ) := by omega
    have step : columnNumber (front ++ [last]) =
        ((columnNumber front).mul (ofInt 26)).add (ofInt (last.toUpper.toNat - 64)) := by
      rw [columnNumber, List.foldl_append]
      rfl
    rw [step, ih frontAlpha frontExact, mul_ofInt (safe_ofNat frontExact) (by decide), digit]
    have product : (letterNumber front : ℤ) * 26 = ((letterNumber front * 26 : ℕ) : ℤ) := by
      rfl
    rw [product, add_ofInt (safe_ofNat (by omega)) (safe_ofNat (by omega))]
    rfl

theorem letterNumber_columnLetters (number : ℕ) : letterNumber (columnLetters number) = number := by
  have digits : (columnLetters number).map (fun char => char.toUpper.toNat - 64) =
      digits 26 number := by
    rw [columnLetters, List.map_map]
    refine (List.map_congr_left fun digit member => ?_).trans (List.map_id _)
    have bounded := mem_digits (by norm_num) digit member
    have upper := toUpper_columnLetters _ (List.mem_map_of_mem member)
    rw [Function.comp_apply, upper, ofNat_letter bounded]
    exact Nat.add_sub_cancel_left 64 digit
  rw [letterNumber, digits, value_digits]

theorem trim_of_visible {text : List Char} (visible : ∀ char ∈ text, isWhiteSpace char = false) :
    trim text = text := by
  cases text with
  | nil => rfl
  | cons head =>
    exact trim_visible (visible head List.mem_cons_self)
      (finishes_of_all (List.cons_ne_nil _ _) visible)

/-- The text of a coordinate: letters, then digits. -/
structure CoordText (letters digits : List Char) : Prop where
  someLetter : letters ≠ []
  letters : ∀ char ∈ letters, char.isAlpha
  someDigit : digits ≠ []
  digits : ∀ char ∈ digits, char.isDigit

section

variable (coord : CoordText letters digits)
include coord

theorem CoordText.visible : ∀ char ∈ letters ++ digits, isWhiteSpace char = false := by
  refine List.forall_mem_append.mpr ⟨fun char member => ?_, fun char member => ?_⟩
  · exact isWhiteSpace_of_isAlpha (coord.letters char member)
  · exact isWhiteSpace_of_isDigit (coord.digits char member)

theorem CoordText.split : (letters ++ digits).takeWhile Char.isAlpha = letters ∧
      (letters ++ digits).dropWhile Char.isAlpha = digits :=
  takeWhile_run coord.letters fun next member =>
    isAlpha_of_isDigit (coord.digits next (List.mem_of_mem_head? member))

theorem parseCoord_text : parseCoord (String.ofList (letters ++ digits)) =
      some ⟨(columnNumber letters).sub (ofInt 1), (parseDigits digits).sub (ofInt 1)⟩ := by
  obtain ⟨taken, dropped⟩ := coord.split
  rw [parseCoord, String.toList_ofList, trim_of_visible coord.visible, taken, dropped,
    if_pos ⟨coord.someLetter, coord.someDigit, List.all_eq_true.mpr coord.digits⟩]

end

theorem coordText_label (col row : ℕ) :
    CoordText (columnLetters (col + 1)) (Nat.toDigits 10 (row + 1)) where
  someLetter := columnLetters_ne_nil (Nat.succ_pos col)
  letters := isAlpha_columnLetters
  someDigit := Nat.toDigits_ne_nil
  digits := isDigit_toDigits

variable {col row : ℕ}

theorem sub_one_exact {index : ℕ} (exact : index + 1 ≤ 2 ^ 53) :
    (ofInt ((index + 1 : ℕ) : ℤ)).sub (ofInt 1) = ofInt index := by
  rw [sub_ofInt (safe_ofNat exact) (by decide)]
  congr 1
  omega

theorem add_one_exact {index : ℕ} (exact : index + 1 ≤ 2 ^ 53) :
    (ofInt index).add (ofInt 1) = ofInt ((index + 1 : ℕ) : ℤ) := by
  rw [add_ofInt (safe_ofNat (by omega)) (by decide)]
  congr 1

theorem parseCoord_label (colExact : col + 1 ≤ 2 ^ 53) (rowExact : row + 1 ≤ 2 ^ 53) :
    parseCoord (label col row) = some ⟨ofInt col, ofInt row⟩ := by
  have columnEq : columnNumber (columnLetters (col + 1)) = ofInt ((col + 1 : ℕ) : ℤ) := by
    rw [columnNumber_exact isAlpha_columnLetters]
    · rw [letterNumber_columnLetters]
    · rwa [letterNumber_columnLetters]
  rw [label, parseCoord_text (coordText_label col row), columnEq, parseDigits,
    Nat.ofDigitChars_ten_toDigits, sub_one_exact colExact, sub_one_exact rowExact]

theorem charCode_ofInt {code : ℕ} (small : code < 2 ^ 16) : charCode (ofInt code) = code := by
  have safe : Safe (code : ℤ) := safe_ofNat (by omega)
  rw [ofInt_of_safe safe, charCode, Int.cast_natCast, if_neg (not_lt.mpr (Nat.cast_nonneg code)),
    Int.floor_natCast]
  omega

theorem labelLetters_zero (fuel : ℕ) (letters : List Char) :
    labelLetters (fuel + 1) (ofInt 0) letters = some letters := by
  rw [labelLetters, lt_ofInt (by decide) (by decide)]
  rfl

theorem labelLetters_exact {turns spare : ℕ} (exact : number ≤ 2 ^ 53)
    (enough : number < 2 ^ turns) : labelLetters (turns + spare + 1) (ofInt number) letters =
      some (columnLetters number ++ letters) := by
  induction turns generalizing number letters with
  | zero =>
    obtain rfl : number = 0 := by omega
    rw [columnLetters, digits_zero]
    exact labelLetters_zero _ _
  | succ turns ih =>
    rcases Nat.eq_zero_or_pos number with rfl | positive
    · rw [columnLetters, digits_zero]
      exact labelLetters_zero _ _
    · obtain ⟨index, rfl⟩ := Nat.exists_eq_add_of_le' positive
      have remainder : (ofInt index).rem (ofInt 26) = ofInt ((index % 26 : ℕ) : ℤ) := by
        rw [rem_ofInt (Int.natCast_nonneg _) (by norm_num) (safe_ofNat (by omega)) (by decide)]
        rfl
      have code : (ofInt 65).add (ofInt ((index % 26 : ℕ) : ℤ)) =
          ofInt ((65 + index % 26 : ℕ) : ℤ) := by
        rw [add_ofInt (by decide) (safe_ofNat (by omega))]
        rfl
      have quotient : ((ofInt index).div (ofInt 26)).floor = ofInt (index / 26 : ℕ) :=
        floor_div_ofInt (by omega) (by norm_num) (by norm_num)
      have fewer : index / 26 < 2 ^ turns := by
        omega
      have positiveTest : (ofInt 0).lt (ofInt ((index + 1 : ℕ) : ℤ)) := by
        have safe : Safe ((index + 1 : ℕ) : ℤ) := safe_ofNat exact
        rw [← Int.natCast_zero, lt_ofInt (by decide) safe]
        exact decide_eq_true (by omega)
      rw [Nat.succ_add, labelLetters, positiveTest, if_pos rfl, sub_one_exact exact]
      dsimp only
      rw [remainder, code, quotient, charCode_ofInt (by omega), ih (by omega) fewer]
      rw [columnLetters, columnLetters, digits_of_pos positive, List.map_append,
        List.append_assoc, Nat.add_sub_cancel]
      have letter : 64 + (index % 26 + 1) = 65 + index % 26 := by omega
      rw [List.map_singleton, letter]
      rfl

theorem coordToLabel_exact (colExact : col + 1 ≤ 2 ^ 53) (rowExact : row + 1 ≤ 2 ^ 53) :
    coordToLabel (ofInt col) (ofInt row) = some (label col row) := by
  have turns : labelTurns = 54 + 969 + 1 := rfl
  rw [coordToLabel, add_one_exact colExact, add_one_exact rowExact, turns,
    labelLetters_exact colExact (by omega), text_ofNat rowExact, List.append_nil]
  rfl

theorem label_injective {otherCol otherRow : ℕ} (same : label col row = label otherCol otherRow) :
    col = otherCol ∧ row = otherRow := by
  have texts := String.ofList_injective same
  have first := (coordText_label col row).split
  have second := (coordText_label otherCol otherRow).split
  rw [texts] at first
  have letters := first.1.symm.trans second.1
  have digits := first.2.symm.trans second.2
  have columns := congrArg letterNumber letters
  have rows := congrArg (fun digits => Nat.ofDigitChars 10 digits 0) digits
  rw [letterNumber_columnLetters, letterNumber_columnLetters] at columns
  simp only [Nat.ofDigitChars_ten_toDigits] at rows
  omega

theorem digitChar_of_isDigit {digit : Char} (isDigit : digit.isDigit) :
    Nat.digitChar (digit.toNat - 48) = digit := by
  let test (other : Char) : Bool := other.isDigit → Nat.digitChar (other.toNat - 48) = other
  have all : ∀ code < 58, test (Char.ofNat code) := by decide
  have below : digit.toNat < 58 := by
    rw [isDigit_iff] at isDigit
    omega
  exact of_decide_eq_true (char_all_lt all below) isDigit

theorem toDigits_ofDigitChars (someDigit : digits ≠ [])
    (all : ∀ digit ∈ digits, digit.isDigit) (head : digits.head? ≠ some '0') :
    Nat.toDigits 10 (Nat.ofDigitChars 10 digits 0) = digits := by
  induction digits using List.reverseRecOn with
  | nil => exact absurd rfl someDigit
  | append_singleton front last ih =>
    obtain ⟨frontAll, lastAll⟩ := List.forall_mem_append.mp all
    have lastIs := lastAll last (List.mem_singleton_self last)
    have bounds := isDigit_iff.mp lastIs
    have value : Nat.ofDigitChars 10 (front ++ [last]) 0 =
        10 * Nat.ofDigitChars 10 front 0 + (last.toNat - 48) := by
      rw [Nat.ofDigitChars_append]
      rfl
    have lastDigits : Nat.toDigits 10 (last.toNat - 48) = [last] := by
      rw [Nat.toDigits_of_lt_base (by omega), digitChar_of_isDigit lastIs]
    rw [value]
    cases front with
    | nil => simpa using lastDigits
    | cons first front =>
      have frontEq := ih (List.cons_ne_nil _ _) frontAll head
      have positive : 0 < Nat.ofDigitChars 10 (first :: front) 0 := by
        rcases Nat.eq_zero_or_pos (Nat.ofDigitChars 10 (first :: front) 0) with zero | positive
        · rw [zero] at frontEq
          exact absurd (congrArg List.head? frontEq).symm head
        · exact positive
      rw [← Nat.toDigits_append_toDigits (by norm_num) positive (by omega), frontEq, lastDigits]

/-- A coordinate as the labels spell it: capital letters, and digits that do
not begin with a zero. -/
def CanonicalCoord (coord : String) : Prop :=
  ∃ letters digits, coord = String.ofList (letters ++ digits) ∧ CoordText letters digits ∧
    (∀ char ∈ letters, char.toUpper = char) ∧ digits.head? ≠ some '0'

theorem columnLetters_letterNumber (alpha : ∀ char ∈ letters, char.isAlpha)
    (upper : ∀ char ∈ letters, char.toUpper = char) :
    columnLetters (letterNumber letters) = letters := by
  have bounded : ∀ digit ∈ letters.map (fun char => char.toUpper.toNat - 64),
      1 ≤ digit ∧ digit ≤ 26 := by
    intro digit member
    obtain ⟨char, charMember, rfl⟩ := List.mem_map.mp member
    have bounds := toUpper_letter (alpha char charMember)
    omega
  rw [columnLetters, letterNumber, digits_value bounded, List.map_map]
  refine (List.map_congr_left fun char member => ?_).trans (List.map_id _)
  have bounds := toUpper_letter (alpha char member)
  rw [Function.comp_apply, upper char member] at *
  rw [Nat.add_sub_cancel' (by omega), Char.ofNat_toNat]
  rfl

theorem CanonicalCoord.exists_label {coord : String} (canonical : CanonicalCoord coord) :
    ∃ col row, coord = label col row := by
  obtain ⟨letters, digits, rfl, text, upper, head⟩ := canonical
  have columnEq := columnLetters_letterNumber text.letters upper
  have rowEq := toDigits_ofDigitChars text.someDigit text.digits head
  have colPositive : 0 < letterNumber letters := by
    rcases Nat.eq_zero_or_pos (letterNumber letters) with zero | positive
    · rw [zero, columnLetters, digits_zero] at columnEq
      exact absurd columnEq.symm text.someLetter
    · exact positive
  have rowPositive : 0 < Nat.ofDigitChars 10 digits 0 := by
    rcases Nat.eq_zero_or_pos (Nat.ofDigitChars 10 digits 0) with zero | positive
    · rw [zero] at rowEq
      exact absurd (congrArg List.head? rowEq).symm head
    · exact positive
  refine ⟨letterNumber letters - 1, Nat.ofDigitChars 10 digits 0 - 1, ?_⟩
  rw [label, Nat.sub_add_cancel colPositive, Nat.sub_add_cancel rowPositive, columnEq, rowEq]

end

variable {col row : ℕ} {first second : ℕ}

theorem countUp_exact {number last fuel : ℕ} (lastBelow : last < 2 ^ 53) (start : number ≤ last + 1)
    (enough : last + 1 - number < fuel) : countUp fuel (ofInt number) (ofInt last) =
      some ((List.range' number (last + 1 - number)).map fun index : ℕ => ofInt index) := by
  induction fuel generalizing number with
  | zero => omega
  | succ fuel ih =>
    have test : (ofInt number).le (ofInt last) = decide (number ≤ last) := by
      rw [le_ofInt (safe_ofNat (by omega)) (safe_ofNat (by omega))]
      exact decide_eq_decide.mpr Int.ofNat_le
    rw [countUp, test]
    rcases Nat.lt_or_ge last number with passed | inside
    · have none : last + 1 - number = 0 := by omega
      rw [decide_eq_false (by omega), none]
      rfl
    · have more : last + 1 - number = last + 1 - (number + 1) + 1 := by omega
      rw [decide_eq_true inside, if_pos rfl, add_one_exact (by omega),
        ih (by omega) (by omega), more, List.range'_succ]
      rfl

theorem minOf_exact (firstExact : first ≤ 2 ^ 53) (secondExact : second ≤ 2 ^ 53) :
    minOf (ofInt first) (ofInt second) = ofInt (min first second : ℕ) := by
  have finite : ¬(ofInt first = .nan ∨ ofInt second = .nan) := by
    rw [ofInt_of_safe (safe_ofNat firstExact), ofInt_of_safe (safe_ofNat secondExact)]
    simp
  rw [minOf, if_neg finite, lt_ofInt (safe_ofNat secondExact) (safe_ofNat firstExact)]
  rcases Nat.lt_or_ge second first with less | atLeast
  · rw [decide_eq_true (Int.ofNat_lt.mpr less), if_pos rfl, Nat.min_eq_right less.le]
  · rw [decide_eq_false (by omega), if_neg Bool.false_ne_true, Nat.min_eq_left atLeast]

theorem maxOf_exact (firstExact : first ≤ 2 ^ 53) (secondExact : second ≤ 2 ^ 53) :
    maxOf (ofInt first) (ofInt second) = ofInt (max first second : ℕ) := by
  have finite : ¬(ofInt first = .nan ∨ ofInt second = .nan) := by
    rw [ofInt_of_safe (safe_ofNat firstExact), ofInt_of_safe (safe_ofNat secondExact)]
    simp
  rw [maxOf, if_neg finite, lt_ofInt (safe_ofNat firstExact) (safe_ofNat secondExact)]
  rcases Nat.lt_or_ge first second with less | atLeast
  · rw [decide_eq_true (Int.ofNat_lt.mpr less), if_pos rfl, Nat.max_eq_right less.le]
  · rw [decide_eq_false (by omega), if_neg Bool.false_ne_true, Nat.max_eq_left atLeast]

def between (first second : ℕ) : List ℕ :=
  List.range' (min first second) (max first second + 1 - min first second)

theorem length_between (first second : ℕ) :
    (between first second).length = max first second - min first second + 1 := by
  rw [between, List.length_range']
  omega

theorem mem_between {index : ℕ} :
    index ∈ between first second ↔ min first second ≤ index ∧ index ≤ max first second := by
  rw [between, List.mem_range'_1]
  omega

theorem mapM_of_some {Input Output : Type} {list : List Input} {step : Input → Option Output}
    {result : Input → Output} (each : ∀ input ∈ list, step input = some (result input)) :
    list.mapM step = some (list.map result) := by
  induction list with
  | nil => rfl
  | cons input list ih =>
    obtain ⟨inputEq, others⟩ := List.forall_mem_cons.mp each
    rw [List.mapM_cons, inputEq, ih others]
    rfl

theorem count_exact (firstExact : first + 1 ≤ 2 ^ 53) (secondExact : second + 1 ≤ 2 ^ 53) :
    ((ofInt (max first second : ℕ)).sub (ofInt (min first second : ℕ))).add (ofInt 1) =
      ofInt ((between first second).length : ℕ) := by
  rw [sub_ofInt (safe_ofNat (by omega)) (safe_ofNat (by omega)), length_between]
  have difference : ((max first second : ℕ) : ℤ) - (min first second : ℕ) =
      ((max first second - min first second : ℕ) : ℤ) := by omega
  rw [difference, add_one_exact (by omega)]

theorem countUp_between (firstExact : first + 1 ≤ 2 ^ 53)
    (secondExact : second + 1 ≤ 2 ^ 53) (few : (between first second).length ≤ maxRangeCells) :
    countUp (maxRangeCells + 1) (ofInt (min first second : ℕ)) (ofInt (max first second : ℕ)) =
      some ((between first second).map fun index : ℕ => ofInt index) := by
  rw [length_between] at few
  exact countUp_exact (by omega) (by omega) (by omega)

theorem cellsBetween_exact {startCol startRow stopCol stopRow : ℕ}
    (startColExact : startCol + 1 ≤ 2 ^ 53) (startRowExact : startRow + 1 ≤ 2 ^ 53)
    (stopColExact : stopCol + 1 ≤ 2 ^ 53) (stopRowExact : stopRow + 1 ≤ 2 ^ 53)
    (few : (between startCol stopCol).length * (between startRow stopRow).length ≤ maxRangeCells) :
    cellsBetween ⟨ofInt startCol, ofInt startRow⟩ ⟨ofInt stopCol, ofInt stopRow⟩ =
      some ((between startRow stopRow).flatMap fun row =>
        (between startCol stopCol).map fun col => label col row) := by
  have colPositive : 0 < (between startCol stopCol).length := by
    rw [length_between]
    exact Nat.succ_pos _
  have rowPositive : 0 < (between startRow stopRow).length := by
    rw [length_between]
    exact Nat.succ_pos _
  have fewCols := (Nat.le_mul_of_pos_right _ rowPositive).trans few
  have fewRows := (Nat.le_mul_of_pos_left _ colPositive).trans few
  have limit : maxRangeCells ≤ 2 ^ 53 := by decide
  have cols := countUp_between startColExact stopColExact fewCols
  have rows := countUp_between startRowExact stopRowExact fewRows
  have colTest : (ofInt ((between startCol stopCol).length : ℕ)).le (ofInt 0) = false := by
    rw [le_ofInt (safe_ofNat (fewCols.trans limit)) (by decide)]
    exact decide_eq_false (by omega)
  have rowTest : (ofInt ((between startRow stopRow).length : ℕ)).le (ofInt 0) = false := by
    rw [le_ofInt (safe_ofNat (fewRows.trans limit)) (by decide)]
    exact decide_eq_false (by omega)
  have cellTest : (ofInt (maxRangeCells : ℕ)).lt ((ofInt ((between startCol stopCol).length : ℕ)).mul
      (ofInt ((between startRow stopRow).length : ℕ))) = false := by
    rw [mul_ofInt (safe_ofNat (fewCols.trans limit)) (safe_ofNat (fewRows.trans limit)),
      ← Int.natCast_mul, lt_ofInt (safe_ofNat limit) (safe_ofNat (few.trans limit))]
    exact decide_eq_false (by omega)
  unfold cellsBetween
  dsimp only
  rw [minOf_exact (by omega) (by omega), maxOf_exact (by omega) (by omega),
    minOf_exact (by omega) (by omega), maxOf_exact (by omega) (by omega),
    count_exact startColExact stopColExact, count_exact startRowExact stopRowExact, colTest,
    rowTest, cellTest, rows]
  have inRow : ∀ row ∈ between startRow stopRow,
      rowCells (ofInt (min startCol stopCol : ℕ)) (ofInt (max startCol stopCol : ℕ)) (ofInt row) =
        some ((between startCol stopCol).map fun col => label col row) := by
    intro row rowMember
    have rowBounds := mem_between.mp rowMember
    rw [rowCells, cols]
    refine (List.mapM_map ..).trans (mapM_of_some fun col colMember => ?_)
    have colBounds := mem_between.mp colMember
    exact coordToLabel_exact (by omega) (by omega)
  have inRows : ((between startRow stopRow).map fun index : ℕ => ofInt index).mapM
      (rowCells (ofInt (min startCol stopCol : ℕ)) (ofInt (max startCol stopCol : ℕ))) =
        some ((between startRow stopRow).map fun row =>
          (between startCol stopCol).map fun col => label col row) :=
    (List.mapM_map ..).trans (mapM_of_some inRow)
  simp only [Bool.or_false, Bool.false_eq_true, if_false, Option.bind_eq_bind, Option.bind_some,
    inRows, List.flatMap_def]
  rfl

theorem scanCoord_text {letters digits rest : List Char} (coord : CoordText letters digits)
    (stops : ∀ next ∈ rest.head?, next.isDigit = false) :
    scanCoord (letters ++ (digits ++ rest)) = some (letters ++ digits, rest) := by
  have notAlpha : ∀ next ∈ (digits ++ rest).head?, next.isAlpha = false := by
    intro next member
    have inDigits : next ∈ digits := by
      obtain ⟨first, tail, rfl⟩ := List.exists_cons_of_ne_nil coord.someDigit
      cases member
      exact List.mem_cons_self
    exact isAlpha_of_isDigit (coord.digits next inDigits)
  obtain ⟨takenLetters, droppedLetters⟩ := takeWhile_run coord.letters notAlpha
  obtain ⟨takenDigits, droppedDigits⟩ := takeWhile_run coord.digits stops
  have neither : ¬(letters = [] ∨ digits = []) := not_or.mpr ⟨coord.someLetter, coord.someDigit⟩
  rw [scanCoord, takenLetters, droppedLetters, takenDigits, droppedDigits]
  exact if_neg neither

theorem parseRange_text {startLetters startDigits stopLetters stopDigits : List Char}
    (start : CoordText startLetters startDigits) (stop : CoordText stopLetters stopDigits) :
    parseRange (startLetters ++ startDigits ++ ':' :: (stopLetters ++ stopDigits)) =
      some ⟨String.ofList (startLetters ++ startDigits),
        String.ofList (stopLetters ++ stopDigits)⟩ := by
  have visible : ∀ char ∈ startLetters ++ startDigits ++ ':' :: (stopLetters ++ stopDigits),
      isWhiteSpace char = false :=
    List.forall_mem_append.mpr ⟨start.visible, List.forall_mem_cons.mpr ⟨by decide, stop.visible⟩⟩
  have colon : ∀ next ∈ (':' :: (stopLetters ++ stopDigits)).head?, next.isDigit = false := by
    rintro next ⟨⟩
    rfl
  have startScan := scanCoord_text start colon
  have ends : ∀ next ∈ ([] : List Char).head?, next.isDigit = false := by simp
  have stopScan := scanCoord_text stop ends
  rw [List.append_nil] at stopScan
  rw [parseRange, trim_of_visible visible, List.append_assoc, startScan]
  simp only [stopScan]

variable {startCol startRow stopCol stopRow : ℕ}

theorem parseRange_labels :
    parseRange ((label startCol startRow).toList ++ ':' :: (label stopCol stopRow).toList) =
      some ⟨label startCol startRow, label stopCol stopRow⟩ := by
  rw [label, label, String.toList_ofList, String.toList_ofList]
  exact parseRange_text (coordText_label startCol startRow) (coordText_label stopCol stopRow)

theorem rangeCells_labels (startColExact : startCol + 1 ≤ 2 ^ 53)
    (startRowExact : startRow + 1 ≤ 2 ^ 53) (stopColExact : stopCol + 1 ≤ 2 ^ 53)
    (stopRowExact : stopRow + 1 ≤ 2 ^ 53)
    (few : (between startCol stopCol).length * (between startRow stopRow).length ≤ maxRangeCells) :
    rangeCells ⟨label startCol startRow, label stopCol stopRow⟩ =
      some ((between startRow stopRow).flatMap fun row =>
        (between startCol stopCol).map fun col => label col row) := by
  rw [rangeCells, parseCoord_label startColExact startRowExact,
    parseCoord_label stopColExact stopRowExact]
  exact cellsBetween_exact startColExact startRowExact stopColExact stopRowExact few

end P2PHub.Calc
