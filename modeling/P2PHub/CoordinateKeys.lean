import P2PHub.FormulaRoundTrip
import P2PHub.StructuralEdits

/-!
# Keys of cells

The coordinates that `updateCell` and `updateCells` accept.  A direct
reference, a range and a structural edit come to the cell of a key, unless the
row of the key begins with a zero.
-/

namespace P2PHub.Calc

open Binary64

section

theorem head_skipWhiteSpace {text tail : List Char} {head : Char}
    (skipped : skipWhiteSpace text = head :: tail) : isWhiteSpace head = false := by
  have first := List.head?_dropWhile_not isWhiteSpace text
  rw [show text.dropWhile isWhiteSpace = head :: tail from skipped] at first
  exact first

theorem trim_cases (text : List Char) : trim text = [] ∨
    ∃ head tail, trim text = head :: tail ∧ isWhiteSpace head = false ∧
      Finishes (head :: tail) := by
  rw [trim]
  cases skipped : skipWhiteSpace text with
  | nil => exact .inl rfl
  | cons head rest =>
    have visible := head_skipWhiteSpace skipped
    have last : skipWhiteSpace [head] = [head] := skipWhiteSpace_visible visible
    -- what is skipped at the end stops at the first visible character
    have kept : ∃ more, skipWhiteSpace (rest.reverse ++ [head]) = more ++ [head] := by
      rw [skipWhiteSpace, List.dropWhile_append]
      split
      · exact ⟨[], last⟩
      · exact ⟨_, rfl⟩
    obtain ⟨more, moreEq⟩ := kept
    have trimmed : (skipWhiteSpace (head :: rest).reverse).reverse = head :: more.reverse := by
      rw [List.reverse_cons, moreEq, List.reverse_append, List.reverse_singleton,
        List.singleton_append]
    refine .inr ⟨head, more.reverse, trimmed, visible, ?_⟩
    rw [← trimmed]
    cases ending : skipWhiteSpace (head :: rest).reverse with
    | nil =>
      rw [List.reverse_cons, moreEq] at ending
      simp at ending
    | cons final => exact ⟨final, by simp, head_skipWhiteSpace ending⟩

variable {engine : Engine}

/-- What the case mapping of the language does outside ASCII: a visible
character has a visible capital form, which has no small letters of ASCII. -/
structure Engine.Capitalizes (engine : Engine) : Prop where
  upper : ∀ char, 128 ≤ char.toNat → ∀ other ∈ engine.upper char, other.toUpper = other
  some : ∀ char, 128 ≤ char.toNat → engine.upper char ≠ []
  visible : ∀ char, 128 ≤ char.toNat → isWhiteSpace char = false →
    ∀ other ∈ engine.upper char, isWhiteSpace other = false

def upperOf (engine : Engine) (char : Char) : List Char :=
  if char.toNat < 128 then [char.toUpper] else engine.upper char

theorem toUpperCase_eq (text : List Char) : toUpperCase engine text = text.flatMap (upperOf engine)
    :=
  rfl

theorem upperOf_toUpper (capitalizes : engine.Capitalizes) (char : Char) :
    ∀ other ∈ upperOf engine char, other.toUpper = other := by
  intro other member
  rw [upperOf] at member
  split at member
  · rw [List.mem_singleton.mp member, toUpper_toUpper]
  · next high => exact capitalizes.upper char (not_lt.mp high) other member

theorem upperOf_ne_nil (capitalizes : engine.Capitalizes) (char : Char) :
    upperOf engine char ≠ [] := by
  rw [upperOf]
  split
  · exact List.cons_ne_nil _ _
  · next high => exact capitalizes.some char (not_lt.mp high)

theorem isWhiteSpace_toUpper {char : Char} (low : char.toNat < 128)
    (visible : isWhiteSpace char = false) : isWhiteSpace char.toUpper = false := by
  let test (other : Char) : Bool := isWhiteSpace other = false → isWhiteSpace other.toUpper = false
  have all : ∀ code < 128, test (Char.ofNat code) := by decide +kernel
  exact of_decide_eq_true (char_all_lt all low) visible

theorem upperOf_visible (capitalizes : engine.Capitalizes) {char : Char}
    (visible : isWhiteSpace char = false) : ∀ other ∈ upperOf engine char, isWhiteSpace other =
    false := by
  intro other member
  rw [upperOf] at member
  split at member
  · next low =>
      rw [List.mem_singleton.mp member]
      exact isWhiteSpace_toUpper low visible
  · next high => exact capitalizes.visible char (not_lt.mp high) visible other member

theorem trim_toUpperCase (capitalizes : engine.Capitalizes) (text : List Char) :
    trim (toUpperCase engine (trim text)) = toUpperCase engine (trim text) := by
  rcases trim_cases text with empty | ⟨head, tail, trimmed, visible, finishes⟩
  · rw [empty]
    rfl
  · rw [trimmed]
    obtain ⟨last, lastMember, lastVisible⟩ := finishes
    obtain ⟨front, textEq⟩ := List.getLast?_eq_some_iff.mp (Option.mem_def.mp lastMember)
    obtain ⟨first, more, firstEq⟩ := List.exists_cons_of_ne_nil (upperOf_ne_nil capitalizes head)
    have begins : toUpperCase engine (head :: tail) =
        first :: (more ++ tail.flatMap (upperOf engine)) := by
      rw [toUpperCase_eq, List.flatMap_cons, firstEq, List.cons_append]
    have ends : Finishes (toUpperCase engine (head :: tail)) := by
      rw [textEq, toUpperCase_eq, List.flatMap_append, List.flatMap_singleton]
      exact (finishes_of_all (upperOf_ne_nil capitalizes last)
        (upperOf_visible capitalizes lastVisible)).append _
    have firstVisible : isWhiteSpace first = false := by
      apply upperOf_visible capitalizes visible
      rw [firstEq]
      exact List.mem_cons_self
    rw [begins] at ends ⊢
    exact trim_visible firstVisible ends

end

section

variable {engine : Engine} {key coord : String} {parsed : CellCoord} {letters digits : List Char}

/-- The number of the column and of the row in a key, the first ones being 1. -/
def columnOf (key : String) : ℕ :=
  letterNumber (key.toList.takeWhile Char.isAlpha)

def rowOf (key : String) : ℕ :=
  Nat.ofDigitChars 10 (key.toList.dropWhile Char.isAlpha) 0

def LeadingZero (key : String) : Prop :=
  (key.toList.dropWhile Char.isAlpha).head? = some '0'

instance (key : String) : Decidable (LeadingZero key) :=
  inferInstanceAs (Decidable (_ = _))

/-- The ways in which the code comes to the cell of a key: the label of its
coordinate, a direct reference, a range, and an edit that does not move it. -/
structure Addressed (engine : Engine) (key : String) (parsed : CellCoord) : Prop where
  label : coordToLabel parsed.col parsed.row = some key
  reference : ∃ expr, parseExpression (String.ofList ('=' :: key.toList)) = .ok (some expr) ∧
    ∀ values, ((evaluate engine expr).rename (normalizeCoord engine)).run values = some (values key)
  range : rangeCells ⟨key, key⟩ = some [key]
  edit : ∀ kind start count, (makeShifts kind start count).shiftRow parsed.row = parsed.row →
      (makeShifts kind start count).shiftCol parsed.col = parsed.col →
        shiftCoord key (makeShifts kind start count) = some (some key)

/-- A key that is accepted: capital letters, then digits. -/
structure Accepted (key : String) (parsed : CellCoord) (letters digits : List Char) : Prop where
  keyEq : key = String.ofList (letters ++ digits)
  text : CoordText letters digits
  upper : ∀ char ∈ letters, char.toUpper = char
  parsedEq : parsed = ⟨(columnNumber letters).sub (ofInt 1), (parseDigits digits).sub (ofInt 1)⟩

theorem exists_accepted (capitalizes : engine.Capitalizes)
    (accepted : parseCoord (normalizeCoord engine coord) = some parsed) :
    ∃ letters digits, Accepted (normalizeCoord engine coord) parsed letters digits := by
  have trimmed := trim_toUpperCase capitalizes coord.toList
  have upper : ∀ char ∈ toUpperCase engine (trim coord.toList), char.toUpper = char := by
    intro char member
    obtain ⟨original, -, produced⟩ := List.mem_flatMap.mp member
    exact upperOf_toUpper capitalizes original char produced
  unfold normalizeCoord at accepted ⊢
  generalize toUpperCase engine (trim coord.toList) = text at accepted trimmed upper ⊢
  unfold parseCoord at accepted
  rw [String.toList_ofList, trimmed] at accepted
  dsimp only at accepted
  split at accepted
  · next shape =>
      obtain ⟨someLetter, someDigit, allDigits⟩ := shape
      have parsedEq := Option.some.inj accepted
      refine ⟨text.takeWhile Char.isAlpha, text.dropWhile Char.isAlpha, ?_, ?_, ?_, parsedEq.symm⟩
      · rw [List.takeWhile_append_dropWhile]
      · exact ⟨someLetter, fun char member => List.mem_takeWhile_imp member, someDigit,
          List.all_eq_true.mp allDigits⟩
      · intro char member
        exact upper char ((List.takeWhile_sublist _).subset member)
  · cases accepted

section

variable (accepted : Accepted key parsed letters digits)
include accepted

theorem Accepted.columnOf_eq : columnOf key = letterNumber letters := by
  rw [columnOf, accepted.keyEq, String.toList_ofList, accepted.text.split.1]

theorem Accepted.rowOf_eq : rowOf key = Nat.ofDigitChars 10 digits 0 := by
  rw [rowOf, accepted.keyEq, String.toList_ofList, accepted.text.split.2]

theorem Accepted.leadingZero_iff : LeadingZero key ↔ digits.head? = some '0' := by
  rw [LeadingZero, accepted.keyEq, String.toList_ofList, accepted.text.split.2]

end

section

variable (text : CoordText letters digits)
include text

theorem CoordText.typed : RefPart.Typed ⟨false, letters, false, digits⟩ :=
  ⟨text.someLetter, text.letters, text.someDigit, text.digits⟩

theorem parseExpression_coord (upper : ∀ char ∈ letters, char.toUpper = char) :
    parseExpression (String.ofList ('=' :: (letters ++ digits))) =
      .ok (some (.cell ⟨String.ofList (letters ++ digits), false, false⟩)) := by
  let token : Token := .ref ⟨false, letters, false, digits⟩ none
  have writable : token.Writable := ⟨text.typed, nofun⟩
  have readable : Readable [] [token] := ⟨writable, nofun, trivial⟩
  have written : writeTokens [token] = letters ++ digits := by
    rw [writeTokens, List.flatMap_singleton]
    show RefPart.text _ ++ [] = _
    simp [RefPart.text, dollarText]
  have read : tokenize (letters ++ digits) = .ok [token] := by
    rw [← written]
    exact tokenize_written readable (show 1 ≤ maxFormulaTokens by decide)
  have parsed : parseTokens [token] =
      .ok (.cell ⟨String.ofList (letters ++ digits), false, false⟩) := by
    have capital : letters.map Char.toUpper = letters :=
      (List.map_congr_left upper).trans (List.map_id _)
    have node : parseTokens [token] = .ok (refNode ⟨false, letters, false, digits⟩ none) := rfl
    rw [node, refNode]
    dsimp only [RefPart.node]
    rw [capital]
  have marked : ∀ char ∈ '=' :: (letters ++ digits), isWhiteSpace char = false :=
    List.forall_mem_cons.mpr ⟨by decide, text.visible⟩
  obtain ⟨first, rest, textEq⟩ : ∃ first rest, letters ++ digits = first :: rest :=
    List.exists_cons_of_ne_nil (by simp [text.someLetter])
  rw [parseExpression, String.toList_ofList, trim_of_visible marked]
  simp only [trim_of_visible text.visible]
  rw [textEq] at read ⊢
  simp only [read, Except.bind, parsed, textEq]
  rfl

theorem normalizeCoord_coord (upper : ∀ char ∈ letters, char.toUpper = char) :
    normalizeCoord engine (String.ofList (letters ++ digits)) = String.ofList (letters ++ digits) :=
      by
  have each : ∀ char ∈ letters ++ digits, upperOf engine char = [char] := by
    refine List.forall_mem_append.mpr ⟨fun char member => ?_, fun char member => ?_⟩
    · have letter := isAlpha_iff.mp (text.letters char member)
      rw [upperOf, if_pos (by omega), upper char member]
    · have digit := isDigit_iff.mp (text.digits char member)
      rw [upperOf, if_pos (by omega), toUpper_of_not_lower (by omega)]
  rw [normalizeCoord, String.toList_ofList, trim_of_visible text.visible, toUpperCase_eq]
  congr 1
  generalize letters ++ digits = key at each
  induction key with
  | nil => rfl
  | cons char rest ih =>
    obtain ⟨head, others⟩ := List.forall_mem_cons.mp each
    rw [List.flatMap_cons, head, ih others]
    rfl

theorem run_reference
    (upper : ∀ char ∈ letters, char.toUpper = char) (values : String → CellValue) :
    ((evaluate engine (.cell ⟨String.ofList (letters ++ digits), false, false⟩)).rename
      (normalizeCoord engine)).run values = some (values (String.ofList (letters ++ digits))) := by
  rw [evaluate, Lookup.look, Lookup.rename, normalizeCoord_coord text upper]
  rfl

end

theorem between_self (index : ℕ) : between index index = [index] := by
  rw [between, Nat.min_self, Nat.max_self, Nat.add_sub_cancel_left]
  rfl

theorem label_addressed {col row : ℕ} (colExact : col + 1 ≤ 2 ^ 53) (rowExact : row + 1 ≤ 2 ^ 53) :
    Addressed engine (label col row) ⟨ofInt col, ofInt row⟩ where
  label := coordToLabel_exact colExact rowExact
  reference := by
    have text := coordText_label col row
    rw [label, String.toList_ofList]
    exact ⟨_, parseExpression_coord text toUpper_columnLetters,
      run_reference text toUpper_columnLetters⟩
  range := by
    have few : (between col col).length * (between row row).length ≤ maxRangeCells := by
      rw [between_self, between_self]
      exact show 1 ≤ maxRangeCells by decide
    rw [rangeCells_labels colExact rowExact colExact rowExact few, between_self, between_self]
    rfl
  edit := by
    intro kind start count rowStays colStays
    have nonneg : ∀ index : ℕ, index + 1 ≤ 2 ^ 53 → (ofInt index).lt (ofInt 0) = false := by
      intro index exact
      rw [← Int.natCast_zero, lt_ofInt (safe_ofNat (by omega)) (by decide)]
      exact decide_eq_false (by omega)
    rw [shiftCoord, parseCoord_label colExact rowExact]
    dsimp only at rowStays colStays ⊢
    rw [rowStays, colStays, nonneg row rowExact, nonneg col colExact,
      coordToLabel_exact colExact rowExact]
    rfl

theorem Accepted.parseCoord_eq (accepted : Accepted key parsed letters digits) :
    parseCoord key = some parsed := by
  rw [accepted.keyEq, parseCoord_text accepted.text, accepted.parsedEq]

theorem columnOf_label (col row : ℕ) : columnOf (label col row) = col + 1 := by
  rw [columnOf, label, String.toList_ofList, (coordText_label col row).split.1,
    letterNumber_columnLetters]

theorem rowOf_label (col row : ℕ) : rowOf (label col row) = row + 1 := by
  rw [rowOf, label, String.toList_ofList, (coordText_label col row).split.2,
    Nat.ofDigitChars_ten_toDigits]

theorem not_leadingZero_label (col row : ℕ) : ¬LeadingZero (label col row) := by
  rw [LeadingZero, label, String.toList_ofList, (coordText_label col row).split.2]
  exact head_toDigits (Nat.succ_pos row)

theorem Accepted.addressed (accepted : Accepted key parsed letters digits)
    (colExact : columnOf key ≤ 2 ^ 53) (rowExact : rowOf key ≤ 2 ^ 53) (plain : ¬LeadingZero key) :
    Addressed engine key parsed := by
  have canonical : CanonicalCoord key :=
    ⟨letters, digits, accepted.keyEq, accepted.text, accepted.upper,
      fun zero => plain (accepted.leadingZero_iff.mpr zero)⟩
  have parsedEq := accepted.parseCoord_eq
  obtain ⟨col, row, rfl⟩ := canonical.exists_label
  rw [columnOf_label] at colExact
  rw [rowOf_label] at rowExact
  cases (parseCoord_label colExact rowExact).symm.trans parsedEq
  exact label_addressed colExact rowExact

theorem letterNumber_pos (text : CoordText letters digits) : 0 < letterNumber letters := by
  obtain ⟨front, last, lettersEq⟩ := List.eq_nil_or_concat letters |>.resolve_left text.someLetter
  have bounds := toUpper_letter (text.letters last (by simp [lettersEq]))
  rw [lettersEq, letterNumber, List.concat_eq_append, List.map_append]
  rw [show (List.map (fun char => char.toUpper.toNat - 64) [last]) =
    [last.toUpper.toNat - 64] from rfl, Bijective.value_append_singleton]
  omega

/-- A key whose row begins with a zero has another label, or lies in the row
that every edit removes. -/
theorem Accepted.not_addressed (accepted : Accepted key parsed letters digits)
    (colExact : columnOf key ≤ 2 ^ 53) (rowExact : rowOf key ≤ 2 ^ 53) (zero : LeadingZero key) :
    ¬Addressed engine key parsed := by
  intro addressed
  rw [accepted.columnOf_eq] at colExact
  obtain ⟨col, colEq⟩ := Nat.exists_eq_add_of_le' (letterNumber_pos accepted.text)
  rw [colEq] at colExact
  have parsedCol : parsed.col = ofInt col := by
    rw [accepted.parsedEq]
    rw [columnNumber_exact accepted.text.letters (by rw [colEq]; exact colExact), colEq]
    exact sub_one_exact colExact
  rw [accepted.rowOf_eq] at rowExact
  have parsedRow : parsed.row = (ofInt (Nat.ofDigitChars 10 digits 0 : ℕ)).sub (ofInt 1) := by
    rw [accepted.parsedEq]
    rfl
  cases rowEq : Nat.ofDigitChars 10 digits 0 with
  | zero =>
    rw [rowEq] at parsedRow
    have above : parsed.row = ofInt (-1) := by
      rw [parsedRow]
      decide +kernel
    have stays : (makeShifts .insertRows (ofInt 5) (ofInt 1)).shiftRow parsed.row = parsed.row := by
      rw [above]
      decide +kernel
    have removed : (ofInt (-1)).lt (ofInt 0) := by decide +kernel
    have kept := addressed.edit .insertRows (ofInt 5) (ofInt 1) stays rfl
    rw [shiftCoord, accepted.parseCoord_eq] at kept
    dsimp only at kept
    rw [stays, above, removed, Bool.true_or, if_pos rfl] at kept
    cases kept
  | succ row =>
    rw [rowEq] at rowExact parsedRow
    rw [sub_one_exact rowExact] at parsedRow
    have labelled := addressed.label
    rw [parsedCol, parsedRow, coordToLabel_exact colExact rowExact] at labelled
    rw [← Option.some.inj labelled] at zero
    exact not_leadingZero_label col row zero

end

variable {engine : Engine}

/-- Coordinates below 2^53 are read back from their labels, and a key that is
accepted, with numbers up to 2^53, is addressed in every way if and only if its
row does not begin with a zero. -/
theorem coordinates_exact (capitalizes : engine.Capitalizes) :
    (∀ col row : ℕ, col < 2 ^ 53 → row < 2 ^ 53 →
      (coordToLabel (ofInt col) (ofInt row)).bind parseCoord = some ⟨ofInt col, ofInt row⟩) ∧
      ∀ coord parsed, parseCoord (normalizeCoord engine coord) = some parsed →
        columnOf (normalizeCoord engine coord) ≤ 2 ^ 53 →
          rowOf (normalizeCoord engine coord) ≤ 2 ^ 53 →
            (Addressed engine (normalizeCoord engine coord) parsed ↔
              ¬LeadingZero (normalizeCoord engine coord)) := by
  refine ⟨?_, ?_⟩
  · intro col row colBelow rowBelow
    rw [coordToLabel_exact colBelow rowBelow, Option.bind_some, parseCoord_label colBelow rowBelow]
  · intro coord parsed accepted colExact rowExact
    obtain ⟨letters, digits, shape⟩ := exists_accepted capitalizes accepted
    constructor
    · intro addressed zero
      exact shape.not_addressed colExact rowExact zero addressed
    · exact shape.addressed colExact rowExact

theorem capitalizes_ascii : asciiEngine.Capitalizes where
  upper := by
    intro char high other member
    rw [List.mem_singleton.mp member]
    exact toUpper_of_not_lower (by omega)
  some _ _ := List.cons_ne_nil _ _
  visible := by
    intro char _ visible other member
    rw [List.mem_singleton.mp member]
    exact visible

theorem coordinates_exact_b7 : (coordToLabel (ofInt (1 : ℕ)) (ofInt (6 : ℕ))).bind parseCoord =
        some ⟨ofInt (1 : ℕ), ofInt (6 : ℕ)⟩ ∧
      Addressed asciiEngine (normalizeCoord asciiEngine " b7") ⟨ofInt 1, ofInt 6⟩ := by
  have accepted : parseCoord (normalizeCoord asciiEngine " b7") = some ⟨ofInt 1, ofInt 6⟩ := by
    decide +kernel
  have exact := coordinates_exact capitalizes_ascii
  exact ⟨exact.1 1 6 (by decide) (by decide),
    (exact.2 _ _ accepted (by decide +kernel) (by decide +kernel)).mpr (by decide +kernel)⟩

/-- The key A01 is accepted, but the label of its coordinate is A1. -/
theorem leading_zero_accepted : ¬∀ coord parsed,
    parseCoord (normalizeCoord asciiEngine coord) = some parsed →
      coordToLabel parsed.col parsed.row = some (normalizeCoord asciiEngine coord) := by
  intro canonical
  have accepted : parseCoord (normalizeCoord asciiEngine " a01 ") = some ⟨ofInt 0, ofInt 0⟩ := by
    decide +kernel
  have labelled := canonical _ _ accepted
  have differs : coordToLabel (ofInt 0) (ofInt 0) ≠ some (normalizeCoord asciiEngine " a01 ") := by
    decide +kernel
  exact differs labelled

end P2PHub.Calc
