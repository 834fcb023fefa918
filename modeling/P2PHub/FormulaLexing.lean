import P2PHub.FormulaSyntax
import P2PHub.JsonText

/-!
# Tokens of formulas

What the lexer makes of a text that is written token by token, and the shape of
the tokens that it yields.
-/

namespace P2PHub.Calc

open Numeral Binary64

section

variable {char : Char} {test : Char → Bool}

theorem char_all_lt {bound : Nat} (all : ∀ code < bound, test (Char.ofNat code))
    (below : char.toNat < bound) : test char := by
  have passes := all char.toNat below
  rwa [Char.ofNat_toNat] at passes

theorem isAlpha_iff : char.isAlpha ↔
    (65 ≤ char.toNat ∧ char.toNat ≤ 90) ∨ (97 ≤ char.toNat ∧ char.toNat ≤ 122) := by
  have isAlphaEq : char.isAlpha = (decide (65 ≤ char.val ∧ char.val ≤ 90) ||
      (decide (97 ≤ char.val) && decide (char.val ≤ 122))) := rfl
  simp only [isAlphaEq, Bool.or_eq_true, Bool.and_eq_true, decide_eq_true_eq,
    UInt32.le_iff_toNat_le, Char.toNat]
  rfl

theorem isDigit_iff : char.isDigit ↔ 48 ≤ char.toNat ∧ char.toNat ≤ 57 := by
  simp only [Char.isDigit, Bool.and_eq_true, decide_eq_true_eq, UInt32.le_iff_toNat_le, Char.toNat]
  rfl

theorem isWhiteSpace_of_visible (above : 33 ≤ char.toNat) (below : char.toNat ≤ 126) :
    isWhiteSpace char = false := by
  simp only [isWhiteSpace, Bool.or_eq_false_iff, decide_eq_false_iff_not, List.mem_cons,
    List.not_mem_nil, or_false]
  omega

theorem toUpper_of_not_lower (other : ¬(97 ≤ char.toNat ∧ char.toNat ≤ 122)) :
    char.toUpper = char := by
  exact dif_neg other

/-- What holds of the upper case of every letter and of every other character
holds of the upper case of a character. -/
theorem toUpper_all (letters : ∀ code < 123, 97 ≤ code →
    test (Char.ofNat code).toUpper) (others : ∀ other, other.toUpper = other → test other)
    (char : Char) : test char.toUpper := by
  by_cases lower : 97 ≤ char.toNat ∧ char.toNat ≤ 122
  · have passes := letters char.toNat (by omega) lower.1
    rwa [Char.ofNat_toNat] at passes
  · have same := toUpper_of_not_lower lower
    rw [same]
    exact others char same

theorem toUpper_toUpper (char : Char) : char.toUpper.toUpper = char.toUpper := by
  have all : (fun other : Char => decide (other.toUpper = other)) char.toUpper :=
    toUpper_all (by decide +kernel) (fun other same => decide_eq_true same) char
  exact of_decide_eq_true all

/-- A kind of characters that has both cases of a letter or none. -/
def Caseless (test : Char → Bool) : Prop :=
  ∀ char : Char, test char.toUpper = test char

theorem caseless
    (letters : ∀ code < 123, 97 ≤ code → test (Char.ofNat code).toUpper = test (Char.ofNat code)) :
    Caseless test := by
  intro char
  by_cases lower : 97 ≤ char.toNat ∧ char.toNat ≤ 122
  · have same := letters char.toNat (by omega) lower.1
    rwa [Char.ofNat_toNat] at same
  · rw [toUpper_of_not_lower lower]

theorem caseless_isAlpha : Caseless Char.isAlpha :=
  caseless (by decide +kernel)

theorem caseless_isDigit : Caseless Char.isDigit :=
  caseless (by decide +kernel)

theorem caseless_isWordChar : Caseless isWordChar :=
  caseless (by decide +kernel)

theorem caseless_isWordStart : Caseless isWordStart :=
  caseless (by decide +kernel)

end

/-- The letters and digits of a typed reference. -/
structure RefPart.Typed (part : RefPart) : Prop where
  someLetter : part.letters ≠ []
  letters : ∀ char ∈ part.letters, char.isAlpha
  someDigit : part.digits ≠ []
  digits : ∀ char ∈ part.digits, char.isDigit

/-- A word whose letters run into a digit, as those of a reference do. -/
def startsRef (word : List Char) : Bool :=
  word.takeWhile Char.isAlpha ≠ [] &&
    ((word.dropWhile Char.isAlpha).head?.map Char.isDigit).getD false

structure FuncName (name : List Char) : Prop where
  head : ∃ first rest, name = first :: rest ∧ isWordStart first
  word : ∀ char ∈ name, isWordChar char
  upper : name.map Char.toUpper = name
  notTrue : name ≠ "TRUE".toList
  notFalse : name ≠ "FALSE".toList
  notRef : startsRef name = false

def Token.Lexed : Token → Prop
  | num text => ∃ numeral, numeralNumber text = number numeral
  | func name => FuncName name
  | ref start stop => start.Typed ∧ ∀ part ∈ stop, RefPart.Typed part
  | _ => True

/-- A character that `JSON.stringify` writes as it is. -/
def Plain (char : Char) : Prop :=
  char ≠ '"' ∧ char ≠ '\\' ∧ 32 ≤ char.toNat

instance (char : Char) : Decidable (Plain char) :=
  inferInstanceAs (Decidable (_ ∧ _ ∧ _))

def Token.written : Token → List Char
  | str value => (JsValue.quote (String.ofList value)).toList
  | token => token.value

def Token.Writable : Token → Prop
  | num text => ∃ value representable, 0 ≤ value ∧ text = (finite value representable).text
  | str value => ∀ char ∈ value, Plain char
  | func name => FuncName name
  | ref start stop => start.Typed ∧ ∀ part ∈ stop, RefPart.Typed part
  | ident _ => False
  | _ => True

def Token.Ends (rest : List Char) : Token → Prop
  | num _ => EndsNumeral rest
  | bool _ => ∀ next ∈ rest.head?, isWordChar next = false ∧ next ≠ '$'
  | func _ => ∃ tail, rest = '(' :: tail
  | ref _ _ => ∀ next ∈ rest.head?, next.isDigit = false ∧ isWhiteSpace next = false ∧ next ≠ ':'
  | op _ => ∀ next ∈ rest.head?, next ≠ '>' ∧ next ≠ '='
  | _ => True

section

variable {name rest text : List Char} {first : Char} {digit : Char}

theorem skipWhiteSpace_visible (visible : isWhiteSpace first = false) :
    skipWhiteSpace (first :: rest) = first :: rest := by
  simp [skipWhiteSpace, visible]

theorem isWordStart_cases (starts : isWordStart first) : first.isAlpha ∨ first = '_' := by
  simpa [isWordStart] using starts

theorem isWordChar_of_isWordStart (starts : isWordStart first) : isWordChar first := by
  rcases isWordStart_cases starts with letter | rfl
  · simp [isWordChar, letter]
  · rfl

theorem isDigit_of_isWordStart (starts : isWordStart first) : first.isDigit = false := by
  rcases isWordStart_cases starts with letter | rfl
  · rw [isAlpha_iff] at letter
    rw [Bool.eq_false_iff, Ne, isDigit_iff]
    omega
  · rfl

theorem isAlpha_of_isDigit (isDigit : digit.isDigit) : digit.isAlpha = false := by
  rw [isDigit_iff] at isDigit
  rw [Bool.eq_false_iff, Ne, isAlpha_iff]
  omega

theorem isWhiteSpace_of_isAlpha (letter : first.isAlpha) : isWhiteSpace first = false := by
  rw [isAlpha_iff] at letter
  exact isWhiteSpace_of_visible (by omega) (by omega)

theorem isWhiteSpace_of_isDigit (isDigit : digit.isDigit) : isWhiteSpace digit = false := by
  rw [isDigit_iff] at isDigit
  exact isWhiteSpace_of_visible (by omega) (by omega)

theorem isWhiteSpace_of_isWordStart (starts : isWordStart first) : isWhiteSpace first = false := by
  rcases isWordStart_cases starts with letter | rfl
  · exact isWhiteSpace_of_isAlpha letter
  · rfl

theorem isWordChar_of_isAlpha (letter : first.isAlpha) : isWordChar first := by
  simp [isWordChar, letter]

theorem isWordChar_of_isDigit (isDigit : digit.isDigit) : isWordChar digit := by
  simp [isWordChar, isDigit]

theorem scanDollar_other (other : ∀ next ∈ text.head?, next ≠ '$') :
    scanDollar text = (false, text) := by
  unfold scanDollar
  split
  · exact absurd rfl (other '$' rfl)
  · rfl

theorem scan_none_of_head (notDigit : first.isDigit = false) : scan (first :: rest) = none := by
  simp [scan, notDigit]

theorem quote_of_isWordStart (starts : isWordStart first) : ¬(first = '"' ∨ first = '\x27') := by
  rintro (rfl | rfl) <;> cases starts

theorem scanRefPart_word (head : ∃ first tail, name = first :: tail ∧ isWordStart first)
    (word : ∀ char ∈ name, isWordChar char)
    (ends : ∀ next ∈ rest.head?, isWordChar next = false ∧ next ≠ '$') :
    scanRefPart (name ++ rest) = none ↔ startsRef name = false := by
  obtain ⟨first, tail, nameEq, starts⟩ := head
  have noDollar : ∀ next ∈ (name ++ rest).head?, next ≠ '$' := by
    rintro next member rfl
    rw [nameEq, List.cons_append, List.head?_cons] at member
    obtain rfl : first = '$' := Option.mem_some.mp member
    cases starts
  have split : name = name.takeWhile Char.isAlpha ++ name.dropWhile Char.isAlpha :=
    List.takeWhile_append_dropWhile.symm
  rw [scanRefPart, scanDollar_other noDollar]
  cases after : name.dropWhile Char.isAlpha with
  | nil =>
    have allLetters : ∀ char ∈ name, char.isAlpha := List.dropWhile_eq_nil_iff.mp after
    have stops : ∀ next ∈ rest.head?, next.isAlpha = false := by
      intro next member
      rw [Bool.eq_false_iff]
      intro letter
      have wordChar := isWordChar_of_isAlpha letter
      rw [(ends next member).1] at wordChar
      cases wordChar
    have noDigits : rest.takeWhile Char.isDigit = [] := by
      cases rest with
      | nil => rfl
      | cons next =>
        have notWord := (ends next rfl).1
        have notDigit : next.isDigit = false := by
          rw [Bool.eq_false_iff]
          intro digit
          rw [isWordChar_of_isDigit digit] at notWord
          cases notWord
        simp [notDigit]
    obtain ⟨taken, dropped⟩ := takeWhile_run allLetters stops
    have restDollar := scanDollar_other fun next member => (ends next member).2
    simp [taken, dropped, restDollar, noDigits, startsRef, after]
  | cons next more =>
    have nextWord : isWordChar next := word next (by
      rw [split, after]
      exact List.mem_append_right _ List.mem_cons_self)
    have notLetter : next.isAlpha = false := by
      have headFails := List.head?_dropWhile_not Char.isAlpha name
      rw [after] at headFails
      simpa using headFails
    have nextDollar : ∀ other ∈ (next :: (more ++ rest)).head?, other ≠ '$' := by
      rintro other member rfl
      obtain rfl : next = '$' := Option.mem_some.mp member
      cases nextWord
    have letters : ∀ char ∈ name.takeWhile Char.isAlpha, char.isAlpha :=
      fun char member => List.mem_takeWhile_imp member
    have stops : ∀ other ∈ (next :: (more ++ rest)).head?, other.isAlpha = false := by
      intro other member
      obtain rfl : next = other := Option.mem_some.mp member
      exact notLetter
    obtain ⟨taken, dropped⟩ := takeWhile_run letters stops
    have regroup : name ++ rest = name.takeWhile Char.isAlpha ++ next :: (more ++ rest) := by
      rw [← List.cons_append, ← after, ← List.append_assoc, List.takeWhile_append_dropWhile]
    have restDollar := scanDollar_other nextDollar
    rw [regroup]
    simp only [taken, dropped, restDollar, startsRef, after]
    cases digit : next.isDigit <;> simp [digit]

end

section

variable {name rest value : List Char} {start stop : RefPart}

section

variable (typed : start.Typed)
include typed

theorem scanRefPart_text (ends : ∀ next ∈ rest.head?, next.isDigit = false) :
    scanRefPart (start.text ++ rest) = some (start, rest) := by
  obtain ⟨colAbs, letters, rowAbs, digits⟩ := start
  obtain ⟨someLetter, allLetters, someDigit, allDigits⟩ := typed
  obtain ⟨digitsTaken, digitsDropped⟩ := takeWhile_run allDigits ends
  -- the digits, behind an optional dollar sign
  have rowDollar : scanDollar (dollarText rowAbs ++ (digits ++ rest)) = (rowAbs, digits ++ rest) :=
    by
    cases rowAbs with
    | true => rfl
    | false =>
      refine scanDollar_other fun next member => ?_
      rintro rfl
      cases digits with
      | nil => exact someDigit rfl
      | cons digit =>
        obtain rfl : digit = '$' := Option.mem_some.mp member
        exact absurd (allDigits '$' List.mem_cons_self) (by decide)
  have lettersStop : ∀ next ∈ (dollarText rowAbs ++ (digits ++ rest)).head?,
      next.isAlpha = false := by
    intro next member
    cases rowAbs with
    | true =>
      obtain rfl : '$' = next := Option.mem_some.mp member
      rfl
    | false =>
      cases digits with
      | nil => exact absurd rfl someDigit
      | cons digit =>
        obtain rfl : digit = next := Option.mem_some.mp member
        exact isAlpha_of_isDigit (allDigits _ List.mem_cons_self)
  obtain ⟨lettersTaken, lettersDropped⟩ := takeWhile_run allLetters lettersStop
  have colDollar : scanDollar (dollarText colAbs ++ (letters ++ (dollarText rowAbs ++ (digits ++ rest)))) =
      (colAbs, letters ++ (dollarText rowAbs ++ (digits ++ rest))) := by
    cases colAbs with
    | true => rfl
    | false =>
      refine scanDollar_other fun next member => ?_
      rintro rfl
      cases letters with
      | nil => exact someLetter rfl
      | cons letter =>
        obtain rfl : letter = '$' := Option.mem_some.mp member
        exact absurd (allLetters '$' List.mem_cons_self) (by decide)
  simp only [RefPart.text, List.append_assoc, scanRefPart, colDollar, lettersTaken, lettersDropped,
    rowDollar, digitsTaken, digitsDropped, someLetter, someDigit, or_self, if_false]

theorem head_refText (stop : Option RefPart) :
    ∃ head tail, refText start stop = head :: tail ∧ (head = '$' ∨ head.isAlpha) := by
  obtain ⟨colAbs, letters, rowAbs, digits⟩ := start
  cases colAbs with
  | true => exact ⟨'$', _, rfl, .inl rfl⟩
  | false =>
    cases letters with
    | nil => exact absurd rfl typed.someLetter
    | cons letter letters =>
      exact ⟨letter, _, rfl, .inr (typed.letters letter List.mem_cons_self)⟩

theorem head_text : ∃ head tail, start.text = head :: tail ∧ (head = '$' ∨ head.isAlpha) := by
  obtain ⟨head, tail, textEq, kind⟩ := head_refText typed none
  rw [refText, Option.map_none, Option.getD_none, List.append_nil] at textEq
  exact ⟨head, tail, textEq, kind⟩

theorem scanRef_text {stop : Option RefPart} (stopTyped : ∀ part ∈ stop, RefPart.Typed part)
    (ends : ∀ next ∈ rest.head?, next.isDigit = false ∧ isWhiteSpace next = false ∧ next ≠ ':') :
    scanRef (refText start stop ++ rest) = some (.ref start stop, rest) := by
  have notDigit : ∀ next ∈ rest.head?, next.isDigit = false :=
    fun next member => (ends next member).1
  cases stop with
  | none =>
    have noEnd : scanRangeEnd rest = none := by
      unfold scanRangeEnd
      cases rest with
      | nil => rfl
      | cons next =>
        obtain ⟨_, visible, notColon⟩ := ends next rfl
        rw [skipWhiteSpace_visible visible]
        split
        · next heq => exact absurd (List.cons.inj heq).1 notColon
        · rfl
    have part := scanRefPart_text typed notDigit
    simp only [refText, Option.map_none, Option.getD_none, List.append_nil, scanRef, part, noEnd]
  | some stop =>
    have stopIs := stopTyped stop rfl
    obtain ⟨head, tail, textEq, kind⟩ := head_text stopIs
    have visible : isWhiteSpace head = false := by
      rcases kind with rfl | letter
      · rfl
      · exact isWhiteSpace_of_isAlpha letter
    have second := scanRefPart_text stopIs notDigit
    have colon : ∀ next ∈ (':' :: (stop.text ++ rest)).head?, next.isDigit = false := by
      intro next member
      obtain rfl : ':' = next := Option.mem_some.mp member
      rfl
    have first := scanRefPart_text typed colon
    have atEnd : scanRangeEnd (':' :: (stop.text ++ rest)) = some (stop, rest) := by
      rw [textEq] at second ⊢
      change scanRefPart (skipWhiteSpace (head :: (tail ++ rest))) = some (stop, rest)
      rw [skipWhiteSpace_visible visible]
      exact second
    simp only [refText, Option.map_some, Option.getD_some, List.append_assoc, List.cons_append,
      scanRef, first, atEnd]

end

theorem lexWord_name (head : ∃ first tail, name = first :: tail ∧ isWordStart first)
    (word : ∀ char ∈ name, isWordChar char)
    (ends : ∀ next ∈ rest.head?, isWordChar next = false ∧ next ≠ '$')
    (notRef : startsRef name = false) : lexToken (name ++ rest) = .ok
      (if name.map Char.toUpper = "TRUE".toList then (.bool true, rest)
      else if name.map Char.toUpper = "FALSE".toList then (.bool false, rest)
      else lexName name (name.map Char.toUpper) rest) := by
  have noRef : scanRef (name ++ rest) = none := by
    rw [scanRef, (scanRefPart_word head word ends).mpr notRef]
  obtain ⟨taken, dropped⟩ := takeWhile_run word fun next member => (ends next member).1
  have lexed : lexWord (name ++ rest) =
      if name.map Char.toUpper = "TRUE".toList then (.bool true, rest)
      else if name.map Char.toUpper = "FALSE".toList then (.bool false, rest)
      else lexName name (name.map Char.toUpper) rest := by
    simp only [lexWord, taken, dropped]
  obtain ⟨first, tail, rfl, starts⟩ := head
  rw [List.cons_append] at noRef lexed ⊢
  rw [lexToken, if_neg (quote_of_isWordStart starts),
    scan_none_of_head (isDigit_of_isWordStart starts), noRef]
  simp only [starts, if_true, lexed]

theorem escape_of_plain {char : Char} (plain : Plain char) :
    (JsValue.escape char).toList = [char] := by
  rw [JsValue.escape_plain (by have := plain.2.2; omega) plain.1 plain.2.1]
  exact String.toList_singleton char

theorem written_str (value : List Char) : (Token.str value).written =
    '"' :: ((value.map JsValue.escape).flatMap String.toList ++ ['"']) := by
  rw [Token.written, JsValue.quote_toList, String.toList_ofList]

theorem escaped_of_plain (plain : ∀ char ∈ value, Plain char) :
    (value.map JsValue.escape).flatMap String.toList = value := by
  induction value with
  | nil => rfl
  | cons char value ih =>
    have others := ih fun other member => plain other (List.mem_cons_of_mem _ member)
    rw [List.map_cons, List.flatMap_cons, escape_of_plain (plain char List.mem_cons_self), others]
    rfl

theorem lexToken_str (body : List Char) (noQuote : ∀ char ∈ body, char ≠ '"') :
    lexToken ('"' :: (body ++ '"' :: rest)) = .ok (.str body, rest) := by
  have all : ∀ char ∈ body, (fun other => decide (other ≠ '"')) char :=
    fun char member => decide_eq_true (noQuote char member)
  have stops : ∀ next ∈ ('"' :: rest).head?, decide (next ≠ '"') = false := by
    intro next member
    obtain rfl : '"' = next := Option.mem_some.mp member
    rfl
  obtain ⟨taken, dropped⟩ := takeWhile_run all stops
  rw [lexToken, if_pos (.inl rfl), lexString, dropped, taken]

theorem lexToken_number {text : List Char} {numeral : Numeral}
    (scanned : scan (text ++ rest) = some (numeral, rest)) :
    lexToken (text ++ rest) = .ok (.num text, rest) := by
  obtain ⟨digit, tail, textEq, isDigit⟩ := head_of_scan scanned
  have notQuote : ¬(digit = '"' ∨ digit = '\x27') := by
    rintro (rfl | rfl) <;> cases isDigit
  have taken : (text ++ rest).take ((text ++ rest).length - rest.length) = text := by
    rw [List.length_append, Nat.add_sub_cancel, List.take_left]
  rw [textEq] at scanned taken ⊢
  rw [lexToken, if_neg notQuote, scanned]
  simp only [taken]

theorem lexToken_ref {stop : Option RefPart} (typed : start.Typed)
    (stopTyped : ∀ part ∈ stop, RefPart.Typed part)
    (ends : ∀ next ∈ rest.head?, next.isDigit = false ∧ isWhiteSpace next = false ∧ next ≠ ':') :
    lexToken (refText start stop ++ rest) = .ok (.ref start stop, rest) := by
  have scanned := scanRef_text typed stopTyped ends
  obtain ⟨head, tail, textEq, kind⟩ := head_refText typed stop
  have notQuote : ¬(head = '"' ∨ head = '\x27') := by
    rintro (rfl | rfl)
    · rcases kind with dollar | letter
      · cases dollar
      · cases letter
    · rcases kind with dollar | letter
      · cases dollar
      · cases letter
  have notDigit : head.isDigit = false := by
    rcases kind with rfl | letter
    · rfl
    · rw [isAlpha_iff] at letter
      rw [Bool.eq_false_iff, Ne, isDigit_iff]
      omega
  rw [textEq, List.cons_append] at scanned ⊢
  rw [lexToken, if_neg notQuote, scan_none_of_head notDigit, scanned]

theorem lexToken_op {operator : Operator} (ends : ∀ next ∈ rest.head?, next ≠ '>' ∧ next ≠ '=') :
    lexToken (operator.text ++ rest) = .ok (.op operator, rest) := by
  have single : ∀ next more, rest = next :: more → next ≠ '>' ∧ next ≠ '=' := by
    rintro next more rfl
    exact ends next rfl
  cases operator <;> try rfl
  all_goals
    cases rest with
    | nil => rfl
    | cons next more =>
      obtain ⟨notGt, notEq⟩ := single next more rfl
      simp [lexToken, Operator.text, scan, scanRef, scanRefPart, scanDollar, isWordStart,
        lexSymbol, notGt, notEq]

theorem lexToken_bool (flag : Bool)
    (ends : ∀ next ∈ rest.head?, isWordChar next = false ∧ next ≠ '$') :
    lexToken (boolText flag ++ rest) = .ok (.bool flag, rest) := by
  cases flag with
  | true =>
    have word : ∀ char ∈ "TRUE".toList, isWordChar char :=
      List.all_iff_forall_prop.mp (by decide)
    exact lexWord_name ⟨'T', _, rfl, rfl⟩ word ends (by decide)
  | false =>
    have word : ∀ char ∈ "FALSE".toList, isWordChar char :=
      List.all_iff_forall_prop.mp (by decide)
    exact lexWord_name ⟨'F', _, rfl, rfl⟩ word ends (by decide)

theorem lexToken_func (func : FuncName name) :
    lexToken (name ++ '(' :: rest) = .ok (.func name, '(' :: rest) := by
  have ends : ∀ next ∈ ('(' :: rest).head?, isWordChar next = false ∧ next ≠ '$' := by
    intro next member
    obtain rfl : '(' = next := Option.mem_some.mp member
    exact ⟨rfl, by decide⟩
  rw [lexWord_name func.head func.word ends func.notRef, func.upper, if_neg func.notTrue,
    if_neg func.notFalse]
  rfl

theorem lexToken_written {token : Token} (writable : token.Writable) (ends : token.Ends rest) :
    lexToken (token.written ++ rest) = .ok (token, rest) := by
  cases token with
  | num =>
    obtain ⟨value, representable, nonneg, rfl⟩ := writable
    obtain ⟨numeral, scanned, _⟩ := scan_magnitudeText representable nonneg ends
    rw [← text_of_nonneg representable nonneg] at scanned
    exact lexToken_number scanned
  | str value =>
    rw [written_str, escaped_of_plain writable, List.cons_append, List.append_assoc]
    exact lexToken_str value fun char member => (writable char member).1
  | bool flag => exact lexToken_bool flag ends
  | func =>
    obtain ⟨tail, rfl⟩ := ends
    exact lexToken_func writable
  | ident => exact absurd writable id
  | ref => exact lexToken_ref writable.1 writable.2 ends
  | op => exact lexToken_op ends
  | percent | lparen | rparen | comma => rfl

end

section

variable {text : List Char} {tokens : List Token} {token : Token}

def writeTokens (tokens : List Token) : List Char :=
  tokens.flatMap Token.written

theorem writeTokens_cons (token : Token) (tokens : List Token) :
    writeTokens (token :: tokens) = token.written ++ writeTokens tokens :=
  List.flatMap_cons

theorem writeTokens_append (first second : List Token) :
    writeTokens (first ++ second) = writeTokens first ++ writeTokens second :=
  List.flatMap_append

/-- Tokens that the lexer reads back from their texts, before a text. -/
def Readable (text : List Char) : List Token → Prop
  | [] => True
  | token :: tokens =>
    token.Writable ∧ token.Ends (writeTokens tokens ++ text) ∧ Readable text tokens

theorem head_written (writable : token.Writable) :
    ∃ head tail, token.written = head :: tail ∧ isWhiteSpace head = false := by
  cases token with
  | num =>
    obtain ⟨value, representable, nonneg, rfl⟩ := writable
    have endsHere : EndsNumeral [] := nofun
    obtain ⟨numeral, scanned, _⟩ := scan_magnitudeText representable nonneg endsHere
    rw [← text_of_nonneg representable nonneg, List.append_nil] at scanned
    obtain ⟨digit, tail, textEq, isDigit⟩ := head_of_scan scanned
    exact ⟨digit, tail, textEq, isWhiteSpace_of_isDigit isDigit⟩
  | str value => exact ⟨'"', _, written_str value, rfl⟩
  | bool flag =>
    cases flag with
    | true => exact ⟨'T', "RUE".toList, rfl, rfl⟩
    | false => exact ⟨'F', "ALSE".toList, rfl, rfl⟩
  | func =>
    obtain ⟨first, tail, rfl, starts⟩ := writable.head
    exact ⟨first, tail, rfl, isWhiteSpace_of_isWordStart starts⟩
  | ident => exact absurd writable id
  | ref start stop =>
    obtain ⟨head, tail, textEq, kind⟩ := head_refText writable.1 stop
    refine ⟨head, tail, textEq, ?_⟩
    rcases kind with rfl | letter
    · rfl
    · exact isWhiteSpace_of_isAlpha letter
  | op operator => cases operator <;> exact ⟨_, _, rfl, rfl⟩
  | percent => exact ⟨'%', [], rfl, rfl⟩
  | lparen => exact ⟨'(', [], rfl, rfl⟩
  | rparen => exact ⟨')', [], rfl, rfl⟩
  | comma => exact ⟨',', [], rfl, rfl⟩

/-- The lexer pushes written tokens one by one, and goes on with the text after
them. -/
theorem tokenizeFrom_written (fuel pushed : Nat) (readable : Readable text tokens)
    (few : pushed + tokens.length ≤ maxFormulaTokens) :
    tokenizeFrom (tokens.length + fuel) pushed (writeTokens tokens ++ text) =
      (tokenizeFrom fuel (pushed + tokens.length) text).map (tokens ++ ·) := by
  induction tokens generalizing pushed with
  | nil =>
    simp only [writeTokens, List.flatMap_nil, List.nil_append, List.length_nil, Nat.zero_add,
      Nat.add_zero]
    cases tokenizeFrom fuel pushed text <;> rfl
  | cons token tokens ih =>
    obtain ⟨writable, ends, others⟩ := readable
    rw [List.length_cons] at few
    obtain ⟨head, tail, headEq, visible⟩ := head_written writable
    have lexed := lexToken_written writable ends
    have rest := ih (pushed + 1) others (by omega)
    rw [writeTokens_cons, List.append_assoc]
    rw [headEq, List.cons_append] at lexed ⊢
    rw [List.length_cons, Nat.add_right_comm, tokenizeFrom, if_neg (by omega),
      if_neg (by simp [visible]), lexed]
    simp only [rest]
    rw [Nat.add_assoc pushed, Nat.add_comm 1]
    cases tokenizeFrom fuel (pushed + (tokens.length + 1)) text <;> rfl

theorem tokenizeFrom_overflow (fuel pushed : Nat) (readable : Readable text tokens)
    (many : maxFormulaTokens < pushed + tokens.length) (below : pushed ≤ maxFormulaTokens) :
    ∃ message, tokenizeFrom (tokens.length + fuel) pushed (writeTokens tokens ++ text) =
      .error message := by
  induction tokens generalizing pushed with
  | nil => simp only [List.length_nil] at many; omega
  | cons token tokens ih =>
    obtain ⟨writable, ends, others⟩ := readable
    rw [List.length_cons] at many
    obtain ⟨head, tail, headEq, visible⟩ := head_written writable
    have lexed := lexToken_written writable ends
    rw [writeTokens_cons, List.append_assoc]
    rw [headEq, List.cons_append] at lexed ⊢
    rw [List.length_cons, Nat.add_right_comm, tokenizeFrom]
    by_cases full : maxFormulaTokens ≤ pushed
    · exact ⟨_, if_pos full⟩
    · obtain ⟨message, failed⟩ := ih (pushed + 1) others (by omega) (by omega)
      refine ⟨message, ?_⟩
      rw [if_neg full, if_neg (by simp [visible]), lexed]
      simp only [failed]
      rfl

theorem length_writeTokens (readable : Readable text tokens) :
    tokens.length ≤ (writeTokens tokens).length := by
  induction tokens with
  | nil => exact Nat.zero_le _
  | cons token tokens ih =>
    have rest := ih readable.2.2
    obtain ⟨head, tail, headEq, _⟩ := head_written readable.1
    rw [writeTokens_cons, headEq, List.length_append, List.length_cons, List.length_cons]
    omega

theorem tokenize_written (readable : Readable [] tokens) (few : tokens.length ≤ maxFormulaTokens) :
    tokenize (writeTokens tokens) = .ok tokens := by
  obtain ⟨fuel, fuelEq⟩ := Nat.exists_eq_add_of_le (length_writeTokens readable)
  have read := tokenizeFrom_written fuel 0 readable (by omega)
  rw [List.append_nil, ← fuelEq] at read
  rw [tokenize, read]
  cases fuel <;> simp [tokenizeFrom, Except.map]

theorem tokenize_overflow (readable : Readable [] tokens)
    (many : maxFormulaTokens < tokens.length) :
    ∃ message, tokenize (writeTokens tokens) = .error message := by
  obtain ⟨fuel, fuelEq⟩ := Nat.exists_eq_add_of_le (length_writeTokens readable)
  obtain ⟨message, failed⟩ :=
    tokenizeFrom_overflow fuel 0 readable (by omega) (by omega)
  rw [List.append_nil, ← fuelEq] at failed
  exact ⟨message, failed⟩

end

section

variable {text rest after : List Char} {token : Token}

theorem length_dropWhile_le (test : Char → Bool) (text : List Char) :
    (text.dropWhile test).length ≤ text.length :=
  (List.dropWhile_suffix test).length_le

theorem scanFraction_length (text : List Char) : (scanFraction text).2.length ≤ text.length := by
  unfold scanFraction
  split
  · next rest =>
      have shorter := length_dropWhile_le Char.isDigit rest
      split
      · exact le_rfl
      · rw [List.length_cons]
        dsimp only
        omega
  · exact le_rfl

theorem scanSign_length (text : List Char) : (scanSign text).2.length ≤ text.length := by
  unfold scanSign
  split
  · exact Nat.le_succ _
  · exact Nat.le_succ _
  · exact le_rfl

theorem scanExponent_length (text : List Char) : (scanExponent text).2.length ≤ text.length := by
  unfold scanExponent
  split
  · next mark rest =>
      have signless := scanSign_length rest
      have shorter := length_dropWhile_le Char.isDigit (scanSign rest).2
      split
      · dsimp only
        split
        · exact le_rfl
        · rw [List.length_cons]
          dsimp only
          omega
      · exact le_rfl
  · exact le_rfl

theorem scan_length {numeral : Numeral} (scanned : scan text = some (numeral, after)) :
    after.length < text.length := by
  obtain ⟨digit, tail, rfl, isDigit⟩ := head_of_scan scanned
  unfold scan at scanned
  rw [List.takeWhile_cons_of_pos isDigit, List.dropWhile_cons_of_pos isDigit] at scanned
  have afterEq : (scanExponent (scanFraction (tail.dropWhile Char.isDigit)).2).2 = after :=
    (Prod.mk.inj (Option.some.inj scanned)).2
  have digits := length_dropWhile_le Char.isDigit tail
  have fraction := scanFraction_length (tail.dropWhile Char.isDigit)
  have exponent := scanExponent_length (scanFraction (tail.dropWhile Char.isDigit)).2
  rw [← afterEq, List.length_cons]
  omega

theorem scanDollar_length (text : List Char) : (scanDollar text).2.length ≤ text.length := by
  unfold scanDollar
  split
  · exact Nat.le_succ _
  · exact le_rfl

theorem scanRefPart_typed {part : RefPart} (scanned : scanRefPart text = some (part, after)) :
    part.Typed ∧ after.length < text.length := by
  unfold scanRefPart at scanned
  dsimp only at scanned
  split at scanned
  · cases scanned
  · next some =>
      rw [not_or] at some
      cases scanned
      refine ⟨⟨some.1, fun char member => List.mem_takeWhile_imp member, some.2,
        fun char member => List.mem_takeWhile_imp member⟩, ?_⟩
      have colDollar := scanDollar_length text
      have rowDollar := scanDollar_length ((scanDollar text).2.dropWhile Char.isAlpha)
      have letters := congrArg List.length
        (List.takeWhile_append_dropWhile (p := Char.isAlpha) (l := (scanDollar text).2))
      have digits := length_dropWhile_le Char.isDigit
        (scanDollar ((scanDollar text).2.dropWhile Char.isAlpha)).2
      have someLetter := List.length_pos_iff.mpr some.1
      rw [List.length_append] at letters
      omega

theorem scanRef_lexed (scanned : scanRef text = some (token, after)) :
    token.Lexed ∧ after.length < text.length := by
  unfold scanRef at scanned
  split at scanned
  · cases scanned
  · next start rest startScanned =>
      obtain ⟨startTyped, startShorter⟩ := scanRefPart_typed startScanned
      split at scanned
      · next stop tail stopScanned =>
          cases scanned
          unfold scanRangeEnd at stopScanned
          split at stopScanned
          · next inner colon =>
              obtain ⟨stopTyped, stopShorter⟩ := scanRefPart_typed stopScanned
              have spaces := length_dropWhile_le isWhiteSpace rest
              have innerSpaces := length_dropWhile_le isWhiteSpace inner
              have colonLength := congrArg List.length colon
              rw [List.length_cons] at colonLength
              unfold skipWhiteSpace at colonLength stopShorter
              refine ⟨⟨startTyped, ?_⟩, by omega⟩
              rintro _ ⟨⟩
              exact stopTyped
          · cases stopScanned
      · cases scanned
        exact ⟨⟨startTyped, nofun⟩, startShorter⟩

theorem map_toUpper_toUpper (word : List Char) :
    (word.map Char.toUpper).map Char.toUpper = word.map Char.toUpper := by
  rw [List.map_map]
  exact List.map_congr_left fun char _ => toUpper_toUpper char

theorem startsRef_toUpper (word : List Char) : startsRef (word.map Char.toUpper) = startsRef word :=
    by
  have sameLetter : Char.isAlpha ∘ Char.toUpper = Char.isAlpha := funext caseless_isAlpha
  have sameDigit : Char.isDigit ∘ Char.toUpper = Char.isDigit := funext caseless_isDigit
  simp only [startsRef, List.takeWhile_map, List.dropWhile_map, sameLetter, List.head?_map,
    Option.map_map, sameDigit, ne_eq, List.map_eq_nil_iff]

/-- A word that is no reference gives a Boolean, a name of a call or an unknown
name. -/
theorem lexWord_lexed {first : Char} {tail : List Char} (starts : isWordStart first)
    (noRef : scanRef (first :: tail) = none) : (lexWord (first :: tail)).1.Lexed ∧
      (lexWord (first :: tail)).2.length < (first :: tail).length := by
  have isWord := isWordChar_of_isWordStart starts
  have shorter := length_dropWhile_le isWordChar tail
  have restLength : ((first :: tail).dropWhile isWordChar).length < (first :: tail).length := by
    rw [List.dropWhile_cons_of_pos isWord, List.length_cons]
    omega
  unfold lexWord
  dsimp only
  split_ifs with isTrue isFalse
  · exact ⟨trivial, restLength⟩
  · exact ⟨trivial, restLength⟩
  · unfold lexName
    split
    · next after call =>
        have spaces := length_dropWhile_le isWhiteSpace ((first :: tail).dropWhile isWordChar)
        have callLength := congrArg List.length call
        unfold skipWhiteSpace at callLength
        refine ⟨?_, by rw [← callLength]; omega⟩
        have words : ∀ char ∈ (first :: tail).takeWhile isWordChar, isWordChar char :=
          fun char member => List.mem_takeWhile_imp member
        have ends : ∀ next ∈ ((first :: tail).dropWhile isWordChar).head?,
            isWordChar next = false ∧ next ≠ '$' := by
          intro next member
          have notWord : isWordChar next = false := by
            have headFails := List.head?_dropWhile_not isWordChar (first :: tail)
            rw [Option.mem_def.mp member] at headFails
            simpa using headFails
          refine ⟨notWord, ?_⟩
          rintro rfl
          -- a dollar sign is no space and no parenthesis
          cases restEq : (first :: tail).dropWhile isWordChar with
          | nil =>
            rw [restEq] at member
            cases member
          | cons dollar =>
            rw [restEq] at member call
            obtain rfl : dollar = '$' := Option.mem_some.mp member
            cases (List.cons.inj call).1
        have noPart : scanRefPart (first :: tail) = none := by
          unfold scanRef at noRef
          split at noRef
          · next none => exact none
          · split at noRef <;> cases noRef
        have regroup : first :: tail = (first :: tail).takeWhile isWordChar ++
            (first :: tail).dropWhile isWordChar := List.takeWhile_append_dropWhile.symm
        have wordHead : ∃ head rest, (first :: tail).takeWhile isWordChar = head :: rest ∧
            isWordStart head :=
          ⟨first, _, List.takeWhile_cons_of_pos isWord, starts⟩
        rw [regroup] at noPart
        have notRef := (scanRefPart_word wordHead words ends).mp noPart
        obtain ⟨head, rest, wordEq, headStarts⟩ := wordHead
        exact {
          head := ⟨head.toUpper, rest.map Char.toUpper, by rw [wordEq, List.map_cons],
            by rw [caseless_isWordStart]; exact headStarts⟩
          word := by
            intro char member
            obtain ⟨other, otherMember, rfl⟩ := List.mem_map.mp member
            rw [caseless_isWordChar]
            exact words other otherMember
          upper := map_toUpper_toUpper _
          notTrue := isTrue
          notFalse := isFalse
          notRef := by rw [startsRef_toUpper]; exact notRef }
    · exact ⟨trivial, restLength⟩

theorem lexString_lexed {quote : Char} (lexed : lexString quote text = .ok (token, after)) :
    token.Lexed ∧ after.length < text.length := by
  unfold lexString at lexed
  split at lexed
  · cases lexed
  · next closing rest dropped =>
      cases lexed
      have shorter := length_dropWhile_le (fun other => decide (other ≠ quote)) text
      rw [dropped, List.length_cons] at shorter
      exact ⟨trivial, shorter⟩

theorem lexSymbol_lexed (lexed : lexSymbol text = .ok (token, after)) :
    token.Lexed ∧ after.length < text.length := by
  unfold lexSymbol at lexed
  split at lexed
  all_goals
    cases lexed
    try exact ⟨trivial, by simp only [List.length_cons]; omega⟩

theorem lexToken_lexed (lexed : lexToken text = .ok (token, after)) :
    token.Lexed ∧ after.length < text.length := by
  unfold lexToken at lexed
  split at lexed
  · cases lexed
  · next first tail =>
      split at lexed
      · obtain ⟨isLexed, shorter⟩ := lexString_lexed lexed
        exact ⟨isLexed, shorter.trans (Nat.lt_succ_self _)⟩
      · split at lexed
        · next numeral after scanned =>
            cases lexed
            have shorter := scan_length scanned
            obtain ⟨digit, rest, textEq, isDigit⟩ := head_of_scan scanned
            refine ⟨?_, shorter⟩
            obtain ⟨count, countEq⟩ : ∃ count, (first :: tail).length - after.length = count + 1 :=
              ⟨(first :: tail).length - after.length - 1, by omega⟩
            rw [Token.Lexed, countEq, List.take_succ_cons, numeralNumber]
            obtain rfl : first = digit := (List.cons.inj textEq).1
            simp [scan, isDigit]
        · split at lexed
          · next read scanned =>
              cases lexed
              exact scanRef_lexed scanned
          · next noRef =>
              split at lexed
              · next starts =>
                  have word := lexWord_lexed starts noRef
                  rw [Except.ok.inj lexed] at word
                  exact word
              · exact lexSymbol_lexed lexed

theorem tokenizeFrom_lexed {fuel pushed : Nat} {tokens : List Token}
    (lexed : tokenizeFrom fuel pushed text = .ok tokens) : ∀ token ∈ tokens, token.Lexed := by
  induction fuel generalizing pushed text tokens with
  | zero =>
    cases lexed
    exact nofun
  | succ fuel ih =>
    cases text with
    | nil =>
      cases lexed
      exact nofun
    | cons =>
      rw [tokenizeFrom] at lexed
      split_ifs at lexed
      · exact ih lexed
      · split at lexed
        · cases lexed
        · next token after read =>
            cases restEq : tokenizeFrom fuel (pushed + 1) after with
            | error =>
              rw [restEq] at lexed
              cases lexed
            | ok =>
              rw [restEq] at lexed
              cases lexed
              exact List.forall_mem_cons.mpr ⟨(lexToken_lexed read).1, ih restEq⟩

theorem tokenizeFrom_enough {fuel pushed : Nat} (enough : text.length ≤ fuel) :
    tokenizeFrom (fuel + 1) pushed text = tokenizeFrom fuel pushed text := by
  induction fuel generalizing pushed text with
  | zero =>
    obtain rfl := List.length_eq_zero_iff.mp (Nat.le_zero.mp enough)
    rfl
  | succ fuel ih =>
    cases text with
    | nil => rfl
    | cons =>
      rw [List.length_cons] at enough
      rw [tokenizeFrom, tokenizeFrom, ih (by omega)]
      split
      · rfl
      · split
        · rfl
        · split
          · rfl
          · next token after read =>
              have shorter := (lexToken_lexed read).2
              rw [List.length_cons] at shorter
              rw [ih (by omega)]

end

variable {rest value : List Char}

theorem escape_length {char : Char} (notPlain : ¬Plain char) :
    2 ≤ (JsValue.escape char).toList.length := by
  by_cases control : char.toNat < 32
  · have all : ∀ code < 32, decide (2 ≤ (JsValue.escape (Char.ofNat code)).toList.length) := by
      decide +kernel
    have long := all char.toNat control
    rw [Char.ofNat_toNat] at long
    exact of_decide_eq_true long
  · by_cases quote : char = '"'
    · subst quote
      decide
    · by_cases backslash : char = '\\'
      · subst backslash
        decide
      · exact absurd ⟨quote, backslash, not_lt.mp control⟩ notPlain

theorem escape_noQuote {char : Char} (notQuote : char ≠ '"') :
    ∀ other ∈ (JsValue.escape char).toList, other ≠ '"' := by
  by_cases control : char.toNat < 32
  · have all : ∀ code < 32,
        (JsValue.escape (Char.ofNat code)).toList.all (fun other => other ≠ '"') := by
      decide +kernel
    have clean := all char.toNat control
    rw [Char.ofNat_toNat] at clean
    exact List.all_iff_forall_prop.mp clean
  · by_cases backslash : char = '\\'
    · subst backslash
      exact List.all_iff_forall_prop.mp (by decide)
    · rw [escape_of_plain ⟨notQuote, backslash, not_lt.mp control⟩]
      intro other member
      rw [List.mem_singleton.mp member]
      exact notQuote

theorem escaped_length (value : List Char) :
    value.length ≤ ((value.map JsValue.escape).flatMap String.toList).length ∧
      ((∃ char ∈ value, ¬Plain char) →
        value.length < ((value.map JsValue.escape).flatMap String.toList).length) := by
  induction value with
  | nil => exact ⟨le_rfl, by simp⟩
  | cons char value ih =>
    obtain ⟨atLeast, longer⟩ := ih
    rw [List.map_cons, List.flatMap_cons, List.length_append, List.length_cons]
    by_cases plain : Plain char
    · rw [escape_of_plain plain, List.length_singleton]
      refine ⟨by omega, fun spoiled => ?_⟩
      obtain ⟨other, member, otherSpoiled⟩ := spoiled
      rcases List.mem_cons.mp member with rfl | member
      · exact absurd plain otherSpoiled
      · have rest := longer ⟨other, member, otherSpoiled⟩
        omega
    · have long := escape_length plain
      exact ⟨by omega, fun _ => by omega⟩

/-- A string literal that the serializer escapes is read as another string, if
it is read at all. -/
theorem lexToken_spoiled {token : Token} {after : List Char} (spoiled : ∃ char ∈ value, ¬Plain char)
    (lexed : lexToken ((Token.str value).written ++ rest) = .ok (token, after)) :
    ∃ other, token = .str other ∧ other ≠ value := by
  rw [written_str, List.cons_append, List.append_assoc, List.singleton_append] at lexed
  rw [lexToken, if_pos (.inl rfl), lexString] at lexed
  split at lexed
  · cases lexed
  · cases lexed
    refine ⟨_, rfl, fun same => ?_⟩
    -- a string that is read as itself has no quote, and then nothing cuts its escapes off
    have noQuote : ∀ char ∈ value, char ≠ '"' := by
      intro char member
      rw [← same] at member
      have kept := List.mem_takeWhile_imp (p := fun other : Char => decide (other ≠ '"')) member
      exact of_decide_eq_true kept
    have escapedNoQuote : ∀ char ∈ (value.map JsValue.escape).flatMap String.toList,
        (fun other => decide (other ≠ '"')) char := by
      intro char member
      rw [List.flatMap_map, List.mem_flatMap] at member
      obtain ⟨source, sourceMember, charMember⟩ := member
      exact decide_eq_true (escape_noQuote (noQuote source sourceMember) char charMember)
    have stops : ∀ next ∈ ('"' :: rest).head?, decide (next ≠ '"') = false := by
      intro next member
      obtain rfl : '"' = next := Option.mem_some.mp member
      rfl
    rw [(takeWhile_run escapedNoQuote stops).1] at same
    have longer := (escaped_length value).2 spoiled
    rw [same] at longer
    exact lt_irrefl _ longer

theorem lexToken_infinity (ends : ∀ next ∈ rest.head?, isWordChar next = false ∧ next ≠ '$')
    (stops : ∀ next ∈ rest.head?, isWhiteSpace next = false ∧ next ≠ '(') :
    lexToken ("Infinity".toList ++ rest) = .ok (.ident "Infinity".toList, rest) := by
  have word : ∀ char ∈ "Infinity".toList, isWordChar char :=
    List.all_iff_forall_prop.mp (by decide)
  have called : lexName "Infinity".toList ("Infinity".toList.map Char.toUpper) rest =
      (.ident "Infinity".toList, rest) := by
    unfold lexName
    cases rest with
    | nil => rfl
    | cons next =>
      obtain ⟨visible, notParen⟩ := stops next rfl
      rw [skipWhiteSpace_visible visible]
      split
      · next heq => exact absurd (List.cons.inj heq).1 notParen
      · rfl
  have head : ∃ first tail, "Infinity".toList = first :: tail ∧ isWordStart first :=
    ⟨'I', "nfinity".toList, by decide, rfl⟩
  rw [lexWord_name head word ends (by decide), called, if_neg (by decide), if_neg (by decide)]

end P2PHub.Calc
