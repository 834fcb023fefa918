import Mathlib.Data.Bool.AllAny
import Mathlib.Data.List.TakeWhile
import P2PHub.DecimalText
import P2PHub.JavaScriptValues
import P2PHub.Utf16Text

/-!
# Reading JSON texts

`JSON.parse` on the characters of a text.  What `JSON.stringify` writes for a
JSON value is read back as that value.
-/

namespace P2PHub.JsValue

open Binary64 Numeral

def jsonNumber (number : Binary64) : JsValue :=
  match number with
  | .finite value representable => .number (String.ofList (finite value representable).text)
  | _ => .number "null"

/-- A text without its minus sign, and whether it has one. -/
def unsigned (text : List Char) : Bool × List Char :=
  match text with
  | '-' :: magnitude => (true, magnitude)
  | _ => (false, text)

def readNumber (text : List Char) : Option Binary64 :=
  let (negative, magnitude) := unsigned text
  match scan magnitude with
  | some (numeral, []) => some (if negative then numeral.number.neg else numeral.number)
  | _ => none

def arrayIndex? (key : String) : Option Nat :=
  let index := Nat.ofDigitChars 10 key.toList 0
  if Nat.toDigits 10 index = key.toList ∧ index < 2 ^ 32 - 1 then some index else none

/-- The order of an object's properties: array indices ascending, then all
other keys as they were added. -/
def precedes (key later : String) : Bool :=
  match arrayIndex? key, arrayIndex? later with
  | some index, some next => decide (index < next)
  | some _, none => true
  | none, some _ => false
  | none, none => true

/-- The values that `JSON.parse` yields: no number but a finite one, and in an
object no key twice and the keys in their order. -/
inductive IsJson : JsValue → Prop
  | null : IsJson .null
  | boolean (value : Bool) : IsJson (.boolean value)
  | number {value : ℚ} (representable : Representable value) :
      IsJson (jsonNumber (.finite value representable))
  | string (value : String) : IsJson (.string value)
  | array {items : List JsValue} (each : ∀ item ∈ items, IsJson item) : IsJson (.array items)
  | object {fields : List (String × JsValue)} (distinct : (fields.map Prod.fst).Nodup)
      (ordered : (fields.map Prod.fst).Pairwise fun key later => precedes key later)
      (each : ∀ field ∈ fields, IsJson field.2) : IsJson (.object fields)

/-- The property of an object, `undefined` when it has none. -/
def property (fields : List (String × JsValue)) (key : String) : JsValue :=
  (fields.lookup key).getD undefined

def isUndefined : JsValue → Bool
  | undefined => true
  | _ => false

/-- The number that a value is, unless it is none or not a finite one. -/
def number? : JsValue → Option Binary64
  | number text => readNumber text.toList
  | _ => none

def string? : JsValue → Option String
  | string value => some value
  | _ => none

def isSpace (char : Char) : Bool :=
  char = ' ' || char = '\t' || char = '\n' || char = '\r'

def skipSpace (text : List Char) : List Char :=
  text.dropWhile isSpace

def hexDigit (char : Char) : Option Nat :=
  if '0' ≤ char ∧ char ≤ '9' then some (char.toNat - '0'.toNat)
  else if 'a' ≤ char ∧ char ≤ 'f' then some (char.toNat - 'a'.toNat + 10)
  else if 'A' ≤ char ∧ char ≤ 'F' then some (char.toNat - 'A'.toNat + 10)
  else none

def simpleEscape (char : Char) : Option Nat :=
  match char with
  | '"' => some 34
  | '\\' => some 92
  | '/' => some 47
  | 'b' => some 8
  | 'f' => some 12
  | 'n' => some 10
  | 'r' => some 13
  | 't' => some 9
  | _ => none

/-- The code units of a string literal after its opening quote, and what
follows its closing one. -/
def readUnits : List Char → Option (List Nat × List Char)
  | [] => none
  | '"' :: rest => some ([], rest)
  | '\\' :: 'u' :: first :: second :: third :: fourth :: rest => do
      let first ← hexDigit first
      let second ← hexDigit second
      let third ← hexDigit third
      let fourth ← hexDigit fourth
      let (units, rest) ← readUnits rest
      return ((((first * 16 + second) * 16 + third) * 16 + fourth) :: units, rest)
  | '\\' :: escaped :: rest => do
      let unit ← simpleEscape escaped
      let (units, rest) ← readUnits rest
      return (unit :: units, rest)
  | char :: rest =>
    if char.toNat < 32 then none
    else do
      let (units, rest) ← readUnits rest
      return (Utf16.charUnits char ++ units, rest)

def readString (text : List Char) : Option (String × List Char) :=
  (readUnits text).map fun (units, rest) => (String.ofList (Utf16.decode units), rest)

/-- A number at the start of a text: JSON allows a sign, and no leading zero. -/
def scanNumber (text : List Char) : Option (JsValue × List Char) :=
  let (negative, magnitude) := unsigned text
  match scan magnitude with
  | some (numeral, rest) =>
    if leadingZero numeral.whole then none
    else some (jsonNumber (if negative then numeral.number.neg else numeral.number), rest)
  | none => none

/-- Define a property: a key keeps its place when it is defined again, and a
new one takes its place in the order of the properties. -/
def setField (fields : List (String × JsValue)) (key : String) (value : JsValue) :
    List (String × JsValue) :=
  if key ∈ fields.map Prod.fst then
    fields.map fun field => if field.1 = key then (key, value) else field
  else
    fields.takeWhile (fun field => precedes field.1 key) ++
      (key, value) :: fields.dropWhile fun field => precedes field.1 key

mutual

/-- A value at the start of a text.  The fuel bounds the nesting. -/
def readValue : Nat → List Char → Option (JsValue × List Char)
  | 0, _ => none
  | fuel + 1, text =>
    match skipSpace text with
    | 'n' :: 'u' :: 'l' :: 'l' :: rest => some (.null, rest)
    | 't' :: 'r' :: 'u' :: 'e' :: rest => some (.boolean true, rest)
    | 'f' :: 'a' :: 'l' :: 's' :: 'e' :: rest => some (.boolean false, rest)
    | '"' :: rest => (readString rest).map fun (value, rest) => (.string value, rest)
    | '[' :: rest =>
      match skipSpace rest with
      | ']' :: rest => some (.array [], rest)
      | _ => (readItems fuel rest).map fun (items, rest) => (.array items, rest)
    | '\x7b' :: rest =>
      match skipSpace rest with
      | '\x7d' :: rest => some (.object [], rest)
      | _ => (readFields fuel [] rest).map fun (fields, rest) => (.object fields, rest)
    | text => scanNumber text

/-- The items of an array that is not empty, and its end. -/
def readItems : Nat → List Char → Option (List JsValue × List Char)
  | 0, _ => none
  | fuel + 1, text => do
      let (item, rest) ← readValue fuel text
      match skipSpace rest with
      | ',' :: rest =>
        let (items, rest) ← readItems fuel rest
        return (item :: items, rest)
      | ']' :: rest => return ([item], rest)
      | _ => none

/-- The fields of an object that is not empty, and its end. -/
def readFields : Nat → List (String × JsValue) → List Char →
    Option (List (String × JsValue) × List Char)
  | 0, _, _ => none
  | fuel + 1, fields, text =>
    match skipSpace text with
    | '"' :: rest => do
        let (key, rest) ← readString rest
        match skipSpace rest with
        | ':' :: rest =>
          let (value, rest) ← readValue fuel rest
          match skipSpace rest with
          | ',' :: rest => readFields fuel (setField fields key value) rest
          | '\x7d' :: rest => return (setField fields key value, rest)
          | _ => none
        | _ => none
    | _ => none

end

/-- `JSON.parse`, where nothing stands for the error it throws. -/
def parseJson (text : List Char) : Option JsValue :=
  match readValue (text.length + 1) text with
  | some (value, rest) => if skipSpace rest = [] then some value else none
  | none => none

section

variable {rest : List Char}

/-- Four hexadecimal digits that stand for a code unit. -/
def unicodeDigits (unit : Nat) : List Char → Bool
  | [first, second, third, fourth] =>
    match hexDigit first, hexDigit second, hexDigit third, hexDigit fourth with
    | some first, some second, some third, some fourth =>
      ((first * 16 + second) * 16 + third) * 16 + fourth = unit
    | _, _, _, _ => false
  | _ => false

/-- A text that is one escape sequence for a code unit. -/
def Escapes (unit : Nat) : List Char → Bool
  | '\\' :: escaped :: digits =>
    if escaped = 'u' then unicodeDigits unit digits
    else digits.isEmpty && simpleEscape escaped = some unit
  | _ => false

theorem readUnits_unicodeDigits {unit : Nat} {digits : List Char}
    (stands : unicodeDigits unit digits) : readUnits ('\\' :: 'u' :: (digits ++ rest)) =
      (readUnits rest).map fun (units, rest) => (unit :: units, rest) := by
  unfold unicodeDigits at stands
  split at stands
  · next first second third fourth =>
      split at stands
      · next a b c d firstEq secondEq thirdEq fourthEq =>
          have unitEq := of_decide_eq_true stands
          cases readEq : readUnits rest <;>
            simp [readUnits, firstEq, secondEq, thirdEq, fourthEq, readEq, unitEq]
      · cases stands
  · cases stands

theorem readUnits_escapes {unit : Nat} {text : List Char} (escapes : Escapes unit text) :
    readUnits (text ++ rest) = (readUnits rest).map fun (units, rest) => (unit :: units, rest) := by
  unfold Escapes at escapes
  split at escapes
  · next escaped digits =>
      split at escapes
      · next unicode =>
          rw [unicode]
          exact readUnits_unicodeDigits escapes
      · next notUnicode =>
          rw [Bool.and_eq_true, List.isEmpty_iff, decide_eq_true_eq] at escapes
          obtain ⟨rfl, unitEq⟩ := escapes
          cases readEq : readUnits rest <;>
            simp [readUnits, notUnicode, unitEq, readEq]
  · cases escapes

theorem escape_control : ∀ code < 32, Escapes code (escape (Char.ofNat code)).toList := by
  decide +kernel

theorem escape_plain {char : Char} (visible : ¬char.toNat < 32) (notQuote : char ≠ '"')
    (notBackslash : char ≠ '\\') : escape char = String.singleton char := by
  have quote : char.toNat ≠ 34 := fun same => notQuote (Char.toNat_inj.mp same)
  have backslash : char.toNat ≠ 92 := fun same => notBackslash (Char.toNat_inj.mp same)
  unfold escape
  rw [if_neg quote, if_neg backslash, if_neg (by omega), if_neg (by omega), if_neg (by omega),
    if_neg (by omega), if_neg (by omega), if_neg (by omega), if_neg visible]

theorem readUnits_escape (char : Char) : readUnits ((escape char).toList ++ rest) =
      (readUnits rest).map fun (units, rest) => (Utf16.charUnits char ++ units, rest) := by
  by_cases control : char.toNat < 32
  · have escapes := escape_control char.toNat control
    rw [Char.ofNat_toNat] at escapes
    rw [readUnits_escapes escapes, Utf16.charUnits, if_pos (by omega)]
    rfl
  · by_cases quote : char = '"'
    · subst quote
      have escapes : Escapes 34 (escape '"').toList := rfl
      exact readUnits_escapes escapes
    · by_cases backslash : char = '\\'
      · subst backslash
        have escapes : Escapes 92 (escape '\\').toList := rfl
        exact readUnits_escapes escapes
      · rw [escape_plain control quote backslash, String.toList_singleton, List.singleton_append,
          readUnits.eq_5 _ _ quote (by simp [backslash]) (by simp [backslash]), if_neg control]
        cases readUnits rest <;> rfl

theorem readUnits_quoted (chars : List Char) :
    readUnits ((chars.map escape).flatMap String.toList ++ '"' :: rest) =
      some (Utf16.units chars, rest) := by
  induction chars with
  | nil => rfl
  | cons char chars ih =>
    rw [List.map_cons, List.flatMap_cons, List.append_assoc, readUnits_escape, ih]
    rfl

theorem quote_toList (value : String) :
    (quote value).toList = '"' :: ((value.toList.map escape).flatMap String.toList ++ ['"']) := by
  simp [quote]

theorem readString_quoted (value : String) (rest : List Char) :
    readString ((value.toList.map escape).flatMap String.toList ++ '"' :: rest) =
      some (value, rest) := by
  simp only [readString, readUnits_quoted, Option.map_some, Utf16.decode_units,
    String.ofList_toList]

end

section

variable {rest : List Char} {value : ℚ}

theorem unsigned_digit {digit : Char} (isDigit : digit.isDigit) :
    unsigned (digit :: rest) = (false, digit :: rest) := by
  unfold unsigned
  split
  · next magnitude heq =>
      cases heq
      cases isDigit
  · rfl

theorem unsigned_of_scan {text : List Char} {read : Numeral × List Char}
    (scanned : scan text = some read) : unsigned text = (false, text) := by
  obtain ⟨digit, tail, rfl, isDigit⟩ := head_of_scan scanned
  exact unsigned_digit isDigit

variable (representable : Representable value)
include representable

theorem scanNumber_text (ends : EndsNumeral rest) :
    scanNumber ((finite value representable).text ++ rest) =
      some (jsonNumber (.finite value representable), rest) := by
  rcases lt_or_ge value 0 with negative | nonneg
  · have positive : 0 ≤ -value := by linarith
    obtain ⟨numeral, scanned, number, noZero⟩ :=
      scan_magnitudeText representable.neg positive ends
    have negated : numeral.number.neg = .finite value representable := by
      rw [number, neg, ofRat_of_representable (by simpa using representable)]
      simp only [neg_neg]
    rw [text_of_neg representable negative, List.cons_append, scanNumber]
    simp only [unsigned, scanned, noZero, Bool.false_eq_true, if_false, if_true, negated]
  · obtain ⟨numeral, scanned, number, noZero⟩ :=
      scan_magnitudeText representable nonneg ends
    rw [text_of_nonneg representable nonneg, scanNumber]
    simp only [unsigned_of_scan scanned, scanned, noZero, Bool.false_eq_true, if_false, number]

theorem readNumber_text :
    readNumber (finite value representable).text = some (.finite value representable) := by
  have endsHere : EndsNumeral [] := nofun
  rcases lt_or_ge value 0 with negative | nonneg
  · have positive : 0 ≤ -value := by linarith
    obtain ⟨numeral, scanned, number, _⟩ :=
      scan_magnitudeText representable.neg positive endsHere
    rw [List.append_nil] at scanned
    have negated : numeral.number.neg = .finite value representable := by
      rw [number, neg, ofRat_of_representable (by simpa using representable)]
      simp only [neg_neg]
    rw [text_of_neg representable negative, readNumber]
    simp only [unsigned, scanned, if_true, negated]
  · obtain ⟨numeral, scanned, number, _⟩ :=
      scan_magnitudeText representable nonneg endsHere
    rw [List.append_nil] at scanned
    rw [text_of_nonneg representable nonneg, readNumber]
    simp only [unsigned_of_scan scanned, scanned, Bool.false_eq_true, if_false, number]

theorem number?_jsonNumber :
    number? (jsonNumber (.finite value representable)) = some (.finite value representable) := by
  rw [jsonNumber, number?, String.toList_ofList, readNumber_text]

theorem head_text : ∃ head tail, (finite value representable).text = head :: tail ∧
      (head = '-' ∨ head.isDigit) := by
  rcases lt_or_ge value 0 with negative | nonneg
  · exact ⟨'-', _, text_of_neg representable negative, .inl rfl⟩
  · have endsHere : EndsNumeral [] := nofun
    obtain ⟨numeral, scanned, _⟩ := scan_magnitudeText representable nonneg endsHere
    rw [List.append_nil] at scanned
    obtain ⟨digit, tail, textEq, isDigit⟩ := head_of_scan scanned
    exact ⟨digit, tail, (text_of_nonneg representable nonneg).trans textEq, .inr isDigit⟩

end

/-- What a reader of values does with the text of a value: the text begins with
no space and no closing bracket, and is read up to its end. -/
structure ReadsBack (value : JsValue) (text : List Char) : Prop where
  starts : ∃ head tail, text = head :: tail ∧ isSpace head = false ∧ head ≠ ']'
  reads : ∀ fuel rest, text.length < fuel → EndsNumeral rest →
    readValue fuel (text ++ rest) = some (value, rest)

variable {fuel : Nat} {rest : List Char}

variable {items : List JsValue} {texts : List (List Char)} {fields : List (String × JsValue)}
  {value : JsValue}

theorem skipSpace_cons {head : Char} {tail : List Char} (visible : isSpace head = false) :
    skipSpace (head :: tail) = head :: tail := by
  simp [skipSpace, visible]

theorem readsBack_null : ReadsBack .null "null".toList :=
  ⟨⟨'n', "ull".toList, rfl, rfl, by decide⟩, fun fuel rest enough _ => by
    cases fuel with
    | zero => cases enough
    | succ => rfl⟩

theorem readsBack_boolean (value : Bool) :
    ReadsBack (.boolean value) (if value then "true" else "false").toList := by
  cases value with
  | true =>
    exact ⟨⟨'t', "rue".toList, rfl, rfl, by decide⟩, fun fuel rest enough _ => by
      cases fuel with
      | zero => cases enough
      | succ => rfl⟩
  | false =>
    exact ⟨⟨'f', "alse".toList, rfl, rfl, by decide⟩, fun fuel rest enough _ => by
      cases fuel with
      | zero => cases enough
      | succ => rfl⟩

theorem readsBack_string (value : String) : ReadsBack (.string value) (quote value).toList := by
  rw [quote_toList]
  refine ⟨⟨'"', _, rfl, rfl, by decide⟩, fun fuel rest enough _ => ?_⟩
  cases fuel with
  | zero => cases enough
  | succ =>
    have read := readString_quoted value rest
    simp only [List.cons_append, List.append_assoc, List.nil_append, readValue]
    rw [skipSpace_cons rfl]
    simp only [read, Option.map_some]

theorem not_isSpace_of_isDigit {char : Char} (isDigit : char.isDigit) : isSpace char = false := by
  by_contra space
  simp only [isSpace, Bool.not_eq_false, Bool.or_eq_true, decide_eq_true_eq] at space
  rcases space with ((rfl | rfl) | rfl) | rfl <;> cases isDigit

theorem readValue_number {head : Char} {tail : List Char} (starts : head = '-' ∨ head.isDigit) :
    readValue (fuel + 1) (head :: tail) = scanNumber (head :: tail) := by
  have visible : isSpace head = false := by
    rcases starts with rfl | isDigit
    · rfl
    · exact not_isSpace_of_isDigit isDigit
  rw [readValue, skipSpace_cons visible]
  split <;> simp_all

theorem readsBack_number {value : ℚ} (representable : Representable value) :
    ReadsBack (jsonNumber (.finite value representable)) (finite value representable).text := by
  obtain ⟨head, tail, textEq, starts⟩ := head_text representable
  constructor
  · refine ⟨head, tail, textEq, ?_, ?_⟩
    · rcases starts with rfl | isDigit
      · rfl
      · exact not_isSpace_of_isDigit isDigit
    · rintro rfl
      rcases starts with minus | isDigit
      · cases minus
      · cases isDigit
  · intro fuel rest enough ends
    cases fuel with
    | zero => cases enough
    | succ =>
      have scanned := scanNumber_text representable ends
      rw [textEq, List.cons_append] at scanned ⊢
      rw [readValue_number starts, scanned]

/-- The text of the items of an array after its opening bracket. -/
def itemsText : List (List Char) → List Char
  | [] => []
  | [text] => text
  | text :: texts => text ++ ',' :: itemsText texts

theorem itemsText_eq (texts : List String) :
    (String.intercalate "," texts).toList = itemsText (texts.map String.toList) := by
  induction texts with
  | nil => rfl
  | cons text texts ih =>
    cases texts with
    | nil => simp [itemsText]
    | cons =>
      simpa [itemsText] using ih

theorem endsNumeral_cons {next : Char} (ends : next.isDigit = false ∧ next ≠ '.' ∧ next ≠ 'e' ∧
    next ≠ 'E') : EndsNumeral (next :: rest) := by
  intro other member
  obtain rfl : next = other := by simpa using member
  exact ends

theorem readItems_back (back : List.Forall₂ ReadsBack items texts) (some : items ≠ [])
    (enough : (itemsText texts).length + 1 < fuel) :
    readItems fuel (itemsText texts ++ ']' :: rest) = .some (items, rest) := by
  induction back generalizing fuel with
  | nil => exact absurd rfl some
  | @cons item text items texts itemBack restBack ih =>
    cases fuel with
    | zero => cases enough
    | succ fuel =>
      cases restBack with
      | nil =>
        have closes : EndsNumeral (']' :: rest) := endsNumeral_cons (by decide)
        have read := itemBack.reads fuel _ (by simp [itemsText] at enough; omega) closes
        simp only [itemsText, readItems, read, Option.bind_eq_bind, Option.bind_some]
        rfl
      | @cons next nextText others otherTexts nextBack othersBack =>
        have continues : EndsNumeral (',' :: (itemsText (nextText :: otherTexts) ++ ']' :: rest)) :=
          endsNumeral_cons (by decide)
        simp only [itemsText, List.length_append, List.length_cons] at enough
        have read := itemBack.reads fuel _ (by omega) continues
        have enoughRest : (itemsText (nextText :: otherTexts)).length + 1 < fuel := by omega
        have readRest := ih (by simp) enoughRest
        simp only [itemsText, List.append_assoc, List.cons_append, readItems, read,
          Option.bind_eq_bind, Option.bind_some]
        rw [skipSpace_cons rfl]
        simp [readRest]

theorem setField_new {key : String}
    (new : key ∉ fields.map Prod.fst) (ordered : ∀ other ∈ fields.map Prod.fst, precedes other key)
    : setField fields key value = fields ++ [(key, value)] := by
  have all : ∀ field ∈ fields, precedes field.1 key :=
    fun field member => ordered field.1 (List.mem_map_of_mem member)
  rw [setField, if_neg new, List.takeWhile_eq_self_iff.mpr all, List.dropWhile_eq_nil_iff.mpr all]

/-- A field whose text is a quoted key, a colon and the text of its value. -/
structure FieldReadsBack (field : String × JsValue) (text : List Char) : Prop where
  value : ∃ valueText, text = (quote field.1).toList ++ ':' :: valueText ∧
    ReadsBack field.2 valueText

theorem readFields_back {before : List (String × JsValue)}
    (back : List.Forall₂ FieldReadsBack fields texts) (some : fields ≠ [])
    (distinct : ((before ++ fields).map Prod.fst).Nodup)
    (ordered : ((before ++ fields).map Prod.fst).Pairwise fun key later => precedes key later)
    (enough : (itemsText texts).length + 1 < fuel) :
    readFields fuel before (itemsText texts ++ '\x7d' :: rest) = .some (before ++ fields, rest) :=
      by
  induction back generalizing fuel before with
  | nil => exact absurd rfl some
  | @cons field text fields texts fieldBack restBack ih =>
    obtain ⟨key, value⟩ := field
    obtain ⟨valueText, rfl, valueBack⟩ := fieldBack.value
    cases fuel with
    | zero => cases enough
    | succ fuel =>
      have new : key ∉ before.map Prod.fst := by
        rw [List.map_append, List.nodup_append] at distinct
        exact fun member => distinct.2.2 key member key (by simp) rfl
      have later : ∀ other ∈ before.map Prod.fst, precedes other key := by
        rw [List.map_append, List.pairwise_append] at ordered
        exact fun other member => ordered.2.2 other member key (by simp)
      have added : setField before key value = before ++ [(key, value)] :=
        setField_new new later
      cases restBack with
      | nil =>
        have closes : EndsNumeral ('\x7d' :: rest) := endsNumeral_cons (by decide)
        simp only [itemsText, List.length_append, List.length_cons] at enough
        have readKey := readString_quoted key (':' :: (valueText ++ '\x7d' :: rest))
        have read := valueBack.reads fuel _ (by omega) closes
        simp only [itemsText, quote_toList, List.append_assoc, List.cons_append,
          List.nil_append, readFields]
        rw [skipSpace_cons rfl]
        simp only [readKey, Option.bind_eq_bind, Option.bind_some]
        rw [skipSpace_cons rfl]
        simp only [read, Option.bind_some]
        simp only [added]
        rfl
      | @cons next nextText others otherTexts nextBack othersBack =>
        have continues :
            EndsNumeral (',' :: (itemsText (nextText :: otherTexts) ++ '\x7d' :: rest)) :=
          endsNumeral_cons (by decide)
        simp only [itemsText, List.length_append, List.length_cons] at enough
        have readKey := readString_quoted key
          (':' :: (valueText ++ ',' :: (itemsText (nextText :: otherTexts) ++ '\x7d' :: rest)))
        have read := valueBack.reads fuel _ (by omega) continues
        have enoughRest : (itemsText (nextText :: otherTexts)).length + 1 < fuel := by omega
        have regroup : before ++ (key, value) :: next :: others =
            (before ++ [(key, value)]) ++ next :: others := by simp
        rw [regroup] at distinct ordered ⊢
        have readRest := ih (by simp) distinct ordered enoughRest
        simp only [itemsText, quote_toList, List.append_assoc, List.cons_append,
          List.nil_append, readFields]
        rw [skipSpace_cons rfl]
        simp only [readKey, Option.bind_eq_bind, Option.bind_some]
        rw [skipSpace_cons rfl]
        simp only [read, Option.bind_some]
        rw [skipSpace_cons rfl]
        simp only [added, readRest]
        rw [List.append_assoc]
        rfl

/-- The texts of the items of an array, related to the items as each text is to
its item. -/
theorem stringifyItems_related (related : JsValue → String → Prop)
    (each : ∀ item ∈ items, ∃ text, stringify item = .ok (some text) ∧ related item text) :
    ∃ texts, stringifyItems items = .ok texts ∧ List.Forall₂ related items texts := by
  induction items with
  | nil => exact ⟨[], by simp [stringifyItems], .nil⟩
  | cons item items ih =>
    obtain ⟨text, written, holds⟩ := each item List.mem_cons_self
    obtain ⟨texts, restWritten, restHold⟩ :=
      ih fun other member => each other (List.mem_cons_of_mem _ member)
    refine ⟨text :: texts, ?_, .cons holds restHold⟩
    simp only [stringifyItems, written, restWritten]
    rfl

theorem stringifyFields_related (related : JsValue → String → Prop) (each : ∀ field ∈ fields,
      ∃ text, stringify field.2 = .ok (some text) ∧ related field.2 text) :
    ∃ texts, stringifyFields fields = .ok texts ∧ List.Forall₂ (fun field entry =>
        ∃ text, entry = quote field.1 ++ ":" ++ text ∧ related field.2 text) fields texts := by
  induction fields with
  | nil => exact ⟨[], by simp [stringifyFields], .nil⟩
  | cons field fields ih =>
    obtain ⟨key, value⟩ := field
    obtain ⟨text, written, holds⟩ := each (key, value) List.mem_cons_self
    obtain ⟨texts, restWritten, restHold⟩ :=
      ih fun other member => each other (List.mem_cons_of_mem _ member)
    refine ⟨(quote key ++ ":" ++ text) :: texts, ?_, .cons ⟨text, rfl, holds⟩ restHold⟩
    simp only [stringifyFields, written, restWritten]
    rfl

/-- No text of a value begins with a closing bracket, so the items of an array
that is not empty are read one after the other. -/
theorem readsBack_array (back : List.Forall₂ ReadsBack items texts) :
    ReadsBack (.array items) ('[' :: (itemsText texts ++ [']'])) := by
  refine ⟨⟨'[', _, rfl, rfl, by decide⟩, fun fuel rest enough _ => ?_⟩
  cases fuel with
  | zero => cases enough
  | succ fuel =>
    rw [List.cons_append, List.append_assoc, List.singleton_append, readValue, skipSpace_cons rfl]
    cases back with
    | nil => rfl
    | @cons item text items texts itemBack restBack =>
      have enoughItems : (itemsText (text :: texts)).length + 1 < fuel := by
        simp only [List.length_cons, List.length_append, List.length_nil] at enough
        omega
      have read : readItems fuel (itemsText (text :: texts) ++ ']' :: rest) =
          some (item :: items, rest) :=
        readItems_back (.cons itemBack restBack) (List.cons_ne_nil _ _) enoughItems
      obtain ⟨head, tail, textEq, visible, notClosing⟩ := itemBack.starts
      obtain ⟨others, startEq⟩ :
          ∃ others, itemsText (text :: texts) ++ ']' :: rest = head :: others := by
        cases texts <;> simp [itemsText, textEq]
      rw [startEq] at read ⊢
      simp only [skipSpace_cons visible, read, Option.map_some]
      split
      · next closing =>
          exact absurd (List.cons.inj closing).1 notClosing
      · rfl

theorem readsBack_object
    (back : List.Forall₂ FieldReadsBack fields texts) (distinct : (fields.map Prod.fst).Nodup)
    (ordered : (fields.map Prod.fst).Pairwise fun key later => precedes key later) :
    ReadsBack (.object fields) ('\x7b' :: (itemsText texts ++ ['\x7d'])) := by
  refine ⟨⟨'\x7b', _, rfl, rfl, by decide⟩, fun fuel rest enough _ => ?_⟩
  cases fuel with
  | zero => cases enough
  | succ fuel =>
    rw [List.cons_append, List.append_assoc, List.singleton_append, readValue, skipSpace_cons rfl]
    cases back with
    | nil => rfl
    | @cons field text fields texts fieldBack restBack =>
      have enoughFields : (itemsText (text :: texts)).length + 1 < fuel := by
        simp only [List.length_cons, List.length_append, List.length_nil] at enough
        omega
      have read : readFields fuel [] (itemsText (text :: texts) ++ '\x7d' :: rest) =
          some (field :: fields, rest) :=
        readFields_back (.cons fieldBack restBack) (List.cons_ne_nil _ _) distinct ordered
          enoughFields
      obtain ⟨valueText, textEq, _⟩ := fieldBack.value
      obtain ⟨others, startEq⟩ :
          ∃ others, itemsText (text :: texts) ++ '\x7d' :: rest = '"' :: others := by
        cases texts <;> simp [itemsText, textEq, quote_toList]
      rw [startEq] at read ⊢
      simp only [skipSpace_cons (rfl : isSpace '"' = false), read, Option.map_some]
      split
      · next closing =>
          exact absurd (List.cons.inj closing).1 (by decide)
      · rfl

/-- The text that `JSON.stringify` writes for a JSON value is read back as that
value. -/
theorem IsJson.readsBack (json : IsJson value) :
    ∃ text, stringify value = .ok (some text) ∧ ReadsBack value text.toList := by
  induction json with
  | null => exact ⟨"null", by simp [stringify], readsBack_null⟩
  | boolean value =>
    refine ⟨if value then "true" else "false", ?_, readsBack_boolean value⟩
    cases value <;> simp [stringify]
  | number representable =>
    refine ⟨String.ofList _, by rw [jsonNumber, stringify], ?_⟩
    rw [String.toList_ofList]
    exact readsBack_number representable
  | string value => exact ⟨quote value, by rw [stringify], readsBack_string value⟩
  | array each ih =>
    obtain ⟨texts, written, back⟩ :=
      stringifyItems_related (fun item text => ReadsBack item text.toList) ih
    refine ⟨_, by rw [stringify, written]; rfl, ?_⟩
    rw [String.toList_append, String.toList_append, itemsText_eq]
    exact readsBack_array (List.forall₂_map_right_iff.mpr back)
  | @object fields distinct ordered each ih =>
    obtain ⟨texts, written, related⟩ :=
      stringifyFields_related (fun value text => ReadsBack value text.toList) ih
    have back : List.Forall₂ FieldReadsBack fields (texts.map String.toList) := by
      refine List.forall₂_map_right_iff.mpr (List.Forall₂.imp ?_ related)
      rintro field entry ⟨text, rfl, valueBack⟩
      exact ⟨text.toList, by simp, valueBack⟩
    refine ⟨_, by rw [stringify, written]; rfl, ?_⟩
    rw [String.toList_append, String.toList_append, itemsText_eq]
    exact readsBack_object back distinct ordered

theorem IsJson.parse_stringify (json : IsJson value) :
    ∃ text, stringify value = .ok (some text) ∧ parseJson text.toList = some value := by
  obtain ⟨text, written, back⟩ := json.readsBack
  have endsHere : EndsNumeral [] := nofun
  have read := back.reads (text.toList.length + 1) [] (Nat.lt_succ_self _) endsHere
  rw [List.append_nil] at read
  refine ⟨text, written, ?_⟩
  rw [parseJson, read]
  rfl

end P2PHub.JsValue
