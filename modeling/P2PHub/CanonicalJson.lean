import Mathlib.Data.List.Lex
import Mathlib.Data.List.Sort
import P2PHub.JsonTrees

/-!
# The canonical text of a JSON value

The one serialization that every signature in the repository is made over.
Keys are sorted by their code units; every other part of a value keeps its JSON
form.  For a value that `JSON.parse` yields the text is read back as that value,
up to the numbers for which JSON has no form.
-/

namespace P2PHub.Json

open JsValue Binary64 Utf16

def unicodeEscape (unit : Nat) : List Char :=
  ['\\', 'u', Nat.digitChar (unit / 0x1000 % 16), Nat.digitChar (unit / 0x100 % 16),
    Nat.digitChar (unit / 0x10 % 16), Nat.digitChar (unit % 16)]

/-- How `JSON.stringify` writes a code unit outside a surrogate pair. -/
def quoteUnit (unit : UInt16) : List Char :=
  if isHighSurrogate unit.toNat || isLowSurrogate unit.toNat then
    unicodeEscape unit.toNat
  else (escape (Char.ofNat unit.toNat)).toList

def quoteUnits : JsonString → List Char
  | [] => []
  | [unit] => quoteUnit unit
  | unit :: low :: rest =>
    if isHighSurrogate unit.toNat && isLowSurrogate low.toNat then
      (escape (Char.ofNat
        (0x10000 + (unit.toNat - 0xD800) * 0x400 + (low.toNat - 0xDC00)))).toList ++
        quoteUnits rest
    else quoteUnit unit ++ quoteUnits (low :: rest)

/-- `JSON.stringify` of a string. -/
def quote (value : JsonString) : List Char :=
  '"' :: (quoteUnits value ++ ['"'])

/-- `JSON.stringify` of a number. -/
def numberText : Binary64 → List Char
  | .finite value representable => (finite value representable).text
  | _ => "null".toList

/-- The order in which strings are sorted: by their code units. -/
def KeyOrder (key other : JsonString) : Prop :=
  key.map UInt16.toNat ≤ other.map UInt16.toNat

instance : DecidableRel KeyOrder :=
  fun _ _ => inferInstanceAs (Decidable (_ ≤ _))

def sortKeys {α : Type} (fields : List (JsonString × α)) : List (JsonString × α) :=
  fields.insertionSort fun field other => KeyOrder field.1 other.1

/-- `Array.prototype.join` with a comma. -/
def join : List (List Char) → List Char
  | [] => []
  | [text] => text
  | text :: texts => text ++ ',' :: join texts

def fieldText (field : JsonString × List Char) : List Char :=
  quote field.1 ++ ':' :: field.2

mutual

/-- No other value than these comes from `JSON.parse`; for any other the source
throws. -/
def canonicalize : Json → List Char
  | null => "null".toList
  | string value => quote value
  | number value => numberText value
  | negativeZero => ['0']
  | boolean value => (if value then "true" else "false").toList
  | array items => '[' :: (join (canonicalizeItems items) ++ [']'])
  | object fields =>
    '\x7b' :: (join ((sortKeys (canonicalizeFields fields)).map fieldText) ++ ['\x7d'])

def canonicalizeItems : List Json → List (List Char)
  | [] => []
  | item :: items => canonicalize item :: canonicalizeItems items

def canonicalizeFields : List (JsonString × Json) → List (JsonString × List Char)
  | [] => []
  | (key, value) :: fields => (key, canonicalize value) :: canonicalizeFields fields

end

def canonicalizeJson (value : Json) : List Char :=
  canonicalize value

def canonicalField (field : JsonString × Json) : JsonString × List Char :=
  (field.1, canonicalize field.2)

theorem canonicalizeItems_eq (items : List Json) :
    canonicalizeItems items = items.map canonicalize := by
  induction items with
  | nil => rfl
  | cons item items ih => rw [canonicalizeItems, ih, List.map_cons]

theorem canonicalizeFields_eq (fields : List (JsonString × Json)) :
    canonicalizeFields fields = fields.map canonicalField := by
  induction fields with
  | nil => rfl
  | cons field fields ih =>
    rw [canonicalizeFields, ih, List.map_cons]
    rfl

theorem sortKeys_map {α β : Type} (field : JsonString × α → JsonString × β)
    (keeps : ∀ each, (field each).1 = each.1) (fields : List (JsonString × α)) :
    sortKeys (fields.map field) = (sortKeys fields).map field := by
  refine (List.map_insertionSort _ _ field fields fun first _ second _ => ?_).symm
  rw [keeps, keeps]

theorem canonicalize_array (items : List Json) :
    canonicalize (array items) = '[' :: (join (items.map canonicalize) ++ [']']) := by
  rw [canonicalize, canonicalizeItems_eq]

theorem canonicalize_object (fields : List (JsonString × Json)) :
    canonicalize (object fields) = '\x7b' ::
      (join ((sortKeys fields).map fun field => fieldText (canonicalField field)) ++ ['\x7d']) := by
  rw [canonicalize, canonicalizeFields_eq, sortKeys_map canonicalField fun _ => rfl, List.map_map]
  rfl

section

variable {α : Type} {fields others : List (JsonString × α)}

instance : Std.Total KeyOrder :=
  ⟨fun _ _ => le_total _ _⟩

instance : IsTrans JsonString KeyOrder :=
  ⟨fun _ _ _ before after => le_trans before after⟩

theorem KeyOrder.antisymm {key other : JsonString} (before : KeyOrder key other)
    (after : KeyOrder other key) : key = other :=
  List.map_injective_iff.mpr (fun _ _ same => UInt16.toNat_inj.mp same) (le_antisymm before after)

theorem sortKeys_perm (fields : List (JsonString × α)) : (sortKeys fields).Perm fields :=
  List.perm_insertionSort _ _

theorem sortKeys_sorted (fields : List (JsonString × α)) :
    (sortKeys fields).Pairwise fun field other => KeyOrder field.1 other.1 := by
  exact List.pairwise_insertionSort _ _

theorem sortKeys_eq (keys : (fields.map Prod.fst).Nodup) (perm : fields.Perm others) :
    sortKeys fields = sortKeys others := by
  refine List.Perm.eq_of_pairwise ?_ (sortKeys_sorted fields) (sortKeys_sorted others)
    ((sortKeys_perm fields).trans (perm.trans (sortKeys_perm others).symm))
  intro field other fieldIn otherIn before after
  have fieldMember := (sortKeys_perm fields).mem_iff.mp fieldIn
  have otherMember := perm.mem_iff.mpr ((sortKeys_perm others).mem_iff.mp otherIn)
  exact List.inj_on_of_nodup_map keys fieldMember otherMember (before.antisymm after)

end

theorem numberText_zero {value : Binary64} (zero : value.isZero) : numberText value = ['0'] := by
  cases value with
  | finite value representable =>
    obtain rfl : value = 0 := of_decide_eq_true zero
    rw [numberText, text_of_nonneg representable le_rfl, magnitudeText]
    exact if_pos ⟨rfl, by norm_num⟩
  | infinite | nan => cases zero

theorem canonicalField_keys (fields : List (JsonString × Json)) :
    (fields.map canonicalField).map Prod.fst = fields.map Prod.fst := by
  rw [List.map_map]
  rfl

theorem Same.canonicalize_eq {value other : Json} (same : Same value other)
    (distinct : Distinct value) (otherDistinct : Distinct other) :
    canonicalize value = canonicalize other := by
  induction same with
  | null | boolean | number | negativeZero | string => rfl
  | zeroNegative zero => exact numberText_zero zero
  | negativeZeroZero zero => exact (numberText_zero zero).symm
  | @array items others lengths _ ih =>
    cases distinct with
    | array each =>
      cases otherDistinct with
      | array otherEach =>
        have texts : items.map canonicalize = others.map canonicalize := by
          refine List.ext_getElem (by simpa using lengths) fun index inside otherInside => ?_
          rw [List.length_map] at inside otherInside
          rw [List.getElem_map, List.getElem_map]
          exact ih index inside otherInside (each _ (List.getElem_mem _))
            (otherEach _ (List.getElem_mem _))
        rw [canonicalize_array, canonicalize_array, texts]
  | @object fields others keys _ ih =>
    cases distinct with
    | object fieldKeys each =>
      cases otherDistinct with
      | object otherKeys otherEach =>
        have textKeys : ((fields.map canonicalField).map Prod.fst).Nodup :=
          canonicalField_keys fields ▸ fieldKeys
        have otherTextKeys : ((others.map canonicalField).map Prod.fst).Nodup :=
          canonicalField_keys others ▸ otherKeys
        have perm : (fields.map canonicalField).Perm (others.map canonicalField) := by
          rw [List.perm_ext_iff_of_nodup textKeys.of_map otherTextKeys.of_map]
          intro entry
          simp only [List.mem_map]
          constructor
          · rintro ⟨⟨key, value⟩, valueIn, rfl⟩
            have inOthers := (keys key).mp (List.mem_map_of_mem valueIn)
            obtain ⟨⟨_, other⟩, otherIn, rfl⟩ := List.mem_map.mp inOthers
            have text := ih _ value other valueIn otherIn (each _ valueIn) (otherEach _ otherIn)
            exact ⟨_, otherIn, Prod.ext rfl text.symm⟩
          · rintro ⟨⟨key, other⟩, otherIn, rfl⟩
            have inFields := (keys key).mpr (List.mem_map_of_mem otherIn)
            obtain ⟨⟨_, value⟩, valueIn, rfl⟩ := List.mem_map.mp inFields
            have text := ih _ value other valueIn otherIn (each _ valueIn) (otherEach _ otherIn)
            exact ⟨_, valueIn, Prod.ext rfl text⟩
        rw [canonicalize, canonicalize, canonicalizeFields_eq, canonicalizeFields_eq,
          sortKeys_eq textKeys perm]

section

variable {rest : List Char}

theorem hexDigit_digitChar : ∀ digit < 16, hexDigit (Nat.digitChar digit) = some digit := by
  decide

theorem readUnits_unicodeEscape {unit : Nat} (bound : unit < 0x10000) :
    readUnits (unicodeEscape unit ++ rest) =
      (readUnits rest).map fun (units, rest) => (unit :: units, rest) := by
  refine readUnits_escapes ?_
  have digit (value : Nat) : hexDigit (Nat.digitChar (value % 16)) = some (value % 16) :=
    hexDigit_digitChar _ (Nat.mod_lt _ (by decide))
  simp only [unicodeEscape, Escapes, unicodeDigits, if_true, digit, decide_eq_true_eq]
  omega

theorem toNat_ofNat {unit : Nat} (valid : unit < 0xD800 ∨ 0xDFFF < unit ∧ unit < 0x110000) :
    (Char.ofNat unit).toNat = unit := by
  have isValid : unit.isValidChar := valid
  rw [Char.ofNat, dif_pos isValid]
  rfl

theorem readUnits_quoteUnit (unit : UInt16) : readUnits (quoteUnit unit ++ rest) =
      (readUnits rest).map fun (units, rest) => (unit.toNat :: units, rest) := by
  have bound := unit.toNat_lt
  rw [quoteUnit]
  split
  · exact readUnits_unicodeEscape bound
  · next plain =>
      simp only [isHighSurrogate, isLowSurrogate, Bool.or_eq_true, decide_eq_true_eq,
        not_or] at plain
      have charUnits : charUnits (Char.ofNat unit.toNat) = [unit.toNat] := by
        rw [charUnits, toNat_ofNat (by omega), if_pos bound]
      rw [readUnits_escape, charUnits]
      rfl

theorem readUnits_pair {high low : Nat} (isHigh : isHighSurrogate high)
    (isLow : isLowSurrogate low) : readUnits ((escape (Char.ofNat
        (0x10000 + (high - 0xD800) * 0x400 + (low - 0xDC00)))).toList ++ rest) =
      (readUnits rest).map fun (units, rest) => (high :: low :: units, rest) := by
  have highBounds := of_decide_eq_true isHigh
  have lowBounds := of_decide_eq_true isLow
  obtain ⟨code, codeEq⟩ :
      ∃ code, code = 0x10000 + (high - 0xD800) * 0x400 + (low - 0xDC00) := ⟨_, rfl⟩
  have first : 0xD800 + (code - 0x10000) / 0x400 = high := by omega
  have second : 0xDC00 + (code - 0x10000) % 0x400 = low := by omega
  rw [← codeEq, readUnits_escape, charUnits, toNat_ofNat (by omega),
    if_neg (by omega), first, second]
  rfl

theorem readUnits_quoteUnits (value : JsonString) :
    readUnits (quoteUnits value ++ '"' :: rest) = some (value.map UInt16.toNat, rest) := by
  induction value using quoteUnits.induct with
  | case1 => rfl
  | case2 =>
    rw [quoteUnits, readUnits_quoteUnit]
    rfl
  | case3 unit low others pair ih =>
    obtain ⟨isHigh, isLow⟩ := Bool.and_eq_true_iff.mp pair
    rw [quoteUnits, if_pos pair, List.append_assoc, readUnits_pair isHigh isLow, ih]
    rfl
  | case4 unit low others apart ih =>
    rw [quoteUnits, if_neg apart, List.append_assoc, readUnits_quoteUnit, ih]
    rfl

theorem readText_quote (value : JsonString) (rest : List Char) :
    readText (quoteUnits value ++ '"' :: rest) = some (value, rest) := by
  have same : (value.map UInt16.toNat).map UInt16.ofNat = value := by
    rw [List.map_map]
    exact List.map_id'' (fun unit => UInt16.ofNat_toNat) value
  simp only [readText, readUnits_quoteUnits, Option.map_some, same]

end

section

/-- What a reader of values does with the text of a value: the text begins with
no space and no closing bracket, and is read up to its end. -/
structure ReadsBack (value : Json) (text : List Char) : Prop where
  starts : ∃ head tail, text = head :: tail ∧ isSpace head = false ∧ head ≠ ']'
  reads : ∀ fuel rest, text.length < fuel → EndsNumeral rest →
    readValue fuel (text ++ rest) = some (value, rest)

variable {fuel : Nat} {rest : List Char}

variable {texts : List (List Char)} {value : Json}

theorem readsBack_null : ReadsBack null "null".toList := by
  refine ⟨⟨'n', "ull".toList, rfl, rfl, by decide⟩, fun fuel rest enough _ => ?_⟩
  cases fuel with
  | zero => cases enough
  | succ => rfl

theorem readsBack_boolean (value : Bool) :
    ReadsBack (boolean value) (if value then "true" else "false").toList := by
  cases value with
  | true =>
    refine ⟨⟨'t', "rue".toList, rfl, rfl, by decide⟩, fun fuel rest enough _ => ?_⟩
    cases fuel with
    | zero => cases enough
    | succ => rfl
  | false =>
    refine ⟨⟨'f', "alse".toList, rfl, rfl, by decide⟩, fun fuel rest enough _ => ?_⟩
    cases fuel with
    | zero => cases enough
    | succ => rfl

theorem readsBack_string (value : JsonString) : ReadsBack (string value) (quote value) := by
  refine ⟨⟨'"', _, rfl, rfl, by decide⟩, fun fuel rest enough _ => ?_⟩
  cases fuel with
  | zero => cases enough
  | succ =>
    have read := readText_quote value rest
    simp only [quote, List.cons_append, List.append_assoc, List.nil_append, readValue]
    rw [skipSpace_cons rfl]
    simp only [read, Option.map_some]

theorem scanNumber_text {value : ℚ} (representable : Representable value)
    (ends : EndsNumeral rest) : scanNumber ((finite value representable).text ++ rest) =
      some (number (.finite value representable), rest) := by
  rcases lt_or_ge value 0 with negative | nonneg
  · have positive : 0 ≤ -value := by linarith
    obtain ⟨numeral, scanned, numberEq, noZero⟩ :=
      scan_magnitudeText representable.neg positive ends
    have nonzero : numeral.number.isZero = false := by
      rw [numberEq]
      exact decide_eq_false (by linarith)
    have negated : numeral.number.neg = .finite value representable := by
      rw [numberEq, neg, ofRat_of_representable (by simpa using representable)]
      simp only [neg_neg]
    rw [text_of_neg representable negative, List.cons_append, scanNumber]
    simp only [unsigned, scanned, noZero, signed, nonzero, Bool.false_eq_true, if_false,
      if_true, negated]
  · obtain ⟨numeral, scanned, numberEq, noZero⟩ :=
      scan_magnitudeText representable nonneg ends
    rw [text_of_nonneg representable nonneg, scanNumber]
    simp only [unsigned_of_scan scanned, scanned, noZero, signed, Bool.false_eq_true,
      if_false, numberEq]

theorem readValue_number {head : Char} {tail : List Char} (starts : head = '-' ∨ head.isDigit) :
    readValue (fuel + 1) (head :: tail) = scanNumber (head :: tail) := by
  have visible : isSpace head = false := by
    rcases starts with rfl | isDigit
    · rfl
    · exact not_isSpace_of_isDigit isDigit
  rw [readValue, skipSpace_cons visible]
  split <;> simp_all

theorem readsBack_number {value : ℚ} (representable : Representable value) :
    ReadsBack (number (.finite value representable)) (finite value representable).text := by
  obtain ⟨head, tail, textEq, starts⟩ := head_text representable
  constructor
  · refine ⟨head, tail, textEq, ?_, ?_⟩
    · rcases starts with rfl | isDigit
      · rfl
      · exact not_isSpace_of_isDigit isDigit
    · rintro rfl
      rcases starts with minus | isDigit
      · cases minus
      · cases isDigit
  · intro fuel rest enough ends
    cases fuel with
    | zero => cases enough
    | succ =>
      have scanned := scanNumber_text representable ends
      rw [textEq, List.cons_append] at scanned ⊢
      rw [readValue_number starts, scanned]

theorem readItems_back {items : List Json}
    (back : List.Forall₂ ReadsBack items texts) (some : items ≠ [])
    (enough : (join texts).length + 1 < fuel) :
    readItems fuel (join texts ++ ']' :: rest) = .some (items, rest) := by
  induction back generalizing fuel with
  | nil => exact absurd rfl some
  | @cons item text items texts itemBack restBack ih =>
    cases fuel with
    | zero => cases enough
    | succ fuel =>
      cases restBack with
      | nil =>
        have closes : EndsNumeral (']' :: rest) := endsNumeral_cons (by decide)
        simp only [join] at enough
        have read := itemBack.reads fuel _ (by omega) closes
        simp only [join, readItems, read, Option.bind_eq_bind, Option.bind_some]
        rfl
      | @cons next nextText others otherTexts nextBack othersBack =>
        have continues : EndsNumeral (',' :: (join (nextText :: otherTexts) ++ ']' :: rest)) :=
          endsNumeral_cons (by decide)
        simp only [join, List.length_append, List.length_cons] at enough
        have read := itemBack.reads fuel _ (by omega) continues
        have enoughRest : (join (nextText :: otherTexts)).length + 1 < fuel := by omega
        have readRest := ih (List.cons_ne_nil _ _) enoughRest
        simp only [join, List.append_assoc, List.cons_append, readItems, read,
          Option.bind_eq_bind, Option.bind_some]
        rw [skipSpace_cons rfl]
        simp only [readRest, Option.bind_some]
        rfl

/-- A field whose text is its quoted key, a colon and the text of its value. -/
def FieldReadsBack (field : JsonString × Json) (text : List Char) : Prop :=
  ∃ valueText, text = fieldText (field.1, valueText) ∧ ReadsBack field.2 valueText

theorem setField_new {fields : List (JsonString × Json)} {key : JsonString}
    (new : key ∉ fields.map Prod.fst) : setField fields key value = fields ++ [(key, value)] :=
  if_neg new

theorem readFields_back {fields before : List (JsonString × Json)}
    (back : List.Forall₂ FieldReadsBack fields texts) (some : fields ≠ [])
    (keys : ((before ++ fields).map Prod.fst).Nodup) (enough : (join texts).length + 1 < fuel) :
    readFields fuel before (join texts ++ '\x7d' :: rest) = .some (before ++ fields, rest) := by
  induction back generalizing fuel before with
  | nil => exact absurd rfl some
  | @cons field text fields texts fieldBack restBack ih =>
    obtain ⟨key, value⟩ := field
    obtain ⟨valueText, rfl, valueBack⟩ := fieldBack
    cases fuel with
    | zero => cases enough
    | succ fuel =>
      have new : key ∉ before.map Prod.fst := by
        rw [List.map_append, List.nodup_append] at keys
        exact fun member => keys.2.2 key member key (by simp) rfl
      have added : setField before key value = before ++ [(key, value)] := setField_new new
      cases restBack with
      | nil =>
        have closes : EndsNumeral ('\x7d' :: rest) := endsNumeral_cons (by decide)
        simp only [join, fieldText, List.length_append, List.length_cons] at enough
        have readKey := readText_quote key (':' :: (valueText ++ '\x7d' :: rest))
        have read := valueBack.reads fuel _ (by omega) closes
        simp only [join, fieldText, quote, List.append_assoc, List.cons_append,
          List.nil_append, readFields]
        rw [skipSpace_cons rfl]
        simp only [readKey, Option.bind_eq_bind, Option.bind_some]
        rw [skipSpace_cons rfl]
        simp only [read, Option.bind_some]
        simp only [added]
        rfl
      | @cons next nextText others otherTexts nextBack othersBack =>
        have continues : EndsNumeral (',' :: (join (nextText :: otherTexts) ++ '\x7d' :: rest)) :=
          endsNumeral_cons (by decide)
        simp only [join, fieldText, List.length_append, List.length_cons] at enough
        have readKey := readText_quote key
          (':' :: (valueText ++ ',' :: (join (nextText :: otherTexts) ++ '\x7d' :: rest)))
        have read := valueBack.reads fuel _ (by omega) continues
        have enoughRest : (join (nextText :: otherTexts)).length + 1 < fuel := by omega
        have regroup : before ++ (key, value) :: next :: others =
            (before ++ [(key, value)]) ++ next :: others := by simp
        rw [regroup] at keys ⊢
        have readRest := ih (List.cons_ne_nil _ _) keys enoughRest
        simp only [join, fieldText, quote, List.append_assoc, List.cons_append,
          List.nil_append, readFields]
        rw [skipSpace_cons rfl]
        simp only [readKey, Option.bind_eq_bind, Option.bind_some]
        rw [skipSpace_cons rfl]
        simp only [read, Option.bind_some]
        rw [skipSpace_cons rfl]
        simp only [added, readRest]
        rw [List.append_assoc]
        rfl

/-- No text of a value begins with a closing bracket, so the items of an array
that is not empty are read one after the other. -/
theorem readsBack_array {items : List Json} (back : List.Forall₂ ReadsBack items texts) :
    ReadsBack (array items) ('[' :: (join texts ++ [']'])) := by
  refine ⟨⟨'[', _, rfl, rfl, by decide⟩, fun fuel rest enough _ => ?_⟩
  cases fuel with
  | zero => cases enough
  | succ fuel =>
    rw [List.cons_append, List.append_assoc, List.singleton_append, readValue, skipSpace_cons rfl]
    cases back with
    | nil => rfl
    | @cons item text items texts itemBack restBack =>
      have enoughItems : (join (text :: texts)).length + 1 < fuel := by
        simp only [List.length_cons, List.length_append, List.length_nil] at enough
        omega
      have read : readItems fuel (join (text :: texts) ++ ']' :: rest) =
          some (item :: items, rest) :=
        readItems_back (.cons itemBack restBack) (List.cons_ne_nil _ _) enoughItems
      obtain ⟨head, tail, textEq, visible, notClosing⟩ := itemBack.starts
      obtain ⟨others, startEq⟩ :
          ∃ others, join (text :: texts) ++ ']' :: rest = head :: others := by
        cases texts <;> simp [join, textEq]
      rw [startEq] at read ⊢
      simp only [skipSpace_cons visible, read, Option.map_some]
      split
      · next closing =>
          exact absurd (List.cons.inj closing).1 notClosing
      · rfl

theorem readsBack_object {fields : List (JsonString × Json)}
    (back : List.Forall₂ FieldReadsBack fields texts) (keys : (fields.map Prod.fst).Nodup) :
    ReadsBack (object fields) ('\x7b' :: (join texts ++ ['\x7d'])) := by
  refine ⟨⟨'\x7b', _, rfl, rfl, by decide⟩, fun fuel rest enough _ => ?_⟩
  cases fuel with
  | zero => cases enough
  | succ fuel =>
    rw [List.cons_append, List.append_assoc, List.singleton_append, readValue, skipSpace_cons rfl]
    cases back with
    | nil => rfl
    | @cons field text fields texts fieldBack restBack =>
      have enoughFields : (join (text :: texts)).length + 1 < fuel := by
        simp only [List.length_cons, List.length_append, List.length_nil] at enough
        omega
      have read : readFields fuel [] (join (text :: texts) ++ '\x7d' :: rest) =
          some (field :: fields, rest) :=
        readFields_back (.cons fieldBack restBack) (List.cons_ne_nil _ _) keys enoughFields
      obtain ⟨valueText, textEq, _⟩ := fieldBack
      obtain ⟨others, startEq⟩ :
          ∃ others, join (text :: texts) ++ '\x7d' :: rest = '"' :: others := by
        cases texts <;> simp [join, textEq, fieldText, quote]
      rw [startEq] at read ⊢
      simp only [skipSpace_cons (rfl : isSpace '"' = false), read, Option.map_some]
      split
      · next closing =>
          exact absurd (List.cons.inj closing).1 (by decide)
      · rfl

theorem exists_forall₂ {α β : Type} {related : β → α → Prop} {items : List α}
    (each : ∀ item ∈ items, ∃ back, related back item) :
    ∃ backs, List.Forall₂ related backs items := by
  induction items with
  | nil => exact ⟨[], .nil⟩
  | cons item items ih =>
    obtain ⟨first, firstRelated⟩ := each item List.mem_cons_self
    obtain ⟨backs, related⟩ := ih fun other member => each other (List.mem_cons_of_mem _ member)
    exact ⟨first :: backs, .cons firstRelated related⟩

/-- A field read back for another: of the same key, with an equal value that is
read from the canonical text. -/
structure FieldBack (back field : JsonString × Json) : Prop where
  key : back.1 = field.1
  same : Same back.2 field.2
  reads : ReadsBack back.2 (canonicalize field.2)

variable {backs fields sorted : List (JsonString × Json)}

section

variable (related : List.Forall₂ FieldBack backs sorted)
include related

theorem fieldBack_keys : backs.map Prod.fst = sorted.map Prod.fst := by
  induction related with
  | nil => rfl
  | cons first _ ih => rw [List.map_cons, List.map_cons, first.key, ih]

theorem fieldBack_of_mem {back : JsonString × Json} (member : back ∈ backs) :
    ∃ field ∈ sorted, FieldBack back field := by
  induction related with
  | nil => cases member
  | @cons first field _ fields firstBack _ ih =>
    rcases List.mem_cons.mp member with rfl | later
    · exact ⟨field, List.mem_cons_self, firstBack⟩
    · obtain ⟨other, otherIn, otherBack⟩ := ih later
      exact ⟨other, List.mem_cons_of_mem _ otherIn, otherBack⟩

theorem fieldBack_texts : List.Forall₂ FieldReadsBack backs
      (sorted.map fun field => fieldText (canonicalField field)) := by
  refine List.forall₂_map_right_iff.mpr (related.imp ?_)
  intro back field fieldBack
  exact ⟨canonicalize field.2, by rw [fieldBack.key, canonicalField], fieldBack.reads⟩

theorem same_of_fieldBack (perm : sorted.Perm fields) (keys : (fields.map Prod.fst).Nodup) :
    Same (object backs) (object fields) := by
  refine .object (fun key => ?_) fun key value other valueIn otherIn => ?_
  · rw [fieldBack_keys related]
    exact (perm.map Prod.fst).mem_iff
  · obtain ⟨⟨_, found⟩, foundIn, fieldBack⟩ := fieldBack_of_mem related valueIn
    obtain rfl : key = _ := fieldBack.key
    rw [← Distinct.of_mem keys (perm.mem_iff.mp foundIn) otherIn]
    exact fieldBack.same

end

theorem readsBack_canonicalize (finite : Finite value) (distinct : Distinct value) :
    ∃ back, Same back value ∧ ReadsBack back (canonicalize value) := by
  induction finite with
  | null => exact ⟨null, .null, readsBack_null⟩
  | boolean value => exact ⟨boolean value, .boolean value, readsBack_boolean value⟩
  | number representable => exact ⟨_, .number _, readsBack_number representable⟩
  | negativeZero =>
    have zero : (finite 0 representable_zero).isZero := by
      decide
    have back := readsBack_number representable_zero
    exact ⟨_, .zeroNegative zero, back⟩
  | string value => exact ⟨string value, .string value, readsBack_string value⟩
  | @array items _ ih =>
    cases distinct with
    | array each =>
      obtain ⟨backs, related⟩ := exists_forall₂ fun item member => ih item member (each item member)
      refine ⟨array backs, .array related.length_eq fun index inside otherInside => ?_, ?_⟩
      · exact (related.get inside otherInside).1
      · rw [canonicalize_array]
        exact readsBack_array (List.forall₂_map_right_iff.mpr (related.imp fun _ _ both => both.2))
  | @object fields _ ih =>
    cases distinct with
    | object keys each =>
      have perm := sortKeys_perm fields
      have fieldBacks : ∀ field ∈ sortKeys fields, ∃ back, FieldBack back field := by
        intro field member
        have inFields := perm.mem_iff.mp member
        obtain ⟨back, same, reads⟩ := ih field inFields (each field inFields)
        exact ⟨(field.1, back), rfl, same, reads⟩
      obtain ⟨backs, related⟩ := exists_forall₂ fieldBacks
      have backKeys : (backs.map Prod.fst).Nodup := by
        rw [fieldBack_keys related]
        exact (perm.map Prod.fst).nodup_iff.mpr keys
      refine ⟨object backs, same_of_fieldBack related perm keys, ?_⟩
      rw [canonicalize_object]
      exact readsBack_object (fieldBack_texts related) backKeys

theorem ReadsBack.parse_eq {text : List Char} (back : ReadsBack value text) :
    parse text = some value := by
  have endsHere : EndsNumeral [] := nofun
  have read := back.reads (text.length + 1) [] (Nat.lt_succ_self _) endsHere
  rw [List.append_nil] at read
  rw [parse, read]
  rfl

end

section

mutual

/-- The value that JSON has a form for: `null` stands in place of every number
that is not finite. -/
def jsonForm : Json → Json
  | number (.finite value representable) => number (.finite value representable)
  | number _ => null
  | array items => array (jsonFormItems items)
  | object fields => object (jsonFormFields fields)
  | value => value

def jsonFormItems : List Json → List Json
  | [] => []
  | item :: items => jsonForm item :: jsonFormItems items

def jsonFormFields : List (JsonString × Json) → List (JsonString × Json)
  | [] => []
  | (key, value) :: fields => (key, jsonForm value) :: jsonFormFields fields

end

variable {value : Json}

theorem jsonFormItems_eq (items : List Json) : jsonFormItems items = items.map jsonForm := by
  induction items with
  | nil => rfl
  | cons item items ih => rw [jsonFormItems, ih, List.map_cons]

def jsonFormField (field : JsonString × Json) : JsonString × Json :=
  (field.1, jsonForm field.2)

theorem jsonFormFields_eq (fields : List (JsonString × Json)) :
    jsonFormFields fields = fields.map jsonFormField := by
  induction fields with
  | nil => rfl
  | cons field fields ih =>
    rw [jsonFormFields, ih, List.map_cons]
    rfl

theorem jsonForm_array (items : List Json) :
    jsonForm (array items) = array (items.map jsonForm) := by
  rw [jsonForm, jsonFormItems_eq]

theorem jsonForm_object (fields : List (JsonString × Json)) :
    jsonForm (object fields) = object (fields.map jsonFormField) := by
  rw [jsonForm, jsonFormFields_eq]

theorem jsonFormField_keys (fields : List (JsonString × Json)) :
    (fields.map jsonFormField).map Prod.fst = fields.map Prod.fst := by
  rw [List.map_map]
  rfl

variable (distinct : Distinct value)
include distinct

theorem jsonForm_distinct : Distinct (jsonForm value) := by
  induction distinct with
  | null => exact .null
  | boolean value => exact .boolean value
  | number value =>
    cases value with
    | finite => exact .number _
    | infinite | nan => exact .null
  | negativeZero => exact .negativeZero
  | string value => exact .string value
  | array _ ih =>
    rw [jsonForm_array]
    exact .array (List.forall_mem_map.mpr ih)
  | @object fields keys _ ih =>
    rw [jsonForm_object]
    refine .object ?_ (List.forall_mem_map.mpr ih)
    rw [jsonFormField_keys]
    exact keys

theorem jsonForm_finite : Finite (jsonForm value) := by
  induction distinct with
  | null => exact .null
  | boolean value => exact .boolean value
  | number value =>
    cases value with
    | finite => exact .number _
    | infinite | nan => exact .null
  | negativeZero => exact .negativeZero
  | string value => exact .string value
  | array _ ih =>
    rw [jsonForm_array]
    exact .array (List.forall_mem_map.mpr ih)
  | object _ _ ih =>
    rw [jsonForm_object]
    exact .object (List.forall_mem_map.mpr ih)

theorem canonicalize_jsonForm : canonicalize (jsonForm value) = canonicalize value := by
  induction distinct with
  | null | boolean | negativeZero | string => rfl
  | number value => cases value <;> rfl
  | array _ ih =>
    have texts : ∀ item ∈ _, (canonicalize ∘ jsonForm) item = canonicalize item := ih
    rw [jsonForm_array, canonicalize_array, canonicalize_array, List.map_map,
      List.map_congr_left texts]
  | object _ _ ih =>
    rw [jsonForm_object, canonicalize, canonicalize, canonicalizeFields_eq,
      canonicalizeFields_eq, List.map_map]
    have texts : ∀ field ∈ _, (canonicalField ∘ jsonFormField) field = canonicalField field :=
      fun field member => Prod.ext rfl (ih field member)
    rw [List.map_congr_left texts]

theorem finite_of_same (same : Same (jsonForm value) value) : Finite value := by
  induction distinct with
  | null => exact .null
  | boolean value => exact .boolean value
  | number value =>
    cases value with
    | finite value representable => exact .number representable
    | infinite | nan => cases same
  | negativeZero => exact .negativeZero
  | string value => exact .string value
  | array _ ih =>
    rw [jsonForm_array] at same
    cases same with
    | array _ each =>
      refine .array fun item member => ih item member ?_
      obtain ⟨index, inside, rfl⟩ := List.mem_iff_getElem.mp member
      have itemSame := each index (by simpa using inside) inside
      rwa [List.getElem_map] at itemSame
  | object _ _ ih =>
    rw [jsonForm_object] at same
    cases same with
    | object _ each =>
      refine .object fun field member => ih field member ?_
      exact each field.1 _ field.2 (List.mem_map_of_mem member) member

end

variable {value other : Json}

/-- The canonical text of a value is read back as an equal value. -/
def RoundTrips (value : Json) : Prop :=
  ∃ back, parse (canonicalizeJson value) = some back ∧ Same back value

theorem roundTrips_iff (distinct : Distinct value) : RoundTrips value ↔ Finite value := by
  constructor
  · rintro ⟨back, parsed, same⟩
    obtain ⟨form, formSame, reads⟩ :=
      readsBack_canonicalize (jsonForm_finite distinct) (jsonForm_distinct distinct)
    rw [canonicalize_jsonForm distinct] at reads
    cases reads.parse_eq.symm.trans parsed
    exact finite_of_same distinct (formSame.symm.trans same)
  · intro finite
    obtain ⟨back, same, reads⟩ := readsBack_canonicalize finite distinct
    exact ⟨back, reads.parse_eq, same⟩

theorem canonicalizeJson_eq_iff (distinct : Distinct value) (otherDistinct : Distinct other)
    (finite : Finite value) (otherFinite : Finite other) :
    canonicalizeJson value = canonicalizeJson other ↔ Same value other := by
  constructor
  · intro texts
    obtain ⟨back, parsed, same⟩ := (roundTrips_iff distinct).mpr finite
    obtain ⟨otherBack, otherParsed, otherSame⟩ := (roundTrips_iff otherDistinct).mpr otherFinite
    rw [texts] at parsed
    cases parsed.symm.trans otherParsed
    exact same.symm.trans otherSame
  · intro same
    exact same.canonicalize_eq distinct otherDistinct

end P2PHub.Json
