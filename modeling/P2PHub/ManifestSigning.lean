import P2PHub.CanonicalJson
import P2PHub.Utf8Text

/-!
# Manifest signatures

What is signed is the canonical text of a manifest without its signature.
Ed25519 is a parameter: it answers for a payload, a public key and a signature,
or throws an error.
-/

namespace P2PHub.ManifestSigning

open Json

def property (fields : List (JsonString × Json)) (key : String) : Option Json :=
  fields.lookup (jsonString key)

/-- The manifest without its `signature` field. -/
def stripSignature (manifest : List (JsonString × Json)) : List (JsonString × Json) :=
  manifest.filter fun field => decide (field.1 ≠ jsonString "signature")

def canonicalizeManifest (value : Json) : List Char :=
  canonicalizeJson value

def signedPayload (manifest : List (JsonString × Json)) : List UInt8 :=
  Utf8.encode (canonicalizeManifest (object (stripSignature manifest)))

section

mutual

/-- `String(value)`, where nothing stands for the error it throws: an object
with a property `toString`, which is no function, has no primitive value. -/
def toText : Json → Option JsonString
  | null => some (jsonString "null")
  | boolean value => some (jsonString (if value then "true" else "false"))
  | number value => some (jsonString (String.ofList value.text))
  | negativeZero => some (jsonString "0")
  | string value => some value
  | array items => (toTexts items).map ((jsonString ",").intercalate ·)
  | object fields =>
    if (property fields "toString").isSome then none else some (jsonString "[object Object]")

/-- The texts that `Array.prototype.join` puts together: `null` has none. -/
def toTexts : List Json → Option (List JsonString)
  | [] => some []
  | null :: items => (toTexts items).map ([] :: ·)
  | item :: items => do
      let text ← toText item
      let texts ← toTexts items
      return text :: texts

end

def isHexUnit (unit : UInt16) : Bool :=
  (48 ≤ unit && unit ≤ 57) || (97 ≤ unit && unit ≤ 102)

def isHex (length : Nat) (text : JsonString) : Bool :=
  text.length = length && text.all isHexUnit

def isPublicKey (text : JsonString) : Bool :=
  isHex 64 text

def isSignature (text : JsonString) : Bool :=
  isHex 128 text

inductive VerifyResult
  | ok (publicKey : JsonString)
  | failed (reason : JsonString)

def fail (reason : String) : Option VerifyResult :=
  some (.failed (jsonString reason))

/-- Ed25519: whether a signature is that of a payload under a public key, or the
message of an error. -/
abbrev Ed25519 := List UInt8 → JsonString → JsonString → Except JsonString Bool

end

section

variable {value other : Json} {manifest : List (JsonString × Json)}

theorem encode_injective {text other : List Char} (same : Utf8.encode text = Utf8.encode other) :
    text = other := by
  rw [← Utf8.decode_encode text, same, Utf8.decode_encode]

theorem stripSignature_distinct
    (distinct : Distinct (object manifest)) : Distinct (object (stripSignature manifest)) := by
  cases distinct with
  | object keys each =>
    have kept : stripSignature manifest ⊆ manifest := List.filter_subset_self _
    exact .object (keys.sublist (List.filter_sublist.map _)) fun field member =>
      each field (kept member)

theorem stripSignature_finite
    (finite : Finite (object manifest)) : Finite (object (stripSignature manifest)) := by
  cases finite with
  | object each =>
    have kept : stripSignature manifest ⊆ manifest := List.filter_subset_self _
    exact .object fun field member => each field (kept member)

/-- The canonical text stands for the value: it tells values apart, it is read
back, and what is signed tells manifests apart. -/
structure Faithful (value other : Json) : Prop where
  determined : canonicalizeJson value = canonicalizeJson other ↔ Same value other
  roundTrips : RoundTrips value
  otherRoundTrips : RoundTrips other
  signed : ∀ manifest otherManifest, value = object manifest → other = object otherManifest →
    (signedPayload manifest = signedPayload otherManifest ↔
      Same (object (stripSignature manifest)) (object (stripSignature otherManifest)))

/-- For values from `JSON.parse` the canonical text is faithful exactly when no
number literal was too great for a finite number. -/
theorem canonicalizeJson_faithful_iff {text otherText : List Char}
    (parsed : parse text = some value) (otherParsed : parse otherText = some other) :
    Faithful value other ↔ Finite value ∧ Finite other := by
  have distinct := parse_distinct parsed
  have otherDistinct := parse_distinct otherParsed
  constructor
  · intro faithful
    exact ⟨(roundTrips_iff distinct).mp faithful.roundTrips,
      (roundTrips_iff otherDistinct).mp faithful.otherRoundTrips⟩
  · rintro ⟨finite, otherFinite⟩
    refine ⟨canonicalizeJson_eq_iff distinct otherDistinct finite otherFinite,
      (roundTrips_iff distinct).mpr finite, (roundTrips_iff otherDistinct).mpr otherFinite, ?_⟩
    rintro manifest otherManifest rfl rfl
    have texts := canonicalizeJson_eq_iff (stripSignature_distinct distinct)
      (stripSignature_distinct otherDistinct) (stripSignature_finite finite)
      (stripSignature_finite otherFinite)
    exact ⟨fun payloads => texts.mp (encode_injective payloads),
      fun same => congrArg Utf8.encode (texts.mpr same)⟩

theorem readsBack_flags : ReadsBack (array [boolean true]) "[true]".toList :=
  readsBack_array (.cons (readsBack_boolean true) .nil)

theorem readsBack_name : ReadsBack (string (jsonString "x")) "\"x\"".toList :=
  readsBack_string (jsonString "x")

/-- Two manifests that list their keys in different orders. -/
theorem canonicalizeJson_faithful_keys :
    ∃ value other, parse "\x7b\"id\":\"x\",\"on\":[true]\x7d".toList = some value ∧
      parse "\x7b\"on\":[true],\"id\":\"x\"\x7d".toList = some other ∧ Faithful value other := by
  have name : FieldReadsBack (jsonString "id", string (jsonString "x")) "\"id\":\"x\"".toList :=
    ⟨_, by decide +kernel, readsBack_name⟩
  have flags : FieldReadsBack (jsonString "on", array [boolean true]) "\"on\":[true]".toList :=
    ⟨_, by decide +kernel, readsBack_flags⟩
  have back := readsBack_object (.cons name (.cons flags .nil)) (by decide)
  have otherBack := readsBack_object (.cons flags (.cons name .nil)) (by decide)
  refine ⟨_, _, back.parse_eq, otherBack.parse_eq,
    (canonicalizeJson_faithful_iff back.parse_eq otherBack.parse_eq).mpr ⟨?_, ?_⟩⟩
  · exact .object (by simp [Finite.string, Finite.array, Finite.boolean])
  · exact .object (by simp [Finite.string, Finite.array, Finite.boolean])

end

theorem number_overflow : Numeral.number ⟨['1'], [], 999⟩ = .infinite false := by
  refine Binary64.ofRat_overflow ?_
  have one : Nat.ofDigitChars 10 ['1'] 0 = 1 := by
    decide
  have valueEq : Numeral.value ⟨['1'], [], 999⟩ = 10 ^ 999 := by
    simp [Numeral.value, one]
  rw [valueEq]
  calc (2 : ℚ) ^ 1024 ≤ 2 ^ (3 * 999) := pow_le_pow_right₀ (by norm_num) (by norm_num)
    _ = (2 ^ 3) ^ 999 := pow_mul _ _ _
    _ ≤ 10 ^ 999 := pow_le_pow_left₀ (by norm_num) (by norm_num) _

theorem readsBack_overflow : ReadsBack (number (.infinite false)) "1e+999".toList := by
  refine ⟨⟨'1', _, rfl, rfl, by decide⟩, fun fuel rest enough ends => ?_⟩
  cases fuel with
  | zero => cases enough
  | succ fuel =>
    have spelled : Numeral.spelled ⟨['1'], [], 999⟩ true = "1e+999".toList := by
      decide
    have scanned : Numeral.scan (Numeral.spelled ⟨['1'], [], 999⟩ true ++ rest) =
        some (⟨['1'], [], 999⟩, rest) :=
      Numeral.scan_spelled (List.all_iff_forall_prop.mp (by decide)) (by decide)
        (List.forall_mem_nil _) (by decide) ends
    rw [spelled] at scanned
    have digit : readValue (fuel + 1) ("1e+999".toList ++ rest) =
        scanNumber ("1e+999".toList ++ rest) :=
      readValue_number (.inr rfl)
    rw [digit, scanNumber]
    simp only [JsValue.unsigned_of_scan scanned, scanned, signed, number_overflow,
      Bool.false_eq_true, if_false]
    rfl

/-- A number that is too great has the canonical text of `null`. -/
theorem canonicalizeJson_confuses_overflow :
    ∃ value other, parse "[1e+999]".toList = some value ∧ parse "[null]".toList = some other ∧
      canonicalizeJson value = canonicalizeJson other ∧ ¬Same value other := by
  have back := readsBack_array (.cons readsBack_overflow .nil)
  have nullBack := readsBack_array (.cons readsBack_null .nil)
  refine ⟨_, _, back.parse_eq, nullBack.parse_eq, rfl, ?_⟩
  intro same
  cases same with
  | array _ each => cases each 0 Nat.zero_lt_one Nat.zero_lt_one

end P2PHub.ManifestSigning
