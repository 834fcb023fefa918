import Mathlib.Data.List.Nodup
import P2PHub.JsonText

/-!
# JSON values over code units

The values that `JSON.parse` yields, without loss: strings and keys are any
sequences of code units, lone surrogates among them, a number literal may be
too great and stand for an infinity, and zero has a sign.  The order in which
an object lists its keys is not modelled.
-/

namespace P2PHub

open JsValue

abbrev JsonString := List UInt16

instance : LawfulBEq JsonString := inferInstance

inductive Json
  | null
  | boolean (value : Bool)
  | number (value : Binary64)
  | negativeZero
  | string (value : JsonString)
  | array (items : List Json)
  | object (fields : List (JsonString × Json))

namespace Json

def jsonString (text : String) : JsonString :=
  (Utf16.units text.toList).map UInt16.ofNat

section

/-- Equal values, whatever the order of the keys.  As under `===`, the two
zeros are equal. -/
inductive Same : Json → Json → Prop
  | null : Same null null
  | boolean (value : Bool) : Same (boolean value) (boolean value)
  | number (value : Binary64) : Same (number value) (number value)
  | negativeZero : Same negativeZero negativeZero
  | zeroNegative {value : Binary64} (zero : value.isZero) : Same (number value) negativeZero
  | negativeZeroZero {value : Binary64} (zero : value.isZero) : Same negativeZero (number value)
  | string (value : JsonString) : Same (string value) (string value)
  | array {items others : List Json} (lengths : items.length = others.length)
      (each : ∀ index (inside : index < items.length) (otherInside : index < others.length),
        Same items[index] others[index]) :
      Same (array items) (array others)
  | object {fields others : List (JsonString × Json)}
      (keys : ∀ key, key ∈ fields.map Prod.fst ↔ key ∈ others.map Prod.fst)
      (each : ∀ key value other, (key, value) ∈ fields → (key, other) ∈ others → Same value other) :
      Same (object fields) (object others)

/-- A value whose objects have no key twice. -/
inductive Distinct : Json → Prop
  | null : Distinct null
  | boolean (value : Bool) : Distinct (boolean value)
  | number (value : Binary64) : Distinct (number value)
  | negativeZero : Distinct negativeZero
  | string (value : JsonString) : Distinct (string value)
  | array {items : List Json} (each : ∀ item ∈ items, Distinct item) : Distinct (array items)
  | object {fields : List (JsonString × Json)} (keys : (fields.map Prod.fst).Nodup)
      (each : ∀ field ∈ fields, Distinct field.2) : Distinct (object fields)

/-- A value in which no number is infinite or `NaN`. -/
inductive Finite : Json → Prop
  | null : Finite null
  | boolean (value : Bool) : Finite (boolean value)
  | number {value : ℚ} (representable : Binary64.Representable value) :
      Finite (number (.finite value representable))
  | negativeZero : Finite negativeZero
  | string (value : JsonString) : Finite (string value)
  | array {items : List Json} (each : ∀ item ∈ items, Finite item) : Finite (array items)
  | object {fields : List (JsonString × Json)} (each : ∀ field ∈ fields, Finite field.2) :
      Finite (object fields)

variable {value : Json}

theorem Same.symm {other : Json} (same : Same value other) : Same other value := by
  induction same with
  | null => exact .null
  | boolean value => exact .boolean value
  | number value => exact .number value
  | negativeZero => exact .negativeZero
  | zeroNegative zero => exact .negativeZeroZero zero
  | negativeZeroZero zero => exact .zeroNegative zero
  | string value => exact .string value
  | array lengths _ ih =>
    exact .array lengths.symm fun index inside otherInside => ih index otherInside inside
  | object keys _ ih =>
    exact .object (fun key => (keys key).symm) fun key value other valueIn otherIn =>
      ih key other value otherIn valueIn

theorem Distinct.of_mem {fields : List (JsonString × Json)} {key : JsonString} {other : Json}
    (keys : (fields.map Prod.fst).Nodup) (member : (key, value) ∈ fields)
    (otherMember : (key, other) ∈ fields) : value = other := by
  have same := List.inj_on_of_nodup_map keys member otherMember rfl
  exact (Prod.mk.inj same).2

theorem Distinct.same (distinct : Distinct value) : Same value value := by
  induction distinct with
  | null => exact .null
  | boolean value => exact .boolean value
  | number value => exact .number value
  | negativeZero => exact .negativeZero
  | string value => exact .string value
  | array _ ih => exact .array rfl fun index inside _ => ih _ (List.getElem_mem inside)
  | object keys _ ih =>
    refine .object (fun _ => Iff.rfl) fun key value other member otherMember => ?_
    obtain rfl := Distinct.of_mem keys member otherMember
    exact ih (key, value) member

theorem isZero_unique {value other : Binary64} (zero : value.isZero) (otherZero : other.isZero) :
    value = other := by
  cases value <;> cases other <;> simp_all [Binary64.isZero]

theorem Same.trans {first second third : Json} (same : Same first second)
    (next : Same second third) : Same first third := by
  induction same generalizing third with
  | null | boolean | number | negativeZero | string => exact next
  | zeroNegative zero =>
    cases next with
    | negativeZero => exact .zeroNegative zero
    | negativeZeroZero otherZero =>
      rw [isZero_unique zero otherZero]
      exact .number _
  | negativeZeroZero zero =>
    cases next with
    | number => exact .negativeZeroZero zero
    | zeroNegative => exact .negativeZero
  | array lengths _ ih =>
    cases next with
    | array nextLengths nextEach =>
      refine .array (lengths.trans nextLengths) fun index inside otherInside => ?_
      have middleInside := lengths ▸ inside
      exact ih index inside middleInside (nextEach index middleInside otherInside)
  | object keys _ ih =>
    cases next with
    | object nextKeys nextEach =>
      refine .object (fun key => (keys key).trans (nextKeys key)) ?_
      intro key value other valueIn otherIn
      have inMiddle := (keys key).mp (List.mem_map_of_mem valueIn)
      obtain ⟨⟨_, middle⟩, middleIn, rfl⟩ := List.mem_map.mp inMiddle
      exact ih _ value middle valueIn middleIn (nextEach _ middle other middleIn otherIn)

end

/-- The string whose literal follows an opening quote, and what follows it. -/
def readText (text : List Char) : Option (JsonString × List Char) :=
  (readUnits text).map fun (units, rest) => (units.map UInt16.ofNat, rest)

def signed (negative : Bool) (magnitude : Binary64) : Json :=
  if negative then
    if magnitude.isZero then negativeZero else number magnitude.neg
  else number magnitude

def scanNumber (text : List Char) : Option (Json × List Char) :=
  let (negative, magnitude) := unsigned text
  match Numeral.scan magnitude with
  | some (numeral, rest) =>
    if Numeral.leadingZero numeral.whole then none
    else some (signed negative numeral.number, rest)
  | none => none

def setField (fields : List (JsonString × Json)) (key : JsonString) (value : Json) :
    List (JsonString × Json) :=
  if key ∈ fields.map Prod.fst then
    fields.map fun field => if field.1 = key then (key, value) else field
  else fields ++ [(key, value)]

mutual

/-- A value at the start of a text.  The fuel bounds the nesting. -/
def readValue : Nat → List Char → Option (Json × List Char)
  | 0, _ => none
  | fuel + 1, text =>
    match skipSpace text with
    | 'n' :: 'u' :: 'l' :: 'l' :: rest => some (null, rest)
    | 't' :: 'r' :: 'u' :: 'e' :: rest => some (boolean true, rest)
    | 'f' :: 'a' :: 'l' :: 's' :: 'e' :: rest => some (boolean false, rest)
    | '"' :: rest => (readText rest).map fun (value, rest) => (string value, rest)
    | '[' :: rest =>
      match skipSpace rest with
      | ']' :: rest => some (array [], rest)
      | _ => (readItems fuel rest).map fun (items, rest) => (array items, rest)
    | '\x7b' :: rest =>
      match skipSpace rest with
      | '\x7d' :: rest => some (object [], rest)
      | _ => (readFields fuel [] rest).map fun (fields, rest) => (object fields, rest)
    | text => scanNumber text

/-- The items of an array that is not empty, and what follows its end. -/
def readItems : Nat → List Char → Option (List Json × List Char)
  | 0, _ => none
  | fuel + 1, text => do
      let (item, rest) ← readValue fuel text
      match skipSpace rest with
      | ',' :: rest =>
        let (items, rest) ← readItems fuel rest
        return (item :: items, rest)
      | ']' :: rest => return ([item], rest)
      | _ => none

/-- The fields of an object that is not empty, and what follows its end. -/
def readFields : Nat → List (JsonString × Json) → List Char →
    Option (List (JsonString × Json) × List Char)
  | 0, _, _ => none
  | fuel + 1, fields, text =>
    match skipSpace text with
    | '"' :: rest => do
        let (key, rest) ← readText rest
        match skipSpace rest with
        | ':' :: rest =>
          let (value, rest) ← readValue fuel rest
          match skipSpace rest with
          | ',' :: rest => readFields fuel (setField fields key value) rest
          | '\x7d' :: rest => return (setField fields key value, rest)
          | _ => none
        | _ => none
    | _ => none

end

/-- `JSON.parse`, where nothing stands for the error it throws. -/
def parse (text : List Char) : Option Json :=
  match readValue (text.length + 1) text with
  | some (value, rest) => if skipSpace rest = [] then some value else none
  | none => none

variable {value : Json}

theorem setField_distinct {fields : List (JsonString × Json)} {key : JsonString}
    (distinct : Distinct (object fields)) (valueDistinct : Distinct value) :
    Distinct (object (setField fields key value)) := by
  cases distinct with
  | object keys each =>
    rw [setField]
    split
    · have sameKeys : (fields.map fun field => if field.1 = key then (key, value) else field).map
          Prod.fst = fields.map Prod.fst := by
        rw [List.map_map]
        refine List.map_congr_left fun field _ => ?_
        by_cases same : field.1 = key <;> simp [same]
      refine .object (sameKeys ▸ keys) fun field member => ?_
      obtain ⟨old, oldIn, rfl⟩ := List.mem_map.mp member
      split
      · exact valueDistinct
      · exact each old oldIn
    · next new =>
        constructor
        · rw [List.map_append, List.nodup_append]
          refine ⟨keys, List.nodup_singleton _, fun other otherIn added addedIn same => ?_⟩
          rw [List.mem_singleton.mp addedIn] at same
          subst same
          exact new otherIn
        · intro field member
          rcases List.mem_append.mp member with old | added
          · exact each field old
          · rw [List.mem_singleton.mp added]
            exact valueDistinct

theorem distinct_empty : Distinct (object []) :=
  .object List.nodup_nil fun _ member => absurd member List.not_mem_nil

theorem scanNumber_distinct {text rest : List Char}
    (scanned : scanNumber text = some (value, rest)) : Distinct value := by
  simp only [scanNumber] at scanned
  split at scanned
  · split at scanned
    · cases scanned
    · cases scanned
      unfold signed
      split
      · split
        · exact .negativeZero
        · exact .number _
      · exact .number _
  · cases scanned

/-- What is read with some fuel has no key twice in an object. -/
structure ReadsDistinct (fuel : Nat) : Prop where
  value : ∀ {text value rest}, readValue fuel text = some (value, rest) → Distinct value
  items : ∀ {text items rest}, readItems fuel text = some (items, rest) → Distinct (array items)
  fields : ∀ {fields text read rest}, Distinct (object fields) →
    readFields fuel fields text = some (read, rest) → Distinct (object read)

theorem reads_distinct (fuel : Nat) : ReadsDistinct fuel := by
  induction fuel with
  | zero =>
    constructor
    · intro text value rest read
      cases read
    · intro text items rest read
      cases read
    · intro fields text read rest _ reads
      cases reads
  | succ fuel ih =>
    constructor
    · intro text value rest read
      rw [readValue] at read
      split at read
      · cases read
        exact .null
      · cases read
        exact .boolean true
      · cases read
        exact .boolean false
      · obtain ⟨⟨units, after⟩, -, pairEq⟩ := Option.map_eq_some_iff.mp read
        cases pairEq
        exact .string units
      · split at read
        · cases read
          exact .array nofun
        · obtain ⟨⟨items, after⟩, itemsRead, pairEq⟩ := Option.map_eq_some_iff.mp read
          cases pairEq
          exact ih.items itemsRead
      · split at read
        · cases read
          exact distinct_empty
        · obtain ⟨⟨fields, after⟩, fieldsRead, pairEq⟩ := Option.map_eq_some_iff.mp read
          cases pairEq
          exact ih.fields distinct_empty fieldsRead
      · exact scanNumber_distinct read
    · intro text items rest read
      obtain ⟨⟨item, afterItem⟩, itemRead, next⟩ := Option.bind_eq_some_iff.mp read
      have itemDistinct := ih.value itemRead
      dsimp only at next
      split at next
      · obtain ⟨⟨others, after⟩, othersRead, pairEq⟩ := Option.bind_eq_some_iff.mp next
        cases pairEq
        cases ih.items othersRead with
        | array each => exact .array (List.forall_mem_cons.mpr ⟨itemDistinct, each⟩)
      · cases next
        exact .array (List.forall_mem_cons.mpr ⟨itemDistinct, nofun⟩)
      · cases next
    · intro fields text read rest distinct reads
      rw [readFields] at reads
      split at reads
      · obtain ⟨⟨key, afterKey⟩, -, next⟩ := Option.bind_eq_some_iff.mp reads
        dsimp only at next
        split at next
        · obtain ⟨⟨value, afterValue⟩, valueRead, last⟩ := Option.bind_eq_some_iff.mp next
          have added : Distinct (object (setField fields key value)) :=
            setField_distinct distinct (ih.value valueRead)
          split at last
          · exact ih.fields added last
          · cases last
            exact added
          · cases last
        · cases next
      · cases reads

theorem parse_distinct {text : List Char} (parsed : parse text = some value) : Distinct value := by
  rw [parse] at parsed
  split at parsed
  · next read =>
      split at parsed
      · cases parsed
        exact (reads_distinct _).value read
      · cases parsed
  · cases parsed

end Json

end P2PHub
