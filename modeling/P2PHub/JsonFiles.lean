import P2PHub.BoundaryGuard
import P2PHub.ManifestSigning

/-!
# JSON files

What `readJsonFile` gives back of a value that was written by `JSON.stringify`,
and the limits of `sdk/src/boundary-guard.ts` on such values.
-/

namespace P2PHub.Json

mutual

/-- The value that is read back: a number that is not finite is written as
`null`, and a negative zero as zero. -/
def fileForm : Json → Json
  | number (.finite value representable) => number (.finite value representable)
  | number _ => null
  | negativeZero => number (.finite 0 Binary64.representable_zero)
  | array items => array (fileFormItems items)
  | object fields => object (fileFormFields fields)
  | value => value

def fileFormItems : List Json → List Json
  | [] => []
  | item :: items => fileForm item :: fileFormItems items

def fileFormFields : List (JsonString × Json) → List (JsonString × Json)
  | [] => []
  | (key, value) :: fields => (key, fileForm value) :: fileFormFields fields

end

def fileFormField (field : JsonString × Json) : JsonString × Json :=
  (field.1, fileForm field.2)

theorem fileForm_array (items : List Json) :
    fileForm (array items) = array (items.map fileForm) := by
  have itemsEq : fileFormItems items = items.map fileForm := by
    induction items with
    | nil => rfl
    | cons item items ih => rw [fileFormItems, ih, List.map_cons]
  rw [fileForm, itemsEq]

theorem fileForm_object (fields : List (JsonString × Json)) :
    fileForm (object fields) = object (fields.map fileFormField) := by
  have fieldsEq : fileFormFields fields = fields.map fileFormField := by
    induction fields with
    | nil => rfl
    | cons field fields ih =>
      rw [fileFormFields, ih, List.map_cons]
      rfl
  rw [fileForm, fieldsEq]

theorem fileForm_ofInt {whole : ℤ} (safe : Binary64.Safe whole) :
    fileForm (number (.ofInt whole)) = number (.ofInt whole) := by
  rw [Binary64.ofInt_of_safe safe, fileForm]

theorem fileFormField_keys (fields : List (JsonString × Json)) :
    (fields.map fileFormField).map Prod.fst = fields.map Prod.fst := by
  rw [List.map_map]
  rfl

theorem lookup_fileForm (fields : List (JsonString × Json)) (key : JsonString) :
    (fields.map fileFormField).lookup key = (fields.lookup key).map fileForm := by
  induction fields with
  | nil => rfl
  | cons field fields ih =>
    obtain ⟨name, value⟩ := field
    simp only [List.map_cons, fileFormField, List.lookup_cons]
    cases key == name with
    | true => rfl
    | false => exact ih

theorem same_fileForm {value : Json} (finite : Finite value) (distinct : Distinct value) :
    Same (fileForm value) value := by
  induction finite with
  | null => exact .null
  | boolean value => exact .boolean value
  | number => exact .number _
  | negativeZero => exact .zeroNegative rfl
  | string value => exact .string value
  | @array items _ ih =>
    cases distinct with
    | array each =>
      rw [fileForm_array]
      refine .array (List.length_map _) fun index inside otherInside => ?_
      rw [List.getElem_map]
      exact ih _ (List.getElem_mem otherInside) (each _ (List.getElem_mem otherInside))
  | @object fields _ ih =>
    cases distinct with
    | object keys each =>
      rw [fileForm_object]
      refine .object (fun key => by rw [fileFormField_keys]) fun key value other member present => ?_
      obtain ⟨field, inside, same⟩ := List.mem_map.mp member
      cases same
      have fieldEq : field = (field.1, other) :=
        List.inj_on_of_nodup_map keys inside present rfl
      have valueSame := ih field inside (each field inside)
      rw [fieldEq] at valueSame ⊢
      exact valueSame

theorem distinct_fileForm {value : Json} (distinct : Distinct value) :
    Distinct (fileForm value) := by
  induction distinct with
  | null => exact .null
  | boolean value => exact .boolean value
  | number value =>
    cases value with
    | finite => exact .number _
    | infinite | nan => exact .null
  | negativeZero => exact .number _
  | string value => exact .string value
  | array _ ih =>
    rw [fileForm_array]
    exact .array (List.forall_mem_map.mpr ih)
  | object keys _ ih =>
    rw [fileForm_object]
    refine .object ?_ (List.forall_mem_map.mpr ih)
    rw [fileFormField_keys]
    exact keys

section

def maxKeyCount : Nat := 500

mutual

/-- `walkDepth` gets through. -/
def withinDepth (depth : Nat) : Json → Bool
  | array items => decide (depth ≤ maxObjectDepth) && itemsWithinDepth (depth + 1) items
  | object fields => decide (depth ≤ maxObjectDepth) && fieldsWithinDepth (depth + 1) fields
  | _ => true

def itemsWithinDepth (depth : Nat) : List Json → Bool
  | [] => true
  | item :: items => withinDepth depth item && itemsWithinDepth depth items

def fieldsWithinDepth (depth : Nat) : List (JsonString × Json) → Bool
  | [] => true
  | (_, value) :: fields => withinDepth depth value && fieldsWithinDepth depth fields

end

mutual

/-- `walkKeys` gets through. -/
def withinKeys (depth : Nat) : Json → Bool
  | array items =>
    decide (depth ≤ maxObjectDepth) && decide (items.length ≤ maxKeyCount) &&
      itemsWithinKeys (depth + 1) items
  | object fields =>
    decide (depth ≤ maxObjectDepth) && decide (fields.length ≤ maxKeyCount) &&
      fieldsWithinKeys (depth + 1) fields
  | _ => true

def itemsWithinKeys (depth : Nat) : List Json → Bool
  | [] => true
  | item :: items => withinKeys depth item && itemsWithinKeys depth items

def fieldsWithinKeys (depth : Nat) : List (JsonString × Json) → Bool
  | [] => true
  | (_, value) :: fields => withinKeys depth value && fieldsWithinKeys depth fields

end

/-- `validateObjectDepth` does not throw. -/
def depthValid (value : Json) : Bool :=
  withinDepth 1 value

/-- `validateKeyCount` does not throw. -/
def keyCountValid (value : Json) : Bool :=
  withinKeys 1 value

variable {depth : Nat}

variable {fields : List (JsonString × Json)} {value : Json}

theorem withinDepth_array {items : List Json} : withinDepth depth (array items) ↔
    depth ≤ maxObjectDepth ∧ ∀ item ∈ items, withinDepth (depth + 1) item := by
  have each : itemsWithinDepth (depth + 1) items ↔
      ∀ item ∈ items, withinDepth (depth + 1) item := by
    induction items with
    | nil => simp [itemsWithinDepth]
    | cons item items ih => simp [itemsWithinDepth, ih]
  simp [withinDepth, each]

theorem withinDepth_object : withinDepth depth (object fields) ↔
      depth ≤ maxObjectDepth ∧ ∀ field ∈ fields, withinDepth (depth + 1) field.2 := by
  have each : fieldsWithinDepth (depth + 1) fields ↔
      ∀ field ∈ fields, withinDepth (depth + 1) field.2 := by
    induction fields with
    | nil => simp [fieldsWithinDepth]
    | cons field fields ih => simp [fieldsWithinDepth, ih]
  simp [withinDepth, each]

theorem withinKeys_array {items : List Json} : withinKeys depth (array items) ↔
    depth ≤ maxObjectDepth ∧ items.length ≤ maxKeyCount ∧
      ∀ item ∈ items, withinKeys (depth + 1) item := by
  have each : itemsWithinKeys (depth + 1) items ↔
      ∀ item ∈ items, withinKeys (depth + 1) item := by
    induction items with
    | nil => simp [itemsWithinKeys]
    | cons item items ih => simp [itemsWithinKeys, ih]
  simp [withinKeys, each, and_assoc]

theorem withinKeys_object : withinKeys depth (object fields) ↔
      depth ≤ maxObjectDepth ∧ fields.length ≤ maxKeyCount ∧
        ∀ field ∈ fields, withinKeys (depth + 1) field.2 := by
  have each : fieldsWithinKeys (depth + 1) fields ↔
      ∀ field ∈ fields, withinKeys (depth + 1) field.2 := by
    induction fields with
    | nil => simp [fieldsWithinKeys]
    | cons field fields ih => simp [fieldsWithinKeys, ih]
  simp [withinKeys, each, and_assoc]

variable (distinct : Distinct value)
include distinct

theorem withinDepth_fileForm
    (within : withinDepth depth value) : withinDepth depth (fileForm value) := by
  induction distinct generalizing depth with
  | null | boolean | negativeZero | string => rfl
  | number value => cases value <;> rfl
  | array _ ih =>
    obtain ⟨bounded, each⟩ := withinDepth_array.mp within
    rw [fileForm_array]
    exact withinDepth_array.mpr ⟨bounded, List.forall_mem_map.mpr fun item member =>
      ih item member (each item member)⟩
  | object _ _ ih =>
    obtain ⟨bounded, each⟩ := withinDepth_object.mp within
    rw [fileForm_object]
    exact withinDepth_object.mpr ⟨bounded, List.forall_mem_map.mpr fun field member =>
      ih field member (each field member)⟩

theorem withinKeys_fileForm
    (within : withinKeys depth value) : withinKeys depth (fileForm value) := by
  induction distinct generalizing depth with
  | null | boolean | negativeZero | string => rfl
  | number value => cases value <;> rfl
  | array _ ih =>
    obtain ⟨bounded, count, each⟩ := withinKeys_array.mp within
    rw [fileForm_array]
    exact withinKeys_array.mpr ⟨bounded, by rwa [List.length_map], List.forall_mem_map.mpr
      fun item member => ih item member (each item member)⟩
  | object _ _ ih =>
    obtain ⟨bounded, count, each⟩ := withinKeys_object.mp within
    rw [fileForm_object]
    exact withinKeys_object.mpr ⟨bounded, by rwa [List.length_map], List.forall_mem_map.mpr
      fun field member => ih field member (each field member)⟩

theorem withinDepth_mono {other : Nat}
    (lower : other ≤ depth) (within : withinDepth depth value) :
    withinDepth other value := by
  induction distinct generalizing depth other with
  | null | boolean | number | negativeZero | string => rfl
  | array _ ih =>
    obtain ⟨bounded, each⟩ := withinDepth_array.mp within
    exact withinDepth_array.mpr ⟨by omega, fun item member =>
      ih item member (Nat.succ_le_succ lower) (each item member)⟩
  | object _ _ ih =>
    obtain ⟨bounded, each⟩ := withinDepth_object.mp within
    exact withinDepth_object.mpr ⟨by omega, fun field member =>
      ih field member (Nat.succ_le_succ lower) (each field member)⟩

theorem withinKeys_mono {other : Nat}
    (lower : other ≤ depth) (within : withinKeys depth value) :
    withinKeys other value := by
  induction distinct generalizing depth other with
  | null | boolean | number | negativeZero | string => rfl
  | array _ ih =>
    obtain ⟨bounded, count, each⟩ := withinKeys_array.mp within
    exact withinKeys_array.mpr ⟨by omega, count, fun item member =>
      ih item member (Nat.succ_le_succ lower) (each item member)⟩
  | object _ _ ih =>
    obtain ⟨bounded, count, each⟩ := withinKeys_object.mp within
    exact withinKeys_object.mpr ⟨by omega, count, fun field member =>
      ih field member (Nat.succ_le_succ lower) (each field member)⟩

end

/-- `!value` for a value that `JSON.parse` gives. -/
def isFalsy : Json → Bool
  | null => true
  | boolean value => !value
  | number (.finite value _) => value = 0
  | number .nan => true
  | negativeZero => true
  | string value => value.isEmpty
  | _ => false

def isAlphanumeric (unit : UInt16) : Bool :=
  (48 ≤ unit && unit ≤ 57) || (65 ≤ unit && unit ≤ 90) || (97 ≤ unit && unit ≤ 122)

end P2PHub.Json
