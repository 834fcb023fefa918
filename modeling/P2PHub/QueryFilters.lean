import Mathlib.Data.List.Infix
import P2PHub.PALRules

/-!
# Filters over records

`matchesRecord` of `sdk/src/query/filter.ts` on a filter that `validateFilter`
returned.  A key of the filter is asked of the record where it is an own key of
both: `__proto__` is lost when the filter is normalized, and a name of
`Object.prototype` is found in every record.
-/

namespace P2PHub.PAL

open Json ManifestSigning

section

/-- A value of a record.  The two zeros compare alike and are not told apart. -/
inductive FieldValue
  | string (text : JsonString)
  | number (value : Binary64)
  | boolean (value : Bool)
  deriving DecidableEq

abbrev FieldRecord := List (JsonString × FieldValue)

def scalar? : Json → Option FieldValue
  | .string text => some (.string text)
  | .number value => some (.number value)
  | .negativeZero => some (.number (.ofInt 0))
  | .boolean value => some (.boolean value)
  | _ => none

/-- `===`. -/
def FieldValue.strictEquals : FieldValue → FieldValue → Bool
  | .string text, .string other => decide (text = other)
  | .number value, .number other => value.same other
  | .boolean value, .boolean other => decide (value = other)
  | _, _ => false

/-- `fields[field]` where `field in fields`.  Nothing stands for a property of
`Object.prototype`, which is a function or an object. -/
def readField (fields : FieldRecord) (field : JsonString) : Option (Option FieldValue) :=
  match fields.lookup field with
  | some value => some (some value)
  | none => if field ∈ inheritedNames then some none else none

def isStrictlyEqual (recordValue : Option FieldValue) (value : Json) : Bool :=
  match recordValue, scalar? value with
  | some recordValue, some value => recordValue.strictEquals value
  | _, _ => false

/-- `typeof recordValue === "number"` and a comparison with the filter's value. -/
def isNumberThat (compare : Binary64 → Binary64 → Bool) (recordValue : Option FieldValue)
    (value : Json) : Bool :=
  match recordValue, scalar? value with
  | some (.number own), some (.number bound) => compare own bound
  | _, _ => false

variable (toLowerCase : JsonString → JsonString)

def isTextThatContains (recordValue : Option FieldValue) (value : Json) : Bool :=
  match recordValue, scalar? value with
  | some (.string text), some (.string part) => decide (toLowerCase part <:+: toLowerCase text)
  | _, _ => false

def matchesFieldFilter (recordValue : Option FieldValue) (ff : FieldFilter) : Bool :=
  match ff.op with
  | .eq => isStrictlyEqual recordValue ff.value
  | .neq => !isStrictlyEqual recordValue ff.value
  | .gt => isNumberThat (fun number bound => bound.lt number) recordValue ff.value
  | .gte => isNumberThat (fun number bound => bound.le number) recordValue ff.value
  | .lt => isNumberThat (fun number bound => number.lt bound) recordValue ff.value
  | .lte => isNumberThat (fun number bound => number.le bound) recordValue ff.value
  | .contains => isTextThatContains toLowerCase recordValue ff.value

def matchesEntry (fields : FieldRecord) (entry : JsonString × FieldFilter) : Bool :=
  match readField fields entry.1 with
  | none => false
  | some recordValue => matchesFieldFilter toLowerCase recordValue entry.2

def matchesRecord (fields : FieldRecord) (filter : QueryFilter) : Bool :=
  filter.fields.all (matchesEntry toLowerCase fields)

end

section

/-- A value of a record is the value of a filter. -/
inductive Equals : FieldValue → Json → Prop
  | string (text : JsonString) : Equals (.string text) (.string text)
  | number {value : Binary64} (isNumber : value ≠ .nan) : Equals (.number value) (.number value)
  | zero : Equals (.number (.ofInt 0)) .negativeZero
  | boolean (value : Bool) : Equals (.boolean value) (.boolean value)

variable (toLowerCase : JsonString → JsonString)

def FieldFilter.Holds (ff : FieldFilter) (value : FieldValue) : Prop :=
  match ff.op with
  | .eq => Equals value ff.value
  | .neq => ¬Equals value ff.value
  | .gt => ∃ number bound, value = .number number ∧ scalar? ff.value = some (.number bound) ∧
      bound.lt number = true
  | .gte => ∃ number bound, value = .number number ∧ scalar? ff.value = some (.number bound) ∧
      bound.le number = true
  | .lt => ∃ number bound, value = .number number ∧ scalar? ff.value = some (.number bound) ∧
      number.lt bound = true
  | .lte => ∃ number bound, value = .number number ∧ scalar? ff.value = some (.number bound) ∧
      number.le bound = true
  | .contains => ∃ text part, value = .string text ∧ ff.value = .string part ∧
      toLowerCase part <:+: toLowerCase text

/-- The operator and the value that an entry of a filter object spells. -/
def Spells (value : Json) (ff : FieldFilter) : Prop :=
  ∃ own, value = object own ∧ property own "op" = some (.string ff.op.text) ∧
    property own "value" = some ff.value

/-- The record has an own field of the entry's name, with a value that satisfies
the entry's operator. -/
def Satisfied (fields : FieldRecord) (entry : JsonString × Json) : Prop :=
  ∃ ff value, Spells entry.2 ff ∧ fields.lookup entry.1 = some value ∧ ff.Holds toLowerCase value

/-- An entry that is not satisfied and goes unnoticed: its key is `__proto__`, or
it asks for another value than the one a record inherits. -/
def Slips (fields : FieldRecord) (entry : JsonString × Json) : Prop :=
  ¬Satisfied toLowerCase fields entry ∧ (entry.1 = jsonString "__proto__" ∨
      fields.lookup entry.1 = none ∧ entry.1 ∈ inheritedNames ∧
        ∃ ff, Spells entry.2 ff ∧ ff.op = .neq)

end

variable {toLowerCase : JsonString → JsonString} {fields : FieldRecord} {ff : FieldFilter}
  {value : FieldValue} {operand : Json} {filter : List (JsonString × Json)}
  {before after : QueryFilter}

theorem same_iff {number other : Binary64} :
    number.same other ↔ number = other ∧ number ≠ .nan := by
  cases number <;> simp [Binary64.same]

theorem equals_iff : Equals value operand ↔
    ∃ scalar, scalar? operand = some scalar ∧ value.strictEquals scalar := by
  constructor
  · intro equals
    cases equals with
    | string | boolean => exact ⟨_, rfl, by simp [FieldValue.strictEquals]⟩
    | number isNumber => exact ⟨_, rfl, by simp [FieldValue.strictEquals, same_iff, isNumber]⟩
    | zero => exact ⟨_, rfl, by decide +kernel⟩
  · rintro ⟨scalar, found, same⟩
    cases operand with
    | null | array | object => cases found
    | boolean =>
      cases found
      cases value with
      | boolean value =>
        obtain rfl := of_decide_eq_true same
        exact .boolean value
      | string | number => cases same
    | number =>
      cases found
      cases value with
      | number =>
        obtain ⟨rfl, isNumber⟩ := same_iff.mp same
        exact .number isNumber
      | string | boolean => cases same
    | negativeZero =>
      cases found
      cases value with
      | number =>
        obtain ⟨rfl, _⟩ := same_iff.mp same
        exact .zero
      | string | boolean => cases same
    | string =>
      cases found
      cases value with
      | string value =>
        obtain rfl := of_decide_eq_true same
        exact .string value
      | number | boolean => cases same

theorem isStrictlyEqual_iff :
    isStrictlyEqual (some value) operand ↔ Equals value operand := by
  rw [equals_iff]
  unfold isStrictlyEqual
  cases scalar? operand with
  | none | some => simp

theorem isNumberThat_iff {compare : Binary64 → Binary64 → Bool} :
    isNumberThat compare (some value) operand ↔
      ∃ number bound, value = .number number ∧ scalar? operand = some (.number bound) ∧
        compare number bound := by
  unfold isNumberThat
  split
  · next number bound isNumber isBound =>
      cases isNumber
      simp [isBound]
  · next other =>
      constructor
      · intro impossible
        cases impossible
      · rintro ⟨number, bound, rfl, isBound, _⟩
        exact absurd isBound (other number bound rfl)

theorem isTextThatContains_iff : isTextThatContains toLowerCase (some value) operand ↔
      ∃ text part, value = .string text ∧ operand = .string part ∧
        toLowerCase part <:+: toLowerCase text := by
  cases value with
  | string => cases operand <;> simp [isTextThatContains, scalar?]
  | number | boolean => simp [isTextThatContains]

theorem matchesFieldFilter_own :
    matchesFieldFilter toLowerCase (some value) ff ↔ ff.Holds toLowerCase value := by
  unfold matchesFieldFilter FieldFilter.Holds
  cases ff.op with
  | eq => exact isStrictlyEqual_iff
  | neq => rw [Bool.not_eq_true', ← isStrictlyEqual_iff, Bool.not_eq_true]
  | gt | gte | lt | lte => exact isNumberThat_iff
  | contains => exact isTextThatContains_iff

theorem matchesFieldFilter_inherited :
    matchesFieldFilter toLowerCase none ff ↔ ff.op = .neq := by
  unfold matchesFieldFilter isStrictlyEqual isNumberThat isTextThatContains
  cases ff.op <;> simp

theorem normalizeFieldFilter_spells {field : JsonString} {own : List (JsonString × Json)}
    (normalized : normalizeFieldFilter field own = .ok ff) : Spells (object own) ff := by
  unfold normalizeFieldFilter at normalized
  split at normalized
  · next text isText =>
      split at normalized
      · next op isOp =>
          split at normalized
          · next value isValue =>
              split at normalized
              · cases normalized
                have spelled : op.text = text := by simpa using List.find?_some isOp
                exact ⟨own, rfl, spelled ▸ isText, isValue⟩
              · cases normalized
          · cases normalized
      · cases normalized
  · cases normalized

theorem FilterOp.text_injective {op other : FilterOp} (same : op.text = other.text) : op = other :=
    by
  have back := congrArg filterOp? same
  rw [filterOp?_text, filterOp?_text] at back
  exact Option.some.inj back

theorem Spells.unique {value : Json} {other : FieldFilter} (spells : Spells value ff)
    (spellsOther : Spells value other) : ff = other := by
  obtain ⟨own, rfl, op, operand⟩ := spells
  obtain ⟨_, same, otherOp, otherOperand⟩ := spellsOther
  obtain rfl := object.inj same
  rw [op, Option.some.injEq, string.injEq] at otherOp
  rw [operand, Option.some.injEq] at otherOperand
  cases ff
  cases other
  rw [FieldFilter.mk.injEq]
  exact ⟨FilterOp.text_injective otherOp, otherOperand⟩

theorem matchesEntry_iff (toLowerCase : JsonString → JsonString) (fields : FieldRecord)
    (entry : JsonString × Json) (spells : Spells entry.2 ff) :
    matchesEntry toLowerCase fields (entry.1, ff) ↔
      Satisfied toLowerCase fields entry ∨ fields.lookup entry.1 = none ∧
        entry.1 ∈ inheritedNames ∧ ∃ other, Spells entry.2 other ∧ other.op = .neq := by
  have only : ∀ other, Spells entry.2 other → other = ff :=
    fun other spelled => spelled.unique spells
  unfold matchesEntry readField Satisfied
  cases found : fields.lookup entry.1 with
  | some value =>
    rw [matchesFieldFilter_own]
    constructor
    · exact fun holds => Or.inl ⟨ff, value, spells, rfl, holds⟩
    · rintro (⟨other, _, spelled, same, holds⟩ | ⟨impossible, _⟩)
      · cases same
        exact only other spelled ▸ holds
      · cases impossible
  | none =>
    by_cases inherits : entry.1 ∈ inheritedNames
    · rw [if_pos inherits]
      rw [matchesFieldFilter_inherited]
      constructor
      · exact fun neq => Or.inr ⟨rfl, inherits, ff, spells, neq⟩
      · rintro (⟨_, _, _, impossible, _⟩ | ⟨_, _, other, spelled, neq⟩)
        · cases impossible
        · exact only other spelled ▸ neq
    · rw [if_neg inherits]
      constructor
      · intro impossible
        cases impossible
      · rintro (⟨_, _, _, impossible, _⟩ | ⟨_, inherited, _⟩)
        · cases impossible
        · exact absurd inherited inherits

theorem matchesRecord_normalized (normalized : normalizeFields before filter = .ok after) :
    matchesRecord toLowerCase fields after ↔ matchesRecord toLowerCase fields before ∧
        ∀ entry ∈ filter, Satisfied toLowerCase fields entry ∨ Slips toLowerCase fields entry := by
  induction filter generalizing before with
  | nil =>
    cases normalized
    simp
  | cons entry filter ih =>
    obtain ⟨field, value⟩ := entry
    obtain ⟨inner, isObject, continued⟩ := bind_ok_iff.mp normalized
    obtain ⟨ff, ffEq, others⟩ := bind_ok_iff.mp continued
    cases plainObject_ok_iff.mp isObject
    have spells := normalizeFieldFilter_spells ffEq
    rw [ih others, List.forall_mem_cons, ← and_assoc]
    refine and_congr_left fun _ => ?_
    unfold QueryFilter.assign
    split
    · next isPrototype =>
        have passes : Satisfied toLowerCase fields (field, object inner) ∨
            Slips toLowerCase fields (field, object inner) :=
          (Classical.em _).imp_right fun unsatisfied => ⟨unsatisfied, Or.inl isPrototype⟩
        exact (and_iff_left passes).symm
    · next notPrototype =>
        have asked : matchesRecord toLowerCase fields
            { before with fields := before.fields ++ [(field, ff)] } ↔
            matchesRecord toLowerCase fields before ∧
              matchesEntry toLowerCase fields (field, ff) := by
          simp [matchesRecord]
        rw [asked, matchesEntry_iff toLowerCase fields (field, object inner) spells]
        refine and_congr_right fun _ => ⟨?_, ?_⟩
        · rintro (satisfied | inherited)
          · exact Or.inl satisfied
          · exact (Classical.em _).imp_right fun unsatisfied => ⟨unsatisfied, Or.inr inherited⟩
        · exact Or.imp_right fun slips => slips.2.resolve_left notPrototype

/-- A normalized filter asks a record for every own key of the original one,
unless all that the record fails slips. -/
theorem filters_complete_iff (toLowerCase : JsonString → JsonString) (fields : FieldRecord)
    (accepted : validateFilter (object filter) = .ok after) :
    ((matchesRecord toLowerCase fields after ↔
        ∀ entry ∈ filter, Satisfied toLowerCase fields entry) ↔
      (∀ entry ∈ filter, ¬Slips toLowerCase fields entry) ∨
        ∃ entry ∈ filter, ¬Satisfied toLowerCase fields entry ∧
          ¬Slips toLowerCase fields entry) := by
  obtain ⟨_, _, accepted⟩ := bind_ok_iff.mp accepted
  obtain ⟨_, _, normalized⟩ := bind_ok_iff.mp accepted
  have empty : matchesRecord toLowerCase fields ⟨[], true⟩ := rfl
  rw [matchesRecord_normalized normalized, and_iff_right empty]
  constructor
  · intro complete
    by_cases noticed : ∃ entry ∈ filter, ¬Satisfied toLowerCase fields entry ∧
        ¬Slips toLowerCase fields entry
    · exact Or.inr noticed
    · refine Or.inl fun entry member slips => slips.1 (complete.mp ?_ entry member)
      intro other isOther
      by_contra neither
      exact noticed ⟨other, isOther, not_or.mp neither⟩
  · rintro (noSlip | ⟨entry, member, unsatisfied, noSlip⟩)
    · refine forall₂_congr fun entry member => ⟨?_, Or.inl⟩
      exact fun either => either.resolve_right (noSlip entry member)
    · refine ⟨fun either => ?_, fun all => absurd (all entry member) unsatisfied⟩
      exact absurd (either entry member) (not_or.mpr ⟨unsatisfied, noSlip⟩)

/-- `{ [key]: { op, value } }`. -/
def singleFilter (key : String) (op : FilterOp) (value : Json) : List (JsonString × Json) :=
  [(jsonString key, object [(jsonString "op", .string op.text), (jsonString "value", value)])]

theorem exists_normalized (filter : List (JsonString × Json)) (test : QueryFilter → Bool)
    (passed : (validateFilter (object filter)).toOption.any test) :
    ∃ normalized, validateFilter (object filter) = .ok normalized ∧ test normalized := by
  cases validated : validateFilter (object filter) with
  | error =>
    rw [validated] at passed
    cases passed
  | ok normalized =>
    rw [validated] at passed
    exact ⟨normalized, rfl, passed⟩

/-- `{ amount: { op: "gt", value: 100 } }` on a record with the amount 150. -/
theorem filters_complete_amount : ∃ normalized,
    validateFilter (object (singleFilter "amount" .gt (number (.ofInt 100)))) = .ok normalized ∧
      ((matchesRecord id [(jsonString "amount", .number (.ofInt 150))] normalized ↔
          ∀ entry ∈ singleFilter "amount" .gt (number (.ofInt 100)),
            Satisfied id [(jsonString "amount", .number (.ofInt 150))] entry) ↔
        (∀ entry ∈ singleFilter "amount" .gt (number (.ofInt 100)),
            ¬Slips id [(jsonString "amount", .number (.ofInt 150))] entry) ∨
          ∃ entry ∈ singleFilter "amount" .gt (number (.ofInt 100)),
            ¬Satisfied id [(jsonString "amount", .number (.ofInt 150))] entry ∧
              ¬Slips id [(jsonString "amount", .number (.ofInt 150))] entry) := by
  obtain ⟨normalized, accepted, _⟩ := exists_normalized
    (singleFilter "amount" .gt (number (.ofInt 100))) (fun _ => true) (by decide +kernel)
  exact ⟨normalized, accepted, filters_complete_iff id _ accepted⟩

/-- A record without fields passes a filter on a field that it inherits, and one
on the field `__proto__`. -/
theorem filters_slip : ∃ inherited dropped,
    validateFilter (object (singleFilter "constructor" .neq (.string (jsonString "x")))) =
        .ok inherited ∧ matchesRecord id [] inherited ∧
      ¬(∀ entry ∈ singleFilter "constructor" .neq (.string (jsonString "x")),
        Satisfied id [] entry) ∧
      validateFilter (object (singleFilter "__proto__" .eq (boolean true))) = .ok dropped ∧
      matchesRecord id [] dropped ∧
      ¬∀ entry ∈ singleFilter "__proto__" .eq (boolean true), Satisfied id [] entry := by
  obtain ⟨inherited, accepted, passes⟩ := exists_normalized
    (singleFilter "constructor" .neq (.string (jsonString "x"))) (matchesRecord id []) (by decide +kernel)
  obtain ⟨dropped, acceptedToo, passesToo⟩ := exists_normalized
    (singleFilter "__proto__" .eq (boolean true)) (matchesRecord id []) (by decide +kernel)
  have unsatisfied (entry : JsonString × Json) : ¬Satisfied id [] entry := by
    rintro ⟨_, _, _, found, _⟩
    cases found
  refine ⟨inherited, dropped, accepted, passes, ?_, acceptedToo, passesToo, ?_⟩
  · exact fun all => unsatisfied _ (all _ List.mem_cons_self)
  · exact fun all => unsatisfied _ (all _ List.mem_cons_self)

end P2PHub.PAL
