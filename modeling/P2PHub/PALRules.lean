import P2PHub.InsertionOrderedMap
import P2PHub.JsonFiles
import P2PHub.PluginFiles

/-!
# PAL rules

`validatePALRule` of `sdk/src/pal/types.ts` with `validateFilter` of
`sdk/src/query/filter.ts`.  A rule that was validated is valid again, as it is
and as it is read back from a file.
-/

namespace P2PHub.PAL

open Json ManifestSigning

inductive TriggerEvent
  | created
  | updated
  | deleted
  | observed
  deriving DecidableEq

inductive FilterOp
  | eq
  | neq
  | gt
  | gte
  | lt
  | lte
  | contains
  deriving DecidableEq

structure FieldFilter where
  op : FilterOp
  value : Json

/-- A filter, by its own properties.  A field of the name `__proto__` becomes
the prototype of the filter, which is no plain object then. -/
structure QueryFilter where
  fields : List (JsonString × FieldFilter)
  plain : Bool

structure PALTrigger where
  type : JsonString
  event : TriggerEvent

structure PALAction where
  skill : JsonString
  payload : List (JsonString × Json)

structure PALRule where
  id : JsonString
  name : JsonString
  trigger : PALTrigger
  filter : Option QueryFilter
  action : PALAction

inductive RuleFault
  | depth
  | keyCount
  | notObject
  | id
  | idLength
  | name
  | trigger
  | triggerType
  | triggerEvent
  | filter
  | filterField (field : JsonString)
  | filterOp (field : JsonString)
  | filterValue (field : JsonString) (op : FilterOp)
  | action
  | actionType
  | skill
  | payload
  | reservedKey
  deriving DecidableEq

def TriggerEvent.text : TriggerEvent → JsonString
  | created => jsonString "created"
  | updated => jsonString "updated"
  | deleted => jsonString "deleted"
  | observed => jsonString "observed"

def FilterOp.text : FilterOp → JsonString
  | eq => jsonString "eq"
  | neq => jsonString "neq"
  | gt => jsonString "gt"
  | gte => jsonString "gte"
  | lt => jsonString "lt"
  | lte => jsonString "lte"
  | contains => jsonString "contains"

def triggerEvent? (text : JsonString) : Option TriggerEvent :=
  [TriggerEvent.created, .updated, .deleted, .observed].find? fun event => event.text = text

def filterOp? (text : JsonString) : Option FilterOp :=
  [FilterOp.eq, .neq, .gt, .gte, .lt, .lte, .contains].find? fun op => op.text = text

def isJoiner (unit : UInt16) : Bool :=
  unit = 46 || unit = 95 || unit = 45

/-- `PAL_RULE_ID_RE` and `PAL_SKILL_RE`. -/
def isIdentifier : JsonString → Bool
  | [] => false
  | first :: rest => isAlphanumeric first && rest.all fun unit => isAlphanumeric unit || isJoiner unit

/-- `PAL_TRIGGER_TYPE_RE`. -/
def isTriggerType : JsonString → Bool
  | [] => false
  | first :: rest =>
    (isAlphanumeric first || first = 95) &&
      rest.all fun unit => isAlphanumeric unit || isJoiner unit

def ruleIdMaxLength : Nat := 60

def nameMaxLength : Nat := 200

def require (test : Bool) (fault : RuleFault) : Except RuleFault Unit :=
  if test then .ok () else .error fault

def plainObject (value : Option Json) (fault : RuleFault) :
    Except RuleFault (List (JsonString × Json)) :=
  match value with
  | some (object fields) => .ok fields
  | _ => .error fault

def checkedString (value : Option Json) (test : JsonString → Bool) (fault : RuleFault) :
    Except RuleFault JsonString :=
  match value with
  | some (string text) => if test text then .ok text else .error fault
  | _ => .error fault

def FilterOp.compares : FilterOp → Json → Bool
  | eq, value | neq, value =>
    match value with
    | string _ | number _ | negativeZero | boolean _ => true
    | _ => false
  | contains, value =>
    match value with
    | string _ => true
    | _ => false
  | gt, value | gte, value | lt, value | lte, value =>
    match value with
    | number (.finite _ _) | negativeZero => true
    | _ => false

def normalizeFieldFilter (field : JsonString) (ff : List (JsonString × Json)) :
    Except RuleFault FieldFilter :=
  match property ff "op" with
  | some (string text) =>
    match filterOp? text with
    | some op =>
      match property ff "value" with
      | some value =>
        if op.compares value then .ok ⟨op, value⟩ else .error (.filterValue field op)
      | none => .error (.filterValue field op)
    | none => .error (.filterOp field)
  | _ => .error (.filterOp field)

/-- `out[field] = ..`. -/
def QueryFilter.assign (filter : QueryFilter) (field : JsonString) (ff : FieldFilter) :
    QueryFilter :=
  if field = jsonString "__proto__" then { filter with plain := false }
  else { filter with fields := filter.fields ++ [(field, ff)] }

def normalizeFields : QueryFilter → List (JsonString × Json) → Except RuleFault QueryFilter
  | filter, [] => .ok filter
  | filter, (field, value) :: fields => do
      let ff ← plainObject (some value) (.filterField field)
      let normalized ← normalizeFieldFilter field ff
      normalizeFields (filter.assign field normalized) fields

def validateFilter (filter : Json) : Except RuleFault QueryFilter :=
  match filter with
  | null => .ok ⟨[], true⟩
  | object fields => do
      require filter.depthValid .depth
      require filter.keyCountValid .keyCount
      normalizeFields ⟨[], true⟩ fields
  | _ => .error .filter

def validateTrigger (value : Option Json) : Except RuleFault PALTrigger := do
  let trigger ← plainObject value .trigger
  let type ← checkedString (property trigger "type") isTriggerType .triggerType
  let event ← checkedString (property trigger "event") (fun text => (triggerEvent? text).isSome)
    .triggerEvent
  return ⟨type, (triggerEvent? event).getD .created⟩

def validateWhere : Option Json → Except RuleFault (Option QueryFilter)
  | none => .ok none
  | some filter => (validateFilter filter).map some

def validateAction (value : Option Json) : Except RuleFault PALAction := do
  let action ← plainObject value .action
  let _ ← checkedString (property action "type") (· = jsonString "propose_task") .actionType
  let skill ← checkedString (property action "skill") isIdentifier .skill
  let payload ← plainObject (property action "payload") .payload
  require (object payload).depthValid .depth
  require (object payload).keyCountValid .keyCount
  require (!isIn (jsonString "event") payload) .reservedKey
  return ⟨skill, payload⟩

def validatePALRule (input : Json) : Except RuleFault PALRule := do
  require input.depthValid .depth
  let fields ← plainObject (some input) .notObject
  require input.keyCountValid .keyCount
  let id ← checkedString (property fields "id") isIdentifier .id
  require (id.length ≤ ruleIdMaxLength) .idLength
  let name ← checkedString (property fields "name")
    (fun name => !name.isEmpty && name.length ≤ nameMaxLength) .name
  let trigger ← validateTrigger (property fields "trigger")
  let filter ← validateWhere (property fields "where")
  let action ← validateAction (property fields "action")
  return ⟨id, name, trigger, filter, action⟩

def FieldFilter.json (ff : FieldFilter) : Json :=
  object [(jsonString "op", string ff.op.text), (jsonString "value", ff.value)]

def filterField (field : JsonString × FieldFilter) : JsonString × Json :=
  (field.1, field.2.json)

def QueryFilter.json (filter : QueryFilter) : Json :=
  object (filter.fields.map filterField)

def PALTrigger.json (trigger : PALTrigger) : Json :=
  object [(jsonString "type", string trigger.type), (jsonString "event", string trigger.event.text)]

def PALAction.json (action : PALAction) : Json :=
  object [(jsonString "type", string (jsonString "propose_task")),
    (jsonString "skill", string action.skill), (jsonString "payload", object action.payload)]

/-- A rule as the object that it is, without the prototype of its filter. -/
def PALRule.json (rule : PALRule) : Json :=
  object ([(jsonString "id", string rule.id), (jsonString "name", string rule.name),
    (jsonString "trigger", rule.trigger.json)] ++
    rule.filter.toList.map (fun filter => (jsonString "where", filter.json)) ++
    [(jsonString "action", rule.action.json)])

def QueryFilter.own (filter : QueryFilter) : QueryFilter :=
  { filter with plain := true }

def PALRule.own (rule : PALRule) : PALRule :=
  { rule with filter := rule.filter.map QueryFilter.own }

structure QueryFilter.Valid (filter : QueryFilter) : Prop where
  keys : (filter.fields.map Prod.fst).Nodup
  noPrototype : jsonString "__proto__" ∉ filter.fields.map Prod.fst
  count : filter.fields.length ≤ maxKeyCount
  compares : ∀ field ∈ filter.fields, field.2.op.compares field.2.value = true

structure PALAction.Valid (action : PALAction) : Prop where
  skill : isIdentifier action.skill = true
  distinct : Distinct (object action.payload)
  depth : withinDepth 3 (object action.payload) = true
  keyCount : withinKeys 3 (object action.payload) = true
  reserved : isIn (jsonString "event") action.payload = false

/-- What every validated rule satisfies. -/
structure PALRule.Valid (rule : PALRule) : Prop where
  identifier : isIdentifier rule.id = true
  idLength : rule.id.length ≤ ruleIdMaxLength
  name : (!rule.name.isEmpty && rule.name.length ≤ nameMaxLength) = true
  type : isTriggerType rule.trigger.type = true
  filter : ∀ filter ∈ rule.filter, filter.Valid
  action : rule.action.Valid

section

variable {input : Json} {rule : PALRule} {fields : List (JsonString × Json)} {fault : RuleFault}
  {value : Option Json}

theorem bind_ok_iff {First Result : Type} {step : Except RuleFault First}
    {next : First → Except RuleFault Result} {result : Result} :
    step >>= next = .ok result ↔ ∃ first, step = .ok first ∧ next first = .ok result := by
  constructor
  · intro done
    cases step with
    | error => cases done
    | ok first => exact ⟨first, rfl, done⟩
  · rintro ⟨first, rfl, done⟩
    exact done

theorem require_ok_iff {test : Bool} {result : Unit} :
    require test fault = .ok result ↔ test := by
  cases test <;> simp [require]

theorem plainObject_ok_iff :
    plainObject value fault = .ok fields ↔ value = some (object fields) := by
  unfold plainObject
  split
  · next inner =>
      rw [Except.ok.injEq, Option.some.injEq, object.injEq]
  · next other =>
      constructor
      · intro failed
        cases failed
      · rintro rfl
        exact absurd rfl (other fields)

theorem checkedString_ok_iff {test : JsonString → Bool}
    {text : JsonString} : checkedString value test fault = .ok text ↔
      value = some (string text) ∧ test text := by
  unfold checkedString
  split
  · next inner =>
      rw [Option.some.injEq, string.injEq]
      constructor
      · intro checked
        split at checked
        · next passed =>
            cases checked
            exact ⟨rfl, passed⟩
        · cases checked
      · rintro ⟨rfl, passed⟩
        rw [if_pos passed]
  · next other =>
      constructor
      · intro failed
        cases failed
      · rintro ⟨rfl, _⟩
        exact absurd rfl (other text)

theorem property_mem {key : String} {value : Json} (found : property fields key = some value) :
    (jsonString key, value) ∈ fields := by
  obtain ⟨before, after, fieldsEq, _⟩ := List.lookup_eq_some_iff.mp found
  rw [fieldsEq]
  simp

theorem distinct_property {key : String} {value : Json} (distinct : Distinct (object fields))
    (found : property fields key = some value) : Distinct value := by
  cases distinct with
  | object _ each => exact each _ (property_mem found)

/-- What the loop over a filter has gathered. -/
structure Gathered (fields : List (JsonString × Json)) (before after : QueryFilter) : Prop where
  added : ∃ more, after.fields = before.fields ++ more ∧
    (more.map Prod.fst).Sublist (fields.map Prod.fst) ∧
    jsonString "__proto__" ∉ more.map Prod.fst ∧
    ∀ field ∈ more, field.2.op.compares field.2.value = true

theorem normalizeFieldFilter_compares {field : JsonString} {ff : FieldFilter}
    (normalized : normalizeFieldFilter field fields = .ok ff) : ff.op.compares ff.value := by
  unfold normalizeFieldFilter at normalized
  split at normalized
  · split at normalized
    · split at normalized
      · split at normalized
        · next compares =>
            cases normalized
            exact compares
        · cases normalized
      · cases normalized
    · cases normalized
  · cases normalized

theorem normalizeFields_gathered {before after : QueryFilter}
    (normalized : normalizeFields before fields = .ok after) : Gathered fields before after := by
  induction fields generalizing before with
  | nil =>
    cases normalized
    exact ⟨[], (List.append_nil _).symm, List.Sublist.refl _, List.not_mem_nil,
      List.forall_mem_nil _⟩
  | cons entry fields ih =>
    obtain ⟨field, value⟩ := entry
    obtain ⟨inner, _, normalized⟩ := bind_ok_iff.mp normalized
    obtain ⟨ff, ffEq, normalized⟩ := bind_ok_iff.mp normalized
    obtain ⟨more, moreEq, sublist, noPrototype, compares⟩ := (ih normalized).added
    unfold QueryFilter.assign at moreEq
    split at moreEq
    · exact ⟨more, moreEq, sublist.cons _, noPrototype, compares⟩
    · next plain =>
        refine ⟨(field, ff) :: more, ?_, sublist.cons_cons _, ?_, ?_⟩
        · rw [moreEq, List.append_assoc]
          rfl
        · rw [List.map_cons, List.mem_cons, not_or]
          exact ⟨Ne.symm plain, noPrototype⟩
        · exact List.forall_mem_cons.mpr ⟨normalizeFieldFilter_compares ffEq, compares⟩

theorem validateFilter_valid {filter : Json} {result : QueryFilter} (distinct : Distinct filter)
    (validated : validateFilter filter = .ok result) : result.Valid := by
  unfold validateFilter at validated
  split at validated
  · cases validated
    exact ⟨.nil, List.not_mem_nil, Nat.zero_le _, List.forall_mem_nil _⟩
  · next fields =>
      obtain ⟨_, _, validated⟩ := bind_ok_iff.mp validated
      obtain ⟨_, keyCount, validated⟩ := bind_ok_iff.mp validated
      obtain ⟨more, moreEq, sublist, noPrototype, compares⟩ :=
        (normalizeFields_gathered validated).added
      have count := (withinKeys_object.mp (require_ok_iff.mp keyCount)).2.1
      cases distinct with
      | object keys =>
        constructor
        · rw [moreEq]
          exact keys.sublist sublist
        · rw [moreEq]
          exact noPrototype
        · have shorter := sublist.length_le
          rw [List.length_map, List.length_map] at shorter
          rw [moreEq]
          exact Nat.le_trans shorter count
        · rw [moreEq]
          exact compares
  · cases validated

theorem validatePALRule_valid (distinct : Distinct input)
    (validated : validatePALRule input = .ok rule) : rule.Valid := by
  obtain ⟨_, depth, validated⟩ := bind_ok_iff.mp validated
  obtain ⟨fields, fieldsEq, validated⟩ := bind_ok_iff.mp validated
  obtain ⟨_, keyCount, validated⟩ := bind_ok_iff.mp validated
  obtain ⟨id, idEq, validated⟩ := bind_ok_iff.mp validated
  obtain ⟨_, idLength, validated⟩ := bind_ok_iff.mp validated
  obtain ⟨name, nameEq, validated⟩ := bind_ok_iff.mp validated
  obtain ⟨trigger, triggerEq, validated⟩ := bind_ok_iff.mp validated
  obtain ⟨filter, filterEq, validated⟩ := bind_ok_iff.mp validated
  obtain ⟨action, actionEq, validated⟩ := bind_ok_iff.mp validated
  cases validated
  cases plainObject_ok_iff.mp fieldsEq
  have shallow := (withinDepth_object.mp (require_ok_iff.mp depth)).2
  have small := (withinKeys_object.mp (require_ok_iff.mp keyCount)).2.2
  constructor
  · exact (checkedString_ok_iff.mp idEq).2
  · exact of_decide_eq_true (require_ok_iff.mp idLength)
  · exact (checkedString_ok_iff.mp nameEq).2
  · obtain ⟨inner, _, triggerEq⟩ := bind_ok_iff.mp triggerEq
    obtain ⟨type, typeEq, triggerEq⟩ := bind_ok_iff.mp triggerEq
    obtain ⟨event, _, triggerEq⟩ := bind_ok_iff.mp triggerEq
    cases triggerEq
    exact (checkedString_ok_iff.mp typeEq).2
  · intro result member
    unfold validateWhere at filterEq
    split at filterEq
    · cases filterEq
      cases member
    · next value found =>
        cases inner : validateFilter value with
        | error =>
          rw [inner] at filterEq
          cases filterEq
        | ok =>
          rw [inner] at filterEq
          cases filterEq
          cases member
          exact validateFilter_valid (distinct_property distinct found) inner
  · obtain ⟨inner, innerEq, actionEq⟩ := bind_ok_iff.mp actionEq
    obtain ⟨_, _, actionEq⟩ := bind_ok_iff.mp actionEq
    obtain ⟨skill, skillEq, actionEq⟩ := bind_ok_iff.mp actionEq
    obtain ⟨payload, payloadEq, actionEq⟩ := bind_ok_iff.mp actionEq
    obtain ⟨_, _, actionEq⟩ := bind_ok_iff.mp actionEq
    obtain ⟨_, _, actionEq⟩ := bind_ok_iff.mp actionEq
    obtain ⟨_, reserved, actionEq⟩ := bind_ok_iff.mp actionEq
    cases actionEq
    have found := plainObject_ok_iff.mp innerEq
    have foundPayload := plainObject_ok_iff.mp payloadEq
    have actionDistinct := distinct_property distinct found
    constructor
    · exact (checkedString_ok_iff.mp skillEq).2
    · exact distinct_property actionDistinct foundPayload
    · have actionShallow := shallow _ (property_mem found)
      exact (withinDepth_object.mp actionShallow).2 _ (property_mem foundPayload)
    · have actionSmall := small _ (property_mem found)
      exact (withinKeys_object.mp actionSmall).2.2 _ (property_mem foundPayload)
    · have free := require_ok_iff.mp reserved
      rwa [Bool.not_eq_true'] at free

end

section

variable {rule : PALRule} {filter : QueryFilter}

theorem triggerEvent?_text (event : TriggerEvent) : triggerEvent? event.text = some event := by
  cases event <;> decide

theorem filterOp?_text (op : FilterOp) : filterOp? op.text = some op := by
  cases op <;> decide

theorem normalizeFieldFilter_json {field : JsonString} {ff : FieldFilter}
    (compares : ff.op.compares ff.value) : normalizeFieldFilter field
      [(jsonString "op", string ff.op.text), (jsonString "value", ff.value)] = .ok ff := by
  have op : property [(jsonString "op", string ff.op.text), (jsonString "value", ff.value)] "op" =
      some (string ff.op.text) := rfl
  have value : property [(jsonString "op", string ff.op.text), (jsonString "value", ff.value)]
      "value" = some ff.value := rfl
  unfold normalizeFieldFilter
  simp only [op, value, filterOp?_text, if_pos compares]

theorem normalizeFields_json {fields : List (JsonString × FieldFilter)} (before : QueryFilter)
    (noPrototype : jsonString "__proto__" ∉ fields.map Prod.fst)
    (compares : ∀ field ∈ fields, field.2.op.compares field.2.value) :
    normalizeFields before (fields.map filterField) =
      .ok { before with fields := before.fields ++ fields } := by
  induction fields generalizing before with
  | nil => rw [List.append_nil]; rfl
  | cons entry fields ih =>
    obtain ⟨field, ff⟩ := entry
    obtain ⟨first, compares⟩ := List.forall_mem_cons.mp compares
    rw [List.map_cons, List.mem_cons, not_or] at noPrototype
    have assigned : before.assign field ff =
        { before with fields := before.fields ++ [(field, ff)] } :=
      if_neg (Ne.symm noPrototype.1)
    have later := ih (before.assign field ff) noPrototype.2 compares
    rw [assigned, List.append_assoc] at later
    refine bind_ok_iff.mpr ⟨_, rfl, bind_ok_iff.mpr ⟨ff, normalizeFieldFilter_json first, ?_⟩⟩
    rw [assigned]
    exact later

theorem withinDepth_compared {op : FilterOp} {value : Json} (compares : op.compares value)
    (depth : Nat) : withinDepth depth value ∧ withinKeys depth value := by
  cases value with
  | array | object => cases op <;> cases compares
  | _ => exact ⟨rfl, rfl⟩

theorem filter_within (valid : filter.Valid) (depth : Nat)
    (bounded : depth + 1 ≤ maxObjectDepth) : withinDepth depth filter.json ∧
      withinKeys depth filter.json := by
  have each : ∀ field ∈ filter.fields.map filterField,
      withinDepth (depth + 1) field.2 ∧ withinKeys (depth + 1) field.2 := by
    refine List.forall_mem_map.mpr fun field member => ?_
    obtain ⟨shallow, small⟩ :=
      withinDepth_compared (valid.compares field member) (depth + 1 + 1)
    constructor
    · exact withinDepth_object.mpr ⟨bounded, List.forall_mem_cons.mpr
        ⟨rfl, List.forall_mem_singleton.mpr shallow⟩⟩
    · exact withinKeys_object.mpr ⟨bounded, by simp [maxKeyCount], List.forall_mem_cons.mpr
        ⟨rfl, List.forall_mem_singleton.mpr small⟩⟩
  constructor
  · exact withinDepth_object.mpr ⟨by omega, fun field member => (each field member).1⟩
  · refine withinKeys_object.mpr ⟨by omega, ?_, fun field member => (each field member).2⟩
    rw [List.length_map]
    exact valid.count

theorem validateFilter_json (valid : filter.Valid) :
    validateFilter filter.json = .ok filter.own := by
  obtain ⟨shallow, small⟩ := filter_within valid 1 (by decide)
  refine bind_ok_iff.mpr ⟨(), require_ok_iff.mpr shallow,
    bind_ok_iff.mpr ⟨(), require_ok_iff.mpr small, ?_⟩⟩
  have gathered := normalizeFields_json ⟨[], true⟩ valid.noPrototype valid.compares
  exact gathered

theorem action_within {action : PALAction} (valid : action.Valid) :
    withinDepth 2 action.json ∧ withinKeys 2 action.json := by
  constructor
  · exact withinDepth_object.mpr ⟨by decide, List.forall_mem_cons.mpr ⟨rfl,
      List.forall_mem_cons.mpr ⟨rfl, List.forall_mem_singleton.mpr valid.depth⟩⟩⟩
  · exact withinKeys_object.mpr ⟨by decide, by simp [maxKeyCount], List.forall_mem_cons.mpr ⟨rfl,
      List.forall_mem_cons.mpr ⟨rfl, List.forall_mem_singleton.mpr valid.keyCount⟩⟩⟩

theorem validateAction_json {action : PALAction} (valid : action.Valid) :
    validateAction (some action.json) = .ok action := by
  have free : (!isIn (jsonString "event") action.payload) := by
    rw [valid.reserved]
    rfl
  refine bind_ok_iff.mpr ⟨_, rfl, bind_ok_iff.mpr ⟨_, rfl, bind_ok_iff.mpr ⟨action.skill, ?_,
    bind_ok_iff.mpr ⟨action.payload, rfl, bind_ok_iff.mpr ⟨(), ?_, bind_ok_iff.mpr ⟨(), ?_,
    bind_ok_iff.mpr ⟨(), require_ok_iff.mpr free, rfl⟩⟩⟩⟩⟩⟩⟩
  · exact checkedString_ok_iff.mpr ⟨rfl, valid.skill⟩
  · exact require_ok_iff.mpr (withinDepth_mono valid.distinct (by decide) valid.depth)
  · exact require_ok_iff.mpr (withinKeys_mono valid.distinct (by decide) valid.keyCount)

theorem validateTrigger_json {trigger : PALTrigger} (valid : isTriggerType trigger.type) :
    validateTrigger (some trigger.json) = .ok trigger := by
  have event : (triggerEvent? trigger.event.text).isSome := by
    rw [triggerEvent?_text]
    rfl
  refine bind_ok_iff.mpr ⟨_, rfl, bind_ok_iff.mpr ⟨trigger.type, ?_,
    bind_ok_iff.mpr ⟨trigger.event.text, ?_, ?_⟩⟩⟩
  · exact checkedString_ok_iff.mpr ⟨rfl, valid⟩
  · exact checkedString_ok_iff.mpr ⟨rfl, event⟩
  · rw [triggerEvent?_text]
    rfl

theorem rule_fields (rule : PALRule) : ∃ fields, rule.json = object fields ∧
    property fields "id" = some (string rule.id) ∧
    property fields "name" = some (string rule.name) ∧
    property fields "trigger" = some rule.trigger.json ∧
    property fields "where" = rule.filter.map QueryFilter.json ∧
    property fields "action" = some rule.action.json ∧ fields.length ≤ 5 ∧
    (fields.map Prod.fst).Nodup ∧ ∀ field ∈ fields, (∃ text, field.2 = string text) ∨ field.2 =
    rule.trigger.json ∨
      (∃ filter ∈ rule.filter, field.2 = filter.json) ∨ field.2 = rule.action.json := by
  obtain ⟨id, name, trigger, filter, action⟩ := rule
  have nodup : [jsonString "id", jsonString "name", jsonString "trigger", jsonString "where",
      jsonString "action"].Nodup := by
    decide
  cases filter with
  | none =>
    have nodup := nodup.sublist (.cons_cons _ (.cons_cons _ (.cons_cons _ (.cons _ (.refl _)))))
    refine ⟨_, rfl, rfl, rfl, rfl, rfl, rfl, by simp, nodup, ?_⟩
    simp
  | some =>
    refine ⟨_, rfl, rfl, rfl, rfl, rfl, rfl, by simp, nodup, ?_⟩
    simp

theorem rule_within (valid : rule.Valid) :
    rule.json.depthValid ∧ rule.json.keyCountValid := by
  obtain ⟨fields, ruleEq, _, _, _, _, _, count, _, each⟩ := rule_fields rule
  have within : ∀ field ∈ fields, withinDepth 2 field.2 ∧ withinKeys 2 field.2 := by
    intro field member
    rcases each field member with ⟨text, same⟩ | same | ⟨filter, present, same⟩ | same <;> rw [same]
    · exact ⟨rfl, rfl⟩
    · exact ⟨rfl, rfl⟩
    · exact filter_within (valid.filter filter present) _ (by decide)
    · exact action_within valid.action
  rw [ruleEq]
  constructor
  · exact withinDepth_object.mpr ⟨by decide, fun field member => (within field member).1⟩
  · exact withinKeys_object.mpr ⟨by decide, Nat.le_trans count (by decide),
      fun field member => (within field member).2⟩

/-- A validated rule is validated again as itself, but for the prototype of its
filter. -/
theorem validatePALRule_json (valid : rule.Valid) : validatePALRule rule.json = .ok rule.own := by
  obtain ⟨shallow, small⟩ := rule_within valid
  obtain ⟨fields, ruleEq, id, name, trigger, filter, action, _, _⟩ := rule_fields rule
  have filterOk : validateWhere (property fields "where") =
      .ok (rule.filter.map QueryFilter.own) := by
    rw [filter]
    cases present : rule.filter with
    | none => rfl
    | some inner =>
      have inner := validateFilter_json (valid.filter inner present)
      rw [Option.map_some, validateWhere, inner]
      rfl
  refine bind_ok_iff.mpr ⟨(), require_ok_iff.mpr shallow, bind_ok_iff.mpr ⟨fields,
    plainObject_ok_iff.mpr (congrArg some ruleEq), bind_ok_iff.mpr ⟨(),
    require_ok_iff.mpr small, bind_ok_iff.mpr ⟨rule.id,
    checkedString_ok_iff.mpr ⟨id, valid.identifier⟩, bind_ok_iff.mpr ⟨(),
    require_ok_iff.mpr (decide_eq_true valid.idLength), bind_ok_iff.mpr ⟨rule.name,
    checkedString_ok_iff.mpr ⟨name, valid.name⟩, bind_ok_iff.mpr ⟨rule.trigger, ?_,
    bind_ok_iff.mpr ⟨rule.filter.map QueryFilter.own, filterOk,
    bind_ok_iff.mpr ⟨rule.action, ?_, rfl⟩⟩⟩⟩⟩⟩⟩⟩⟩
  · rw [trigger]
    exact validateTrigger_json valid.type
  · rw [action]
    exact validateAction_json valid.action

end

variable {rule : PALRule} {filter : QueryFilter}

def FieldFilter.read (ff : FieldFilter) : FieldFilter :=
  { ff with value := fileForm ff.value }

def QueryFilter.read (filter : QueryFilter) : QueryFilter where
  fields := filter.fields.map fun field => (field.1, field.2.read)
  plain := true

def PALAction.read (action : PALAction) : PALAction :=
  { action with payload := action.payload.map fileFormField }

def PALRule.read (rule : PALRule) : PALRule :=
  { rule with filter := rule.filter.map QueryFilter.read, action := rule.action.read }

def QueryFilter.Finite (filter : QueryFilter) : Prop :=
  ∀ field ∈ filter.fields, field.2.value.Finite

structure PALRule.Finite (rule : PALRule) : Prop where
  filter : ∀ filter ∈ rule.filter, filter.Finite
  payload : (object rule.action.payload).Finite

theorem fileForm_filter (filter : QueryFilter) : fileForm filter.json = filter.read.json := by
  rw [QueryFilter.json, fileForm_object, List.map_map, QueryFilter.json, QueryFilter.read,
    List.map_map]
  rfl

theorem fileForm_rule (rule : PALRule) : fileForm rule.json = rule.read.json := by
  have trigger : fileForm rule.trigger.json = rule.trigger.json := by
    rfl
  have action : fileForm rule.action.json = rule.action.read.json := by
    rw [PALAction.json, fileForm_object, PALAction.json, List.map_cons, List.map_cons,
      List.map_singleton, fileFormField, fileFormField, fileFormField, fileForm_object]
    rfl
  rw [PALRule.json, fileForm_object, PALRule.json]
  simp only [List.map_append, List.map_cons, List.map_nil, fileFormField, trigger, action]
  cases filter : rule.filter with
  | none =>
    simp only [PALRule.read, filter]
    rfl
  | some =>
    simp only [PALRule.read, filter, Option.map_some, Option.toList_some, List.map_cons,
      List.map_nil, fileFormField, fileForm_filter]
    rfl

theorem compares_fileForm {op : FilterOp} {value : Json} (compares : op.compares value)
    (finite : value.Finite) : op.compares (fileForm value) := by
  cases finite with
  | array | object => cases op <;> cases compares
  | _ => cases op <;> exact compares

theorem QueryFilter.Valid.read (valid : filter.Valid)
    (finite : filter.Finite) : filter.read.Valid := by
  have keys : filter.read.fields.map Prod.fst = filter.fields.map Prod.fst := by
    rw [QueryFilter.read, List.map_map]
    rfl
  constructor
  · rw [keys]
    exact valid.keys
  · rw [keys]
    exact valid.noPrototype
  · rw [QueryFilter.read, List.length_map]
    exact valid.count
  · exact List.forall_mem_map.mpr fun field member =>
      compares_fileForm (valid.compares field member) (finite field member)

theorem PALRule.Valid.read (valid : rule.Valid) (finite : rule.Finite) : rule.read.Valid := by
  have payload : object rule.read.action.payload = fileForm (object rule.action.payload) :=
    (fileForm_object _).symm
  obtain ⟨skill, distinct, depth, keyCount, reserved⟩ := valid.action
  refine ⟨valid.identifier, valid.idLength, valid.name, valid.type, ?_, skill, ?_, ?_, ?_, ?_⟩
  · intro filter member
    obtain ⟨inner, present, rfl⟩ := Option.map_eq_some_iff.mp member
    exact (valid.filter inner present).read (finite.filter inner present)
  · rw [payload]
    exact distinct_fileForm distinct
  · rw [payload]
    exact withinDepth_fileForm distinct depth
  · rw [payload]
    exact withinKeys_fileForm distinct keyCount
  · rw [← reserved]
    unfold isIn
    rw [PALRule.read, PALAction.read, fileFormField_keys]

theorem validatePALRule_fileForm (valid : rule.Valid) (finite : rule.Finite) :
    validatePALRule (fileForm rule.json) = .ok rule.read := by
  rw [fileForm_rule, validatePALRule_json (valid.read finite)]
  congr 1
  cases filter : rule.filter with
  | none => simp only [PALRule.own, PALRule.read, filter, Option.map_none]
  | some =>
    simp only [PALRule.own, PALRule.read, filter, Option.map_some]
    rfl

theorem distinct_compared {op : FilterOp} {value : Json} (compares : op.compares value) :
    Distinct value := by
  cases value with
  | array | object => cases op <;> cases compares
  | null => exact .null
  | boolean value => exact .boolean value
  | number value => exact .number value
  | negativeZero => exact .negativeZero
  | string value => exact .string value

theorem distinct_filter (valid : filter.Valid) : Distinct filter.json := by
  refine .object ?_ (List.forall_mem_map.mpr fun field member => ?_)
  · rw [List.map_map]
    exact valid.keys
  · have value := distinct_compared (valid.compares field member)
    have keys : [jsonString "op", jsonString "value"].Nodup := by decide
    exact .object keys (List.forall_mem_cons.mpr ⟨.string _, List.forall_mem_singleton.mpr value⟩)

theorem finite_filter (finite : filter.Finite) : filter.json.Finite :=
  .object (List.forall_mem_map.mpr fun field member => .object (List.forall_mem_cons.mpr
    ⟨.string _, List.forall_mem_singleton.mpr (finite field member)⟩))

theorem distinct_rule (valid : rule.Valid) : Distinct rule.json := by
  obtain ⟨fields, ruleEq, _, _, _, _, _, _, keys, each⟩ := rule_fields rule
  rw [ruleEq]
  refine .object keys fun field member => ?_
  rcases each field member with ⟨text, same⟩ | same | ⟨filter, present, same⟩ | same <;> rw [same]
  · exact .string text
  · have keys : [jsonString "type", jsonString "event"].Nodup := by decide
    exact .object keys (List.forall_mem_cons.mpr ⟨.string _,
      List.forall_mem_singleton.mpr (.string _)⟩)
  · exact distinct_filter (valid.filter filter present)
  · have keys : [jsonString "type", jsonString "skill", jsonString "payload"].Nodup := by decide
    exact .object keys (List.forall_mem_cons.mpr ⟨.string _, List.forall_mem_cons.mpr
      ⟨.string _, List.forall_mem_singleton.mpr valid.action.distinct⟩⟩)

theorem finite_rule (finite : rule.Finite) : rule.json.Finite := by
  obtain ⟨fields, ruleEq, _, _, _, _, _, _, _, each⟩ := rule_fields rule
  rw [ruleEq]
  refine .object fun field member => ?_
  rcases each field member with ⟨text, same⟩ | same | ⟨filter, present, same⟩ | same <;> rw [same]
  · exact .string text
  · exact .object (List.forall_mem_cons.mpr ⟨.string _, List.forall_mem_singleton.mpr (.string _)⟩)
  · exact finite_filter (finite.filter filter present)
  · exact .object (List.forall_mem_cons.mpr ⟨.string _, List.forall_mem_cons.mpr
      ⟨.string _, List.forall_mem_singleton.mpr finite.payload⟩⟩)

theorem same_read (valid : rule.Valid) (finite : rule.Finite) : Same rule.read.json rule.json := by
  rw [← fileForm_rule]
  exact same_fileForm (finite_rule finite) (distinct_rule valid)

end P2PHub.PAL
