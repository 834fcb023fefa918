import P2PHub.WireContract

/-!
# Round trip of the wire contract

Every message within the bounds of the contract survives its encoder and the
validator, and the validator accepts no message outside of these bounds.
-/

namespace P2PHub.NetworkLight

open JsValue

structure IdentityBinding.Bounded (identity : IdentityBinding) : Prop where
  peerId : isPeerId identity.peerId
  certFingerprint : isCertFingerprint identity.certFingerprint
  signature : isSignature identity.signature

structure HelloBody.Bounded (body : HelloBody) : Prop where
  someVersion : 0 < body.versions.length
  fewVersions : body.versions.length ≤ maxVersions
  versions : ∀ version ∈ body.versions, isPositiveInt version
  capabilities : body.capabilities.length ≤ maxCapabilities
  nonce : isNonce body.nonce
  instanceId : ∀ instanceId ∈ body.instanceId, isInstanceId instanceId
  listenPort : ∀ listenPort ∈ body.listenPort, isListenPort listenPort

structure Limits.Bounded (limits : Limits) : Prop where
  maxPayloadBytes : ∀ bytes ∈ limits.maxPayloadBytes, isPositiveInt bytes

structure HelloAckBody.Bounded (body : HelloAckBody) : Prop where
  version : isPositiveInt body.version
  capabilities : body.capabilities.length ≤ maxCapabilities
  limits : ∀ limits ∈ body.limits, limits.Bounded
  nonce : isNonce body.nonce
  identity : body.identity.Bounded

structure TaskBody.Bounded (isPayload : JsValue → Prop) (body : TaskBody) : Prop where
  id : nonEmpty body.id
  skill : nonEmpty body.skill
  payload : isPayload body.payload

structure ResultBody.Bounded (isPayload : JsValue → Prop) (body : ResultBody) : Prop where
  result : ∀ result ∈ body.result, isPayload result

structure SubReqBody.Bounded (body : SubReqBody) : Prop where
  subscriptionId : isSubscriptionId body.subscriptionId
  topic : isTopic body.topic
  ttlMs : ∀ ttlMs ∈ body.ttlMs, isPositiveInt ttlMs

structure SubAckBody.Bounded (body : SubAckBody) : Prop where
  subscriptionId : isSubscriptionId body.subscriptionId
  topic : isTopic body.topic
  reason : ∀ reason ∈ body.reason, isAckReason reason
  ttlMs : ∀ ttlMs ∈ body.ttlMs, isPositiveInt ttlMs

structure EventEmitBody.Bounded (isPayload : JsValue → Prop) (body : EventEmitBody) : Prop where
  subscriptionId : isSubscriptionId body.subscriptionId
  topic : isTopic body.topic
  publisherPeerId : isPeerId body.publisherPeerId
  timestamp : isPositiveInt body.timestamp
  sequenceNumber : isSequenceNumber body.sequenceNumber
  payload : isPayload body.payload

/-- The bounds that the contract sets for a message with payloads of a kind. -/
def WireEnvelope.Bounded (isPayload : JsValue → Prop) : WireEnvelope → Prop
  | hello body => body.Bounded
  | helloAck body => body.Bounded
  | task body => body.Bounded isPayload
  | result body => body.Bounded isPayload
  | auth body => body.Bounded
  | subReq body => body.Bounded
  | subAck body => body.Bounded
  | eventEmit body => body.Bounded isPayload

/-- The hints of a hello: a sender that has both of them sends them. -/
def HelloBody.hints (body : HelloBody) : Option HelloHints :=
  match body.instanceId, body.listenPort with
  | some instanceId, some listenPort => some { instanceId, listenPort }
  | _, _ => none

def WireEnvelope.encode : WireEnvelope → Except Thrown (Option String)
  | hello body => encodeHello body.versions body.capabilities body.nonce body.hints
  | helloAck body =>
    encodeHelloAck body.version body.capabilities body.limits body.nonce body.identity
  | task body => encodeTask body
  | result body => encodeResult body
  | auth body => encodeAuth body
  | subReq body => encodeSubReq body
  | subAck body => encodeSubAck body
  | eventEmit body => encodeEventEmit body

/-- What an encoder can write: the hints of a hello come together, and limits
without a limit are not written. -/
def WireEnvelope.Encodable : WireEnvelope → Prop
  | hello body => body.instanceId.isSome = body.listenPort.isSome
  | helloAck body => ∀ limits ∈ body.limits, limits.maxPayloadBytes.isSome
  | _ => True

section

/-- A message that the validator yields for the text of another one. -/
def WireEnvelope.DecodesTo (sent received : WireEnvelope) : Prop :=
  ∃ text value, sent.encode = .ok (some text) ∧ parseJson text.toList = some value ∧
    parseEnvelope value = some received

variable {α : Type} {fields : List (String × JsValue)}

variable {parse : JsValue → Option α} {value : JsValue} {message : WireEnvelope}

theorem of_mapM {holds : α → Prop}
    (each : ∀ item parsed, parse item = some parsed → holds parsed) {items : List JsValue}
    {values : List α} (parsed : items.mapM parse = some values) :
    values.length = items.length ∧ ∀ value ∈ values, holds value := by
  induction items generalizing values with
  | nil =>
    obtain rfl : [] = values := by simpa using parsed
    exact ⟨rfl, nofun⟩
  | cons item items ih =>
    simp only [List.mapM_cons, Option.bind_eq_bind, Option.bind_eq_some_iff, Option.pure_def,
      Option.some.injEq] at parsed
    obtain ⟨value, valueEq, others, othersEq, rfl⟩ := parsed
    obtain ⟨sameLength, othersHold⟩ := ih othersEq
    constructor
    · rw [List.length_cons, List.length_cons, sameLength]
    · intro other member
      rcases List.mem_cons.mp member with rfl | member
      · exact each item other valueEq
      · exact othersHold other member

theorem of_checkedNumber {check : Binary64 → Bool} {number : Binary64}
    (parsed : checkedNumber check value = some number) : check number := by
  rw [checkedNumber, Option.filter_eq_some_iff] at parsed
  exact parsed.2

theorem of_checkedString {check : String → Bool} {text : String}
    (parsed : checkedString check value = some text) : check text := by
  rw [checkedString, Option.filter_eq_some_iff] at parsed
  exact parsed.2

theorem of_optional {holds : α → Prop}
    (each : ∀ value parsed, parse value = some parsed → holds parsed)
    {field : Option α} (parsed : optional parse value = some field) :
    ∀ content ∈ field, holds content := by
  intro content member
  subst member
  unfold optional at parsed
  split at parsed
  · cases parsed
  · rw [Option.map_eq_some_iff] at parsed
    obtain ⟨found, foundEq, someEq⟩ := parsed
    obtain rfl : found = content := Option.some.inj someEq
    exact each value found foundEq

theorem of_intArray {maxLen : Nat} {numbers : List Binary64}
    (parsed : intArray? maxLen value = some numbers) :
    0 < numbers.length ∧ numbers.length ≤ maxLen ∧ ∀ number ∈ numbers, isPositiveInt number := by
  unfold intArray? at parsed
  split at parsed
  · split at parsed
    · next sized =>
        have checked : ∀ item number, checkedNumber isPositiveInt item = some number →
            isPositiveInt number := fun _ _ itemEq => of_checkedNumber itemEq
        obtain ⟨sameLength, each⟩ := of_mapM checked parsed
        rw [sameLength]
        exact ⟨sized.1, sized.2, each⟩
    · cases parsed
  · cases parsed

theorem of_stringArray {maxLen : Nat} {texts : List String}
    (parsed : stringArray? maxLen value = some texts) : texts.length ≤ maxLen := by
  unfold stringArray? at parsed
  split at parsed
  · split at parsed
    · next sized =>
        rw [(of_mapM (fun _ _ _ => trivial) parsed).1]
        exact sized
    · cases parsed
  · cases parsed

/-- What an object of a kind has for its properties is of that kind as well. -/
def Hereditary (isPayload : JsValue → Prop) : Prop :=
  ∀ fields, isPayload (.object fields) → ∀ field ∈ fields, isPayload field.2

theorem hereditary_isJson : Hereditary IsJson := by
  intro fields json
  cases json with
  | object _ _ each => exact each

variable {isPayload : JsValue → Prop}

section

variable (hereditary : Hereditary isPayload) (holds : isPayload (.object fields))
include hereditary holds

theorem Hereditary.lookup
    {key : String} (found : fields.lookup key = some value) : isPayload value := by
  obtain ⟨before, after, fieldsEq, _⟩ := List.lookup_eq_some_iff.mp found
  have member : (key, value) ∈ fields := by
    rw [fieldsEq]
    exact List.mem_append_right _ List.mem_cons_self
  exact hereditary fields holds _ member

theorem Hereditary.property {key : String}
    (defined : (property fields key).isUndefined = false) : isPayload (property fields key) := by
  unfold JsValue.property at defined ⊢
  cases found : fields.lookup key with
  | none =>
    rw [found] at defined
    cases defined
  | some value => exact hereditary.lookup holds found

end

theorem parseIdentityBinding_bounded {identity : IdentityBinding}
    (parsed : parseIdentityBinding value = some identity) : identity.Bounded := by
  unfold parseIdentityBinding at parsed
  split at parsed
  · simp only [Option.bind_eq_bind, Option.bind_eq_some_iff, Option.pure_def,
      Option.some.injEq] at parsed
    obtain ⟨peerId, peerIdEq, certFingerprint, fingerprintEq, signature, signatureEq, rfl⟩ := parsed
    exact ⟨of_checkedString peerIdEq, of_checkedString fingerprintEq, of_checkedString signatureEq⟩
  · cases parsed

theorem parseHello_bounded {body : HelloBody} (parsed : parseHello fields = some body) :
    body.Bounded := by
  simp only [parseHello, Option.bind_eq_bind, Option.bind_eq_some_iff, Option.pure_def,
    Option.some.injEq] at parsed
  obtain ⟨versions, versionsEq, capabilities, capabilitiesEq, nonce, nonceEq, instanceId,
    instanceIdEq, listenPort, listenPortEq, rfl⟩ := parsed
  obtain ⟨someVersion, fewVersions, positive⟩ := of_intArray versionsEq
  exact {
    someVersion
    fewVersions
    versions := positive
    capabilities := of_stringArray capabilitiesEq
    nonce := of_checkedString nonceEq
    instanceId := of_optional (fun _ _ idEq => of_checkedString idEq) instanceIdEq
    listenPort := of_optional (fun _ _ portEq => of_checkedNumber portEq) listenPortEq }

theorem parseLimits_bounded {limits : Limits}
    (parsed : parseLimits value = some limits) : limits.Bounded := by
  unfold parseLimits at parsed
  split at parsed
  · simp only [Option.bind_eq_bind, Option.bind_eq_some_iff, Option.pure_def,
      Option.some.injEq] at parsed
    obtain ⟨bytes, bytesEq, rfl⟩ := parsed
    exact ⟨of_optional (fun _ _ numberEq => of_checkedNumber numberEq) bytesEq⟩
  · cases parsed

theorem parseHelloAck_bounded {body : HelloAckBody} (parsed : parseHelloAck fields = some body) :
    body.Bounded := by
  simp only [parseHelloAck, Option.bind_eq_bind, Option.bind_eq_some_iff, Option.pure_def,
    Option.some.injEq] at parsed
  obtain ⟨version, versionEq, capabilities, capabilitiesEq, nonce, nonceEq, limits, limitsEq,
    identity, identityEq, rfl⟩ := parsed
  exact {
    version := of_checkedNumber versionEq
    capabilities := of_stringArray capabilitiesEq
    limits := of_optional (fun _ _ valueEq => parseLimits_bounded valueEq) limitsEq
    nonce := of_checkedString nonceEq
    identity := parseIdentityBinding_bounded identityEq }

section

variable (hereditary : Hereditary isPayload) (holds : isPayload (.object fields))
include hereditary holds

theorem parseTask_bounded
    {body : TaskBody} (parsed : parseTask fields = some body) : body.Bounded isPayload := by
  simp only [parseTask, Option.bind_eq_bind, Option.bind_eq_some_iff, Option.pure_def,
    Option.some.injEq] at parsed
  obtain ⟨id, idEq, skill, skillEq, payload, payloadEq, rfl⟩ := parsed
  exact ⟨of_checkedString idEq, of_checkedString skillEq, hereditary.lookup holds payloadEq⟩

theorem parseResult_bounded
    {body : ResultBody} (parsed : parseResult fields = some body) : body.Bounded isPayload := by
  simp only [parseResult, Option.bind_eq_bind, Option.bind_eq_some_iff, Option.pure_def,
    Option.some.injEq] at parsed
  obtain ⟨taskId, _, status, _, error, _, result, resultEq, rfl⟩ := parsed
  constructor
  intro content member
  subst member
  cases defined : (property fields "result").isUndefined with
  | true => simp [optional, defined] at resultEq
  | false =>
    obtain rfl : property fields "result" = content := by
      simpa [optional, defined] using resultEq
    exact hereditary.property holds defined

end

theorem parseSubReq_bounded {body : SubReqBody} (parsed : parseSubReq fields = some body) :
    body.Bounded := by
  simp only [parseSubReq, Option.bind_eq_bind, Option.bind_eq_some_iff, Option.pure_def,
    Option.some.injEq] at parsed
  obtain ⟨subscriptionId, idEq, topic, topicEq, action, _, ttlMs, ttlEq, rfl⟩ := parsed
  exact ⟨of_checkedString idEq, of_checkedString topicEq,
    of_optional (fun _ _ numberEq => of_checkedNumber numberEq) ttlEq⟩

theorem parseSubAck_bounded {body : SubAckBody} (parsed : parseSubAck fields = some body) :
    body.Bounded := by
  simp only [parseSubAck, Option.bind_eq_bind, Option.bind_eq_some_iff, Option.pure_def,
    Option.some.injEq] at parsed
  obtain ⟨subscriptionId, idEq, topic, topicEq, accepted, _, reason, reasonEq, ttlMs, ttlEq,
    rfl⟩ := parsed
  exact {
    subscriptionId := of_checkedString idEq
    topic := of_checkedString topicEq
    reason := of_optional (fun _ _ textEq => of_checkedString textEq) reasonEq
    ttlMs := of_optional (fun _ _ numberEq => of_checkedNumber numberEq) ttlEq }

variable (hereditary : Hereditary isPayload)
include hereditary

theorem parseEventEmit_bounded (holds : isPayload (.object fields))
    {body : EventEmitBody} (parsed : parseEventEmit fields = some body) : body.Bounded isPayload :=
    by
  simp only [parseEventEmit, Option.bind_eq_bind, Option.bind_eq_some_iff, Option.pure_def,
    Option.some.injEq] at parsed
  obtain ⟨subscriptionId, idEq, topic, topicEq, publisherPeerId, publisherEq, timestamp,
    timestampEq, sequenceNumber, sequenceEq, payload, payloadEq, rfl⟩ := parsed
  have payloadHolds : isPayload payload := by
    cases defined : (property fields "payload").isUndefined with
    | true => simp [present?, defined] at payloadEq
    | false =>
      obtain rfl : property fields "payload" = payload := by
        simpa [present?, defined] using payloadEq
      exact hereditary.property holds defined
  exact {
    subscriptionId := of_checkedString idEq
    topic := of_checkedString topicEq
    publisherPeerId := of_checkedString publisherEq
    timestamp := of_checkedNumber timestampEq
    sequenceNumber := of_checkedNumber sequenceEq
    payload := payloadHolds }

theorem parseBody_bounded (holds : isPayload (.object fields))
    {type : String} (parsed : parseBody type fields = some message) :
    message.Bounded isPayload := by
  unfold parseBody at parsed
  split at parsed <;> try rw [Option.map_eq_some_iff] at parsed
  · obtain ⟨body, bodyEq, rfl⟩ := parsed
    exact parseHello_bounded bodyEq
  · obtain ⟨body, bodyEq, rfl⟩ := parsed
    exact parseHelloAck_bounded bodyEq
  · obtain ⟨body, bodyEq, rfl⟩ := parsed
    exact parseTask_bounded hereditary holds bodyEq
  · obtain ⟨body, bodyEq, rfl⟩ := parsed
    exact parseIdentityBinding_bounded bodyEq
  · obtain ⟨body, bodyEq, rfl⟩ := parsed
    exact parseResult_bounded hereditary holds bodyEq
  · obtain ⟨body, bodyEq, rfl⟩ := parsed
    exact parseSubReq_bounded bodyEq
  · obtain ⟨body, bodyEq, rfl⟩ := parsed
    exact parseSubAck_bounded bodyEq
  · obtain ⟨body, bodyEq, rfl⟩ := parsed
    exact parseEventEmit_bounded hereditary holds bodyEq
  · cases parsed

theorem parseEnvelope_bounded (holds : isPayload value)
    (parsed : parseEnvelope value = some message) : message.Bounded isPayload := by
  unfold parseEnvelope at parsed
  split at parsed
  · next envelope =>
      split at parsed
      · split at parsed
        · next type body _ bodyEq =>
            have bodyHolds : isPayload (.object body) := by
              rw [← bodyEq]
              exact hereditary.property holds (by rw [bodyEq]; rfl)
            exact parseBody_bounded hereditary bodyHolds parsed
        · cases parsed
      · cases parsed
  · cases parsed

end

section

variable {α : Type} {key : String} {encode : α → JsValue} {value : Option α}
  {fields : List (String × JsValue)} {parse : JsValue → Option α} {number : Binary64}

@[simp] theorem lookup_optionalField_same :
    (optionalField key encode value).lookup key = value.map encode := by
  cases value <;> simp [optionalField]

theorem lookup_optionalField_other {other : String} (different : other ≠ key) :
    (optionalField key encode value).lookup other = none := by
  cases value <;> simp [optionalField, different]

theorem keys_append_optionalField {keys : List String}
    (sublist : (fields.map Prod.fst).Sublist keys) :
    ((fields ++ optionalField key encode value).map Prod.fst).Sublist (keys ++ [key]) := by
  rw [List.map_append]
  apply List.Sublist.append sublist
  cases value <;> simp [optionalField]

theorem isJson_optionalField (each : ∀ content ∈ value, IsJson (encode content)) :
    ∀ field ∈ optionalField key encode value, IsJson field.2 := by
  intro field member
  cases value with
  | none => cases member
  | some content =>
    obtain rfl : field = (key, encode content) := by simpa [optionalField] using member
    exact each content rfl

theorem optional_written (each : ∀ content ∈ value, parse (encode content) = some content)
    (defined : ∀ content ∈ value, (encode content).isUndefined = false) :
    optional parse ((value.map encode).getD .undefined) = some value := by
  cases value with
  | none => rfl
  | some content =>
    have parsed := each content rfl
    have notUndefined := defined content rfl
    simp [optional, parsed, notUndefined]

theorem finite_of_isInteger (whole : number.isInteger) :
    ∃ value representable, number = .finite value representable := by
  cases number with
  | finite value representable => exact ⟨value, representable, rfl⟩
  | infinite | nan => cases whole

theorem isInteger_of_positive (positive : isPositiveInt number) : number.isInteger :=
  (Bool.and_eq_true_iff.mp positive).1

theorem isInteger_of_sequenceNumber (sequence : isSequenceNumber number) : number.isInteger :=
  (Bool.and_eq_true_iff.mp sequence).1

theorem isInteger_of_listenPort (port : isListenPort number) : number.isInteger := by
  simp only [isListenPort, Bool.and_eq_true] at port
  exact port.1.1

theorem isJson_integer (whole : number.isInteger) : IsJson (jsonNumber number) := by
  obtain ⟨value, representable, rfl⟩ := finite_of_isInteger whole
  exact .number representable

theorem number?_integer (whole : number.isInteger) : number? (jsonNumber number) = some number := by
  obtain ⟨value, representable, rfl⟩ := finite_of_isInteger whole
  exact number?_jsonNumber representable

theorem checkedNumber_integer {check : Binary64 → Bool}
    (whole : number.isInteger) (checked : check number) :
    checkedNumber check (jsonNumber number) = some number := by
  rw [checkedNumber, number?_integer whole, Option.filter_some_pos checked]

theorem checkedNumber_positive (positive : isPositiveInt number) :
    checkedNumber isPositiveInt (jsonNumber number) = some number :=
  checkedNumber_integer (isInteger_of_positive positive) positive

theorem checkedString_string {check : String → Bool} {text : String} (checked : check text) :
    checkedString check (.string text) = some text := by
  rw [checkedString, string?, Option.filter_some_pos checked]

theorem isUndefined_jsonNumber (number : Binary64) : (jsonNumber number).isUndefined = false := by
  cases number <;> rfl

theorem isUndefined_of_isJson {content : JsValue} (json : IsJson content) :
    content.isUndefined = false := by
  cases json <;> rfl

theorem mapM_written {values : List α}
    (each : ∀ content ∈ values, parse (encode content) = some content) :
    (values.map encode).mapM parse = some values := by
  induction values with
  | nil => rfl
  | cons content values ih =>
    have parsed := each content List.mem_cons_self
    have others := ih fun other member => each other (List.mem_cons_of_mem _ member)
    simp [parsed, others]

theorem stringArray_jsonStrings {maxLen : Nat} {texts : List String}
    (bounded : texts.length ≤ maxLen) : stringArray? maxLen (jsonStrings texts) = some texts := by
  rw [jsonStrings, stringArray?, List.length_map, if_pos bounded]
  exact mapM_written fun _ _ => rfl

theorem isJson_jsonStrings (texts : List String) : IsJson (jsonStrings texts) := by
  refine .array fun item member => ?_
  obtain ⟨text, _, rfl⟩ := List.mem_map.mp member
  exact .string text

def PlainKeys (keys : List String) : Prop :=
  keys.Nodup ∧ keys.Pairwise fun key later => precedes key later

instance (keys : List String) : Decidable (PlainKeys keys) :=
  inferInstanceAs (Decidable (keys.Nodup ∧ keys.Pairwise fun key later => precedes key later))

theorem isJson_object {keys : List String}
    (sublist : (fields.map Prod.fst).Sublist keys) (plain : PlainKeys keys)
    (each : ∀ field ∈ fields, IsJson field.2) : IsJson (.object fields) :=
  .object (sublist.nodup plain.1) (plain.2.sublist sublist) each

theorem decodesTo_envelope {sent received : WireEnvelope} {type : String}
    {body : List (String × JsValue)} (written : sent.encode = stringify (envelope type body))
    (json : IsJson (.object body)) (parsed : parseBody type body = some received) :
    sent.DecodesTo received := by
  have version : networkProtocolVersion.isInteger := by decide +kernel
  have keys : PlainKeys ["protocol", "version", "type", "body"] := by decide
  have envelopeJson : IsJson (envelope type body) := by
    refine isJson_object (List.Sublist.refl _) keys ?_
    simp only [List.forall_mem_cons]
    exact ⟨.string _, isJson_integer version, .string _, json, nofun⟩
  obtain ⟨text, textEq, readBack⟩ := envelopeJson.parse_stringify
  refine ⟨text, _, written.trans textEq, readBack, ?_⟩
  simp [parseEnvelope, envelope, property, List.lookup_cons, string?, number?_integer version,
    parsed]

end

variable {identity : IdentityBinding} {limits : Option Limits}

theorem isJson_jsonIdentity (identity : IdentityBinding) :
    IsJson (.object (jsonIdentity identity)) := by
  have keys : PlainKeys ["peerId", "certFingerprint", "signature"] := by decide
  refine isJson_object (List.Sublist.refl _) keys ?_
  simp only [jsonIdentity, List.forall_mem_cons]
  exact ⟨.string _, .string _, .string _, nofun⟩

theorem parseIdentityBinding_written (bounded : identity.Bounded) :
    parseIdentityBinding (.object (jsonIdentity identity)) = some identity := by
  simp [parseIdentityBinding, jsonIdentity, property, List.lookup_cons,
    checkedString_string bounded.peerId, checkedString_string bounded.certFingerprint,
    checkedString_string bounded.signature]

theorem hints_fields {body : HelloBody}
    (together : body.instanceId.isSome = body.listenPort.isSome) :
    hintFields body.hints = optionalField "instanceId" .string body.instanceId ++
      optionalField "listenPort" jsonNumber body.listenPort := by
  unfold HelloBody.hints
  cases instanceEq : body.instanceId <;> cases portEq : body.listenPort <;>
    simp [instanceEq, portEq] at together
  · rfl
  · rfl

theorem hello_decodesTo {body : HelloBody} (bounded : body.Bounded)
    (together : body.instanceId.isSome = body.listenPort.isSome) :
    (WireEnvelope.hello body).DecodesTo (.hello body) := by
  have keys : PlainKeys ["versions", "capabilities", "nonce", "instanceId", "listenPort"] := by
    decide
  have versionsJson : IsJson (.array (body.versions.map jsonNumber)) := by
    refine .array fun item member => ?_
    obtain ⟨version, versionMember, rfl⟩ := List.mem_map.mp member
    exact isJson_integer (isInteger_of_positive (bounded.versions version versionMember))
  have versionsRead : intArray? maxVersions (.array (body.versions.map jsonNumber)) =
      some body.versions := by
    have sized := And.intro bounded.someVersion bounded.fewVersions
    rw [intArray?, List.length_map, if_pos sized]
    exact mapM_written fun version member =>
      checkedNumber_positive (bounded.versions version member)
  have portWhole : ∀ port ∈ body.listenPort, port.isInteger :=
    fun port member => isInteger_of_listenPort (bounded.listenPort port member)
  have written : (WireEnvelope.hello body).encode = stringify (envelope "hello"
      ([("versions", .array (body.versions.map jsonNumber)),
          ("capabilities", jsonStrings body.capabilities), ("nonce", .string body.nonce)] ++
        optionalField "instanceId" .string body.instanceId ++
        optionalField "listenPort" jsonNumber body.listenPort)) := by
    rw [WireEnvelope.encode, encodeHello, hints_fields together, List.append_assoc]
  refine decodesTo_envelope written (isJson_object (keys_append_optionalField
    (keys_append_optionalField (List.Sublist.refl _))) keys ?_) ?_
  · simp only [List.forall_mem_append, List.forall_mem_cons]
    exact ⟨⟨⟨versionsJson, isJson_jsonStrings _, .string _, nofun⟩,
      isJson_optionalField fun _ _ => .string _⟩,
      isJson_optionalField fun port member => isJson_integer (portWhole port member)⟩
  · have instanceId := optional_written
      (fun text member => checkedString_string (bounded.instanceId text member)) fun _ _ => rfl
    have listenPort := optional_written
      (fun port member => checkedNumber_integer (portWhole port member)
        (bounded.listenPort port member)) fun port _ => isUndefined_jsonNumber port
    change (parseHello _).map WireEnvelope.hello = some _
    simp [parseHello, property, List.lookup_cons, List.lookup_append,
      lookup_optionalField_other, versionsRead, stringArray_jsonStrings bounded.capabilities,
      checkedString_string bounded.nonce, instanceId, listenPort]

def jsonLimits (limits : Limits) : JsValue :=
  .object (optionalField "maxPayloadBytes" jsonNumber limits.maxPayloadBytes)

theorem limits_field (limited : ∀ present ∈ limits, present.maxPayloadBytes.isSome) :
    optionalField "limits" (fun bytes => .object [("maxPayloadBytes", jsonNumber bytes)])
      (limits.bind Limits.maxPayloadBytes) = optionalField "limits" jsonLimits limits := by
  cases limits with
  | none => rfl
  | some present =>
    obtain ⟨bytes, bytesEq⟩ := Option.isSome_iff_exists.mp (limited present rfl)
    simp [optionalField, jsonLimits, bytesEq]

theorem jsonLimits_written {limits : Limits} (bounded : limits.Bounded) :
    IsJson (jsonLimits limits) ∧ parseLimits (jsonLimits limits) = some limits := by
  have keys : PlainKeys ["maxPayloadBytes"] := by decide
  have whole : ∀ bytes ∈ limits.maxPayloadBytes, bytes.isInteger :=
    fun bytes member => isInteger_of_positive (bounded.maxPayloadBytes bytes member)
  constructor
  · have noFields : (([] : List (String × JsValue)).map Prod.fst).Sublist [] :=
      List.Sublist.refl _
    exact isJson_object (keys_append_optionalField noFields) keys
      (isJson_optionalField fun bytes member => isJson_integer (whole bytes member))
  · have maxPayloadBytes := optional_written
      (fun bytes member => checkedNumber_positive (bounded.maxPayloadBytes bytes member))
      fun bytes _ => isUndefined_jsonNumber bytes
    simp [parseLimits, jsonLimits, property, maxPayloadBytes]

theorem helloAck_decodesTo {body : HelloAckBody} (bounded : body.Bounded)
    (limited : ∀ limits ∈ body.limits, limits.maxPayloadBytes.isSome) :
    (WireEnvelope.helloAck body).DecodesTo (.helloAck body) := by
  have keys : PlainKeys ["version", "capabilities", "limits", "nonce", "identity"] := by
    decide
  have versionWhole := isInteger_of_positive bounded.version
  have written : (WireEnvelope.helloAck body).encode = stringify (envelope "hello_ack"
      ([("version", jsonNumber body.version), ("capabilities", jsonStrings body.capabilities)] ++
        optionalField "limits" jsonLimits body.limits ++
        [("nonce", .string body.nonce), ("identity", .object (jsonIdentity body.identity))])) := by
    rw [WireEnvelope.encode, encodeHelloAck, limits_field limited]
  refine decodesTo_envelope written (isJson_object ?_ keys ?_) ?_
  · rw [List.map_append]
    exact (keys_append_optionalField (List.Sublist.refl _)).append (List.Sublist.refl _)
  · simp only [List.forall_mem_append, List.forall_mem_cons]
    exact ⟨⟨⟨isJson_integer versionWhole, isJson_jsonStrings _, nofun⟩,
      isJson_optionalField fun limits member => (jsonLimits_written (bounded.limits limits member)).1⟩,
      .string _, isJson_jsonIdentity _, nofun⟩
  · have limits := optional_written
      (fun limits member => (jsonLimits_written (bounded.limits limits member)).2) fun _ _ => rfl
    change (parseHelloAck _).map WireEnvelope.helloAck = some _
    simp [parseHelloAck, property, List.lookup_cons, List.lookup_append,
      lookup_optionalField_other, stringArray_jsonStrings bounded.capabilities,
      checkedNumber_positive bounded.version, parseIdentityBinding_written bounded.identity,
      checkedString_string bounded.nonce, limits]

theorem task_decodesTo {body : TaskBody} (bounded : body.Bounded IsJson) :
    (WireEnvelope.task body).DecodesTo (.task body) := by
  have keys : PlainKeys ["id", "skill", "payload"] := by decide
  refine decodesTo_envelope rfl (isJson_object (List.Sublist.refl _) keys ?_) ?_
  · simp only [List.forall_mem_cons]
    exact ⟨.string _, .string _, bounded.payload, nofun⟩
  · change (parseTask _).map WireEnvelope.task = some _
    simp [parseTask, property, List.lookup_cons, checkedString_string bounded.id,
      checkedString_string bounded.skill]

theorem result_decodesTo {body : ResultBody} (bounded : body.Bounded IsJson) :
    (WireEnvelope.result body).DecodesTo (.result body) := by
  have keys : PlainKeys ["taskId", "status", "result", "error"] := by decide
  refine decodesTo_envelope rfl (isJson_object (keys_append_optionalField
    (keys_append_optionalField (List.Sublist.refl _))) keys ?_) ?_
  · simp only [List.forall_mem_append, List.forall_mem_cons]
    exact ⟨⟨⟨.string _, .string _, nofun⟩, isJson_optionalField bounded.result⟩,
      isJson_optionalField fun _ _ => .string _⟩
  · have status : taskStatus? (.string body.status.text) = some body.status := by
      cases body.status <;> rfl
    have result : optional some ((body.result.map id).getD .undefined) = some body.result :=
      optional_written (fun _ _ => rfl)
        fun content member => isUndefined_of_isJson (bounded.result content member)
    have error : optional string? ((body.error.map .string).getD .undefined) = some body.error :=
      optional_written (fun _ _ => rfl) fun _ _ => rfl
    rw [Option.map_id_fun, id] at result
    change (parseResult _).map WireEnvelope.result = some _
    simp [parseResult, property, List.lookup_cons, List.lookup_append,
      lookup_optionalField_other, string?, status, result, error]

theorem auth_decodesTo (bounded : identity.Bounded) :
    (WireEnvelope.auth identity).DecodesTo (.auth identity) := by
  apply decodesTo_envelope rfl (isJson_jsonIdentity identity)
  change (parseIdentityBinding _).map WireEnvelope.auth = some _
  simp [parseIdentityBinding_written bounded]

theorem subReq_decodesTo {body : SubReqBody} (bounded : body.Bounded) :
    (WireEnvelope.subReq body).DecodesTo (.subReq body) := by
  have keys : PlainKeys ["subscriptionId", "topic", "action", "ttlMs"] := by decide
  have ttlWhole : ∀ ttlMs ∈ body.ttlMs, ttlMs.isInteger :=
    fun ttlMs member => isInteger_of_positive (bounded.ttlMs ttlMs member)
  refine decodesTo_envelope rfl (isJson_object (keys_append_optionalField
    (List.Sublist.refl _)) keys ?_) ?_
  · simp only [List.forall_mem_append, List.forall_mem_cons]
    exact ⟨⟨.string _, .string _, .string _, nofun⟩,
      isJson_optionalField fun ttlMs member => isJson_integer (ttlWhole ttlMs member)⟩
  · have action : subscriptionAction? (.string body.action.text) = some body.action := by
      cases body.action <;> rfl
    have ttlMs := optional_written
      (fun ttlMs member => checkedNumber_positive (bounded.ttlMs ttlMs member))
      fun ttlMs _ => isUndefined_jsonNumber ttlMs
    change (parseSubReq _).map WireEnvelope.subReq = some _
    simp [parseSubReq, property, List.lookup_cons,
      checkedString_string bounded.subscriptionId, checkedString_string bounded.topic, action,
      ttlMs]

theorem subAck_decodesTo {body : SubAckBody} (bounded : body.Bounded) :
    (WireEnvelope.subAck body).DecodesTo (.subAck body) := by
  have keys : PlainKeys ["subscriptionId", "topic", "accepted", "reason", "ttlMs"] := by
    decide
  have ttlWhole : ∀ ttlMs ∈ body.ttlMs, ttlMs.isInteger :=
    fun ttlMs member => isInteger_of_positive (bounded.ttlMs ttlMs member)
  refine decodesTo_envelope rfl (isJson_object (keys_append_optionalField
    (keys_append_optionalField (List.Sublist.refl _))) keys ?_) ?_
  · simp only [List.forall_mem_append, List.forall_mem_cons]
    exact ⟨⟨⟨.string _, .string _, .boolean _, nofun⟩, isJson_optionalField fun _ _ => .string _⟩,
      isJson_optionalField fun ttlMs member => isJson_integer (ttlWhole ttlMs member)⟩
  · have reason := optional_written
      (fun reason member => checkedString_string (bounded.reason reason member)) fun _ _ => rfl
    have ttlMs := optional_written
      (fun ttlMs member => checkedNumber_positive (bounded.ttlMs ttlMs member))
      fun ttlMs _ => isUndefined_jsonNumber ttlMs
    change (parseSubAck _).map WireEnvelope.subAck = some _
    simp [parseSubAck, property, List.lookup_cons, List.lookup_append,
      lookup_optionalField_other, checkedString_string bounded.subscriptionId,
      checkedString_string bounded.topic, boolean?, reason, ttlMs]

theorem eventEmit_decodesTo {body : EventEmitBody} (bounded : body.Bounded IsJson) :
    (WireEnvelope.eventEmit body).DecodesTo (.eventEmit body) := by
  have keys : PlainKeys ["subscriptionId", "topic", "publisherPeerId", "timestamp",
      "sequenceNumber", "payload"] := by
    decide
  have sequenceWhole := isInteger_of_sequenceNumber bounded.sequenceNumber
  refine decodesTo_envelope rfl (isJson_object (List.Sublist.refl _) keys ?_) ?_
  · simp only [List.forall_mem_cons]
    exact ⟨.string _, .string _, .string _,
      isJson_integer (isInteger_of_positive bounded.timestamp), isJson_integer sequenceWhole,
      bounded.payload, nofun⟩
  · have payload : present? body.payload = some body.payload := by
      simp [present?, isUndefined_of_isJson bounded.payload]
    change (parseEventEmit _).map WireEnvelope.eventEmit = some _
    simp [parseEventEmit, property, List.lookup_cons,
      checkedString_string bounded.subscriptionId, checkedString_string bounded.topic,
      checkedString_string bounded.publisherPeerId, checkedNumber_positive bounded.timestamp,
      checkedNumber_integer sequenceWhole bounded.sequenceNumber, payload]

theorem decodesTo_self {message : WireEnvelope} (bounded : message.Bounded IsJson)
    (encodable : message.Encodable) : message.DecodesTo message := by
  cases message with
  | hello body => exact hello_decodesTo bounded encodable
  | helloAck body => exact helloAck_decodesTo bounded encodable
  | task body => exact task_decodesTo bounded
  | result body => exact result_decodesTo bounded
  | auth body => exact auth_decodesTo bounded
  | subReq body => exact subReq_decodesTo bounded
  | subAck body => exact subAck_decodesTo bounded
  | eventEmit body => exact eventEmit_decodesTo bounded

/-- Every message within the bounds that its encoder can write is read back as
itself, and whatever is read is within the bounds. -/
theorem wire_roundTrip : (∀ message : WireEnvelope, message.Bounded IsJson → message.Encodable →
      message.DecodesTo message) ∧ ∀ value message, parseEnvelope value = some message →
      message.Bounded (fun _ => True) ∧ (IsJson value → message.Bounded IsJson) := by
  constructor
  · intro message bounded encodable
    exact decodesTo_self bounded encodable
  · intro value message parsed
    have anyPayload : Hereditary fun _ => True := fun _ _ _ _ => trivial
    constructor
    · exact parseEnvelope_bounded anyPayload trivial parsed
    · intro json
      exact parseEnvelope_bounded hereditary_isJson json parsed

theorem wire_roundTrip_task :
    (WireEnvelope.task { id := "t1", skill := "calc:recalc", payload := .null }).DecodesTo
      (.task { id := "t1", skill := "calc:recalc", payload := .null }) :=
  wire_roundTrip.1 _ ⟨by decide, by decide, .null⟩ trivial

def ackIdentity : IdentityBinding where
  peerId := String.ofList (List.replicate 64 'a')
  certFingerprint := String.ofList (List.replicate 64 'b')
  signature := String.ofList (List.replicate 128 'c')

def ackWithLimits (limits : Option Limits) : HelloAckBody where
  version := networkProtocolVersion
  capabilities := ["calc:*"]
  limits
  nonce := "0a1b"
  identity := ackIdentity

theorem ackWithLimits_bounded
    (bounded : ∀ present ∈ limits, present.Bounded) : (ackWithLimits limits).Bounded := by
  have version : isPositiveInt networkProtocolVersion := by decide +kernel
  have capabilities : ["calc:*"].length ≤ maxCapabilities := by decide
  have nonce : isNonce "0a1b" := by decide
  have identity : ackIdentity.Bounded :=
    ⟨by decide, by decide +kernel, by decide +kernel⟩
  exact ⟨version, capabilities, bounded, nonce, identity⟩

/-- Limits without a limit are within the bounds, and are lost: the
acknowledgement is read back without limits, and so not as itself. -/
theorem empty_limits_lost : (WireEnvelope.helloAck (ackWithLimits (some ⟨none⟩))).Bounded IsJson ∧
    (WireEnvelope.helloAck (ackWithLimits (some ⟨none⟩))).DecodesTo
      (.helloAck (ackWithLimits none)) ∧
    ¬(WireEnvelope.helloAck (ackWithLimits (some ⟨none⟩))).DecodesTo
      (.helloAck (ackWithLimits (some ⟨none⟩))) := by
  have noBounds : ∀ limits ∈ (none : Option Limits), limits.Bounded := by simp
  have noneBounded : (ackWithLimits none).Bounded := ackWithLimits_bounded noBounds
  have noLimits : ∀ limits ∈ (none : Option Limits), limits.maxPayloadBytes.isSome := by simp
  have sameText : (WireEnvelope.helloAck (ackWithLimits (some ⟨none⟩))).encode =
      (WireEnvelope.helloAck (ackWithLimits none)).encode := by
    simp [WireEnvelope.encode, encodeHelloAck, ackWithLimits]
  obtain ⟨text, value, written, read, parsed⟩ := helloAck_decodesTo noneBounded noLimits
  rw [← sameText] at written
  refine ⟨ackWithLimits_bounded ?_, ⟨text, value, written, read, parsed⟩, ?_⟩
  · rintro _ ⟨⟩
    exact ⟨by simp⟩
  · rintro ⟨otherText, otherValue, otherWritten, otherRead, otherParsed⟩
    rw [written] at otherWritten
    obtain rfl : text = otherText := by simpa using otherWritten
    rw [read] at otherRead
    obtain rfl : value = otherValue := by simpa using otherRead
    rw [parsed] at otherParsed
    simp [ackWithLimits] at otherParsed

end P2PHub.NetworkLight
