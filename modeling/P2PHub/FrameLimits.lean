import P2PHub.Binary64Order
import P2PHub.PeerDirectory
import P2PHub.ServerConnectionFrames

/-!
# The limit of a peer and the bytes of a frame

The size checks of `sendTask` and `withinPeerLimit` in
`plugins/network-light/src/network-light-provider.ts` and of `sendTask` in
`plugins/network-libp2p/src/network-libp2p-provider.ts` count UTF-16 code
units, the receiver's `tryDecodeFrame` bytes.
-/

namespace P2PHub.NetworkLight

open Utf16 Binary64

/-- Honor the peer's advertised `maxPayloadBytes` before sending a frame. -/
def Directory.withinPeerLimit (directory : Directory) (id frame : String) : Bool :=
  let limits := (directory.peerCapabilities.get id).bind PeerCapabilities.limits
  match limits.bind Limits.maxPayloadBytes with
  | none => true
  | some max => (ofInt (length frame.toList)).le max

/-- The `sendTask` of `network-libp2p`, from the verified binding to the frame
that it sends, or the text of what it throws. -/
def libp2pTaskFrame (body : HelloAckBody) (task : TaskBody) : Except String String :=
  match encodeTask task with
  | .ok (some taskFrame) =>
    match exceededLimit body taskFrame with
    | some limit => .error ("payload exceeds peer's limit (" ++ String.ofList limit.text ++ " bytes)")
    | none => .ok taskFrame
  | _ => .error "task payload is not JSON-serializable"

def byteLength (frame : String) : Nat :=
  (Utf8.encode frame.toList).length

/-- The number of bytes that a limit allows. -/
def allowedBytes (limit : Binary64) : Nat :=
  (limit.toRat?.getD 0).num.toNat

/-- The receiver's decoder refuses the size of the frame. -/
def RefusedForSize (frame : String) : Prop :=
  tryDecodeFrame (encodeFrame frame) = .error (payloadTooLarge (byteLength frame) maxPayloadBytes)

/-- A check of the sender passes what fits the limit, and no frame that the
receiver refuses for its size. -/
structure ChecksSize (passes : Prop) (frame : String) (limit : Binary64) : Prop where
  exact : passes ↔ byteLength frame ≤ allowedBytes limit
  accepted : passes → ¬RefusedForSize frame

/-- The longest string of the engine, `buffer.constants.MAX_STRING_LENGTH`. -/
def maxStringLength : Nat := 2 ^ 29 - 24

/-- The bytes of a character past one for each of its code units. -/
def extraBytes (char : Char) : Nat :=
  if char.toNat < 0x80 then 0 else if char.toNat < 0x800 then 1 else 2

/-- The frame has more code units than the limit allows, or the limits of the
peer and of the decoder have room for the extra bytes of its characters. -/
def RoomForBytes (frame : String) (limit : Binary64) : Prop :=
  let units := length frame.toList
  allowedBytes limit < units ∨
    units + (frame.toList.map extraBytes).sum ≤ min (allowedBytes limit) maxPayloadBytes

theorem length_utf8EncodeChar (char : Char) : (String.utf8EncodeChar char).length =
    (charUnits char).length + extraBytes char := by
  have codeEq : char.val.toNat = char.toNat := rfl
  rw [String.length_utf8EncodeChar, Char.utf8Size, charUnits, extraBytes]
  simp only [UInt32.le_iff_toNat_le, codeEq]
  split_ifs <;> simp_all <;> omega

theorem byteLength_eq (frame : String) : byteLength frame =
    length frame.toList + (frame.toList.map extraBytes).sum := by
  unfold byteLength length Utf8.encode units
  induction frame.toList with
  | nil => rfl
  | cons char text ih =>
    rw [List.flatMap_cons, List.length_append, ih, length_utf8EncodeChar, List.flatMap_cons,
      List.length_append, List.map_cons, List.sum_cons]
    omega

theorem extraBytes_le (text : List Char) : (text.map extraBytes).sum ≤ 2 * length text := by
  unfold length units
  induction text with
  | nil => rfl
  | cons char =>
    have head : extraBytes char ≤ 2 * (charUnits char).length := by
      unfold extraBytes charUnits
      split_ifs <;> simp
    rw [List.map_cons, List.sum_cons, List.flatMap_cons, List.length_append]
    omega

section

variable {limit : Binary64} {text : List Char}

theorem finite_of_positive (positive : isPositiveInt limit) :
    ∃ representable, limit = .finite (allowedBytes limit : ℚ) representable := by
  obtain ⟨whole, above⟩ := Bool.and_eq_true_iff.mp positive
  obtain ⟨value, representable, rfl⟩ := finite_of_isInteger whole
  have denEq : value.den = 1 := of_decide_eq_true whole
  rw [ofInt_of_safe (by decide)] at above
  have numPositive : 0 ≤ value.num :=
    Rat.num_nonneg.mpr (by simpa using (of_decide_eq_true above).le)
  have valueEq : (value.num.toNat : ℚ) = value := by
    calc (value.num.toNat : ℚ) = (value.num : ℚ) := by
          exact_mod_cast Int.toNat_of_nonneg numPositive
      _ = value := Rat.coe_int_num_of_den_eq_one denEq
  have counted : (allowedBytes (.finite value representable) : ℚ) = value := valueEq
  rw [counted]
  exact ⟨representable, rfl⟩

theorem finite_length (isString : length text ≤ maxStringLength) :
    ∃ representable, Binary64.ofInt (length text) = .finite (length text : ℚ) representable := by
  have safe : Binary64.Safe (length text) :=
    .of_nonneg (Int.natCast_nonneg _) (by unfold maxStringLength at isString; omega)
  exact ⟨_, Binary64.ofInt_of_safe safe⟩

variable (positive : isPositiveInt limit) (isString : length text ≤ maxStringLength)
include positive isString

theorem lt_length_iff :
    limit.lt (.ofInt (length text)) ↔ allowedBytes limit < length text := by
  obtain ⟨_, limitEq⟩ := finite_of_positive positive
  obtain ⟨_, lengthEq⟩ := finite_length isString
  rw [lengthEq, limitEq, lt, decide_eq_true_iff, Nat.cast_lt, ← limitEq]

theorem length_le_iff : (ofInt (length text)).le limit ↔ length text ≤ allowedBytes limit :=
    by
  obtain ⟨_, limitEq⟩ := finite_of_positive positive
  obtain ⟨_, lengthEq⟩ := finite_length isString
  rw [lengthEq, limitEq, le_finite, Nat.cast_le, ← limitEq]

end

section

variable {thrown : Thrown} {maxDepth : Nat}

theorem scanNesting_error {depth : Int} {mode : ScanMode} {raw : List Char}
    (failed : scanNesting maxDepth depth mode raw = .error thrown) :
    thrown = objectDepthExceeded maxDepth := by
  fun_induction scanNesting maxDepth depth mode raw <;> simp_all

mutual

theorem walkDepth_error {depth : Nat} : (value : JsValue) →
    walkDepth depth maxDepth value = .error thrown → thrown = objectDepthExceeded maxDepth
  | .array items, failed => by
    rw [walkDepth] at failed
    split at failed
    · cases failed
      rfl
    · exact walkItems_error items failed
  | .object fields, failed => by
    rw [walkDepth] at failed
    split at failed
    · cases failed
      rfl
    · exact walkFields_error fields failed
  | .cyclic, failed => by
    cases failed
    rfl
  | .undefined, failed | .null, failed | .boolean _, failed | .number _, failed
  | .string _, failed | .bigint, failed | .callable, failed | .exotic _, failed => by cases failed

theorem walkItems_error {depth : Nat} : (items : List JsValue) →
    walkItems depth maxDepth items = .error thrown → thrown = objectDepthExceeded maxDepth
  | [], failed => by cases failed
  | item :: items, failed => by
    rw [walkItems] at failed
    cases walked : walkDepth depth maxDepth item with
    | error =>
      rw [walked] at failed
      cases failed
      exact walkDepth_error item walked
    | ok =>
      rw [walked] at failed
      exact walkItems_error items failed

theorem walkFields_error {depth : Nat} : (fields : List (String × JsValue)) →
    walkFields depth maxDepth fields = .error thrown → thrown = objectDepthExceeded maxDepth
  | [], failed => by cases failed
  | (_, item) :: fields, failed => by
    rw [walkFields] at failed
    cases walked : walkDepth depth maxDepth item with
    | error =>
      rw [walked] at failed
      cases failed
      exact walkDepth_error item walked
    | ok =>
      rw [walked] at failed
      exact walkFields_error fields failed

end

theorem payloadTooLarge_ne (actual limit : Nat) :
    payloadTooLarge actual limit ≠ objectDepthExceeded maxDepth := by
  intro same
  have texts := congrArg String.toList (Thrown.error.inj same).1
  simp [String.toList_append] at texts

theorem decodeBody_small {body : List UInt8} (small : body.length ≤ maxPayloadBytes) (actual : Nat)
    :
    decodeBody body ≠ .error (payloadTooLarge actual maxPayloadBytes) := by
  intro failed
  rw [decodeBody, if_neg (not_lt.mpr small)] at failed
  simp only [bind, Except.bind, pure, Except.pure] at failed
  split at failed
  · next scanned =>
    cases failed
    exact payloadTooLarge_ne _ _ (scanNesting_error scanned)
  · split at failed
    · next parsed =>
      cases failed
      unfold parseOrThrow at parsed
      split at parsed
      · cases parsed
      · have texts := congrArg String.toList (Thrown.error.inj (Except.error.inj parsed)).1
        simp [String.toList_append] at texts
    · split at failed
      · next walked =>
        cases failed
        exact payloadTooLarge_ne _ _ (walkDepth_error _ walked)
      · cases failed

theorem refusedForSize_iff {frame : String} (isString : length frame.toList ≤ maxStringLength) :
    RefusedForSize frame ↔ maxPayloadBytes < byteLength frame := by
  have bytes := byteLength_eq frame
  have extra := extraBytes_le frame.toList
  have small : byteLength frame < 2 ^ 32 := by
    unfold maxStringLength at isString
    omega
  have decoded := tryDecodeFrame_lengthPrefixed small []
  rw [List.append_nil] at decoded
  rw [RefusedForSize, encodeFrame, decoded]
  by_cases large : maxPayloadBytes < byteLength frame
  · have tooLarge : (Utf8.encode frame.toList).length > maxPayloadBytes := large
    rw [decodeBody, if_pos tooLarge]
    exact iff_of_true rfl large
  · have kept := decodeBody_small (not_lt.mp large) (byteLength frame)
    cases body : decodeBody (Utf8.encode frame.toList) with
    | error =>
      rw [body] at kept
      exact iff_of_false (fun same => kept (congrArg _ (Except.error.inj same))) large
    | ok => exact iff_of_false (fun same => by cases same) large

end

variable {frame : String} {limit : Binary64}

theorem checksSize_iff (isString : length frame.toList ≤ maxStringLength) {passes : Prop}
    (counts : passes ↔ length frame.toList ≤ allowedBytes limit) :
    ChecksSize passes frame limit ↔ RoomForBytes frame limit := by
  have bytes := byteLength_eq frame
  have refused := refusedForSize_iff isString
  unfold RoomForBytes
  constructor
  · rintro ⟨exact, accepted⟩
    by_cases within : length frame.toList ≤ allowedBytes limit
    · have allowed := exact.mp (counts.mpr within)
      have small := mt refused.mpr (accepted (counts.mpr within))
      omega
    · exact .inl (not_le.mp within)
  · intro room
    constructor
    · rw [counts]
      omega
    · rw [counts, refused]
      omega

/-- For a limit that a peer advertises, each of the three checks goes by the
bytes of the frame exactly where there is room for them, as for a frame of ASCII
characters within the limit of the decoder. -/
theorem sizeChecks_exact (isString : length frame.toList ≤ maxStringLength)
    (positive : isPositiveInt limit) :
    (∀ (x : Exchange) (errand : Errand) (body : HelloAckBody),
      encodeTask errand.task = .ok (some frame) →
      body.limits.bind Limits.maxPayloadBytes = some limit →
        (ChecksSize ((x.prepare errand body).2 = .suspends) frame limit ↔
          RoomForBytes frame limit)) ∧
    (∀ (directory : Directory) (id : String), ((directory.peerCapabilities.get id).bind
        PeerCapabilities.limits).bind Limits.maxPayloadBytes = some limit →
      (ChecksSize (directory.withinPeerLimit id frame) frame limit ↔ RoomForBytes frame limit)) ∧
    ∀ (body : HelloAckBody) (task : TaskBody), encodeTask task = .ok (some frame) →
      body.limits.bind Limits.maxPayloadBytes = some limit →
        (ChecksSize (libp2pTaskFrame body task = .ok frame) frame limit ↔
          RoomForBytes frame limit) := by
  have exceeded : ∀ body : HelloAckBody, body.limits.bind Limits.maxPayloadBytes = some limit →
      (exceededLimit body frame = none ↔ length frame.toList ≤ allowedBytes limit) := by
    intro body advertised
    rw [exceededLimit, advertised, Option.filter_eq_none_iff]
    have above := not_congr (lt_length_iff positive isString)
    simpa using above
  refine ⟨?_, ?_, ?_⟩
  · intro x errand body encoded advertised
    apply checksSize_iff isString
    rw [← exceeded body advertised, Exchange.prepare, encoded]
    dsimp only
    cases exceededLimit body frame <;> simp
  · intro directory id advertised
    apply checksSize_iff isString
    rw [← length_le_iff positive isString, Directory.withinPeerLimit, advertised]
  · intro body task encoded advertised
    apply checksSize_iff isString
    rw [← exceeded body advertised, libp2pTaskFrame, encoded]
    dsimp only
    cases exceededLimit body frame <;> simp

theorem sizeChecks_exact_ascii : ChecksSize (Directory.withinPeerLimit
    ⟨.empty, OrderedMap.empty.set "peer" ⟨[], some ⟨some (.ofInt 4)⟩, none⟩⟩ "peer" "null")
      "null" (.ofInt 4) :=
  ((@sizeChecks_exact "null" (.ofInt 4) (by decide) (by decide +kernel)).2.1 _ _ rfl).mpr
    (.inr (by decide +kernel))

/-- A task of 104 code units and 105 bytes passes the limit of 104. -/
theorem accented_task_passes : let task : TaskBody := ⟨"é", "echo", .null⟩
    let frame := ((encodeTask task).toOption.bind id).getD ""
    encodeTask task = .ok (some frame) ∧ isPositiveInt (.ofInt 104) ∧
      libp2pTaskFrame ⟨.ofInt 1, [], some ⟨some (.ofInt 104)⟩, "00", ⟨"", "", ""⟩⟩ task =
        .ok frame ∧ allowedBytes (.ofInt 104) < byteLength frame := by
  decide +kernel

end P2PHub.NetworkLight
