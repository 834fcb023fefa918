import P2PHub.BoundaryGuardNesting
import P2PHub.FrameStreams
import P2PHub.Utf8Text

/-!
# Frames of the network transport

`encodeFrame`, `tryDecodeFrame` and the loop of the data handlers in
`plugins/network-light/src/network-light-provider.ts`.  What a stream of frames
yields does not depend on how the stream was cut into chunks.
-/

namespace P2PHub.NetworkLight

open JsValue FrameDecoder NetworkLight Utf8

/-- `encodeFrame` of a text. -/
def encodeFrame (payload : String) : List UInt8 :=
  lengthPrefixed (encode payload.toList)

def frameTooLarge (length : Nat) : Thrown :=
  .error ("frame exceeds maximum allowed size (" ++ toString length ++ " > " ++
    toString maxPayloadBytes ++ ")") none

/-- `JSON.parse`.  The message of its error is the engine's and is not told
apart. -/
def parseOrThrow (raw : List Char) : Except Thrown JsValue :=
  match parseJson raw with
  | some value => .ok value
  | none => .error (.error "SyntaxError" none)

def decodeBody (body : List UInt8) : Except Thrown JsValue := do
  if body.length > maxPayloadBytes then .error (payloadTooLarge body.length maxPayloadBytes)
  let raw := decode body
  validateJsonNestingDepth raw
  let value ← parseOrThrow raw
  validateObjectDepth value
  return value

/-- A complete frame, nothing when more bytes are needed, or the error of an
invalid one. -/
def tryDecodeFrame (buffer : List UInt8) : Except Thrown (Option (JsValue × List UInt8)) :=
  if buffer.length < 4 then .ok none
  else
    let length := readUInt32BE buffer
    if buffer.length < 4 + length then
      if length > maxPayloadBytes then .error (frameTooLarge length) else .ok none
    else (decodeBody (framePayload buffer)).map fun value => some (value, frameRest buffer)

section

variable {buffer : List UInt8}

theorem tryDecodeFrame_cases (buffer : List UInt8) : (tryDecodeFrame buffer = .ok none) ∨
    (∀ more, ∃ thrown, tryDecodeFrame (buffer ++ more) = .error thrown) ∨
    (∃ value, (frameRest buffer).length < buffer.length ∧
      ∀ more, tryDecodeFrame (buffer ++ more) = .ok (some (value, frameRest buffer ++ more))) := by
  by_cases header : buffer.length < 4
  · exact .inl (if_pos header)
  · have lengthEq := readUInt32BE_append (not_lt.mp header)
    have headerMore : ∀ more, ¬(buffer ++ more).length < 4 := by
      intro more
      rw [List.length_append]
      omega
    by_cases incomplete : buffer.length < 4 + readUInt32BE buffer
    · by_cases large : readUInt32BE buffer > maxPayloadBytes
      · -- an oversized frame is refused early, and again when it is complete
        refine .inr (.inl fun more => ?_)
        rw [tryDecodeFrame, if_neg (headerMore more)]
        rw [← lengthEq more] at large
        by_cases complete : (buffer ++ more).length < 4 + readUInt32BE (buffer ++ more)
        · exact ⟨_, by rw [if_pos complete, if_pos large]⟩
        · have tooLarge : (framePayload (buffer ++ more)).length > maxPayloadBytes := by
            rw [framePayload_length (not_lt.mp complete)]
            exact large
          exact ⟨_, by rw [if_neg complete, decodeBody, if_pos tooLarge]; rfl⟩
      · exact .inl (by rw [tryDecodeFrame, if_neg header, if_pos incomplete, if_neg large])
    · have complete := not_lt.mp incomplete
      have decoded : ∀ more, tryDecodeFrame (buffer ++ more) =
          (decodeBody (framePayload buffer)).map fun value =>
            some (value, frameRest buffer ++ more) := by
        intro more
        rw [tryDecodeFrame, if_neg (headerMore more), lengthEq more,
          if_neg (by rw [List.length_append]; omega), framePayload_append complete,
          frameRest_append complete]
      cases body : decodeBody (framePayload buffer) with
      | error thrown =>
        refine .inr (.inl fun more => ⟨thrown, ?_⟩)
        rw [decoded more, body]
        rfl
      | ok value =>
        refine .inr (.inr ⟨value, frameRest_length complete, fun more => ?_⟩)
        rw [decoded more, body]
        rfl

def frameDecoder : FrameDecoder UInt8 JsValue Thrown where
  decode := tryDecodeFrame
  consumes := by
    intro buffer value rest decoded
    rcases tryDecodeFrame_cases buffer with none | fails | ⟨other, shorter, decodes⟩
    · cases none.symm.trans decoded
    · obtain ⟨thrown, failed⟩ := fails []
      rw [List.append_nil] at failed
      cases failed.symm.trans decoded
    · have decodesHere := decodes []
      rw [List.append_nil, List.append_nil, decoded] at decodesHere
      obtain ⟨rfl, rfl⟩ : value = other ∧ rest = frameRest buffer := by simpa using decodesHere
      exact shorter
  decode_append := by
    intro buffer value rest more decoded
    rcases tryDecodeFrame_cases buffer with none | fails | ⟨other, _, decodes⟩
    · cases none.symm.trans decoded
    · obtain ⟨thrown, failed⟩ := fails []
      rw [List.append_nil] at failed
      cases failed.symm.trans decoded
    · have decodesHere := decodes []
      rw [List.append_nil, List.append_nil, decoded] at decodesHere
      obtain ⟨rfl, rfl⟩ : value = other ∧ rest = frameRest buffer := by simpa using decodesHere
      exact decodes more
  fails_append := by
    intro buffer thrown more decoded
    rcases tryDecodeFrame_cases buffer with none | fails | ⟨other, _, decodes⟩
    · cases none.symm.trans decoded
    · exact fails more
    · rw [← List.append_nil buffer, decodes] at decoded
      cases decoded

def collect (values : List JsValue) (value : JsValue) : List JsValue × Option Thrown :=
  (values ++ [value], none)

/-- The loop of the data handlers: append the chunk, take the complete frames
and keep the rest; an error closes the connection. -/
def receiveFrames (chunks : List (List UInt8)) : Drained UInt8 (List JsValue) Thrown :=
  frameDecoder.feedAll collect [] chunks

theorem waiting_nil : frameDecoder.decode [] = .ok none :=
  rfl

theorem drain_collect (before values : List JsValue) (bytes : List UInt8) :
    frameDecoder.drain collect (before ++ values) bytes =
      { frameDecoder.drain collect values bytes with
        state := before ++ (frameDecoder.drain collect values bytes).state } := by
  apply drain_induction frameDecoder collect _ _ _ _ values bytes
  · intro state bytes decoded
    rw [drain_more decoded, drain_more decoded]
  · intro state bytes thrown decoded
    rw [drain_fails decoded, drain_fails decoded]
  · intro state bytes value rest next thrown _ consumed
    cases consumed
  · intro state bytes value rest next decoded consumed ih
    obtain rfl : state ++ [value] = next := congrArg Prod.fst consumed
    have collected : collect (before ++ state) value = (before ++ (state ++ [value]), none) := by
      rw [collect, List.append_assoc]
    rw [drain_continues decoded consumed, drain_continues decoded collected]
    exact ih

theorem drain_frame {bytes rest : List UInt8} {value : JsValue}
    (decoded : tryDecodeFrame bytes = .ok (some (value, rest))) :
    frameDecoder.drain collect [] bytes = { frameDecoder.drain collect [] rest with
        state := value :: (frameDecoder.drain collect [] rest).state } := by
  have continued : frameDecoder.drain collect [] bytes =
      frameDecoder.drain collect ([value] ++ []) rest :=
    drain_continues decoded rfl
  rw [continued, drain_collect]
  rfl

end

/-- A JSON value whose text fits a frame and which is not too deep. -/
structure FitsFrame (value : JsValue) (text : String) : Prop where
  json : IsJson value
  written : stringify value = .ok (some text)
  shallow : validateObjectDepth value = .ok ()
  small : (encode text.toList).length ≤ maxPayloadBytes

variable {value : JsValue} {text : String}

theorem FitsFrame.decodeBody (fits : FitsFrame value text) :
    decodeBody (encode text.toList) = .ok value := by
  obtain ⟨parsedText, writtenText, parsed⟩ := fits.json.parse_stringify
  obtain rfl : parsedText = text := by simpa [writtenText] using fits.written
  have nested := validateJsonNestingDepth_stringify fits.json fits.written fits.shallow
  have parsedEq : parseOrThrow parsedText.toList = .ok value := by
    rw [parseOrThrow, parsed]
  rw [decodeBody, if_neg (not_lt.mpr fits.small)]
  simp only [decode_encode, nested, parsedEq, bind, Except.bind, fits.shallow, pure, Except.pure]

theorem FitsFrame.tryDecodeFrame (fits : FitsFrame value text) (rest : List UInt8) :
    NetworkLight.tryDecodeFrame (encodeFrame text ++ rest) = .ok (some (value, rest)) := by
  have small : (encode text.toList).length < 2 ^ 32 :=
    Nat.lt_of_le_of_lt fits.small (by decide)
  have lengthEq := readUInt32BE_lengthPrefixed small rest
  have total : (lengthPrefixed (encode text.toList) ++ rest).length =
      4 + (encode text.toList).length + rest.length := by
    rw [List.length_append, lengthPrefixed_length]
  rw [encodeFrame, NetworkLight.tryDecodeFrame, if_neg (by omega), lengthEq, if_neg (by omega),
    framePayload_lengthPrefixed small, frameRest_lengthPrefixed small, fits.decodeBody]
  rfl

theorem drain_encoded {values : List JsValue} {texts : List String}
    (fits : List.Forall₂ FitsFrame values texts) (before : List JsValue) :
    frameDecoder.drain collect before (texts.flatMap encodeFrame) = ⟨before ++ values, [], none⟩ :=
      by
  induction fits generalizing before with
  | nil =>
    rw [List.append_nil]
    exact drain_more rfl
  | @cons value text values texts fit _ ih =>
    have continued : frameDecoder.drain collect before
        (encodeFrame text ++ texts.flatMap encodeFrame) =
          frameDecoder.drain collect (before ++ [value]) (texts.flatMap encodeFrame) :=
      drain_continues (fit.tryDecodeFrame _) rfl
    rw [List.flatMap_cons, continued, ih, List.append_assoc]
    rfl

/-- Whatever the chunks, the frames of a list of values yield these values and
leave nothing behind, and what any byte stream yields before its first error
depends on the bytes alone. -/
theorem framing_ignores_fragmentation :
    (∀ (values : List JsValue) (texts : List String) (chunks : List (List UInt8)),
      List.Forall₂ FitsFrame values texts → chunks.flatten = texts.flatMap encodeFrame →
        receiveFrames chunks = ⟨values, [], none⟩) ∧
    ∀ chunks others : List (List UInt8), chunks.flatten = others.flatten →
      Agree (receiveFrames chunks) (receiveFrames others) := by
  constructor
  · intro values texts chunks fits cut
    have agree := feedAll_agrees collect waiting_nil [] chunks
    rw [cut, drain_encoded fits []] at agree
    exact agree.eq rfl
  · intro chunks others same
    have first := feedAll_agrees collect waiting_nil [] chunks
    have second := feedAll_agrees collect waiting_nil [] others
    rw [← same] at second
    exact first.trans second.symm

/-- A frame whose header and whose two-byte character are cut. -/
theorem framing_ignores_fragmentation_cut :
    receiveFrames [[0, 0], [0, 4, 34, 195], [], [169, 34]] = ⟨[.string "é"], [], none⟩ := by
  refine framing_ignores_fragmentation.1 [.string "é"] ["\"é\""] _
    (.cons ⟨.string "é", ?_, rfl, ?_⟩ .nil) ?_
  · rw [stringify]
    congr 2
  · decide +kernel
  · decide +kernel

end P2PHub.NetworkLight
