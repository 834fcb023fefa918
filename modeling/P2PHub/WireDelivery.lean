import P2PHub.NetworkFrames
import P2PHub.WireContractRoundTrip

/-!
# Messages over a stream

What one side encodes and writes as frames, the other side reads as the same
messages, however the bytes were cut.
-/

namespace P2PHub.NetworkLight

/-- A message with its text, that of a JSON value which fits a frame. -/
structure Sendable (message : WireEnvelope) (text : String) : Prop where
  bounded : message.Bounded JsValue.IsJson
  encodable : message.Encodable
  written : message.encode = .ok (some text)
  fits : ∃ value, FitsFrame value text

variable {messages : List WireEnvelope} {texts : List String}

theorem exists_fitsFrame (sendable : List.Forall₂ Sendable messages texts) :
    ∃ values, List.Forall₂ FitsFrame values texts ∧
      values.map parseEnvelope = messages.map some := by
  induction sendable with
  | nil => exact ⟨[], .nil, rfl⟩
  | cons first _ ih =>
    obtain ⟨values, fit, others⟩ := ih
    obtain ⟨value, fits⟩ := first.fits
    obtain ⟨sent, received, sentEq, parsed, read⟩ :=
      decodesTo_self first.bounded first.encodable
    obtain rfl := Option.some.inj (Except.ok.inj (first.written.symm.trans sentEq))
    obtain ⟨other, otherEq, parsedOther⟩ := fits.json.parse_stringify
    obtain rfl := Option.some.inj (Except.ok.inj (fits.written.symm.trans otherEq))
    obtain rfl := Option.some.inj (parsedOther.symm.trans parsed)
    exact ⟨value :: values, .cons fits fit, by rw [List.map_cons, read, others, List.map_cons]⟩

end P2PHub.NetworkLight
