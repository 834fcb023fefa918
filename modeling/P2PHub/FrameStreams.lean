import Mathlib.Algebra.Group.Nat.Defs
import Mathlib.Data.List.Basic

/-!
# Decoding a stream of frames piece by piece

A decoder takes one frame from the front of what has arrived, asks for more, or
fails; a consumer takes the frames and may stop the stream.  How the stream was
cut into pieces makes no difference to the consumer.
-/

namespace P2PHub

/-- A decoder whose answer is not changed by what arrives later. -/
structure FrameDecoder (β α ε : Type) where
  decode : List β → Except ε (Option (α × List β))
  consumes : ∀ {bytes value rest}, decode bytes = .ok (some (value, rest)) →
    rest.length < bytes.length
  decode_append : ∀ {bytes value rest} (more), decode bytes = .ok (some (value, rest)) →
    decode (bytes ++ more) = .ok (some (value, rest ++ more))
  fails_append : ∀ {bytes error} (more), decode bytes = .error error →
    ∃ error, decode (bytes ++ more) = .error error

/-- What a stream left behind: the state of the consumer, the bytes that were
not decoded, and why the stream stopped. -/
structure Drained (β σ ε : Type) where
  state : σ
  rest : List β
  stopped : Option ε

namespace FrameDecoder

variable {β α ε σ : Type}

section

variable (decoder : FrameDecoder β α ε) (consume : σ → α → σ × Option ε)

def drainFuel : Nat → σ → List β → Drained β σ ε
  | 0, state, bytes => ⟨state, bytes, none⟩
  | fuel + 1, state, bytes =>
    match decoder.decode bytes with
    | .error error => ⟨state, bytes, some error⟩
    | .ok none => ⟨state, bytes, none⟩
    | .ok (some (value, rest)) =>
      match consume state value with
      | (state, some error) => ⟨state, rest, some error⟩
      | (state, none) => drainFuel fuel state rest

/-- Take frames until more bytes are needed or the stream stops.  Every frame
takes at least one byte. -/
def drain (state : σ) (bytes : List β) : Drained β σ ε :=
  decoder.drainFuel consume (bytes.length + 1) state bytes

/-- What has arrived is kept until the next piece comes. -/
def feed (drained : Drained β σ ε) (piece : List β) : Drained β σ ε :=
  if drained.stopped.isSome then drained
  else decoder.drain consume drained.state (drained.rest ++ piece)

def feedAll (state : σ) (pieces : List (List β)) : Drained β σ ε :=
  pieces.foldl (decoder.feed consume) ⟨state, [], none⟩

end

variable {decoder : FrameDecoder β α ε} {consume : σ → α → σ × Option ε}
variable {state next : σ} {bytes rest : List β} {value : α} {error : ε}
  {first second : Drained β σ ε}

theorem drainFuel_eq {fuel : Nat} (enough : bytes.length < fuel) :
    decoder.drainFuel consume fuel state bytes = decoder.drain consume state bytes := by
  induction fuel using Nat.strongRecOn generalizing state bytes with
  | ind fuel ih =>
    cases fuel with
    | zero => cases enough
    | succ fuel =>
      rw [drain, drainFuel, drainFuel]
      split
      · rfl
      · rfl
      · next value rest decoded =>
          have shorter := decoder.consumes decoded
          split
          · rfl
          · next next accepted =>
              rw [ih fuel (Nat.lt_succ_self _) (by omega)]
              rcases Nat.lt_or_ge bytes.length fuel with below | atBound
              · rw [ih bytes.length (by omega) (by omega)]
              · obtain rfl : bytes.length = fuel := by omega
                rw [ih bytes.length (Nat.lt_succ_self _) (by omega)]

theorem drain_more (decoded : decoder.decode bytes = .ok none) :
    decoder.drain consume state bytes = ⟨state, bytes, none⟩ := by
  simp only [drain, drainFuel, decoded]

theorem drain_fails (decoded : decoder.decode bytes = .error error) :
    decoder.drain consume state bytes = ⟨state, bytes, some error⟩ := by
  simp only [drain, drainFuel, decoded]

theorem drain_stops (decoded : decoder.decode bytes = .ok (some (value, rest)))
    (consumed : consume state value = (next, some error)) :
    decoder.drain consume state bytes = ⟨next, rest, some error⟩ := by
  simp only [drain, drainFuel, decoded, consumed]

theorem drain_continues (decoded : decoder.decode bytes = .ok (some (value, rest)))
    (consumed : consume state value = (next, none)) :
    decoder.drain consume state bytes = decoder.drain consume next rest := by
  rw [drain, drainFuel]
  simp only [decoded, consumed]
  exact drainFuel_eq (decoder.consumes decoded)

/-- Induction on the frames of a stream, with one case for each way it can go
on. -/
theorem drain_induction (decoder : FrameDecoder β α ε) (consume : σ → α → σ × Option ε)
    {motive : σ → List β → Prop}
    (more : ∀ state bytes, decoder.decode bytes = .ok none → motive state bytes)
    (fails : ∀ state bytes error, decoder.decode bytes = .error error → motive state bytes)
    (stops : ∀ state bytes value rest next error, decoder.decode bytes = .ok (some (value, rest)) →
      consume state value = (next, some error) → motive state bytes)
    (continues : ∀ state bytes value rest next, decoder.decode bytes = .ok (some (value, rest)) →
      consume state value = (next, none) → motive next rest → motive state bytes)
    (state : σ) (bytes : List β) : motive state bytes := by
  induction sizeEq : bytes.length using Nat.strongRecOn generalizing state bytes with
  | ind size ih =>
    subst sizeEq
    cases decoded : decoder.decode bytes with
    | error error => exact fails state bytes error decoded
    | ok frame =>
      cases frame with
      | none => exact more state bytes decoded
      | some frame =>
        obtain ⟨value, rest⟩ := frame
        cases consumed : consume state value with
        | mk next stopped =>
          cases stopped with
          | some error => exact stops state bytes value rest next error decoded consumed
          | none =>
            exact continues state bytes value rest next decoded consumed
              (ih rest.length (decoder.consumes decoded) next rest rfl)

theorem decode_rest (goesOn : (decoder.drain consume state bytes).stopped = none) :
    decoder.decode (decoder.drain consume state bytes).rest = .ok none := by
  revert goesOn
  apply drain_induction decoder consume _ _ _ _ state bytes
  · intro state bytes decoded _
    rwa [drain_more decoded]
  · intro state bytes error decoded goesOn
    rw [drain_fails decoded] at goesOn
    cases goesOn
  · intro state bytes value rest next error decoded consumed goesOn
    rw [drain_stops decoded consumed] at goesOn
    cases goesOn
  · intro state bytes value rest next decoded consumed ih goesOn
    rw [drain_continues decoded consumed] at goesOn ⊢
    exact ih goesOn

theorem drain_append (more : List β) (goesOn : (decoder.drain consume state bytes).stopped = none) :
    decoder.drain consume state (bytes ++ more) =
      decoder.drain consume (decoder.drain consume state bytes).state
        ((decoder.drain consume state bytes).rest ++ more) := by
  revert goesOn
  apply drain_induction decoder consume _ _ _ _ state bytes
  · intro state bytes decoded _
    rw [drain_more decoded]
  · intro state bytes error decoded goesOn
    rw [drain_fails decoded] at goesOn
    cases goesOn
  · intro state bytes value rest next error decoded consumed goesOn
    rw [drain_stops decoded consumed] at goesOn
    cases goesOn
  · intro state bytes value rest next decoded consumed ih goesOn
    rw [drain_continues decoded consumed] at goesOn ⊢
    rw [drain_continues (decoder.decode_append more decoded) consumed]
    exact ih goesOn

/-- A stream that stopped has stopped at the same place whatever arrives
later. -/
theorem drain_append_stopped (more : List β)
    (stopped : (decoder.drain consume state bytes).stopped ≠ none) :
    (decoder.drain consume state (bytes ++ more)).state =
        (decoder.drain consume state bytes).state ∧
      (decoder.drain consume state (bytes ++ more)).rest =
        (decoder.drain consume state bytes).rest ++ more ∧
      (decoder.drain consume state (bytes ++ more)).stopped ≠ none := by
  revert stopped
  apply drain_induction decoder consume _ _ _ _ state bytes
  · intro state bytes decoded stopped
    rw [drain_more decoded] at stopped
    exact absurd rfl stopped
  · intro state bytes error decoded _
    obtain ⟨later, decodedMore⟩ := decoder.fails_append more decoded
    rw [drain_fails decoded, drain_fails decodedMore]
    exact ⟨rfl, rfl, Option.some_ne_none _⟩
  · intro state bytes value rest next error decoded consumed _
    rw [drain_stops decoded consumed, drain_stops (decoder.decode_append more decoded) consumed]
    exact ⟨rfl, rfl, Option.some_ne_none _⟩
  · intro state bytes value rest next decoded consumed ih stopped
    rw [drain_continues decoded consumed] at stopped ⊢
    rw [drain_continues (decoder.decode_append more decoded) consumed]
    exact ih stopped

/-- Where a failure is not described otherwise when more has arrived, the reason
to stop is the same too. -/
theorem drain_append_reason (stable : ∀ bytes more error, decoder.decode bytes = .error error →
      decoder.decode (bytes ++ more) = .error error)
    (more : List β) (stopped : (decoder.drain consume state bytes).stopped ≠ none) :
    (decoder.drain consume state (bytes ++ more)).stopped =
      (decoder.drain consume state bytes).stopped := by
  revert stopped
  apply drain_induction decoder consume _ _ _ _ state bytes
  · intro state bytes decoded stopped
    rw [drain_more decoded] at stopped
    exact absurd rfl stopped
  · intro state bytes error decoded _
    rw [drain_fails decoded, drain_fails (stable bytes more error decoded)]
  · intro state bytes value rest next error decoded consumed _
    rw [drain_stops decoded consumed, drain_stops (decoder.decode_append more decoded) consumed]
  · intro state bytes value rest next decoded consumed ih stopped
    rw [drain_continues decoded consumed] at stopped ⊢
    rw [drain_continues (decoder.decode_append more decoded) consumed]
    exact ih stopped

theorem foldl_feed_stopped (drained : Drained β σ ε) (stopped : drained.stopped ≠ none)
    (pieces : List (List β)) : pieces.foldl (decoder.feed consume) drained = drained := by
  induction pieces with
  | nil => rfl
  | cons piece pieces ih =>
    rw [List.foldl_cons, feed, if_pos (Option.isSome_iff_ne_none.mpr stopped), ih]

/-- Two accounts of one stream: the same state, and both stopped, or both going
on from the same bytes. -/
def Agree (first second : Drained β σ ε) : Prop :=
  first.state = second.state ∧ (first.stopped = none ↔ second.stopped = none) ∧
    (first.stopped = none → first.rest = second.rest)

theorem Agree.symm (agree : Agree first second) : Agree second first :=
  ⟨agree.1.symm, agree.2.1.symm, fun goesOn => (agree.2.2 (agree.2.1.mpr goesOn)).symm⟩

theorem Agree.trans {third : Drained β σ ε} (former : Agree first second)
    (latter : Agree second third) : Agree first third :=
  ⟨former.1.trans latter.1, former.2.1.trans latter.2.1, fun goesOn =>
    (former.2.2 goesOn).trans (latter.2.2 (former.2.1.mp goesOn))⟩

theorem Agree.eq (agree : Agree first second)
    (goesOn : second.stopped = none) : first = second := by
  obtain ⟨stateEq, _, restEq⟩ := agree
  cases first
  cases second
  simp_all

theorem foldl_feed_agrees {drained : Drained β σ ε} (goesOn : drained.stopped = none)
    (waiting : decoder.decode drained.rest = .ok none) (pieces : List (List β)) :
    Agree (pieces.foldl (decoder.feed consume) drained)
      (decoder.drain consume drained.state (drained.rest ++ pieces.flatten)) := by
  induction pieces generalizing drained with
  | nil =>
    rw [List.flatten_nil, List.append_nil, drain_more waiting, List.foldl_nil]
    exact ⟨rfl, by simp [goesOn], fun _ => rfl⟩
  | cons piece pieces ih =>
    have fed : decoder.feed consume drained piece =
        decoder.drain consume drained.state (drained.rest ++ piece) := by
      rw [feed, goesOn]
      rfl
    rw [List.foldl_cons, fed, List.flatten_cons, ← List.append_assoc]
    by_cases goesOn : (decoder.drain consume drained.state (drained.rest ++ piece)).stopped = none
    · rw [drain_append pieces.flatten goesOn]
      exact ih goesOn (decode_rest goesOn)
    · obtain ⟨stateEq, _, stopped⟩ := drain_append_stopped pieces.flatten goesOn
      rw [foldl_feed_stopped _ goesOn]
      exact ⟨stateEq.symm,
        ⟨fun running => absurd running goesOn, fun running => absurd running stopped⟩,
        fun running => absurd running goesOn⟩

/-- Feeding the pieces of a stream one by one has the effect of draining the
whole stream. -/
theorem feedAll_agrees (consume : σ → α → σ × Option ε) (waiting : decoder.decode [] = .ok none)
    (state : σ) (pieces : List (List β)) : Agree (decoder.feedAll consume state pieces)
      (decoder.drain consume state pieces.flatten) :=
  foldl_feed_agrees rfl waiting pieces

end FrameDecoder

/-- `writeUInt32BE`: four bytes, the highest first. -/
def writeUInt32BE (number : Nat) : List UInt8 :=
  [UInt8.ofNat (number / 2 ^ 24), UInt8.ofNat (number / 2 ^ 16), UInt8.ofNat (number / 2 ^ 8),
    UInt8.ofNat number]

/-- `readUInt32BE` at the start of bytes that hold a number. -/
def readUInt32BE : List UInt8 → Nat
  | first :: second :: third :: fourth :: _ =>
    first.toNat * 2 ^ 24 + second.toNat * 2 ^ 16 + third.toNat * 2 ^ 8 + fourth.toNat
  | _ => 0

def lengthPrefixed (payload : List UInt8) : List UInt8 :=
  writeUInt32BE payload.length ++ payload

variable {bytes : List UInt8}

theorem readUInt32BE_write {number : Nat} (small : number < 2 ^ 32) (rest : List UInt8) :
    readUInt32BE (writeUInt32BE number ++ rest) = number := by
  simp only [writeUInt32BE, List.cons_append, List.nil_append, readUInt32BE, UInt8.toNat_ofNat']
  omega

theorem readUInt32BE_append (header : 4 ≤ bytes.length)
    (more : List UInt8) : readUInt32BE (bytes ++ more) = readUInt32BE bytes := by
  match bytes with
  | _ :: _ :: _ :: _ :: _ => rfl
  | [] | [_] | [_, _] | [_, _, _] => simp at header

/-- The bytes that the length at the front covers, as far as they are there. -/
def framePayload (bytes : List UInt8) : List UInt8 :=
  (bytes.drop 4).take (readUInt32BE bytes)

def frameRest (bytes : List UInt8) : List UInt8 :=
  bytes.drop (4 + readUInt32BE bytes)

section

variable (complete : 4 + readUInt32BE bytes ≤ bytes.length)
include complete

theorem framePayload_append (more : List UInt8) :
    framePayload (bytes ++ more) = framePayload bytes := by
  rw [framePayload, framePayload, readUInt32BE_append (by omega),
    List.drop_append_of_le_length (by omega),
    List.take_append_of_le_length (by rw [List.length_drop]; omega)]

theorem framePayload_length : (framePayload bytes).length = readUInt32BE bytes := by
  rw [framePayload, List.length_take, List.length_drop]
  omega

theorem frameRest_append (more : List UInt8) :
    frameRest (bytes ++ more) = frameRest bytes ++ more := by
  rw [frameRest, frameRest, readUInt32BE_append (by omega), List.drop_append_of_le_length complete]

theorem frameRest_length : (frameRest bytes).length < bytes.length := by
  rw [frameRest, List.length_drop]
  omega

end

variable {payload : List UInt8}

theorem readUInt32BE_lengthPrefixed (small : payload.length < 2 ^ 32) (rest : List UInt8) :
    readUInt32BE (lengthPrefixed payload ++ rest) = payload.length := by
  rw [lengthPrefixed, List.append_assoc, readUInt32BE_write small]

theorem lengthPrefixed_length : (lengthPrefixed payload).length = 4 + payload.length := by
  simp [lengthPrefixed, writeUInt32BE]
  omega

theorem framePayload_lengthPrefixed (small : payload.length < 2 ^ 32) (rest : List UInt8) :
    framePayload (lengthPrefixed payload ++ rest) = payload := by
  rw [framePayload, readUInt32BE_lengthPrefixed small]
  simp [lengthPrefixed, writeUInt32BE]

theorem frameRest_lengthPrefixed (small : payload.length < 2 ^ 32) (rest : List UInt8) :
    frameRest (lengthPrefixed payload ++ rest) = rest := by
  rw [frameRest, readUInt32BE_lengthPrefixed small, ← lengthPrefixed_length, List.drop_left]

end P2PHub
