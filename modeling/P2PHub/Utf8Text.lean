import P2PHub.Utf16Text

/-!
# Texts as UTF-8 bytes

The encoding of a text, and a decoder that puts the replacement character in
place of every maximal part of a sequence that is not well formed.
-/

namespace P2PHub.Utf8

def encode (text : List Char) : List UInt8 :=
  text.flatMap String.utf8EncodeChar

/-- A character whose first bytes were read: how many are missing, the bits so
far, and the bounds of the next byte. -/
structure Pending where
  missing : Nat
  bits : Nat
  lower : Nat
  upper : Nat
  deriving DecidableEq, Repr

def startChar (byte : Nat) : Option Pending × List Char :=
  if byte < 0x80 then (none, [Char.ofNat byte])
  else if 0xC2 ≤ byte ∧ byte < 0xE0 then (some ⟨1, byte - 0xC0, 0x80, 0xBF⟩, [])
  else if 0xE0 ≤ byte ∧ byte < 0xF0 then
    (some ⟨2, byte - 0xE0, if byte = 0xE0 then 0xA0 else 0x80,
      if byte = 0xED then 0x9F else 0xBF⟩, [])
  else if 0xF0 ≤ byte ∧ byte < 0xF5 then
    (some ⟨3, byte - 0xF0, if byte = 0xF0 then 0x90 else 0x80,
      if byte = 0xF4 then 0x8F else 0xBF⟩, [])
  else (none, [Utf16.replacement])

def readByte (pending : Option Pending) (byte : Nat) : Option Pending × List Char :=
  match pending with
  | none => startChar byte
  | some ⟨missing, bits, lower, upper⟩ =>
    if lower ≤ byte ∧ byte ≤ upper then
      let bits := bits * 0x40 + (byte - 0x80)
      if missing = 1 then (none, [Char.ofNat bits])
      else (some ⟨missing - 1, bits, 0x80, 0xBF⟩, [])
    else
      let (next, chars) := startChar byte
      (next, Utf16.replacement :: chars)

def decodeFrom (pending : Option Pending) : List UInt8 → List Char
  | [] => if pending.isSome then [Utf16.replacement] else []
  | byte :: bytes =>
    let (next, chars) := readByte pending byte.toNat
    chars ++ decodeFrom next bytes

/-- `buffer.toString("utf8")`. -/
def decode (bytes : List UInt8) : List Char :=
  decodeFrom none bytes

variable {missing bits lower upper : Nat} {byte : UInt8} {rest : List UInt8}

theorem decodeFrom_last (least : lower ≤ byte.toNat) (most : byte.toNat ≤ upper) :
    decodeFrom (some ⟨1, bits, lower, upper⟩) (byte :: rest) =
      Char.ofNat (bits * 0x40 + (byte.toNat - 0x80)) :: decodeFrom none rest := by
  rw [decodeFrom, readByte, if_pos ⟨least, most⟩]
  rfl

theorem decodeFrom_next (least : lower ≤ byte.toNat) (most : byte.toNat ≤ upper) :
    decodeFrom (some ⟨missing + 2, bits, lower, upper⟩) (byte :: rest) =
      decodeFrom (some ⟨missing + 1, bits * 0x40 + (byte.toNat - 0x80), 0x80, 0xBF⟩) rest := by
  rw [decodeFrom, readByte, if_pos ⟨least, most⟩]
  rfl

theorem decodeFrom_cons : decodeFrom none (byte :: rest) =
    (startChar byte.toNat).2 ++ decodeFrom (startChar byte.toNat).1 rest :=
  rfl

theorem startChar_one {byte : Nat} (below : byte < 0x80) :
    startChar byte = (none, [Char.ofNat byte]) :=
  if_pos below

theorem startChar_two {byte : Nat} (least : 0xC2 ≤ byte) (below : byte < 0xE0) :
    startChar byte = (some ⟨1, byte - 0xC0, 0x80, 0xBF⟩, []) := by
  rw [startChar, if_neg (by omega), if_pos ⟨least, below⟩]

theorem startChar_three {byte : Nat} (least : 0xE0 ≤ byte) (below : byte < 0xF0) :
    startChar byte = (some ⟨2, byte - 0xE0, if byte = 0xE0 then 0xA0 else 0x80,
      if byte = 0xED then 0x9F else 0xBF⟩, []) := by
  rw [startChar, if_neg (by omega), if_neg (by omega), if_pos ⟨least, below⟩]

theorem startChar_four {byte : Nat} (least : 0xF0 ≤ byte) (below : byte < 0xF5) :
    startChar byte = (some ⟨3, byte - 0xF0, if byte = 0xF0 then 0x90 else 0x80,
      if byte = 0xF4 then 0x8F else 0xBF⟩, []) := by
  rw [startChar, if_neg (by omega), if_neg (by omega), if_neg (by omega), if_pos ⟨least, below⟩]

theorem toNat_continuation (bits : Nat) :
    (UInt8.ofNat (bits % 0x40 + 0x80)).toNat = bits % 0x40 + 0x80 := by
  rw [UInt8.toNat_ofNat']
  omega

theorem decode_char (char : Char) (rest : List UInt8) :
    decode (String.utf8EncodeChar char ++ rest) = char :: decode rest := by
  have valid := Utf16.toNat_valid char
  have charEq := Char.ofNat_toNat char
  have codeEq : char.val.toNat = char.toNat := rfl
  unfold String.utf8EncodeChar decode
  rw [codeEq]
  generalize char.toNat = code at valid charEq
  subst charEq
  have last := toNat_continuation code
  have second := toNat_continuation (code / 64)
  have third := toNat_continuation (code / 4096)
  by_cases one : code ≤ 0x7F
  · have first : (UInt8.ofNat code).toNat = code := by
      rw [UInt8.toNat_ofNat']
      omega
    rw [if_pos one, List.singleton_append, decodeFrom_cons, first, startChar_one (by omega)]
    rfl
  · rw [if_neg one]
    by_cases two : code ≤ 0x7FF
    · have first : (UInt8.ofNat (code / 64 % 0x20 + 0xC0)).toNat = code / 64 + 0xC0 := by
        rw [UInt8.toNat_ofNat']
        omega
      have bits : (code / 64 + 0xC0 - 0xC0) * 0x40 + (code % 0x40 + 0x80 - 0x80) = code := by
        omega
      rw [if_pos two, List.cons_append, List.singleton_append, decodeFrom_cons, first,
        startChar_two (by omega) (by omega), List.nil_append,
        decodeFrom_last (by omega) (by omega), last, bits]
    · rw [if_neg two]
      by_cases three : code ≤ 0xFFFF
      · have first : (UInt8.ofNat (code / 4096 % 0x10 + 0xE0)).toNat = code / 4096 + 0xE0 := by
          rw [UInt8.toNat_ofNat']
          omega
        have bits : ((code / 4096 + 0xE0 - 0xE0) * 0x40 + (code / 64 % 0x40 + 0x80 - 0x80)) *
            0x40 + (code % 0x40 + 0x80 - 0x80) = code := by
          omega
        rw [if_pos three, List.cons_append, decodeFrom_cons, first,
          startChar_three (by omega) (by omega), List.nil_append, List.cons_append,
          decodeFrom_next (by split <;> omega) (by split <;> omega), second,
          List.singleton_append, decodeFrom_last (by omega) (by omega), last, bits]
      · have first : (UInt8.ofNat (code / 262144 % 0x08 + 0xF0)).toNat = code / 262144 + 0xF0 := by
          rw [UInt8.toNat_ofNat']
          omega
        have bits : (((code / 262144 + 0xF0 - 0xF0) * 0x40 +
            (code / 4096 % 0x40 + 0x80 - 0x80)) * 0x40 + (code / 64 % 0x40 + 0x80 - 0x80)) *
            0x40 + (code % 0x40 + 0x80 - 0x80) = code := by
          omega
        rw [if_neg three, List.cons_append, decodeFrom_cons, first,
          startChar_four (by omega) (by omega), List.nil_append, List.cons_append,
          decodeFrom_next (by split <;> omega) (by split <;> omega), third,
          List.cons_append, decodeFrom_next (by omega) (by omega), second,
          List.singleton_append, decodeFrom_last (by omega) (by omega), last, bits]

theorem decode_encode (text : List Char) : decode (encode text) = text := by
  induction text with
  | nil => rfl
  | cons char text ih =>
    have encodeEq : encode (char :: text) = String.utf8EncodeChar char ++ encode text := rfl
    rw [encodeEq, decode_char, ih]

end P2PHub.Utf8
