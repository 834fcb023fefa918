import Mathlib.Data.List.Basic

/-!
# Texts as UTF-16 code units

JavaScript strings are sequences of 16-bit code units.  A text without lone
surrogates is a list of characters, each of one unit or a surrogate pair.
-/

namespace P2PHub.Utf16

def isHighSurrogate (unit : Nat) : Bool :=
  decide (0xD800 ≤ unit ∧ unit < 0xDC00)

def isLowSurrogate (unit : Nat) : Bool :=
  decide (0xDC00 ≤ unit ∧ unit < 0xE000)

def charUnits (char : Char) : List Nat :=
  if char.toNat < 0x10000 then [char.toNat]
  else [0xD800 + (char.toNat - 0x10000) / 0x400, 0xDC00 + (char.toNat - 0x10000) % 0x400]

def units (text : List Char) : List Nat :=
  text.flatMap charUnits

/-- The `length` of a string. -/
def length (text : List Char) : Nat :=
  (units text).length

/-- The character that stands for a lone surrogate, which is none. -/
def replacement : Char :=
  Char.ofNat 0xFFFD

def decode : List Nat → List Char
  | [] => []
  | [unit] =>
    [if isHighSurrogate unit || isLowSurrogate unit then replacement else Char.ofNat unit]
  | unit :: low :: rest =>
    if isHighSurrogate unit && isLowSurrogate low then
      Char.ofNat (0x10000 + (unit - 0xD800) * 0x400 + (low - 0xDC00)) :: decode rest
    else
      (if isHighSurrogate unit || isLowSurrogate unit then replacement else Char.ofNat unit) ::
        decode (low :: rest)

theorem toNat_valid (char : Char) :
    char.toNat < 0xD800 ∨ (0xDFFF < char.toNat ∧ char.toNat < 0x110000) :=
  char.valid

theorem charUnits_lt (char : Char) : ∀ unit ∈ charUnits char, unit < 0x10000 := by
  intro unit member
  have valid := toNat_valid char
  unfold charUnits at member
  split at member
  · rw [List.mem_singleton.mp member]
    assumption
  · rcases List.mem_cons.mp member with rfl | low
    · omega
    · rw [List.mem_singleton.mp low]
      omega

theorem toNat_units (text : List Char) :
    ((units text).map UInt16.ofNat).map UInt16.toNat = units text := by
  rw [List.map_map]
  refine (List.map_congr_left fun unit member => ?_).trans (List.map_id _)
  obtain ⟨char, -, unitOf⟩ := List.mem_flatMap.mp member
  exact UInt16.toNat_ofNat_of_lt' (charUnits_lt char unit unitOf)

theorem decode_charUnits (char : Char) (rest : List Nat) :
    decode (charUnits char ++ rest) = char :: decode rest := by
  have valid := toNat_valid char
  unfold charUnits
  split
  · next small =>
      have notHigh : isHighSurrogate char.toNat = false := decide_eq_false (by omega)
      have notLow : isLowSurrogate char.toNat = false := decide_eq_false (by omega)
      cases rest with
      | nil | cons => simp [decode, notHigh, notLow]
  · next large =>
      have high : isHighSurrogate (0xD800 + (char.toNat - 0x10000) / 0x400) :=
        decide_eq_true (by omega)
      have low : isLowSurrogate (0xDC00 + (char.toNat - 0x10000) % 0x400) :=
        decide_eq_true (by omega)
      have joined : 0x10000 + (0xD800 + (char.toNat - 0x10000) / 0x400 - 0xD800) * 0x400 +
          (0xDC00 + (char.toNat - 0x10000) % 0x400 - 0xDC00) = char.toNat := by
        omega
      simp only [List.cons_append, List.nil_append, decode, high, low, Bool.and_self, if_true,
        joined, Char.ofNat_toNat]

theorem decode_units (text : List Char) : decode (units text) = text := by
  induction text with
  | nil => rfl
  | cons char text ih =>
    have unitsEq : units (char :: text) = charUnits char ++ units text := rfl
    rw [unitsEq, decode_charUnits, ih]

end P2PHub.Utf16
