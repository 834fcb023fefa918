import Mathlib.Data.List.Basic

/-!
# JavaScript values at a trust boundary

Numbers as far as `Number.isInteger` tells them apart, thrown values as far as
a `catch` block can report them, and the values that may arrive as a payload,
with the text `JSON.stringify` writes for them.
-/

namespace P2PHub

/-- A number: an integer, or one that `Number.isInteger` rejects (fractional,
infinite or `NaN`) with its text. -/
inductive JsNumber
  | integer (value : Int)
  | fractional (text : String)
  deriving DecidableEq, Repr

namespace JsNumber

/-- The value of a number that is an integer above zero. -/
def positive? : JsNumber → Option { value : Nat // 0 < value }
  | integer (.ofNat value) => if above : 0 < value then some ⟨value, above⟩ else none
  | _ => none

/-- The value of a number that is an integer and not negative. -/
def natural? : JsNumber → Option Nat
  | integer (.ofNat value) => some value
  | _ => none

def text : JsNumber → String
  | integer value => toString value
  | fractional text => text

end JsNumber

/-- A thrown value: an `Error` with its message and, when that is a string,
its `code`, or anything else with the text `String(value)` gives for it.  The
text is missing when asking for it throws, as for `Object.create(null)`. -/
inductive Thrown
  | error (message : String) (code : Option String)
  | other (text : Option String)
  deriving DecidableEq, Repr

/-- A value of unknown type.  A number is given by its JSON text; `callable`
stands for functions and symbols, `exotic` for an object that is neither an
array nor a plain object with what `JSON.stringify` makes of it, and `cyclic`
for a reference back to an enclosing array or object. -/
inductive JsValue
  | undefined
  | null
  | boolean (value : Bool)
  | number (text : String)
  | string (value : String)
  | bigint
  | callable
  | array (items : List JsValue)
  | object (fields : List (String × JsValue))
  | exotic (json : Except Thrown (Option String))
  | cyclic

namespace JsValue

/-- How `JSON.stringify` writes one character of a string. -/
def escape (char : Char) : String :=
  if char.toNat = 34 then "\\\""
  else if char.toNat = 92 then "\\\\"
  else if char.toNat = 8 then "\\b"
  else if char.toNat = 9 then "\\t"
  else if char.toNat = 10 then "\\n"
  else if char.toNat = 12 then "\\f"
  else if char.toNat = 13 then "\\r"
  else if char.toNat < 16 then "\\u000" ++ String.ofList (Nat.toDigits 16 char.toNat)
  else if char.toNat < 32 then "\\u00" ++ String.ofList (Nat.toDigits 16 char.toNat)
  else String.singleton char

def quote (value : String) : String :=
  "\"" ++ String.join (value.toList.map escape) ++ "\""

mutual

/-- `JSON.stringify`: the JSON text, nothing for a value without one, or the
error it throws. -/
def stringify : JsValue → Except Thrown (Option String)
  | undefined => .ok none
  | callable => .ok none
  | null => .ok (some "null")
  | boolean true => .ok (some "true")
  | boolean false => .ok (some "false")
  | number text => .ok (some text)
  | string value => .ok (some (quote value))
  | bigint => .error (.error "Do not know how to serialize a BigInt" none)
  | cyclic => .error (.error "Converting circular structure to JSON" none)
  | exotic json => json
  | array items => do
      let texts ← stringifyItems items
      return some ("[" ++ String.intercalate "," texts ++ "]")
  | object fields => do
      let texts ← stringifyFields fields
      return some ("\x7b" ++ String.intercalate "," texts ++ "\x7d")

def stringifyItems : List JsValue → Except Thrown (List String)
  | [] => .ok []
  | item :: items => do
      let text ← stringify item
      let texts ← stringifyItems items
      return text.getD "null" :: texts

def stringifyFields : List (String × JsValue) → Except Thrown (List String)
  | [] => .ok []
  | (key, item) :: fields => do
      let text ← stringify item
      let texts ← stringifyFields fields
      return match text with
        | none => texts
        | some text => (quote key ++ ":" ++ text) :: texts

end

example : stringify (object [("day", number "1"), ("none", undefined)]) =
    .ok (some "\x7b\"day\":1\x7d") := by
  rfl

end JsValue

end P2PHub
