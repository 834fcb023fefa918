import P2PHub.JavaScriptValues

/-!
# Limits on structured payloads

The depth and size limits of `sdk/src/boundary-guard.ts`.
-/

namespace P2PHub

def maxPayloadBytes : Nat := 256 * 1024

def maxObjectDepth : Nat := 10

def objectDepthExceeded (maxDepth : Nat) : Thrown :=
  .error ("object exceeds the maximum nesting depth of " ++ toString maxDepth) none

def payloadTooLarge (actual limit : Nat) : Thrown :=
  .error ("payload is " ++ toString actual ++ " bytes, exceeding the " ++ toString limit
    ++ "-byte limit") none

mutual

/-- Walk arrays and plain objects.  A cyclic reference is walked until the
limit is passed. -/
def walkDepth (depth maxDepth : Nat) : JsValue → Except Thrown Unit
  | .array items =>
    if depth > maxDepth then .error (objectDepthExceeded maxDepth)
    else walkItems (depth + 1) maxDepth items
  | .object fields =>
    if depth > maxDepth then .error (objectDepthExceeded maxDepth)
    else walkFields (depth + 1) maxDepth fields
  | .cyclic => .error (objectDepthExceeded maxDepth)
  | _ => .ok ()

def walkItems (depth maxDepth : Nat) : List JsValue → Except Thrown Unit
  | [] => .ok ()
  | item :: items => do
      walkDepth depth maxDepth item
      walkItems depth maxDepth items

def walkFields (depth maxDepth : Nat) : List (String × JsValue) → Except Thrown Unit
  | [] => .ok ()
  | (_, item) :: fields => do
      walkDepth depth maxDepth item
      walkFields depth maxDepth fields

end

def validateObjectDepth (value : JsValue) : Except Thrown Unit :=
  walkDepth 1 maxObjectDepth value

def validatePayloadSize (data : String) (maxBytes : Nat) : Except Thrown Unit :=
  if data.utf8ByteSize > maxBytes then .error (payloadTooLarge data.utf8ByteSize maxBytes)
  else .ok ()

/-- Where the scan of a JSON text is: outside a string, in one, or in one right
after a backslash. -/
inductive ScanMode
  | outside
  | inString
  | escaped
  deriving DecidableEq, Repr

/-- Count the brackets of a JSON text outside its strings. -/
def scanNesting (maxDepth : Nat) : Int → ScanMode → List Char → Except Thrown Unit
  | _, _, [] => .ok ()
  | depth, .escaped, _ :: text => scanNesting maxDepth depth .inString text
  | depth, .inString, char :: text =>
    if char = '\\' then scanNesting maxDepth depth .escaped text
    else if char = '"' then scanNesting maxDepth depth .outside text
    else scanNesting maxDepth depth .inString text
  | depth, .outside, char :: text =>
    if char = '"' then scanNesting maxDepth depth .inString text
    else if char = '[' ∨ char = '\x7b' then
      if depth + 1 > maxDepth then .error (objectDepthExceeded maxDepth)
      else scanNesting maxDepth (depth + 1) .outside text
    else if char = ']' ∨ char = '\x7d' then scanNesting maxDepth (depth - 1) .outside text
    else scanNesting maxDepth depth .outside text

def validateJsonNestingDepth (raw : List Char) : Except Thrown Unit :=
  scanNesting maxObjectDepth 0 .outside raw

example : validateObjectDepth (.array [.array [.null], .object [("key", .string "value")]]) =
    .ok () := by
  rfl

end P2PHub
