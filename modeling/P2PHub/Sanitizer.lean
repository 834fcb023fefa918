import Mathlib.Data.List.Infix

/-!
# The content sanitizer

The scanners of `sdk/src/sanitizer.ts`.  A text is a list of UTF-16 code units,
lone surrogates included, and a position in it is the text that is left there.
The case mapping of units outside ASCII is up to the engine.
-/

namespace P2PHub.Sanitizer

abbrev CodeUnit := UInt16

abbrev Text := List CodeUnit

def unit (char : Char) : CodeUnit :=
  UInt16.ofNat char.toNat

def ascii (text : String) : Text :=
  text.toList.map unit

def isTagStartChar (unit : CodeUnit) : Bool :=
  (97 ≤ unit && unit ≤ 122) || (65 ≤ unit && unit ≤ 90)

def isNameChar (unit : CodeUnit) : Bool :=
  isTagStartChar unit || (48 ≤ unit && unit ≤ 57)

/-- What `\s` matches and `trim` removes. -/
def isWhiteSpace (unit : CodeUnit) : Bool :=
  (9 ≤ unit && unit ≤ 13) || (0x2000 ≤ unit && unit ≤ 0x200A) ||
    unit ∈ ([32, 0xA0, 0x1680, 0x2028, 0x2029, 0x202F, 0x205F, 0x3000, 0xFEFF] : List CodeUnit)

/-- The lower case of a unit outside ASCII, with what stands before and after it. -/
structure Casing where
  lower : Text → CodeUnit → Text → Text

def lowerAscii (unit : CodeUnit) : CodeUnit :=
  if 65 ≤ unit ∧ unit ≤ 90 then unit + 32 else unit

/-- `toLowerCase` of the rest of a text after some units. -/
def toLowerCaseAfter (casing : Casing) (before : Text) : Text → Text
  | [] => []
  | unit :: rest =>
    (if unit < 128 then [lowerAscii unit] else casing.lower before unit rest) ++
      toLowerCaseAfter casing (before ++ [unit]) rest

def toLowerCase (casing : Casing) (text : Text) : Text :=
  toLowerCaseAfter casing [] text

/-- How far a text is from the first place where another one stands. -/
def indexOf (needle : Text) : Text → Option Nat
  | [] => if needle = [] then some 0 else none
  | unit :: rest =>
    if needle.isPrefixOf (unit :: rest) then some 0
    else (indexOf needle rest).map (· + 1)

section

variable (casing : Casing)

/-- A tag: its name, how many units it has, and whether it closes itself. -/
structure Tag where
  name : Text
  width : Nat
  selfClosing : Bool
  deriving DecidableEq

/-- The rest of an opening tag: how many units it has, and whether it ends
with `/>`.  A quoted value ends with the quote that it began with. -/
def scanAttributes : Option CodeUnit → Text → Nat × Bool
  | _, [] => (0, false)
  | some quote, unit :: rest =>
    let (width, selfClosing) := scanAttributes (if unit = quote then none else some quote) rest
    (width + 1, selfClosing)
  | none, unit :: rest =>
    if unit = 62 then (1, false)
    else if unit = 47 ∧ rest.head? = some 62 then (2, true)
    else
      let (width, selfClosing) :=
        scanAttributes (if unit = 34 ∨ unit = 39 then some unit else none) rest
      (width + 1, selfClosing)

/-- `readTag` after its `<`. -/
def readTag : Text → Option Tag
  | [] => none
  | unit :: rest =>
    if unit = 47 then
      let name := rest.takeWhile isNameChar
      (indexOf [62] (rest.dropWhile isNameChar)).map fun index =>
        ⟨toLowerCase casing name, name.length + index + 3, false⟩
    else if unit = 33 ∨ unit = 63 then
      (indexOf [62] rest).map fun index => ⟨[], index + 3, false⟩
    else if isTagStartChar unit then
      let name := (unit :: rest).takeWhile isNameChar
      let (width, selfClosing) := scanAttributes none ((unit :: rest).dropWhile isNameChar)
      some ⟨name, name.length + width + 1, selfClosing⟩
    else none

def closingEnd (input : Text) (index : Nat) : Option Nat :=
  let spaces := (input.drop index).takeWhile isWhiteSpace
  match (input.drop index).dropWhile isWhiteSpace with
  | unit :: _ => if unit = 62 then some (index + spaces.length + 1) else none
  | [] => none

/-- The loop of `findClosingTag`, from an index on in the text in lower case. -/
def searchClosingTag (input needle : Text) : Nat → Text → Option Nat
  | _, [] => none
  | index, unit :: rest =>
    if needle.isPrefixOf (unit :: rest) then
      match closingEnd input (index + needle.length) with
      | some stop => some stop
      | none => searchClosingTag input needle (index + 1) rest
    else searchClosingTag input needle (index + 1) rest

def findClosingTag (input : Text) (start : Nat) (name : Text) : Option Nat :=
  searchClosingTag input (60 :: 47 :: name) start ((toLowerCase casing input).drop start)

def contentBlockedTags : List Text :=
  ["script", "style", "iframe", "object", "embed"].map ascii

/-- How many units `stripHtml` removes where some text is left of its input:
a comment, a tag, or an element with its content. -/
def removedWidth (input : Text) : Text → Option Nat
  | [] => none
  | unit :: rest =>
    if unit ≠ 60 then none
    else if (ascii "!--").isPrefixOf rest then
      match indexOf (ascii "-->") (rest.drop 3) with
      | some index => some (index + 7)
      | none => some (rest.length + 1)
    else
      match readTag casing rest with
      | none => none
      | some tag =>
        if tag.name ∈ contentBlockedTags ∧ !tag.selfClosing then
          let index := input.length - (rest.length + 1)
          match findClosingTag casing input (index + tag.width) tag.name with
          | some close => some (close - index)
          | none => some (rest.length + 1)
        else some tag.width

/-- The loop of `stripHtml`, with the number of units that it still skips. -/
def stripFrom (input : Text) : Nat → Text → Text
  | _, [] => []
  | skip + 1, _ :: rest => stripFrom input skip rest
  | 0, unit :: rest =>
    match removedWidth casing input (unit :: rest) with
    | some width => stripFrom input (width - 1) rest
    | none => unit :: stripFrom input 0 rest

def stripHtml (input : Text) : Text :=
  stripFrom casing input 0 input

def sanitizeText (input : Text) : Text :=
  stripHtml casing input

/-- What `containsUnsafeContent` looks for behind a `<`. -/
def opensTag : Text → Bool
  | [] => false
  | next :: _ => isTagStartChar next || next = 47 || next = 33

/-- The first check of `containsUnsafeContent`. -/
def containsTagStart : Text → Bool
  | [] => false
  | unit :: rest => (unit = 60 && opensTag rest) || containsTagStart rest

end

variable (casing : Casing)

/-- The scheme that `schemeOf` collects, with the number of units it may still add. -/
def schemeFrom : Nat → Text → Text
  | _, [] => []
  | room, unit :: rest =>
    if unit = 58 then []
    else if unit ≤ 32 ∨ isWhiteSpace unit then schemeFrom room rest
    else if room = 0 then [unit]
    else unit :: schemeFrom (room - 1) rest

def schemeOf (url : Text) : Text :=
  toLowerCase casing (schemeFrom 32 url)

def trim (text : Text) : Text :=
  ((text.dropWhile isWhiteSpace).reverse.dropWhile isWhiteSpace).reverse

def dangerousSchemes : List Text :=
  ["javascript", "vbscript", "data"].map ascii

def isDangerousUrl (url : Text) : Bool :=
  schemeOf casing (trim url) ∈ dangerousSchemes

def sanitizeUrl (url : Text) : Text :=
  if isDangerousUrl casing url then ascii "about:blank" else url

/-- The number of open parentheses after one more unit. -/
def depthStep (depth : Nat) (unit : CodeUnit) : Nat :=
  if unit = 40 then depth + 1 else if unit = 41 then depth - 1 else depth

/-- The URL of a link after its opening parenthesis, and the text behind it.
The depth counts the parentheses that are open within the URL. -/
def scanUrl : Nat → Text → Option (Text × Text)
  | _, [] => none
  | depth, unit :: rest =>
    if unit = 41 ∧ depth = 0 then some ([], rest)
    else (scanUrl (depthStep depth unit) rest).map fun (url, after) => (unit :: url, after)

structure ParsedLink where
  label : Text
  url : Text
  rest : Text
  deriving DecidableEq

/-- `parseLink` after its opening bracket. -/
def parseLink (text : Text) : Option ParsedLink :=
  match text.dropWhile (· ≠ 93) with
  | _ :: next :: after =>
    if next = 40 then
      (scanUrl 0 after).map fun (url, rest) => ⟨text.takeWhile (· ≠ 93), url, rest⟩
    else none
  | _ => none

def linkText (label url : Text) : Text :=
  91 :: label ++ 93 :: 40 :: url ++ [41]

/-- The loop of `sanitizeMarkdown`, with the number of units that it still skips. -/
def sanitizeLinks : Nat → Text → Text
  | _, [] => []
  | skip + 1, _ :: rest => sanitizeLinks skip rest
  | 0, unit :: rest =>
    if unit = 33 ∧ rest.head? = some 91 then
      match parseLink rest.tail with
      | some link =>
        33 :: linkText link.label (sanitizeUrl casing link.url) ++
          sanitizeLinks (rest.length - link.rest.length) rest
      | none => unit :: sanitizeLinks 0 rest
    else if unit = 91 then
      match parseLink rest with
      | some link =>
        linkText link.label (sanitizeUrl casing link.url) ++
          sanitizeLinks (rest.length - link.rest.length) rest
      | none => unit :: sanitizeLinks 0 rest
    else unit :: sanitizeLinks 0 rest

def sanitizeMarkdown (markdown : Text) : Text :=
  sanitizeLinks casing 0 (stripHtml casing markdown)

end P2PHub.Sanitizer
