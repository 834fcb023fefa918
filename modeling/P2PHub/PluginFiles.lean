import P2PHub.ManifestSigning

/-!
# The files of a signed plugin

A plugin directory is a tree of entries.  Its files are hashed on a walk that
skips what it cannot read, and compared with the hashes of a manifest in both
directions.  SHA-256 is a parameter.
-/

namespace P2PHub.ManifestSigning

open Json

abbrev Content := List UInt8

/-- The name of an entry of a directory. -/
structure FileName where
  chars : List Char
  nonempty : chars ≠ []
  noSlash : '/' ∉ chars
  noNull : Char.ofNat 0 ∉ chars
  notHere : chars ≠ ['.']
  notUp : chars ≠ ['.', '.']
  deriving DecidableEq

/-- An entry of a directory.  Reading a file or listing a directory may fail;
`behind` is what is read at a path that leads through a symbolic link, or any
other entry that is neither a file nor a directory. -/
inductive Entry
  | file (content : Content) (readable : Bool)
  | directory (listed : Bool) (entries : List (FileName × Entry))
  | other (behind : List (List Char) → Option Content)

/-- A plugin directory at its resolved path. -/
structure PluginDir where
  path : JsonString
  listed : Bool
  entries : List (FileName × Entry)

mutual

def readEntry : Entry → List (List Char) → Option Content
  | .file content readable, [] => if readable then some content else none
  | .file _ _, _ :: _ => none
  | .directory _ _, [] => none
  | .directory _ entries, part :: parts => readEntries entries part parts
  | .other behind, parts => behind parts

def readEntries : List (FileName × Entry) → List Char → List (List Char) → Option Content
  | [], _, _ => none
  | (name, entry) :: entries, part, parts =>
    if name.chars = part then readEntry entry parts else readEntries entries part parts

end

/-- The text of a part of a path: in a file name a lone surrogate is replaced. -/
def partText (part : JsonString) : List Char :=
  Utf16.decode (part.map UInt16.toNat)

/-- `fs.readFile` of a relative path in the directory. -/
def readFile (dir : PluginDir) (rel : JsonString) : Option Content :=
  match (rel.splitOn 47).map partText with
  | [] => none
  | part :: parts => readEntries dir.entries part parts

section

variable (hashFileContent : Content → JsonString)

/-- The names of files and directories that are never part of the payload. -/
def isExcluded (name : FileName) : Bool :=
  name.chars ∈ ["manifest.json".toList, "certification.json".toList, "node_modules".toList,
    ".git".toList]

def isBuildInfo (name : FileName) : Bool :=
  ".tsbuildinfo".toList.isSuffixOf name.chars

def nameUnits (name : FileName) : JsonString :=
  (Utf16.units name.chars).map UInt16.ofNat

def relChild (rel : JsonString) (name : FileName) : JsonString :=
  if rel = [] then nameUnits name else rel ++ 47 :: nameUnits name

abbrev Hashes := List (JsonString × JsonString)

/-- `hashes[key] = hash`: under `__proto__` the assignment sets no property. -/
def assign (hashes : Hashes) (key hash : JsonString) : Hashes :=
  if key = jsonString "__proto__" then hashes
  else if key ∈ hashes.map Prod.fst then
    hashes.map fun entry => if entry.1 = key then (key, hash) else entry
  else hashes ++ [(key, hash)]

mutual

def walkEntry (rel : JsonString) (name : FileName) : Entry → Hashes → Hashes
  | .directory listed entries, hashes =>
    if isExcluded name then hashes
    else if listed then walk (relChild rel name) entries hashes
    else hashes
  | .file content readable, hashes =>
    if isExcluded name || isBuildInfo name then hashes
    else if readable then assign hashes (relChild rel name) (hashFileContent content)
    else hashes
  | .other _, hashes => hashes

def walk (rel : JsonString) : List (FileName × Entry) → Hashes → Hashes
  | [], hashes => hashes
  | (name, entry) :: entries, hashes => walk rel entries (walkEntry rel name entry hashes)

end

def collectPluginFileHashes (dir : PluginDir) : Hashes :=
  if dir.listed then walk hashFileContent [] dir.entries [] else []

end

variable (hashFileContent : Content → JsonString)

def isSafeRelativePath (rel : JsonString) : Bool :=
  !(rel.isEmpty || rel.head? = some 47 || rel.head? = some 92 || rel.contains 92 ||
    rel.contains 0) &&
    (rel.splitOn 47).all fun part => !(part = [] || part = [46] || part = [46, 46])

/-- Whether a path leads out of the directory, once it is resolved. -/
def escapes (root rel : JsonString) : Bool :=
  let abs := if root = [47] then root ++ rel else root ++ 47 :: rel
  abs ≠ root && !(root ++ [47]).isPrefixOf abs

def quoted (before : String) (rel : JsonString) (after : String) : JsonString :=
  jsonString before ++ rel ++ jsonString after

def checkFile (dir : PluginDir) (claimed : JsonString × Json) : Except JsonString Unit :=
  let rel := claimed.1
  if isSafeRelativePath rel then
    match claimed.2 with
    | string expected =>
      if isHex 64 expected then
        if escapes dir.path rel then
          .error (quoted "path \"" rel "\" escapes the plugin directory")
        else
          match readFile dir rel with
          | some data =>
            if hashFileContent data = expected then .ok ()
            else .error (quoted "content of \"" rel "\" does not match its signed hash")
          | none => .error (quoted "missing file \"" rel "\"")
      else .error (quoted "invalid hash for \"" rel "\"")
    | _ => .error (quoted "invalid hash for \"" rel "\"")
  else .error (quoted "unsafe file path \"" rel "\"")

/-- The names of the properties of `Object.prototype`. -/
def inheritedNames : List JsonString :=
  ["constructor", "__defineGetter__", "__defineSetter__", "hasOwnProperty", "__lookupGetter__",
    "__lookupSetter__", "isPrototypeOf", "propertyIsEnumerable", "toString", "valueOf",
    "__proto__", "toLocaleString"].map jsonString

/-- `key in object`, for an object that `JSON.parse` yields. -/
def isIn (key : JsonString) (fields : List (JsonString × Json)) : Bool :=
  key ∈ fields.map Prod.fst || key ∈ inheritedNames

def checkCovered (fields : List (JsonString × Json)) (actual : JsonString × JsonString) :
    Except JsonString Unit :=
  if isIn actual.1 fields then .ok ()
  else .error (quoted "unhashed file \"" actual.1 "\" in plugin directory")

def verifyPluginFiles (dir : PluginDir) (files : Json) : Except JsonString Unit :=
  match files with
  | object fields => do
      fields.forM (checkFile hashFileContent dir)
      (collectPluginFileHashes hashFileContent dir).forM (checkCovered fields)
  | _ => .error (jsonString "\"files\" must be an object")

end P2PHub.ManifestSigning
