import P2PHub.FileTrees
import P2PHub.ManifestSigning
import P2PHub.SourceScanner

/-!
# The plugin scanner

The scan of a plugin directory: the files that are collected in the directory of
the entry of its manifest, and the report on them.  The TypeScript parser is a
parameter.
-/

namespace P2PHub.Scanner

open Json FileTree

/-- A file system with what is read of its files and which of its directories
can be listed, both at their real paths. -/
structure Disk where
  fs : FileSystem
  listable : Path → Bool
  content : Path → Option (List UInt8)

def Disk.realFile (disk : Disk) (path : Path) : Option Path :=
  (disk.fs.follow disk.fs.maxLinks [] path).filter fun real =>
    match disk.fs.lstat real with
    | some .file => true
    | _ => false

def Disk.readFile (disk : Disk) (path : Path) : Option (List UInt8) :=
  (disk.realFile path).bind disk.content

/-- `path.dirname`, where `//` is given as `/`. -/
def dirname (path : JsonString) : JsonString :=
  let before := ((path.reverse.dropWhile fun unit => unit = 47).dropWhile fun unit =>
    unit ≠ 47).tail.reverse
  if before = [] then (if path.head? = some 47 then [47] else [46]) else before

def skippedDirectories : List Name :=
  ["node_modules", ".git"].map jsonString

def endsWith (suffix : String) (name : Name) : Bool :=
  (jsonString suffix).isSuffixOf name

def isBundleFile (name : Name) : Bool :=
  (endsWith ".js" name || endsWith ".mjs" name || endsWith ".cjs" name) &&
    !(endsWith ".test.js" name || endsWith ".spec.js" name || endsWith ".js.map" name)

mutual

def collectEntry (disk : Disk) (dir : Path) (name : Name) : Node → List Path
  | .symlink _ => []
  | .directory entries =>
    if name ∈ skippedDirectories then []
    else if disk.listable (dir ++ [name]) then
      (collectEntries disk (dir ++ [name]) entries).map (name :: ·)
    else []
  | .file => if isBundleFile name then [[name]] else []

def collectEntries (disk : Disk) (dir : Path) : List (Name × Node) → List Path
  | [] => []
  | (name, node) :: entries =>
    collectEntry disk dir name node ++ collectEntries disk dir entries

end

/-- The files below a directory, by their paths from there. -/
def collectBundleJsFiles (disk : Disk) (dir : Path) : List Path :=
  match disk.fs.lstat dir with
  | some (.directory entries) => if disk.listable dir then collectEntries disk dir entries else []
  | _ => []

section

structure ScanFinding extends Flag where
  file : JsonString
  deriving DecidableEq

structure ScanReport where
  pluginId : JsonString
  passed : Bool
  findings : List ScanFinding
  contentHash : JsonString
  manifestPermissions : List JsonString
  modules : List JsonString
  scannedFiles : Nat
  limitations : List JsonString

inductive ScanError
  | manifest (path : JsonString)
  | thrown

def ScanError.message : ScanError → Option JsonString
  | manifest path => some (jsonString "cannot read/parse manifest at " ++ path)
  | thrown => none

def scannerLimitations : List JsonString :=
  ["static analysis only: runtime-computed module paths are flagged but not followed",
    "obfuscation/string-encoding escapes static analysis — a clean scan is NOT a safety certificate",
    "runtime redirection (prototype patching, monkey-patching, child_process of a fresh node) is not statically catchable",
    "the bundle on disk is scanned; source can be obfuscated before build",
    "permission-vs-behaviour checks only flag module usage WITHOUT a declared permission — over-declared permissions are not flagged (platform-provided networking never shows in plugin code)"].map
      jsonString

def manifestProperty (manifest : Json) (key : String) : Option Json :=
  match manifest with
  | object fields => ManifestSigning.property fields key
  | _ => none

def stringOf : Json → Option JsonString
  | string text => some text
  | _ => none

def manifestPermissions (manifest : Json) : List JsonString :=
  match manifestProperty manifest "permissions" with
  | some (array permissions) => permissions.filterMap stringOf
  | _ => []

def manifestId (pluginDir : Path) (manifest : Json) : JsonString :=
  ((manifestProperty manifest "id").bind stringOf).getD (pluginDir.getLast?.getD [])

def manifestEntry (manifest : Json) : JsonString :=
  ((manifestProperty manifest "entry").bind stringOf).getD (jsonString "./dist/index.js")

def joinParts : Path → JsonString
  | [] => []
  | [name] => name
  | name :: path => name ++ 47 :: joinParts path

/-- `path.relative` of two absolute paths. -/
def relative : Path → Path → JsonString
  | name :: dir, other :: path =>
    if name = other then relative dir path
    else joinParts ((name :: dir).map (fun _ => [46, 46]) ++ other :: path)
  | dir, path => joinParts (dir.map (fun _ => [46, 46]) ++ path)

/-- `Array.prototype.sort` of texts. -/
def sortTexts (texts : List JsonString) : List JsonString :=
  texts.insertionSort KeyOrder

def aggregateFinding (detail : JsonString) : ScanFinding where
  severity := .advisory
  kind := .permission
  detail := detail
  via := jsonString "permission-cross-check"
  line := none
  file := jsonString "(aggregate)"

def permissionFinding (permissions : List JsonString) (moduleName : JsonString) :
    Option ScanFinding :=
  if moduleName ∈ networkModules then
    if permissions.any fun permission => (jsonString "network:").isPrefixOf permission then none
    else some (aggregateFinding (jsonString "network module \"" ++ moduleName ++
      jsonString "\" used but the manifest declares no network:* permission"))
  else if moduleName = jsonString "fs" ∨ moduleName = jsonString "fs/promises" then
    some (aggregateFinding (jsonString "filesystem module \"" ++ moduleName ++ jsonString
      "\" used; the manifest declares no capability that corresponds to filesystem access"))
  else none

def sortFindings (findings : List ScanFinding) : List ScanFinding :=
  (findings.filter fun finding => finding.severity = .critical) ++
    findings.filter fun finding => finding.severity ≠ .critical

variable (parseSource : List Char → SyntaxNode)

/-- The flags and modules of a file, if it can be read. -/
def scanFile (disk : Disk) (pluginDir bundleDir real sub : Path) :
    Option (List ScanFinding × List JsonString) :=
  (disk.content (real ++ sub)).map fun content =>
    let result := scanSource (parseSource (Utf8.decode content))
    (result.flags.map fun flag => ⟨flag, relative pluginDir (bundleDir ++ sub)⟩, result.modules)

def addModules (modules more : List JsonString) : List JsonString :=
  more.foldl (fun modules spec => if spec ∈ modules then modules else modules ++ [spec]) modules

/-- The scan of the directory of the entry of a manifest. -/
def scanBundle (disk : Disk) (pluginDir : Path) (contentHash : JsonString) (manifest : Json) :
    ScanReport :=
  let permissions := manifestPermissions manifest
  let bundleDir := resolve pluginDir (dirname (manifestEntry manifest))
  let real := disk.fs.follow disk.fs.maxLinks [] bundleDir
  let files := (real.map (collectBundleJsFiles disk)).getD []
  let results := files.filterMap (scanFile parseSource disk pluginDir bundleDir (real.getD []))
  let modules := results.foldl (fun modules result => addModules modules result.2) []
  let findings := sortFindings (results.flatMap Prod.fst ++
    (sortTexts (modules.map normalizeModule)).filterMap (permissionFinding permissions))
  { pluginId := manifestId pluginDir manifest
    passed := findings.all fun finding => finding.severity ≠ .critical
    findings := findings
    contentHash := contentHash
    manifestPermissions := permissions
    modules := sortTexts modules
    scannedFiles := files.length
    limitations := scannerLimitations }

def manifestPath (pluginDir : Path) : Path :=
  pluginDir ++ [jsonString "manifest.json"]

/-- The scan of a plugin directory at an absolute path, with the hash of its
content. -/
def scanPluginDirectory (disk : Disk) (pluginDir : Path) (contentHash : JsonString) :
    Except ScanError ScanReport :=
  match (disk.readFile (manifestPath pluginDir)).bind fun content => parse (Utf8.decode content) with
  | none => .error (.manifest (text (manifestPath pluginDir)))
  | some null => .error .thrown
  | some manifest => .ok (scanBundle parseSource disk pluginDir contentHash manifest)

end

variable {disk : Disk} {dir : Path} {entries : List (Name × Node)}

/-- The files of the bundle below a directory: no link leads to them, no
directory on the way is skipped, and all can be listed. -/
inductive Bundled (disk : Disk) : Path → List (Name × Node) → Path → Prop
  | file {dir : Path} {entries : List (Name × Node)} {name : Name}
      (member : (name, .file) ∈ entries) (isBundle : isBundleFile name = true) :
      Bundled disk dir entries [name]
  | directory {dir sub : Path} {entries inner : List (Name × Node)} {name : Name}
      (member : (name, .directory inner) ∈ entries) (kept : name ∉ skippedDirectories)
      (listable : disk.listable (dir ++ [name]) = true)
      (bundled : Bundled disk (dir ++ [name]) inner sub) : Bundled disk dir entries (name :: sub)

theorem Bundled.weaken {sub : Path} {others : List (Name × Node)}
    (bundled : Bundled disk dir entries sub) (subset : entries ⊆ others) :
    Bundled disk dir others sub := by
  cases bundled with
  | file member isBundle => exact .file (subset member) isBundle
  | directory member kept listable bundled => exact .directory (subset member) kept listable bundled

mutual

theorem bundled_of_collectEntry {dir sub : Path} {name : Name} (node : Node)
    (collected : sub ∈ collectEntry disk dir name node) : Bundled disk dir [(name, node)] sub := by
  cases node with
  | file =>
    rw [collectEntry] at collected
    split at collected
    · next isBundle =>
        obtain rfl := List.mem_singleton.mp collected
        exact .file List.mem_cons_self isBundle
    · cases collected
  | symlink =>
    cases collected
  | directory inner =>
    rw [collectEntry] at collected
    split at collected
    · cases collected
    · next kept =>
        split at collected
        · next listable =>
            obtain ⟨rest, member, rfl⟩ := List.mem_map.mp collected
            exact .directory List.mem_cons_self kept listable
              (bundled_of_collectEntries inner member)
        · cases collected

theorem bundled_of_collectEntries {dir sub : Path} (entries : List (Name × Node))
    (collected : sub ∈ collectEntries disk dir entries) : Bundled disk dir entries sub := by
  match entries with
  | [] =>
    cases collected
  | (name, node) :: entries =>
    rcases List.mem_append.mp collected with first | later
    · exact (bundled_of_collectEntry node first).weaken
        (List.cons_subset_cons _ (List.nil_subset _))
    · exact (bundled_of_collectEntries entries later).weaken (List.subset_cons_self _ _)

end

theorem collectEntry_subset {name : Name} {node : Node} (member : (name, node) ∈ entries) :
    collectEntry disk dir name node ⊆ collectEntries disk dir entries := by
  induction entries with
  | nil => cases member
  | cons entry entries ih =>
    obtain ⟨other, otherNode⟩ := entry
    rcases List.mem_cons.mp member with same | later
    · cases same
      exact List.subset_append_left _ _
    · exact List.Subset.trans (ih later) (List.subset_append_right _ _)

theorem mem_collectEntries_iff {sub : Path} :
    sub ∈ collectEntries disk dir entries ↔ Bundled disk dir entries sub := by
  constructor
  · exact bundled_of_collectEntries entries
  · intro bundled
    induction bundled with
    | file member isBundle =>
      apply collectEntry_subset member
      rw [collectEntry, if_pos isBundle]
      exact List.mem_cons_self
    | directory member kept listable _ ih =>
      apply collectEntry_subset member
      rw [collectEntry, if_neg kept, if_pos listable]
      exact List.mem_map_of_mem ih

end P2PHub.Scanner
