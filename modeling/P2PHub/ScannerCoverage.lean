import P2PHub.PluginScanner

/-!
# What a passed scan covers

A scan passes exactly when no critical pattern occurs in a file of the bundle.
The files that Node loads from the entry by relative paths can lie elsewhere, or
have a name that the scanner leaves out.
-/

namespace P2PHub.Scanner

open Json FileTree Utf8

/-- A node loads a module by a constant specifier. -/
inductive Loads : SyntaxNode → JsonString → Prop
  | call {line : Nat} {callee first : SyntaxNode} {typeArguments rest : List SyntaxNode}
      {spec : JsonString}
      (calls : Calls callee (jsonString "require") ∨ Calls callee (jsonString "import"))
      (constant : Constant first spec)
        : Loads (.call line callee typeArguments (first :: rest)) spec
  | importDeclaration {line : Nat} {clause : List SyntaxNode} {moduleSpecifier : SyntaxNode}
      {spec : JsonString} (constant : Constant moduleSpecifier spec) :
      Loads (.importDeclaration line false clause moduleSpecifier) spec
  | exportFrom {line : Nat} {clause : List SyntaxNode} {moduleSpecifier : SyntaxNode}
      {spec : JsonString} (constant : Constant moduleSpecifier spec) :
      Loads (.exportFrom line false clause moduleSpecifier) spec
  | importEquals {line : Nat} {clause : List SyntaxNode} {reference : SyntaxNode}
      {spec : JsonString} (constant : Constant reference spec) :
      Loads (.importEquals line clause reference) spec

def isRelative (spec : JsonString) : Bool :=
  spec ∈ [".", ".."].map jsonString || (jsonString "./").isPrefixOf spec ||
    (jsonString "../").isPrefixOf spec

def withSuffix (path : Path) (suffix : String) : Path :=
  path.dropLast ++ [path.getLast?.getD [] ++ jsonString suffix]

/-- The paths that Node tries for a path: the path itself, the path with an
extension, and the index files of a directory. -/
def candidates (path : Path) : List Path :=
  path :: [".js", ".json", ".node"].map (withSuffix path) ++
    ["index.js", "index.json", "index.node"].map fun name => path ++ [jsonString name]

/-- The file that Node loads for a relative specifier in a directory. -/
def resolveModule (disk : Disk) (directory : Path) (spec : JsonString) : Option Path :=
  (candidates (resolve directory spec)).findSome? disk.realFile

/-- The files that Node can load from the file at a path by constant relative
specifiers. -/
inductive Reachable (parseSource : List Char → SyntaxNode) (disk : Disk) (entry : Path) :
    Path → Prop
  | entry {file : Path} (found : disk.realFile entry = some file) :
      Reachable parseSource disk entry file
  | step {file target : Path} {content : List UInt8} {node : SyntaxNode} {spec : JsonString}
      (earlier : Reachable parseSource disk entry file)
      (read : disk.content file = some content)
      (occurs : Occurs node (parseSource (decode content))) (loads : Loads node spec)
      (isRelative : isRelative spec = true)
      (found : resolveModule disk file.dropLast spec = some target) :
      Reachable parseSource disk entry target

section

variable {parseSource : List Char → SyntaxNode} {disk : Disk} {pluginDir : Path}
  {contentHash : JsonString} {finding : ScanFinding}

def Collected (disk : Disk) (pluginDir : Path) (entry : JsonString) (file : Path) : Prop :=
  ∃ real entries sub,
    disk.fs.follow disk.fs.maxLinks [] (resolve pluginDir (dirname entry)) = some real ∧
    disk.fs.lstat real = some (.directory entries) ∧ disk.listable real = true ∧
    Bundled disk real entries sub ∧ file = real ++ sub

/-- What a file is read as contains a critical pattern. -/
def Dangerous (parseSource : List Char → SyntaxNode) (disk : Disk) (file : Path) : Prop :=
  ∃ content, disk.content file = some content ∧ Contains (parseSource (decode content))

theorem collected_iff {entry : JsonString} {file : Path} :
    Collected disk pluginDir entry file ↔ ∃ real sub,
      disk.fs.follow disk.fs.maxLinks [] (resolve pluginDir (dirname entry)) = some real ∧
      sub ∈ collectBundleJsFiles disk real ∧ file = real ++ sub := by
  constructor
  · rintro ⟨real, entries, sub, followed, isDirectory, listable, bundled, rfl⟩
    refine ⟨real, sub, followed, ?_, rfl⟩
    rw [collectBundleJsFiles, isDirectory]
    dsimp only
    rw [if_pos listable]
    exact mem_collectEntries_iff.mpr bundled
  · rintro ⟨real, sub, followed, collected, rfl⟩
    unfold collectBundleJsFiles at collected
    split at collected
    · next entries isDirectory =>
        split at collected
        · next listable =>
            exact ⟨real, entries, sub, followed, isDirectory, listable,
              mem_collectEntries_iff.mp collected, rfl⟩
        · cases collected
    · cases collected

theorem mem_sortFindings {findings : List ScanFinding} :
    finding ∈ sortFindings findings ↔ finding ∈ findings := by
  simp only [sortFindings, List.mem_append, List.mem_filter, decide_eq_true_eq]
  constructor
  · rintro (⟨member, _⟩ | ⟨member, _⟩)
    · exact member
    · exact member
  · intro member
    by_cases critical : finding.severity = .critical
    · exact Or.inl ⟨member, critical⟩
    · exact Or.inr ⟨member, critical⟩

theorem permissionFinding_advisory {permissions : List JsonString} {moduleName : JsonString}
    (found : permissionFinding permissions moduleName = some finding) :
    finding.severity = .advisory := by
  unfold permissionFinding at found
  split at found
  · split at found
    · cases found
    · cases found
      rfl
  · split at found
    · cases found
      rfl
    · cases found

theorem scanFile_critical_iff {bundleDir real sub : Path} :
    (∃ result, scanFile parseSource disk pluginDir bundleDir real sub = some result ∧
      ∃ finding ∈ result.1, finding.severity = .critical) ↔
      Dangerous parseSource disk (real ++ sub) := by
  unfold scanFile Dangerous
  cases disk.content (real ++ sub) with
  | none => simp
  | some content =>
    have scanned := hasCritical_scanSource (parseSource (decode content))
    simp only [Option.map_some, Option.some.injEq, exists_eq_left', List.mem_map,
      exists_exists_and_eq_and, ← scanned]
    rfl

theorem scanBundle_critical_iff (manifest : Json) :
    (∃ finding ∈ (scanBundle parseSource disk pluginDir contentHash manifest).findings,
      finding.severity = .critical) ↔
      ∃ file, Collected disk pluginDir (manifestEntry manifest) file ∧
        Dangerous parseSource disk file := by
  simp only [scanBundle, mem_sortFindings, List.mem_append, List.mem_flatMap, List.mem_filterMap,
    collected_iff]
  constructor
  · rintro ⟨finding, ⟨result, ⟨sub, collected, found⟩, member⟩ | ⟨name, _, found⟩, critical⟩
    · cases followed : disk.fs.follow disk.fs.maxLinks []
          (resolve pluginDir (dirname (manifestEntry manifest))) with
      | none =>
        rw [followed] at collected
        cases collected
      | some real =>
        rw [followed] at collected found
        exact ⟨real ++ sub, ⟨real, sub, rfl, collected, rfl⟩,
          scanFile_critical_iff.mp ⟨result, found, finding, member, critical⟩⟩
    · rw [permissionFinding_advisory found] at critical
      cases critical
  · rintro ⟨_, ⟨real, sub, followed, collected, rfl⟩, dangerous⟩
    obtain ⟨result, found, finding, member, critical⟩ := scanFile_critical_iff.mpr dangerous
    refine ⟨finding, Or.inl ⟨result, ⟨sub, ?_, ?_⟩, member⟩, critical⟩
    · rw [followed]
      exact collected
    · rw [followed]
      exact found

theorem scanBundle_passed_iff (manifest : Json) :
    (scanBundle parseSource disk pluginDir contentHash manifest).passed ↔
      ∀ file, Collected disk pluginDir (manifestEntry manifest) file →
        ¬Dangerous parseSource disk file := by
  have clean : (scanBundle parseSource disk pluginDir contentHash manifest).passed ↔
      ¬∃ finding ∈ (scanBundle parseSource disk pluginDir contentHash manifest).findings,
        finding.severity = .critical := by
    simp [scanBundle]
  rw [clean, scanBundle_critical_iff]
  simp only [not_exists, not_and]

/-- A scan passes exactly when no file of the bundle contains a critical pattern,
in any position: in particular none that can be reached from the entry. -/
theorem scanner_coverage {report : ScanReport}
    (scanned : scanPluginDirectory parseSource disk pluginDir contentHash = .ok report) :
    ∃ manifest, (disk.readFile (manifestPath pluginDir)).bind (fun content =>
        parse (decode content)) = some manifest ∧
      (report.passed ↔ ∀ file, Collected disk pluginDir (manifestEntry manifest) file →
        ¬Dangerous parseSource disk file) ∧ (report.passed → ∀ file,
        Reachable parseSource disk (resolve pluginDir (manifestEntry manifest)) file →
          Dangerous parseSource disk file →
            ¬Collected disk pluginDir (manifestEntry manifest) file) := by
  unfold scanPluginDirectory at scanned
  split at scanned
  · cases scanned
  · cases scanned
  · next manifest _ read =>
      cases scanned
      have passed := @scanBundle_passed_iff parseSource disk pluginDir contentHash manifest
      exact ⟨manifest, read, passed, fun isPassed file _ dangerous collected =>
        passed.mp isPassed file collected dangerous⟩

end

def pluginPath : Path :=
  [jsonString "plugin"]

def distPath (name : String) : Path :=
  pluginPath ++ [jsonString "dist", jsonString name]

def callText (name argument : String) : List Char :=
  name.toList ++ ['(', '"'] ++ argument.toList ++ ['"', ')']

def callTree (name argument : String) : SyntaxNode :=
  .other [.call 1 (.identifier (jsonString name)) [] [.stringLiteral (jsonString argument)]]

/-- A plugin whose entry requires a file that is named like a test. -/
def evasiveDisk : Disk where
  fs := ⟨[(jsonString "plugin", .directory [(jsonString "manifest.json", .file),
    (jsonString "dist", .directory [(jsonString "index.js", .file),
      (jsonString "help.test.js", .file)])])], 40, 40⟩
  listable _ := true
  content path :=
    if path = distPath "index.js" then some (encode (callText "require" "./help.test.js"))
    else if path = distPath "help.test.js" then some (encode (callText "eval" "1"))
    else if path = manifestPath pluginPath then
      some (encode (canonicalizeJson (object [
        (jsonString "entry", string (jsonString "./dist/index.js")),
        (jsonString "id", string (jsonString "plugin"))])))
    else none

def evasiveParse (source : List Char) : SyntaxNode :=
  if source = callText "require" "./help.test.js" then callTree "require" "./help.test.js"
  else if source = callText "eval" "1" then callTree "eval" "1"
  else .other []

theorem evasive_passes : ((scanPluginDirectory evasiveParse evasiveDisk pluginPath []).map
    ScanReport.passed).toOption = some true := by
  decide +kernel

theorem evasive_entry : ((evasiveDisk.readFile (manifestPath pluginPath)).bind fun content =>
    parse (decode content)).map manifestEntry = some (jsonString "./dist/index.js") := by
  decide +kernel

/-- The entry itself is clean. -/
theorem scanner_coverage_evasive : ¬Dangerous evasiveParse evasiveDisk (distPath "index.js") := by
  have collected : Collected evasiveDisk pluginPath (jsonString "./dist/index.js")
      (distPath "index.js") :=
    collected_iff.mpr ⟨pluginPath ++ [jsonString "dist"], [jsonString "index.js"],
      by decide +kernel, by decide +kernel, rfl⟩
  have passes := evasive_passes
  cases scanned : scanPluginDirectory evasiveParse evasiveDisk pluginPath [] with
  | error =>
    rw [scanned] at passes
    cases passes
  | ok =>
    rw [scanned] at passes
    obtain ⟨manifest, read, passed, _⟩ := scanner_coverage scanned
    have entry := evasive_entry
    rw [read] at entry
    rw [Option.some.inj entry] at passed
    exact passed.mp (Option.some.inj passes) (distPath "index.js") collected

/-- A scan passes although a file that the entry requires contains a call of
`eval`. -/
theorem evasive_file_reached : ((scanPluginDirectory evasiveParse evasiveDisk pluginPath []).map
      ScanReport.passed).toOption = some true ∧
    Reachable evasiveParse evasiveDisk (resolve pluginPath (jsonString "./dist/index.js"))
      (distPath "help.test.js") ∧ Dangerous evasiveParse evasiveDisk (distPath "help.test.js") := by
  refine ⟨evasive_passes, ?_, ?_⟩
  · have entry : Reachable evasiveParse evasiveDisk
        (resolve pluginPath (jsonString "./dist/index.js")) (distPath "index.js") :=
      .entry (by decide +kernel)
    have source : evasiveParse (decode (encode (callText "require" "./help.test.js"))) =
        callTree "require" "./help.test.js" := by
      exact if_pos rfl
    have loads : Loads (.call 1 (.identifier (jsonString "require")) []
        [.stringLiteral (jsonString "./help.test.js")]) (jsonString "./help.test.js") :=
      .call (Or.inl (.directly (.none _) (.identifier _))) (.literal _)
    refine entry.step rfl ?_ loads (by decide +kernel) (by decide +kernel)
    exact .child List.mem_cons_self .here
  · refine ⟨encode (callText "eval" "1"), by decide +kernel, ?_⟩
    exact ⟨_, .child List.mem_cons_self .here, .evalCall (.directly (.none _) (.identifier _))⟩

end P2PHub.Scanner
