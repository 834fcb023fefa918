import P2PHub.JsonTrees

/-!
# Diagnostic bundles

`buildBundle` of `core-server/src/diagnostics/bundler.ts`.  The answers of the
reader are given with the ids that are asked for: the state of the logs may
change from one source to the next.
-/

namespace P2PHub.Diagnostics

def bundleMaxRecordsPerSource : Nat := 500

def bundleMaxTotalRecords : Nat := 2000

/-- `fields` is absent where the record has none or a falsy value. -/
structure RecordView where
  time : Int
  level : JsonString
  moduleName : JsonString
  msg : JsonString
  fields : Option Json

/-- What `readSource` returns for a known id. -/
structure SourceRead where
  level : JsonString
  records : List RecordView

structure BundleLogSource where
  sourceId : JsonString
  level : JsonString
  limit : Nat
  recordCount : Nat
  records : List RecordView

inductive SnapshotSection
  | system
  | runtime
  | hardware
  | network
  | vault
  | boot
  | plugins
  deriving DecidableEq

def SnapshotSection.key : SnapshotSection → JsonString
  | system => Json.jsonString "system"
  | runtime => Json.jsonString "runtime"
  | hardware => Json.jsonString "hardware"
  | network => Json.jsonString "network"
  | vault => Json.jsonString "vault"
  | boot => Json.jsonString "boot"
  | plugins => Json.jsonString "plugins"

def bundleSnapshotSections : List SnapshotSection :=
  [.system, .runtime, .hardware, .network, .vault, .boot, .plugins]

structure BundlePreview where
  sections : List SnapshotSection
  logSources : List (JsonString × Nat)
  hasNote : Bool

structure DiagnosticBundle where
  createdAt : Int
  snapshot : Json
  logs : List BundleLogSource
  userNote : JsonString
  preview : BundlePreview

/-- The selected ids stand with what the reader answers for each. -/
structure BundleOptions where
  snapshot : SnapshotSection → Json
  sections : Option (List SnapshotSection)
  sources : List (JsonString × Option SourceRead)
  userNote : JsonString

section

-- The masking filters of the SDK, for texts and for values.
variable (redactLines : JsonString → JsonString) (redactStructured : Json → Json)

def RecordView.redacted (record : RecordView) : RecordView :=
  { record with
    msg := redactLines record.msg
    fields := record.fields.map redactStructured }

def BundleLogSource.redacted (log : BundleLogSource) : BundleLogSource :=
  { log with records := log.records.map (RecordView.redacted redactLines redactStructured) }

/-- What the loop pushes for a source. -/
def logOf (id : JsonString) (read : SourceRead) : BundleLogSource :=
  let records := read.records.take bundleMaxRecordsPerSource
  { sourceId := id
    level := read.level
    limit := bundleMaxRecordsPerSource
    recordCount := records.length
    records }

/-- The loop over the selected sources, with the records bundled so far. -/
def bundleLogs (totalRecords : Nat) : List (JsonString × Option SourceRead) → List BundleLogSource
  | [] => []
  | (id, read) :: sources =>
    if bundleMaxTotalRecords ≤ totalRecords then []
    else match read with
      | none => bundleLogs totalRecords sources
      | some read =>
        logOf id read :: bundleLogs (totalRecords + (logOf id read).records.length) sources

def redactBundle (bundle : DiagnosticBundle) : DiagnosticBundle :=
  { bundle with
    snapshot := redactStructured bundle.snapshot
    logs := bundle.logs.map (BundleLogSource.redacted redactLines redactStructured)
    userNote := redactLines bundle.userNote }

def buildBundle (now : Int) (options : BundleOptions) : DiagnosticBundle :=
  let included := (options.sections.getD bundleSnapshotSections).eraseDups
  let logs := bundleLogs 0 options.sources
  let userNote := options.userNote.take 4000
  redactBundle redactLines redactStructured {
    createdAt := now
    snapshot := .object ((bundleSnapshotSections.filter (· ∈ included)).map fun part =>
      (part.key, options.snapshot part))
    logs
    userNote
    preview := {
      sections := included
      logSources := logs.map fun log => (log.sourceId, log.recordCount)
      hasNote := !userNote.isEmpty } }

end

/-- The logs of all readable sources, each with its own first records. -/
def readableLogs (sources : List (JsonString × Option SourceRead)) : List BundleLogSource :=
  sources.filterMap fun source => source.2.map (logOf source.1)

def recordTotal (logs : List BundleLogSource) : Nat :=
  (logs.map fun log => log.records.length).sum

/-- The readable sources fit together, or the first few of them fill the bundle
exactly. -/
def Fills (sources : List (JsonString × Option SourceRead)) : Prop :=
  recordTotal (readableLogs sources) ≤ bundleMaxTotalRecords ∨
    ∃ first, recordTotal ((readableLogs sources).take first) = bundleMaxTotalRecords

variable {total : Nat} {sources : List (JsonString × Option SourceRead)}

theorem bundleLogs_full (full : bundleMaxTotalRecords ≤ total) : bundleLogs total sources = [] := by
  cases sources with
  | nil => rfl
  | cons => simp [bundleLogs, full]

theorem exists_bundleLogs (total : Nat) (sources : List (JsonString × Option SourceRead)) :
    ∃ first, bundleLogs total sources = (readableLogs sources).take first := by
  induction sources generalizing total with
  | nil => exact ⟨0, rfl⟩
  | cons source sources ih =>
    obtain ⟨id, read⟩ := source
    by_cases full : bundleMaxTotalRecords ≤ total
    · exact ⟨0, by simp [bundleLogs_full full]⟩
    · cases read with
      | none => simpa [bundleLogs, full, readableLogs] using ih total
      | some read =>
        obtain ⟨first, logs⟩ := ih (total + (logOf id read).records.length)
        exact ⟨first + 1, by simp [bundleLogs, full, logs, readableLogs]⟩

/-- The budget is checked before a source is added: the source that crosses it
stays whole. -/
theorem bundleLogs_le_iff (below : total ≤ bundleMaxTotalRecords) :
    total + recordTotal (bundleLogs total sources) ≤ bundleMaxTotalRecords ↔
      total + recordTotal (readableLogs sources) ≤ bundleMaxTotalRecords ∨
        ∃ first, total + recordTotal ((readableLogs sources).take first) =
          bundleMaxTotalRecords := by
  induction sources generalizing total with
  | nil => simp [bundleLogs, readableLogs, recordTotal, below]
  | cons source sources ih =>
    obtain ⟨id, read⟩ := source
    by_cases full : bundleMaxTotalRecords ≤ total
    · have filled : total = bundleMaxTotalRecords := le_antisymm below full
      exact iff_of_true (by simpa [bundleLogs_full full, recordTotal] using below)
        (.inr ⟨0, by simpa [recordTotal] using filled⟩)
    · cases read with
      | none => simpa [bundleLogs, full, readableLogs] using ih below
      | some read =>
        have pushed : bundleLogs total ((id, some read) :: sources) =
            logOf id read :: bundleLogs (total + (logOf id read).records.length) sources := by
          simp [bundleLogs, full]
        have readable : readableLogs ((id, some read) :: sources) =
            logOf id read :: readableLogs sources := by simp [readableLogs]
        have sums (logs : List BundleLogSource) : recordTotal (logOf id read :: logs) =
            (logOf id read).records.length + recordTotal logs := by simp [recordTotal]
        rw [pushed, readable, sums, sums]
        by_cases fits : total + (logOf id read).records.length ≤ bundleMaxTotalRecords
        · rw [← Nat.add_assoc, ih fits, ← Nat.add_assoc]
          refine or_congr_right ⟨?_, ?_⟩
          · rintro ⟨first, filled⟩
            exact ⟨first + 1, by rw [List.take_succ_cons, sums]; omega⟩
          · rintro ⟨first, filled⟩
            cases first with
            | zero => simp [recordTotal] at filled; omega
            | succ first =>
              rw [List.take_succ_cons, sums] at filled
              exact ⟨first, by omega⟩
        · refine iff_of_false (by omega) ?_
          rintro (sum | ⟨first, filled⟩)
          · omega
          · cases first with
            | zero => simp [recordTotal] at filled; omega
            | succ => rw [List.take_succ_cons, sums] at filled; omega

variable (redactLines : JsonString → JsonString) (redactStructured : Json → Json)

theorem recordTotal_redacted (logs : List BundleLogSource) :
    recordTotal (logs.map (BundleLogSource.redacted redactLines redactStructured)) =
      recordTotal logs := by
  simp [recordTotal, BundleLogSource.redacted, Function.comp_def]

/-- The bundle stays within its cap, its logs being those of the first readable
sources with their own records in order, just when these fit or fill it. -/
theorem bundle_bounded_iff (now : Int) (options : BundleOptions) :
    (recordTotal (buildBundle redactLines redactStructured now options).logs ≤
        bundleMaxTotalRecords ∧
      ∃ first, (buildBundle redactLines redactStructured now options).logs =
        ((readableLogs options.sources).take first).map
          (BundleLogSource.redacted redactLines redactStructured)) ↔
    Fills options.sources := by
  have bound := @bundleLogs_le_iff 0 options.sources (Nat.zero_le _)
  simp only [Nat.zero_add] at bound
  obtain ⟨first, logs⟩ := exists_bundleLogs 0 options.sources
  simp only [buildBundle, redactBundle, recordTotal_redacted]
  rw [bound]
  exact and_iff_left ⟨first, by rw [logs]⟩

def busySource : JsonString × Option SourceRead :=
  (Json.jsonString "chat", some {
    level := Json.jsonString "info"
    records := List.replicate 190 ⟨0, [], [], [], none⟩ })

/-- Eleven sources with 190 records each. -/
theorem busy_sources_exceed : ¬ ∀ (now : Int) (options : BundleOptions),
    recordTotal (buildBundle id id now options).logs ≤ bundleMaxTotalRecords := by
  intro bounded
  have total := bounded 0 ⟨fun _ => .null, none, List.replicate 11 busySource, []⟩
  simp only [buildBundle, redactBundle, recordTotal_redacted] at total
  revert total
  decide +kernel

end P2PHub.Diagnostics
