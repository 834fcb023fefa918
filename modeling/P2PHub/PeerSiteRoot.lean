import P2PHub.SiteDataDirectory
import P2PHub.TransitionRuns

/-!
# The cached site root

`getSiteRoot` and `setSiteRoot` of `plugins/peersite/src/index.ts` under all
interleavings.  `status` and `fetchAsset` use the root through `getSiteRoot`
alone, so their calls are calls of it here.
-/

namespace P2PHub.Site

open FileTree Json Transition

section

inductive RootCall
  /-- A first `getSiteRoot` that awaits `storage.get`, and what was read. -/
  | loading
  | loaded (stored : Option JsonString)
  /-- A `setSiteRoot` that awaits `storage.set`, with what the root and the
  storage were when it started. -/
  | storing (siteRoot : JsonString) (real : Path) (before : Option Path × Option JsonString)
  | settled

/-- The variables of the plugin and the stored value, if it is a string.  `last`
is the `setSiteRoot` that started last: its call, its root, whether it has resolved. -/
structure RootCache where
  siteRootReal : Option Path
  rootLoaded : Bool
  stored : Option JsonString
  calls : List RootCall
  last : Option (Nat × Path × Bool)

def RootCache.initial (stored : Option JsonString) : RootCache :=
  ⟨none, false, stored, [], none⟩

inductive RootEvent
  /-- A `getSiteRoot` returned while `last` was as given. -/
  | got (last : Option (Nat × Path × Bool)) (root : Option Path)
  /-- A `setSiteRoot` rejected: the root and the stored value when it started
  and now. -/
  | rejected (before now : Option Path × Option JsonString)

/-- The turns of the event loop.  The file system is the one of the turn. -/
inductive RootLabel
  | getSiteRoot
  | setSiteRoot (fs : FileSystem) (siteRoot : JsonString)
  | reads (index : Nat)
  | resumes (fs : FileSystem) (index : Nat)
  | stores (index : Nat) (succeeds : Bool)

variable (cwd : Path) (dataDir : JsonString)

/-- What the first load makes of the root.  A stored value that is no string or
empty leaves it. -/
def RootCache.loadRoot (fs : FileSystem) (s : RootCache) (stored : Option JsonString) :
    Option Path :=
  match stored.filter (· ≠ []) with
  | none => s.siteRootReal
  | some siteRoot => resolveSiteRootOutsideDataDir fs cwd siteRoot dataDir

def rootStep (s : RootCache) : RootLabel → Option (RootCache × List RootEvent)
  | .getSiteRoot =>
    if s.rootLoaded then some (s, [.got s.last s.siteRootReal])
    else some ({ s with calls := s.calls ++ [.loading] }, [])
  | .setSiteRoot fs siteRoot =>
    match resolveSiteRootOutsideDataDir fs cwd siteRoot dataDir with
    | none => some (s, [.rejected (s.siteRootReal, s.stored) (s.siteRootReal, s.stored)])
    | some real => some ({ s with
        siteRootReal := some real
        rootLoaded := true
        calls := s.calls ++ [.storing siteRoot real (s.siteRootReal, s.stored)]
        last := some (s.calls.length, real, false) }, [])
  | .reads index =>
    match s.calls[index]? with
    | some .loading => some ({ s with calls := s.calls.set index (.loaded s.stored) }, [])
    | _ => none
  | .resumes fs index =>
    match s.calls[index]? with
    | some (.loaded stored) =>
      let root := s.loadRoot cwd dataDir fs stored
      some ({ s with siteRootReal := root, rootLoaded := true, calls := s.calls.set index .settled },
        [.got s.last root])
    | _ => none
  | .stores index succeeds =>
    match s.calls[index]? with
    | some (.storing siteRoot _ before) =>
      let after := { s with calls := s.calls.set index .settled }
      if succeeds then some ({ after with
        stored := some siteRoot
        last := s.last.map fun (call, root, resolved) => (call, root, resolved || call = index) }, [])
      else some (after, [.rejected before (s.siteRootReal, s.stored)])
    | _ => none

/-- While the `setSiteRoot` that started last has resolved, `getSiteRoot`
returns its root, and one that rejects has changed nothing. -/
def RootEvent.Coherent : RootEvent → Prop
  | .got last root => ∀ call real, last = some (call, real, true) → root = some real
  | .rejected before now => now = before

/-- A load that ends after a root was set leaves that root, and no write into the
storage fails. -/
def RootCache.Undisturbed (s : RootCache) : RootLabel → Prop
  | .resumes fs index => s.last.isSome → ∀ stored, s.calls[index]? = some (.loaded stored) →
      s.loadRoot cwd dataDir fs stored = s.siteRootReal
  | .stores _ succeeds => succeeds = true
  | _ => True

end

variable {cwd : Path} {dataDir : JsonString} {s after : RootCache} {events history : List RootEvent}

/-- Once a root was set, it is the one in memory. -/
def RootCache.Set (s : RootCache) : Prop :=
  ∀ call real resolved, s.last = some (call, real, resolved) →
    s.rootLoaded = true ∧ s.siteRootReal = some real

theorem RootCache.Set.step {label : RootLabel} (isSet : s.Set)
    (undisturbed : s.Undisturbed cwd dataDir label)
    (stepped : rootStep cwd dataDir s label = some (after, events)) :
    after.Set ∧ ∀ event ∈ events, event.Coherent := by
  cases label with
  | getSiteRoot =>
    simp only [rootStep] at stepped
    split at stepped
    · cases stepped
      refine ⟨isSet, fun event member => ?_⟩
      cases List.mem_singleton.mp member
      exact fun call real last => (isSet call real true last).2
    · cases stepped
      exact ⟨isSet, fun event member => absurd member List.not_mem_nil⟩
  | setSiteRoot =>
    simp only [rootStep] at stepped
    split at stepped
    · cases stepped
      refine ⟨isSet, fun event member => ?_⟩
      cases List.mem_singleton.mp member
      rfl
    · cases stepped
      refine ⟨fun call real resolved last => ?_, fun event member => absurd member List.not_mem_nil⟩
      cases last
      exact ⟨rfl, rfl⟩
  | reads =>
    simp only [rootStep] at stepped
    split at stepped
    · cases stepped
      exact ⟨isSet, fun event member => absurd member List.not_mem_nil⟩
    · cases stepped
  | resumes fs =>
    simp only [rootStep] at stepped
    split at stepped
    · next stored found =>
      cases stepped
      have kept : ∀ call real resolved, s.last = some (call, real, resolved) →
          s.loadRoot cwd dataDir fs stored = some real := by
        intro call real resolved last
        rw [undisturbed (by simp [last]) stored found]
        exact (isSet call real resolved last).2
      refine ⟨fun call real resolved last => ⟨rfl, kept call real resolved last⟩, fun event member => ?_⟩
      cases List.mem_singleton.mp member
      exact fun call real last => kept call real true last
    · cases stepped
  | stores index succeeds =>
    simp only [rootStep] at stepped
    split at stepped
    · have written : succeeds := undisturbed
      rw [if_pos written] at stepped
      cases stepped
      refine ⟨fun call real resolved last => ?_, fun event member => absurd member List.not_mem_nil⟩
      obtain ⟨⟨other, path, earlier⟩, isLast, same⟩ := Option.map_eq_some_iff.mp last
      cases same
      exact isSet _ _ earlier isLast
    · cases stepped

/-- In every run of undisturbed turns, every answer of `getSiteRoot` and every
rejection of `setSiteRoot` is coherent. -/
theorem site_root_coherent {stored : Option JsonString}
    (runs : Runs (rootStep cwd dataDir) (fun _ => RootCache.Undisturbed cwd dataDir)
      (.initial stored) history s) : s.Set ∧ ∀ event ∈ history, event.Coherent := by
  apply runs.invariant fun history s => s.Set ∧ ∀ event ∈ history, RootEvent.Coherent event
  · exact ⟨fun _ _ _ last => (by cases last), fun _ member => absurd member List.not_mem_nil⟩
  · intro history before label after events held undisturbed stepped
    obtain ⟨isSet, coherent⟩ := held.1.step undisturbed stepped
    exact ⟨isSet, List.forall_mem_append.mpr ⟨held.2, coherent⟩⟩

def homeSite : Path :=
  [jsonString "home", jsonString "site"]

theorem site_root_coherent_home : ∃ s : RootCache, s.last = some (0, homeSite, false) ∧ s.Set := by
  obtain ⟨s, started, isLast⟩ : ∃ s, rootStep topDirectory (jsonString "/home/data") (.initial none)
      (.setSiteRoot homeWithData (jsonString "/home/site")) = some (s, []) ∧
        s.last = some (0, homeSite, false) := by
    exact ⟨_, rfl, rfl⟩
  exact ⟨s, isLast, (site_root_coherent (.tail .refl (by trivial) started)).1⟩

/-- A first load that ends after a root was set and stored brings the older root
back. -/
theorem loaded_root_returns : ∃ history s, Runs (rootStep topDirectory (jsonString "/home/data"))
    (fun _ _ _ => True) (.initial (some (jsonString "/home"))) history s ∧
      s.last = some (1, homeSite, true) ∧ s.siteRootReal = some [jsonString "home"] := by
  obtain ⟨history, s, runs, returned⟩ := exists_runs_of_any
    (rootStep topDirectory (jsonString "/home/data")) (fun _ => True)
    (.initial (some (jsonString "/home"))) [.getSiteRoot, .reads 0,
      .setSiteRoot homeWithData (jsonString "/home/site"), .stores 1 true, .resumes homeWithData 0]
    (fun last => decide (last.1.last = some (1, homeSite, true)) &&
      decide (last.1.siteRootReal = some [jsonString "home"]))
    (fun _ _ => trivial) (by decide +kernel)
  obtain ⟨isLast, isRoot⟩ := Bool.and_eq_true_iff.mp returned
  exact ⟨history, s, runs, of_decide_eq_true isLast, of_decide_eq_true isRoot⟩

end P2PHub.Site
