import P2PHub.FileTrees
import P2PHub.JsonTrees

/-!
# The files of a site

`resolveAndContainFile` of `core/src/site/site-files.ts` and `mirrorDestination`
of `core/src/site/site-mirror.ts`.  The rule about dots is one about the
requested path: a link inside the site can lead to a file that the rule would
deny.
-/

namespace P2PHub.Site

open FileTree Json

/-- What no segment of a requested path may be or contain. -/
def isDenied (segment : Name) : Bool :=
  segment.head? = some 46 || segment.contains 92 || segment.contains 0

def indexName : Name := jsonString "index.html"

/-- `resolveAndContainFile`, of a site root that is read from a working
directory. -/
def resolveAndContainFile (fs : FileSystem) (cwd : Path) (siteRoot requestedPath : JsonString) :
    Option Path := do
  let root ← fs.realpathSync (resolve cwd siteRoot)
  let segments := parts requestedPath
  if segments.any isDenied then none
  else
    let candidate ← fs.realpathSync (segments.foldl push root)
    if isInside root candidate then
      let stat ← fs.statSync candidate
      if stat.isDirectory then
        let index ← fs.realpathSync (push candidate indexName)
        if isInside root index then some index else none
      else some candidate
    else none

def mirrorDestination (cwd : Path) (mirrorRoot requestedPath : JsonString) : Option Path :=
  let segments := parts requestedPath
  if segments = [] then none
  else if segments.any isDenied then none
  else
    let root := resolve cwd mirrorRoot
    let candidate := segments.foldl resolve root
    if isInside root candidate then some candidate else none

section

variable {fs : FileSystem} {cwd : Path} {siteRoot requestedPath : JsonString} {path : Path}

def Allowed (requestedPath : JsonString) : Prop :=
  ∀ segment ∈ parts requestedPath, isDenied segment = false

/-- What a path is that `resolveAndContainFile` returns.  Unless a link is on
the way of the request, its names are those of the request. -/
structure Contained (fs : FileSystem) (cwd : Path) (siteRoot requestedPath : JsonString)
    (path : Path) : Prop where
  allowed : Allowed requestedPath
  resolved : fs.Resolved path
  inside : ∃ root rest, fs.realpathSync (resolve cwd siteRoot) = some root ∧ path = root ++ rest ∧
    (fs.Resolved (root ++ parts requestedPath) →
      (∀ node, fs.lstat (root ++ parts requestedPath ++ [indexName]) = some node →
        node.isSymlink = false) → ∀ name ∈ rest, name.head? ≠ some 46)
  /-- Only the index of a directory can be a directory. -/
  served : ∀ node, fs.lstat path = some node → node.isDirectory = true →
    ∃ directory, fs.Resolved directory ∧ fs.realpathSync (directory ++ [indexName]) = some path

theorem allowed_iff : Allowed requestedPath ↔ (parts requestedPath).any isDenied = false := by
  rw [List.any_eq_false]
  constructor
  · intro allowed segment member
    rw [allowed segment member]
    exact nofun
  · intro allowed segment member
    exact Bool.eq_false_iff.mpr (allowed segment member)

theorem Allowed.head (allowed : Allowed requestedPath) :
    ∀ segment ∈ parts requestedPath, segment.head? ≠ some 46 := by
  intro segment member dotted
  have denied := allowed segment member
  rw [isDenied, dotted] at denied
  cases denied

theorem resolve_segment {before : Path} {segment : Name} (undivided : segment ≠ [] ∧ 47 ∉ segment)
    (plain : segment.head? ≠ some 46) : resolve before segment = before ++ [segment] := by
  have relative : segment.head? ≠ some 47 := fun starts =>
    undivided.2 (List.mem_of_mem_head? starts)
  have single : parts segment = [segment] := by
    rw [parts, List.splitOn_eq_singleton undivided.2, List.filter_singleton,
      decide_eq_true undivided.1]
    rfl
  rw [resolve, single, if_neg relative]
  exact foldl_push_eq (List.forall_mem_singleton.mpr plain)

theorem foldl_resolve_eq {before segments : Path} (undivided : Undivided segments)
    (plain : ∀ segment ∈ segments, segment.head? ≠ some 46) :
    segments.foldl resolve before = before ++ segments := by
  induction segments generalizing before with
  | nil => rw [List.foldl_nil, List.append_nil]
  | cons segment segments ih =>
    obtain ⟨first, rest⟩ := List.forall_mem_cons.mp undivided
    obtain ⟨firstPlain, restPlain⟩ := List.forall_mem_cons.mp plain
    rw [List.foldl_cons, resolve_segment first firstPlain, ih rest restPlain, List.append_assoc]
    rfl

theorem push_indexName (path : Path) : push path indexName = path ++ [indexName] := by
  have notHere : indexName ≠ [46] := by decide
  have notUp : indexName ≠ [46, 46] := by decide
  rw [push, if_neg notHere, if_neg notUp]

theorem isName_indexName : IsName indexName :=
  ⟨by decide, by decide, by decide, by decide⟩

theorem Allowed.valid (allowed : Allowed requestedPath) : Valid (parts requestedPath) := by
  intro segment member
  obtain ⟨nonempty, undivided⟩ := undivided_parts requestedPath segment member
  have head := allowed.head segment member
  exact ⟨nonempty, undivided, fun same => head (by rw [same]; rfl),
    fun same => head (by rw [same]; rfl)⟩

theorem contained_of_resolveAndContainFile (cwdValid : Valid cwd)
    (returned : resolveAndContainFile fs cwd siteRoot requestedPath = some path) :
    Contained fs cwd siteRoot requestedPath path := by
  obtain ⟨root, rootFound, returned⟩ := Option.bind_eq_some_iff.mp returned
  have rootValid : Valid root := realpath_valid (valid_resolve cwdValid siteRoot) rootFound
  dsimp only at returned
  split at returned
  · cases returned
  · next notDenied =>
      have allowed : Allowed requestedPath := allowed_iff.mpr (Bool.eq_false_iff.mpr notDenied)
      obtain ⟨candidate, candidateFound, returned⟩ := Option.bind_eq_some_iff.mp returned
      rw [foldl_push_eq allowed.head] at candidateFound
      have requestValid : Valid (root ++ parts requestedPath) :=
        valid_append rootValid allowed.valid
      have candidateValid : Valid candidate := realpath_valid requestValid candidateFound
      have candidateResolved : fs.Resolved candidate := realpath_resolved candidateFound
      -- Without a link on the way the candidate is what was requested.
      have direct (resolved : fs.Resolved (root ++ parts requestedPath)) :
          candidate = root ++ parts requestedPath := by
        have same := realpath_of_resolved resolved fs.rounds
        exact Option.some.inj (candidateFound.symm.trans same)
      split at returned
      · next inside =>
          obtain ⟨stat, statFound, returned⟩ := Option.bind_eq_some_iff.mp returned
          rw [statSync_of_resolved candidateResolved candidateValid] at statFound
          split at returned
          · obtain ⟨index, indexFound, returned⟩ := Option.bind_eq_some_iff.mp returned
            split at returned
            · next indexInside =>
                obtain rfl := Option.some.inj returned
                have indexValid : Valid index := realpath_valid
                  (valid_append candidateValid (List.forall_mem_singleton.mpr isName_indexName))
                  indexFound
                obtain ⟨rest, parted⟩ := exists_append_of_isInside rootValid indexValid indexInside
                refine ⟨allowed, realpath_resolved indexFound, ⟨root, rest, rootFound, parted, ?_⟩,
                  fun _ _ _ => ⟨candidate, candidateResolved, indexFound⟩⟩
                intro resolved plain name member
                have requested := direct resolved
                rw [requested] at indexFound
                have indexResolved : fs.Resolved (root ++ parts requestedPath ++ [indexName]) := by
                  obtain ⟨node, entry⟩ := exists_of_realpath resolved indexFound
                  exact ⟨node, entry, plain node entry⟩
                have same := realpath_of_resolved indexResolved fs.rounds
                have indexEq := Option.some.inj (indexFound.symm.trans same)
                rw [parted, List.append_assoc] at indexEq
                rw [List.append_cancel_left indexEq] at member
                rcases List.mem_append.mp member with segment | isIndex
                · exact allowed.head name segment
                · rw [List.mem_singleton.mp isIndex]
                  decide
            · cases returned
          · next notDirectory =>
              obtain rfl := Option.some.inj returned
              obtain ⟨rest, parted⟩ := exists_append_of_isInside rootValid candidateValid inside
              refine ⟨allowed, candidateResolved, ⟨root, rest, rootFound, parted, ?_⟩, ?_⟩
              · intro resolved _ name member
                have requested := direct resolved
                rw [parted] at requested
                rw [List.append_cancel_left requested] at member
                exact allowed.head name member
              · intro node found isDirectory
                obtain rfl := Option.some.inj (statFound.symm.trans found)
                exact absurd isDirectory notDirectory
      · cases returned

theorem mirrored {mirrorRoot : JsonString}
    (returned : mirrorDestination cwd mirrorRoot requestedPath = some path) :
    Allowed requestedPath ∧ parts requestedPath ≠ [] ∧
      path = resolve cwd mirrorRoot ++ parts requestedPath := by
  unfold mirrorDestination at returned
  dsimp only at returned
  split at returned
  · cases returned
  · next nonempty =>
      split at returned
      · cases returned
      · next notDenied =>
          have allowed : Allowed requestedPath := allowed_iff.mpr (Bool.eq_false_iff.mpr notDenied)
          split at returned
          · cases returned
            refine ⟨allowed, nonempty, ?_⟩
            exact foldl_resolve_eq (undivided_parts requestedPath) allowed.head
          · cases returned

end

/-- An absolute path, as `process.cwd()` gives it. -/
abbrev WorkingDirectory := { path : Path // Valid path }

/-- Whatever the links of a file system are, a file that is served is contained
in its site, and a mirrored one in its mirror. -/
theorem site_files_contained (fs : FileSystem) (cwd : WorkingDirectory) :
    (∀ siteRoot requestedPath path,
      resolveAndContainFile fs cwd siteRoot requestedPath = some path →
        Contained fs cwd siteRoot requestedPath path) ∧
    ∀ mirrorRoot requestedPath path, mirrorDestination cwd mirrorRoot requestedPath = some path →
      Allowed requestedPath ∧ parts requestedPath ≠ [] ∧
        path = resolve cwd mirrorRoot ++ parts requestedPath :=
  ⟨fun _ _ _ returned => contained_of_resolveAndContainFile cwd.2 returned,
    fun _ _ _ returned => mirrored returned⟩

def linkedSite : FileSystem where
  root := [(jsonString "site", .directory [
    (jsonString ".hidden", .directory [(jsonString "f", .file)]),
    (jsonString "public", .symlink (jsonString ".hidden"))])]
  maxLinks := 40
  rounds := 100

def topDirectory : WorkingDirectory :=
  ⟨[], List.forall_mem_nil _⟩

theorem linkedSite_serves : resolveAndContainFile linkedSite topDirectory (jsonString "/site")
    (jsonString "public/f") = some [jsonString "site", jsonString ".hidden", jsonString "f"] := by
  decide +kernel

theorem site_files_contained_linked :
    Contained linkedSite topDirectory (jsonString "/site") (jsonString "public/f")
        [jsonString "site", jsonString ".hidden", jsonString "f"] ∧ Allowed (jsonString "a/b") :=
  ⟨(site_files_contained linkedSite topDirectory).1 _ _ _ linkedSite_serves,
    ((site_files_contained linkedSite topDirectory).2 (jsonString "m") (jsonString "a/b") _
      (by decide +kernel : _ = some [jsonString "m", jsonString "a", jsonString "b"])).1⟩

/-- A link leads to a name with a dot. -/
theorem hidden_file_served :
    ¬ ∀ (fs : FileSystem) (cwd : WorkingDirectory) siteRoot requestedPath path,
      resolveAndContainFile fs cwd siteRoot requestedPath = some path →
        ∃ root rest, fs.realpathSync (resolve cwd siteRoot) = some root ∧ path = root ++ rest ∧
          ∀ name ∈ rest, name.head? ≠ some 46 := by
  intro claimed
  obtain ⟨root, rest, rootFound, parted, plain⟩ := claimed _ _ _ _ _ linkedSite_serves
  have rootIs : linkedSite.realpathSync (resolve topDirectory (jsonString "/site")) =
      some [jsonString "site"] := by decide +kernel
  cases rootFound.symm.trans rootIs
  have restIs : [jsonString ".hidden", jsonString "f"] = rest :=
    @List.append_cancel_left _ [jsonString "site"] _ _ parted
  have dotted := plain (jsonString ".hidden") (by rw [← restIs]; exact List.mem_cons_self)
  exact dotted (by decide)

end P2PHub.Site
