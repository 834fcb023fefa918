import P2PHub.SiteFiles

/-!
# The site root and the data directory

`isPathInsideDataDir` and `resolveSiteRootOutsideDataDir` of
`core/src/site/site-files.ts`.  The root is compared with the data directory in
one direction: a data directory below the root is served like any other.
-/

namespace P2PHub.Site

open FileTree Json

/-- The loop of `canonicalResolve`: the names of the path that is tried, from
the last one on, and the missing ones behind it. -/
def climb (fs : FileSystem) (absolute : Path) : List Name → Path → Path
  | [], _ => absolute
  | name :: above, missing =>
    match fs.realpathSync (name :: above).reverse with
    | some real => real ++ missing
    | none => climb fs absolute above (name :: missing)

def canonicalResolve (fs : FileSystem) (cwd : Path) (path : JsonString) : Path :=
  let absolute := resolve cwd path
  match fs.realpathSync absolute with
  | some real => real
  | none => climb fs absolute absolute.reverse []

def isPathInsideDataDir (fs : FileSystem) (cwd : Path) (candidatePath dataDir : JsonString) :
    Bool :=
  isInside (canonicalResolve fs cwd dataDir) (canonicalResolve fs cwd candidatePath)

/-- The canonical site root, none where the source throws. -/
def resolveSiteRootOutsideDataDir (fs : FileSystem) (cwd : Path) (siteRoot dataDir : JsonString) :
    Option Path :=
  if siteRoot = [] then none
  else
    (fs.realpathSync (resolve cwd siteRoot)).filter fun rootReal =>
      !isPathInsideDataDir fs cwd (text rootReal) dataDir

def Below (directory path : Path) : Prop :=
  ∃ rest, path = directory ++ rest

def InDataDirectory (fs : FileSystem) (cwd : Path) (dataDir : JsonString) (path : Path) : Prop :=
  ∃ data, fs.realpathSync (resolve cwd dataDir) = some data ∧ Below data path

/-- The check of a root looks past a data directory: it is strictly below the
root, or it is the root of the file system. -/
def Overlooked (root data : Path) : Prop :=
  data = [] ∨ data ≠ root ∧ Below root data

/-- Where a path of a site leads, links followed: to what is no directory, or
from a directory to its index. -/
inductive LeadsTo (fs : FileSystem) (root request : Path) : Path → Prop
  | file {real : Path} {node : Node} (found : fs.realpathSync request = some real)
      (stat : fs.statSync real = some node) (plain : node.isDirectory = false)
      (within : isInside root real = true) : LeadsTo fs root request real
  | index {directory real : Path} {node : Node}
      (found : fs.realpathSync request = some directory) (stat : fs.statSync directory = some node)
      (isDirectory : node.isDirectory = true) (within : isInside root directory = true)
      (indexFound : fs.realpathSync (directory ++ [indexName]) = some real)
      (indexWithin : isInside root real = true) : LeadsTo fs root request real

/-- Allowed names lead from the root into the data directory. -/
def Exposed (fs : FileSystem) (root data : Path) : Prop :=
  ∃ requestedPath real, Allowed requestedPath ∧ LeadsTo fs root (root ++ parts requestedPath) real ∧
    Below data real

section

variable {fs : FileSystem} {cwd root data path : Path} {dataDir siteRoot requestedPath : JsonString}

theorem parts_text (undivided : Undivided path) : parts (text path) = path := by
  have joined (path : Path) : (path.flatMap fun name => 47 :: name) =
      [47].intercalate ([] :: path) := by
    induction path with
    | nil => rfl
    | cons name path ih =>
      rw [List.flatMap_cons, ih]
      cases path with
      | nil => simp [List.intercalate]
      | cons => simp [List.intercalate, List.intersperse]
  have kept : (path.filter fun part => decide (part ≠ [])) = path :=
    List.filter_eq_self.mpr fun part member => decide_eq_true (undivided part member).1
  by_cases top : path = []
  · subst top
    decide
  · have apart : ∀ part ∈ [] :: path, (47 : UInt16) ∉ part := by
      intro part member
      rcases List.mem_cons.mp member with rfl | member
      · exact List.not_mem_nil
      · exact (undivided part member).2
    rw [parts, text_of_ne_nil top, joined, List.splitOn_intercalate 47 apart (List.cons_ne_nil _ _)]
    simpa using kept

theorem foldl_push_valid {before : Path} (valid : Valid path) :
    path.foldl push before = before ++ path := by
  induction path generalizing before with
  | nil => rw [List.foldl_nil, List.append_nil]
  | cons name path ih =>
    obtain ⟨first, rest⟩ := List.forall_mem_cons.mp valid
    rw [List.foldl_cons, push, if_neg first.notHere, if_neg first.notUp, ih rest, List.append_assoc]
    rfl

theorem resolve_text (valid : Valid path) : resolve cwd (text path) = path := by
  have starts : (text path).head? = some 47 := by
    cases path <;> rfl
  rw [resolve, parts_text fun name member => ⟨(valid name member).nonempty,
    (valid name member).undivided⟩, if_pos starts, foldl_push_valid valid, List.nil_append]

theorem realpathSync_text (valid : Valid path) (resolved : fs.Resolved path) :
    fs.realpathSync (resolve cwd (text path)) = some path := by
  rw [resolve_text valid]
  exact realpath_of_resolved resolved fs.rounds

theorem canonicalResolve_of_real (found : fs.realpathSync (resolve cwd dataDir) = some data) :
    canonicalResolve fs cwd dataDir = data := by
  rw [canonicalResolve, found]

/-- What is below a directory other than the root of the file system is inside
it. -/
theorem isInside_of_below (nested : data ≠ []) (below : Below data path) :
    isInside data path := by
  obtain ⟨rest, rfl⟩ := below
  rw [isInside, Bool.or_eq_true]
  cases rest with
  | nil => exact Or.inl (by rw [List.append_nil, beq_self_eq_true])
  | cons name rest =>
    have longer : data ++ name :: rest ≠ [] := by simp
    refine Or.inr (List.isPrefixOf_iff_prefix.mpr ?_)
    rw [text_of_ne_nil nested, text_of_ne_nil longer, List.flatMap_append, List.flatMap_cons,
      List.cons_append]
    exact ⟨name ++ rest.flatMap fun name => 47 :: name, by simp⟩

/-- An accepted root is a canonical path that is not inside the data
directory. -/
theorem accepted_root (accepted : resolveSiteRootOutsideDataDir fs cwd siteRoot dataDir =
    some root) : fs.realpathSync (resolve cwd siteRoot) = some root ∧
      isPathInsideDataDir fs cwd (text root) dataDir = false := by
  unfold resolveSiteRootOutsideDataDir at accepted
  split at accepted
  · cases accepted
  · obtain ⟨found, outside⟩ := Option.filter_eq_some_iff.mp accepted
    exact ⟨found, by simpa using outside⟩

/-- A file of a site whose root was accepted lies in the data directory only
where the check looks past it. -/
theorem overlooked_of_below (rootValid : Valid root) (rootResolved : fs.Resolved root)
    (found : fs.realpathSync (resolve cwd dataDir) = some data)
    (outside : isPathInsideDataDir fs cwd (text root) dataDir = false)
    (inRoot : Below root path) (inData : Below data path) : Overlooked root data := by
  have rootReal : fs.realpathSync (resolve cwd (text root)) = some root :=
    realpathSync_text rootValid rootResolved
  rw [isPathInsideDataDir, canonicalResolve_of_real found, canonicalResolve_of_real rootReal]
    at outside
  by_cases top : data = []
  · exact Or.inl top
  · right
    have unbelow : ¬Below data root := fun below => by
      rw [isInside_of_below top below] at outside
      cases outside
    obtain ⟨rest, rfl⟩ := inRoot
    obtain ⟨tail, parted⟩ := inData
    rcases List.append_eq_append_iff.mp parted with ⟨more, dataIs, _⟩ | ⟨more, rootIs, _⟩
    · refine ⟨fun same => unbelow ⟨[], by rw [same, List.append_nil]⟩, more, dataIs⟩
    · exact absurd ⟨more, rootIs⟩ unbelow

theorem served_iff (rootResolved : fs.Resolved root) (rootValid : Valid root) :
    resolveAndContainFile fs cwd (text root) requestedPath = some path ↔
      Allowed requestedPath ∧ LeadsTo fs root (root ++ parts requestedPath) path := by
  rw [allowed_iff, resolveAndContainFile, realpathSync_text rootValid rootResolved,
    Option.bind_eq_bind, Option.bind_some]
  dsimp only
  split
  · next denied => simp [denied]
  · next notDenied =>
      have allowed : Allowed requestedPath := allowed_iff.mpr (Bool.eq_false_iff.mpr notDenied)
      rw [foldl_push_eq allowed.head]
      constructor
      · intro returned
        refine ⟨Bool.eq_false_iff.mpr notDenied, ?_⟩
        obtain ⟨candidate, found, returned⟩ := Option.bind_eq_some_iff.mp returned
        split at returned
        · next within =>
            obtain ⟨node, stat, returned⟩ := Option.bind_eq_some_iff.mp returned
            split at returned
            · next isDirectory =>
                obtain ⟨index, indexFound, returned⟩ := Option.bind_eq_some_iff.mp returned
                split at returned
                · next indexWithin =>
                    cases returned
                    exact .index found stat isDirectory within indexFound indexWithin
                · cases returned
            · next plain =>
                cases returned
                exact .file found stat (Bool.eq_false_iff.mpr plain) within
        · cases returned
      · rintro ⟨_, leads⟩
        cases leads with
        | file found stat plain within =>
          rw [found, Option.bind_some, if_pos within, stat, Option.bind_eq_bind, Option.bind_some,
            plain]
          rfl
        | index found stat isDirectory within indexFound indexWithin =>
          rw [found, Option.bind_some, if_pos within, stat, Option.bind_eq_bind, Option.bind_some,
            isDirectory, push_indexName, indexFound]
          exact if_pos indexWithin

theorem below_of_leadsTo (rootValid : Valid root) {request real : Path} (valid : Valid request)
    (leads : LeadsTo fs root request real) : Below root real := by
  cases leads with
  | file found stat plain within =>
    exact exists_append_of_isInside rootValid (realpath_valid valid found) within
  | index found stat isDirectory within indexFound indexWithin =>
    have directoryValid := realpath_valid valid found
    have indexValid := realpath_valid
      (valid_append directoryValid (List.forall_mem_singleton.mpr isName_indexName)) indexFound
    exact exists_append_of_isInside rootValid indexValid indexWithin

end

/-- Of an accepted root no file of the data directory is served, unless the
check looks past a data directory into which allowed names lead. -/
theorem data_directory_unserved_iff (fs : FileSystem) (cwd : WorkingDirectory)
    (dataDir siteRoot : JsonString) (root : Path)
    (accepted : resolveSiteRootOutsideDataDir fs cwd siteRoot dataDir = some root) :
    (∀ requestedPath path, resolveAndContainFile fs cwd (text root) requestedPath = some path →
        ¬InDataDirectory fs cwd dataDir path) ↔
      ∀ data, fs.realpathSync (resolve cwd dataDir) = some data → Overlooked root data →
        ¬Exposed fs root data := by
  obtain ⟨rootFound, outside⟩ := accepted_root accepted
  have rootValid : Valid root := realpath_valid (valid_resolve cwd.2 siteRoot) rootFound
  have rootResolved : fs.Resolved root := realpath_resolved rootFound
  constructor
  · rintro unserved data found _ ⟨requestedPath, real, allowed, leads, below⟩
    have served : resolveAndContainFile fs cwd (text root) requestedPath = some real :=
      (served_iff rootResolved rootValid).mpr ⟨allowed, leads⟩
    exact unserved requestedPath real served ⟨data, found, below⟩
  · rintro unexposed requestedPath path served ⟨data, found, below⟩
    obtain ⟨allowed, leads⟩ := (served_iff rootResolved rootValid).mp served
    have inRoot := below_of_leadsTo rootValid (valid_append rootValid allowed.valid) leads
    have overlooked := overlooked_of_below rootValid rootResolved found outside inRoot below
    exact unexposed data found overlooked ⟨requestedPath, path, allowed, leads, below⟩

/-- A home with a site next to the data directory, and the two as one. -/
def homeWithData : FileSystem where
  root := [(jsonString "home", .directory [
    (jsonString "data", .directory [(jsonString "vault", .file)]),
    (jsonString "site", .directory [(jsonString "a", .file)])])]
  maxLinks := 40
  rounds := 100

theorem data_directory_unserved_apart :
    resolveSiteRootOutsideDataDir homeWithData topDirectory (jsonString "/home/site")
        (jsonString "/home/data") = some [jsonString "home", jsonString "site"] ∧
      ∀ requestedPath path, resolveAndContainFile homeWithData topDirectory
          (text [jsonString "home", jsonString "site"]) requestedPath = some path →
        ¬InDataDirectory homeWithData topDirectory (jsonString "/home/data") path := by
  have accepted : resolveSiteRootOutsideDataDir homeWithData topDirectory
      (jsonString "/home/site") (jsonString "/home/data") =
        some [jsonString "home", jsonString "site"] := by decide +kernel
  have dataFound : homeWithData.realpathSync (resolve topDirectory (jsonString "/home/data")) =
      some [jsonString "home", jsonString "data"] := by decide +kernel
  refine ⟨accepted, (data_directory_unserved_iff homeWithData topDirectory _ _ _ accepted).mpr ?_⟩
  rintro data found (rfl | ⟨_, rest, parted⟩)
  · cases found.symm.trans dataFound
  · cases found.symm.trans dataFound
    have second := congrArg (fun path : Path => path[1]?) parted
    exact absurd (Option.some.inj second) (by decide)

/-- The data directory is below the root. -/
theorem data_directory_served :
    ¬∀ (fs : FileSystem) (cwd : WorkingDirectory) dataDir siteRoot root requestedPath path,
      resolveSiteRootOutsideDataDir fs cwd siteRoot dataDir = some root →
        resolveAndContainFile fs cwd (text root) requestedPath = some path →
        ¬InDataDirectory fs cwd dataDir path := by
  intro claimed
  refine claimed homeWithData topDirectory (jsonString "/home/data") (jsonString "/home")
    [jsonString "home"] (jsonString "data/vault")
    [jsonString "home", jsonString "data", jsonString "vault"] (by decide +kernel)
    (by decide +kernel) ⟨[jsonString "home", jsonString "data"], by decide +kernel, ?_⟩
  exact ⟨[jsonString "vault"], rfl⟩

end P2PHub.Site
