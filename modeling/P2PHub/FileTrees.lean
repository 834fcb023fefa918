import Mathlib.Data.List.Basic

/-!
# File trees with symbolic links

A tree of directories, files and symbolic links, the paths in it by the names on
the way from its root, and the resolution of paths: `path.resolve`, which looks
at no file, the way of the operating system through links, and `realpathSync`,
which replaces the first link on a path by its target and starts over.
-/

namespace P2PHub.FileTree

abbrev Name := List UInt16

abbrev Path := List Name

inductive Node
  | file
  | directory (entries : List (Name × Node))
  | symlink (target : List UInt16)

def Node.isDirectory : Node → Bool
  | directory _ => true
  | _ => false

def Node.isSymlink : Node → Bool
  | symlink _ => true
  | _ => false

/-- The tree, the number of links that the operating system follows on one path,
and the number of rounds of `realpathSync`. -/
structure FileSystem where
  root : List (Name × Node)
  maxLinks : Nat
  rounds : Nat

def Node.child : Node → Name → Option Node
  | directory entries, name => entries.lookup name
  | _, _ => none

def Node.at : Node → Path → Option Node
  | node, [] => some node
  | node, name :: path => (node.child name).bind fun child => child.at path

def FileSystem.lstat (fs : FileSystem) (path : Path) : Option Node :=
  (Node.directory fs.root).at path

def parts (path : List UInt16) : Path :=
  (path.splitOn 47).filter fun part => decide (part ≠ [])

/-- A further part of a path, which can be a dot or two. -/
def push (before : Path) (part : Name) : Path :=
  if part = [46] then before
  else if part = [46, 46] then before.dropLast
  else before ++ [part]

/-- `path.resolve`, of a path from a directory. -/
def resolve (before : Path) (path : List UInt16) : Path :=
  (parts path).foldl push (if path.head? = some 47 then [] else before)

def text : Path → List UInt16
  | [] => [47]
  | path => path.flatMap fun name => 47 :: name

/-- A path is another one or starts with it and a slash. -/
def isInside (root candidate : Path) : Bool :=
  candidate == root || (text root ++ [47]).isPrefixOf (text candidate)

def Undivided (path : Path) : Prop :=
  ∀ part ∈ path, part ≠ [] ∧ 47 ∉ part

/-- A part that can be the name of an entry. -/
structure IsName (part : Name) : Prop where
  nonempty : part ≠ []
  undivided : 47 ∉ part
  notHere : part ≠ [46]
  notUp : part ≠ [46, 46]

def Valid (path : Path) : Prop :=
  ∀ name ∈ path, IsName name

/-- How far a path leads until the first link on it. -/
inductive Scan
  | resolved (path : Path)
  | link (before : Path) (name : Name) (target : List UInt16) (rest : Path)
  | missing

def FileSystem.scan (fs : FileSystem) : Path → Path → Scan
  | before, [] => .resolved before
  | before, name :: rest =>
    match fs.lstat (before ++ [name]) with
    | none => .missing
    | some (.symlink target) => .link before name target rest
    | some _ => fs.scan (before ++ [name]) rest

/-- The same of the operating system, for which two dots lead out of a
directory. -/
def FileSystem.walk (fs : FileSystem) : Path → Path → Scan
  | before, [] => .resolved before
  | before, name :: rest =>
    if (fs.lstat before).any Node.isDirectory then
      if name = [46] then fs.walk before rest
      else if name = [46, 46] then fs.walk before.dropLast rest
      else
        match fs.lstat (before ++ [name]) with
        | none => .missing
        | some (.symlink target) => .link before name target rest
        | some _ => fs.walk (before ++ [name]) rest
    else .missing

def FileSystem.follow (fs : FileSystem) : Nat → Path → Path → Option Path
  | links, before, path =>
    match fs.walk before path with
    | .resolved resolved => some resolved
    | .missing => none
    | .link before _ target rest =>
      match links with
      | 0 => none
      | links + 1 =>
        fs.follow links (if target.head? = some 47 then [] else before) (parts target ++ rest)

def FileSystem.statSync (fs : FileSystem) (path : Path) : Option Node :=
  (fs.follow fs.maxLinks [] path).bind fs.lstat

/-- The rounds of `realpathSync` on a path without dots. -/
def FileSystem.realpath (fs : FileSystem) : Nat → Path → Option Path
  | rounds, path =>
    match fs.scan [] path with
    | .resolved resolved => some resolved
    | .missing => none
    | .link before name target rest =>
      match rounds with
      | 0 => none
      | rounds + 1 =>
        if (fs.statSync (before ++ [name])).isSome then
          fs.realpath rounds (resolve before target ++ rest)
        else none

def FileSystem.realpathSync (fs : FileSystem) (path : Path) : Option Path :=
  fs.realpath fs.rounds path

def FileSystem.Resolved (fs : FileSystem) (path : Path) : Prop :=
  ∃ node, fs.lstat path = some node ∧ node.isSymlink = false

section

variable {path before : Path} {name : Name}

theorem not_mem_of_mem_splitOn {unit : UInt16} {units : List UInt16} {part : List UInt16}
    (member : part ∈ units.splitOn unit) : unit ∉ part := by
  induction units generalizing part with
  | nil =>
    obtain rfl := List.mem_singleton.mp member
    exact List.not_mem_nil
  | cons first units ih =>
    rw [List.splitOn_cons_eq_if_modifyHead] at member
    split at member
    · rcases List.mem_cons.mp member with rfl | member
      · exact List.not_mem_nil
      · exact ih member
    · next apart =>
        cases rest : units.splitOn unit with
        | nil => exact absurd rest (List.splitOn_ne_nil unit units)
        | cons =>
          rw [rest] at member ih
          rcases List.mem_cons.mp member with rfl | inside
          · rw [List.mem_cons]
            rintro (same | inside)
            · exact apart (beq_iff_eq.mpr same.symm)
            · exact ih List.mem_cons_self inside
          · exact ih (List.mem_cons_of_mem _ inside)

theorem undivided_parts (units : List UInt16) : Undivided (parts units) := by
  intro part member
  obtain ⟨member, nonempty⟩ := List.mem_filter.mp member
  exact ⟨of_decide_eq_true nonempty, not_mem_of_mem_splitOn member⟩

theorem valid_append {path other : Path} (valid : Valid path) (otherValid : Valid other) :
    Valid (path ++ other) :=
  List.forall_mem_append.mpr ⟨valid, otherValid⟩

theorem valid_push (valid : Valid before) (part : name ≠ [] ∧ 47 ∉ name) :
    Valid (push before name) := by
  unfold push
  split
  · exact valid
  · next notHere =>
      split
      · exact fun other member => valid other ((List.dropLast_sublist before).subset member)
      · next notUp =>
          exact valid_append valid (List.forall_mem_singleton.mpr ⟨part.1, part.2, notHere, notUp⟩)

theorem valid_foldl_push (valid : Valid before) (undivided : Undivided path) :
    Valid (path.foldl push before) := by
  induction path generalizing before with
  | nil => exact valid
  | cons name path ih =>
    obtain ⟨first, rest⟩ := List.forall_mem_cons.mp undivided
    exact ih (valid_push valid first) rest

theorem valid_resolve (valid : Valid before) (units : List UInt16) :
    Valid (resolve before units) := by
  apply valid_foldl_push _ (undivided_parts units)
  split
  · exact List.forall_mem_nil _
  · exact valid

theorem foldl_push_eq (plain : ∀ name ∈ path, name.head? ≠ some 46) :
    path.foldl push before = before ++ path := by
  induction path generalizing before with
  | nil => rw [List.foldl_nil, List.append_nil]
  | cons name path ih =>
    obtain ⟨first, rest⟩ := List.forall_mem_cons.mp plain
    have single : name ≠ [46] := fun same => first (by rw [same]; rfl)
    have double : name ≠ [46, 46] := fun same => first (by rw [same]; rfl)
    rw [List.foldl_cons, push, if_neg single, if_neg double, ih rest, List.append_assoc]
    rfl

theorem text_of_ne_nil (nonempty : path ≠ []) :
    text path = path.flatMap fun name => 47 :: name := by
  cases path with
  | nil => exact absurd rfl nonempty
  | cons => rfl

theorem name_unique {name other : Name} {rest tail : List UInt16} (undivided : 47 ∉ name)
    (otherUndivided : 47 ∉ other) (tailStarts : tail = [] ∨ tail.head? = some 47)
    (starts : name ++ 47 :: rest <+: other ++ tail) : name = other ∧ 47 :: rest <+: tail := by
  induction name generalizing other with
  | nil =>
    cases other with
    | nil => exact ⟨rfl, starts⟩
    | cons =>
      obtain ⟨same, _⟩ := List.cons_prefix_cons.mp starts
      exact absurd (List.mem_cons.mpr (.inl same)) otherUndivided
  | cons unit name ih =>
    cases other with
    | nil =>
      rcases tailStarts with rfl | tailStarts
      · cases List.prefix_nil.mp starts
      · cases tail with
        | nil => cases tailStarts
        | cons =>
          obtain ⟨same, _⟩ := List.cons_prefix_cons.mp starts
          rw [same, Option.some.inj tailStarts] at undivided
          exact absurd List.mem_cons_self undivided
    | cons =>
      obtain ⟨rfl, further⟩ := List.cons_prefix_cons.mp starts
      obtain ⟨rfl, divided⟩ := ih (fun member => undivided (List.mem_cons_of_mem _ member))
        (fun member => otherUndivided (List.mem_cons_of_mem _ member)) further
      exact ⟨rfl, divided⟩

theorem flatMap_starts (path : Path) : (path.flatMap fun name => 47 :: name) = [] ∨
    (path.flatMap fun name => 47 :: name).head? = some 47 := by
  cases path with
  | nil => exact .inl rfl
  | cons => exact .inr rfl

theorem exists_append_of_prefix {root candidate : Path} (valid : Valid root)
    (candidateValid : Valid candidate) (starts : (root.flatMap fun name => 47 :: name) ++ [47] <+:
      candidate.flatMap fun name => 47 :: name) : ∃ rest, candidate = root ++ rest := by
  induction root generalizing candidate with
  | nil => exact ⟨candidate, rfl⟩
  | cons name root ih =>
    obtain ⟨nameValid, valid⟩ := List.forall_mem_cons.mp valid
    cases candidate with
    | nil => cases List.prefix_nil.mp starts
    | cons other candidate =>
      obtain ⟨otherValid, restValid⟩ := List.forall_mem_cons.mp candidateValid
      rw [List.flatMap_cons, List.flatMap_cons, List.cons_append, List.cons_append,
        List.cons_append] at starts
      obtain ⟨_, further⟩ := List.cons_prefix_cons.mp starts
      have divided : ∃ rest, (root.flatMap fun name => 47 :: name) ++ [47] = 47 :: rest := by
        cases root with
        | nil => exact ⟨[], rfl⟩
        | cons => exact ⟨_, rfl⟩
      obtain ⟨rest, divided⟩ := divided
      rw [List.append_assoc, divided] at further
      obtain ⟨rfl, behind⟩ :=
        name_unique nameValid.undivided otherValid.undivided (flatMap_starts candidate)
        further
      rw [← divided] at behind
      obtain ⟨rest, rfl⟩ := ih valid restValid behind
      exact ⟨rest, rfl⟩

theorem exists_append_of_isInside {root candidate : Path} (valid : Valid root)
    (candidateValid : Valid candidate) (inside : isInside root candidate) :
    ∃ rest, candidate = root ++ rest := by
  rcases Bool.or_eq_true_iff.mp inside with same | starts
  · exact ⟨[], by rw [beq_iff_eq.mp same, List.append_nil]⟩
  · rw [List.isPrefixOf_iff_prefix] at starts
    by_cases top : root = []
    · exact ⟨candidate, by rw [top, List.nil_append]⟩
    · by_cases empty : candidate = []
      · rw [empty, text_of_ne_nil top] at starts
        have longer := starts.length_le
        cases root with
        | nil => exact absurd rfl top
        | cons =>
          simp only [List.flatMap_cons, List.length_append, List.length_cons, text] at longer
          omega
      · rw [text_of_ne_nil top, text_of_ne_nil empty] at starts
        exact exists_append_of_prefix valid candidateValid starts

end

variable {fs : FileSystem} {path before rest : Path} {name : Name} {rounds : Nat} {real : Path}

theorem at_append (node : Node) (path rest : Path) :
    node.at (path ++ rest) = (node.at path).bind fun inner => inner.at rest := by
  induction path generalizing node with
  | nil => rfl
  | cons name path ih =>
    rw [List.cons_append, Node.at, Node.at, Option.bind_assoc]
    exact congrArg _ (funext ih)

theorem directory_of_append {node : Node} (found : fs.lstat (path ++ name :: rest) = some node) :
    ∃ entries, fs.lstat path = some (.directory entries) := by
  rw [FileSystem.lstat, at_append] at found
  obtain ⟨inner, innerFound, below⟩ := Option.bind_eq_some_iff.mp found
  cases inner with
  | directory entries => exact ⟨entries, innerFound⟩
  | file | symlink => cases below

theorem FileSystem.Resolved.of_append (resolved : fs.Resolved (path ++ rest)) :
    fs.Resolved path := by
  obtain ⟨node, found, isLink⟩ := resolved
  cases rest with
  | nil =>
    rw [List.append_nil] at found
    exact ⟨node, found, isLink⟩
  | cons =>
    obtain ⟨entries, isDirectory⟩ := directory_of_append found
    exact ⟨.directory entries, isDirectory, rfl⟩

theorem FileSystem.resolved_root : fs.Resolved [] :=
  ⟨_, rfl, rfl⟩

theorem scan_resolved (resolved : fs.Resolved before) (scanned : fs.scan before rest =
    .resolved path) : fs.Resolved path := by
  induction rest generalizing before with
  | nil =>
    cases scanned
    exact resolved
  | cons name rest ih =>
    rw [FileSystem.scan] at scanned
    split at scanned
    · cases scanned
    · cases scanned
    · next node isLink found =>
        refine ih ⟨node, found, ?_⟩ scanned
        cases node with
        | symlink target => exact absurd rfl (isLink target)
        | file | directory => rfl

theorem scan_append (more : Path) (resolved : fs.Resolved (before ++ rest)) :
    fs.scan before (rest ++ more) = fs.scan (before ++ rest) more := by
  induction rest generalizing before with
  | nil => rw [List.append_nil, List.nil_append]
  | cons name rest ih =>
    rw [List.append_cons] at resolved ⊢
    obtain ⟨node, found, isLink⟩ := resolved.of_append
    rw [List.cons_append, FileSystem.scan, found]
    cases node with
    | symlink => cases isLink
    | file | directory => exact ih resolved

theorem scan_of_resolved (resolved : fs.Resolved (before ++ rest)) :
    fs.scan before rest = .resolved (before ++ rest) := by
  have scanned := scan_append [] resolved
  rw [List.append_nil] at scanned
  exact scanned.trans rfl

theorem scan_link {stop : Path} {target : List UInt16} {left : Path}
    (scanned : fs.scan before rest = .link stop name target left) :
    before ++ rest = stop ++ name :: left := by
  induction rest generalizing before with
  | nil => cases scanned
  | cons first rest ih =>
    rw [FileSystem.scan] at scanned
    split at scanned
    · cases scanned
    · cases scanned
      rfl
    · rw [List.append_cons]
      exact ih scanned

theorem realpath_resolved (found : fs.realpath rounds path = some real) : fs.Resolved real := by
  induction rounds generalizing path with
  | zero =>
    rw [FileSystem.realpath] at found
    split at found
    · next scanned =>
        cases found
        exact scan_resolved FileSystem.resolved_root scanned
    · cases found
    · cases found
  | succ rounds ih =>
    rw [FileSystem.realpath] at found
    split at found
    · next scanned =>
        cases found
        exact scan_resolved FileSystem.resolved_root scanned
    · cases found
    · dsimp only at found
      split at found
      · exact ih found
      · cases found

theorem scan_path (scanned : fs.scan before rest = .resolved path) : path = before ++ rest := by
  induction rest generalizing before with
  | nil =>
    rw [List.append_nil]
    exact (Scan.resolved.inj scanned).symm
  | cons name rest ih =>
    rw [FileSystem.scan] at scanned
    split at scanned
    · cases scanned
    · cases scanned
    · rw [List.append_cons]
      exact ih scanned

theorem realpath_valid (valid : Valid path)
    (found : fs.realpath rounds path = some real) : Valid real := by
  induction rounds generalizing path with
  | zero =>
    rw [FileSystem.realpath] at found
    split at found
    · next scanned =>
        cases found
        rw [scan_path scanned]
        exact valid
    · cases found
    · cases found
  | succ rounds ih =>
    rw [FileSystem.realpath] at found
    split at found
    · next scanned =>
        cases found
        rw [scan_path scanned]
        exact valid
    · cases found
    · next stop name target left scanned =>
        dsimp only at found
        split at found
        · have parted := scan_link scanned
          rw [List.nil_append] at parted
          rw [parted] at valid
          obtain ⟨stopValid, leftValid⟩ := List.forall_mem_append.mp valid
          have restValid : Valid left := (List.forall_mem_cons.mp leftValid).2
          exact ih (valid_append (valid_resolve stopValid target) restValid) found
        · cases found

theorem walk_of_resolved (resolved : fs.Resolved (before ++ rest)) (valid : Valid rest) :
    fs.walk before rest = .resolved (before ++ rest) := by
  induction rest generalizing before with
  | nil => rw [List.append_nil, FileSystem.walk]
  | cons name rest ih =>
    obtain ⟨isName, restValid⟩ := List.forall_mem_cons.mp valid
    have ⟨last, lastFound, _⟩ := resolved
    obtain ⟨entries, isDirectory⟩ := directory_of_append lastFound
    rw [List.append_cons] at resolved ⊢
    obtain ⟨node, found, isLink⟩ := resolved.of_append
    rw [FileSystem.walk, isDirectory]
    simp only [Option.any_some, Node.isDirectory, if_true, if_neg isName.notHere,
      if_neg isName.notUp, found]
    cases node with
    | symlink => cases isLink
    | file | directory => exact ih resolved restValid

theorem statSync_of_resolved (resolved : fs.Resolved path) (valid : Valid path) :
    fs.statSync path = fs.lstat path := by
  have walked : fs.walk [] path = .resolved path := walk_of_resolved resolved valid
  rw [FileSystem.statSync]
  unfold FileSystem.follow
  rw [walked]
  rfl

theorem realpath_of_resolved (resolved : fs.Resolved path) (rounds : Nat) :
    fs.realpath rounds path = some path := by
  have scanned : fs.scan [] path = .resolved path := scan_of_resolved resolved
  unfold FileSystem.realpath
  rw [scanned]

theorem exists_of_realpath (resolved : fs.Resolved path)
    (found : fs.realpath rounds (path ++ [name]) = some real) :
    ∃ node, fs.lstat (path ++ [name]) = some node := by
  cases entry : fs.lstat (path ++ [name]) with
  | some node => exact ⟨node, rfl⟩
  | none =>
    have missing : fs.scan [] (path ++ [name]) = .missing := by
      have scanned : fs.scan [] (path ++ [name]) = fs.scan ([] ++ path) [name] :=
        scan_append [name] resolved
      rw [scanned, List.nil_append, FileSystem.scan, entry]
    unfold FileSystem.realpath at found
    rw [missing] at found
    cases found

end P2PHub.FileTree
