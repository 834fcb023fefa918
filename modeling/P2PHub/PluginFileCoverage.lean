import P2PHub.PluginFiles

/-!
# Coverage of the files of a signed plugin

What an accepted manifest says of a directory: every claim is true, and every
file has a claim, unless the walk leaves it out or the `in` operator takes its
name for an inherited property.
-/

namespace P2PHub.ManifestSigning

open Json

section

variable {name : FileName} {rel : JsonString}

theorem slash_of_charUnits {char : Char} (member : 47 ∈ Utf16.charUnits char) : char = '/' := by
  unfold Utf16.charUnits at member
  split at member
  · exact Char.toNat_inj.mp (List.mem_singleton.mp member).symm
  · rcases List.mem_cons.mp member with high | low
    · omega
    · have := List.mem_singleton.mp low
      omega

theorem partText_nameUnits (name : FileName) : partText (nameUnits name) = name.chars := by
  rw [partText, nameUnits, Utf16.toNat_units, Utf16.decode_units]

theorem nameUnits_noSlash (name : FileName) : 47 ∉ nameUnits name := by
  intro member
  obtain ⟨unit, unitIn, unitEq⟩ := List.mem_map.mp member
  obtain ⟨char, charIn, unitOf⟩ := List.mem_flatMap.mp unitIn
  have small := Utf16.charUnits_lt char unit unitOf
  have isSlash : unit = 47 := by
    have toNat := congrArg UInt16.toNat unitEq
    rw [UInt16.toNat_ofNat_of_lt' small] at toNat
    exact toNat
  subst isSlash
  obtain rfl := slash_of_charUnits unitOf
  exact name.noSlash charIn

theorem nameUnits_ne_nil (name : FileName) : nameUnits name ≠ [] := by
  intro empty
  have chars := partText_nameUnits name
  rw [empty] at chars
  exact name.nonempty chars.symm

/-- The relative path of a walk from `rel`. -/
def relFrom (rel : JsonString) : List FileName → JsonString
  | [] => rel
  | name :: path => relFrom (relChild rel name) path

def relPath (path : List FileName) : JsonString :=
  relFrom [] path

theorem relChild_ne_nil (rel : JsonString) (name : FileName) : relChild rel name ≠ [] := by
  unfold relChild
  split
  · exact nameUnits_ne_nil name
  · exact List.append_ne_nil_of_right_ne_nil _ (List.cons_ne_nil _ _)

theorem splitOn_relFrom {rel : JsonString} (nonempty : rel ≠ []) (path : List FileName) :
    (relFrom rel path).splitOn 47 = rel.splitOn 47 ++ path.map nameUnits := by
  induction path generalizing rel with
  | nil => simp [relFrom]
  | cons name path ih =>
    rw [relFrom, ih (relChild_ne_nil rel name), relChild, if_neg nonempty,
      List.splitOn_append_cons_self, List.splitOn_eq_singleton (nameUnits_noSlash name),
      List.append_assoc]
    rfl

theorem parts_relPath (name : FileName) (path : List FileName) :
    ((relPath (name :: path)).splitOn 47).map partText = (name :: path).map FileName.chars := by
  have first : relChild [] name = nameUnits name := if_pos rfl
  rw [relPath, relFrom, first, splitOn_relFrom (nameUnits_ne_nil name),
    List.splitOn_eq_singleton (nameUnits_noSlash name), List.singleton_append, List.map_cons,
    List.map_map, List.map_cons, partText_nameUnits]
  congr 1
  exact List.map_congr_left fun each _ => partText_nameUnits each

end

section

variable {entries : List (FileName × Entry)} {path : List FileName} {content : Content}

/-- The regular files outside the excluded names, each with whether it can be
read and lies in directories that can be listed. -/
inductive Ships : List (FileName × Entry) → List FileName → Content → Bool → Prop
  | file {entries : List (FileName × Entry)} {name : FileName} {content : Content}
      {readable : Bool} (found : entries.lookup name = some (.file content readable))
      (included : isExcluded name = false) (payload : isBuildInfo name = false) :
      Ships entries [name] content readable
  | directory {entries inner : List (FileName × Entry)} {name : FileName} {path : List FileName}
      {content : Content} {listed readable : Bool}
      (found : entries.lookup name = some (.directory listed inner))
      (included : isExcluded name = false) (ships : Ships inner path content readable) :
      Ships entries (name :: path) content (listed && readable)

theorem readEntries_lookup (name : FileName) (parts : List (List Char)) :
    readEntries entries name.chars parts =
      (entries.lookup name).bind fun entry => readEntry entry parts := by
  induction entries with
  | nil => rfl
  | cons entry entries ih =>
    obtain ⟨other, found⟩ := entry
    rw [readEntries, List.lookup_cons]
    by_cases same : name = other
    · subst same
      simp
    · have chars : other.chars ≠ name.chars := by
        intro charsEq
        apply same
        cases name
        cases other
        simp_all
      rw [if_neg chars, ih, beq_eq_false_iff_ne.mpr same]

theorem read_of_ships {readable : Bool} (ships : Ships entries path content readable)
    {data : Content} {name : FileName} {rest : List FileName} (pathEq : path = name :: rest)
    (read : readEntries entries name.chars (rest.map FileName.chars) = some data) :
    data = content := by
  induction ships generalizing name rest with
  | file found =>
    cases pathEq
    rw [readEntries_lookup, found] at read
    simp only [List.map_nil, Option.bind_some, readEntry] at read
    split at read
    · exact (Option.some.inj read).symm
    · cases read
  | @directory entries inner name path content listed readable found _ ships ih =>
    cases pathEq
    rw [readEntries_lookup, found] at read
    cases path with
    | nil => cases ships
    | cons =>
      exact ih rfl read

end

section

variable {hashes : Hashes} (sha256 : Content → JsonString) {entries : List (FileName × Entry)}

theorem keys_assign (key hash : JsonString) :
    hashes.map Prod.fst ⊆ (assign hashes key hash).map Prod.fst := by
  intro other member
  unfold assign
  split
  · exact member
  · split
    · obtain ⟨entry, entryIn, rfl⟩ := List.mem_map.mp member
      rw [List.map_map]
      refine List.mem_map.mpr ⟨entry, entryIn, ?_⟩
      by_cases same : entry.1 = key <;> simp [same]
    · rw [List.map_append]
      exact List.mem_append_left _ member

theorem mem_keys_assign {key : JsonString} (hash : JsonString)
    (plain : key ≠ jsonString "__proto__") : key ∈ (assign hashes key hash).map Prod.fst := by
  rw [assign, if_neg plain]
  split
  · next present =>
      obtain ⟨entry, entryIn, keyEq⟩ := List.mem_map.mp present
      rw [List.map_map]
      exact List.mem_map.mpr ⟨entry, entryIn, by simp [keyEq]⟩
  · simp

mutual

theorem keys_walkEntry (rel : JsonString) (name : FileName) (entry : Entry) (hashes : Hashes) :
    hashes.map Prod.fst ⊆ (walkEntry sha256 rel name entry hashes).map Prod.fst := by
  match entry with
  | .file content readable =>
    rw [walkEntry]
    split
    · exact List.Subset.refl _
    · split
      · exact keys_assign _ _
      · exact List.Subset.refl _
  | .directory listed entries =>
    rw [walkEntry]
    split
    · exact List.Subset.refl _
    · split
      · exact keys_walk _ entries hashes
      · exact List.Subset.refl _
  | .other _ =>
    exact List.Subset.refl _

theorem keys_walk (rel : JsonString) (entries : List (FileName × Entry)) (hashes : Hashes) :
    hashes.map Prod.fst ⊆ (walk sha256 rel entries hashes).map Prod.fst := by
  match entries with
  | [] =>
    exact List.Subset.refl _
  | (name, entry) :: entries =>
    exact List.Subset.trans (keys_walkEntry rel name entry hashes) (keys_walk rel entries _)

end

theorem walk_lookup {name : FileName} {entry : Entry}
    (found : entries.lookup name = some entry) (rel : JsonString) (hashes : Hashes) :
    ∃ before, (walkEntry sha256 rel name entry before).map Prod.fst ⊆
      (walk sha256 rel entries hashes).map Prod.fst := by
  induction entries generalizing hashes with
  | nil => cases found
  | cons first entries ih =>
    obtain ⟨other, otherEntry⟩ := first
    rw [List.lookup_cons] at found
    by_cases same : name = other
    · subst same
      rw [BEq.rfl] at found
      cases found
      exact ⟨hashes, keys_walk sha256 rel entries _⟩
    · rw [beq_eq_false_iff_ne.mpr same] at found
      exact ih found _

/-- The walk reports every file that it can read, unless its key is no
property. -/
theorem walk_reports {path : List FileName}
    {content : Content} {readable : Bool} (ships : Ships entries path content readable)
    (seen : readable) (rel : JsonString)
    (plain : relFrom rel path ≠ jsonString "__proto__") (hashes : Hashes) :
    relFrom rel path ∈ (walk sha256 rel entries hashes).map Prod.fst := by
  induction ships generalizing rel hashes with
  | @file entries name content readable found included payload =>
    obtain ⟨before, kept⟩ := walk_lookup sha256 found rel hashes
    rw [walkEntry, included, payload, Bool.or_self, if_neg Bool.false_ne_true, if_pos seen] at kept
    exact kept (mem_keys_assign _ plain)
  | @directory entries inner name path content listed readable found included _ ih =>
    obtain ⟨isListed, isReadable⟩ := Bool.and_eq_true_iff.mp seen
    obtain ⟨before, kept⟩ := walk_lookup sha256 found rel hashes
    rw [walkEntry, included, if_neg Bool.false_ne_true, if_pos isListed] at kept
    exact kept (ih isReadable _ plain before)

end

variable (sha256 : Content → JsonString) {dir : PluginDir} {fields : List (JsonString × Json)}
  {path : List FileName}

/-- What a signed plugin's `files` are to say of its directory. -/
structure Covers (dir : PluginDir) (fields : List (JsonString × Json)) : Prop where
  shipped : ∀ path content readable, Ships dir.entries path content readable →
    (relPath path, string (sha256 content)) ∈ fields
  claimed : ∀ rel value, (rel, value) ∈ fields → isSafeRelativePath rel = true ∧
    ∃ content, readFile dir rel = some content ∧ value = string (sha256 content)

/-- Every file whose key is an inherited property, or that the walk cannot
read, has a claim. -/
def ClaimsMissed (dir : PluginDir) (fields : List (JsonString × Json)) : Prop :=
  ∀ path content readable, Ships dir.entries path content readable →
    (relPath path ∈ inheritedNames ∨ (dir.listed && readable) = false) →
      relPath path ∈ fields.map Prod.fst

theorem forM_ok_iff {α ε : Type} {check : α → Except ε Unit} {items : List α} :
    items.forM check = .ok () ↔ ∀ item ∈ items, check item = .ok () := by
  induction items with
  | nil => exact ⟨fun _ => nofun, fun _ => rfl⟩
  | cons item items ih =>
    have unfolded : (item :: items).forM check = check item >>= fun _ => items.forM check := rfl
    rw [unfolded, List.forall_mem_cons, ← ih]
    cases first : check item with
    | error => exact ⟨fun failed => (nomatch failed), fun both => nomatch both.1⟩
    | ok => exact ⟨fun rest => ⟨rfl, rest⟩, fun both => both.2⟩

theorem checkFile_ok {rel : JsonString} {value : Json}
    (ok : checkFile sha256 dir (rel, value) = .ok ()) : isSafeRelativePath rel ∧
      ∃ content, readFile dir rel = some content ∧ value = string (sha256 content) := by
  unfold checkFile at ok
  dsimp only at ok
  split at ok
  · next safe =>
      split at ok
      · split at ok
        · split at ok
          · cases ok
          · split at ok
            · next content read =>
                split at ok
                · next same => exact ⟨safe, content, read, by rw [same]⟩
                · cases ok
            · cases ok
        · cases ok
      · cases ok
  · cases ok

theorem verify_ok_iff {files : Json} : verifyPluginFiles sha256 dir files = .ok () ↔
    ∃ fields, files = object fields ∧ (∀ claimed ∈ fields, checkFile sha256 dir claimed = .ok ()) ∧
      ∀ actual ∈ collectPluginFileHashes sha256 dir, isIn actual.1 fields := by
  constructor
  · intro ok
    cases files with
    | object fields =>
      rw [verifyPluginFiles] at ok
      cases claims : fields.forM (checkFile sha256 dir) with
      | error =>
        rw [claims] at ok
        cases ok
      | ok done =>
        rw [claims] at ok
        refine ⟨fields, rfl, forM_ok_iff.mp claims, fun actual member => ?_⟩
        have covered := forM_ok_iff.mp ok actual member
        unfold checkCovered at covered
        split at covered
        · assumption
        · cases covered
    | _ => cases ok
  · rintro ⟨fields, rfl, claims, covered⟩
    rw [verifyPluginFiles, forM_ok_iff.mpr claims]
    exact forM_ok_iff.mpr fun actual member => if_pos (covered actual member)

theorem claim_of_ships {content : Content} {readable : Bool}
    (ships : Ships dir.entries path content readable)
    (claims : ∀ claimed ∈ fields, checkFile sha256 dir claimed = .ok ())
    (own : relPath path ∈ fields.map Prod.fst) :
    (relPath path, string (sha256 content)) ∈ fields := by
  obtain ⟨⟨_, value⟩, member, rfl⟩ := List.mem_map.mp own
  obtain ⟨-, data, read, rfl⟩ := checkFile_ok sha256 (claims _ member)
  cases path with
  | nil => cases ships
  | cons =>
    rw [readFile, parts_relPath] at read
    rw [read_of_ships ships rfl read] at member
    exact member

/-- Accepted files cover the directory exactly when the files that the checks
miss have claims. -/
theorem verifyPluginFiles_covers_iff
    (accepted : verifyPluginFiles sha256 dir (object fields) = .ok ()) :
    Covers sha256 dir fields ↔ ClaimsMissed dir fields := by
  obtain ⟨_, fieldsEq, claims, covered⟩ := (verify_ok_iff sha256).mp accepted
  cases fieldsEq
  constructor
  · intro covers path content readable ships _
    exact List.mem_map_of_mem (covers.shipped path content readable ships)
  · intro missed
    constructor
    · intro path content readable ships
      apply claim_of_ships sha256 ships claims
      by_cases plain : relPath path ∈ inheritedNames ∨ (dir.listed && readable) = false
      · exact missed path content readable ships plain
      · rw [not_or, Bool.not_eq_false, Bool.and_eq_true_iff] at plain
        obtain ⟨own, listed, isReadable⟩ := plain
        have notProto : relPath path ≠ jsonString "__proto__" := by
          intro proto
          apply own
          rw [proto]
          decide +kernel
        have reported := walk_reports sha256 ships isReadable [] notProto []
        obtain ⟨actual, actualIn, keyEq⟩ := List.mem_map.mp reported
        have inFields := covered actual (by rwa [collectPluginFileHashes, if_pos listed])
        rw [keyEq, isIn, Bool.or_eq_true, decide_eq_true_eq, decide_eq_true_eq] at inFields
        exact inFields.resolve_right own
    · intro rel value member
      exact checkFile_ok sha256 (claims _ member)

/-- The hash of the content `abc`. -/
def abcHash (_ : Content) : JsonString :=
  jsonString "ba7816bf8f01cfea414140de5dae2223b00361a396177a9cb410ff61f20015ad"

/-- A directory with one file of the content `abc`. -/
def abcDir (name : FileName) : PluginDir :=
  ⟨jsonString "/plugin", true, [(name, .file [97, 98, 99] true)]⟩

def indexName : FileName :=
  ⟨"index.js".toList, by decide, by decide, by decide, by decide, by decide⟩

def constructorName : FileName :=
  ⟨"constructor".toList, by decide, by decide, by decide, by decide, by decide⟩

theorem ships_abcDir {name : FileName} {content : Content} {readable : Bool}
    (ships : Ships (abcDir name).entries path content readable) : path = [name] := by
  have only {other : FileName} {entry : Entry}
      (found : (abcDir name).entries.lookup other = some entry) :
      other = name ∧ entry = .file [97, 98, 99] true := by
    rw [abcDir, List.lookup_cons] at found
    split at found
    · next same =>
        exact ⟨beq_iff_eq.mp same, (Option.some.inj found).symm⟩
    · cases found
  cases ships with
  | file found => rw [(only found).1]
  | directory found => cases (only found).2

/-- A claim for the one file of a directory covers it. -/
theorem verifyPluginFiles_covers_index :
    Covers abcHash (abcDir indexName) [(jsonString "index.js", string (abcHash []))] := by
  refine (verifyPluginFiles_covers_iff abcHash (by decide +kernel)).mpr ?_
  intro path content readable ships _
  rw [ships_abcDir ships]
  decide +kernel

/-- A file named `constructor` needs no claim. -/
theorem constructor_unclaimed :
    verifyPluginFiles abcHash (abcDir constructorName) (object []) = .ok () ∧
      ¬Covers abcHash (abcDir constructorName) [] := by
  constructor
  · decide +kernel
  · intro covers
    have ships : Ships (abcDir constructorName).entries [constructorName] [97, 98, 99] true :=
      .file (by simp [abcDir]) (by decide) (by decide)
    cases covers.shipped _ _ _ ships

end P2PHub.ManifestSigning
