import Mathlib.Data.List.Dedup
import Mathlib.Data.List.Perm.Subperm
import P2PHub.JsonDepth
import P2PHub.ManifestSigning

/-!
# References in PBX documents

`resolveRef` and `resolveRefChain` of `sdk/src/pbx.ts`, on documents as
`JSON.parse` yields them: any graph of objects, with any identifiers.
-/

namespace P2PHub.PBX

open Json ManifestSigning JsonUnits

structure PBXObject where
  id : JsonString
  pbxClass : JsonString
  properties : List (JsonString × Json)

inductive PBXError
  | cycleDetected (objectId : JsonString)
  | maxDepthExceeded (maxDepth : Binary64)
  deriving DecidableEq

def PBXError.message : PBXError → JsonString
  | cycleDetected objectId =>
    jsonString "PBX $ref cycle detected: object \"" ++ objectId ++
      jsonString "\" is already being resolved"
  | maxDepthExceeded maxDepth =>
    jsonString "PBX $ref resolution exceeded the maximum depth of " ++
      jsonString (String.ofList maxDepth.text)

/-- What a resolution comes to, and the references it reports as broken. -/
structure Resolution where
  result : Except PBXError (Option PBXObject)
  reported : List JsonString

def stringProperty (fields : List (JsonString × Json)) (key : String) : Option JsonString :=
  match property fields key with
  | some (string text) => some text
  | _ => none

/-- The pointer of a value that `isPBXReference` accepts. -/
def pbxReference? : Json → Option JsonString
  | object fields => stringProperty fields "$ref"
  | _ => none

/-- The object that a value is which `isPBXObject` accepts. -/
def pbxObject? : Json → Option PBXObject
  | object fields => do
      let id ← stringProperty fields "$id"
      let pbxClass ← stringProperty fields "$class"
      return ⟨id, pbxClass, fields⟩
  | _ => none

def PBXObject.proxied? (target : PBXObject) : Option JsonString :=
  stringProperty target.properties "$ref"

def objectsOf : Json → List (JsonString × Json)
  | object fields =>
    match property fields "$objects" with
    | some (object objects) => objects
    | _ => []
  | _ => []

/-- `resolveRefInternal` of a pointer, which is reported where there is nothing.
The properties of `Object.prototype` are no PBX objects. -/
def resolveRef (doc : Json) (ref : JsonString) : Option PBXObject :=
  ((objectsOf doc).lookup ref).bind pbxObject?

/-- `resolveRefChainInternal`.  The fuel bounds the calls. -/
def resolveRefChainInternal (doc : Json) (maxDepth : Binary64) :
    Nat → Option JsonString → List JsonString → Nat → Option Resolution
  | 0, _, _, _ => none
  | _ + 1, none, _, _ => some ⟨.ok none, []⟩
  | fuel + 1, some ref, visited, depth =>
    match resolveRef doc ref with
    | none => some ⟨.ok none, [ref]⟩
    | some target =>
      if target.id ∈ visited then some ⟨.error (.cycleDetected target.id), []⟩
      else if exceeds depth maxDepth then
        some ⟨.error (.maxDepthExceeded maxDepth), []⟩
      else
        match target.proxied? with
        | some next =>
          resolveRefChainInternal doc maxDepth fuel (some next) (target.id :: visited) (depth + 1)
        | none => some ⟨.ok (some target), []⟩

/-- The identifiers of the objects of a document, each once. -/
def objectIds (doc : Json) : List JsonString :=
  ((objectsOf doc).filterMap fun entry => (pbxObject? entry.2).map PBXObject.id).dedup

/-- `resolveRefChain`, with a call for every identifier and one more. -/
def resolveRefChain (doc : Json) (ref : Option JsonString) (maxDepth : Binary64) :
    Option Resolution :=
  resolveRefChainInternal doc maxDepth ((objectIds doc).length + 1) ref [] 0

section

variable (doc : Json) (ref : JsonString) (maxDepth : Binary64)

/-- The pointer that is followed after a number of hops, each over a proxy. -/
def pointerAt : Nat → Option JsonString
  | 0 => some ref
  | hops + 1 => (pointerAt hops).bind fun ref => (resolveRef doc ref).bind PBXObject.proxied?

def objectAt (hops : Nat) : Option PBXObject :=
  (pointerAt doc ref hops).bind (resolveRef doc)

def WithinBefore (hops : Nat) : Prop :=
  ∀ earlier < hops, exceeds earlier maxDepth = false

/-- The chain reaches an object within the limit that is no proxy. -/
structure Finds (hops : Nat) (target : PBXObject) : Prop where
  reached : objectAt doc ref hops = some target
  final : target.proxied? = none
  within : WithinBefore maxDepth (hops + 1)

/-- The chain dangles after objects within the limit. -/
structure Dangles (hops : Nat) (pointer : JsonString) : Prop where
  reached : pointerAt doc ref hops = some pointer
  missing : resolveRef doc pointer = none
  within : WithinBefore maxDepth hops

/-- The chain re-enters an object, for the first time, after objects within the
limit. -/
structure Reenters (hops : Nat) (id : JsonString) : Prop where
  reached : (objectAt doc ref hops).map PBXObject.id = some id
  again : ∃ earlier < hops, (objectAt doc ref earlier).map PBXObject.id = some id
  first : ∀ later < hops, ∀ earlier < later,
    (objectAt doc ref earlier).map PBXObject.id ≠ (objectAt doc ref later).map PBXObject.id
  within : WithinBefore maxDepth hops

def Keyed : Prop :=
  ∀ entry ∈ objectsOf doc, ∀ target, pbxObject? entry.2 = some target → target.id = entry.1

end

section

variable {doc : Json} {ref pointer : JsonString} {maxDepth : Binary64} {hops fuel : Nat}
  {target : PBXObject} {resolution : Resolution}

theorem objectAt_eq (reached : pointerAt doc ref hops = some pointer) :
    objectAt doc ref hops = resolveRef doc pointer := by
  rw [objectAt, reached, Option.bind_some]

theorem pointerAt_succ (reached : objectAt doc ref hops = some target) :
    pointerAt doc ref (hops + 1) = target.proxied? := by
  obtain ⟨pointer, pointed, resolved⟩ := Option.bind_eq_some_iff.mp reached
  rw [pointerAt, pointed, Option.bind_some, resolved, Option.bind_some]

theorem resolveRef_id (resolved : resolveRef doc pointer = some target) :
    target.id ∈ objectIds doc := by
  obtain ⟨value, found, isObject⟩ := Option.bind_eq_some_iff.mp resolved
  obtain ⟨before, after, split, _⟩ := List.lookup_eq_some_iff.mp found
  have member : (pointer, value) ∈ objectsOf doc := by
    rw [split]
    exact List.mem_append_right _ List.mem_cons_self
  refine List.mem_dedup.mpr (List.mem_filterMap.mpr ⟨_, member, ?_⟩)
  rw [isObject, Option.map_some]

theorem Keyed.resolveRef_id (keyed : Keyed doc) (resolved : resolveRef doc pointer = some target) :
    target.id = pointer := by
  obtain ⟨value, found, isObject⟩ := Option.bind_eq_some_iff.mp resolved
  obtain ⟨before, after, split, _⟩ := List.lookup_eq_some_iff.mp found
  have member : (pointer, value) ∈ objectsOf doc := by
    rw [split]
    exact List.mem_append_right _ List.mem_cons_self
  exact keyed _ member target isObject

variable (doc ref) in
/-- The identifiers of the objects before a hop, the last one first. -/
def idsBefore (hops : Nat) : List JsonString :=
  (List.range hops).reverse.filterMap fun earlier => (objectAt doc ref earlier).map PBXObject.id

theorem mem_idsBefore {id : JsonString} : id ∈ idsBefore doc ref hops ↔
    ∃ earlier < hops, (objectAt doc ref earlier).map PBXObject.id = some id := by
  simp [idsBefore]

theorem idsBefore_succ (reached : objectAt doc ref hops = some target) :
    idsBefore doc ref (hops + 1) = target.id :: idsBefore doc ref hops := by
  simp [idsBefore, List.range_succ, reached]

variable (doc ref maxDepth) in
/-- The objects before a hop are different proxies within the limit. -/
def Clear (hops : Nat) : Prop :=
  ∀ earlier < hops, ∃ target next, objectAt doc ref earlier = some target ∧
    target.proxied? = some next ∧ exceeds earlier maxDepth = false ∧
      target.id ∉ idsBefore doc ref earlier

section

variable (clear : Clear doc ref maxDepth hops)
include clear

theorem Clear.run (fuel : Nat) :
    resolveRefChainInternal doc maxDepth (fuel + hops) (some ref) [] 0 =
      resolveRefChainInternal doc maxDepth fuel (pointerAt doc ref hops)
        (idsBefore doc ref hops) hops := by
  induction hops generalizing fuel with
  | zero => rfl
  | succ hops ih =>
    obtain ⟨target, next, reached, proxy, within, fresh⟩ := clear hops (Nat.lt_succ_self hops)
    obtain ⟨pointer, pointed, resolved⟩ := Option.bind_eq_some_iff.mp reached
    have earlier := ih (fun other below => clear other (Nat.lt_succ_of_lt below)) (fuel + 1)
    rw [Nat.add_right_comm] at earlier
    rw [← Nat.add_assoc, earlier, pointed, resolveRefChainInternal, resolved]
    dsimp only
    rw [if_neg fresh, within, if_neg Bool.false_ne_true, proxy, pointerAt_succ reached, proxy,
      idsBefore_succ reached]

theorem Clear.ids : (idsBefore doc ref hops).Nodup ∧ (idsBefore doc ref hops).length = hops ∧
      idsBefore doc ref hops ⊆ objectIds doc := by
  induction hops with
  | zero => exact ⟨.nil, rfl, List.nil_subset _⟩
  | succ hops ih =>
    obtain ⟨target, next, reached, _, _, fresh⟩ := clear hops (Nat.lt_succ_self hops)
    obtain ⟨pointer, _, resolved⟩ := Option.bind_eq_some_iff.mp reached
    obtain ⟨nodup, length, subset⟩ := ih fun other below => clear other (Nat.lt_succ_of_lt below)
    rw [idsBefore_succ reached, List.length_cons, length]
    exact ⟨nodup.cons fresh, rfl, List.cons_subset.mpr ⟨resolveRef_id resolved, subset⟩⟩

theorem Clear.le : hops ≤ (objectIds doc).length := by
  obtain ⟨nodup, length, subset⟩ := clear.ids
  calc hops = (idsBefore doc ref hops).length := length.symm
    _ ≤ (objectIds doc).length := (nodup.subperm subset).length_le

end

variable (doc ref maxDepth) in
/-- What the resolver makes of the hop at which it stops. -/
inductive Stops (hops : Nat) : Resolution → Prop
  | dangles {pointer : JsonString} (reached : pointerAt doc ref hops = some pointer)
      (missing : resolveRef doc pointer = none) : Stops hops ⟨.ok none, [pointer]⟩
  | reenters {target : PBXObject} (reached : objectAt doc ref hops = some target)
      (again : target.id ∈ idsBefore doc ref hops) :
      Stops hops ⟨.error (.cycleDetected target.id), []⟩
  | exceeds {target : PBXObject} (reached : objectAt doc ref hops = some target)
      (fresh : target.id ∉ idsBefore doc ref hops)
      (beyond : exceeds hops maxDepth = true) :
      Stops hops ⟨.error (.maxDepthExceeded maxDepth), []⟩
  | finds {target : PBXObject} (reached : objectAt doc ref hops = some target)
      (fresh : target.id ∉ idsBefore doc ref hops)
      (within : exceeds hops maxDepth = false) (final : target.proxied? = none) :
      Stops hops ⟨.ok (some target), []⟩

theorem Stops.run (stops : Stops doc ref maxDepth hops resolution)
    (clear : Clear doc ref maxDepth hops) (enough : hops < fuel) :
    resolveRefChainInternal doc maxDepth fuel (some ref) [] 0 = some resolution := by
  obtain ⟨spare, rfl⟩ : ∃ spare, fuel = spare + 1 + hops := ⟨fuel - 1 - hops, by omega⟩
  rw [clear.run]
  cases stops with
  | dangles reached missing =>
    rw [reached, resolveRefChainInternal, missing]
  | reenters reached again =>
    obtain ⟨pointer, pointed, resolved⟩ := Option.bind_eq_some_iff.mp reached
    rw [pointed, resolveRefChainInternal, resolved]
    dsimp only
    rw [if_pos again]
  | exceeds reached fresh beyond =>
    obtain ⟨pointer, pointed, resolved⟩ := Option.bind_eq_some_iff.mp reached
    rw [pointed, resolveRefChainInternal, resolved]
    dsimp only
    rw [if_neg fresh, if_pos beyond]
  | finds reached fresh within final =>
    obtain ⟨pointer, pointed, resolved⟩ := Option.bind_eq_some_iff.mp reached
    rw [pointed, resolveRefChainInternal, resolved]
    dsimp only
    rw [if_neg fresh, within, if_neg Bool.false_ne_true, final]

theorem Clear.pointed (clear : Clear doc ref maxDepth hops) :
    ∃ pointer, pointerAt doc ref hops = some pointer := by
  cases hops with
  | zero => exact ⟨ref, rfl⟩
  | succ hops =>
    obtain ⟨target, next, reached, proxy, _⟩ := clear hops (Nat.lt_succ_self hops)
    exact ⟨next, (pointerAt_succ reached).trans proxy⟩

theorem Clear.stops_or_clear (clear : Clear doc ref maxDepth hops) :
    (∃ resolution, Stops doc ref maxDepth hops resolution) ∨ Clear doc ref maxDepth (hops + 1) := by
  obtain ⟨pointer, pointed⟩ := clear.pointed
  have reached := objectAt_eq pointed
  cases resolved : resolveRef doc pointer with
  | none => exact Or.inl ⟨_, .dangles pointed resolved⟩
  | some target =>
    rw [resolved] at reached
    by_cases again : target.id ∈ idsBefore doc ref hops
    · exact Or.inl ⟨_, .reenters reached again⟩
    · cases limit : exceeds hops maxDepth with
      | true => exact Or.inl ⟨_, .exceeds reached again limit⟩
      | false =>
        cases proxy : target.proxied? with
        | none => exact Or.inl ⟨_, .finds reached again limit proxy⟩
        | some next =>
          refine Or.inr fun earlier below => ?_
          rcases Nat.lt_succ_iff_lt_or_eq.mp below with before | rfl
          · exact clear earlier before
          · exact ⟨target, next, reached, proxy, limit, again⟩

variable (doc ref maxDepth) in
theorem exists_stop : ∃ hops resolution, Clear doc ref maxDepth hops ∧
    Stops doc ref maxDepth hops resolution := by
  by_contra never
  have clear : ∀ hops, Clear doc ref maxDepth hops := by
    intro hops
    induction hops with
    | zero => exact fun _ below => absurd below (Nat.not_lt_zero _)
    | succ hops ih =>
      refine ih.stops_or_clear.resolve_left ?_
      rintro ⟨resolution, stops⟩
      exact never ⟨hops, resolution, ih, stops⟩
  exact absurd (clear ((objectIds doc).length + 1)).le (Nat.not_succ_le_self _)

theorem pointerAt_before (reached : pointerAt doc ref hops = some pointer) :
    ∀ earlier ≤ hops, ∃ other, pointerAt doc ref earlier = some other := by
  induction hops generalizing pointer with
  | zero =>
    intro earlier below
    rw [Nat.le_zero.mp below]
    exact ⟨ref, rfl⟩
  | succ hops ih =>
    intro earlier below
    rcases Nat.le_succ_iff.mp below with before | rfl
    · obtain ⟨last, lastReached, _⟩ := Option.bind_eq_some_iff.mp reached
      exact ih lastReached earlier before
    · exact ⟨pointer, reached⟩

theorem proxy_before (reached : pointerAt doc ref hops = some pointer) :
    ∀ earlier < hops, ∃ target next, objectAt doc ref earlier = some target ∧
      target.proxied? = some next := by
  intro earlier below
  obtain ⟨next, nextReached⟩ := pointerAt_before reached (earlier + 1) below
  obtain ⟨other, otherReached, followed⟩ := Option.bind_eq_some_iff.mp nextReached
  obtain ⟨target, resolved, proxy⟩ := Option.bind_eq_some_iff.mp followed
  exact ⟨target, next, (objectAt_eq otherReached).trans resolved, proxy⟩

theorem pointerAt_repeats {earlier later : Nat}
    (same : pointerAt doc ref earlier = pointerAt doc ref later) (more : Nat) :
    pointerAt doc ref (earlier + more) = pointerAt doc ref (later + more) := by
  induction more with
  | zero => exact same
  | succ more ih => rw [← Nat.add_assoc, ← Nat.add_assoc, pointerAt, pointerAt, ih]

theorem Keyed.fresh (keyed : Keyed doc) (reached : pointerAt doc ref hops = some pointer)
    (ends : pointerAt doc ref (hops + 1) = none) {later : Nat} (below : later ≤ hops)
    (laterReached : objectAt doc ref later = some target) :
    target.id ∉ idsBefore doc ref later := by
  intro again
  obtain ⟨earlier, before, same⟩ := mem_idsBefore.mp again
  obtain ⟨other, otherReached, sameId⟩ := Option.map_eq_some_iff.mp same
  obtain ⟨first, firstPointed, firstResolved⟩ := Option.bind_eq_some_iff.mp otherReached
  obtain ⟨second, secondPointed, secondResolved⟩ := Option.bind_eq_some_iff.mp laterReached
  have pointers : pointerAt doc ref earlier = pointerAt doc ref later := by
    rw [firstPointed, secondPointed, ← keyed.resolveRef_id firstResolved, sameId,
      keyed.resolveRef_id secondResolved]
  have repeated := pointerAt_repeats pointers (hops + 1 - later)
  rw [Nat.add_sub_cancel' (by omega), ends] at repeated
  obtain ⟨still, stillThere⟩ := pointerAt_before reached (earlier + (hops + 1 - later)) (by omega)
  cases stillThere.symm.trans repeated

theorem clear_of_fresh (reached : pointerAt doc ref hops = some pointer)
    (fresh : ∀ later < hops, ∀ target, objectAt doc ref later = some target →
      target.id ∉ idsBefore doc ref later) (within : WithinBefore maxDepth hops) :
    Clear doc ref maxDepth hops := by
  intro earlier below
  obtain ⟨target, next, targetReached, proxy⟩ := proxy_before reached earlier below
  exact ⟨target, next, targetReached, proxy, within earlier below,
    fresh earlier below target targetReached⟩

theorem Finds.stops (keyed : Keyed doc) (finds : Finds doc ref maxDepth hops target) :
    Clear doc ref maxDepth hops ∧ Stops doc ref maxDepth hops ⟨.ok (some target), []⟩ := by
  obtain ⟨pointer, pointed, resolved⟩ := Option.bind_eq_some_iff.mp finds.reached
  have ends := (pointerAt_succ finds.reached).trans finds.final
  constructor
  · refine clear_of_fresh pointed (fun later below other otherReached => ?_) ?_
    · exact keyed.fresh pointed ends below.le otherReached
    · exact fun earlier below => finds.within earlier (Nat.lt_succ_of_lt below)
  · exact .finds finds.reached (keyed.fresh pointed ends le_rfl finds.reached)
      (finds.within hops (Nat.lt_succ_self hops)) finds.final

theorem Dangles.stops (keyed : Keyed doc) (dangles : Dangles doc ref maxDepth hops pointer) :
    Clear doc ref maxDepth hops ∧ Stops doc ref maxDepth hops ⟨.ok none, [pointer]⟩ := by
  have ends : pointerAt doc ref (hops + 1) = none := by
    rw [pointerAt, dangles.reached, Option.bind_some, dangles.missing, Option.bind_none]
  constructor
  · refine clear_of_fresh dangles.reached (fun later below other otherReached => ?_) dangles.within
    exact keyed.fresh dangles.reached ends below.le otherReached
  · exact .dangles dangles.reached dangles.missing

theorem Reenters.stops {id : JsonString} (reenters : Reenters doc ref maxDepth hops id) :
    Clear doc ref maxDepth hops ∧ Stops doc ref maxDepth hops ⟨.error (.cycleDetected id), []⟩ := by
  obtain ⟨target, reached, rfl⟩ := Option.map_eq_some_iff.mp reenters.reached
  obtain ⟨pointer, pointed, _⟩ := Option.bind_eq_some_iff.mp reached
  constructor
  · refine clear_of_fresh pointed (fun later below other otherReached again => ?_) reenters.within
    obtain ⟨earlier, before, same⟩ := mem_idsBefore.mp again
    refine reenters.first later below earlier before ?_
    rw [same, otherReached, Option.map_some]
  · exact .reenters reached (mem_idsBefore.mpr reenters.again)

theorem Clear.withinBefore (clear : Clear doc ref maxDepth hops) : WithinBefore maxDepth hops := by
  intro earlier below
  obtain ⟨_, _, _, _, within, _⟩ := clear earlier below
  exact within

theorem Stops.limit (stops : Stops doc ref maxDepth hops resolution)
    (clear : Clear doc ref maxDepth hops) (notFound : ∀ hops target,
      ¬Finds doc ref maxDepth hops target)
    (notDangling : ∀ hops pointer, ¬Dangles doc ref maxDepth hops pointer)
    (notCyclic : ∀ hops id, ¬Reenters doc ref maxDepth hops id) :
    resolution = ⟨.error (.maxDepthExceeded maxDepth), []⟩ := by
  cases stops with
  | exceeds => rfl
  | dangles reached missing => exact absurd ⟨reached, missing, clear.withinBefore⟩ (notDangling _ _)
  | finds reached fresh within final =>
    refine absurd ⟨reached, final, fun earlier below => ?_⟩ (notFound _ _)
    rcases Nat.lt_succ_iff_lt_or_eq.mp below with before | rfl
    · exact clear.withinBefore earlier before
    · exact within
  | @reenters target reached again =>
    refine absurd ⟨?_, mem_idsBefore.mp again, ?_, clear.withinBefore⟩ (notCyclic hops target.id)
    · rw [reached, Option.map_some]
    · intro later below earlier before same
      obtain ⟨other, _, otherReached, _, _, fresh⟩ := clear later below
      rw [otherReached, Option.map_some] at same
      exact fresh (mem_idsBefore.mpr ⟨earlier, before, same⟩)

/-- The resolver stops after no more hops than there are identifiers, and where
every object is stored under its identifier, what it comes to is read off the
chain. -/
theorem resolveRefChain_exact (doc : Json) (ref : JsonString) (maxDepth : Binary64) :
    ∃ resolution, (∀ fuel, (objectIds doc).length < fuel →
        resolveRefChainInternal doc maxDepth fuel (some ref) [] 0 = some resolution) ∧ (Keyed doc →
        (∀ hops target, Finds doc ref maxDepth hops target → resolution = ⟨.ok (some target), []⟩) ∧
        (∀ hops pointer, Dangles doc ref maxDepth hops pointer →
          resolution = ⟨.ok none, [pointer]⟩) ∧ (∀ hops id, Reenters doc ref maxDepth hops id →
          resolution = ⟨.error (.cycleDetected id), []⟩) ∧
        ((∀ hops target, ¬Finds doc ref maxDepth hops target) →
          (∀ hops pointer, ¬Dangles doc ref maxDepth hops pointer) →
          (∀ hops id, ¬Reenters doc ref maxDepth hops id) →
          resolution = ⟨.error (.maxDepthExceeded maxDepth), []⟩)) := by
  obtain ⟨hops, resolution, clear, stops⟩ := exists_stop doc ref maxDepth
  have only {otherHops : Nat} {other : Resolution}
      (found : Clear doc ref maxDepth otherHops ∧ Stops doc ref maxDepth otherHops other) :
      resolution = other := by
    have run := stops.run clear (Nat.lt_succ_of_le (Nat.le_max_left hops otherHops))
    have otherRun := found.2.run found.1 (Nat.lt_succ_of_le (Nat.le_max_right hops otherHops))
    exact Option.some.inj (run.symm.trans otherRun)
  refine ⟨resolution, fun fuel enough => ?_, fun keyed => ⟨?_, ?_, ?_, stops.limit clear⟩⟩
  · exact stops.run clear (lt_of_le_of_lt clear.le enough)
  · exact fun hops target finds => only (finds.stops keyed)
  · exact fun hops pointer dangles => only (dangles.stops keyed)
  · exact fun hops id reenters => only reenters.stops

end

variable {doc : Json} {ref : JsonString} {hops : Nat} {target : PBXObject}

def selfProxy : Json :=
  object [(jsonString "$objects", object [(jsonString "a", object
    [(jsonString "$id", string (jsonString "a")), (jsonString "$class", string (jsonString "Proxy")),
      (jsonString "$ref", string (jsonString "a"))])])]

theorem keyed_of_all (all : ((objectsOf doc).all fun entry =>
      (pbxObject? entry.2).all fun target => decide (target.id = entry.1))) : Keyed doc := by
  intro entry member target isObject
  have here := List.all_eq_true.mp all entry member
  rw [isObject, Option.all_some] at here
  exact of_decide_eq_true here

theorem keyed_selfProxy : Keyed selfProxy :=
  keyed_of_all (by decide +kernel)

/-- The resolver is exact on a proxy of itself. -/
theorem resolveRefChain_exact_selfProxy : ∃ resolution : Resolution,
    ∀ hops id, Reenters selfProxy (jsonString "a") (.ofInt 16) hops id →
      resolution = ⟨.error (.cycleDetected id), []⟩ := by
  obtain ⟨resolution, _, outcomes⟩ := resolveRefChain_exact selfProxy (jsonString "a") (.ofInt 16)
  exact ⟨resolution, (outcomes keyed_selfProxy).2.2.1⟩

theorem resolveRef_selfProxy : ∃ target, resolveRef selfProxy (jsonString "a") = some target ∧
    target.proxied? = some (jsonString "a") ∧ target.id = jsonString "a" := by
  have found : ((resolveRef selfProxy (jsonString "a")).any fun target =>
      decide (target.proxied? = some (jsonString "a")) && decide (target.id = jsonString "a")) =
        true := by
    decide +kernel
  cases resolved : resolveRef selfProxy (jsonString "a") with
  | none =>
    rw [resolved] at found
    cases found
  | some target =>
    rw [resolved, Option.any_some, Bool.and_eq_true, decide_eq_true_eq, decide_eq_true_eq] at found
    exact ⟨target, rfl, found⟩

theorem objectAt_loop (resolved : resolveRef doc ref = some target)
    (proxy : target.proxied? = some ref) (hops : Nat) :
    pointerAt doc ref hops = some ref ∧ objectAt doc ref hops = some target := by
  induction hops with
  | zero => exact ⟨rfl, resolved⟩
  | succ hops ih =>
    have pointed : pointerAt doc ref (hops + 1) = some ref := (pointerAt_succ ih.2).trans proxy
    exact ⟨pointed, (objectAt_eq pointed).trans resolved⟩

/-- An object that is re-entered beyond the limit is still a cycle, not an
exceeded limit. -/
theorem resolveRefChain_reenters_beyond : ¬∀ doc ref maxDepth, Keyed doc → ∀ resolution,
      resolveRefChain doc (some ref) maxDepth = some resolution →
      (∀ hops target, ¬Finds doc ref maxDepth hops target) →
      (∀ hops pointer, Dangles doc ref maxDepth hops pointer → exceeds hops maxDepth) →
      (∀ hops id, Reenters doc ref maxDepth hops id → exceeds hops maxDepth) →
      resolution = ⟨.error (.maxDepthExceeded maxDepth), []⟩ := by
  intro claimed
  obtain ⟨target, resolved, proxy, idEq⟩ := resolveRef_selfProxy
  have loop := objectAt_loop resolved proxy
  have beyond {hops : Nat} (positive : 0 < hops) :
      exceeds hops (.finite 0 Binary64.representable_zero) := by
    simp [exceeds, positive]
  have clear : Clear selfProxy (jsonString "a") (.finite 0 Binary64.representable_zero) 1 := by
    intro earlier below
    obtain rfl := Nat.lt_one_iff.mp below
    exact ⟨target, _, (loop 0).2, proxy, by decide +kernel, List.not_mem_nil⟩
  have again : target.id ∈ idsBefore selfProxy (jsonString "a") 1 :=
    mem_idsBefore.mpr ⟨0, Nat.one_pos, by rw [(loop 0).2, Option.map_some]⟩
  have stops : Stops selfProxy (jsonString "a") (.finite 0 Binary64.representable_zero) 1 _ :=
    .reenters (loop 1).2 again
  have enough : 1 < (objectIds selfProxy).length + 1 := by
    decide +kernel
  have exceeded := claimed selfProxy (jsonString "a") (.finite 0 Binary64.representable_zero)
    keyed_selfProxy _ (stops.run clear enough) ?_ ?_ ?_
  · simp at exceeded
  · intro hops other finds
    cases (loop hops).2.symm.trans finds.reached
    cases proxy.symm.trans finds.final
  · intro hops pointer dangles
    cases (loop hops).1.symm.trans dangles.reached
    cases resolved.symm.trans dangles.missing
  · intro hops id reenters
    obtain ⟨earlier, before, _⟩ := reenters.again
    exact beyond (Nat.zero_lt_of_lt before)

end P2PHub.PBX
