import P2PHub.DepthFirst
import P2PHub.PBXGraphs

/-!
# Walks over PBX documents

`walkPBXObjects` of `sdk/src/pbx.ts`, on what `deserialize` makes of any text:
any graph, with any identifiers under any keys.
-/

namespace P2PHub.PBX

open Json ManifestSigning JsonUnits DepthFirst.Graph
open DepthFirst (Frame)

inductive PBXDeserializationError
  | notJson
  | notDocument
  | notObject (key : JsonString)
  deriving DecidableEq

def PBXDeserializationError.message : PBXDeserializationError → JsonString
  | notJson => jsonString "deserialize: input is not valid JSON"
  | notDocument => jsonString "deserialize: input is not a valid PBX document"
  | notObject key =>
    jsonString "deserialize: $objects entry \"" ++ key ++ jsonString "\" is not a valid PBX object"

structure PBXRecursionDepthExceededError where
  maxDepth : Binary64
  deriving DecidableEq

def PBXRecursionDepthExceededError.message (error : PBXRecursionDepthExceededError) : JsonString :=
  jsonString "PBX graph traversal exceeded the maximum depth of " ++
    jsonString (String.ofList error.maxDepth.text)

/-- `MAX_PBX_DEPTH` -/
def maxPBXDepth : Binary64 :=
  .ofInt 100

/-- The reference of `$top.root`. -/
def rootReference? : Json → Option JsonString
  | object fields =>
    match property fields "$top" with
    | some (object top) =>
      match property top "root" with
      | some (object root) => stringProperty root "$ref"
      | _ => none
    | _ => none
  | _ => none

def isPBXDocument (value : Json) : Bool :=
  (rootReference? value).isSome && match value with
    | object fields =>
      match property fields "$objects" with
      | some (object _) => true
      | _ => false
    | _ => false

def keyIndex? (key : JsonString) : Option ℕ :=
  JsValue.arrayIndex? (String.ofList (key.map char))

/-- The properties of an object in their order: array indices ascending, then
all other keys as they were added. -/
def ownProperties (fields : List (JsonString × Json)) : List (JsonString × Json) :=
  (fields.filter fun field => (keyIndex? field.1).isSome).insertionSort
      (fun field later => (keyIndex? field.1).getD 0 ≤ (keyIndex? later.1).getD 0) ++
    fields.filter fun field => (keyIndex? field.1).isNone

def deserialize (raw : JsonString) : Except PBXDeserializationError Json :=
  match parse raw with
  | none => .error .notJson
  | some parsed =>
    if isPBXDocument parsed then
      match (ownProperties (objectsOf parsed)).find? fun entry => (pbxObject? entry.2).isNone with
      | some entry => .error (.notObject entry.1)
      | none => .ok parsed
    else .error .notDocument

/-- An object of a document, and the key it is stored under. -/
structure Entry where
  key : JsonString
  obj : PBXObject

def resolveEntry (doc : Json) (ref : JsonString) : Option Entry :=
  (resolveRef doc ref).map fun obj => ⟨ref, obj⟩

/-- The state of the loop.  Of the objects visited, and the nodes on the stack,
the latest one is first. -/
structure Walk where
  stack : List (Frame Entry)
  seen : List JsonString
  visits : List (Frame Entry)
  reported : List JsonString

/-- What a walk comes to: the objects visited with their depths, the references
reported as broken, and the error that is thrown. -/
structure WalkResult where
  visits : List (Frame Entry)
  reported : List JsonString
  result : Except PBXRecursionDepthExceededError Unit

def pushReferences (doc : Json) (depth : ℕ) : List (JsonString × Json) → Walk → Walk
  | [], walk => walk
  | (_, value) :: properties, walk =>
    match pbxReference? value with
    | none => pushReferences doc depth properties walk
    | some ref =>
      match resolveEntry doc ref with
      | some target =>
        pushReferences doc depth properties { walk with stack := ⟨target, depth + 1⟩ :: walk.stack }
      | none => pushReferences doc depth properties { walk with reported := walk.reported ++ [ref] }

def walkTurn (doc : Json) (maxDepth : Binary64) (walk : Walk) : Walk ⊕ WalkResult :=
  match walk.stack with
  | [] => .inr ⟨walk.visits.reverse, walk.reported, .ok ()⟩
  | frame :: stack =>
    if exceeds frame.depth maxDepth then
      .inr ⟨walk.visits.reverse, walk.reported, .error ⟨maxDepth⟩⟩
    else if frame.node.obj.id ∈ walk.seen then .inl { walk with stack := stack }
    else
      .inl <| pushReferences doc frame.depth (ownProperties frame.node.obj.properties) { walk with
          stack := stack
          seen := frame.node.obj.id :: walk.seen
          visits := frame :: walk.visits }

def walkLoop (doc : Json) (maxDepth : Binary64) : ℕ → Walk → Option WalkResult
  | 0, _ => none
  | fuel + 1, walk =>
    match walkTurn doc maxDepth walk with
    | .inl walk => walkLoop doc maxDepth fuel walk
    | .inr result => some result

def startWalk (root : Entry) : Walk :=
  ⟨[⟨root, 0⟩], [], [], []⟩

def entries (doc : Json) : List Entry :=
  (objectsOf doc).filterMap fun entry => (pbxObject? entry.2).map fun obj => ⟨entry.1, obj⟩

def walkFuel (doc : Json) : ℕ :=
  ((entries doc).map fun entry => entry.obj.properties.length).sum + 2

def walkPBXObjects (doc : Json) (maxDepth : Binary64) : Option WalkResult :=
  match rootReference? doc with
  | none => some ⟨[], [], .ok ()⟩
  | some ref =>
    match resolveEntry doc ref with
    | none => some ⟨[], [ref], .ok ()⟩
    | some root => walkLoop doc maxDepth (walkFuel doc) (startWalk root)

section

variable (doc : Json) (maxDepth : Binary64)

/-- An object refers to another directly, by one of its properties. -/
def Refers (entry target : Entry) : Prop :=
  ∃ name value ref, (name, value) ∈ entry.obj.properties ∧ pbxReference? value = some ref ∧
    resolveEntry doc ref = some target

/-- The entry that `$top.root` refers to. -/
def entryOfRoot : Option Entry :=
  (rootReference? doc).bind (resolveEntry doc)

def Reachable (entry : Entry) : Prop :=
  ∃ root, entryOfRoot doc = some root ∧ Relation.ReflTransGen (Refers doc) root entry

/-- A chain of different objects from the root, each of which refers to the
next, is longer than the limit. -/
def LongChain : Prop :=
  ∃ root chain, entryOfRoot doc = some root ∧ (root :: chain).IsChain (Refers doc) ∧
    (root :: chain).Nodup ∧ exceeds chain.length maxDepth = true

/-- The walk comes to an end, it visits every reachable object and no other,
each once, and only where a chain is too long it may throw its error and not
visit all. -/
def WalkExact : Prop :=
  ∃ walked, walkPBXObjects doc maxDepth = some walked ∧ (walked.visits.map Frame.node).Nodup ∧
    (∀ entry ∈ walked.visits.map Frame.node, Reachable doc entry) ∧
    (walked.result = .ok () → ∀ entry, Reachable doc entry → entry ∈ walked.visits.map Frame.node) ∧
    (walked.result = .error ⟨maxDepth⟩ → LongChain doc maxDepth)

def WalkReaches (walk : Walk) : Prop :=
  ∃ root, entryOfRoot doc = some root ∧
    Relation.ReflTransGen (fun walk later => walkTurn doc maxDepth walk = .inl later)
      (startWalk root) walk

def TakesBeyond (walk : Walk) (frame : Frame Entry) : Prop :=
  walk.stack.head? = some frame ∧ exceeds frame.depth maxDepth = true

def IdsApart : Prop :=
  ∀ entry other, Reachable doc entry → Reachable doc other → entry.obj.id = other.obj.id →
    entry = other

end

section

variable {doc : Json} {maxDepth : Binary64} {ref : JsonString} {entry target root : Entry}
  {walk later : Walk} {walked : WalkResult} {frame : Frame Entry} {fuel : ℕ}

def targets (doc : Json) (properties : List (JsonString × Json)) : List Entry :=
  properties.filterMap fun property => (pbxReference? property.2).bind (resolveEntry doc)

variable (doc maxDepth) in
def graphOf : DepthFirst.Graph Entry JsonString where
  next entry := (targets doc (ownProperties entry.obj.properties)).reverse
  label entry := entry.obj.id
  beyond depth := exceeds depth maxDepth

theorem ownProperties_perm (fields : List (JsonString × Json)) :
    (ownProperties fields).Perm fields := by
  have sorted := (List.perm_insertionSort (fun field later : JsonString × Json =>
    (keyIndex? field.1).getD 0 ≤ (keyIndex? later.1).getD 0)
    (fields.filter fun field => (keyIndex? field.1).isSome)).append_right
      (fields.filter fun field => (keyIndex? field.1).isNone)
  refine sorted.trans ?_
  have rest : (fields.filter fun field => (keyIndex? field.1).isNone) =
      fields.filter fun field => !(keyIndex? field.1).isSome := by
    simp
  rw [rest]
  exact List.filter_append_perm _ _

theorem resolveEntry_eq (resolved : resolveEntry doc ref = some entry) :
    entry.key = ref ∧ resolveRef doc ref = some entry.obj := by
  obtain ⟨obj, found, rfl⟩ := Option.map_eq_some_iff.mp resolved
  exact ⟨rfl, found⟩

theorem resolveEntry_mem (resolved : resolveEntry doc ref = some entry) : entry ∈ entries doc := by
  obtain ⟨obj, found, rfl⟩ := Option.map_eq_some_iff.mp resolved
  obtain ⟨value, stored, isObject⟩ := Option.bind_eq_some_iff.mp found
  obtain ⟨before, after, split, _⟩ := List.lookup_eq_some_iff.mp stored
  have member : (ref, value) ∈ objectsOf doc := by
    rw [split]
    exact List.mem_append_right _ List.mem_cons_self
  refine List.mem_filterMap.mpr ⟨_, member, ?_⟩
  rw [isObject, Option.map_some]

theorem refers_iff : Refers doc entry target ↔ target ∈ (graphOf doc maxDepth).next entry := by
  have same : ∀ property, property ∈ ownProperties entry.obj.properties ↔
      property ∈ entry.obj.properties :=
    fun _ => (ownProperties_perm entry.obj.properties).mem_iff
  simp only [graphOf, targets, Refers, List.mem_reverse, List.mem_filterMap, same, Prod.exists,
    Option.bind_eq_some_iff]
  constructor
  · rintro ⟨name, value, ref, member, isReference, resolved⟩
    exact ⟨name, value, member, ref, isReference, resolved⟩
  · rintro ⟨name, value, member, ref, isReference, resolved⟩
    exact ⟨name, value, ref, member, isReference, resolved⟩

theorem next_subset (entry : Entry) : (graphOf doc maxDepth).next entry ⊆ entries doc := by
  intro target member
  obtain ⟨name, value, ref, _, _, resolved⟩ := refers_iff.mpr member
  exact resolveEntry_mem resolved

theorem next_length_le (entry : Entry) :
    ((graphOf doc maxDepth).next entry).length ≤ entry.obj.properties.length := by
  rw [graphOf, List.length_reverse, targets, ← (ownProperties_perm _).length_eq]
  exact List.length_filterMap_le _ _

/-- The loop over the properties puts the objects that they refer to on the
stack, the last one on top. -/
theorem pushReferences_eq (doc : Json) (depth : ℕ) (properties : List (JsonString × Json))
    (walk : Walk) : ∃ reported, pushReferences doc depth properties walk = { walk with
        stack := ((targets doc properties).reverse.map fun entry => ⟨entry,
          depth + 1⟩) ++ walk.stack
        reported := reported } := by
  induction properties generalizing walk with
  | nil => exact ⟨walk.reported, rfl⟩
  | cons property properties ih =>
    obtain ⟨name, value⟩ := property
    cases isReference : pbxReference? value with
    | none =>
      obtain ⟨reported, pushed⟩ := ih walk
      refine ⟨reported, ?_⟩
      rw [pushReferences, isReference, targets, List.filterMap_cons_none (by simp [isReference])]
      exact pushed
    | some ref =>
      cases resolved : resolveEntry doc ref with
      | none =>
        obtain ⟨reported, pushed⟩ := ih { walk with reported := walk.reported ++ [ref] }
        refine ⟨reported, ?_⟩
        rw [pushReferences, isReference, targets,
          List.filterMap_cons_none (by simp [isReference, resolved])]
        dsimp only
        rw [resolved]
        exact pushed
      | some target =>
        obtain ⟨reported, pushed⟩ := ih { walk with stack := ⟨target, depth + 1⟩ :: walk.stack }
        refine ⟨reported, ?_⟩
        rw [pushReferences, isReference, targets,
          List.filterMap_cons_some (b := target) (by simp [isReference, resolved])]
        dsimp only
        rw [resolved]
        dsimp only
        rw [pushed, targets, List.reverse_cons, List.map_append, List.append_assoc]
        rfl

def Walk.search (walk : Walk) : DepthFirst.Search Entry :=
  ⟨walk.stack, walk.visits⟩

variable (doc maxDepth) in
/-- The set of identifiers seen is that of the objects visited. -/
def Walk.Faithful (walk : Walk) : Prop :=
  walk.seen = (graphOf doc maxDepth).seen walk.visits

theorem walkTurn_step (turn : walkTurn doc maxDepth walk = .inl later)
    (faithful : walk.Faithful doc maxDepth) :
    (graphOf doc maxDepth).Step walk.search later.search ∧ later.Faithful doc maxDepth := by
  obtain ⟨stack, seen, visits, reported⟩ := walk
  cases stack with
  | nil => cases turn
  | cons frame stack =>
    dsimp only [Walk.Faithful] at faithful
    subst faithful
    rw [walkTurn] at turn
    dsimp only at turn
    cases limit : exceeds frame.depth maxDepth with
    | true =>
      rw [if_pos limit] at turn
      cases turn
    | false =>
      rw [if_neg (by simp [limit])] at turn
      by_cases again : frame.node.obj.id ∈ (graphOf doc maxDepth).seen visits
      · rw [if_pos again] at turn
        cases turn
        exact ⟨.skip limit again, rfl⟩
      · rw [if_neg again] at turn
        obtain ⟨reported, pushed⟩ := pushReferences_eq doc frame.depth
          (ownProperties frame.node.obj.properties)
          ⟨stack, frame.node.obj.id :: (graphOf doc maxDepth).seen visits, frame :: visits,
            reported⟩
        rw [pushed] at turn
        cases turn
        exact ⟨.visit limit again, rfl⟩

theorem walkTurn_end (ended : walkTurn doc maxDepth walk = .inr walked) :
    walked.visits = walk.visits.reverse ∧ (walk.stack = [] ∧ walked.result = .ok () ∨
        ∃ frame, TakesBeyond maxDepth walk frame ∧ walked.result = .error ⟨maxDepth⟩) := by
  obtain ⟨stack, seen, visits, reported⟩ := walk
  cases stack with
  | nil =>
    cases ended
    exact ⟨rfl, Or.inl ⟨rfl, rfl⟩⟩
  | cons frame =>
    rw [walkTurn] at ended
    dsimp only at ended
    cases limit : exceeds frame.depth maxDepth with
    | true =>
      rw [if_pos limit] at ended
      cases ended
      exact ⟨rfl, Or.inr ⟨frame, ⟨rfl, limit⟩, rfl⟩⟩
    | false =>
      rw [if_neg (by simp [limit])] at ended
      split at ended <;> cases ended

theorem TakesBeyond.ends (doc : Json) (takes : TakesBeyond maxDepth walk frame) :
    ∃ walked, walkTurn doc maxDepth walk = .inr walked := by
  obtain ⟨stack, seen, visits, reported⟩ := walk
  obtain ⟨top, beyond⟩ := takes
  cases stack with
  | nil => cases top
  | cons =>
    cases top
    refine ⟨⟨visits.reverse, reported, .error ⟨maxDepth⟩⟩, ?_⟩
    rw [walkTurn]
    dsimp only
    rw [if_pos beyond]

theorem walkLoop_ends (faithful : walk.Faithful doc maxDepth)
    (inside : ∀ frame ∈ walk.stack, frame.node ∈ entries doc)
    (enough : (graphOf doc maxDepth).work (entries doc) walk.search < fuel) : ∃ last walked,
      Relation.ReflTransGen (fun walk later => walkTurn doc maxDepth walk = .inl later) walk last ∧
      walkTurn doc maxDepth last = .inr walked ∧ walkLoop doc maxDepth fuel walk = some walked := by
  induction fuel generalizing walk with
  | zero => exact absurd enough (Nat.not_lt_zero _)
  | succ fuel ih =>
    cases turn : walkTurn doc maxDepth walk with
    | inr walked =>
      refine ⟨walk, walked, .refl, turn, ?_⟩
      rw [walkLoop, turn]
    | inl =>
      obtain ⟨step, laterFaithful⟩ := walkTurn_step turn faithful
      have less := step.work_lt inside
      have laterInside := step.stack_mem (fun entry _ => next_subset entry) inside
      obtain ⟨last, walked, turns, ended, looped⟩ := ih laterFaithful laterInside (by omega)
      refine ⟨last, walked, .head turn turns, ended, ?_⟩
      rw [walkLoop, turn]
      exact looped

theorem work_start_lt (doc : Json) (maxDepth : Binary64) (root : Entry) :
    (graphOf doc maxDepth).work (entries doc) (startWalk root).search < walkFuel doc := by
  have each : ((entries doc).map ((graphOf doc maxDepth).cost [])).sum ≤
      ((entries doc).map fun entry => entry.obj.properties.length).sum := by
    refine List.sum_le_sum fun entry _ => ?_
    exact next_length_le entry
  have stack : (startWalk root).search.stack.length = 1 := rfl
  rw [work, walkFuel, stack]
  change 1 + ((entries doc).map ((graphOf doc maxDepth).cost [])).sum < _
  omega

section

variable (turns : Relation.ReflTransGen (fun walk later => walkTurn doc maxDepth walk = .inl later)
    (startWalk root) walk)
include turns

theorem walkTurns_reached :
    (graphOf doc maxDepth).Reached root walk.search ∧ walk.Faithful doc maxDepth := by
  induction turns with
  | refl => exact ⟨.refl, rfl⟩
  | tail _ turn ih =>
    obtain ⟨step, faithful⟩ := walkTurn_step turn ih.2
    exact ⟨ih.1.tail step, faithful⟩

theorem walkTurns_end_unique {other : Walk} {otherWalked : WalkResult}
    (ended : walkTurn doc maxDepth walk = .inr walked) (otherTurns : Relation.ReflTransGen
      (fun walk later => walkTurn doc maxDepth walk = .inl later) (startWalk root) other)
    (otherEnded : walkTurn doc maxDepth other = .inr otherWalked) : walk = other := by
  have stays {walk later : Walk} {walked : WalkResult}
      (ended : walkTurn doc maxDepth walk = .inr walked)
      (turns : Relation.ReflTransGen (fun walk later => walkTurn doc maxDepth walk = .inl later)
        walk later) : walk = later := by
    rcases turns.cases_head with same | ⟨next, turn, _⟩
    · exact same
    · rw [ended] at turn
      cases turn
  have deterministic : Relator.RightUnique
      fun walk later => walkTurn doc maxDepth walk = .inl later := by
    intro walk later next turn otherTurn
    exact Sum.inl.inj (turn.symm.trans otherTurn)
  rcases turns.total_of_right_unique deterministic otherTurns with further | further
  · exact stays ended further
  · exact (stays otherEnded further).symm

end

theorem reachable_iff (maxDepth : Binary64) (isRoot : entryOfRoot doc = some root) :
    Reachable doc entry ↔ (graphOf doc maxDepth).Reachable root entry := by
  have same : Refers doc = fun entry target => target ∈ (graphOf doc maxDepth).next entry := by
    funext entry target
    exact propext refers_iff
  rw [DepthFirst.Graph.Reachable, ← same]
  constructor
  · rintro ⟨other, otherRoot, reaches⟩
    cases isRoot.symm.trans otherRoot
    exact reaches
  · exact fun reaches => ⟨root, isRoot, reaches⟩

theorem idsApart_iff (maxDepth : Binary64) (isRoot : entryOfRoot doc = some root) :
    IdsApart doc ↔ (graphOf doc maxDepth).Apart root := by
  simp only [IdsApart, Apart, reachable_iff maxDepth isRoot]
  rfl

theorem longChain_of_search (isRoot : entryOfRoot doc = some root)
    (long : (graphOf doc maxDepth).LongChain root) : LongChain doc maxDepth := by
  obtain ⟨node, chain, reaches, nodup, beyond⟩ := long
  obtain ⟨head, linked⟩ := reaches.reverse
  obtain ⟨rest, split⟩ := List.head?_eq_some_iff.mp head
  have length : rest.length = chain.length := by
    have := congrArg List.length split
    rw [List.length_reverse, List.length_cons, List.length_cons] at this
    omega
  rw [split] at linked
  refine ⟨root, rest, isRoot, linked.imp fun _ _ leads => refers_iff.mpr leads, ?_, ?_⟩
  · rw [← split]
    exact List.nodup_reverse.mpr nodup
  · rw [length]
    exact beyond

theorem walkExact_iff (walks : walkPBXObjects doc maxDepth = some walked)
    (nodup : (walked.visits.map Frame.node).Nodup)
    (reachable : ∀ entry ∈ walked.visits.map Frame.node, Reachable doc entry) :
    WalkExact doc maxDepth ↔ (walked.result = .ok () →
        ∀ entry, Reachable doc entry → entry ∈ walked.visits.map Frame.node) ∧
      (walked.result = .error ⟨maxDepth⟩ → LongChain doc maxDepth) := by
  constructor
  · rintro ⟨other, otherWalks, _, _, complete, long⟩
    cases walks.symm.trans otherWalks
    exact ⟨complete, long⟩
  · exact fun exactness => ⟨walked, walks, nodup, reachable, exactness⟩

/-- A walk that throws without an identifier seen has found a chain that is too
long. -/
theorem longChain_of_fresh (isRoot : entryOfRoot doc = some root)
    (turns : Relation.ReflTransGen (fun walk later => walkTurn doc maxDepth walk = .inl later)
      (startWalk root) walk) (takes : TakesBeyond maxDepth walk frame)
    (fresh : frame.node.obj.id ∉ walk.seen) : LongChain doc maxDepth := by
  obtain ⟨reached, faithful⟩ := walkTurns_reached turns
  have holds := reached.invariant
  obtain ⟨stack, seen, visits, reported⟩ := walk
  obtain ⟨top, beyond⟩ := takes
  obtain ⟨rest, rfl⟩ := List.head?_eq_some_iff.mp top
  dsimp only [Walk.Faithful] at faithful
  subst faithful
  exact longChain_of_search isRoot (holds.longChain fresh beyond)

end

/-- The root refers to an object under another key with its own identifier. -/
def twinText : JsonString :=
  jsonString <| "\x7b\"$top\":\x7b\"root\":\x7b\"$ref\":\"a\"\x7d\x7d,\"$objects\":\x7b" ++
    "\"a\":\x7b\"$id\":\"a\",\"$class\":\"Node\",\"next\":\x7b\"$ref\":\"b\"\x7d\x7d," ++
    "\"b\":\x7b\"$id\":\"a\",\"$class\":\"Node\"\x7d\x7d\x7d"

def loopText : JsonString :=
  jsonString <| "\x7b\"$top\":\x7b\"root\":\x7b\"$ref\":\"a\"\x7d\x7d,\"$objects\":\x7b" ++
    "\"a\":\x7b\"$id\":\"a\",\"$class\":\"Node\",\"next\":\x7b\"$ref\":\"a\"\x7d\x7d\x7d\x7d"

def documentOf (raw : JsonString) : Json :=
  match deserialize raw with
  | .ok doc => doc
  | .error _ => null

theorem deserialize_documentOf {raw : JsonString} (accepted : (deserialize raw).isOk) :
    deserialize raw = .ok (documentOf raw) := by
  rw [documentOf]
  cases result : deserialize raw with
  | ok => rfl
  | error =>
    rw [result] at accepted
    cases accepted

theorem twinText_walk : (deserialize twinText).isOk ∧
    (walkPBXObjects (documentOf twinText) maxPBXDepth).map (fun walked =>
      (walked.visits.map fun frame => frame.node.key, walked.result.isOk)) =
        some ([jsonString "a"], true) ∧ (entryOfRoot (documentOf twinText)).map (fun root =>
      ((graphOf (documentOf twinText) maxPBXDepth).next root).map Entry.key) =
        some [jsonString "b"] := by
  decide +kernel

theorem loopText_walk : (deserialize loopText).isOk ∧
    (walkPBXObjects (documentOf loopText) (.finite 0 Binary64.representable_zero)).map
      (fun walked =>
        decide (walked.result = .error ⟨.finite 0 Binary64.representable_zero⟩)) = some true ∧
    (entryOfRoot (documentOf loopText)).map (fun root =>
      (root.key, ((graphOf (documentOf loopText) maxPBXDepth).next root).map Entry.key)) =
        some (jsonString "a", [jsonString "a"]) := by
  decide +kernel

theorem not_walkExact_twin : ¬WalkExact (documentOf twinText) maxPBXDepth := by
  obtain ⟨_, walks, leads⟩ := twinText_walk
  rintro ⟨walked, isWalked, _, _, complete, _⟩
  obtain ⟨root, isRoot, keys⟩ := Option.map_eq_some_iff.mp leads
  have twin : jsonString "b" ∈
      ((graphOf (documentOf twinText) maxPBXDepth).next root).map Entry.key := by
    rw [keys]
    exact List.mem_cons_self
  obtain ⟨entry, next, key⟩ := List.mem_map.mp twin
  rw [isWalked, Option.map_some, Option.some.injEq, Prod.mk.injEq] at walks
  have returned : walked.result = .ok () := by
    cases result : walked.result with
    | ok => rfl
    | error =>
      rw [result] at walks
      cases walks.2
  obtain ⟨frame, member, rfl⟩ := List.mem_map.mp
    (complete returned entry ⟨root, isRoot, .single (refers_iff.mpr next)⟩)
  have visited : frame.node.key ∈ walked.visits.map fun frame => frame.node.key :=
    List.mem_map_of_mem member
  rw [walks.1, key] at visited
  exact absurd visited (by decide +kernel)

theorem not_walkExact_loop :
    ¬WalkExact (documentOf loopText) (.finite 0 Binary64.representable_zero) := by
  obtain ⟨_, walks, leads⟩ := loopText_walk
  rintro ⟨walked, isWalked, _, _, _, long⟩
  rw [isWalked, Option.map_some, Option.some.injEq, decide_eq_true_eq] at walks
  obtain ⟨root, chain, isRoot, linked, nodup, beyond⟩ := long walks
  rw [isRoot, Option.map_some, Option.some.injEq, Prod.mk.injEq] at leads
  cases chain with
  | nil => exact absurd beyond (by decide +kernel)
  | cons second =>
    have refers := (List.isChain_cons_cons.mp linked).1
    have key : second.key = root.key := by
      have member : second.key ∈
          ((graphOf (documentOf loopText) maxPBXDepth).next root).map Entry.key :=
        List.mem_map_of_mem (refers_iff.mp refers)
      rw [leads.2, List.mem_singleton] at member
      rw [member, leads.1]
    obtain ⟨_, _, ref, _, _, resolved⟩ := refers
    obtain ⟨rootRef, _, rootResolved⟩ := Option.bind_eq_some_iff.mp isRoot
    have same : ref = rootRef := by
      rw [← (resolveEntry_eq resolved).1, ← (resolveEntry_eq rootResolved).1, key]
    rw [same, rootResolved] at resolved
    cases resolved
    exact (List.nodup_cons.mp nodup).1 List.mem_cons_self

end P2PHub.PBX
