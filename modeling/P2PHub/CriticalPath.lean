import P2PHub.Binary64Order
import P2PHub.InsertionOrderedMap
import P2PHub.KeyedLookups

/-!
# The critical path of a project

`calculateCriticalPath` of `plugins/tasks/src/computations.ts`: the longest
chain through the dependencies of the tasks, by a memoized search and a walk
along the successors it noted.
-/

namespace P2PHub.Tasks

open Binary64 OrderedMap

structure TaskLike where
  id : String
  estimatedHours : Option Binary64
  durationDays : Option Binary64
  dependencies : Option (List String)

structure CriticalPath where
  path : List String
  totalWeight : Binary64
  criticalTaskIds : List String

/-- The longest chain from a task: its weight and the task after this one. -/
structure Longest where
  weight : Binary64
  next : Option String

def TaskLike.dependencyIds (task : TaskLike) : List String :=
  task.dependencies.getD []

def isPositive (number : Binary64) : Bool :=
  (ofInt 0).lt number

def weightOf (task : TaskLike) : Binary64 :=
  match task.durationDays.filter isPositive with
  | some durationDays => durationDays
  | none =>
    match task.estimatedHours.filter isPositive with
    | some estimatedHours => estimatedHours
    | none => .ofInt 1

abbrev Memo := OrderedMap String Longest

def indexById (tasks : List TaskLike) : OrderedMap String TaskLike :=
  tasks.foldl (fun byId task => byId.set task.id task) .empty

def improve (byId : OrderedMap String TaskLike)
    (longestFrom : Memo → String → Option (Longest × Memo)) (state : Longest × Memo)
    (depId : String) : Option (Longest × Memo) :=
  if (byId.get depId).isSome then do
    let (sub, memo) ← longestFrom state.2 depId
    return (if state.1.weight.lt sub.weight then ⟨sub.weight, some depId⟩ else state.1, memo)
  else some state

/-- The longest chain from a task.  The fuel bounds the nesting; `inStack` holds
the tasks whose calls have not returned. -/
def longestFrom (byId : OrderedMap String TaskLike) :
    Nat → List String → Memo → String → Option (Longest × Memo)
  | 0, _, _, _ => none
  | fuel + 1, inStack, memo, id =>
    match memo.get id with
    | some cached => some (cached, memo)
    | none =>
      match byId.get id with
      | none => some (⟨.ofInt 0, none⟩, memo.set id ⟨.ofInt 0, none⟩)
      | some task =>
        if id ∈ inStack then some (⟨.ofInt 0, none⟩, memo)
        else do
          let (best, memo) ← task.dependencyIds.foldlM
            (improve byId (longestFrom byId fuel (id :: inStack))) (⟨.ofInt 0, none⟩, memo)
          let result : Longest := ⟨(weightOf task).add best.weight, best.next⟩
          return (result, memo.set id result)

/-- The search so far: the best task and its weight, and the memo. -/
structure Search where
  bestId : Option String
  bestWeight : Binary64
  memo : Memo

def consider (byId : OrderedMap String TaskLike) (fuel : Nat) (search : Search)
    (task : TaskLike) : Option Search := do
  let (candidate, memo) ← longestFrom byId fuel [] search.memo task.id
  return if search.bestWeight.lt candidate.weight then ⟨some task.id, candidate.weight, memo⟩
    else { search with memo := memo }

/-- Follow the noted successors.  The fuel bounds the path. -/
def follow (memo : Memo) : Nat → Option String → Option (List String)
  | _, none => some []
  | 0, some _ => none
  | fuel + 1, some cursor =>
    (follow memo fuel ((memo.get cursor).bind Longest.next)).map (cursor :: ·)

def calculateCriticalPath (tasks : List TaskLike) : Option CriticalPath := do
  let byId := indexById tasks
  let search ← tasks.foldlM (consider byId (tasks.length + 1)) ⟨none, .ofInt (-1), .empty⟩
  match search.bestId with
  | none => return ⟨[], .ofInt 0, []⟩
  | some bestId =>
    let path ← follow search.memo tasks.length (some bestId)
    return ⟨path, search.bestWeight, path⟩

section

variable (tasks : List TaskLike)

def DependsOn (task other : TaskLike) : Prop :=
  task ∈ tasks ∧ other ∈ tasks ∧ other.id ∈ task.dependencyIds

def Acyclic : Prop :=
  ∀ task, ¬Relation.TransGen (DependsOn tasks) task task

/-- Tasks each of which depends on the next one. -/
structure DependencyChain (chain : List TaskLike) : Prop where
  known : ∀ task ∈ chain, task ∈ tasks
  linked : chain.IsChain (DependsOn tasks)

def chainWeight (chain : List TaskLike) : Binary64 :=
  chain.foldr (fun task sum => (weightOf task).add sum) (.ofInt 0)

end

theorem acyclic_of_rank {tasks : List TaskLike} (rank : TaskLike → ℕ)
    (lower : ∀ task other, DependsOn tasks task other → rank other < rank task) :
    Acyclic tasks := by
  intro task cycle
  have below : ∀ other, Relation.TransGen (DependsOn tasks) task other → rank other < rank task :=
    by
    intro other leads
    induction leads with
    | single depends => exact lower _ _ depends
    | tail _ depends ih => exact (lower _ _ depends).trans ih
  exact lt_irrefl _ (below task cycle)

section

variable {tasks : List TaskLike} {task : TaskLike} {id : String}

theorem indexById_snoc (tasks : List TaskLike) (task : TaskLike) :
    indexById (tasks ++ [task]) = (indexById tasks).set task.id task := by
  simp [indexById]

theorem indexById_get (distinct : (tasks.map TaskLike.id).Nodup) :
    (indexById tasks).get id = some task ↔ task ∈ tasks ∧ task.id = id := by
  induction tasks using List.reverseRecOn generalizing task with
  | nil => simp [indexById, get_empty]
  | append_singleton tasks last ih =>
    rw [List.map_append, List.nodup_append] at distinct
    obtain ⟨others, _, apart⟩ := distinct
    rw [indexById_snoc, get_set, List.mem_append, List.mem_singleton]
    split
    · next isLast =>
        subst isLast
        constructor
        · intro same
          cases same
          exact ⟨Or.inr rfl, rfl⟩
        · rintro ⟨member | rfl, same⟩
          · exact absurd same (apart task.id (List.mem_map_of_mem member) last.id (by simp))
          · rfl
    · next other =>
        rw [ih others]
        constructor
        · rintro ⟨member, same⟩
          exact ⟨Or.inl member, same⟩
        · rintro ⟨member | rfl, same⟩
          · exact ⟨member, same⟩
          · exact absurd same.symm other

theorem indexById_isSome (distinct : (tasks.map TaskLike.id).Nodup) :
    ((indexById tasks).get id).isSome ↔ ∃ task ∈ tasks, task.id = id := by
  rw [Option.isSome_iff_exists]
  exact exists_congr fun task => indexById_get distinct

end

section

variable {task : TaskLike} {chain : List TaskLike}

theorem nonneg_of_isPositive {number : Binary64} (positive : isPositive number) :
    number.Nonneg := by
  have zero : ofInt 0 = .finite 0 representable_zero := by
    decide +kernel
  unfold isPositive at positive
  rw [zero] at positive
  cases number with
  | finite => exact (of_decide_eq_true positive).le
  | infinite negative =>
    cases negative with
    | false => rfl
    | true => cases positive
  | nan => cases positive

theorem nonneg_ofNat (number : ℕ) : (ofInt number).Nonneg :=
  ofRat_nonneg (by exact_mod_cast Nat.zero_le number)

theorem weightOf_nonneg (task : TaskLike) : (weightOf task).Nonneg := by
  unfold weightOf
  split
  · next found => exact nonneg_of_isPositive (Option.filter_eq_some_iff.mp found).2
  · split
    · next found => exact nonneg_of_isPositive (Option.filter_eq_some_iff.mp found).2
    · exact nonneg_ofNat 1

theorem chainWeight_nonneg (chain : List TaskLike) : (chainWeight chain).Nonneg := by
  induction chain with
  | nil => exact nonneg_ofNat 0
  | cons task chain ih => exact (weightOf_nonneg task).add ih

end

section

variable {tasks : List TaskLike} {task other : TaskLike}

/-- A task names another one, and not itself. -/
def Needs (tasks : List TaskLike) (task other : TaskLike) : Prop :=
  DependsOn tasks task other ∧ other ≠ task

/-- No two or more tasks depend on each other around a cycle. -/
def NoLongCycle (tasks : List TaskLike) : Prop :=
  ∀ task, ¬Relation.TransGen (Needs tasks) task task

/-- Tasks each of which needs the next one. -/
structure NeedsChain (tasks chain : List TaskLike) : Prop where
  known : ∀ task ∈ chain, task ∈ tasks
  linked : chain.IsChain (Needs tasks)

theorem Acyclic.noLongCycle (acyclic : Acyclic tasks) : NoLongCycle tasks :=
  fun task cycle => acyclic task (Relation.TransGen.mono (fun _ _ needs => needs.1) task task cycle)

theorem needsChain_iff (acyclic : Acyclic tasks) {chain : List TaskLike} :
    NeedsChain tasks chain ↔ DependencyChain tasks chain := by
  have needs (first second : TaskLike) : Needs tasks first second ↔ DependsOn tasks first second :=
    by
    refine and_iff_left_of_imp ?_
    rintro depends rfl
    exact acyclic _ (.single depends)
  have same : Needs tasks = DependsOn tasks :=
    funext₂ fun first second => propext (needs first second)
  exact ⟨fun linked => ⟨linked.known, same ▸ linked.linked⟩,
    fun linked => ⟨linked.known, same ▸ linked.linked⟩⟩

end

section

variable {ids : List String} {id : String} {value other : String → Longest}

def noChain : Longest :=
  ⟨.ofInt 0, none⟩

/-- The best of some ids by their values, the first one of several. -/
def bestOf (value : String → Longest) (ids : List String) : Longest :=
  ids.foldl (fun best id =>
    if best.weight.lt (value id).weight then ⟨(value id).weight, some id⟩ else best) noChain

theorem bestOf_snoc (ids : List String) (id : String) : bestOf value (ids ++ [id]) =
    if (bestOf value ids).weight.lt (value id).weight then ⟨(value id).weight, some id⟩
    else bestOf value ids := by
  rw [bestOf, List.foldl_append]
  rfl

theorem bestOf_congr (same : ∀ id ∈ ids, value id = other id) : bestOf value ids =
    bestOf other ids := by
  induction ids using List.reverseRecOn with
  | nil => rfl
  | append_singleton ids last ih =>
    rw [List.forall_mem_append, List.forall_mem_singleton] at same
    rw [bestOf_snoc, bestOf_snoc, ih same.1, same.2]

/-- The best value bounds the others, and is the value of the id that it names. -/
structure Best (value : String → Longest) (ids : List String) (best : Longest) : Prop where
  nonneg : best.weight.Nonneg
  bounds : ∀ id ∈ ids, (value id).weight.le best.weight = true
  final : best.next = none → best.weight = .ofInt 0
  successor : ∀ id, best.next = some id →
    id ∈ ids ∧ (value id).weight = best.weight ∧ value id ≠ noChain

theorem bestOf_best (nonneg : ∀ id ∈ ids, (value id).weight.Nonneg) :
    Best value ids (bestOf value ids) := by
  induction ids using List.reverseRecOn with
  | nil => exact ⟨nonneg_ofNat 0, List.forall_mem_nil _, fun _ => rfl, (fun _ next => nomatch next)⟩
  | append_singleton ids last ih =>
    rw [List.forall_mem_append, List.forall_mem_singleton] at nonneg
    obtain ⟨others, lastNonneg⟩ := nonneg
    have before := ih others
    rw [bestOf_snoc]
    split
    · next less =>
        refine ⟨lastNonneg, ?_, (fun impossible => nomatch impossible), ?_⟩
        · rw [List.forall_mem_append, List.forall_mem_singleton]
          refine ⟨fun id member => ?_, lastNonneg.le_refl⟩
          exact (others id member).le_trans before.nonneg lastNonneg (before.bounds id member)
            (le_of_lt less)
        · intro id isNext
          cases isNext
          refine ⟨by simp, rfl, fun zero => ?_⟩
          rw [zero] at less
          exact not_lt_of_le (nonneg_ofNat 0) (zero_le before.nonneg) less
    · next notLess =>
        refine ⟨before.nonneg, ?_, before.final, fun id isNext => ?_⟩
        · rw [List.forall_mem_append, List.forall_mem_singleton]
          exact ⟨before.bounds, before.nonneg.le_of_not_lt lastNonneg notLess⟩
        · obtain ⟨member, same⟩ := before.successor id isNext
          exact ⟨List.mem_append_left _ member, same⟩

end

section

variable {tasks rest : List TaskLike} {task other : TaskLike} {meaning : TaskLike → Longest}

/-- What an id is worth to a task, given the longest chains from the tasks. -/
def seen (tasks : List TaskLike) (meaning : TaskLike → Longest) (task : TaskLike) (id : String) :
    Longest :=
  if id = task.id then noChain else (((indexById tasks).get id).map meaning).getD noChain

/-- The longest chains from the tasks, each by those from its dependencies. -/
structure Means (tasks : List TaskLike) (meaning : TaskLike → Longest) : Prop where
  step : ∀ task ∈ tasks, meaning task =
    ⟨(weightOf task).add (bestOf (seen tasks meaning task) task.dependencyIds).weight,
      (bestOf (seen tasks meaning task) task.dependencyIds).next⟩
  nonneg : ∀ task ∈ tasks, (meaning task).weight.Nonneg

theorem seen_cases (distinct : (tasks.map TaskLike.id).Nodup) (member : task ∈ tasks) {id : String}
    (inside : id ∈ task.dependencyIds) (meaning : TaskLike → Longest) :
    seen tasks meaning task id = noChain ∨
      ∃ other, Needs tasks task other ∧ other.id = id ∧ seen tasks meaning task id =
        meaning other := by
  unfold seen
  split
  · exact .inl rfl
  · next apart =>
      cases found : (indexById tasks).get id with
      | none => exact .inl rfl
      | some other =>
        obtain ⟨otherMember, rfl⟩ := (indexById_get distinct).mp found
        exact .inr ⟨other, ⟨⟨member, otherMember, inside⟩, fun same => apart (same ▸ rfl)⟩, rfl,
          rfl⟩

theorem exists_meaning (distinct : (tasks.map TaskLike.id).Nodup) (acyclic : NoLongCycle tasks) :
    ∃ meaning, Means tasks meaning := by
  classical
  have wellFounded : WellFounded fun other task => task ∈ tasks ∧ Needs tasks task other :=
    Rule.wellFounded_refers acyclic
  let value (task : TaskLike)
      (earlier : ∀ other, task ∈ tasks ∧ Needs tasks task other → Longest) (id : String)
        : Longest :=
    seen tasks (fun other =>
      if step : task ∈ tasks ∧ Needs tasks task other then earlier other step else noChain) task id
  let next (task : TaskLike)
      (earlier : ∀ other, task ∈ tasks ∧ Needs tasks task other → Longest) : Longest :=
    ⟨(weightOf task).add (bestOf (value task earlier) task.dependencyIds).weight,
      (bestOf (value task earlier) task.dependencyIds).next⟩
  let meaning := wellFounded.fix next
  have step : ∀ task ∈ tasks, meaning task =
      ⟨(weightOf task).add (bestOf (seen tasks meaning task) task.dependencyIds).weight,
        (bestOf (seen tasks meaning task) task.dependencyIds).next⟩ := by
    intro task member
    have same : bestOf (value task fun other _ => meaning other) task.dependencyIds =
        bestOf (seen tasks meaning task) task.dependencyIds := by
      apply bestOf_congr
      intro id inside
      simp only [value, seen]
      split
      · rfl
      · next apart =>
          cases found : (indexById tasks).get id with
          | none => rfl
          | some =>
            obtain ⟨otherMember, rfl⟩ := (indexById_get distinct).mp found
            exact dif_pos ⟨member, ⟨member, otherMember, inside⟩, fun same => apart (same ▸ rfl)⟩
    rw [← same]
    exact wellFounded.fix_eq _ task
  refine ⟨meaning, step, fun task => ?_⟩
  induction task using wellFounded.induction with
  | _ task ih =>
    intro member
    rw [step task member]
    refine (weightOf_nonneg task).add (bestOf_best fun id inside => ?_).nonneg
    rcases seen_cases distinct member inside meaning with none | ⟨other, needs, -, same⟩
    · exact none ▸ nonneg_ofNat 0
    · exact same ▸ ih other ⟨member, needs⟩ needs.1.2.1

theorem Means.best (means : Means tasks meaning) (distinct : (tasks.map TaskLike.id).Nodup)
    (task : TaskLike) (ids : List String) :
    Best (seen tasks meaning task) ids (bestOf (seen tasks meaning task) ids) := by
  refine bestOf_best fun id _ => ?_
  unfold seen
  split
  · exact nonneg_ofNat 0
  · cases found : (indexById tasks).get id with
    | none => exact nonneg_ofNat 0
    | some other => exact means.nonneg other ((indexById_get distinct).mp found).1

theorem seen_of_needs (distinct : (tasks.map TaskLike.id).Nodup) (needs : Needs tasks task other) :
    seen tasks meaning task other.id = meaning other := by
  have apart : other.id ≠ task.id := fun same =>
    needs.2 (List.inj_on_of_nodup_map distinct needs.1.2.1 needs.1.1 same)
  rw [seen, if_neg apart, (indexById_get distinct).mpr ⟨needs.1.2.1, rfl⟩]
  rfl

theorem Means.chainWeight_le (means : Means tasks meaning)
    (distinct : (tasks.map TaskLike.id).Nodup) (chain : NeedsChain tasks (task :: rest)) :
    (chainWeight (task :: rest)).le (meaning task).weight := by
  induction rest generalizing task with
  | nil =>
    have member := chain.known task List.mem_cons_self
    have best := means.best distinct task task.dependencyIds
    rw [means.step task member]
    exact (weightOf_nonneg task).add_le_add (nonneg_ofNat 0) best.nonneg (zero_le best.nonneg)
  | cons next rest ih =>
    have member := chain.known task List.mem_cons_self
    obtain ⟨needs, linked⟩ := List.isChain_cons_cons.mp chain.linked
    have later := ih ⟨fun other inside => chain.known other (List.mem_cons_of_mem _ inside), linked⟩
    have best := means.best distinct task task.dependencyIds
    have below := best.bounds next.id needs.1.2.2
    rw [seen_of_needs distinct needs] at below
    rw [means.step task member]
    exact (weightOf_nonneg task).add_le_add (chainWeight_nonneg _) best.nonneg
      ((chainWeight_nonneg _).le_trans (means.nonneg next needs.1.2.1) best.nonneg later below)

end

section

variable {state : Longest × Memo}

/-- A fold whose rounds succeed and keep an invariant of what they are done
with. -/
theorem exists_foldlM {State Item : Type} {step : State → Item → Option State}
    (holds : List Item → State → Prop) {items : List Item} {start : State}
    (initial : holds [] start) (round : ∀ done item state, item ∈ items → holds done state →
      ∃ next, step state item = some next ∧ holds (done ++ [item]) next) :
    ∃ final, items.foldlM step start = some final ∧ holds items final := by
  suffices general : ∀ done rest state, (∀ item ∈ rest, item ∈ items) → holds done state →
      ∃ final, rest.foldlM step state = some final ∧ holds (done ++ rest) final from
    general [] items start (fun _ member => member) initial
  intro done rest
  induction rest generalizing done with
  | nil =>
    intro state _ held
    exact ⟨state, rfl, by rwa [List.append_nil]⟩
  | cons item rest ih =>
    intro state inside held
    obtain ⟨next, stepped, nextHeld⟩ := round done item state (inside item List.mem_cons_self) held
    obtain ⟨final, folded, finalHeld⟩ := ih (done ++ [item]) next
      (fun other member => inside other (List.mem_cons_of_mem _ member)) nextHeld
    refine ⟨final, ?_, ?_⟩
    · rw [List.foldlM_cons, stepped]
      exact folded
    · rwa [List.append_assoc, List.singleton_append] at finalHeld

variable {tasks : List TaskLike} {task other : TaskLike} {meaning : TaskLike → Longest}
  {memo later : Memo} {inStack done : List String} {fuel : Nat}

/-- The tasks whose calls have not returned lead to the task of the call. -/
structure Stacked (tasks : List TaskLike) (inStack : List String) (task : TaskLike) : Prop where
  nodup : inStack.Nodup
  above : ∀ id ∈ inStack, ∃ other ∈ tasks, other.id = id ∧
    Relation.TransGen (Needs tasks) other task

section

variable (stacked : Stacked tasks inStack task)
include stacked

theorem Stacked.fresh (distinct : (tasks.map TaskLike.id).Nodup) (acyclic : NoLongCycle tasks)
    (member : task ∈ tasks) : task.id ∉ inStack := by
  intro inside
  obtain ⟨other, otherMember, same, leads⟩ := stacked.above task.id inside
  obtain rfl := List.inj_on_of_nodup_map distinct otherMember member same
  exact acyclic other leads

theorem Stacked.length_lt (member : task ∈ tasks)
    (fresh : task.id ∉ inStack) : inStack.length < tasks.length := by
  have subset : task.id :: inStack ⊆ tasks.map TaskLike.id := by
    refine List.cons_subset.mpr ⟨List.mem_map_of_mem member, fun id inside => ?_⟩
    obtain ⟨other, otherMember, rfl, _⟩ := stacked.above id inside
    exact List.mem_map_of_mem otherMember
  have lengths := ((stacked.nodup.cons fresh).subperm subset).length_le
  rwa [List.length_map] at lengths

theorem Stacked.push (fresh : task.id ∉ inStack)
    (needs : Needs tasks task other) : Stacked tasks (task.id :: inStack) other where
  nodup := stacked.nodup.cons fresh
  above id inside := by
    rcases List.mem_cons.mp inside with rfl | before
    · exact ⟨task, needs.1.1, rfl, .single needs⟩
    · obtain ⟨first, member, same, leads⟩ := stacked.above id before
      exact ⟨first, member, same, leads.tail needs⟩

end

def Settled (tasks : List TaskLike) (meaning : TaskLike → Longest) (memo : Memo) : Prop :=
  ∀ task ∈ tasks, ∀ entry, memo.get task.id = some entry → entry = meaning task

/-- A later memo notes what an earlier one does, and leaves some ids alone. -/
structure Grows (inStack : List String) (memo later : Memo) : Prop where
  kept : ∀ id, (memo.get id).isSome → (later.get id).isSome
  frame : ∀ id ∈ inStack, later.get id = memo.get id

/-- What the loop over dependencies has done after some of them. -/
structure Looped (tasks : List TaskLike) (meaning : TaskLike → Longest) (inStack : List String)
    (memo : Memo) (task : TaskLike) (done : List String) (state : Longest × Memo) : Prop where
  best : state.1 = bestOf (seen tasks meaning task) done
  settled : Settled tasks meaning state.2
  grows : Grows (task.id :: inStack) memo state.2

section

variable (looped : Looped tasks meaning inStack memo task done state)
include looped

/-- One round of the loop, once the value of its id is known. -/
theorem Looped.next {id : String} {sub : Longest}
    (value : sub.weight = (seen tasks meaning task id).weight)
    (settled : Settled tasks meaning later) (grows : Grows (task.id :: inStack) state.2 later) :
    Looped tasks meaning inStack memo task (done ++ [id])
      (if state.1.weight.lt sub.weight then ⟨sub.weight, some id⟩ else state.1, later) where
  best := by rw [bestOf_snoc, ← looped.best, value]
  settled := settled
  grows := ⟨fun id noted => grows.kept id (looped.grows.kept id noted),
    fun id inside => (grows.frame id inside).trans (looped.grows.frame id inside)⟩

/-- A round for an id that has no chain. -/
theorem Looped.skip {id : String}
    (distinct : (tasks.map TaskLike.id).Nodup) (means : Means tasks meaning)
    (value : seen tasks meaning task id = noChain) : ¬state.1.weight.lt (.ofInt 0) ∧
      Looped tasks meaning inStack memo task (done ++ [id]) state := by
  have nonneg := (means.best distinct task done).nonneg
  rw [← looped.best] at nonneg
  have notLess := not_lt_of_le (nonneg_ofNat 0) (zero_le nonneg)
  refine ⟨notLess, ?_, looped.settled, looped.grows⟩
  rw [bestOf_snoc, ← looped.best, value]
  exact (if_neg notLess).symm

end

/-- A search from a task finds the longest chain from it. -/
theorem exists_longestFrom (distinct : (tasks.map TaskLike.id).Nodup) (acyclic : NoLongCycle tasks)
    (means : Means tasks meaning) (member : task ∈ tasks) (stacked : Stacked tasks inStack task)
    (settled : Settled tasks meaning memo) (enough : tasks.length < fuel + inStack.length) :
    ∃ later, longestFrom (indexById tasks) fuel inStack memo task.id = some (meaning task, later) ∧
      Settled tasks meaning later ∧ Grows inStack memo later ∧ (later.get task.id).isSome := by
  induction fuel generalizing inStack memo task with
  | zero =>
    have below := stacked.length_lt member (stacked.fresh distinct acyclic member)
    omega
  | succ fuel ih =>
    have fresh := stacked.fresh distinct acyclic member
    have below := stacked.length_lt member fresh
    unfold longestFrom
    cases found : memo.get task.id with
    | some cached =>
      obtain rfl := settled task member cached found
      exact ⟨memo, rfl, settled, ⟨fun _ noted => noted, fun _ _ => rfl⟩, found ▸ rfl⟩
    | none =>
      have indexed := (indexById_get distinct).mpr ⟨member, rfl⟩
      rw [indexed]
      dsimp only
      rw [if_neg fresh]
      have round (done : List String) (depId : String) (state : Longest × Memo)
          (inside : depId ∈ task.dependencyIds)
          (looped : Looped tasks meaning inStack memo task done state) :
          ∃ next, improve (indexById tasks)
              (longestFrom (indexById tasks) fuel (task.id :: inStack)) state depId =
                some next ∧ Looped tasks meaning inStack memo task (done ++ [depId]) next := by
        unfold improve
        split
        · next known =>
            by_cases own : depId = task.id
            · -- The task itself is in the stack, and its memo is not written yet.
              subst own
              have unnoted := (looped.grows.frame task.id List.mem_cons_self).trans found
              obtain ⟨notLess, skipped⟩ := looped.skip distinct means (if_pos rfl)
              obtain ⟨less, rfl⟩ := Nat.exists_eq_add_of_lt (show 0 < fuel by omega)
              refine ⟨state, ?_, skipped⟩
              simp [longestFrom, unnoted, indexed, notLess]
            · obtain ⟨other, otherMember, rfl⟩ := (indexById_isSome distinct).mp known
              have needs : Needs tasks task other :=
                ⟨⟨member, otherMember, inside⟩, fun isTask => own (isTask ▸ rfl)⟩
              obtain ⟨later, searched, laterSettled, grows, -⟩ := ih otherMember
                (stacked.push fresh needs) looped.settled (by rw [List.length_cons]; omega)
              rw [searched]
              exact ⟨_, rfl, looped.next (by rw [seen_of_needs distinct needs]) laterSettled grows⟩
        · next unknown =>
            have zero : seen tasks meaning task depId = noChain := by
              rw [seen, Option.not_isSome_iff_eq_none.mp unknown]
              split <;> rfl
            exact ⟨state, rfl, (looped.skip distinct means zero).2⟩
      have start : Looped tasks meaning inStack memo task [] (noChain, memo) :=
        ⟨rfl, settled, fun _ noted => noted, fun _ _ => rfl⟩
      obtain ⟨⟨best, last⟩, folded, looped⟩ :=
        exists_foldlM (Looped tasks meaning inStack memo task) start round
      have isBest : best = bestOf (seen tasks meaning task) task.dependencyIds := looped.best
      have value : meaning task = ⟨(weightOf task).add best.weight, best.next⟩ :=
        isBest ▸ means.step task member
      refine ⟨last.set task.id (meaning task), ?_, ?_, ⟨?_, ?_⟩, ?_⟩
      · rw [value]
        exact congrArg (fun folded : Option (Longest × Memo) => folded.bind _) folded
      · intro other otherMember entry noted
        rw [get_set] at noted
        split at noted
        · next same =>
            obtain rfl := List.inj_on_of_nodup_map distinct otherMember member same
            exact (Option.some.inj noted).symm
        · exact looped.settled other otherMember entry noted
      · intro id noted
        rw [get_set]
        split
        · rfl
        · exact looped.grows.kept id noted
      · intro id inside
        rw [get_set_of_ne]
        · exact looped.grows.frame id (List.mem_cons_of_mem _ inside)
        · rintro rfl
          exact fresh inside
      · rw [get_set_self]
        rfl

end

variable {tasks done front : List TaskLike} {task other : TaskLike} {meaning : TaskLike → Longest}
  {search : Search} {fuel : Nat} {chain : List TaskLike}

theorem NeedsChain.length_le (linked : NeedsChain tasks chain)
    (acyclic : NoLongCycle tasks) : chain.length ≤ tasks.length := by
  have related : chain.IsChain (Relation.TransGen (Needs tasks)) :=
    linked.linked.imp fun _ _ => .single
  have nodup : chain.Nodup := by
    refine (List.isChain_iff_pairwise.mp related).imp ?_
    rintro first second leads rfl
    exact acyclic first leads
  exact (nodup.subperm linked.known).length_le

theorem NeedsChain.snoc (linked : NeedsChain tasks (front ++ [task]))
    (needs : Needs tasks task other) : NeedsChain tasks (front ++ [task] ++ [other]) where
  known := List.forall_mem_append.mpr ⟨linked.known, List.forall_mem_singleton.mpr needs.1.2.1⟩
  linked := by
    refine List.isChain_append.mpr ⟨linked.linked, List.IsChain.singleton _, ?_⟩
    intro first isLast second isHead
    rw [List.getLast?_concat, Option.mem_some_iff] at isLast
    rw [List.head?_cons, Option.mem_some_iff] at isHead
    rwa [← isLast, ← isHead]

/-- A memo notes the longest chains from all tasks. -/
def Complete (tasks : List TaskLike) (meaning : TaskLike → Longest) (memo : Memo) : Prop :=
  ∀ task ∈ tasks, memo.get task.id = some (meaning task)

/-- The successors that are noted lead along a chain that weighs what is noted. -/
theorem exists_follow (distinct : (tasks.map TaskLike.id).Nodup) (acyclic : NoLongCycle tasks)
    (means : Means tasks meaning) (walked : NeedsChain tasks (front ++ [task]))
    (enough : tasks.length ≤ fuel + front.length) : ∃ rest, NeedsChain tasks (task :: rest) ∧
      chainWeight (task :: rest) = (meaning task).weight ∧ ∀ memo, Complete tasks meaning memo →
        follow memo fuel (some task.id) = some ((task :: rest).map TaskLike.id) := by
  induction fuel generalizing front task with
  | zero =>
    have bounded := walked.length_le acyclic
    rw [List.length_append, List.length_singleton] at bounded
    omega
  | succ fuel ih =>
    have member : task ∈ tasks := walked.known task (by simp)
    have value := means.step task member
    have best := means.best distinct task task.dependencyIds
    cases next : (meaning task).next with
    | none =>
      refine ⟨[], ⟨List.forall_mem_singleton.mpr member, .singleton _⟩, ?_, fun memo complete => ?_⟩
      · rw [value] at next ⊢
        rw [best.final next]
        rfl
      · rw [follow, complete task member, Option.bind_some, next, follow]
        rfl
    | some id =>
      have isNext := next
      rw [value] at isNext
      obtain ⟨inside, weight, some?⟩ := best.successor id isNext
      rcases seen_cases distinct member inside meaning with none | ⟨other, needs, rfl, same⟩
      · exact absurd none some?
      · obtain ⟨rest, linked, sum, followed⟩ := ih (walked.snoc needs) (by
          rw [List.length_append, List.length_singleton]
          omega)
        refine ⟨other :: rest, ⟨List.forall_mem_cons.mpr ⟨member, linked.known⟩,
          List.isChain_cons_cons.mpr ⟨needs, linked.linked⟩⟩, ?_, fun memo complete => ?_⟩
        · rw [value, ← weight, same, ← sum]
          rfl
        · rw [follow, complete task member, Option.bind_some, next, followed memo complete]
          rfl

/-- The chain that is followed from each task. -/
def Paths (tasks : List TaskLike) (meaning : TaskLike → Longest) (path : TaskLike → List TaskLike) :
    Prop :=
  ∀ task ∈ tasks, (∃ rest, path task = task :: rest) ∧ NeedsChain tasks (path task) ∧
    chainWeight (path task) = (meaning task).weight ∧
    ∀ memo, Complete tasks meaning memo →
      follow memo tasks.length (some task.id) = some ((path task).map TaskLike.id)

theorem exists_paths (distinct : (tasks.map TaskLike.id).Nodup) (acyclic : NoLongCycle tasks)
    (means : Means tasks meaning) : ∃ path, Paths tasks meaning path := by
  have each (task : TaskLike) : ∃ path, task ∈ tasks → (∃ rest, path = task :: rest) ∧
      NeedsChain tasks path ∧ chainWeight path = (meaning task).weight ∧
      ∀ memo, Complete tasks meaning memo →
        follow memo tasks.length (some task.id) = some (path.map TaskLike.id) := by
    by_cases member : task ∈ tasks
    · have single : NeedsChain tasks ([] ++ [task]) :=
        ⟨List.forall_mem_singleton.mpr member, .singleton _⟩
      obtain ⟨rest, linked, sum, followed⟩ :=
        exists_follow distinct acyclic means single (Nat.le_refl tasks.length)
      exact ⟨task :: rest, fun _ => ⟨⟨rest, rfl⟩, linked, sum, followed⟩⟩
    · exact ⟨[], fun inside => absurd inside member⟩
  exact ⟨fun task => (each task).choose, fun task => (each task).choose_spec⟩

/-- No chain weighs more than those from a task. -/
def Greatest (tasks : List TaskLike) (meaning : TaskLike → Longest) (task : TaskLike) : Prop :=
  task ∈ tasks ∧ ∀ other ∈ tasks, (meaning other).weight.le (meaning task).weight = true

theorem Greatest.chainWeight_le (greatest : Greatest tasks meaning task)
    (distinct : (tasks.map TaskLike.id).Nodup) (means : Means tasks meaning)
    (linked : NeedsChain tasks chain) : (chainWeight chain).le (meaning task).weight := by
  have nonneg := means.nonneg task greatest.1
  cases chain with
  | nil => exact zero_le nonneg
  | cons first =>
    have member := linked.known first List.mem_cons_self
    exact (chainWeight_nonneg _).le_trans (means.nonneg first member) nonneg
      (means.chainWeight_le distinct linked) (greatest.2 first member)

/-- What the loop over tasks has found after some of them. -/
structure Considered (tasks : List TaskLike) (meaning : TaskLike → Longest) (done : List TaskLike)
    (search : Search) : Prop where
  known : ∀ task ∈ done, task ∈ tasks
  settled : Settled tasks meaning search.memo
  noted : ∀ task ∈ done, (search.memo.get task.id).isSome
  start : search.bestId = none ↔ done = []
  weight : done = [] → search.bestWeight = .ofInt (-1)
  best : ∀ id, search.bestId = some id →
    ∃ task ∈ tasks, task.id = id ∧ (meaning task).weight = search.bestWeight
  bounds : ∀ task ∈ done, (meaning task).weight.le search.bestWeight = true
  first : ∀ first rest, done = first :: rest → Greatest tasks meaning first →
    search.bestId = some first.id

theorem neg_one_lt {number : Binary64} (nonneg : number.Nonneg) :
    (ofInt (-1)).lt number := by
  rw [ofInt_of_safe (by decide)]
  cases number with
  | finite value =>
    have negative : (((-1 : ℤ) : ℚ)) < value := lt_of_lt_of_le (by norm_num) nonneg
    exact decide_eq_true negative
  | infinite =>
    obtain rfl := nonneg
    rfl
  | nan => exact absurd nonneg not_false

theorem Considered.next (considered : Considered tasks meaning done search)
    (distinct : (tasks.map TaskLike.id).Nodup) (acyclic : NoLongCycle tasks)
    (means : Means tasks meaning) (member : task ∈ tasks) :
    ∃ next, consider (indexById tasks) (tasks.length + 1) search task = some next ∧
      Considered tasks meaning (done ++ [task]) next := by
  obtain ⟨later, found, settled, grows, own⟩ := exists_longestFrom distinct acyclic means member
    ⟨.nil, List.forall_mem_nil _⟩ considered.settled (Nat.lt_succ_self tasks.length)
  have nonneg := means.nonneg task member
  have known : ∀ other ∈ done ++ [task], other ∈ tasks :=
    List.forall_mem_append.mpr ⟨considered.known, List.forall_mem_singleton.mpr member⟩
  have noted : ∀ other ∈ done ++ [task], (later.get other.id).isSome :=
    List.forall_mem_append.mpr ⟨fun other before => grows.kept _ (considered.noted other before),
      List.forall_mem_singleton.mpr own⟩
  have bestNonneg (id : String) (isBest : search.bestId = some id) : search.bestWeight.Nonneg := by
    obtain ⟨best, bestMember, -, weight⟩ := considered.best id isBest
    exact weight ▸ means.nonneg best bestMember
  refine ⟨_, by rw [consider, found]; rfl, ?_⟩
  split
  · next less =>
      refine ⟨known, settled, noted, by simp, by simp, ?_, ?_, ?_⟩
      · rintro id isBest
        cases isBest
        exact ⟨task, member, rfl, rfl⟩
      · refine List.forall_mem_append.mpr ⟨fun other before => ?_,
          List.forall_mem_singleton.mpr nonneg.le_refl⟩
        cases best? : search.bestId with
        | none =>
          rw [considered.start.mp best?] at before
          cases before
        | some id =>
          exact (means.nonneg other (considered.known other before)).le_trans (bestNonneg id best?) nonneg
            (considered.bounds other before) (le_of_lt less)
      · intro first rest isDone greatest
        cases done with
        | nil => rw [(List.cons.inj isDone).1]
        | cons head before =>
          obtain ⟨rfl, -⟩ := List.cons.inj isDone
          obtain ⟨best, bestMember, same, weight⟩ :=
            considered.best _ (considered.first head before rfl greatest)
          obtain rfl := List.inj_on_of_nodup_map distinct bestMember greatest.1 same
          rw [← weight] at less
          exact absurd less (not_lt_of_le nonneg (greatest.2 task member))
  · next notLess =>
      have some? : search.bestId ≠ none := by
        intro none?
        rw [considered.weight (considered.start.mp none?)] at notLess
        exact notLess (neg_one_lt nonneg)
      obtain ⟨id, isBest⟩ := Option.ne_none_iff_exists'.mp some?
      refine ⟨known, settled, noted, by simp [some?], by simp, considered.best, ?_, ?_⟩
      · exact List.forall_mem_append.mpr ⟨considered.bounds,
          List.forall_mem_singleton.mpr ((bestNonneg id isBest).le_of_not_lt nonneg notLess)⟩
      · intro first rest isDone greatest
        cases done with
        | nil => exact absurd (considered.start.mpr rfl) some?
        | cons head before =>
          obtain ⟨rfl, -⟩ := List.cons.inj isDone
          exact considered.first head before rfl greatest

/-- The critical path starts at a task with the greatest chains, and at the
first task if it is one. -/
theorem calculateCriticalPath_eq (distinct : (tasks.map TaskLike.id).Nodup)
    (acyclic : NoLongCycle tasks) (means : Means tasks meaning)
    {path : TaskLike → List TaskLike} (paths : Paths tasks meaning path) (nonempty : tasks ≠ []) :
    ∃ task, Greatest tasks meaning task ∧
      (∀ first rest, tasks = first :: rest → Greatest tasks meaning first → task = first) ∧
      calculateCriticalPath tasks = some ⟨(path task).map TaskLike.id, (meaning task).weight,
        (path task).map TaskLike.id⟩ := by
  have start : Considered tasks meaning [] ⟨none, .ofInt (-1), .empty⟩ := by
    refine ⟨List.forall_mem_nil _, ?_, List.forall_mem_nil _, by simp, fun _ => rfl,
      (fun _ impossible => nomatch impossible), List.forall_mem_nil _,
      (fun _ _ impossible => nomatch impossible)⟩
    intro task _ entry found
    cases found
  obtain ⟨search, folded, considered⟩ := exists_foldlM (Considered tasks meaning) start
    fun done task search inside before => before.next distinct acyclic means inside
  obtain ⟨id, isBest⟩ := Option.ne_none_iff_exists'.mp (mt considered.start.mp nonempty)
  obtain ⟨task, member, rfl, weight⟩ := considered.best id isBest
  have greatest : Greatest tasks meaning task := ⟨member, weight ▸ considered.bounds⟩
  refine ⟨task, greatest, fun first rest isTasks firstGreatest => ?_, ?_⟩
  · have same :=
    Option.some.inj (isBest.symm.trans (considered.first first rest isTasks firstGreatest))
    exact List.inj_on_of_nodup_map distinct member firstGreatest.1 same
  · have complete : Complete tasks meaning search.memo := by
      intro other inside
      obtain ⟨entry, noted⟩ := Option.isSome_iff_exists.mp (considered.noted other inside)
      rw [noted, considered.settled other inside entry noted]
    obtain ⟨-, -, -, followed⟩ := paths task member
    unfold calculateCriticalPath
    dsimp only
    rw [folded]
    simp [isBest, followed search.memo complete, weight]

/-- For tasks with distinct identifiers and no cycle the path is a chain of
dependencies, its weights sum to the total weight, and no chain weighs more. -/
theorem calculateCriticalPath_optimal (distinct : (tasks.map TaskLike.id).Nodup)
    (acyclic : Acyclic tasks) : ∃ result chain, calculateCriticalPath tasks = some result ∧
      result.criticalTaskIds = result.path ∧
      DependencyChain tasks chain ∧ chain.map TaskLike.id = result.path ∧
      chainWeight chain = result.totalWeight ∧ ∀ other, DependencyChain tasks other →
        (chainWeight other).le result.totalWeight := by
  obtain ⟨meaning, means⟩ := exists_meaning distinct acyclic.noLongCycle
  obtain ⟨path, paths⟩ := exists_paths distinct acyclic.noLongCycle means
  cases tasks with
  | nil =>
    refine ⟨⟨[], .ofInt 0, []⟩, [], rfl, rfl, ⟨List.forall_mem_nil _, .nil⟩, rfl, rfl, ?_⟩
    intro other linked
    obtain rfl := List.eq_nil_iff_forall_not_mem.mpr fun task inside =>
      List.not_mem_nil (linked.known task inside)
    exact (nonneg_ofNat 0).le_refl
  | cons first rest =>
    obtain ⟨task, greatest, -, result⟩ :=
      calculateCriticalPath_eq distinct acyclic.noLongCycle means
      paths (List.cons_ne_nil first rest)
    obtain ⟨-, linked, sum, -⟩ := paths task greatest.1
    refine ⟨_, path task, result, rfl, (needsChain_iff acyclic).mp linked, rfl, sum, ?_⟩
    exact fun other linked => greatest.chainWeight_le distinct means ((needsChain_iff acyclic).mpr linked)

def twoTasks : List TaskLike :=
  [⟨"ship", none, some (.ofInt 3), some ["build", "unknown"]⟩, ⟨"build", some (.ofInt 5), none, none⟩]

theorem acyclic_twoTasks : Acyclic twoTasks := by
  refine acyclic_of_rank (fun task => if task.id = "ship" then 1 else 0) ?_
  rintro task other ⟨member, otherMember, depends⟩
  simp only [twoTasks, List.mem_cons, List.not_mem_nil, or_false] at member otherMember
  rcases member with rfl | rfl
  · rcases otherMember with rfl | rfl
    · exact absurd depends (by decide)
    · decide
  · exact absurd depends (by simp [TaskLike.dependencyIds])

theorem calculateCriticalPath_optimal_twoTasks :
    ∃ result chain, calculateCriticalPath twoTasks = some result ∧
      result.criticalTaskIds = result.path ∧
      DependencyChain twoTasks chain ∧ chain.map TaskLike.id = result.path ∧
      chainWeight chain = result.totalWeight ∧ ∀ other, DependencyChain twoTasks other →
        (chainWeight other).le result.totalWeight :=
  calculateCriticalPath_optimal (by decide) acyclic_twoTasks

end P2PHub.Tasks
