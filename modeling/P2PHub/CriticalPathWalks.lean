import P2PHub.CriticalPath

/-!
# The critical path of any tasks

On cyclic, dangling and doubled data too the memoized search ends, and the
successors it notes lead to tasks that were finished before.
-/

namespace P2PHub.Tasks

open Binary64 OrderedMap

section

variable {tasks : List TaskLike} {id : String}

theorem mem_ids_iff : ((indexById tasks).get id).isSome ↔ id ∈ tasks.map TaskLike.id := by
  induction tasks using List.reverseRecOn with
  | nil => simp [indexById, get_empty]
  | append_singleton tasks last ih =>
    rw [indexById_snoc, get_set, List.map_append, List.mem_append, ← ih]
    split
    · next same => simp [same]
    · next other => simpa using fun same => absurd same other

end

variable {tasks : List TaskLike} {memo later : Memo} {inStack : List String} {id : String}
  {fuel : Nat}

/-- Each entry is that of a task, and its successor was noted before it. -/
structure Noted (tasks : List TaskLike) (memo : Memo) (rank : String → Nat) : Prop where
  known : ∀ id, (memo.get id).isSome → id ∈ tasks.map TaskLike.id
  nonneg : ∀ id entry, memo.get id = some entry → entry.weight.Nonneg
  descends : ∀ id entry next, memo.get id = some entry → entry.next = some next →
    (memo.get next).isSome ∧ rank next < rank id

/-- The search keeps what the memo notes, and notes no task of an open call. -/
structure Extends (inStack : List String) (memo later : Memo) : Prop where
  kept : ∀ id, (memo.get id).isSome → (later.get id).isSome
  fresh : ∀ id ∈ inStack, memo.get id = none → later.get id = none

theorem Extends.refl : Extends inStack memo memo :=
  ⟨fun _ noted => noted, fun _ _ fresh => fresh⟩

theorem Extends.trans {last : Memo} (first : Extends inStack memo later)
    (second : Extends inStack later last) : Extends inStack memo last :=
  ⟨fun id noted => second.kept id (first.kept id noted),
    fun id member fresh => second.fresh id member (first.fresh id member fresh)⟩

/-- What a call leaves: the value of its id is noted, or its task is open and
counts for nothing. -/
structure Found (tasks : List TaskLike) (inStack : List String) (memo : Memo) (id : String)
    (result : Longest) (later : Memo) : Prop where
  noted : ∃ rank, Noted tasks later rank
  extended : Extends inStack memo later
  nonneg : result.weight.Nonneg
  valued : (later.get id).isSome ∨ id ∈ inStack ∧ result.weight = ofInt 0

/-- The best successor so far is noted. -/
structure Improved (tasks : List TaskLike) (inStack : List String) (memo : Memo)
    (state : Longest × Memo) : Prop where
  noted : ∃ rank, Noted tasks state.2 rank
  extended : Extends inStack memo state.2
  nonneg : state.1.weight.Nonneg
  best : ∀ next, state.1.next = some next → (state.2.get next).isSome

theorem Improved.next {state : Longest × Memo} {depId : String} {sub : Longest}
    (improved : Improved tasks inStack memo state)
    (found : Found tasks inStack state.2 depId sub later) :
    Improved tasks inStack memo
      (if state.1.weight.lt sub.weight then ⟨sub.weight, some depId⟩ else state.1, later) where
  noted := found.noted
  extended := improved.extended.trans found.extended
  nonneg := by
    split
    · exact found.nonneg
    · exact improved.nonneg
  best := by
    intro next
    split
    · next better =>
      rintro ⟨rfl⟩
      refine found.valued.resolve_right fun opened => ?_
      rw [opened.2] at better
      exact not_lt_of_le (nonneg_ofNat 0) (zero_le improved.nonneg) better
    · exact fun same => found.extended.kept next (improved.best next same)

/-- The result of a loop is noted after all that it leads to. -/
theorem Noted.set {rank : String → Nat} {entry : Longest} (noted : Noted tasks memo rank)
    (fresh : memo.get id = none) (known : id ∈ tasks.map TaskLike.id)
    (nonneg : entry.weight.Nonneg)
    (leads : ∀ next, entry.next = some next → (memo.get next).isSome) :
    ∃ rank, Noted tasks (memo.set id entry) rank := by
  have apart {other : String} (present : (memo.get other).isSome) : other ≠ id := by
    rintro rfl
    simp [fresh] at present
  refine ⟨Function.update rank id ((entry.next.elim 0 rank) + 1), ?_, ?_, ?_⟩
  · intro other present
    by_cases same : other = id
    · exact same ▸ known
    · rw [get_set_of_ne _ _ same] at present
      exact noted.known other present
  · intro other found get
    by_cases same : id = other
    · simp only [get_set, same, if_true, Option.some.injEq] at get
      exact get ▸ nonneg
    · rw [get_set_of_ne _ _ (Ne.symm same)] at get
      exact noted.nonneg other found get
  · intro other found next get successor
    by_cases same : id = other
    · subst same
      simp only [get_set_self, Option.some.injEq] at get
      subst get
      have present := leads next successor
      rw [get_set_of_ne _ _ (apart present), Function.update_self,
        Function.update_of_ne (apart present), successor]
      exact ⟨present, Nat.lt_succ_self _⟩
    · rw [get_set_of_ne _ _ (Ne.symm same)] at get
      obtain ⟨present, below⟩ := noted.descends other found next get successor
      rw [get_set_of_ne _ _ (apart present), Function.update_of_ne (apart present),
        Function.update_of_ne (Ne.symm same)]
      exact ⟨present, below⟩

/-- The search ends: the open tasks are different, and there is fuel for one
more than there are tasks. -/
theorem exists_found (fuel : Nat) {rank : String → Nat} (noted : Noted tasks memo rank)
    (distinct : inStack.Nodup) (stacked : ∀ id ∈ inStack, id ∈ tasks.map TaskLike.id)
    (known : id ∈ tasks.map TaskLike.id) (enough : tasks.length < inStack.length + fuel) :
    ∃ result later, longestFrom (indexById tasks) fuel inStack memo id = some (result, later) ∧
      Found tasks inStack memo id result later := by
  induction fuel generalizing inStack memo id rank with
  | zero =>
    have few := (List.subperm_of_subset distinct stacked).length_le
    rw [List.length_map] at few
    omega
  | succ fuel ih =>
    obtain ⟨task, taskEq⟩ := Option.isSome_iff_exists.mp (mem_ids_iff.mpr known)
    cases get : memo.get id with
    | some cached =>
      exact ⟨cached, memo, by simp [longestFrom, get], ⟨rank, noted⟩, .refl,
        noted.nonneg id cached get, .inl (by simp [get])⟩
    | none =>
      by_cases opened : id ∈ inStack
      · exact ⟨⟨ofInt 0, none⟩, memo, by simp [longestFrom, get, taskEq, opened], ⟨rank, noted⟩,
          .refl, nonneg_ofNat 0, .inr ⟨opened, rfl⟩⟩
      · have round (done : List String) (depId : String) (state : Longest × Memo)
            (_ : depId ∈ task.dependencyIds)
            (improved : Improved tasks (id :: inStack) memo state) :
            ∃ next, improve (indexById tasks) (longestFrom (indexById tasks) fuel (id :: inStack))
              state depId = some next ∧ Improved tasks (id :: inStack) memo next := by
          by_cases indexed : ((indexById tasks).get depId).isSome
          · obtain ⟨_, stateNoted⟩ := improved.noted
            obtain ⟨sub, later, called, found⟩ := ih stateNoted (distinct.cons opened)
              (List.forall_mem_cons.mpr ⟨known, stacked⟩) (mem_ids_iff.mp indexed)
              (by simp only [List.length_cons]; omega)
            exact ⟨_, by simp [improve, indexed, called], improved.next found⟩
          · exact ⟨state, by simp [improve, indexed], improved⟩
        have start : Improved tasks (id :: inStack) memo (⟨ofInt 0, none⟩, memo) :=
          ⟨⟨rank, noted⟩, .refl, nonneg_ofNat 0, by simp⟩
        obtain ⟨⟨best, later⟩, folded, improved⟩ := exists_foldlM
          (fun _ => Improved tasks (id :: inStack) memo) start round
        obtain ⟨_, laterNoted⟩ := improved.noted
        have fresh := improved.extended.fresh id List.mem_cons_self get
        have sum : ((weightOf task).add best.weight).Nonneg :=
          (weightOf_nonneg task).add improved.nonneg
        let entry : Longest := ⟨(weightOf task).add best.weight, best.next⟩
        refine ⟨entry, later.set id entry, by simp [longestFrom, get, taskEq, opened, folded, entry],
          laterNoted.set fresh known (show entry.weight.Nonneg from sum) improved.best, ⟨?_, ?_⟩, sum,
          .inl (by simp)⟩
        · intro other present
          by_cases same : id = other
          · simp [same]
          · rw [get_set_of_ne _ _ (Ne.symm same)]
            exact improved.extended.kept other present
        · intro other member absent
          rw [get_set_of_ne _ _ (ne_of_mem_of_not_mem member opened)]
          exact improved.extended.fresh other (List.mem_cons_of_mem _ member) absent

/-- The walk ends: each step goes to a task of lower rank, one not met before. -/
theorem exists_follow_nodup {rank : String → Nat} (noted : Noted tasks memo rank) (fuel : Nat)
    (visited : List String) (cursor : Option String) (distinct : visited.Nodup)
    (inside : ∀ id ∈ visited, id ∈ tasks.map TaskLike.id)
    (ahead : ∀ id ∈ cursor, (memo.get id).isSome ∧ ∀ other ∈ visited, rank id < rank other)
    (enough : tasks.length ≤ visited.length + fuel) :
    ∃ path, follow memo fuel cursor = some path ∧ (path.reverse ++ visited).Nodup ∧
      ∀ id ∈ path, id ∈ tasks.map TaskLike.id := by
  induction fuel generalizing visited cursor with
  | zero =>
    cases cursor with
    | none => exact ⟨[], by simp [follow], by simpa using distinct, by simp⟩
    | some id =>
      obtain ⟨present, below⟩ := ahead id rfl
      have fresh : id ∉ visited := fun member => lt_irrefl _ (below id member)
      have few := (List.subperm_of_subset (distinct.cons fresh)
        (List.forall_mem_cons.mpr ⟨noted.known id present, inside⟩)).length_le
      simp only [List.length_cons, List.length_map] at few
      omega
  | succ fuel ih =>
    cases cursor with
    | none => exact ⟨[], by simp [follow], by simpa using distinct, by simp⟩
    | some id =>
      obtain ⟨present, below⟩ := ahead id rfl
      have known := noted.known id present
      have fresh : id ∉ visited := fun member => lt_irrefl _ (below id member)
      obtain ⟨path, followed, nodup, listed⟩ := ih (id :: visited)
        ((memo.get id).bind Longest.next) (distinct.cons fresh)
        (List.forall_mem_cons.mpr ⟨known, inside⟩) (by
          intro next successor
          obtain ⟨entry, get, entryNext⟩ := Option.bind_eq_some_iff.mp successor
          obtain ⟨nextPresent, lower⟩ := noted.descends id entry next get entryNext
          exact ⟨nextPresent, List.forall_mem_cons.mpr
            ⟨lower, fun other member => lower.trans (below other member)⟩⟩)
        (by simp only [List.length_cons]; omega)
      exact ⟨id :: path, by simp [follow, followed], by simpa using nodup,
        List.forall_mem_cons.mpr ⟨known, listed⟩⟩

/-- The best task so far is noted. -/
structure Chosen (tasks : List TaskLike) (search : Search) : Prop where
  noted : ∃ rank, Noted tasks search.memo rank
  best : ∀ id ∈ search.bestId, (search.memo.get id).isSome

/-- Whatever the tasks, cyclic, dangling, doubled or naming themselves, the
critical path is found, and it lists ids of tasks, none of them twice. -/
theorem calculateCriticalPath_total (tasks : List TaskLike) :
    ∃ result, calculateCriticalPath tasks = some result ∧ result.path.Nodup ∧
      ∀ id ∈ result.path, id ∈ tasks.map TaskLike.id := by
  have round (done : List TaskLike) (task : TaskLike) (search : Search) (member : task ∈ tasks)
      (chosen : Chosen tasks search) :
      ∃ next, consider (indexById tasks) (tasks.length + 1) search task = some next ∧
        Chosen tasks next := by
    obtain ⟨_, noted⟩ := chosen.noted
    obtain ⟨candidate, later, called, found⟩ := exists_found (tasks.length + 1) noted
      List.nodup_nil (by simp) (List.mem_map_of_mem member) (by simp)
    have kept (id : String) (best : id ∈ search.bestId) : (later.get id).isSome :=
      found.extended.kept id (chosen.best id best)
    refine ⟨_, by rw [consider, called]; rfl, ?_⟩
    split
    · next better =>
      refine ⟨found.noted, ?_⟩
      rintro id ⟨rfl⟩
      exact found.valued.resolve_right fun opened => absurd opened.1 List.not_mem_nil
    · exact ⟨found.noted, kept⟩
  have start : Chosen tasks ⟨none, ofInt (-1), .empty⟩ :=
    ⟨⟨fun _ => 0, by simp [get_empty], by simp [get_empty], by simp [get_empty]⟩, by simp⟩
  obtain ⟨search, folded, chosen⟩ := exists_foldlM (fun _ => Chosen tasks) start round
  obtain ⟨_, noted⟩ := chosen.noted
  cases best : search.bestId with
  | none => exact ⟨⟨[], ofInt 0, []⟩, by simp [calculateCriticalPath, folded, best],
      List.nodup_nil, by simp⟩
  | some bestId =>
    obtain ⟨path, followed, nodup, listed⟩ := exists_follow_nodup noted tasks.length []
      (some bestId) List.nodup_nil (by simp)
      (fun id same => ⟨chosen.best id (best ▸ same), by simp⟩) (by simp)
    rw [List.append_nil, List.nodup_reverse] at nodup
    exact ⟨⟨path, search.bestWeight, path⟩,
      by simp [calculateCriticalPath, folded, best, followed], nodup, listed⟩

end P2PHub.Tasks
