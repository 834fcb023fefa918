import Mathlib.Data.Set.Finite.List

/-!
# Programs that look values up

A program that looks values up by their keys can be run against a table of
values, or played against anything that answers its lookups one after the
other.  Rules that define the value of a key by such a program are evaluated by
a depth-first search that remembers what it has found and marks the keys that
it meets again.  Where a table solves the rules, the search returns its values.
-/

namespace P2PHub

/-- A program that looks values up.  It may also be stuck in a loop. -/
inductive Lookup (Key Value Result : Type)
  | done (result : Result)
  | read (key : Key) (next : Value → Lookup Key Value Result)
  | stuck

namespace Lookup

variable {Key OtherKey Value First Result State : Type}

def bind (program : Lookup Key Value First) (next : First → Lookup Key Value Result) :
    Lookup Key Value Result :=
  match program with
  | done result => next result
  | read key rest => read key fun value => (rest value).bind next
  | stuck => stuck

instance : Monad (Lookup Key Value) where
  pure := done
  bind := bind

def look (key : Key) : Lookup Key Value Value :=
  read key done

def ofOption (result : Option Result) : Lookup Key Value Result :=
  match result with
  | some result => done result
  | none => stuck

def rename (change : Key → OtherKey) : Lookup Key Value Result → Lookup OtherKey Value Result
  | done result => done result
  | read key next => read (change key) fun value => (next value).rename change
  | stuck => stuck

def run (values : Key → Value) : Lookup Key Value Result → Option Result
  | done result => some result
  | read key next => (next (values key)).run values
  | stuck => none

def reads (values : Key → Value) : Lookup Key Value Result → List Key
  | done _ => []
  | read key next => key :: (next (values key)).reads values
  | stuck => []

theorem run_bind (program : Lookup Key Value First) (next : First → Lookup Key Value Result)
    (values : Key → Value) : (program >>= next).run values =
    (program.run values).bind fun first => (next first).run values := by
  induction program with
  | done | stuck => rfl
  | read key rest ih => exact ih (values key)

theorem run_rename (change : Key → OtherKey) (program : Lookup Key Value Result)
    (values : OtherKey → Value) :
    (program.rename change).run values = program.run fun key => values (change key) := by
  induction program with
  | done | stuck => rfl
  | read key next ih => exact ih (values (change key))

theorem run_congr (program : Lookup Key Value Result) (values others : Key → Value)
    (same : ∀ key ∈ program.reads values, values key = others key) :
    program.run values = program.run others := by
  induction program with
  | done | stuck => rfl
  | read key next ih =>
    obtain ⟨head, rest⟩ := List.forall_mem_cons.mp same
    rw [run, run, ← head]
    exact ih (values key) rest

section

/-- Play against something that answers each lookup and changes its state. -/
def play (answer : Key → State → Option (Value × State)) :
    Lookup Key Value Result → State → Option (Result × State)
  | done result, state => some (result, state)
  | read key next, state =>
    (answer key state).bind fun answered => (next answered.1).play answer answered.2
  | stuck, _ => none

/-- Every key that the program may look up satisfies a predicate, and the
program is never stuck. -/
def Within (keys : Key → Prop) : Lookup Key Value Result → Prop
  | done _ => True
  | read key next => keys key ∧ ∀ value, (next value).Within keys
  | stuck => False

variable {keys : Key → Prop}

variable {program : Lookup Key Value Result}

theorem Within.bind {program : Lookup Key Value First} {next : First → Lookup Key Value Result}
    (first : program.Within keys) (rest : ∀ result, (next result).Within keys) :
    (program >>= next).Within keys := by
  induction program with
  | done result => exact rest result
  | read key more ih => exact ⟨first.1, fun value => ih value (first.2 value)⟩
  | stuck => cases first

theorem Within.mono {otherKeys : Key → Prop}
    (within : program.Within keys) (more : ∀ key, keys key → otherKeys key) :
    program.Within otherKeys := by
  induction program with
  | done => trivial
  | read key next ih => exact ⟨more key within.1, fun value => ih value (within.2 value)⟩
  | stuck => cases within

theorem Within.rename {change : Key → OtherKey}
    {otherKeys : OtherKey → Prop} (within : program.Within fun key => otherKeys (change key)) :
    (program.rename change).Within otherKeys := by
  induction program with
  | done => trivial
  | read key next ih => exact ⟨within.1, fun value => ih value (within.2 value)⟩
  | stuck => cases within

theorem Within.reads (within : program.Within keys)
    (values : Key → Value) : ∀ key ∈ program.reads values, keys key := by
  induction program with
  | done => exact nofun
  | read key next ih => exact List.forall_mem_cons.mpr ⟨within.1, ih _ (within.2 _)⟩
  | stuck => cases within

theorem Within.run (within : program.Within keys)
    (values : Key → Value) : ∃ result, program.run values = some result := by
  induction program with
  | done result => exact ⟨result, rfl⟩
  | read key next ih => exact ih _ (within.2 _)
  | stuck => cases within

end

variable {stop : Result} {program short : Lookup Key Value Result}

/-- The same program, except that it may stop anywhere with a given result. -/
inductive Cut (stop : Result) : Lookup Key Value Result → Lookup Key Value Result → Prop
  | stopped (program : Lookup Key Value Result) : Cut stop program (done stop)
  | finished (result : Result) : Cut stop (done result) (done result)
  | reads {key : Key} {next rest : Value → Lookup Key Value Result}
      (each : ∀ value, Cut stop (next value) (rest value)) :
      Cut stop (read key next) (read key rest)
  | sticks : Cut stop stuck stuck

theorem Cut.refl (stop : Result) (program : Lookup Key Value Result) : Cut stop program program :=
    by
  induction program with
  | done result => exact .finished result
  | read key next ih => exact .reads ih
  | stuck => exact .sticks

theorem Cut.run_ne_none (cut : Cut stop program short) {values : Key → Value}
    (ends : program.run values ≠ none) : short.run values ≠ none := by
  induction cut with
  | stopped => exact Option.some_ne_none stop
  | finished | sticks => exact ends
  | reads each ih => exact ih _ ends

end Lookup

inductive Rule (Key Value : Type)
  | given (value : Value)
  | computed (program : Lookup Key Value Value)

namespace Rule

variable {Key Value : Type}

section

/-- Evaluating the program of a key looks up another key. -/
def Reads (rules : Key → Rule Key Value) (values : Key → Value) (key other : Key) : Prop :=
  ∃ program, rules key = .computed program ∧ other ∈ program.reads values

/-- Values as the rules give them, with a mark for each key that depends on itself. -/
structure Solution (rules : Key → Rule Key Value) (cycle : Value) (values : Key → Value)
  : Prop where
  given : ∀ key value, rules key = .given value → values key = value
  computed : ∀ key program, rules key = .computed program → program.run values = some (values key)
  cyclic : ∀ key, Relation.TransGen (Reads rules values) key key → values key = cycle

variable {rules : Key → Rule Key Value} {refers : Key → Key → Prop} {known : List Key}

/-- The program of a key, one of some known keys, looks up no key but those it
refers to, and is never stuck. -/
structure Referring (rules : Key → Rule Key Value) (refers : Key → Key → Prop) (known : List Key) :
    Prop where
  within : ∀ key program, rules key = .computed program → program.Within (refers key)
  known : ∀ key program, rules key = .computed program → key ∈ known

theorem wellFounded_refers (acyclic : ∀ key, ¬Relation.TransGen refers key key) :
    WellFounded fun other key => key ∈ known ∧ refers key other := by
  have finite : Finite { key // key ∈ known } := List.finite_toSet known
  have irreflexive : Std.Irrefl fun first second : { key // key ∈ known } =>
      Relation.TransGen refers second.1 first.1 :=
    ⟨fun key => acyclic key.1⟩
  have inner := Finite.wellFounded_of_trans_of_irrefl fun first second : { key // key ∈ known } =>
    Relation.TransGen refers second.1 first.1
  have accKnown (key : { key // key ∈ known }) :
      Acc (fun other key => key ∈ known ∧ refers key other) key.1 := by
    induction inner.apply key with
    | intro key _ ih =>
      refine .intro _ fun other step => ?_
      by_cases otherKnown : other ∈ known
      · exact ih ⟨other, otherKnown⟩ (.single step.2)
      · exact .intro _ fun _ next => absurd next.1 otherKnown
  refine ⟨fun key => ?_⟩
  by_cases keyKnown : key ∈ known
  · exact accKnown ⟨key, keyKnown⟩
  · exact .intro _ fun _ next => absurd next.1 keyKnown

open Classical in
/-- The value of a key from those of the keys that it refers to. -/
noncomputable def valueFrom (rules : Key → Rule Key Value) (refers : Key → Key → Prop)
    (known : List Key) (cycle : Value) (key : Key)
    (earlier : ∀ other, key ∈ known ∧ refers key other → Value) : Value :=
  match rules key with
  | .given value => value
  | .computed program =>
    (program.run fun other =>
      if step : key ∈ known ∧ refers key other then earlier other step else cycle).getD cycle

theorem exists_solution (referring : Referring rules refers known)
    (acyclic : ∀ key, ¬Relation.TransGen refers key key) (cycle : Value) :
    ∃ values, Solution rules cycle values := by
  classical
  have wellFounded : WellFounded fun other key => key ∈ known ∧ refers key other :=
    wellFounded_refers acyclic
  let values := wellFounded.fix (valueFrom rules refers known cycle)
  have unfolded (key : Key) :
      values key = valueFrom rules refers known cycle key fun other _ => values other :=
    wellFounded.fix_eq _ key
  refine ⟨values, ?_, ?_, ?_⟩
  · intro key value rule
    rw [unfolded, valueFrom, rule]
  · intro key program rule
    have within := referring.within key program rule
    obtain ⟨result, ran⟩ := within.run values
    let earlier (other : Key) : Value :=
      if key ∈ known ∧ refers key other then values other else cycle
    have sameRun : program.run values = program.run earlier :=
      Lookup.run_congr program values earlier fun other member =>
        (if_pos ⟨referring.known key program rule, within.reads values other member⟩).symm
    rw [unfolded, valueFrom, rule]
    change program.run values = some ((program.run earlier).getD cycle)
    rw [← sameRun, ran]
    rfl
  · intro key around
    have steps : Reads rules values ≤ refers := by
      rintro source target ⟨program, rule, member⟩
      exact (referring.within source program rule).reads values target member
    have refersAround : Relation.TransGen refers key key :=
      Relation.TransGen.mono steps key key around
    exact absurd refersAround (acyclic key)

/-- A value depends on the rules of the keys that its own refers to, directly or
through others. -/
theorem Solution.eq_of_same {others : Key → Rule Key Value} {cycle : Value}
    {values otherValues : Key → Value} (referring : Referring rules refers known)
    (acyclic : ∀ key, ¬Relation.TransGen refers key key) (solution : Solution rules cycle values)
    (otherSolution : Solution others cycle otherValues) (key : Key)
    (same : ∀ other, Relation.ReflTransGen refers key other → others other = rules other) :
    otherValues key = values key := by
  induction key using (@wellFounded_refers Key refers known acyclic).induction with
  | _ key ih =>
    cases rule : rules key with
    | given value =>
      rw [solution.given key value rule, otherSolution.given key value (same key .refl ▸ rule)]
    | computed program =>
      have otherComputed := otherSolution.computed key program (same key .refl ▸ rule)
      have sameRun : program.run values = program.run otherValues := by
        apply Lookup.run_congr
        intro other member
        have step := (referring.within key program rule).reads values other member
        exact (ih other ⟨referring.known key program rule, step⟩ fun last path =>
          same last (.head step path)).symm
      rw [solution.computed key program rule, otherComputed] at sameRun
      exact (Option.some.inj sameRun).symm

end

section

variable [DecidableEq Key]

/-- What a search has found, and the keys whose programs it is running. -/
structure Memory (Key Value : Type) where
  memo : List (Key × Value)
  visiting : List Key

namespace Memory

def start : Memory Key Value :=
  ⟨[], []⟩

def remember (memory : Memory Key Value) (key : Key) (value : Value) : Memory Key Value :=
  { memory with memo := (key, value) :: memory.memo }

def visit (memory : Memory Key Value) (key : Key) : Memory Key Value :=
  { memory with visiting := key :: memory.visiting }

def leave (memory : Memory Key Value) (key : Key) : Memory Key Value :=
  { memory with visiting := memory.visiting.filter (· ≠ key) }

end Memory

variable (rules : Key → Rule Key Value) (cycle : Value)

/-- Search for the value of a key.  A key that is met again while its own
program runs gets the value that marks a cycle. -/
def resolve : Nat → Key → Memory Key Value → Option (Value × Memory Key Value)
  | 0, _, _ => none
  | depth + 1, key, memory =>
    match memory.memo.lookup key with
    | some value => some (value, memory)
    | none =>
      if key ∈ memory.visiting then some (cycle, memory)
      else
        match rules key with
        | .given value => some (value, memory.remember key value)
        | .computed program =>
          (program.play (resolve depth) (memory.visit key)).map fun found =>
            (found.1, (found.2.leave key).remember key found.1)

def Memory.Sound (values : Key → Value) (memory : Memory Key Value) : Prop :=
  ∀ key value, memory.memo.lookup key = some value → values key = value

/-- A memory in which keys may be searched for: what it visits depends on them. -/
structure Memory.Ready (rules : Key → Rule Key Value) (values : Key → Value) (known : List Key)
    (depth : Nat) (keys : Key → Prop) (memory : Memory Key Value) : Prop where
  sound : memory.Sound values
  visited : ∀ key, keys key → ∀ visited ∈ memory.visiting,
    Relation.TransGen (Reads rules values) visited key
  distinct : memory.visiting.Nodup
  inside : memory.visiting ⊆ known
  room : known.length < depth + memory.visiting.length

variable {rules cycle} {Result : Type} {values : Key → Value} {known : List Key} {depth : Nat}
  {key : Key} {keys : Key → Prop} {memory after : Memory Key Value} {value : Value}

theorem Memory.Sound.start : (Memory.start : Memory Key Value).Sound values :=
  nofun

theorem Memory.Sound.remember (sound : memory.Sound values) (valueEq : values key = value) :
    (memory.remember key value).Sound values := by
  intro other found otherEq
  rw [Memory.remember, List.lookup_cons] at otherEq
  by_cases same : other = key
  · subst same
    rw [beq_self_eq_true] at otherEq
    cases otherEq
    exact valueEq
  · rw [beq_false_of_ne same] at otherEq
    exact sound other found otherEq

theorem Memory.Sound.leave (sound : memory.Sound values) : (memory.leave key).Sound values :=
  sound

section

variable (ready : Memory.Ready rules values known depth keys memory)
include ready

theorem Memory.Ready.same (sound : after.Sound values) (same : after.visiting = memory.visiting) :
    Memory.Ready rules values known depth keys after := by
  refine ⟨sound, ?_, ?_, ?_, ?_⟩
  · rw [same]
    exact ready.visited
  · rw [same]
    exact ready.distinct
  · rw [same]
    exact ready.inside
  · rw [same]
    exact ready.room

theorem Memory.Ready.mono {fewer : Key → Prop}
    (less : ∀ key, fewer key → keys key) : Memory.Ready rules values known depth fewer memory :=
  ⟨ready.sound, fun key member => ready.visited key (less key member), ready.distinct, ready.inside,
    ready.room⟩

end

theorem Memory.Ready.idle (sound : memory.Sound values) (idle : memory.visiting = [])
    (room : known.length < depth) : Memory.Ready rules values known depth keys memory := by
  refine ⟨sound, ?_, ?_, ?_, ?_⟩
  · rw [idle]
    exact nofun
  · rw [idle]
    exact List.nodup_nil
  · rw [idle]
    exact List.nil_subset _
  · rw [idle]
    exact room

theorem visiting_leave {middle : Memory Key Value} (notVisiting : key ∉ memory.visiting)
    (same : middle.visiting = (memory.visit key).visiting) :
    (middle.leave key).visiting = memory.visiting := by
  have kept : memory.visiting.filter (· ≠ key) = memory.visiting :=
    List.filter_eq_self.mpr fun visited member =>
      decide_eq_true fun equal => notVisiting (equal ▸ member)
  rw [Memory.leave, same, Memory.visit]
  exact (List.filter_cons_of_neg (by simp)).trans kept

/-- What a search returns: a value, and a memory that is sound and visits what
it visited before. -/
def Found (values : Key → Value) (memory : Memory Key Value)
    (found : Option (Result × Memory Key Value)) (result : Result) : Prop :=
  ∃ after, found = some (result, after) ∧ after.Sound values ∧ after.visiting = memory.visiting

theorem play_found {program : Lookup Key Value Result} {result : Result}
    (searches : ∀ key memory, Memory.Ready rules values known depth (· = key) memory →
      Found values memory (resolve rules cycle depth key memory) (values key))
    (ran : program.run values = some result)
    (ready : Memory.Ready rules values known depth (· ∈ program.reads values) memory) :
    Found values memory (program.play (resolve rules cycle depth) memory) result := by
  induction program generalizing memory with
  | done =>
    cases ran
    exact ⟨memory, rfl, ready.sound, rfl⟩
  | read key next ih =>
    have keyReady : Memory.Ready rules values known depth (· = key) memory :=
      ready.mono fun other same => same ▸ List.mem_cons_self
    obtain ⟨middle, foundEq, sound, same⟩ := searches key memory keyReady
    have restReady := (ready.same sound same).mono fun other => List.mem_cons_of_mem key
    obtain ⟨after, playEq, afterSound, afterSame⟩ := ih (values key) ran restReady
    refine ⟨after, ?_, afterSound, afterSame.trans same⟩
    rw [Lookup.play, foundEq]
    exact playEq
  | stuck => cases ran

theorem resolve_found (solution : Solution rules cycle values)
    (knows : ∀ key program, rules key = .computed program → key ∈ known)
    (ready : Memory.Ready rules values known depth (· = key) memory) :
    Found values memory (resolve rules cycle depth key memory) (values key) := by
  induction depth generalizing key memory with
  | zero =>
    have short := (List.subperm_of_subset ready.distinct ready.inside).length_le
    have room := ready.room
    omega
  | succ depth ih =>
    rw [resolve]
    cases memoEq : memory.memo.lookup key with
    | some value =>
      rw [ready.sound key value memoEq]
      exact ⟨memory, rfl, ready.sound, rfl⟩
    | none =>
      by_cases visiting : key ∈ memory.visiting
      · rw [if_pos visiting, solution.cyclic key (ready.visited key rfl key visiting)]
        exact ⟨memory, rfl, ready.sound, rfl⟩
      · rw [if_neg visiting]
        cases rule : rules key with
        | given value =>
          have valueEq := solution.given key value rule
          rw [valueEq]
          exact ⟨_, rfl, ready.sound.remember valueEq, rfl⟩
        | computed program =>
          have inner : Memory.Ready rules values known depth (· ∈ program.reads values)
              (memory.visit key) := by
            refine ⟨ready.sound, ?_, ?_, ?_, ?_⟩
            · intro next member
              have step : Reads rules values key next := ⟨program, rule, member⟩
              refine List.forall_mem_cons.mpr ⟨.single step, fun visited visitedMember => ?_⟩
              exact (ready.visited key rfl visited visitedMember).tail step
            · exact List.nodup_cons.mpr ⟨visiting, ready.distinct⟩
            · exact List.cons_subset.mpr ⟨knows key program rule, ready.inside⟩
            · have room := ready.room
              rw [Memory.visit, List.length_cons]
              omega
          obtain ⟨middle, playEq, sound, same⟩ :=
            play_found (fun _ _ => ih) (solution.computed key program rule) inner
          have afterSound : ((middle.leave key).remember key (values key)).Sound values :=
            Memory.Sound.remember sound.leave rfl
          refine ⟨_, ?_, afterSound, visiting_leave visiting same⟩
          dsimp only
          rw [playEq]
          rfl

end

variable [DecidableEq Key] {rules : Key → Rule Key Value} {cycle : Value} {Result : Type}
  {known : List Key} {depth : Nat} {key : Key} {memory after : Memory Key Value} {value : Value}
  {program : Lookup Key Value Result} {middle : Memory Key Value}

omit [DecidableEq Key] in
theorem play_visiting {answer : Key → Memory Key Value → Option (Value × Memory Key Value)}
    {result : Result} (answers : ∀ key memory value after, answer key memory = some (value, after) →
      after.visiting = memory.visiting)
    (played : program.play answer memory = some (result, after)) :
    after.visiting = memory.visiting := by
  induction program generalizing memory with
  | done =>
    cases played
    rfl
  | read key next ih =>
    rw [Lookup.play, Option.bind_eq_some_iff] at played
    obtain ⟨⟨value, middle⟩, answered, rest⟩ := played
    exact (ih value rest).trans (answers key memory value middle answered)
  | stuck => cases played

theorem resolve_visiting (found : resolve rules cycle depth key memory = some (value, after)) :
    after.visiting = memory.visiting := by
  induction depth generalizing key memory value after with
  | zero => cases found
  | succ depth ih =>
    rw [resolve] at found
    split at found
    · cases found
      rfl
    · split at found
      · cases found
        rfl
      · next notVisiting =>
          split at found
          · cases found
            rfl
          · rw [Option.map_eq_some_iff] at found
            obtain ⟨⟨result, middle⟩, played, foundEq⟩ := found
            cases foundEq
            have same := play_visiting (fun _ _ _ _ inner => ih inner) played
            exact visiting_leave notVisiting same

def Memory.answer (cycle : Value) (memory : Memory Key Value) (key : Key) : Option Value :=
  match memory.memo.lookup key with
  | some value => some value
  | none => if key ∈ memory.visiting then some cycle else none

def Memory.Clean (memory : Memory Key Value) : Prop :=
  ∀ key ∈ memory.visiting, memory.memo.lookup key = none

/-- There is a search to spare for every known key that is not visited. -/
structure Memory.Room (known : List Key) (depth : Nat) (memory : Memory Key Value) : Prop where
  distinct : memory.visiting.Nodup
  inside : memory.visiting ⊆ known
  room : known.length < depth + memory.visiting.length

/-- A later memory, which still answers what was answered before. -/
structure Memory.Extends (cycle : Value) (memory after : Memory Key Value) : Prop where
  visiting : after.visiting = memory.visiting
  clean : after.Clean
  answers : ∀ key value, memory.answer cycle key = some value → after.answer cycle key = some value

theorem Memory.Extends.refl (clean : memory.Clean) : memory.Extends cycle memory :=
  ⟨rfl, clean, fun _ _ answered => answered⟩

theorem Memory.Extends.trans (first : memory.Extends cycle middle)
    (second : middle.Extends cycle after) : memory.Extends cycle after where
  visiting := second.visiting.trans first.visiting
  clean := second.clean
  answers key value answered := second.answers key value (first.answers key value answered)

omit [DecidableEq Key] in
theorem Memory.Room.same (room : memory.Room known depth)
    (same : after.visiting = memory.visiting) : after.Room known depth where
  distinct := same ▸ room.distinct
  inside := same ▸ room.inside
  room := same ▸ room.room

theorem Memory.answer_remember (memory : Memory Key Value) (key other : Key) (value : Value) :
    (memory.remember key value).answer cycle other =
      if other = key then some value else memory.answer cycle other := by
  unfold Memory.answer Memory.remember
  rw [List.lookup_cons]
  by_cases same : other = key
  · subst same
    simp
  · rw [beq_false_of_ne same, if_neg same]

theorem Memory.answer_eq_none (unknown : memory.memo.lookup key = none)
    (notVisiting : key ∉ memory.visiting) : memory.answer cycle key = none := by
  rw [Memory.answer, unknown, if_neg notVisiting]

theorem Memory.Clean.remember (clean : memory.Clean) (notVisiting : key ∉ memory.visiting) :
    (memory.remember key value).Clean := by
  intro visited member
  have apart : visited ≠ key := fun same => notVisiting (same ▸ member)
  rw [Memory.remember, List.lookup_cons, beq_false_of_ne apart]
  exact clean visited member

theorem Memory.Extends.remember (clean : memory.Clean) (unknown : memory.memo.lookup key = none)
    (notVisiting : key ∉ memory.visiting) : memory.Extends cycle (memory.remember key value) where
  visiting := rfl
  clean := clean.remember notVisiting
  answers other found answered := by
    rw [Memory.answer_remember]
    have apart : other ≠ key := by
      rintro rfl
      rw [Memory.answer_eq_none unknown notVisiting] at answered
      cases answered
    rwa [if_neg apart]

theorem Memory.Extends.leave
    (unknown : memory.memo.lookup key = none) (notVisiting : key ∉ memory.visiting)
    (ran : (memory.visit key).Extends cycle middle) :
    memory.Extends cycle ((middle.leave key).remember key value) := by
  have left : (middle.leave key).visiting = memory.visiting :=
    visiting_leave notVisiting ran.visiting
  refine ⟨left, ?_, fun other found answered => ?_⟩
  · apply Memory.Clean.remember
    · intro visited member
      rw [left] at member
      apply ran.clean visited
      rw [ran.visiting]
      exact List.mem_cons_of_mem key member
    · rwa [left]
  · have apart : other ≠ key := by
      rintro rfl
      rw [Memory.answer_eq_none unknown notVisiting] at answered
      cases answered
    have before : (memory.visit key).answer cycle other = some found := by
      rw [← answered, Memory.answer, Memory.answer]
      simp [Memory.visit, apart]
    have later := ran.answers other found before
    rw [Memory.answer_remember, if_neg apart, ← later, Memory.answer, Memory.answer]
    have sameVisiting : other ∈ (middle.leave key).visiting ↔ other ∈ middle.visiting := by
      rw [left, ran.visiting]
      simp [Memory.visit, apart]
    simp only [sameVisiting]
    rfl

/-- A search that returns, and answers from then on as it did. -/
def Returns (cycle : Value) (memory : Memory Key Value) (key : Key)
    (found : Option (Value × Memory Key Value)) : Prop :=
  ∃ value after, found = some (value, after) ∧ memory.Extends cycle after ∧
    after.answer cycle key = some value

/-- A program that ends on every table which agrees with the memory is played
to its end. -/
theorem play_returns (searches : ∀ key memory, memory.Room known depth → memory.Clean →
      Returns cycle memory key (resolve rules cycle depth key memory))
    (ends : ∀ values, (∀ key value, memory.answer cycle key = some value → values key = value) →
      program.run values ≠ none) (room : memory.Room known depth) (clean : memory.Clean) :
    ∃ result after, program.play (resolve rules cycle depth) memory = some (result, after) ∧
      memory.Extends cycle after := by
  induction program generalizing memory with
  | done result => exact ⟨result, memory, rfl, .refl clean⟩
  | read key next ih =>
    obtain ⟨value, middle, foundEq, extended, known⟩ := searches key memory room clean
    have rest : ∀ values, (∀ key value, middle.answer cycle key = some value →
        values key = value) → (next value).run values ≠ none := by
      intro values agrees
      have whole := ends values fun other found answered =>
        agrees other found (extended.answers other found answered)
      rwa [Lookup.run, agrees key value known] at whole
    obtain ⟨result, after, playEq, later⟩ :=
      ih value rest (room.same extended.visiting) extended.clean
    refine ⟨result, after, ?_, extended.trans later⟩
    rw [Lookup.play, foundEq]
    exact playEq
  | stuck =>
    let values (other : Key) : Value := (memory.answer cycle other).getD cycle
    exact absurd rfl (ends values fun other found answered => by simp [values, answered])

/-- Where no program sticks on any table, every search returns: a nested one
finds its key remembered or visited, or visits one key more. -/
theorem resolve_returns
    (ends : ∀ key program, rules key = .computed program → ∀ values, program.run values ≠ none)
    (knows : ∀ key program, rules key = .computed program → key ∈ known)
    (room : memory.Room known depth) (clean : memory.Clean) :
    Returns cycle memory key (resolve rules cycle depth key memory) := by
  induction depth generalizing key memory with
  | zero =>
    have short := (List.subperm_of_subset room.distinct room.inside).length_le
    have more := room.room
    omega
  | succ depth ih =>
    rw [resolve]
    cases memoEq : memory.memo.lookup key with
    | some value =>
      refine ⟨value, memory, rfl, .refl clean, ?_⟩
      rw [Memory.answer, memoEq]
    | none =>
      by_cases visiting : key ∈ memory.visiting
      · rw [if_pos visiting]
        refine ⟨cycle, memory, rfl, .refl clean, ?_⟩
        rw [Memory.answer, memoEq]
        exact if_pos visiting
      · rw [if_neg visiting]
        cases rule : rules key with
        | given value =>
          refine ⟨value, _, rfl, .remember clean memoEq visiting, ?_⟩
          rw [Memory.answer_remember, if_pos rfl]
        | computed program =>
          have inner : (memory.visit key).Room known depth := by
            refine ⟨List.nodup_cons.mpr ⟨visiting, room.distinct⟩,
              List.cons_subset.mpr ⟨knows key program rule, room.inside⟩, ?_⟩
            have more := room.room
            rw [Memory.visit, List.length_cons]
            omega
          have innerClean : (memory.visit key).Clean := by
            refine List.forall_mem_cons.mpr ⟨memoEq, fun visited member => ?_⟩
            exact clean visited member
          obtain ⟨result, middle, playEq, ran⟩ := play_returns (fun _ _ => ih)
            (fun values _ => ends key program rule values) inner innerClean
          refine ⟨result, (middle.leave key).remember key result, ?_,
            .leave memoEq visiting ran, ?_⟩
          · dsimp only
            rw [playEq]
            rfl
          · rw [Memory.answer_remember, if_pos rfl]

theorem play_stuck {values : Key → Value}
    (given : ∀ key ∈ program.reads values, rules key = .given (values key))
    (sound : memory.Sound values) (idle : memory.visiting = [])
    (sticks : program.run values = none) : program.play (resolve rules cycle depth) memory = none :=
    by
  induction program generalizing memory with
  | done => cases sticks
  | read key next ih =>
    obtain ⟨head, rest⟩ := List.forall_mem_cons.mp given
    rw [Lookup.play, Option.bind_eq_none_iff]
    rintro ⟨value, after⟩ answered
    suffices found : value = values key ∧ after.Sound values ∧ after.visiting = [] by
      obtain ⟨rfl, afterSound, afterIdle⟩ := found
      exact ih _ rest afterSound afterIdle sticks
    cases depth with
    | zero => cases answered
    | succ =>
      rw [resolve] at answered
      cases memoEq : memory.memo.lookup key with
      | some value =>
        rw [memoEq] at answered
        cases answered
        exact ⟨(sound key value memoEq).symm, sound, idle⟩
      | none =>
        rw [memoEq] at answered
        simp only [idle, List.not_mem_nil, if_false, head] at answered
        cases answered
        exact ⟨rfl, sound.remember rfl, idle⟩
  | stuck => rfl

end Rule

end P2PHub
