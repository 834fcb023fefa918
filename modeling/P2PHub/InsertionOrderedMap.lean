import Mathlib.Data.List.Nodup
import Mathlib.Data.List.Pairwise
import Mathlib.Data.List.Perm.Subperm

/-!
# Insertion-ordered maps with live iterators

An ECMAScript `Map` keeps its entries in a list of slots.  Deleting a key
empties its slot, setting a present key overwrites the value in place, and
setting an absent key appends a slot.  An iterator is a position in that list,
so it survives every mutation and meets an entry again exactly when the entry
is deleted and then appended behind the position.
-/

namespace P2PHub

/-- A list of slots whose live slots carry pairwise distinct keys. -/
structure OrderedMap (Key Value : Type*) where
  slots : List (Option (Key × Value))
  distinct : slots.Pairwise fun first second =>
    ∀ earlier ∈ first, ∀ later ∈ second, earlier.1 ≠ later.1

namespace OrderedMap

variable {Key Value : Type*} {map : OrderedMap Key Value} {update : Key → Value → Option Value}
  {key other : Key} {value : Value} {position start : Nat} {accept : Key → Value → Bool}
  {slots : List (Option (Key × Value))}

def empty : OrderedMap Key Value :=
  ⟨[], List.Pairwise.nil⟩

def entries (map : OrderedMap Key Value) : List (Key × Value) :=
  map.slots.filterMap id

def values (map : OrderedMap Key Value) : List Value :=
  map.entries.map Prod.snd

/-- The key in the slot at a position, if that slot is live. -/
def keyAt (map : OrderedMap Key Value) (position : Nat) : Option Key :=
  (map.slots[position]?).join.map Prod.fst

/-- Replace every live value, emptying the slots whose new value is `none`.
Every in-place mutation of a `Map` is an instance of this one. -/
def rewrite (map : OrderedMap Key Value) (update : Key → Value → Option Value) :
    OrderedMap Key Value where
  slots := map.slots.map fun slot =>
    slot.bind fun entry => (update entry.1 entry.2).map (entry.1, ·)
  distinct := by
    refine List.pairwise_map.mpr (map.distinct.imp ?_)
    intro first second apart earlier earlierMem later laterMem
    simp only [Option.mem_def, Option.bind_eq_some_iff, Option.map_eq_some_iff]
      at earlierMem laterMem
    obtain ⟨before, beforeMem, _, _, rfl⟩ := earlierMem
    obtain ⟨after, afterMem, _, _, rfl⟩ := laterMem
    exact apart before beforeMem after afterMem

def deleteWhere (map : OrderedMap Key Value) (test : Key → Value → Bool) : OrderedMap Key Value :=
  map.rewrite fun key value => if test key value then none else some value

def clear (map : OrderedMap Key Value) : OrderedMap Key Value :=
  map.rewrite fun _ _ => none

theorem mem_slots_rewrite : some (key, value) ∈ (map.rewrite update).slots ↔
      ∃ old, some (key, old) ∈ map.slots ∧ update key old = some value := by
  simp only [rewrite, List.mem_map, Option.bind_eq_some_iff, Option.map_eq_some_iff, Prod.mk.injEq]
  constructor
  · rintro ⟨_, slotMem, ⟨_, old⟩, rfl, _, updated, rfl, rfl⟩
    exact ⟨old, slotMem, updated⟩
  · rintro ⟨old, slotMem, updated⟩
    exact ⟨_, slotMem, (key, old), rfl, value, updated, rfl, rfl⟩

theorem position_unique {first second : Nat}
    (atFirst : map.keyAt first = some key) (atSecond : map.keyAt second = some key) :
    first = second := by
  simp only [keyAt, Option.map_eq_some_iff, Option.join_eq_some_iff] at atFirst atSecond
  obtain ⟨⟨_, _⟩, firstSlot, rfl⟩ := atFirst
  obtain ⟨⟨_, _⟩, secondSlot, sameKey⟩ := atSecond
  obtain ⟨firstBound, firstEq⟩ := List.getElem?_eq_some_iff.mp firstSlot
  obtain ⟨secondBound, secondEq⟩ := List.getElem?_eq_some_iff.mp secondSlot
  have apart := List.pairwise_iff_getElem.mp map.distinct
  rcases Nat.lt_trichotomy first second with before | equal | after
  · exact (apart first second firstBound secondBound before _ firstEq _ secondEq sameKey.symm).elim
  · exact equal
  · exact (apart second first secondBound firstBound after _ secondEq _ firstEq sameKey).elim

theorem value_unique {first second : Value} (firstMem : some (key, first) ∈ map.slots)
    (secondMem : some (key, second) ∈ map.slots) : first = second := by
  obtain ⟨firstPosition, firstSlot⟩ := List.mem_iff_getElem?.mp firstMem
  obtain ⟨secondPosition, secondSlot⟩ := List.mem_iff_getElem?.mp secondMem
  have atFirst : map.keyAt firstPosition = some key := by
    simp [keyAt, firstSlot]
  have atSecond : map.keyAt secondPosition = some key := by
    simp [keyAt, secondSlot]
  have samePosition := position_unique atFirst atSecond
  rw [samePosition, secondSlot] at firstSlot
  simpa using firstSlot.symm

theorem keyAt_rewrite_of_eq_some (live : (map.rewrite update).keyAt position = some key) :
    map.keyAt position = some key := by
  simp only [keyAt, rewrite, List.getElem?_map, Option.map_eq_some_iff,
    Option.join_eq_some_iff, Option.bind_eq_some_iff] at live ⊢
  obtain ⟨_, ⟨slot, slotEq, entry, rfl, _, _, rfl⟩, rfl⟩ := live
  exact ⟨entry, slotEq, rfl⟩

/-- Advance an iterator standing at `position` to the first live entry at or
behind it that is accepted; the result is that slot's position and entry. -/
def scan (accept : Key → Value → Bool) :
    List (Option (Key × Value)) → Nat → Option (Nat × Key × Value)
  | [], _ => none
  | none :: slots, position => scan accept slots (position + 1)
  | some entry :: slots, position =>
    if accept entry.1 entry.2 then some (position, entry)
    else scan accept slots (position + 1)

def nextFrom (map : OrderedMap Key Value) (position : Nat) (accept : Key → Value → Bool) :
    Option (Nat × Key × Value) :=
  scan accept (map.slots.drop position) position

private theorem scan_sound (found : scan accept slots start = some (position, key, value)) :
    ∃ offset, position = start + offset ∧ slots[offset]? = some (some (key, value)) ∧
      accept key value := by
  induction slots generalizing start with
  | nil => simp [scan] at found
  | cons slot slots ih =>
    cases slot with
    | none =>
      obtain ⟨offset, positionEq, slotEq, accepted⟩ := ih found
      exact ⟨offset + 1, by omega, by simpa using slotEq, accepted⟩
    | some =>
      rw [scan] at found
      split at found
      · next accepted =>
          cases found
          exact ⟨0, rfl, rfl, accepted⟩
      · obtain ⟨offset, positionEq, slotEq, accepted⟩ := ih found
        exact ⟨offset + 1, by omega, by simpa using slotEq, accepted⟩

private theorem scan_skips {offset : Nat}
    (behind : ∀ position entry, scan accept slots start = some (position, entry) →
      start + offset < position)
    (live : slots[offset]? = some (some (key, value))) : accept key value = false := by
  induction slots generalizing start offset with
  | nil => simp at live
  | cons slot slots ih =>
    cases offset with
    | zero =>
      obtain rfl : slot = some (key, value) := by simpa using live
      by_contra accepted
      have found : scan accept (some (key, value) :: slots) start = some (start, key, value) := by
        rw [scan, if_pos (by simpa using accepted)]
      have beyond := behind start (key, value) found
      omega
    | succ offset =>
      refine @ih (start + 1) offset (fun position entry found => ?_) (by simpa using live)
      cases slot with
      | none =>
        have beyond := behind position entry found
        omega
      | some first =>
        by_cases accepted : accept first.1 first.2
        · have beyond := behind start first (by rw [scan, if_pos accepted])
          omega
        · have beyond := behind position entry (by rw [scan, if_neg accepted, found])
          omega

variable [DecidableEq Key]

/-- `Map.prototype.get`. -/
def get (map : OrderedMap Key Value) (key : Key) : Option Value :=
  map.slots.findSome? fun slot =>
    slot.bind fun entry => if entry.1 = key then some entry.2 else none

theorem get_eq_some_iff : map.get key = some value ↔ some (key, value) ∈ map.slots := by
  constructor
  · intro found
    obtain ⟨slot, slotMem, chosen⟩ := List.exists_of_findSome?_eq_some found
    obtain ⟨⟨_, _⟩, rfl, matched⟩ := Option.bind_eq_some_iff.mp chosen
    split at matched
    · next sameKey =>
        cases matched
        obtain rfl : _ = key := sameKey
        exact slotMem
    · cases matched
  · intro live
    cases found : map.get key with
    | none =>
      have skipped := List.findSome?_eq_none_iff.mp found _ live
      simp at skipped
    | some =>
      obtain ⟨slot, slotMem, chosen⟩ := List.exists_of_findSome?_eq_some found
      obtain ⟨⟨_, _⟩, rfl, matched⟩ := Option.bind_eq_some_iff.mp chosen
      split at matched
      · next sameKey =>
          cases matched
          obtain rfl : _ = key := sameKey
          rw [value_unique slotMem live]
      · cases matched

theorem get_eq_none_iff : map.get key = none ↔ ∀ value, some (key, value) ∉ map.slots := by
  constructor
  · intro missing value live
    rw [get_eq_some_iff.mpr live] at missing
    cases missing
  · intro missing
    cases found : map.get key with
    | none => rfl
    | some value => exact (missing value (get_eq_some_iff.mp found)).elim

theorem get_eq_none_iff_keyAt : map.get key = none ↔ ∀ position, map.keyAt position ≠ some key := by
  rw [get_eq_none_iff]
  simp only [keyAt, ne_eq, Option.map_eq_some_iff, Option.join_eq_some_iff, not_exists,
    not_and, List.mem_iff_getElem?]
  constructor
  · intro missing position entry slotEq sameKey
    exact missing entry.2 position (by rw [slotEq, ← sameKey])
  · intro missing value position slotEq
    exact missing position (key, value) slotEq rfl

@[simp] theorem get_rewrite (map : OrderedMap Key Value)
    (update : Key → Value → Option Value) (key : Key) :
    (map.rewrite update).get key = (map.get key).bind (update key) := by
  ext value
  simp only [get_eq_some_iff, mem_slots_rewrite, Option.bind_eq_some_iff]

@[simp] theorem get_deleteWhere (map : OrderedMap Key Value) (test : Key → Value → Bool)
    (key : Key) :
    (map.deleteWhere test).get key = (map.get key).filter fun value => !test key value := by
  rw [deleteWhere, get_rewrite]
  cases map.get key with
  | none => rfl
  | some value => cases tested : test key value <;> simp [Option.filter, tested]

@[simp] theorem get_clear (map : OrderedMap Key Value) (key : Key) : map.clear.get key = none := by
  simp [clear]

@[simp] theorem get_empty (key : Key) : (empty : OrderedMap Key Value).get key = none :=
  rfl

/-- `Map.prototype.delete`. -/
def delete (map : OrderedMap Key Value) (key : Key) : OrderedMap Key Value :=
  map.deleteWhere fun other _ => decide (other = key)

/-- `Map.prototype.set`: overwrite a live slot in place, else append one. -/
def set (map : OrderedMap Key Value) (key : Key) (value : Value) : OrderedMap Key Value :=
  if absent : map.get key = none then
    { slots := map.slots ++ [some (key, value)]
      distinct := by
        refine List.pairwise_append.mpr ⟨map.distinct, List.pairwise_singleton _ _, ?_⟩
        intro slot slotMem last lastMem earlier earlierMem later laterMem sameKey
        rw [List.mem_singleton] at lastMem
        subst lastMem
        cases laterMem
        obtain rfl := Option.mem_def.mp earlierMem
        obtain ⟨_, old⟩ := earlier
        exact get_eq_none_iff.mp absent old (by
          simpa only [← show _ = key from sameKey] using slotMem) }
  else
    map.rewrite fun other old => some (if other = key then value else old)

@[simp] theorem get_delete_self (map : OrderedMap Key Value) (key : Key) :
    (map.delete key).get key = none := by
  cases found : map.get key <;> simp [delete, found, Option.filter]

@[simp] theorem get_delete_of_ne (map : OrderedMap Key Value)
    (apart : other ≠ key) : (map.delete key).get other = map.get other := by
  cases found : map.get other <;> simp [delete, found, Option.filter, apart]

theorem get_delete (map : OrderedMap Key Value) (key other : Key) :
    (map.delete key).get other = if other = key then none else map.get other := by
  split
  · next same =>
      rw [same]
      exact map.get_delete_self key
  · next apart => exact map.get_delete_of_ne apart

theorem mem_slots_set {found : Value} : some (other, found) ∈ (map.set key value).slots ↔
      (other = key ∧ found = value) ∨ (other ≠ key ∧ some (other, found) ∈ map.slots) := by
  unfold set
  split
  · next absent =>
      simp only [List.mem_append, List.mem_singleton, Option.some.injEq, Prod.mk.injEq]
      constructor
      · rintro (old | new)
        · refine Or.inr ⟨?_, old⟩
          rintro rfl
          exact get_eq_none_iff.mp absent _ old
        · exact Or.inl new
      · rintro (new | old)
        · exact Or.inr new
        · exact Or.inl old.2
  · next present =>
      obtain ⟨old, oldEq⟩ := Option.ne_none_iff_exists'.mp present
      rw [mem_slots_rewrite]
      constructor
      · rintro ⟨before, beforeMem, updated⟩
        by_cases sameKey : other = key
        · exact Or.inl ⟨sameKey, by simpa [sameKey] using updated.symm⟩
        · refine Or.inr ⟨sameKey, ?_⟩
          have unchanged : before = found := by simpa [sameKey] using updated
          exact unchanged ▸ beforeMem
      · rintro (⟨rfl, rfl⟩ | ⟨apart, live⟩)
        · exact ⟨old, get_eq_some_iff.mp oldEq, by simp⟩
        · exact ⟨found, live, by simp [apart]⟩

@[simp] theorem get_set_self (map : OrderedMap Key Value) (key : Key) (value : Value) :
    (map.set key value).get key = some value := by
  simp [get_eq_some_iff, mem_slots_set]

@[simp] theorem get_set_of_ne (map : OrderedMap Key Value) (value : Value)
    (apart : other ≠ key) : (map.set key value).get other = map.get other := by
  ext found
  simp [get_eq_some_iff, mem_slots_set, apart]

theorem get_set (map : OrderedMap Key Value) (key other : Key) (value : Value) :
    (map.set key value).get other = if other = key then some value else map.get other := by
  by_cases sameKey : other = key
  · subst other
    simp
  · simp [sameKey]

def keys (map : OrderedMap Key Value) : List Key :=
  map.entries.map Prod.fst

theorem mem_keys : key ∈ map.keys ↔ ∃ value, map.get key = some value := by
  simp only [keys, entries, List.mem_map, List.mem_filterMap, id_eq, get_eq_some_iff]
  constructor
  · rintro ⟨⟨_, value⟩, ⟨_, live, rfl⟩, rfl⟩
    exact ⟨value, live⟩
  · rintro ⟨value, live⟩
    exact ⟨(key, value), ⟨_, live, rfl⟩, rfl⟩

omit [DecidableEq Key] in
theorem keys_nodup (map : OrderedMap Key Value) : map.keys.Nodup := by
  rw [keys, entries, List.map_filterMap]
  refine List.Pairwise.filterMap _ (fun first second apart => ?_) map.distinct
  intro earlier earlierMem later laterMem
  simp only [id_eq, Option.map_eq_some_iff] at earlierMem laterMem
  obtain ⟨before, beforeEq, rfl⟩ := earlierMem
  obtain ⟨after, afterEq, rfl⟩ := laterMem
  exact apart before beforeEq after afterEq

theorem length_keys_le {listed : List Key}
    (covers : ∀ key value, map.get key = some value → key ∈ listed) :
    map.keys.length ≤ listed.length := by
  apply (List.subperm_of_subset map.keys_nodup ?_).length_le
  intro key member
  obtain ⟨value, found⟩ := mem_keys.mp member
  exact covers key value found

theorem length_keys_set_le (map : OrderedMap Key Value) (key : Key) (value : Value) :
    (map.set key value).keys.length ≤ map.keys.length + 1 := by
  change _ ≤ (key :: map.keys).length
  refine length_keys_le ?_
  intro other found located
  rw [get_set] at located
  split at located
  · next same => exact same ▸ List.mem_cons_self
  · exact List.mem_cons_of_mem _ (mem_keys.mpr ⟨found, located⟩)

theorem mem_entries : (key, value) ∈ map.entries ↔ map.get key = some value := by
  rw [get_eq_some_iff, entries, List.mem_filterMap]
  constructor
  · rintro ⟨slot, member, rfl⟩
    exact member
  · exact fun live => ⟨_, live, rfl⟩

theorem keys_set_of_present
    (present : map.get key ≠ none) : (map.set key value).keys = map.keys := by
  have same : ∀ slots : List (Option (Key × Value)), ((slots.map fun slot => slot.bind fun entry =>
        (some (if entry.1 = key then value else entry.2)).map (entry.1, ·)).filterMap id).map
          Prod.fst = (slots.filterMap id).map Prod.fst := by
    intro slots
    induction slots with
    | nil => rfl
    | cons slot slots ih =>
      cases slot with
      | none => exact ih
      | some entry => exact congrArg (entry.1 :: ·) ih
  unfold set
  rw [dif_neg present]
  exact same map.slots

/-- The key at a position after a `set`: what was there, or the new key in a
slot appended because the key was absent. -/
theorem keyAt_set (live : (map.set key value).keyAt position = some other) :
    map.keyAt position = some other ∨ (other = key ∧ map.get key = none) := by
  unfold set at live
  split at live
  · next absent =>
      by_cases inside : position < map.slots.length
      · left
        simpa [keyAt, List.getElem?_append_left inside] using live
      · right
        refine ⟨?_, absent⟩
        simp only [keyAt, List.getElem?_append_right (Nat.le_of_not_lt inside)] at live
        cases offset : position - map.slots.length with
        | zero => simpa [offset] using live.symm
        | succ => simp [offset] at live
  · exact Or.inl (keyAt_rewrite_of_eq_some live)

theorem keyAt_set_of_present (present : map.get key ≠ none) :
    (map.set key value).keyAt position = some other ↔ map.keyAt position = some other := by
  unfold set
  rw [dif_neg present]
  simp [keyAt, rewrite, List.getElem?_map, Option.join_eq_some_iff, Option.bind_eq_some_iff]

theorem keyAt_set_of_le {last : Nat} (live : map.keyAt last ≠ none) (before : position ≤ last) :
    (map.set key value).keyAt position = map.keyAt position := by
  by_cases present : map.get key = none
  · have inside : position < map.slots.length := by
      by_contra beyond
      have empty : map.slots[last]? = none := List.getElem?_eq_none_iff.mpr (by omega)
      exact live (by simp [keyAt, empty])
    unfold set
    rw [dif_pos present]
    simp [keyAt, List.getElem?_append_left inside]
  · ext other
    exact keyAt_set_of_present present

theorem nextFrom_sound (found : map.nextFrom start accept = some (position, key, value)) :
    start ≤ position ∧ accept key value ∧ map.keyAt position = some key ∧
      map.get key = some value := by
  obtain ⟨offset, rfl, slotEq, accepted⟩ := scan_sound found
  rw [List.getElem?_drop] at slotEq
  refine ⟨Nat.le_add_right _ _, accepted, ?_, ?_⟩
  · simp [keyAt, slotEq]
  · exact get_eq_some_iff.mpr (List.mem_iff_getElem?.mpr ⟨_, slotEq⟩)

theorem nextFrom_skips (ahead : start ≤ position) (live : map.keyAt position = some key)
    (stored : map.get key = some value)
    (behind : ∀ found entry, map.nextFrom start accept = some (found, entry) → position < found) :
    accept key value = false := by
  obtain ⟨offset, rfl⟩ := Nat.exists_eq_add_of_le ahead
  simp only [keyAt, Option.map_eq_some_iff, Option.join_eq_some_iff] at live
  obtain ⟨⟨_, other⟩, slotEq, rfl⟩ := live
  have same : other = value :=
    value_unique (List.mem_iff_getElem?.mpr ⟨_, slotEq⟩) (get_eq_some_iff.mp stored)
  rw [← same]
  exact scan_skips behind (by rw [List.getElem?_drop, slotEq])

section

variable {Item : Type*} {map : OrderedMap Key Value} {key other : Key} {value start : Value}
  {label : Item → Key} {add : Value → Item → Value} {items : List Item}

/-- The loop that adds each item to the value of its key, from a start value. -/
def tally (map : OrderedMap Key Value) (label : Item → Key) (start : Value)
    (add : Value → Item → Value) (items : List Item) : OrderedMap Key Value :=
  items.foldl (fun map item =>
    map.set (label item) (add ((map.get (label item)).getD start) item)) map

theorem mem_keys_set : other ∈ (map.set key value).keys ↔ other = key ∨ other ∈ map.keys := by
  rw [mem_keys, mem_keys, get_set]
  split
  · next same => simp [same]
  · next apart => simp [apart]

theorem mem_keys_tally : key ∈ (map.tally label start add items).keys ↔
    key ∈ map.keys ∨ ∃ item ∈ items, label item = key := by
  induction items generalizing map with
  | nil => simp [tally]
  | cons item items ih =>
    refine ih.trans ?_
    rw [mem_keys_set, List.exists_mem_cons_iff, or_assoc, or_left_comm, eq_comm]

theorem getD_get_tally : ((map.tally label start add items).get key).getD start =
    (items.filter (label · = key)).foldl add ((map.get key).getD start) := by
  induction items generalizing map with
  | nil => rfl
  | cons item items ih =>
    refine ih.trans ?_
    rw [get_set]
    split
    · next same => rw [same, List.filter_cons_of_pos (by simp), List.foldl_cons, Option.getD_some]
    · next apart => rw [List.filter_cons_of_neg (by simpa using Ne.symm apart)]

end

theorem mem_values : value ∈ map.values ↔ ∃ key, map.get key = some value := by
  simp only [values, entries, List.mem_map, List.mem_filterMap, id_eq, get_eq_some_iff]
  constructor
  · rintro ⟨⟨key, _⟩, ⟨_, live, rfl⟩, rfl⟩
    exact ⟨key, live⟩
  · rintro ⟨key, live⟩
    exact ⟨(key, value), ⟨_, live, rfl⟩, rfl⟩

/-- A map has no more values of a kind than a list of entries that has all of
its own. -/
theorem countP_values_le {listed : List (Key × Value)} (kind : Value → Bool)
    (covers : ∀ key value, map.get key = some value → (key, value) ∈ listed) :
    map.values.countP kind ≤ (listed.map Prod.snd).countP kind := by
  have distinct : map.entries.Nodup := List.Nodup.of_map Prod.fst map.keys_nodup
  have within : map.entries ⊆ listed := by
    intro entry member
    exact covers entry.1 entry.2 (mem_entries.mp member)
  rw [values, List.countP_map, List.countP_map]
  exact (List.subperm_of_subset distinct within).countP_le _

theorem countP_values_set_le (map : OrderedMap Key Value) (key : Key) (value : Value)
    (kind : Value → Bool) :
    (map.set key value).values.countP kind ≤ map.values.countP kind + (kind value).toNat := by
  have bound : (map.set key value).values.countP kind ≤
      (((key, value) :: map.entries).map Prod.snd).countP kind := by
    apply countP_values_le
    intro other found located
    rw [get_set] at located
    split at located
    · next same =>
        cases located
        exact same ▸ List.mem_cons_self
    · exact List.mem_cons_of_mem _ (mem_entries.mpr located)
  cases isKind : kind value <;> simpa [List.countP_cons, values, isKind] using bound

theorem map_values_set {Image : Type*}
    {old : Value} (image : Value → Image) (present : map.get key = some old)
    (same : image value = image old) :
    (map.set key value).values.map image = map.values.map image := by
  have live : map.get key ≠ none := by simp [present]
  unfold set
  rw [dif_neg live]
  simp only [values, entries, rewrite, List.map_filterMap, List.filterMap_map]
  refine List.filterMap_congr ?_
  rintro (_ | ⟨other, current⟩) member
  · rfl
  · by_cases sameKey : other = key
    · subst other
      have currentEq : current = old := value_unique member (get_eq_some_iff.mp present)
      simp [currentEq, same]
    · simp [sameKey]

end OrderedMap

end P2PHub
