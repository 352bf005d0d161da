/-
Purpose: Finite maps. A store is Mathlib's `AList`; what is added is `total`, the sum of a measure over all records,
  and how it moves when one record is written, added or removed. A sorted map is read in the order of its keys: the
  entries are a list that is sorted by construction, and an entry is written in its place.
-/
import Mathlib.Algebra.BigOperators.Group.List.Basic
import Mathlib.Algebra.Order.BigOperators.Group.List
import Mathlib.Algebra.Order.Group.Nat
import Mathlib.Data.List.AList
import Mathlib.Tactic.Abel
import Mathlib.Order.Lattice
import Mathlib.Data.List.Pairwise

namespace Payout.Lib

open List AList

/-- Records of type `V` under unique keys of type `K`. -/
abbrev Store (K V : Type) := AList (fun _ : K => V)

namespace Store

variable {K K' V V' M : Type} [DecidableEq K] [DecidableEq K']

/-- The records of a store that satisfy a predicate for every key. -/
def All (P : K → V → Prop) (store : Store K V) : Prop :=
  ∀ key value, store.lookup key = some value → P key value

/-- A predicate on the records of a store is checked record by record. -/
instance {P : K → V → Prop} {store : Store K V} [∀ key value, Decidable (P key value)] : Decidable (All P store) :=
  decidable_of_iff (∀ entry ∈ store.entries, P entry.1 entry.2)
    ⟨fun all key value found => all ⟨key, value⟩ (AList.mem_lookup_iff.mp found),
      fun all entry mem => all entry.1 entry.2 (AList.mem_lookup_iff.mpr mem)⟩

/-- Two stores that hold the same records. -/
def Same (one two : Store K V) : Prop := ∀ key, one.lookup key = two.lookup key

/-- The records of a store that pass a test. -/
def retain (test : K → V → Bool) (store : Store K V) : Store K V where
  entries := store.entries.filter fun entry => test entry.1 entry.2
  nodupKeys := store.nodupKeys.sublist List.filter_sublist

/-- The sum of a measure over the records of a store. -/
def total [AddCommMonoid M] (measure : K → V → M) (store : Store K V) : M :=
  (store.entries.map fun entry => measure entry.1 entry.2).sum

section Lookup

variable {store : Store K V} {key key' : K} {value value' : V} {P : K → V → Prop}

/-- What a store holds after one record was written. -/
theorem lookup_insert_eq_some :
    (store.insert key value).lookup key' = some value' ↔
      (key' = key ∧ value' = value) ∨ (key' ≠ key ∧ store.lookup key' = some value') := by
  by_cases same : key' = key
  · subst same
    simp [lookup_insert, eq_comm]
  · simp [lookup_insert_ne same, same]

/-- What a store holds under a key after one record was written. -/
theorem lookup_insert_eq_ite :
    (store.insert key value).lookup key' = if key' = key then some value else store.lookup key' := by
  split
  · rename_i same
    rw [same, lookup_insert]
  · rename_i other
    exact lookup_insert_ne other

/-- What a store holds after one record was removed. -/
theorem lookup_erase_eq_some :
    (store.erase key).lookup key' = some value' ↔ key' ≠ key ∧ store.lookup key' = some value' := by
  by_cases same : key' = key
  · subst same
    simp [lookup_erase]
  · simp [lookup_erase_ne same, same]

theorem erase_of_absent (absent : store.lookup key = none) : store.erase key = store := by
  apply ext
  exact kerase_of_notMem_keys (lookup_eq_none.mp absent)

theorem all_insert (new : P key value) (old : ∀ k v, k ≠ key → store.lookup k = some v → P k v) :
    All P (store.insert key value) := by
  intro k v found
  rcases lookup_insert_eq_some.mp found with ⟨rfl, rfl⟩ | ⟨other, found⟩
  · exact new
  · exact old k v other found

theorem all_erase (all : All P store) : All P (store.erase key) :=
  fun k v found => all k v (lookup_erase_eq_some.mp found).2

theorem All.mono {Q : K → V → Prop} (all : All P store) (le : ∀ k v, store.lookup k = some v → P k v → Q k v) :
    All Q store :=
  fun k v found => le k v found (all k v found)

/-- Stores with the same records satisfy the same predicates. -/
theorem Same.all {other : Store K V} (same : Same store other) (all : All P other) : All P store :=
  fun k v found => all k v (same k ▸ found)

theorem Same.trans {one two three : Store K V} (first : Same one two) (second : Same two three) : Same one three :=
  fun k => (first k).trans (second k)

/-- Writing the same record keeps stores the same. -/
theorem Same.insert {other : Store K V} (same : Same store other) (key : K) (value : V) :
    Same (store.insert key value) (other.insert key value) := by
  intro k
  rw [lookup_insert_eq_ite, lookup_insert_eq_ite, same k]

/-- Writes of different records commute. -/
theorem Same.insert_comm (distinct : key ≠ key') :
    Same ((store.insert key value).insert key' value') ((store.insert key' value').insert key value) :=
  fun _ => perm_lookup (store.insert_insert_of_ne distinct)

/-- Only the last of two writes of a record counts, whatever else was written in between. -/
theorem Same.overwrite {last : V} (distinct : key ≠ key') :
    Same (((store.insert key value).insert key' value').insert key last)
      ((store.insert key' value').insert key last) := by
  have swapped : Same ((store.insert key value).insert key' value')
      ((store.insert key' value').insert key value) := .insert_comm distinct
  have written := swapped.insert key last
  rwa [insert_insert] at written

/-- Write the records of a store into another one by one, each combined with what is there. -/
theorem lookup_foldl_entries {write : Store K V → (_ : K) × V → Store K V} {combine : Option V → Option V → Option V}
    (written : ∀ store entry k, (write store entry).lookup k = if k = entry.1 then combine (store.lookup k) (some
      entry.2) else store.lookup k) (nothing : ∀ held, combine held none = held) (source target : Store K V) (k : K) :
    (source.entries.foldl write target).lookup k = combine (target.lookup k) (source.lookup k) := by
  induction source using insertRec generalizing target with
  | H0 => simp [nothing]
  | IH key value rest absent ih =>
    rw [entries_insert_of_notMem absent, foldl_cons, ih, written, lookup_insert_eq_ite]
    by_cases same : k = key
    · subst same
      simp [lookup_eq_none.mpr absent, nothing]
    · simp [same]

@[simp] theorem all_empty : All P (∅ : Store K V) := by
  intro k v found
  simp at found

end Lookup

section Total

variable [AddCommMonoid M] {store : Store K V} {key : K} {value : V} {measure measure' : K → V → M}

omit [DecidableEq K] in
@[simp] theorem total_empty : total measure (∅ : Store K V) = 0 := rfl

theorem total_erase : total measure (store.erase key) =
    ((store.entries.kerase key).map fun entry => measure entry.1 entry.2).sum := rfl

/-- Writing a record adds its measure to the total of the others. -/
theorem total_insert : total measure (store.insert key value) =
    measure key value + total measure (store.erase key) := by
  rw [total_erase]
  simp [total, entries_insert]

/-- A record that is present contributes its measure to the total. -/
theorem total_eq_add_erase (present : store.lookup key = some value) :
    total measure store = measure key value + total measure (store.erase key) := by
  have mem : key ∈ store.entries.keys :=
    mem_keys.mp (lookup_isSome.mp (by rw [present]; rfl))
  obtain ⟨found, _, _, absent, entries, erased⟩ := exists_of_kerase mem
  have same : found = value := by
    have looked : store.entries.dlookup key = some found := by
      rw [entries, dlookup_append, dlookup_eq_none.mpr absent]
      simp
    rw [AList.lookup, looked] at present
    exact Option.some.inj present
  subst same
  rw [total_erase, erased, total, entries]
  simp only [map_append, map_cons, sum_append, sum_cons]
  abel

theorem total_insert_of_absent (absent : store.lookup key = none) :
    total measure (store.insert key value) = measure key value + total measure store := by
  rw [total_insert, erase_of_absent absent]

theorem mem_entries_iff {entry : (_ : K) × V} : entry ∈ store.entries ↔ store.lookup entry.1 = some entry.2 :=
  mem_lookup_iff.symm

/-- Measures that agree on the records present have the same total. -/
theorem total_congr (agree : ∀ k v, store.lookup k = some v → measure k v = measure' k v) :
    total measure store = total measure' store := by
  unfold total
  congr 1
  apply map_congr_left
  intro entry mem
  exact agree _ _ (mem_entries_iff.mp mem)

/-- Stores with the same records have the same totals. -/
theorem Same.total_eq {other : Store K V} (same : Same store other) : total measure store = total measure other := by
  have perm : store.entries.Perm other.entries :=
    lookup_ext store.nodupKeys other.nodupKeys fun k v => by
      change v ∈ store.lookup k ↔ v ∈ other.lookup k
      rw [same k]
  exact (perm.map _).sum_eq

/-- Overwriting a record exchanges its measure for the new one's. -/
theorem total_insert_of_present {old : V} (present : store.lookup key = some old) :
    total measure (store.insert key value) + measure key old = total measure store + measure key value := by
  rw [total_insert, total_eq_add_erase present]
  abel

omit [DecidableEq K] in
theorem total_add : total (fun k v => measure k v + measure' k v) store = total measure store + total measure' store :=
  sum_map_add

omit [DecidableEq K] in
/-- The total of a sum of measures is the sum of their totals. -/
theorem total_sum (f : α → K → V → M) (xs : List α) :
    total (fun k v => (xs.map fun x => f x k v).sum) store = (xs.map fun x => total (f x) store).sum := by
  induction xs with
  | nil => simp [total]
  | cons x xs ih => simp only [map_cons, sum_cons, total_add, ih]

omit [DecidableEq K] in
/-- A total under an additive map. -/
theorem map_total {N : Type} [AddCommMonoid N] {f : M → N} (zero : f 0 = 0) (add : ∀ a b, f (a + b) = f a + f b) :
    f (total measure store) = total (fun k v => f (measure k v)) store := by
  unfold total
  induction store.entries with
  | nil => exact zero
  | cons entry rest ih => rw [map_cons, sum_cons, add, ih, map_cons, sum_cons]

omit [DecidableEq K] in
/-- The number of records. -/
theorem total_one (store : Store K V) : total (fun _ _ => 1) store = store.entries.length := by
  simp [total]

/-- Removing a record that is present leaves one less. -/
theorem length_erase (present : store.lookup key = some value) :
    (store.erase key).entries.length + 1 = store.entries.length := by
  have counted : total (fun _ _ => 1) store = 1 + total (fun _ _ => 1) (store.erase key) := total_eq_add_erase present
  rw [total_one, total_one] at counted
  omega

theorem length_insert_of_absent (absent : store.lookup key = none) :
    (store.insert key value).entries.length = store.entries.length + 1 := by
  have counted : total (fun _ _ => 1) (store.insert key value) = 1 + total (fun _ _ => 1) store :=
    total_insert_of_absent absent
  rw [total_one, total_one] at counted
  omega

theorem length_insert_of_present {old : V} (present : store.lookup key = some old) :
    (store.insert key value).entries.length = store.entries.length := by
  have counted : total (fun _ _ => 1) (store.insert key value) + 1 = total (fun _ _ => 1) store + 1 :=
    total_insert_of_present present
  rw [total_one, total_one] at counted
  omega

theorem lookup_retain_eq_some {test : K → V → Bool} :
    (store.retain test).lookup key = some value ↔ store.lookup key = some value ∧ test key value = true := by
  have retained : (⟨key, value⟩ : (_ : K) × V) ∈ (store.retain test).entries ↔
      (⟨key, value⟩ : (_ : K) × V) ∈ store.entries ∧ test key value = true := mem_filter
  rwa [mem_entries_iff, mem_entries_iff] at retained

/-- Records without a measure may be dropped. -/
theorem total_retain {test : K → V → Bool}
    (zero : ∀ k v, store.lookup k = some v → test k v = false → measure k v = 0) :
    total measure (store.retain test) = total measure store := by
  have all : ∀ entries : List ((_ : K) × V), (∀ entry ∈ entries, test entry.1 entry.2 = false →
      measure entry.1 entry.2 = 0) →
      ((entries.filter fun entry => test entry.1 entry.2).map fun entry => measure entry.1 entry.2).sum =
        (entries.map fun entry => measure entry.1 entry.2).sum := by
    intro entries
    induction entries with
    | nil => exact fun _ => rfl
    | cons entry rest ih =>
      intro none
      obtain ⟨first, others⟩ := forall_mem_cons.mp none
      rw [filter_cons]
      split
      · rw [map_cons, map_cons, sum_cons, sum_cons, ih others]
      · rename_i dropped
        rw [map_cons, sum_cons, first (Bool.not_eq_true _ ▸ dropped), zero_add, ih others]
  exact all store.entries fun entry mem => zero entry.1 entry.2 (mem_entries_iff.mp mem)

theorem total_eq_zero (zero : ∀ k v, store.lookup k = some v → measure k v = 0) : total measure store = 0 := by
  have same : total measure store = total (fun _ _ => (0 : M)) store := total_congr zero
  rw [same]
  simp [total]

end Total

section Batch

variable {α : Type} {items : List α} {key : α → K} {value : α → V} {store : Store K V}

/-- Write a batch of records. -/
def insertAll (key : α → K) (value : α → V) (items : List α) (store : Store K V) : Store K V :=
  items.foldl (fun store item => store.insert (key item) (value item)) store

omit [DecidableEq K] in
/-- Leaving items out of a list leaves keys out. -/
theorem map_filterMap_sublist {β : Type} {f : α → Option β} {key' : β → K}
    (kept : ∀ a b, f a = some b → key' b = key a) (items : List α) :
    ((items.filterMap f).map key').Sublist (items.map key) := by
  induction items with
  | nil => exact .slnil
  | cons item rest ih =>
    rw [filterMap_cons]
    cases found : f item with
    | none => exact ih.cons _
    | some b =>
      simp only [map_cons, kept item b found]
      exact ih.cons_cons _

theorem lookup_insertAll_of_notMem {k : K} (other : k ∉ items.map key) :
    (insertAll key value items store).lookup k = store.lookup k := by
  induction items generalizing store with
  | nil => rfl
  | cons item rest ih =>
    obtain ⟨ne, other⟩ := ne_and_not_mem_of_not_mem_cons other
    exact (ih other).trans (lookup_insert_ne ne)

/-- A record that is there after a batch was there before or is of the batch. -/
theorem lookup_insertAll_cases {k : K} {v : V} (found : (insertAll key value items store).lookup k = some v) :
    store.lookup k = some v ∨ ∃ item ∈ items, key item = k ∧ value item = v := by
  induction items generalizing store with
  | nil => exact .inl found
  | cons first rest ih =>
    rcases ih found with before | ⟨item, mem, known⟩
    · rcases lookup_insert_eq_some.mp before with ⟨rfl, rfl⟩ | ⟨-, before⟩
      · exact .inr ⟨first, mem_cons_self, rfl, rfl⟩
      · exact .inl before
    · exact .inr ⟨item, mem_cons_of_mem _ mem, known⟩

/-- A record of a batch without two records for one key is there afterwards. -/
theorem lookup_insertAll_of_mem (nodup : (items.map key).Nodup) {item : α} (mem : item ∈ items) :
    (insertAll key value items store).lookup (key item) = some (value item) := by
  induction items generalizing store with
  | nil => cases mem
  | cons first rest ih =>
    obtain ⟨fresh, nodup⟩ := nodup_cons.mp nodup
    rcases mem_cons.mp mem with rfl | mem
    · exact (lookup_insertAll_of_notMem fresh).trans (lookup_insert _)
    · exact ih nodup mem

/-- A batch that overwrites records, each with a gain, raises the total by all gains. -/
theorem total_insertAll (measure : K → V → Nat) (gain : α → Nat) (nodup : (items.map key).Nodup)
    (gains : ∀ item ∈ items, ∃ old, store.lookup (key item) = some old ∧
      measure (key item) (value item) = measure (key item) old + gain item) :
    total measure (insertAll key value items store) = total measure store + (items.map gain).sum := by
  induction items generalizing store with
  | nil => rfl
  | cons item rest ih =>
    obtain ⟨fresh, nodup⟩ := nodup_cons.mp nodup
    obtain ⟨old, present, gained⟩ := gains item mem_cons_self
    have written : total measure (store.insert (key item) (value item)) + measure (key item) old =
        total measure store + measure (key item) (value item) := total_insert_of_present present
    have others : total measure (insertAll key value rest (store.insert (key item) (value item))) = _ :=
      ih nodup (by
      intro later mem
      obtain ⟨old, present, gained⟩ := gains later (mem_cons_of_mem _ mem)
      have ne : key later ≠ key item := fun same => fresh (same ▸ mem_map_of_mem mem)
      exact ⟨old, (lookup_insert_ne ne).trans present, gained⟩)
    have unfolded : insertAll key value (item :: rest) store =
        insertAll key value rest (store.insert (key item) (value item)) := rfl
    rw [unfolded, others, map_cons, sum_cons]
    omega

end Batch

section Order

variable {store : Store K V} {other : Store K' V'} {key : K} {value : V} {measure measure' : K → V → Nat}

theorem measure_le_total (measure : K → V → Nat) (present : store.lookup key = some value) :
    measure key value ≤ total measure store := by
  rw [total_eq_add_erase present]
  exact Nat.le_add_right _ _

theorem total_mono (le : ∀ k v, store.lookup k = some v → measure k v ≤ measure' k v) :
    total measure store ≤ total measure' store := by
  apply sum_le_sum
  intro entry mem
  exact le _ _ (mem_entries_iff.mp mem)

omit [DecidableEq K] in
/-- A subadditive function of a total is bounded by the total of its values. -/
theorem le_total_of_subadditive {f : Nat → Nat} (zero : f 0 = 0) (sub : ∀ a b, f (a + b) ≤ f a + f b) :
    f (total measure store) ≤ total (fun k v => f (measure k v)) store := by
  unfold total
  induction store.entries with
  | nil => exact zero.le
  | cons entry rest ih =>
    rw [map_cons, sum_cons, map_cons, sum_cons]
    exact (sub _ _).trans (Nat.add_le_add_left ih _)

/-- If every record of a store is covered by a record of another store, under an injective map of keys, the
    whole store is covered. -/
theorem total_le_total_of_injective {image : K → K'} (injective : Function.Injective image) {cover : K' → V' → Nat}
    (store : Store K V) (other : Store K' V')
    (covered : ∀ k v, store.lookup k = some v → ∃ w, other.lookup (image k) = some w ∧
      measure k v ≤ cover (image k) w) :
    total measure store ≤ total cover other := by
  -- Induct on the records of the covered store, removing each one's cover from the other.
  induction store using insertRec generalizing other with
  | H0 => simp
  | IH key value rest absent ih =>
    obtain ⟨_, found, le⟩ := covered key value (lookup_insert _)
    rw [total_insert_of_absent (lookup_eq_none.mpr absent), total_eq_add_erase found]
    refine Nat.add_le_add le (ih (other.erase (image key)) ?_)
    intro k v present
    have ne : k ≠ key := by
      rintro rfl
      rw [lookup_eq_none.mpr absent] at present
      simp at present
    obtain ⟨w', found', le'⟩ := covered k v (by rw [lookup_insert_ne ne]; exact present)
    exact ⟨w', lookup_erase_eq_some.mpr ⟨fun same => ne (injective same), found'⟩, le'⟩

end Order

end Store

/-- Entries in strictly rising order of their keys. -/
structure SortedMap (K V : Type) [LinearOrder K] where
  entries : List (K × V)
  sorted : entries.Pairwise fun one other => one.1 < other.1

namespace SortedMap

variable {K V : Type} [LinearOrder K] {key key' : K} {value : V} {entries : List (K × V)}

def empty : SortedMap K V := { entries := [], sorted := .nil }

/-- Write the entry of a key in its place. -/
def insertEntries (key : K) (value : V) : List (K × V) → List (K × V)
  | [] => [(key, value)]
  | entry :: rest =>
    if key < entry.1 then (key, value) :: entry :: rest
    else if key = entry.1 then (key, value) :: rest
    else entry :: insertEntries key value rest

/-- The value of a key in a list of entries. -/
def lookupEntries (key : K) (entries : List (K × V)) : Option V :=
  (entries.find? fun entry => entry.1 = key).map Prod.snd

def lookup (map : SortedMap K V) (key : K) : Option V := lookupEntries key map.entries

theorem lookupEntries_cons (entry : K × V) (rest : List (K × V)) :
    lookupEntries key (entry :: rest) = if entry.1 = key then some entry.2 else lookupEntries key rest := by
  simp only [lookupEntries, find?_cons]
  split <;> simp_all

/-- The entries after one was written: the new one and the others. -/
theorem mem_insertEntries {entry : K × V} (sorted : entries.Pairwise fun one other => one.1 < other.1) :
    entry ∈ insertEntries key value entries ↔
      entry = (key, value) ∨ (entry.1 ≠ key ∧ entry ∈ entries) := by
  induction entries with
  | nil => simp [insertEntries]
  | cons first rest ih =>
    have later : ∀ other ∈ rest, first.1 < other.1 := fun other => rel_of_pairwise_cons sorted
    simp only [insertEntries]
    split
    case isTrue before =>
      have above : ∀ other ∈ first :: rest, key < other.1 := by
        intro other mem
        rcases mem_cons.mp mem with rfl | mem
        · exact before
        · exact before.trans (later other mem)
      rw [mem_cons]
      constructor
      · rintro (new | old)
        · exact .inl new
        · exact .inr ⟨(above entry old).ne', old⟩
      · rintro (new | ⟨_, old⟩)
        · exact .inl new
        · exact .inr old
    case isFalse notBefore =>
      split
      case isTrue same =>
        rw [mem_cons, mem_cons]
        constructor
        · rintro (new | old)
          · exact .inl new
          · exact .inr ⟨same ▸ (later entry old).ne', .inr old⟩
        · rintro (new | ⟨other, rfl | old⟩)
          · exact .inl new
          · exact absurd same.symm other
          · exact .inr old
      case isFalse other =>
        rw [mem_cons, ih sorted.of_cons, mem_cons]
        constructor
        · rintro (rfl | new | ⟨ne, old⟩)
          · exact .inr ⟨Ne.symm other, .inl rfl⟩
          · exact .inl new
          · exact .inr ⟨ne, .inr old⟩
        · rintro (new | ⟨ne, rfl | old⟩)
          · exact .inr (.inl new)
          · exact .inl rfl
          · exact .inr (.inr ⟨ne, old⟩)

theorem sorted_insertEntries (sorted : entries.Pairwise fun one other => one.1 < other.1) :
    (insertEntries key value entries).Pairwise fun one other => one.1 < other.1 := by
  induction entries with
  | nil => exact pairwise_singleton _ _
  | cons first rest ih =>
    simp only [insertEntries]
    split
    case isTrue before =>
      refine pairwise_cons.mpr ⟨?_, sorted⟩
      intro other mem
      rcases mem_cons.mp mem with rfl | mem
      · exact before
      · exact before.trans (rel_of_pairwise_cons sorted mem)
    case isFalse notBefore =>
      split
      case isTrue same =>
        refine pairwise_cons.mpr ⟨?_, sorted.of_cons⟩
        intro other mem
        exact same ▸ rel_of_pairwise_cons sorted mem
      case isFalse other =>
        refine pairwise_cons.mpr ⟨?_, ih sorted.of_cons⟩
        intro entry mem
        rcases (mem_insertEntries sorted.of_cons).mp mem with rfl | ⟨_, old⟩
        · exact lt_of_le_of_ne (not_lt.mp notBefore) (Ne.symm other)
        · exact rel_of_pairwise_cons sorted old

/-- Write an entry in its place. -/
def insert (map : SortedMap K V) (key : K) (value : V) : SortedMap K V where
  entries := insertEntries key value map.entries
  sorted := sorted_insertEntries map.sorted

variable {map : SortedMap K V}

theorem lookupEntries_eq_some_iff (distinct : entries.Pairwise fun one other => one.1 ≠ other.1) :
    lookupEntries key entries = some value ↔ (key, value) ∈ entries := by
  induction entries with
  | nil => simp [lookupEntries]
  | cons first rest ih =>
    rw [lookupEntries_cons, mem_cons]
    split
    case isTrue same =>
      constructor
      · rintro ⟨⟩
        exact .inl (Prod.ext same.symm rfl)
      · rintro (rfl | later)
        · rfl
        · exact absurd same (rel_of_pairwise_cons distinct later)
    case isFalse other =>
      rw [ih distinct.of_cons]
      constructor
      · exact .inr
      · rintro (rfl | later)
        · exact absurd rfl other
        · exact later

theorem distinct (map : SortedMap K V) : map.entries.Pairwise fun one other => one.1 ≠ other.1 :=
  map.sorted.imp ne_of_lt

theorem lookup_eq_some_iff : map.lookup key = some value ↔ (key, value) ∈ map.entries :=
  lookupEntries_eq_some_iff map.distinct

/-- The entries may also be read from the greatest key to the smallest. -/
theorem lookupEntries_reverse : lookupEntries key map.entries.reverse = map.lookup key := by
  apply Option.ext
  intro value
  have reversed : map.entries.reverse.Pairwise fun one other => one.1 ≠ other.1 :=
    pairwise_reverse.mpr (map.distinct.imp Ne.symm)
  rw [lookupEntries_eq_some_iff reversed, mem_reverse, lookup_eq_some_iff]

theorem mem_insert {entry : K × V} : entry ∈ (map.insert key value).entries ↔
    entry = (key, value) ∨ (entry.1 ≠ key ∧ entry ∈ map.entries) :=
  mem_insertEntries map.sorted

theorem lookup_insert : (map.insert key value).lookup key' =
    if key' = key then some value else map.lookup key' := by
  apply Option.ext
  intro found
  rw [lookup_eq_some_iff, mem_insert]
  split
  case isTrue same =>
    subst same
    simp [eq_comm]
  case isFalse other =>
    rw [lookup_eq_some_iff]
    simp [other]

end SortedMap

end Payout.Lib
