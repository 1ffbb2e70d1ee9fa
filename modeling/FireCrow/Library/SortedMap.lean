import Mathlib

/-!
# Sorted maps

A finite map kept as its entries in strictly ascending key order, with the
order carried as a field.  Iterating the map is reading the entries, so two
maps with equal lookups are equal.  `upsert` is the one primitive update;
insertion, grouping and counting are its instances.
-/

namespace FireCrow.Library

/-- A finite map as its entries in strictly ascending key order. -/
structure SortedMap (κ : Type) (α : Type) [LinearOrder κ] where
  entries : List (κ × α)
  sorted : entries.Pairwise fun left right => left.1 < right.1

namespace SortedMap

variable {κ α β : Type} [LinearOrder κ]

/-- The map without entries. -/
def empty : SortedMap κ α := ⟨[], List.Pairwise.nil⟩

instance : EmptyCollection (SortedMap κ α) := ⟨empty⟩

/-- The first value stored under a key. -/
def lookupEntries (key : κ) : List (κ × α) → Option α
  | [] => none
  | (head, value) :: rest =>
      if key = head then some value else lookupEntries key rest

/-- The value stored under a key. -/
def get? (map : SortedMap κ α) (key : κ) : Option α :=
  lookupEntries key map.entries

def keys (map : SortedMap κ α) : List κ := map.entries.map Prod.fst

def values (map : SortedMap κ α) : List α := map.entries.map Prod.snd

/-- Replace the value under `key` by `update` of the old one. -/
def upsertEntries (key : κ) (update : Option α → α) :
    List (κ × α) → List (κ × α)
  | [] => [(key, update none)]
  | (head, value) :: rest =>
      if key < head then
        (key, update none) :: (head, value) :: rest
      else if key = head then
        (head, update (some value)) :: rest
      else
        (head, value) :: upsertEntries key update rest

variable {entries : List (κ × α)}

theorem mem_keys_upsertEntries {key : κ} {update : Option α → α} {wanted : κ} :
    wanted ∈ (upsertEntries key update entries).map Prod.fst ↔
      wanted = key ∨ wanted ∈ entries.map Prod.fst := by
  induction entries with
  | nil => simp [upsertEntries]
  | cons entry rest ih =>
      rcases entry with ⟨head, value⟩
      rw [upsertEntries]
      split
      · simp
      · split
        · rename_i equal
          simp [equal]
        · simp only [List.map_cons, List.mem_cons, ih]
          tauto

theorem upsertEntries_sorted (key : κ) (update : Option α → α)
    (sorted : entries.Pairwise fun left right => left.1 < right.1) :
    (upsertEntries key update entries).Pairwise
      fun left right => left.1 < right.1 := by
  induction entries with
  | nil => simp [upsertEntries]
  | cons entry rest ih =>
      rcases entry with ⟨head, value⟩
      rcases List.pairwise_cons.1 sorted with ⟨above, tail⟩
      rw [upsertEntries]
      split
      · rename_i before
        refine List.pairwise_cons.2 ⟨?_, sorted⟩
        intro other member
        rcases List.mem_cons.1 member with rfl | member
        · exact before
        · exact lt_trans before (above other member)
      · rename_i notBefore
        split
        · exact List.pairwise_cons.2 ⟨above, tail⟩
        · rename_i different
          refine List.pairwise_cons.2 ⟨?_, ih tail⟩
          intro other member
          have keyMember :=
            mem_keys_upsertEntries.1 (List.mem_map_of_mem member)
          rcases keyMember with equal | old
          · rw [equal]
            exact lt_of_le_of_ne (not_lt.1 notBefore) (Ne.symm different)
          · rcases List.mem_map.1 old with ⟨entry, entryMember, equal⟩
            rw [← equal]
            exact above entry entryMember

/-- Replace the value under `key` by `update` of the old one. -/
def upsert (map : SortedMap κ α) (key : κ) (update : Option α → α) :
    SortedMap κ α :=
  ⟨upsertEntries key update map.entries,
    upsertEntries_sorted key update map.sorted⟩

/-- Store a value, replacing an older one. -/
def insert (map : SortedMap κ α) (key : κ) (value : α) : SortedMap κ α :=
  map.upsert key fun _ => value

/-- Change every value and keep the keys. -/
def mapValues (change : α → β) (map : SortedMap κ α) : SortedMap κ β :=
  ⟨map.entries.map fun entry => (entry.1, change entry.2),
    List.pairwise_map.2 map.sorted⟩

/-- Store every entry of a list in turn. -/
def ofList (entries : List (κ × α)) : SortedMap κ α :=
  entries.foldl (fun map entry => map.insert entry.1 entry.2) ∅

/-- Append one item to the group under `key`. -/
def push (map : SortedMap κ (List α)) (key : κ) (item : α) :
    SortedMap κ (List α) :=
  map.upsert key fun group => group.getD [] ++ [item]

/-- Add one to the count under `key`. -/
def increment (map : SortedMap κ Nat) (key : κ) : SortedMap κ Nat :=
  map.upsert key fun count => count.getD 0 + 1

/-- The items of a list grouped by a key, each group in list order. -/
def groupBy (key : α → κ) (items : List α) : SortedMap κ (List α) :=
  items.foldl (fun groups item => groups.push (key item) item) ∅

/-- How often each key occurs in a list. -/
def countBy (key : α → κ) (items : List α) : SortedMap κ Nat :=
  items.foldl (fun counts item => counts.increment (key item)) ∅

/-- The distinct items of a list in ascending order. -/
def distinct (items : List κ) : List κ :=
  (items.foldl (fun seen item => seen.insert item ()) (∅ : SortedMap κ Unit)).keys

/-! ## Lookups -/

@[simp]
theorem get?_empty (key : κ) : (∅ : SortedMap κ α).get? key = none := rfl

@[simp]
theorem values_empty : (∅ : SortedMap κ α).values = [] := rfl

@[simp]
theorem keys_empty : (∅ : SortedMap κ α).keys = [] := rfl

variable (map : SortedMap κ α)

theorem keys_sorted : map.keys.Pairwise fun left right => left < right :=
  List.pairwise_map.2 map.sorted

private theorem lookup_eq_none_of_lt {key : κ}
    (below : ∀ entry ∈ entries, key < entry.1) :
    lookupEntries key entries = none := by
  induction entries with
  | nil => rfl
  | cons entry rest ih =>
      have first := below entry List.mem_cons_self
      rw [lookupEntries, if_neg first.ne]
      exact ih fun other member => below other (List.mem_cons_of_mem _ member)

theorem lookup_upsertEntries (key wanted : κ) (update : Option α → α)
    (sorted : entries.Pairwise fun left right => left.1 < right.1) :
    lookupEntries wanted (upsertEntries key update entries) =
      if wanted = key then some (update (lookupEntries key entries))
      else lookupEntries wanted entries := by
  induction entries with
  | nil => rfl
  | cons entry rest ih =>
      rcases entry with ⟨head, value⟩
      rcases List.pairwise_cons.1 sorted with ⟨above, tail⟩
      rw [upsertEntries]
      split
      · rename_i before
        have absent : lookupEntries key ((head, value) :: rest) = none := by
          apply lookup_eq_none_of_lt
          intro other member
          rcases List.mem_cons.1 member with rfl | member
          · exact before
          · exact lt_trans before (above other member)
        rw [absent, lookupEntries]
      · split
        · rename_i equal
          subst equal
          by_cases equal : wanted = key <;> simp [lookupEntries, equal]
        · rename_i different
          by_cases equal : wanted = head
          · have other : wanted ≠ key := by
              rintro rfl
              exact different equal
            simp [lookupEntries, equal, Ne.symm different]
          · simp [lookupEntries, equal, different, ih tail]

theorem get?_upsert (key wanted : κ) (update : Option α → α) :
    (map.upsert key update).get? wanted =
      if wanted = key then some (update (map.get? key))
      else map.get? wanted :=
  lookup_upsertEntries key wanted update map.sorted

@[simp]
theorem get?_insert (key wanted : κ) (value : α) :
    (map.insert key value).get? wanted =
      if wanted = key then some value else map.get? wanted :=
  get?_upsert map key wanted _

theorem get?_insert_self (key : κ) (value : α) :
    (map.insert key value).get? key = some value := by
  simp

theorem get?_insert_ne {key wanted : κ} (different : wanted ≠ key) (value : α) :
    (map.insert key value).get? wanted = map.get? wanted := by
  simp [different]

theorem mem_entries_iff (key : κ) (value : α) :
    (key, value) ∈ map.entries ↔ map.get? key = some value := by
  rcases map with ⟨entries, sorted⟩
  simp only [get?]
  induction entries with
  | nil => simp [lookupEntries]
  | cons entry rest ih =>
      rcases entry with ⟨head, first⟩
      rcases List.pairwise_cons.1 sorted with ⟨above, tail⟩
      rw [List.mem_cons, ih tail]
      by_cases equal : key = head
      · subst equal
        have absent : lookupEntries key rest = none :=
          lookup_eq_none_of_lt above
        simp [lookupEntries, absent, eq_comm]
      · simp [lookupEntries, equal]

/-- Maps with equal lookups are equal. -/
@[ext]
theorem ext {left right : SortedMap κ α}
    (equal : ∀ key, left.get? key = right.get? key) : left = right := by
  have antisymmetric :
      ∀ first second : κ × α, first.1 < second.1 → second.1 < first.1 →
        first = second :=
    fun _ _ below above => absurd above (lt_asymm below)
  have leftNodup : left.entries.Nodup :=
    left.sorted.imp fun below equal => (ne_of_lt below) (congrArg _ equal)
  have rightNodup : right.entries.Nodup :=
    right.sorted.imp fun below equal => (ne_of_lt below) (congrArg _ equal)
  have permuted : left.entries.Perm right.entries := by
    rw [List.perm_ext_iff_of_nodup leftNodup rightNodup]
    rintro ⟨key, value⟩
    rw [mem_entries_iff, mem_entries_iff, equal]
  have same : left.entries = right.entries :=
    List.Perm.eq_of_pairwise (fun first second _ _ => antisymmetric first second)
      left.sorted right.sorted permuted
  cases left
  cases right
  congr

theorem mem_keys_iff (key : κ) :
    key ∈ map.keys ↔ (map.get? key).isSome = true := by
  rw [Option.isSome_iff_exists]
  simp only [← mem_entries_iff, keys, List.mem_map]
  constructor
  · rintro ⟨⟨found, value⟩, member, rfl⟩
    exact ⟨value, member⟩
  · rintro ⟨value, member⟩
    exact ⟨(key, value), member, rfl⟩

theorem get?_foldl_insert_of_forall_ne (entries : List (κ × α))
    (start : SortedMap κ α) {wanted : κ}
    (absent : ∀ entry ∈ entries, entry.1 ≠ wanted) :
    (entries.foldl (fun map entry => map.insert entry.1 entry.2) start).get?
        wanted =
      start.get? wanted := by
  induction entries generalizing start with
  | nil => rfl
  | cons entry rest ih =>
      rw [List.foldl_cons,
        ih _ fun other member => absent other (List.mem_cons_of_mem _ member)]
      exact get?_insert_ne start (absent entry List.mem_cons_self).symm _

private theorem get?_foldl_insert (entries : List (κ × α))
    (start : SortedMap κ α)
    (sorted : entries.Pairwise fun left right => left.1 < right.1)
    (wanted : κ) :
    (entries.foldl (fun map entry => map.insert entry.1 entry.2) start).get?
        wanted =
      (lookupEntries wanted entries).or (start.get? wanted) := by
  induction entries generalizing start with
  | nil => rfl
  | cons entry rest ih =>
      rcases List.pairwise_cons.1 sorted with ⟨above, tail⟩
      rw [List.foldl_cons]
      by_cases equal : wanted = entry.1
      · rw [get?_foldl_insert_of_forall_ne rest _
          fun other member => equal ▸ (above other member).ne']
        simp [lookupEntries, equal]
      · rw [ih _ tail]
        simp [lookupEntries, equal]

/-- Storing the entries of a map rebuilds it. -/
@[simp]
theorem ofList_entries : ofList map.entries = map := by
  ext1 key
  rw [ofList, get?_foldl_insert map.entries ∅ map.sorted key]
  exact Option.or_none

@[simp]
theorem keys_mapValues (change : α → β) (map : SortedMap κ α) :
    (map.mapValues change).keys = map.keys := by
  simp [keys, mapValues]

@[simp]
theorem values_mapValues (change : α → β) (map : SortedMap κ α) :
    (map.mapValues change).values = map.values.map change := by
  simp [values, mapValues]

@[simp]
theorem get?_mapValues (change : α → β) (map : SortedMap κ α) (key : κ) :
    (map.mapValues change).get? key = (map.get? key).map change := by
  rcases map with ⟨entries, sorted⟩
  simp only [get?, mapValues]
  clear sorted
  induction entries with
  | nil => rfl
  | cons entry rest ih =>
      rcases entry with ⟨head, value⟩
      simp only [List.map_cons, lookupEntries, ih]
      split <;> rfl

/-! ## Grouping -/

variable (key : α → κ)

variable (items : List α)

theorem get?_foldl_push (start : SortedMap κ (List α)) (wanted : κ) :
    (items.foldl (fun groups item => groups.push (key item) item) start).get?
        wanted =
      match items.filter (fun item => key item = wanted) with
      | [] => start.get? wanted
      | group => some ((start.get? wanted).getD [] ++ group) := by
  induction items generalizing start with
  | nil => rfl
  | cons item rest ih =>
      rw [List.foldl_cons, ih, push, get?_upsert, List.filter_cons]
      by_cases equal : wanted = key item
      · subst equal
        cases rest.filter fun other => key other = key item <;> simp
      · have other : ¬ key item = wanted := fun same => equal same.symm
        simp [equal, other]

/-- The group of a key is the sublist of the items that carry it. -/
theorem get?_groupBy (wanted : κ) :
    (groupBy key items).get? wanted =
      match items.filter (fun item => key item = wanted) with
      | [] => none
      | group => some group := by
  rw [groupBy, get?_foldl_push]
  cases items.filter fun item => key item = wanted <;> rfl

theorem mem_groupBy_iff (wanted : κ) (group : List α) :
    (wanted, group) ∈ (groupBy key items).entries ↔
      group ≠ [] ∧ group = items.filter fun item => key item = wanted := by
  rw [mem_entries_iff, get?_groupBy]
  cases found : items.filter fun item => key item = wanted with
  | nil =>
      simp only [reduceCtorEq, ne_eq, false_iff, not_and]
      exact fun nonempty => nonempty
  | cons head rest =>
      simp only [Option.some.injEq, ne_eq]
      constructor
      · rintro rfl
        exact ⟨List.cons_ne_nil head rest, rfl⟩
      · rintro ⟨_, rfl⟩
        rfl

theorem mem_keys_groupBy_iff (wanted : κ) :
    wanted ∈ (groupBy key items).keys ↔ ∃ item ∈ items, key item = wanted := by
  rw [mem_keys_iff, get?_groupBy]
  cases found : items.filter fun item => key item = wanted with
  | nil =>
      simp only [Option.isSome_none, Bool.false_eq_true, false_iff]
      rintro ⟨item, member, equal⟩
      have inside : item ∈ items.filter fun item => key item = wanted :=
        List.mem_filter.2 ⟨member, by simpa using equal⟩
      rw [found] at inside
      exact List.not_mem_nil inside
  | cons head rest =>
      have inside : head ∈ items.filter fun item => key item = wanted := by
        rw [found]
        exact List.mem_cons_self
      rcases List.mem_filter.1 inside with ⟨member, equal⟩
      simp only [Option.isSome_some, true_iff]
      exact ⟨head, member, by simpa using equal⟩

theorem mem_distinct_iff {items : List κ} {item : κ} :
    item ∈ distinct items ↔ item ∈ items := by
  have onFold : ∀ start : SortedMap κ Unit,
      ((items.foldl (fun seen item => seen.insert item ()) start).get?
          item).isSome =
        ((start.get? item).isSome || decide (item ∈ items)) := by
    induction items with
    | nil => simp
    | cons head rest ih =>
        intro start
        rw [List.foldl_cons, ih, get?_insert]
        by_cases same : item = head <;> simp [same]
  rw [distinct, mem_keys_iff, onFold]
  simp

/-! ## Sums of sizes -/

/-- An update that grows one value by one grows the sum of sizes by one. -/
theorem sum_values_upsert (size : α → Nat) (map : SortedMap κ α) (key : κ)
    {update : Option α → α}
    (grows : ∀ old, size (update old) = (old.map size).getD 0 + 1) :
    ((map.upsert key update).values.map size).sum =
      (map.values.map size).sum + 1 := by
  have onEntries : ∀ entries : List (κ × α),
      (((upsertEntries key update entries).map Prod.snd).map size).sum =
        ((entries.map Prod.snd).map size).sum + 1 := by
    intro entries
    induction entries with
    | nil => simp [upsertEntries, grows]
    | cons entry rest ih =>
        rcases entry with ⟨head, value⟩
        rw [upsertEntries]
        split
        · simp only [List.map_cons, List.sum_cons, grows, Option.map_none,
            Option.getD_none]
          omega
        · split
          · simp only [List.map_cons, List.sum_cons, grows, Option.map_some,
              Option.getD_some]
            omega
          · simp only [List.map_cons, List.sum_cons, ih]
            omega
  exact onEntries map.entries

/-- Every item is in exactly one group. -/
theorem sum_length_groupBy :
    ((groupBy key items).values.map List.length).sum = items.length := by
  have onFold : ∀ start : SortedMap κ (List α),
      ((items.foldl (fun groups item => groups.push (key item) item)
          start).values.map List.length).sum =
        (start.values.map List.length).sum + items.length := by
    induction items with
    | nil => simp
    | cons item rest ih =>
        intro start
        rw [List.foldl_cons, ih, push,
          sum_values_upsert List.length start (key item)]
        · rw [List.length_cons]
          omega
        · intro old
          cases old <;> simp
  simpa [groupBy] using onFold ∅

/-- The counts add up to the number of items. -/
theorem sum_countBy : (countBy key items).values.sum = items.length := by
  have onFold : ∀ start : SortedMap κ Nat,
      ((items.foldl (fun counts item => counts.increment (key item))
          start).values.map id).sum =
        (start.values.map id).sum + items.length := by
    induction items with
    | nil => simp
    | cons item rest ih =>
        intro start
        rw [List.foldl_cons, ih, increment,
          sum_values_upsert id start (key item)]
        · rw [List.length_cons]
          omega
        · intro old
          cases old <;> simp
  simpa [countBy] using onFold ∅

end SortedMap

end FireCrow.Library
