import FireCrow.Library.SortedMap
import FireCrow.Library.StableSort

/-!
# Deduplication by key

Grouping a list by key and keeping one entry for each group.  The kept entries
come in strictly ascending key order, sorting the list first changes nothing,
and a summary of the groups that does not depend on their order is the same
for every permutation of the list.
-/

namespace FireCrow.Library.SortedMap

variable {κ α β : Type} [LinearOrder κ]

/-- Sorting by the grouping key keeps every group. -/
theorem groupBy_sortBy (key : α → κ) (items : List α) :
    groupBy key (sortBy key items) = groupBy key items := by
  ext1 wanted
  rw [get?_groupBy, get?_groupBy, filter_sortBy]

/-- Grouping views of items groups the items. -/
theorem groupBy_map (key : β → κ) (view : α → β) (items : List α) :
    groupBy key (items.map view) =
      (groupBy (fun item => key (view item)) items).mapValues
        (List.map view) := by
  ext1 wanted
  rw [get?_mapValues, get?_groupBy, get?_groupBy, List.filter_map]
  simp only [Function.comp_def]
  cases items.filter fun item => key (view item) = wanted <;> rfl

variable {key : α → κ}

/-- A summary that ignores the order of a group ignores the order of the
list. -/
theorem mapValues_groupBy_eq_of_perm {summary : List α → β}
    {left right : List α} (permuted : left.Perm right)
    (orderless : ∀ first second : List α, first.Sublist left →
      first.Perm second → summary first = summary second) :
    (groupBy key left).mapValues summary =
      (groupBy key right).mapValues summary := by
  ext1 wanted
  have groups :
      (left.filter fun item => key item = wanted).Perm
        (right.filter fun item => key item = wanted) :=
    permuted.filter _
  have same := orderless _ _ List.filter_sublist groups
  rw [get?_mapValues, get?_mapValues, get?_groupBy, get?_groupBy]
  cases found : left.filter fun item => key item = wanted with
  | nil =>
      rw [found] at groups
      rw [groups.nil_eq]
  | cons head rest =>
      rw [found] at groups same
      cases other : right.filter fun item => key item = wanted with
      | nil =>
          rw [other] at groups
          exact absurd groups.symm.nil_eq (List.cons_ne_nil _ _).symm
      | cons otherHead otherRest =>
          rw [other] at same
          simp only [Option.map_some, same]

variable {items : List α}

/-- Every group is non-empty and has one key. -/
theorem groupBy_group {wanted : κ}
    {group : List α} (member : (wanted, group) ∈ (groupBy key items).entries) :
    group ≠ [] ∧ ∀ item ∈ group, item ∈ items ∧ key item = wanted := by
  rcases (mem_groupBy_iff key items wanted group).1 member with
    ⟨nonempty, rfl⟩
  refine ⟨nonempty, ?_⟩
  intro item inside
  simpa using List.mem_filter.1 inside

/-- When every group keeps an entry, a view of the entries is a view of the
groups. -/
theorem map_filterMap_of_forall_some {γ : Type} {keep : α → Option β}
    {view : β → γ} {shown : α → γ}
    (kept : ∀ item ∈ items, ∃ entry, keep item = some entry ∧
      view entry = shown item) :
    (items.filterMap keep).map view = items.map shown := by
  induction items with
  | nil => rfl
  | cons item rest ih =>
      rcases kept item List.mem_cons_self with ⟨entry, found, equal⟩
      rw [List.filterMap_cons_some found, List.map_cons, List.map_cons, equal,
        ih fun other member => kept other (List.mem_cons_of_mem _ member)]

/-- The entries kept for the groups carry the keys of the groups. -/
theorem map_filterMap_values {keep : List α → Option β} {view : β → κ}
    (kept : ∀ (wanted : κ) (group : List α), group ≠ [] →
      (∀ item ∈ group, key item = wanted) →
      ∃ entry, keep group = some entry ∧ view entry = wanted) :
    ((groupBy key items).values.filterMap keep).map view =
      (groupBy key items).keys := by
  have onEntries :
      ((groupBy key items).entries.filterMap fun entry => keep entry.2).map
          view =
        (groupBy key items).entries.map Prod.fst := by
    apply map_filterMap_of_forall_some
    intro entry member
    have group := groupBy_group member
    exact kept entry.1 entry.2 group.1
      fun item inside => (group.2 item inside).2
  rw [values, List.filterMap_map]
  exact onEntries

/-- The items of a list with strictly ascending keys are their own groups. -/
theorem entries_groupBy_of_sorted
    (sorted : items.Pairwise fun left right => key left < key right) :
    (groupBy key items).entries = items.map fun item => (key item, [item]) := by
  let singles : SortedMap κ (List α) :=
    ⟨items.map fun item => (key item, [item]), List.pairwise_map.2 sorted⟩
  have same : groupBy key items = singles := by
    ext1 wanted
    rw [get?_groupBy]
    simp only [singles, get?]
    induction items with
    | nil => rfl
    | cons item rest ih =>
        rcases List.pairwise_cons.1 sorted with ⟨above, tail⟩
        rw [List.map_cons, lookupEntries, List.filter_cons]
        by_cases equal : wanted = key item
        · have none : rest.filter (fun other => key other = wanted) = [] := by
            rw [List.filter_eq_nil_iff]
            intro other member
            have distinct := (above other member).ne'
            simpa [equal] using distinct
          rw [if_pos equal, none]
          simp [equal]
        · have different : ¬ key item = wanted := fun same =>
            equal same.symm
          simp only [different, decide_false, Bool.false_eq_true, if_false,
            if_neg equal]
          exact ih tail
  rw [same]

/-- Searching what distinct items keep finds what the item itself keeps. -/
theorem find?_filterMap {keep : α → Option β} {view : α → κ} {key : β → κ}
    (labelled : ∀ item entry, keep item = some entry → key entry = view item)
    (distinct : items.Pairwise fun left right => view left ≠ view right)
    {item : α} (member : item ∈ items) :
    (items.filterMap keep).find? (fun entry => key entry = view item) =
      keep item := by
  induction items with
  | nil => exact absurd member List.not_mem_nil
  | cons head rest ih =>
      rcases List.pairwise_cons.1 distinct with ⟨apart, tail⟩
      rcases List.mem_cons.1 member with rfl | inside
      · cases kept : keep item with
        | some entry =>
            have equal := labelled item entry kept
            rw [List.filterMap_cons_some kept, List.find?_cons_of_pos]
            simpa using equal
        | none =>
            rw [List.filterMap_cons_none kept, List.find?_eq_none]
            intro entry found
            rcases List.mem_filterMap.1 found with ⟨other, inside, keeps⟩
            have equal := labelled other entry keeps
            rw [equal]
            simpa using (apart other inside).symm
      · have different : view head ≠ view item := apart item inside
        cases kept : keep head with
        | some entry =>
            have equal := labelled head entry kept
            rw [List.filterMap_cons_some kept, List.find?_cons_of_neg]
            · exact ih tail inside
            · rw [equal]
              simpa using different
        | none =>
            rw [List.filterMap_cons_none kept]
            exact ih tail inside

theorem sum_map_le {low high : α → Nat}
    (below : ∀ item ∈ items, low item ≤ high item) :
    (items.map low).sum ≤ (items.map high).sum := by
  induction items with
  | nil => exact le_rfl
  | cons item rest ih =>
      have others := ih fun other member =>
        below other (List.mem_cons_of_mem item member)
      have first := below item List.mem_cons_self
      rw [List.map_cons, List.map_cons, List.sum_cons, List.sum_cons]
      omega

/-- Sums of termwise larger numbers agree only when all terms do. -/
theorem sum_map_eq_iff_of_le {low high : α → Nat}
    (below : ∀ item ∈ items, low item ≤ high item) :
    (items.map low).sum = (items.map high).sum ↔
      ∀ item ∈ items, low item = high item := by
  induction items with
  | nil => simp
  | cons item rest ih =>
      have others := fun other member =>
        below other (List.mem_cons_of_mem item member)
      have first := below item List.mem_cons_self
      have sums : (rest.map low).sum ≤ (rest.map high).sum := sum_map_le others
      rw [List.map_cons, List.map_cons, List.sum_cons, List.sum_cons,
        List.forall_mem_cons, ← ih others]
      constructor
      · intro equal
        constructor <;> omega
      · rintro ⟨firstEqual, restEqual⟩
        omega

end FireCrow.Library.SortedMap
