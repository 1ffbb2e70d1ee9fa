import Mathlib

/-!
# Stable sorting by a key

`sortBy` is a stable sort: entries with equal keys keep the order they came
in.  Two facts characterise it.  The part of the output with a given key is
the part of the input with that key, and when equal keys force equal entries
the output depends only on the multiset of the input.
-/

namespace FireCrow.Library

variable {α β κ : Type} [LinearOrder κ]

/-- Stable sort by ascending key. -/
def sortBy (key : α → κ) (items : List α) : List α :=
  items.insertionSort fun left right => key left ≤ key right

instance keyOrder_total (key : α → κ) :
    Std.Total fun left right => key left ≤ key right :=
  ⟨fun left right => le_total (key left) (key right)⟩

instance keyOrder_trans (key : α → κ) :
    IsTrans α fun left right => key left ≤ key right :=
  ⟨fun _ _ _ first second => le_trans first second⟩

theorem sortBy_perm (key : α → κ) (items : List α) :
    (sortBy key items).Perm items :=
  List.perm_insertionSort _ items

variable {key : α → κ}

variable {items : List α}

@[simp]
theorem mem_sortBy {item : α} : item ∈ sortBy key items ↔ item ∈ items :=
  (sortBy_perm key items).mem_iff

@[simp]
theorem length_sortBy (key : α → κ) (items : List α) :
    (sortBy key items).length = items.length :=
  (sortBy_perm key items).length_eq

theorem pairwise_sortBy (key : α → κ) (items : List α) :
    (sortBy key items).Pairwise fun left right => key left ≤ key right :=
  List.pairwise_insertionSort _ items

theorem sortBy_eq_self
    (sorted : items.Pairwise fun left right => key left ≤ key right) :
    sortBy key items = items :=
  sorted.insertionSort_eq

theorem sortBy_map (key : β → κ) (view : α → β) (items : List α) :
    sortBy key (items.map view) =
      (sortBy (fun item => key (view item)) items).map view := by
  have mapped :=
    List.map_insertionSort
      (fun left right => key (view left) ≤ key (view right))
      (fun left right => key left ≤ key right) view items
      (fun _ _ _ _ => Iff.rfl)
  exact mapped.symm

/-! ## Stability -/

private theorem filter_orderedInsert (key : α → κ) (wanted : κ)
    (item : α) (items : List α) :
    (items.orderedInsert (fun left right => key left ≤ key right) item).filter
        (fun entry => key entry = wanted) =
      (item :: items).filter fun entry => key entry = wanted := by
  induction items with
  | nil => rfl
  | cons head rest ih =>
      rw [List.orderedInsert_cons]
      split
      · rfl
      · rename_i later
        have moved : ¬ (key item = wanted ∧ key head = wanted) := by
          rintro ⟨itemKey, headKey⟩
          exact later (le_of_eq (itemKey.trans headKey.symm))
        rw [List.filter_cons, ih, List.filter_cons, List.filter_cons,
          List.filter_cons]
        by_cases itemKey : key item = wanted
        · have headKey : key head ≠ wanted := fun equal =>
            moved ⟨itemKey, equal⟩
          simp [itemKey, headKey]
        · simp [itemKey]

/-- Entries with one key keep their order. -/
theorem filter_sortBy (key : α → κ) (wanted : κ) (items : List α) :
    (sortBy key items).filter (fun entry => key entry = wanted) =
      items.filter fun entry => key entry = wanted := by
  induction items with
  | nil => rfl
  | cons head rest ih =>
      have step := filter_orderedInsert key wanted head (sortBy key rest)
      rw [List.filter_cons, ih] at step
      rw [List.filter_cons]
      exact step

/-- The sort shows in which order two entries with one key came in. -/
theorem eq_of_sortBy_swap_eq {first second : α} {rest : List α}
    (sameKey : key first = key second)
    (same : sortBy key (first :: second :: rest) =
      sortBy key (second :: first :: rest)) :
    first = second := by
  have kept := congrArg
    (List.filter fun entry => key entry = key second) same
  rw [filter_sortBy, filter_sortBy] at kept
  simp only [List.filter_cons, sameKey, decide_true, if_true,
    List.cons.injEq] at kept
  exact kept.1

/-- When equal keys force equal entries, the order of the input is lost. -/
theorem sortBy_eq_of_perm {left right : List α} (permuted : left.Perm right)
    (separated : ∀ first ∈ left, ∀ second ∈ left,
      key first = key second → first = second) :
    sortBy key left = sortBy key right := by
  have sorted :
      (sortBy key left).Perm (sortBy key right) :=
    (sortBy_perm key left).trans
      (permuted.trans (sortBy_perm key right).symm)
  apply List.Perm.eq_of_pairwise ?_ (pairwise_sortBy key left)
    (pairwise_sortBy key right) sorted
  intro first second firstMem secondMem below above
  exact separated first (mem_sortBy.1 firstMem) second
    (permuted.mem_iff.2 (mem_sortBy.1 secondMem)) (le_antisymm below above)

/-! ## Removing repetitions -/

/-- Removing adjacent repetitions loses no value. -/
theorem mem_destutter_ne [DecidableEq α] {item : α} :
    item ∈ items.destutter (· ≠ ·) ↔ item ∈ items := by
  have fromHead : ∀ (rest : List α) (head : α),
      item ∈ rest.destutter' (· ≠ ·) head ↔ item ∈ head :: rest := by
    intro rest
    induction rest with
    | nil => intro head; rfl
    | cons next rest ih =>
        intro head
        rw [List.destutter'_cons]
        by_cases same : head = next
        · subst same
          rw [if_neg (not_not_intro rfl), ih]
          simp
        · simp only [if_pos same, List.mem_cons, ih]
  cases items with
  | nil => exact Iff.rfl
  | cons head rest => exact fromHead rest head

end FireCrow.Library
