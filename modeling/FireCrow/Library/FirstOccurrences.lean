import FireCrow.Library.StableSort

/-!
# First occurrences

Keep the first item of every key.  What is kept of one key is the first item
with it, and a list whose keys are distinct is kept as a whole.
-/

namespace FireCrow.Library

variable {α κ : Type} [LinearOrder κ]

/-- The items whose keys have not been seen. -/
def firstsBy (key : α → κ) : List κ → List α → List α
  | _, [] => []
  | seen, item :: rest =>
      if key item ∈ seen then firstsBy key seen rest
      else item :: firstsBy key (key item :: seen) rest

/-- Of a key that was seen nothing is kept, of another the first item. -/
theorem filter_firstsBy (key : α → κ) (seen : List κ) (items : List α)
    (wanted : κ) :
    (firstsBy key seen items).filter (fun item => key item = wanted) =
      if wanted ∈ seen then []
      else (items.filter fun item => key item = wanted).take 1 := by
  induction items generalizing seen with
  | nil => simp [firstsBy]
  | cons item rest ih =>
      rw [firstsBy]
      by_cases same : key item = wanted
      · subst same
        split
        · rename_i old
          rw [ih, if_pos old]
        · rw [List.filter_cons_of_pos (by simp), ih,
            if_pos List.mem_cons_self, List.filter_cons_of_pos (by simp)]
          rfl
      · have passed : (item :: rest).filter (fun other => key other = wanted) =
            rest.filter fun other => key other = wanted :=
          List.filter_cons_of_neg (by simpa using same)
        have others : wanted ∈ key item :: seen ↔ wanted ∈ seen := by
          simp [Ne.symm same]
        rw [passed]
        split
        · exact ih seen
        · rw [List.filter_cons_of_neg (by simpa using same), ih]
          simp only [others]

variable {key : α → κ}

theorem firstsBy_eq_self {seen : List κ} {items : List α}
    (fresh : ∀ item ∈ items, key item ∉ seen)
    (distinct : (items.map key).Nodup) : firstsBy key seen items = items := by
  induction items generalizing seen with
  | nil => rfl
  | cons item rest ih =>
      rw [List.map_cons, List.nodup_cons] at distinct
      rw [firstsBy, if_neg (fresh item List.mem_cons_self), ih _ distinct.2]
      intro other inside seenOther
      rcases List.mem_cons.1 seenOther with same | old
      · exact distinct.1 (same ▸ List.mem_map_of_mem inside)
      · exact fresh other (List.mem_cons_of_mem _ inside) old

/-! ## After a stable sort -/

/-- The first item of every key, by ascending key. -/
def representatives (key : α → κ) (items : List α) : List α :=
  firstsBy key [] (sortBy key items)

theorem filter_representatives (key : α → κ) (items : List α) (wanted : κ) :
    (representatives key items).filter (fun item => key item = wanted) =
      (items.filter fun item => key item = wanted).take 1 := by
  rw [representatives, filter_firstsBy, if_neg List.not_mem_nil, filter_sortBy]

/-- The item that is kept of a key comes first among those with it. -/
theorem eq_of_mem_representatives {first kept : α}
    {rest : List α} (member : kept ∈ representatives key (first :: rest))
    (same : key kept = key first) : kept = first := by
  have inside : kept ∈ (representatives key (first :: rest)).filter
      fun item => key item = key first :=
    List.mem_filter.2 ⟨member, by simpa using same⟩
  rw [filter_representatives, List.filter_cons_of_pos (by simp)] at inside
  simpa using inside

theorem mem_representatives_cons (key : α → κ) (first : α) (rest : List α) :
    first ∈ representatives key (first :: rest) := by
  have kept : first ∈ (representatives key (first :: rest)).filter
      fun item => key item = key first := by
    rw [filter_representatives, List.filter_cons_of_pos (by simp)]
    exact List.mem_cons_self
  exact (List.mem_filter.1 kept).1

/-- With distinct keys nothing is left out. -/
theorem representatives_eq_sortBy {items : List α}
    (distinct : (items.map key).Nodup) :
    representatives key items = sortBy key items := by
  apply firstsBy_eq_self
  · exact fun _ _ => List.not_mem_nil
  · exact ((sortBy_perm key items).map _).nodup_iff.2 distinct

end FireCrow.Library
