import FireCrow.Library.Text

/-!
# Tables with row triggers

A table is the list of its rows in the order of their insertion.  An update
changes the rows that its condition selects and is refused as a whole when the
trigger refuses one of them.
-/

namespace FireCrow.Library.Table

variable {Row : Type*}

/-- Change the rows that are selected. -/
def set (selects : Row → Bool) (change : Row → Row) (rows : List Row) :
    List Row :=
  rows.map fun row => if selects row then change row else row

/-- An update under a trigger on every row it changes. -/
def update (trigger : Row → Row → Bool) (selects : Row → Bool)
    (change : Row → Row) (rows : List Row) : Option (List Row) :=
  if rows.all fun row => !selects row || trigger row (change row) then
    some (set selects change rows)
  else none

variable {change : Row → Row}

theorem update_eq_some {trigger : Row → Row → Bool} {selects : Row → Bool}
    {rows updated : List Row} :
    update trigger selects change rows = some updated ↔
      (∀ row ∈ rows, selects row = true → trigger row (change row) = true) ∧
        updated = set selects change rows := by
  unfold update
  split
  · rename_i permitted
    simp only [List.all_eq_true, Bool.or_eq_true, Bool.not_eq_true'] at permitted
    simp only [Option.some.injEq, eq_comm (a := updated), iff_and_self]
    intro _ row member selected
    exact (permitted row member).resolve_left (by simp [selected])
  · rename_i refused
    simp only [reduceCtorEq, false_iff, not_and]
    intro permitted
    refine absurd ?_ refused
    simp only [List.all_eq_true, Bool.or_eq_true, Bool.not_eq_true']
    intro row member
    cases selected : selects row
    · exact Or.inl rfl
    · exact Or.inr (permitted row member selected)

/-! ## Columns of text -/

/-- A value of a column `TEXT`. -/
def storedText (text : Text) : Option Text :=
  if '\x00' ∈ text then none else some text

/-- A value of a column `VARCHAR`: what is too long is refused, unless only
spaces are cut off. -/
def varchar (limit : Nat) (text : Text) : Option Text :=
  if (text.drop limit).all (· == ' ') then storedText (text.take limit)
  else none

/-- A text that fits is stored as it is. -/
theorem varchar_of_length_le {limit : Nat} {text : Text}
    (short : text.length ≤ limit) (clean : '\x00' ∉ text) :
    varchar limit text = some text := by
  rw [varchar, List.drop_of_length_le short, List.take_of_length_le short,
    storedText, if_neg clean]
  rfl

/-! ## Counting rows -/

/-- At most one row has a key under a unique index. -/
theorem countP_key_le_one {Key : Type*} [DecidableEq Key] {key : Row → Key}
    {rows : List Row} (unique : (rows.map key).Nodup) (value : Key) :
    rows.countP (fun row => key row = value) ≤ 1 := by
  have counted := List.nodup_iff_count_le_one.1 unique value
  rw [List.count_eq_countP, List.countP_map] at counted
  exact counted

theorem countP_or_le (left right : Row → Bool) (rows : List Row) :
    rows.countP (fun row => left row || right row) ≤
      rows.countP left + rows.countP right := by
  induction rows with
  | nil => exact le_refl _
  | cons row rows ih =>
      simp only [List.countP_cons]
      cases left row <;> cases right row <;> simp <;> omega

/-! ## Rows in pairs -/

section Pairs

variable {related : Row → Row → Prop} {rows : List Row}

variable {selects : Row → Bool}

/-- No two rows are selected exactly when at most one is. -/
theorem pairwise_iff_length_filter :
    (rows.Pairwise fun row other =>
        ¬ (selects row = true ∧ selects other = true)) ↔
      (rows.filter selects).length ≤ 1 := by
  induction rows with
  | nil => simp
  | cons row rows ih =>
      rw [List.pairwise_cons, ih, List.filter_cons]
      cases chosen : selects row with
      | false => simp
      | true =>
          simp only [true_and, if_true, List.length_cons]
          constructor
          · rintro ⟨others, _⟩
            have none : rows.filter selects = [] := by
              rw [List.filter_eq_nil_iff]
              exact others
            rw [none]
            exact le_refl _
          · intro single
            have none : rows.filter selects = [] :=
              List.length_eq_zero_iff.1 (by omega)
            rw [List.filter_eq_nil_iff] at none
            exact ⟨none, by omega⟩

/-- A row that is selected alone is found in every order of the rows. -/
theorem find?_perm {others : List Row}
    (single : (rows.filter selects).length ≤ 1) (same : rows.Perm others) :
    others.find? selects = rows.find? selects := by
  rw [← List.head?_filter, ← List.head?_filter]
  have filtered := same.filter selects
  cases shape : rows.filter selects with
  | nil =>
      rw [shape] at filtered
      rw [filtered.nil_eq]
  | cons row rest =>
      rw [shape, List.length_cons] at single
      obtain rfl : rest = [] := List.length_eq_zero_iff.1 (by omega)
      rw [shape] at filtered
      rw [List.perm_singleton.1 filtered.symm]

/-- A row of its own may change where it is related to the others. -/
theorem pairwise_set [Std.Symm related] (pairs : rows.Pairwise related)
    (single : rows.Pairwise fun row other =>
      ¬ (selects row = true ∧ selects other = true))
    (changed : ∀ row ∈ rows, selects row = true →
      ∀ other ∈ rows, selects other = false → related (change row) other) :
    (set selects change rows).Pairwise related := by
  rw [set, List.pairwise_map]
  apply (pairs.and single).imp_of_mem
  intro row other member inside both
  rcases both with ⟨kept, apart⟩
  cases first : selects row <;> cases second : selects other
  · simpa [first, second] using kept
  · simpa [first, second] using
      Std.Symm.symm _ _ (changed other inside second row member first)
  · simpa [first, second] using changed row member first other inside second
  · exact absurd ⟨first, second⟩ apart

/-- A row that is added is related to every other. -/
theorem pairwise_concat {added : Row} :
    (rows ++ [added]).Pairwise related ↔
      rows.Pairwise related ∧ ∀ row ∈ rows, related row added := by
  simp [List.pairwise_append]

end Pairs

/-! ## Rows that move on -/

/-- The rows are the same ones, each moved on. -/
abbrev Pointwise (moves : Row → Row → Prop) (before after : List Row) : Prop :=
  List.Forall₂ moves before after

variable {moves : Row → Row → Prop}

theorem Pointwise.refl (stays : ∀ row, moves row row) (rows : List Row) :
    Pointwise moves rows rows :=
  List.forall₂_same.2 fun row _ => stays row

theorem Pointwise.trans {first second third : List Row}
    (before : Pointwise moves first second)
    (after : Pointwise moves second third)
    (onward : ∀ {first second third}, moves first second →
      moves second third → moves first third) :
    Pointwise moves first third := by
  induction before generalizing third with
  | nil => exact after
  | cons head rest ih =>
      cases after with
      | cons later others => exact .cons (onward head later) (ih others)

/-- A count does not grow when no row starts to be counted. -/
theorem Pointwise.countP_le {counts : Row → Bool} {before after : List Row}
    (moved : Pointwise moves before after)
    (earlier : ∀ {before after}, moves before after → counts after = true →
      counts before = true) :
    after.countP counts ≤ before.countP counts := by
  induction moved with
  | nil => exact le_refl _
  | @cons first second others rest head _ ih =>
      rw [List.countP_cons, List.countP_cons]
      apply Nat.add_le_add ih
      by_cases counted : counts second = true
      · rw [if_pos counted, if_pos (earlier head counted)]
      · rw [if_neg counted]
        exact Nat.zero_le _

/-- Rows keep what their moves keep. -/
theorem Pointwise.map_eq {Value : Type*} {value : Row → Value}
    {before after : List Row} (moved : Pointwise moves before after)
    (kept : ∀ {before after}, moves before after → value after = value before) :
    after.map value = before.map value := by
  induction moved with
  | nil => rfl
  | cons head _ ih => rw [List.map_cons, List.map_cons, kept head, ih]

theorem Pointwise.map (rows : List Row)
    (changed : ∀ row, moves row (change row)) :
    Pointwise moves rows (rows.map change) :=
  List.forall₂_map_right_iff.2 (List.forall₂_same.2 fun row _ => changed row)

theorem Pointwise.modify (rows : List Row) (index : Nat)
    (stays : ∀ row, moves row row) (changed : ∀ row, moves row (change row)) :
    Pointwise moves rows (rows.modify index change) := by
  induction rows generalizing index with
  | nil =>
      rw [List.modify_nil]
      exact .nil
  | cons row rows ih =>
      cases index with
      | zero => exact .cons (changed row) (Pointwise.refl stays rows)
      | succ index => exact .cons (stays row) (ih index)

/-- A change of a row that does not make it count adds nothing. -/
theorem countP_modify_le_of {counts : Row → Bool}
    (rows : List Row) (index : Nat)
    (earlier : ∀ row, rows[index]? = some row → counts (change row) = true →
      counts row = true) :
    (rows.modify index change).countP counts ≤ rows.countP counts := by
  induction rows generalizing index with
  | nil =>
      rw [List.modify_nil]
  | cons row rows ih =>
      cases index with
      | zero =>
          rw [List.modify_zero_cons, List.countP_cons, List.countP_cons]
          apply Nat.add_le_add_left
          by_cases counted : counts (change row) = true
          · rw [if_pos counted, if_pos (earlier row rfl counted)]
          · rw [if_neg counted]
            exact Nat.zero_le _
      | succ index =>
          rw [List.modify_succ_cons, List.countP_cons, List.countP_cons]
          exact Nat.add_le_add_right (ih index earlier) _

/-- A change of one row makes one more row count at most. -/
theorem countP_modify_le (counts : Row → Bool) (change : Row → Row)
    (rows : List Row) (index : Nat) :
    (rows.modify index change).countP counts ≤ rows.countP counts + 1 := by
  induction rows generalizing index with
  | nil =>
      rw [List.modify_nil]
      exact Nat.zero_le _
  | cons row rows ih =>
      cases index with
      | zero =>
          simp only [List.modify_zero_cons, List.countP_cons]
          split <;> split <;> omega
      | succ index =>
          simp only [List.modify_succ_cons, List.countP_cons]
          have rest := ih index
          omega

end FireCrow.Library.Table
