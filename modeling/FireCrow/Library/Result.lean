import Mathlib

/-!
# Fallible computations

Inversion lemmas for computations that stop at the first error: a sequence
returns a value exactly when each of its steps does.
-/

namespace FireCrow.Library

variable {ε ζ α β : Type}

/-- Stop with an error when a condition holds. -/
def refuseIf (condition : Prop) [Decidable condition] (error : ε) :
    Except ε Unit :=
  if condition then .error error else .ok ()

namespace Result

@[simp]
theorem refuseIf_eq_ok (condition : Prop) [Decidable condition] (error : ε)
    (result : Unit) : refuseIf condition error = .ok result ↔ ¬ condition := by
  unfold refuseIf
  split <;> simp_all

theorem refuseIf_congr {left right : Prop} [Decidable left] [Decidable right]
    (same : left ↔ right) (error : ε) :
    refuseIf left error = refuseIf right error := by
  simp only [refuseIf, same]

@[simp]
theorem bind_eq_ok (first : Except ε α) (next : α → Except ε β) (result : β) :
    (first >>= next) = .ok result ↔
      ∃ value, first = .ok value ∧ next value = .ok result := by
  cases first with
  | error error => simp [bind, Except.bind]
  | ok value => simp [bind, Except.bind]

/-- A check, then what follows it. -/
theorem then_eq_ok (check : Except ε Unit) (next : Unit → Except ε β)
    (result : β) :
    (check >>= next) = .ok result ↔ check = .ok () ∧ next () = .ok result := by
  cases check with
  | error error => simp [bind, Except.bind]
  | ok value => simp [bind, Except.bind]

/-- A check of every item of a list. -/
theorem forM_eq_ok (items : List α) (check : α → Except ε Unit) :
    items.forM check = .ok () ↔ ∀ item ∈ items, check item = .ok () := by
  induction items with
  | nil => exact ⟨fun _ => nofun, fun _ => rfl⟩
  | cons item items ih =>
      rw [List.forM_eq_forM, List.forM_cons, then_eq_ok, ← List.forM_eq_forM,
        ih, List.forall_mem_cons]

theorem option_forM_eq_ok (item : Option α) (check : α → Except ε Unit) :
    item.forM check = .ok () ↔ ∀ value ∈ item, check value = .ok () := by
  cases item with
  | none => exact ⟨fun _ => nofun, fun _ => rfl⟩
  | some value => exact ⟨fun passed _ same => Option.some.inj same ▸ passed,
      fun passed => passed value rfl⟩

@[simp]
theorem pure_eq_ok (value result : α) :
    (pure value : Except ε α) = .ok result ↔ value = result := by
  simp [pure, Except.pure]

@[simp]
theorem mapError_eq_ok (change : ε → ζ) (computation : Except ε α)
    (result : α) :
    computation.mapError change = .ok result ↔ computation = .ok result := by
  cases computation <;> simp [Except.mapError]

@[simp]
theorem toOption_eq_some (computation : Except ε α) (result : α) :
    computation.toOption = some result ↔ computation = .ok result := by
  cases computation <;> simp [Except.toOption]

theorem exists_error_of_forall_ne_ok {computation : Except ε α}
    (fails : ∀ result, computation ≠ .ok result) :
    ∃ error, computation = .error error := by
  cases computation with
  | error error => exact ⟨error, rfl⟩
  | ok result => exact absurd rfl (fails result)

end Result

end FireCrow.Library
