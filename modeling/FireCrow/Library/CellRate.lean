import Mathlib.Data.List.Basic

/-!
# The generic cell rate algorithm

A bucket of `burst` cells into which one cell comes back in every `interval`.
The state is the theoretical arrival time; time is counted in whole numbers.
-/

namespace FireCrow.Library

structure Gcra where
  interval : Nat
  burst : Nat

/-- The instants in the half-open window of a length. -/
def inWindow (start length : Nat) (times : List Nat) : List Nat :=
  times.filter fun time => start ≤ time && time < start + length

namespace Gcra

variable (gcra : Gcra)

/-- There is a cell for a request at this instant. -/
def conforms (arrival : Option Nat) (now : Nat) : Bool :=
  arrival.getD now ≤ now + (gcra.burst - 1) * gcra.interval

/-- The theoretical arrival time after an admitted request. -/
def advance (arrival : Option Nat) (now : Nat) : Nat :=
  max (arrival.getD now) now + gcra.interval

/-- The requests that are admitted, of those at the given instants. -/
def admitted : Option Nat → List Nat → List Nat
  | _, [] => []
  | arrival, now :: later =>
      if gcra.conforms arrival now then
        now :: admitted (some (gcra.advance arrival now)) later
      else admitted arrival later

variable {gcra}

theorem advance_ge_now (arrival : Option Nat) (now : Nat) :
    now + gcra.interval ≤ gcra.advance arrival now := by
  have bound := Nat.le_max_right (arrival.getD now) now
  simp only [advance]
  omega

theorem advance_ge_arrival (arrival now : Nat) :
    arrival + gcra.interval ≤ gcra.advance (some arrival) now := by
  have bound := Nat.le_max_left arrival now
  simp only [advance, Option.getD_some]
  omega

/-- So many admitted requests since the start have moved the theoretical
arrival time. -/
def Spent (gcra : Gcra) (start count : Nat) (arrival : Option Nat) : Prop :=
  count = 0 ∨ ∃ time, arrival = some time ∧ start + count * gcra.interval ≤ time

variable {arrival : Option Nat} {start count : Nat}

theorem Spent.more
    (spent : gcra.Spent start count arrival) {now : Nat} (since : start ≤ now) :
    gcra.Spent start (count + 1) (some (gcra.advance arrival now)) := by
  refine .inr ⟨_, rfl, ?_⟩
  rw [Nat.add_one_mul]
  rcases spent with none | ⟨time, same, spent⟩
  · have least := gcra.advance_ge_now arrival now
    rw [none, Nat.zero_mul]
    omega
  · have least := gcra.advance_ge_arrival time now
    rw [same]
    omega

theorem Spent.later (spent : gcra.Spent start count arrival) (now : Nat) :
    gcra.Spent start count (some (gcra.advance arrival now)) := by
  rcases spent with none | ⟨time, same, spent⟩
  · exact .inl none
  · have least := gcra.advance_ge_arrival time now
    rw [same]
    exact .inr ⟨_, rfl, by omega⟩

variable {length : Nat}

/-- A request is admitted in the window only while the window has room. -/
theorem Spent.room {now : Nat} (spent : gcra.Spent start count arrival)
    (conforms : gcra.conforms arrival now = true) (within : now < start + length) :
    count = 0 ∨
      count * gcra.interval < length + (gcra.burst - 1) * gcra.interval := by
  rcases spent with none | ⟨time, same, spent⟩
  · exact .inl none
  · rw [same, Gcra.conforms, Option.getD_some, decide_eq_true_eq] at conforms
    exact .inr (by omega)

/-- What a window can hold bounds what is admitted in it. -/
theorem admitted_in_window {most : Nat} (positive : 0 < most)
    (holds : ∀ count,
      count * gcra.interval < length + (gcra.burst - 1) * gcra.interval →
        count < most)
    (times : List Nat) :
    ∀ {arrival : Option Nat} {count : Nat}, gcra.Spent start count arrival →
      count ≤ most →
        count + (inWindow start length (gcra.admitted arrival times)).length ≤
          most := by
  induction times with
  | nil =>
    intro arrival count _ bound
    exact bound
  | cons now later inductionHypothesis =>
    intro arrival count spent bound
    rw [admitted]
    split
    case isFalse => exact inductionHypothesis spent bound
    case isTrue conforms =>
      by_cases within : start ≤ now ∧ now < start + length
      · have room : count < most := by
          rcases spent.room conforms within.2 with none | room
          · rw [none]
            exact positive
          · exact holds count room
        have next := inductionHypothesis (spent.more within.1) room
        rw [inWindow, List.filter_cons_of_pos (by simpa using within),
          List.length_cons]
        rw [inWindow] at next
        omega
      · rw [inWindow, List.filter_cons_of_neg (by simpa using within)]
        exact inductionHypothesis (spent.later now) bound

/-- What a window can hold bounds what is ever admitted in it. -/
theorem admitted_in_window_le {most : Nat} (positive : 0 < most)
    (holds : ∀ count,
      count * gcra.interval < length + (gcra.burst - 1) * gcra.interval →
        count < most)
    (times : List Nat) :
    (inWindow start length (gcra.admitted none times)).length ≤ most := by
  have unspent : gcra.Spent start 0 none := .inl rfl
  have bound := admitted_in_window positive holds times unspent (Nat.zero_le most)
  rwa [Nat.zero_add] at bound

/-- Requests that are an interval apart are admitted. -/
theorem admitted_of_apart :
    ∀ {times : List Nat} {arrival : Option Nat},
      (∀ time, arrival = some time → ∀ now ∈ times, time ≤ now) →
      times.Pairwise (fun earlier later => earlier + gcra.interval ≤ later) →
        gcra.admitted arrival times = times
  | [], _, _, _ => rfl
  | now :: later, arrival, reached, apart => by
    have due : arrival.getD now ≤ now := by
      cases arrival with
      | none => exact Nat.le_refl now
      | some time => exact reached time rfl now List.mem_cons_self
    have conforms : gcra.conforms arrival now = true :=
      decide_eq_true (Nat.le_trans due (Nat.le_add_right _ _))
    have advanced : gcra.advance arrival now = now + gcra.interval := by
      rw [advance, Nat.max_eq_right due]
    rw [admitted, if_pos conforms, advanced]
    have steps := List.pairwise_cons.mp apart
    have reached : ∀ time, some (now + gcra.interval) = some time →
        ∀ next ∈ later, time ≤ next := by
      intro time same next member
      rw [← Option.some.inj same]
      exact steps.1 next member
    rw [admitted_of_apart reached steps.2]

end Gcra

end FireCrow.Library
