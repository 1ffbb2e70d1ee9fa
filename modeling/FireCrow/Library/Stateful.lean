import Mathlib

/-!
# Computations with a state that may fail

What a computation establishes from a state: a condition on its value and the
state it leaves, and another one on its error and the state it leaves.  A
failure keeps the state that it met.
-/

namespace FireCrow.Library.Stateful

variable {Error State Value Next : Type}

/-- From a state, a computation returns as the first condition says or fails as
the second one says. -/
def Yields (computation : EStateM Error State Value) (state : State)
    (returned : Value → State → Prop) (failed : Error → State → Prop) : Prop :=
  match computation.run state with
  | .ok value last => returned value last
  | .error error last => failed error last

section Rules

variable {state : State} {returned : Value → State → Prop}
  {failed : Error → State → Prop}

@[simp]
theorem yields_pure (value : Value) :
    Yields (pure value) state returned failed ↔ returned value state :=
  Iff.rfl

@[simp]
theorem yields_get {returned : State → State → Prop} :
    Yields (get : EStateM Error State State) state returned failed ↔
      returned state state :=
  Iff.rfl

@[simp]
theorem yields_set {returned : PUnit → State → Prop} (next : State) :
    Yields (set next : EStateM Error State PUnit) state returned failed ↔
      returned ⟨⟩ next :=
  Iff.rfl

@[simp]
theorem yields_modify {returned : PUnit → State → Prop}
    (change : State → State) :
    Yields (modify change : EStateM Error State PUnit) state returned failed ↔
      returned ⟨⟩ (change state) :=
  Iff.rfl

@[simp]
theorem yields_bind {returned : Next → State → Prop}
    (first : EStateM Error State Value)
    (next : Value → EStateM Error State Next) :
    Yields (first >>= next) state returned failed ↔
      Yields first state
        (fun value middle => Yields (next value) middle returned failed)
        failed := by
  unfold Yields
  rw [EStateM.run_bind]
  cases first.run state with
  | ok value middle => exact Iff.rfl
  | error error middle => exact Iff.rfl

@[simp]
theorem yields_map {returned : Next → State → Prop}
    (change : Value → Next) (first : EStateM Error State Value) :
    Yields (change <$> first) state returned failed ↔
      Yields first state (fun value => returned (change value)) failed := by
  unfold Yields
  rw [EStateM.run_map]
  cases first.run state with
  | ok value middle => exact Iff.rfl
  | error error middle => exact Iff.rfl

@[simp]
theorem yields_tryCatch (body : EStateM Error State Value)
    (handler : Error → EStateM Error State Value) :
    Yields (tryCatch body handler) state returned failed ↔
      Yields body state returned
        (fun error last => Yields (handler error) last returned failed) := by
  show (match (tryCatch body handler : EStateM Error State Value) state with
      | .ok value last => returned value last
      | .error error last => failed error last) ↔
    match body state with
    | .ok value last => returned value last
    | .error error last => Yields (handler error) last returned failed
  simp only [tryCatch, tryCatchThe, MonadExceptOf.tryCatch, EStateM.tryCatch]
  cases body state with
  | ok value last => exact Iff.rfl
  | error error last => exact Iff.rfl

theorem Yields.mono {computation : EStateM Error State Value}
    {returned' : Value → State → Prop} {failed' : Error → State → Prop}
    (yields : Yields computation state returned failed)
    (returning : ∀ value last, returned value last → returned' value last)
    (failing : ∀ error last, failed error last → failed' error last) :
    Yields computation state returned' failed' := by
  unfold Yields at yields ⊢
  cases run : computation.run state with
  | ok value last =>
      rw [run] at yields
      exact returning value last yields
  | error error last =>
      rw [run] at yields
      exact failing error last yields

theorem Yields.and {computation : EStateM Error State Value}
    {returned' : Value → State → Prop} {failed' : Error → State → Prop}
    (yields : Yields computation state returned failed)
    (yields' : Yields computation state returned' failed') :
    Yields computation state
      (fun value last => returned value last ∧ returned' value last)
      (fun error last => failed error last ∧ failed' error last) := by
  unfold Yields at yields yields' ⊢
  cases run : computation.run state with
  | ok | error =>
      rw [run] at yields yields'
      exact ⟨yields, yields'⟩

/-- Every computation ends. -/
theorem not_yields_false {computation : EStateM Error State Value} :
    ¬ Yields computation state (fun _ _ => False) (fun _ _ => False) := by
  unfold Yields
  split
  · exact id
  · exact id

end Rules

/-! ## Relations that every computation keeps -/

/-- However it ends, a computation moves the state along a relation, and it
fails only in the ways that are allowed. -/
def MovesFrom (relation : State → State → Prop) (allowed : Error → Prop)
    (computation : EStateM Error State Value) (state : State) : Prop :=
  Yields computation state (fun _ last => relation state last)
    (fun error last => allowed error ∧ relation state last)

/-- The same from every state. -/
def Moves (relation : State → State → Prop) (allowed : Error → Prop)
    (computation : EStateM Error State Value) : Prop :=
  ∀ state, MovesFrom relation allowed computation state

section Moves

variable {relation : State → State → Prop} {allowed : Error → Prop}

theorem moves_pure (refl : ∀ state, relation state state) (value : Value) :
    Moves relation allowed (pure value : EStateM Error State Value) :=
  fun state => refl state

theorem moves_throw (refl : ∀ state, relation state state) {error : Error}
    (right : allowed error) :
    Moves relation allowed (throw error : EStateM Error State Value) :=
  fun state => ⟨right, refl state⟩

theorem moves_modify {change : State → State}
    (moved : ∀ state, relation state (change state)) :
    Moves relation allowed (modify change : EStateM Error State PUnit) :=
  fun state => moved state

variable {first : EStateM Error State Value}

theorem MovesFrom.bind
    (trans : ∀ first middle last, relation first middle →
      relation middle last → relation first last)
    {next : Value → EStateM Error State Next} {state : State}
    (moves : MovesFrom relation allowed first state)
    (continued : ∀ value, Moves relation allowed (next value)) :
    MovesFrom relation allowed (first >>= next) state := by
  unfold MovesFrom
  rw [yields_bind]
  apply Yields.mono moves
  · intro value middle moved
    exact (continued value middle).mono
      (fun _ last moved' => trans _ _ last moved moved')
      (fun _ last failed => ⟨failed.1, trans _ _ last moved failed.2⟩)
  · exact fun error last failed => failed

theorem Moves.bind
    (trans : ∀ first middle last, relation first middle →
      relation middle last → relation first last)
    {next : Value → EStateM Error State Next}
    (moves : Moves relation allowed first)
    (continued : ∀ value, Moves relation allowed (next value)) :
    Moves relation allowed (first >>= next) :=
  fun state => (moves state).bind trans continued

/-- A look at the state, with what follows known to start from it. -/
theorem moves_get_bind {next : State → EStateM Error State Next}
    (continued : ∀ state, MovesFrom relation allowed (next state) state) :
    Moves relation allowed (get >>= next) :=
  fun state => continued state

theorem moves_ite {condition : Prop} [Decidable condition]
    {second : EStateM Error State Value} (holds : Moves relation allowed first)
    (fails : Moves relation allowed second) :
    Moves relation allowed (if condition then first else second) := by
  split
  · exact holds
  · exact fails

end Moves

/-! ## Conditions that hold wherever a computation returns -/

/-- Where it returns, a computation establishes a condition; how it fails is
left open. -/
def LeadsTo (computation : EStateM Error State Value) (state : State)
    (returned : Value → State → Prop) : Prop :=
  Yields computation state returned fun _ _ => True

/-- Where it returns, a computation keeps a condition on the state. -/
def Preserves (holds : State → Prop)
    (computation : EStateM Error State Value) : Prop :=
  ∀ state, holds state → LeadsTo computation state fun _ last => holds last

section Preserves

variable {holds : State → Prop} {state : State}

variable {computation : EStateM Error State Value}

theorem leadsTo_true : LeadsTo computation state fun _ _ => True := by
  unfold LeadsTo Yields
  split
  · trivial
  · trivial

theorem leadsTo_throw {returned : Value → State → Prop} (error : Error) :
    LeadsTo (throw error : EStateM Error State Value) state returned :=
  trivial

theorem LeadsTo.mono {returned returned' : Value → State → Prop}
    (leads : LeadsTo computation state returned)
    (returning : ∀ value last, returned value last → returned' value last) :
    LeadsTo computation state returned' :=
  Yields.mono leads returning fun _ _ failed => failed

variable {first : EStateM Error State Value}

theorem LeadsTo.bind {next : Value → EStateM Error State Next}
    {between : Value → State → Prop} {returned : Next → State → Prop}
    (leads : LeadsTo first state between)
    (continued : ∀ value middle, between value middle →
      LeadsTo (next value) middle returned) :
    LeadsTo (first >>= next) state returned := by
  unfold LeadsTo
  rw [yields_bind]
  exact leads.mono continued

theorem Yields.leadsTo
    {returned : Value → State → Prop} {failed : Error → State → Prop}
    (yields : Yields computation state returned failed) :
    LeadsTo computation state returned :=
  yields.mono (fun _ _ returned => returned) fun _ _ _ => trivial

theorem LeadsTo.of_run
    {returned : Value → State → Prop} {value : Value} {last : State}
    (leads : LeadsTo computation state returned)
    (run : computation.run state = .ok value last) : returned value last := by
  unfold LeadsTo Yields at leads
  rw [run] at leads
  exact leads

theorem preserves_pure (value : Value) :
    Preserves holds (pure value : EStateM Error State Value) :=
  fun _ kept => kept

theorem preserves_throw (error : Error) :
    Preserves holds (throw error : EStateM Error State Value) :=
  fun _ _ => trivial

theorem Preserves.bind {next : Value → EStateM Error State Next}
    (preserves : Preserves holds first)
    (continued : ∀ value, Preserves holds (next value)) :
    Preserves holds (first >>= next) :=
  fun state kept => (preserves state kept).bind fun value middle => continued value middle

theorem preserves_get_bind {next : State → EStateM Error State Next}
    (continued : ∀ state, holds state →
      LeadsTo (next state) state fun _ last => holds last) :
    Preserves holds (get >>= next) :=
  continued

theorem preserves_ite {condition : Prop} [Decidable condition]
    {second : EStateM Error State Value}
    (holding : Preserves holds first) (failing : Preserves holds second) :
    Preserves holds (if condition then first else second) := by
  split
  · exact holding
  · exact failing

end Preserves

end FireCrow.Library.Stateful
