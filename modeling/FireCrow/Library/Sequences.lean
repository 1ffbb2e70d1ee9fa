import FireCrow.Library.Interleaving

/-!
# Operations one after another

A sequence of operations runs each of them on the state that the one before
has left.  A statement may still fail, before or after its effect, and an
operation may stop anywhere.
-/

namespace FireCrow.Library

section Sequences

variable {State Statement : Type} {Reply : Statement → Type}
  {Error Operation Result Next : Type}

/-- A program has run so far, with nothing in between. -/
inductive Machine.Proceeds
    (machine : Machine State Statement Reply Error Operation) :
    Program Statement Reply Error Result → State → State → Prop where
  | stop {program state} : Proceeds machine program state state
  | ask {statement next state reply after last}
      (executes : machine.Executes state statement reply after)
      (continues : Proceeds machine (next reply) after last) :
      Proceeds machine (.ask statement next) state last

/-- Operations that meet a condition on the state before them, one after
another, with time between them. -/
inductive Machine.Moves
    (machine : Machine State Statement Reply Error Operation)
    (condition : State → Operation → Prop) : State → State → Prop where
  | operation {state after operation}
      (permitted : machine.permitted state operation)
      (met : condition state operation)
      (proceeds : machine.Proceeds (machine.program operation) state after) :
      Moves machine condition state after
  | elapse {state} (duration : Nat) :
      Moves machine condition state (machine.elapse state duration)

/-- A sequence of operations. -/
def Machine.Sequence (machine : Machine State Statement Reply Error Operation)
    (condition : State → Operation → Prop) : State → State → Prop :=
  Relation.ReflTransGen (machine.Moves condition)

/-- Nothing happens between the statements of a process. -/
def sequential
    (executes : State → (statement : Statement) → Reply statement → State → Prop)
    (requires : State → Statement → Prop) :
    Discipline State Statement Reply where
  executes := executes
  rely before after := after = before
  requires := requires
  rely_refl _ := rfl
  rely_trans := fun same later => later.trans same

/-- A program that is never interrupted proceeds to its end. -/
theorem Machine.proceeds_alone
    (machine : Machine State Statement Reply Error Operation)
    (program : Program Statement Reply Error Result) (state : State) :
    machine.Proceeds program state
      (program.alone machine.answer state).2 := by
  induction program generalizing state with
  | done result => exact .stop
  | ask statement next ih => exact .ask .answered (ih _ _)

variable {executes : State → (statement : Statement) → Reply statement →
    State → Prop}
  {requires : State → Statement → Prop}
  {ensures : State → Except Error Result → Prop}

theorem Program.safe_done {result : Except Error Result} {state : State}
    (ensured : ensures state result) :
    (Program.done result : Program Statement Reply Error Result).Safe
      (sequential executes requires) ensures state :=
  fun _ same => same ▸ ensured

theorem Program.safe_ask {statement : Statement}
    {next : Reply statement → Program Statement Reply Error Result}
    {state : State} (required : requires state statement)
    (continued : ∀ reply after, executes state statement reply after →
      (next reply).Safe (sequential executes requires) ensures after) :
    (Program.ask statement next).Safe (sequential executes requires) ensures
      state := by
  rintro _ rfl
  exact ⟨required, continued⟩

/-- What every required statement keeps, a safe program keeps. -/
theorem Program.Safe.proceeds
    {machine : Machine State Statement Reply Error Operation}
    (kept : State → Prop)
    (statement : ∀ {state statement}, requires state statement → kept state →
      kept (machine.answer state statement).2)
    {program : Program Statement Reply Error Result} {before after : State}
    (safe : program.Safe (sequential machine.Executes requires) ensures before)
    (proceeds : machine.Proceeds program before after) (start : kept before) :
    kept after := by
  induction proceeds with
  | stop => exact start
  | ask executes _ ih =>
      have here := safe _ rfl
      apply ih (here.2 _ _ executes)
      cases executes with
      | answered => exact statement here.1 start
      | failed => exact start
      | lost => exact statement here.1 start

/-- A program that is safe over a part of the state is safe over the whole. -/
theorem Program.Safe.lift {Narrow : Type} {WideReply : Narrow → Type}
    {WideState : Type} (part : WideState → State) {embed : Statement → Narrow}
    {reply : ∀ statement, WideReply (embed statement) → Reply statement}
    {wideExecutes : WideState → (statement : Narrow) → WideReply statement →
      WideState → Prop}
    {wideRequires : WideState → Narrow → Prop}
    (frame : WideState → WideState → Prop)
    (frame_refl : ∀ state, frame state state)
    (frame_trans : ∀ {first second third}, frame first second →
      frame second third → frame first third)
    (narrowed : ∀ {state statement answer after},
      wideExecutes state (embed statement) answer after →
        executes (part state) statement (reply statement answer) (part after) ∧
          frame state after)
    (required : ∀ {state statement}, requires (part state) statement →
      wideRequires state (embed statement))
    {program : Program Statement Reply Error Result} {state : WideState}
    (safe : program.Safe (sequential executes requires) ensures (part state)) :
    (program.lift embed reply).Safe (sequential wideExecutes wideRequires)
      (fun after result => ensures (part after) result ∧ frame state after)
      state := by
  induction program generalizing state with
  | done result => exact Program.safe_done ⟨safe _ rfl, frame_refl state⟩
  | ask statement next ih =>
      have here := safe _ rfl
      refine Program.safe_ask (required here.1) fun answer after ran => ?_
      have narrow := narrowed ran
      refine Program.Safe.mono (ih _ (here.2 _ _ narrow.1)) ?_
      rintro last result ⟨ensured, framed⟩
      exact ⟨ensured, frame_trans narrow.2 framed⟩

end Sequences

end FireCrow.Library
