import Mathlib

/-!
# Programs that interleave over one state

A program is a sequence of atomic statements, each chosen from the replies to
those before it.  Processes run such programs over one state: any process may
take its next statement at any time, crash before it, or start another
operation, and time passes in between.  A statement is answered, or the
connection fails, with or without its effect.

A discipline says what a process may rely on while others run and what each of
its statements requires.  `Program.Safe` is what a single program must satisfy
under it; `Sound.run` puts the processes together.
-/

namespace FireCrow.Library

/-- A row whose key is new may stand behind the others. -/
theorem nodup_keys_append {Row Key : Type} {rows : List Row} {row : Row}
    {key : Row → Key} (distinct : (rows.map key).Nodup)
    (fresh : ∀ earlier ∈ rows, key earlier ≠ key row) :
    ((rows ++ [row]).map key).Nodup := by
  rw [List.map_append, List.nodup_append]
  refine ⟨distinct, List.nodup_singleton _, ?_⟩
  intro earlier listed new added
  rcases List.mem_map.1 listed with ⟨other, member, rfl⟩
  rw [List.mem_singleton.1 added]
  exact fresh other member

/-- A sequential program over atomic statements. -/
inductive Program (Statement : Type) (Reply : Statement → Type)
    (Error Result : Type) where
  | done (result : Except Error Result)
  | ask (statement : Statement)
      (next : Reply statement → Program Statement Reply Error Result)

namespace Program

variable {Statement : Type} {Reply : Statement → Type}
  {Error Other Result Next : Type}

/-- Run one program after another; an error ends both. -/
def bind (next : Result → Program Statement Reply Error Next) :
    Program Statement Reply Error Result → Program Statement Reply Error Next
  | .done (.ok result) => next result
  | .done (.error error) => .done (.error error)
  | .ask statement rest => .ask statement fun reply => (rest reply).bind next

instance : Monad (Program Statement Reply Error) where
  pure result := .done (.ok result)
  bind program next := program.bind next

/-- Run a program and hand its error to the caller. -/
def attempt : Program Statement Reply Error Result →
    Program Statement Reply Other (Except Error Result)
  | .done result => .done (.ok result)
  | .ask statement rest => .ask statement fun reply => (rest reply).attempt

/-- End with an error. -/
def fail (error : Error) : Program Statement Reply Error Result :=
  .done (.error error)

/-- Run a program for its effect. -/
def discard (program : Program Statement Reply Error Result) :
    Program Statement Reply Error Unit :=
  program.bind fun _ => .done (.ok ())

end Program

/-! ## Machines -/

/-- What statements do, how operations are written in them and when an
operation may be started. -/
structure Machine (State Statement : Type) (Reply : Statement → Type)
    (Error Operation : Type) where
  answer : State → (statement : Statement) → Reply statement × State
  failure : (statement : Statement) → Reply statement
  elapse : State → Nat → State
  program : Operation → Program Statement Reply Error Unit
  permitted : State → Operation → Prop

section Runs

variable {State Statement : Type} {Reply : Statement → Type}
  {Error Operation : Type}

/-- A statement is answered, or the connection fails before or after it. -/
inductive Machine.Executes
    (machine : Machine State Statement Reply Error Operation) (state : State)
    (statement : Statement) : Reply statement → State → Prop where
  | answered : Executes machine state statement
      (machine.answer state statement).1 (machine.answer state statement).2
  | failed : Executes machine state statement (machine.failure statement) state
  | lost : Executes machine state statement (machine.failure statement)
      (machine.answer state statement).2

variable {machine : Machine State Statement Reply Error Operation}

/-- A reply is the answer, or the connection has failed. -/
theorem Machine.Executes.reply_cases
    {state after : State} {statement : Statement} {reply : Reply statement}
    (executes : machine.Executes state statement reply after) :
    machine.answer state statement = (reply, after) ∨
      reply = machine.failure statement := by
  cases executes with
  | answered => exact .inl rfl
  | failed | lost => exact .inr rfl

/-- The state is as it was, or as the statement leaves it. -/
theorem Machine.Executes.after_cases
    {state after : State} {statement : Statement} {reply : Reply statement}
    (executes : machine.Executes state statement reply after) :
    after = state ∨ after = (machine.answer state statement).2 := by
  cases executes with
  | answered => exact .inr rfl
  | failed => exact .inl rfl
  | lost => exact .inr rfl

/-- A state with the processes that run over it. -/
structure Config (State Statement : Type) (Reply : Statement → Type)
    (Error : Type) where
  state : State
  processes : Nat → Option (Program Statement Reply Error Unit)

/-- What happens in one step. -/
inductive Event (Statement : Type) (Reply : Statement → Type)
    (Operation : Type) where
  | called (process : Nat) (operation : Operation)
  | executed (process : Nat) (statement : Statement) (reply : Reply statement)
  | crashed (process : Nat)
  | elapsed

/-- One step of one process, or of the clock. -/
inductive Machine.Step
    (machine : Machine State Statement Reply Error Operation) :
    Config State Statement Reply Error → Event Statement Reply Operation →
      Config State Statement Reply Error → Prop where
  | call {config process operation} (free : config.processes process = none)
      (permitted : machine.permitted config.state operation) :
      Step machine config (.called process operation)
        ⟨config.state, Function.update config.processes process
          (some (machine.program operation))⟩
  | execute {config process statement next reply after}
      (running : config.processes process = some (.ask statement next))
      (executes : machine.Executes config.state statement reply after) :
      Step machine config (.executed process statement reply)
        ⟨after, Function.update config.processes process (some (next reply))⟩
  | crash {config process} :
      Step machine config (.crashed process)
        ⟨config.state, Function.update config.processes process none⟩
  | elapse {config} (duration : Nat) :
      Step machine config .elapsed
        ⟨machine.elapse config.state duration, config.processes⟩

/-- A condition on the steps of a run. -/
abbrev Condition (State Statement : Type) (Reply : Statement → Type)
    (Operation : Type) :=
  State → Event Statement Reply Operation → State → Prop

/-- A run whose steps all meet a condition. -/
def Machine.Run (machine : Machine State Statement Reply Error Operation)
    (condition : Condition State Statement Reply Operation) :
    Config State Statement Reply Error →
      Config State Statement Reply Error → Prop :=
  Relation.ReflTransGen fun before after =>
    ∃ event, machine.Step before event after ∧
      condition before.state event after.state

/-- The condition that every step meets. -/
def anyStep : Condition State Statement Reply Operation := fun _ _ _ => True

theorem Machine.Run.mono
    {condition weaker : Condition State Statement Reply Operation}
    {before after : Config State Statement Reply Error}
    (run : machine.Run condition before after)
    (implies : ∀ state event next, condition state event next →
      weaker state event next) :
    machine.Run weaker before after := by
  refine Relation.ReflTransGen.mono ?_ _ _ run
  rintro _ _ ⟨event, step, met⟩
  exact ⟨event, step, implies _ _ _ met⟩

/-- What every statement and the clock keep, a run keeps. -/
theorem Machine.Run.keeps
    {condition : Condition State Statement Reply Operation}
    {before after : Config State Statement Reply Error}
    (run : machine.Run condition before after) (kept : State → Prop)
    (statement : ∀ {state process statement reply},
      condition state (.executed process statement reply)
        (machine.answer state statement).2 →
        kept state → kept (machine.answer state statement).2)
    (time : ∀ {state} duration, kept state → kept (machine.elapse state duration))
    (start : kept before.state) : kept after.state := by
  induction run with
  | refl => exact start
  | tail _ moves ih =>
      rcases moves with ⟨event, step, met⟩
      cases step with
      | call => exact ih
      | execute _ executes =>
          cases executes with
          | answered => exact statement met ih
          | failed => exact ih
          | lost => exact statement met ih
      | crash => exact ih
      | elapse duration => exact time duration ih

end Runs

/-! ## Disciplines -/

/-- What a process relies on and what each of its statements requires. -/
structure Discipline (State Statement : Type) (Reply : Statement → Type) where
  executes : State → (statement : Statement) → Reply statement → State → Prop
  rely : State → State → Prop
  requires : State → Statement → Prop
  rely_refl : ∀ state, rely state state
  rely_trans : ∀ {first second third},
    rely first second → rely second third → rely first third

namespace Program

variable {State Statement : Type} {Reply : Statement → Type}
  {Error Result Next Other : Type}

/-- Whatever others do within the rely, every statement of the program is
issued where it is required, and the result is as ensured. -/
def Safe (discipline : Discipline State Statement Reply)
    (ensures : State → Except Error Result → Prop) :
    Program Statement Reply Error Result → State → Prop
  | .done result, state =>
      ∀ later, discipline.rely state later → ensures later result
  | .ask statement next, state =>
      ∀ later, discipline.rely state later →
        discipline.requires later statement ∧
          ∀ reply after, discipline.executes later statement reply after →
            (next reply).Safe discipline ensures after

variable {discipline : Discipline State Statement Reply}
  {ensures : State → Except Error Result → Prop}

variable {program : Program Statement Reply Error Result}

theorem Safe.later
    {state later : State} (safe : program.Safe discipline ensures state)
    (relied : discipline.rely state later) :
    program.Safe discipline ensures later := by
  cases program with
  | done | ask =>
      exact fun last reached => safe last (discipline.rely_trans relied reached)

variable {state : State}

section

variable (safe : program.Safe discipline ensures state)
include safe

theorem Safe.bind {next : Result → Program Statement Reply Error Next}
    {final : State → Except Error Next → Prop}
    (failed : ∀ state error, ensures state (.error error) →
      final state (.error error))
    (continued : ∀ state result, ensures state (.ok result) →
      (next result).Safe discipline final state) :
    (program.bind next).Safe discipline final state := by
  induction program generalizing state with
  | done result =>
      cases result with
      | error error =>
          exact fun later relied => failed later error (safe later relied)
      | ok result =>
          exact continued state result (safe state (discipline.rely_refl state))
  | ask statement rest ih =>
      intro later relied
      rcases safe later relied with ⟨required, answered⟩
      exact ⟨required, fun reply after executes =>
        ih reply (answered reply after executes)⟩

theorem Safe.attempt {final : State → Except Other (Except Error Result) → Prop}
    (handed : ∀ state result, ensures state result → final state (.ok result)) :
    (program.attempt).Safe discipline final state := by
  induction program generalizing state with
  | done result => exact fun later relied => handed _ _ (safe later relied)
  | ask statement rest ih =>
      intro later relied
      rcases safe later relied with ⟨required, answered⟩
      exact ⟨required, fun reply after executes =>
        ih reply (answered reply after executes)⟩

theorem Safe.mono {weaker : State → Except Error Result → Prop}
    (implies : ∀ state result, ensures state result → weaker state result) :
    program.Safe discipline weaker state := by
  induction program generalizing state with
  | done result => exact fun later relied => implies _ _ (safe later relied)
  | ask statement rest ih =>
      intro later relied
      rcases safe later relied with ⟨required, answered⟩
      exact ⟨required, fun reply after executes =>
        ih reply (answered reply after executes)⟩

/-- Where every statement keeps to the rely, so does a program. -/
theorem Safe.relied
    (steps : ∀ {state statement reply after},
      discipline.executes state statement reply after →
        discipline.rely state after) :
    program.Safe discipline
      (fun after result => ensures after result ∧ discipline.rely state after)
      state := by
  induction program generalizing state with
  | done result => exact fun later relied => ⟨safe later relied, relied⟩
  | ask statement rest ih =>
      intro later relied
      rcases safe later relied with ⟨required, answered⟩
      refine ⟨required, fun reply after executes => ?_⟩
      apply (ih reply (answered reply after executes)).mono
      rintro last result ⟨ensured, onward⟩
      exact ⟨ensured, discipline.rely_trans relied
        (discipline.rely_trans (steps executes) onward)⟩

end

/-- What the rely and every required statement keep, a program keeps. -/
theorem Safe.keeping {known : State → Prop}
    (relied : ∀ {state later}, discipline.rely state later → known state →
      known later)
    (executed : ∀ {state statement reply after},
      discipline.requires state statement →
        discipline.executes state statement reply after → known state →
          known after)
    (safe : program.Safe discipline ensures state) (holds : known state) :
    program.Safe discipline (fun after result => ensures after result ∧ known after)
      state := by
  induction program generalizing state with
  | done result =>
      exact fun later reached => ⟨safe later reached, relied reached holds⟩
  | ask statement rest ih =>
      intro later reached
      rcases safe later reached with ⟨required, answered⟩
      exact ⟨required, fun reply after executes =>
        ih reply (answered reply after executes)
          (executed required executes (relied reached holds))⟩

/-- Every statement that the program may issue is among these. -/
def Asks (among : Statement → Prop) :
    Program Statement Reply Error Result → Prop
  | .done _ => True
  | .ask statement next => among statement ∧ ∀ reply, (next reply).Asks among

variable {among : Statement → Prop}

theorem Asks.bind {next : Result → Program Statement Reply Error Next}
    (asks : program.Asks among) (continued : ∀ result, (next result).Asks among) :
    (program.bind next).Asks among := by
  induction program with
  | done result =>
      cases result with
      | error error => trivial
      | ok result => exact continued result
  | ask statement rest ih => exact ⟨asks.1, fun reply => ih reply (asks.2 reply)⟩

theorem Asks.attempt (asks : program.Asks among) :
    (program.attempt : Program Statement Reply Other _).Asks among := by
  induction program with
  | done result => trivial
  | ask statement rest ih => exact ⟨asks.1, fun reply => ih reply (asks.2 reply)⟩

theorem Asks.mono {wider : Statement → Prop} (asks : program.Asks among)
    (implies : ∀ statement, among statement → wider statement) :
    program.Asks wider := by
  induction program with
  | done result => trivial
  | ask statement rest ih =>
      exact ⟨implies statement asks.1, fun reply => ih reply (asks.2 reply)⟩

/-- A program is safe when its statements are required nothing. -/
theorem Asks.safe
    (asks : program.Asks fun statement =>
      ∀ state, discipline.requires state statement) (state : State) :
    program.Safe discipline (fun _ _ => True) state := by
  induction program generalizing state with
  | done result => exact fun _ _ => trivial
  | ask statement rest ih =>
      intro later _
      exact ⟨asks.1 later, fun reply after _ => ih reply (asks.2 reply) after⟩

/-- Where every statement is allowed, so are those of a program. -/
theorem Asks.any (program : Program Statement Reply Error Result)
    (all : ∀ statement, among statement) : program.Asks among := by
  induction program with
  | done result => trivial
  | ask statement rest ih => exact ⟨all statement, ih⟩

/-- A program is safe when its statements are required no more than what is
known, which lasts. -/
theorem Asks.safe_known {known : State → Prop}
    (relied : ∀ {state later}, discipline.rely state later → known state →
      known later)
    (executed : ∀ {state statement reply after},
      discipline.executes state statement reply after → known state →
        known after)
    (asks : program.Asks fun statement =>
      ∀ state, known state → discipline.requires state statement)
    (holds : known state) :
    program.Safe discipline (fun after _ => known after) state := by
  induction program generalizing state with
  | done result => exact fun later reached => relied reached holds
  | ask statement rest ih =>
      intro later reached
      have kept := relied reached holds
      exact ⟨asks.1 later kept, fun reply after executes =>
        ih reply (asks.2 reply) (executed executes kept)⟩

/-- Run a program among further statements. -/
def lift {Wide : Type} {WideReply : Wide → Type} (embed : Statement → Wide)
    (reply : ∀ statement, WideReply (embed statement) → Reply statement) :
    Program Statement Reply Error Result → Program Wide WideReply Error Result
  | .done result => .done result
  | .ask statement next => .ask (embed statement) fun answer =>
      (next (reply statement answer)).lift embed reply

/-- A program that is safe over a part of the state is safe among further
statements over the whole. -/
theorem Safe.embed {Wide WideState : Type} {WideReply : Wide → Type}
    {embed : Statement → Wide}
    {reply : ∀ statement, WideReply (embed statement) → Reply statement}
    {wide : Discipline WideState Wide WideReply} (part : WideState → State)
    (relied : ∀ {state later}, wide.rely state later →
      discipline.rely (part state) (part later))
    (executed : ∀ {state statement answer after},
      wide.executes state (embed statement) answer after →
        discipline.executes (part state) statement (reply statement answer)
          (part after))
    (required : ∀ {state statement}, discipline.requires (part state) statement →
      wide.requires state (embed statement))
    {state : WideState} (safe : program.Safe discipline ensures (part state)) :
    (program.lift embed reply).Safe wide
      (fun after result => ensures (part after) result) state := by
  induction program generalizing state with
  | done result => exact fun later reached => safe _ (relied reached)
  | ask statement rest ih =>
      intro later reached
      rcases safe _ (relied reached) with ⟨here, answered⟩
      exact ⟨required here, fun answer after executes =>
        ih _ (answered _ _ (executed executes))⟩

theorem Asks.lift {Wide : Type} {WideReply : Wide → Type}
    {embed : Statement → Wide}
    {reply : ∀ statement, WideReply (embed statement) → Reply statement}
    {wide : Wide → Prop}
    (asks : program.Asks fun statement => wide (embed statement)) :
    (program.lift embed reply).Asks wide := by
  induction program with
  | done result => trivial
  | ask statement rest ih =>
      exact ⟨asks.1, fun answer => ih _ (asks.2 _)⟩

end Program

section Soundness

variable {State Statement : Type} {Reply : Statement → Type}
  {Error Operation : Type}
  {machine : Machine State Statement Reply Error Operation}

/-- An invariant that every required statement keeps, within the rely. -/
structure Guarantees (machine : Machine State Statement Reply Error Operation)
    (discipline : Discipline State Statement Reply) (inv : State → Prop) :
    Prop where
  executes : ∀ {state statement reply after},
    machine.Executes state statement reply after →
      discipline.executes state statement reply after
  operation : ∀ {state operation}, inv state →
    machine.permitted state operation →
      (machine.program operation).Safe discipline (fun _ _ => True) state
  statement : ∀ {state statement}, inv state →
    discipline.requires state statement →
      inv (machine.answer state statement).2 ∧
        discipline.rely state (machine.answer state statement).2
  time : ∀ {state} duration, inv state →
    inv (machine.elapse state duration) ∧
      discipline.rely state (machine.elapse state duration)

/-- The invariant holds and every process is safe. -/
structure Sound (discipline : Discipline State Statement Reply)
    (inv : State → Prop) (config : Config State Statement Reply Error) :
    Prop where
  inv : inv config.state
  safe : ∀ process program, config.processes process = some program →
    program.Safe discipline (fun _ _ => True) config.state

variable {discipline : Discipline State Statement Reply} {inv : State → Prop}
  {before after : Config State Statement Reply Error}

/-- A statement is issued only where it is required. -/
theorem Sound.required (sound : Sound discipline inv before)
    {process : Nat} {statement : Statement} {reply : Reply statement}
    (step : machine.Step before (.executed process statement reply) after) :
    discipline.requires before.state statement := by
  cases step with
  | execute running _ =>
      exact (sound.safe process _ running _
        (discipline.rely_refl _)).1

/-- The same where the steps meet a condition, which may rule out failures. -/
structure GuaranteesUnder
    (machine : Machine State Statement Reply Error Operation)
    (discipline : Discipline State Statement Reply)
    (condition : Condition State Statement Reply Operation)
    (inv : State → Prop) : Prop where
  executes : ∀ {state process statement reply after}, inv state →
    condition state (.executed process statement reply) after →
      machine.Executes state statement reply after →
        discipline.executes state statement reply after
  operation : ∀ {state operation}, inv state →
    machine.permitted state operation →
      (machine.program operation).Safe discipline (fun _ _ => True) state
  statement : ∀ {state process statement reply}, inv state →
    discipline.requires state statement →
      condition state (.executed process statement reply)
        (machine.answer state statement).2 →
      inv (machine.answer state statement).2 ∧
        discipline.rely state (machine.answer state statement).2
  time : ∀ {state} duration, inv state →
    inv (machine.elapse state duration) ∧
      discipline.rely state (machine.elapse state duration)

theorem Guarantees.under (guarantees : Guarantees machine discipline inv)
    (condition : Condition State Statement Reply Operation) :
    GuaranteesUnder machine discipline condition inv where
  executes := fun _ _ executes => guarantees.executes executes
  operation := guarantees.operation
  statement := fun holds required _ => guarantees.statement holds required
  time := guarantees.time

variable {condition : Condition State Statement Reply Operation}

section

variable (guarantees : GuaranteesUnder machine discipline condition inv)
include guarantees

/-- What a step guarantees to the other processes. -/
theorem GuaranteesUnder.effect
    {state next : State} {process : Nat} {statement : Statement}
    {reply : Reply statement} (holds : inv state)
    (required : discipline.requires state statement)
    (met : condition state (.executed process statement reply) next)
    (executes : machine.Executes state statement reply next) :
    inv next ∧ discipline.rely state next := by
  cases executes with
  | answered | lost => exact guarantees.statement holds required met
  | failed => exact ⟨holds, discipline.rely_refl state⟩

/-- One step that meets the condition keeps a configuration sound. -/
theorem Sound.stepUnder (sound : Sound discipline inv before)
    {event : Event Statement Reply Operation}
    (step : machine.Step before event after)
    (met : condition before.state event after.state) :
    Sound discipline inv after := by
  cases step with
  | @call process operation free permitted =>
      refine ⟨sound.inv, fun other program running => ?_⟩
      by_cases same : other = process
      · subst same
        simp only [Function.update_self, Option.some.injEq] at running
        exact running ▸ guarantees.operation sound.inv permitted
      · simp only [Function.update_of_ne same] at running
        exact sound.safe other program running
  | @execute process statement next reply later running executes =>
      have needed := (sound.safe process _ running _
        (discipline.rely_refl _)).1
      rcases guarantees.effect sound.inv needed met executes with
        ⟨kept, relied⟩
      refine ⟨kept, fun other program continued => ?_⟩
      by_cases same : other = process
      · subst same
        simp only [Function.update_self, Option.some.injEq] at continued
        exact continued ▸ (sound.safe other _ running _
          (discipline.rely_refl _)).2 reply later
            (guarantees.executes sound.inv met executes)
      · simp only [Function.update_of_ne same] at continued
        exact (sound.safe other program continued).later relied
  | @crash process =>
      refine ⟨sound.inv, fun other program running => ?_⟩
      by_cases same : other = process
      · subst same
        simp at running
      · simp only [Function.update_of_ne same] at running
        exact sound.safe other program running
  | elapse duration =>
      rcases guarantees.time duration sound.inv with ⟨kept, relied⟩
      exact ⟨kept, fun other program running =>
        (sound.safe other program running).later relied⟩

/-- Every run whose steps meet the condition keeps a configuration sound. -/
theorem Sound.runUnder (sound : Sound discipline inv before)
    (run : machine.Run condition before after) :
    Sound discipline inv after := by
  induction run with
  | refl => exact sound
  | tail _ moves ih =>
      rcases moves with ⟨event, step, met⟩
      exact ih.stepUnder guarantees step met

end

section

variable (guarantees : Guarantees machine discipline inv)
include guarantees

/-- One step keeps a configuration sound. -/
theorem Sound.step (sound : Sound discipline inv before)
    {event : Event Statement Reply Operation}
    (step : machine.Step before event after) : Sound discipline inv after :=
  sound.stepUnder (guarantees.under anyStep) step trivial

/-- Every run keeps a configuration sound. -/
theorem Sound.run (sound : Sound discipline inv before)
    (run : machine.Run condition before after) : Sound discipline inv after :=
  sound.runUnder (guarantees.under condition) run

/-- What every required statement and the clock keep, a run keeps. -/
theorem Sound.keeps (kept : State → Prop) (sound : Sound discipline inv before)
    (statement : ∀ {state process statement reply}, inv state →
      discipline.requires state statement →
        condition state (.executed process statement reply)
          (machine.answer state statement).2 →
          kept state → kept (machine.answer state statement).2)
    (time : ∀ {state} duration, inv state → kept state →
      kept (machine.elapse state duration))
    (run : machine.Run condition before after) (start : kept before.state) :
    kept after.state := by
  induction run with
  | refl => exact start
  | @tail between last head moves ih =>
      have middle := sound.run guarantees head
      rcases moves with ⟨event, step, met⟩
      cases step with
      | call => exact ih
      | execute running executes =>
          have required := (middle.safe _ _ running _
            (discipline.rely_refl _)).1
          cases executes with
          | answered | lost => exact statement middle.inv required met ih
          | failed => exact ih
      | crash => exact ih
      | elapse duration => exact time duration middle.inv ih

end

end Soundness

/-! ## Statements that may be refused -/

section Refusals

variable {State Statement Error Fault Operation : Type}
  {Answer : Statement → Type}

/-- What a statement answers and does, or the error that refuses it. -/
abbrev Execution (State Statement Error : Type) (Answer : Statement → Type) :=
  State → (statement : Statement) → Except Error (Answer statement × State)

variable
  {machine : Machine State Statement
    (fun statement => Except Error (Answer statement)) Fault Operation}
  {run : Execution State Statement Error Answer}

/-- A refused statement leaves the state, and a connection fails with an
error. -/
structure Machine.Runs
    (machine : Machine State Statement
      (fun statement => Except Error (Answer statement)) Fault Operation)
    (run : Execution State Statement Error Answer) : Prop where
  answered : ∀ {state statement answer after},
    run state statement = .ok (answer, after) →
      machine.answer state statement = (.ok answer, after)
  refused : ∀ {state statement error}, run state statement = .error error →
    machine.answer state statement = (.error error, state)
  failed : ∀ statement, ∃ error, machine.failure statement = .error error

/-- A statement succeeds, or it leaves the state. -/
theorem Machine.Runs.cases (runs : machine.Runs run) (state : State)
    (statement : Statement) :
    (∃ answer after, run state statement = .ok (answer, after) ∧
      machine.answer state statement = (.ok answer, after)) ∨
    ∃ error, run state statement = .error error ∧
      machine.answer state statement = (.error error, state) := by
  cases outcome : run state statement with
  | error error => exact .inr ⟨error, rfl, runs.refused outcome⟩
  | ok result => exact .inl ⟨result.1, result.2, rfl, runs.answered outcome⟩

/-- An answer comes from a run of the statement. -/
theorem Machine.Runs.executes (runs : machine.Runs run)
    {state after : State} {statement : Statement} {answer : Answer statement}
    (executes : machine.Executes state statement (.ok answer) after) :
    run state statement = .ok (answer, after) := by
  rcases executes.reply_cases with replied | failed
  · rcases runs.cases state statement with
      ⟨given, later, success, answered⟩ | ⟨error, _, answered⟩
    · rw [answered] at replied
      cases replied
      exact success
    · rw [answered] at replied
      cases replied
  · rcases runs.failed statement with ⟨fault, failure⟩
    rw [failure] at failed
    cases failed

end Refusals

/-! ## A program alone -/

section Alone

variable {State Statement : Type} {Reply : Statement → Type}
  {Error Result : Type}
  {answer : State → (statement : Statement) → Reply statement × State}

/-- Run a program with nothing in between. -/
def Program.alone
    (answer : State → (statement : Statement) → Reply statement × State) :
    Program Statement Reply Error Result → State → Except Error Result × State
  | .done result, state => (result, state)
  | .ask statement next, state =>
      (next (answer state statement).1).alone answer (answer state statement).2

/-- What a program returns alone is handed on. -/
theorem Program.alone_bind {Next : Type}
    {program : Program Statement Reply Error Result}
    {next : Result → Program Statement Reply Error Next}
    {state after : State} {result : Result}
    (returned : program.alone answer state = (.ok result, after)) :
    (program.bind next).alone answer state = (next result).alone answer after := by
  induction program generalizing state with
  | done outcome =>
      cases returned
      rfl
  | ask statement rest ih => exact ih _ returned

/-- An error ends both programs. -/
theorem Program.alone_bind_error {Next : Type}
    {program : Program Statement Reply Error Result}
    {next : Result → Program Statement Reply Error Next}
    {state after : State} {error : Error}
    (returned : program.alone answer state = (.error error, after)) :
    (program.bind next).alone answer state = (.error error, after) := by
  induction program generalizing state with
  | done outcome =>
      cases returned
      rfl
  | ask statement rest ih => exact ih _ returned

theorem Program.alone_attempt {Other : Type}
    (program : Program Statement Reply Error Result) (state : State) :
    (program.attempt : Program Statement Reply Other _).alone answer state =
      (.ok (program.alone answer state).1, (program.alone answer state).2) := by
  induction program generalizing state with
  | done outcome => rfl
  | ask statement rest ih => exact ih _ _

end Alone

/-! ## Every environment -/

section Traces

variable {Statement : Type} {Reply : Statement → Type}
  {Error Result Next : Type}

/-- A program runs to its end, and each statement gets some reply. -/
inductive Program.Trace : Program Statement Reply Error Result →
    List (Sigma Reply) → Except Error Result → Prop where
  | done {result} : Trace (.done result) [] result
  | ask {statement next} (reply : Reply statement) {rest result}
      (continues : Trace (next reply) rest result) :
      Trace (.ask statement next) (⟨statement, reply⟩ :: rest) result

/-- A trace of two programs is a trace of the first, then one of the second
where the first has succeeded. -/
theorem Program.Trace.bind {program : Program Statement Reply Error Result}
    {next : Result → Program Statement Reply Error Next}
    {trace : List (Sigma Reply)} {final : Except Error Next}
    (ran : (program.bind next).Trace trace final) :
    (∃ error, program.Trace trace (.error error) ∧ final = .error error) ∨
      ∃ first second result, program.Trace first (.ok result) ∧
        (next result).Trace second final ∧ trace = first ++ second := by
  induction program generalizing trace with
  | done outcome =>
      cases outcome with
      | error error =>
          cases ran
          exact .inl ⟨error, .done, rfl⟩
      | ok result => exact .inr ⟨[], trace, result, .done, ran, rfl⟩
  | ask statement rest ih =>
      cases ran with
      | ask reply continues =>
          rcases ih reply continues with
            ⟨error, failed, same⟩ | ⟨first, second, result, ran, after, same⟩
          · exact .inl ⟨error, .ask reply failed, same⟩
          · exact .inr ⟨⟨statement, reply⟩ :: first, second, result,
              .ask reply ran, after, by rw [same, List.cons_append]⟩

end Traces

/-! ## One process among others -/

section Following

variable {State Statement : Type} {Reply : Statement → Type}
  {Error Operation : Type}
  {machine : Machine State Statement Reply Error Operation}

/-- The process runs as its discipline says, the others within its rely. -/
def Follows (discipline : Discipline State Statement Reply) (process : Nat) :
    Condition State Statement Reply Operation
  | state, .called other _, next => other ≠ process ∧ discipline.rely state next
  | state, .executed other statement reply, next =>
      if other = process then discipline.executes state statement reply next
      else discipline.rely state next
  | state, .crashed other, next => other ≠ process ∧ discipline.rely state next
  | state, .elapsed, next => discipline.rely state next

/-- A safe process stays safe while the others keep to its rely. -/
theorem Program.Safe.follows {discipline : Discipline State Statement Reply}
    {ensures : State → Except Error Unit → Prop} {process : Nat}
    {before after : Config State Statement Reply Error}
    {program : Program Statement Reply Error Unit}
    (safe : program.Safe discipline ensures before.state)
    (running : before.processes process = some program)
    (run : machine.Run (Follows discipline process) before after) :
    ∃ rest, after.processes process = some rest ∧
      rest.Safe discipline ensures after.state := by
  induction run with
  | refl => exact ⟨program, running, safe⟩
  | tail _ moves ih =>
      rcases ih with ⟨rest, continues, safe⟩
      rcases moves with ⟨event, step, met⟩
      have elsewhere : ∀ {processes : Nat → Option _} {other : Nat} {value},
          other ≠ process → processes process = some rest →
            Function.update processes other value process = some rest := by
        intro processes other value different found
        rw [Function.update_of_ne different.symm, found]
      cases step with
      | call free permitted =>
          exact ⟨rest, elsewhere met.1 continues, safe.later met.2⟩
      | @execute other statement next reply later own executes =>
          by_cases same : other = process
          · subst same
            simp only [Follows, if_true] at met
            rw [own, Option.some.injEq] at continues
            subst continues
            exact ⟨next reply, Function.update_self _ _ _,
              (safe _ (discipline.rely_refl _)).2 reply later met⟩
          · simp only [Follows, if_neg same] at met
            exact ⟨rest, elsewhere same continues, safe.later met⟩
      | crash => exact ⟨rest, elsewhere met.1 continues, safe.later met.2⟩
      | elapse duration => exact ⟨rest, continues, safe.later met⟩

end Following

/-! ## Schedules -/

/-- What happens next in a schedule. -/
inductive Action (Operation : Type) where
  | call (process : Nat) (operation : Operation)
  | advance (process count : Nat)
  | crash (process : Nat)
  | wait (duration : Nat)

section Schedules

variable {State Statement : Type} {Reply : Statement → Type}
  {Error Operation : Type}

/-- Take so many statements of a program, as long as they are allowed. -/
def Machine.advance (machine : Machine State Statement Reply Error Operation)
    (allows : State → Statement → Bool) :
    Nat → Program Statement Reply Error Unit →
      State → Program Statement Reply Error Unit × State
  | 0, program, state => (program, state)
  | _ + 1, .done result, state => (.done result, state)
  | count + 1, .ask statement next, state =>
      if allows state statement then
        machine.advance allows count
          (next (machine.answer state statement).1)
          (machine.answer state statement).2
      else (.ask statement next, state)

/-- Perform an action where it is possible. -/
def Machine.perform (machine : Machine State Statement Reply Error Operation)
    (allows : State → Statement → Bool)
    [∀ state operation, Decidable (machine.permitted state operation)]
    (config : Config State Statement Reply Error) :
    Action Operation → Config State Statement Reply Error
  | .call process operation =>
      if (config.processes process).isNone ∧
          machine.permitted config.state operation then
        ⟨config.state, Function.update config.processes process
          (some (machine.program operation))⟩
      else config
  | .advance process count =>
      match config.processes process with
      | none => config
      | some program =>
          let (rest, state) := machine.advance allows count program config.state
          ⟨state, Function.update config.processes process (some rest)⟩
  | .crash process =>
      ⟨config.state, Function.update config.processes process none⟩
  | .wait duration =>
      ⟨machine.elapse config.state duration, config.processes⟩

/-- Perform the actions of a schedule. -/
def Machine.schedule (machine : Machine State Statement Reply Error Operation)
    (allows : State → Statement → Bool)
    [∀ state operation, Decidable (machine.permitted state operation)]
    (config : Config State Statement Reply Error)
    (actions : List (Action Operation)) : Config State Statement Reply Error :=
  actions.foldl (machine.perform allows) config

variable {machine : Machine State Statement Reply Error Operation}
  {allows : State → Statement → Bool}
  {condition : Condition State Statement Reply Operation}

/-- The condition lets through what a schedule does. -/
structure Admits (machine : Machine State Statement Reply Error Operation)
    (allows : State → Statement → Bool)
    (condition : Condition State Statement Reply Operation) : Prop where
  executed : ∀ {state process statement}, allows state statement = true →
    condition state
      (.executed process statement (machine.answer state statement).1)
      (machine.answer state statement).2
  called : ∀ {state process operation},
    condition state (.called process operation) state
  crashed : ∀ {state process}, condition state (.crashed process) state
  elapsed : ∀ {state} duration,
    condition state .elapsed (machine.elapse state duration)

/-- What a process does in a schedule is a run. -/
theorem advance_run {process : Nat}
    (executed : ∀ state statement, allows state statement = true →
      condition state
        (.executed process statement (machine.answer state statement).1)
        (machine.answer state statement).2)
    (count : Nat) {program : Program Statement Reply Error Unit}
    {config : Config State Statement Reply Error}
    (running : config.processes process = some program) :
    machine.Run condition config
      ⟨(machine.advance allows count program config.state).2,
        Function.update config.processes process
          (some (machine.advance allows count program config.state).1)⟩ := by
  have stays : ∀ {config : Config State Statement Reply Error} {program},
      config.processes process = some program →
        machine.Run condition config
          ⟨config.state,
            Function.update config.processes process (some program)⟩ := by
    intro config program running
    rw [← running, Function.update_eq_self]
    exact .refl
  induction count generalizing program config with
  | zero => exact stays running
  | succ count ih =>
      cases program with
      | done result => exact stays running
      | ask statement next =>
          rw [Machine.advance]
          split
          · rename_i allowed
            have first : machine.Run condition config
                ⟨(machine.answer config.state statement).2,
                  Function.update config.processes process
                    (some (next (machine.answer config.state statement).1))⟩ :=
              .single ⟨_, .execute running .answered,
                executed config.state statement allowed⟩
            have rest := @ih _ ⟨(machine.answer config.state statement).2,
                Function.update config.processes process
                  (some (next (machine.answer config.state statement).1))⟩
              (Function.update_self _ _ _)
            simp only [Function.update_idem] at rest
            exact first.trans rest
          · exact stays running

theorem Admits.perform
    [∀ state operation, Decidable (machine.permitted state operation)]
    (admits : Admits machine allows condition)
    (config : Config State Statement Reply Error) (action : Action Operation) :
    machine.Run condition config (machine.perform allows config action) := by
  cases action with
  | call process operation =>
      rw [Machine.perform]
      split
      · rename_i possible
        exact .single ⟨_, .call (Option.isNone_iff_eq_none.1 possible.1)
          possible.2, admits.called⟩
      · exact .refl
  | advance process count =>
      rw [Machine.perform]
      split
      · exact .refl
      · rename_i running
        exact advance_run (fun _ _ allowed => admits.executed allowed) count
          running
  | crash process => exact .single ⟨_, .crash, admits.crashed⟩
  | wait duration => exact .single ⟨_, .elapse duration, admits.elapsed duration⟩

/-- A schedule is a run. -/
theorem Admits.schedule
    [∀ state operation, Decidable (machine.permitted state operation)]
    (admits : Admits machine allows condition)
    (config : Config State Statement Reply Error)
    (actions : List (Action Operation)) :
    machine.Run condition config (machine.schedule allows config actions) := by
  induction actions generalizing config with
  | nil => exact .refl
  | cons action actions ih =>
      exact (admits.perform config action).trans (ih _)

end Schedules

end FireCrow.Library
