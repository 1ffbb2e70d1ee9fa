import FireCrow.Library.Interleaving

/-!
# Tokens that processes hold

A reply may hand a token to the process that asked, and a statement may take
tokens from it.  A token says something about the state: an exclusive one as
long as its only holder has not paid with it, any other for ever.
-/

namespace FireCrow.Library

/-- Which tokens there are, what they say, who pays and who gains them, and
which replies are possible for a holder. -/
structure Ledger (State Statement : Type) (Reply : Statement → Type)
    (Token : Type) where
  exclusive : Token → Prop
  good : State → Token → Prop
  pays : Statement → Set Token
  gains : (statement : Statement) → Reply statement → Set Token
  possible : Set Token → (statement : Statement) → Reply statement → Prop

section Holdings

variable {State Statement : Type} {Reply : Statement → Type} {Token : Type}
  {Error Other Result Next Operation : Type}
  {ledger : Ledger State Statement Reply Token}

/-- What is held after a reply. -/
def Ledger.holds (ledger : Ledger State Statement Reply Token)
    (held : Set Token) (statement : Statement) (reply : Reply statement) :
    Set Token :=
  held \ ledger.pays statement ∪ ledger.gains statement reply

namespace Program

/-- The program holds what it pays, and ends as ensured. -/
def Affords (ledger : Ledger State Statement Reply Token)
    (ensures : Set Token → Except Error Result → Prop) :
    Program Statement Reply Error Result → Set Token → Prop
  | .done result, held => ensures held result
  | .ask statement next, held =>
      ledger.pays statement ⊆ held ∧
        ∀ reply, ledger.possible held statement reply →
          (next reply).Affords ledger ensures
            (ledger.holds held statement reply)

variable {ensures : Set Token → Except Error Result → Prop}
  {held : Set Token}

variable {program : Program Statement Reply Error Result}

section

variable (affords : program.Affords ledger ensures held)
include affords

theorem Affords.bind {next : Result → Program Statement Reply Error Next}
    {final : Set Token → Except Error Next → Prop}
    (failed : ∀ held error, ensures held (.error error) →
      final held (.error error))
    (continued : ∀ held result, ensures held (.ok result) →
      (next result).Affords ledger final held) :
    (program.bind next).Affords ledger final held := by
  induction program generalizing held with
  | done result =>
      cases result with
      | error error => exact failed held error affords
      | ok result => exact continued held result affords
  | ask statement rest ih =>
      exact ⟨affords.1, fun reply possible =>
        ih reply (affords.2 reply possible)⟩

theorem Affords.attempt
    {final : Set Token → Except Other (Except Error Result) → Prop}
    (handed : ∀ held result, ensures held result → final held (.ok result)) :
    (program.attempt).Affords ledger final held := by
  induction program generalizing held with
  | done result => exact handed held result affords
  | ask statement rest ih =>
      exact ⟨affords.1, fun reply possible =>
        ih reply (affords.2 reply possible)⟩

theorem Affords.mono {weaker : Set Token → Except Error Result → Prop}
    (implies : ∀ held result, ensures held result → weaker held result) :
    program.Affords ledger weaker held := by
  induction program generalizing held with
  | done result => exact implies held result affords
  | ask statement rest ih =>
      exact ⟨affords.1, fun reply possible =>
        ih reply (affords.2 reply possible)⟩

end

/-- Statements that nobody pays for leave what is held. -/
theorem Asks.affords
    (asks : program.Asks fun statement => ledger.pays statement = ∅)
    (tokens : Set Token) (holds : tokens ⊆ held) :
    program.Affords ledger (fun held _ => tokens ⊆ held) held := by
  induction program generalizing held with
  | done result => exact holds
  | ask statement rest ih =>
      refine ⟨asks.1 ▸ Set.empty_subset held, fun reply _ => ?_⟩
      apply ih reply (asks.2 reply)
      intro token member
      refine .inl ⟨holds member, ?_⟩
      rw [asks.1]
      exact Set.notMem_empty token

end Program

/-- An invariant that every statement keeps, with what tokens say. -/
structure Ledger.Lawful (ledger : Ledger State Statement Reply Token)
    (machine : Machine State Statement Reply Error Operation)
    (condition : Condition State Statement Reply Operation)
    (inv : State → Prop) : Prop where
  operation : ∀ operation,
    (machine.program operation).Affords ledger (fun _ _ => True) ∅
  possible : ∀ {state process statement reply after held}, inv state →
    condition state (.executed process statement reply) after →
      machine.Executes state statement reply after →
        (∀ token ∈ held, ledger.good state token) →
          ledger.possible held statement reply
  kept : ∀ {state process statement reply after}, inv state →
    condition state (.executed process statement reply) after →
      machine.Executes state statement reply after →
        (∀ token ∈ ledger.pays statement, ledger.good state token) →
          inv after
  stays : ∀ {state process statement reply after token}, inv state →
    condition state (.executed process statement reply) after →
      machine.Executes state statement reply after →
        ledger.good state token →
          (ledger.exclusive token → token ∉ ledger.pays statement) →
            ledger.good after token
  gained : ∀ {state process statement reply after token}, inv state →
    condition state (.executed process statement reply) after →
      machine.Executes state statement reply after →
        (∀ token ∈ ledger.pays statement, ledger.good state token) →
          token ∈ ledger.gains statement reply →
            ledger.good after token ∧
              (ledger.exclusive token → ledger.good state token →
                token ∈ ledger.pays statement)
  time : ∀ {state} duration, inv state →
    inv (machine.elapse state duration) ∧ ∀ token, ledger.good state token →
      ledger.good (machine.elapse state duration) token

/-- The invariant holds, and the tokens that the processes hold say so; no
exclusive one is held twice. -/
structure Ledger.Sound (ledger : Ledger State Statement Reply Token)
    (inv : State → Prop) (config : Config State Statement Reply Error)
    (held : Nat → Set Token) : Prop where
  inv : inv config.state
  good : ∀ process, ∀ token ∈ held process, ledger.good config.state token
  exclusive : ∀ {process other token}, ledger.exclusive token →
    token ∈ held process → token ∈ held other → process = other
  affords : ∀ process program, config.processes process = some program →
    program.Affords ledger (fun _ _ => True) (held process)

variable {machine : Machine State Statement Reply Error Operation}
  {condition : Condition State Statement Reply Operation}
  {inv : State → Prop} {before after : Config State Statement Reply Error}

/-- One step that meets the condition keeps a configuration sound. -/
theorem Ledger.Lawful.step (lawful : ledger.Lawful machine condition inv)
    {held : Nat → Set Token} (sound : ledger.Sound inv before held)
    {event : Event Statement Reply Operation}
    (step : machine.Step before event after)
    (met : condition before.state event after.state) :
    ∃ held, ledger.Sound inv after held := by
  cases step with
  | @call process operation free permitted =>
      refine ⟨Function.update held process ∅, sound.inv, ?_, ?_, ?_⟩
      · intro other token member
        by_cases same : other = process
        · subst same
          simp at member
        · rw [Function.update_of_ne same] at member
          exact sound.good other token member
      · intro first second token exclusive one two
        by_cases same : first = process
        · subst same
          simp at one
        · by_cases same' : second = process
          · subst same'
            simp at two
          · rw [Function.update_of_ne same] at one
            rw [Function.update_of_ne same'] at two
            exact sound.exclusive exclusive one two
      · intro other program running
        by_cases same : other = process
        · subst same
          simp only [Function.update_self, Option.some.injEq] at running ⊢
          exact running ▸ lawful.operation operation
        · simp only [Function.update_of_ne same] at running ⊢
          exact sound.affords other program running
  | @execute process statement next reply later running executes =>
      have paid := (sound.affords process _ running).1
      have goodPaid : ∀ token ∈ ledger.pays statement,
          ledger.good before.state token :=
        fun token member => sound.good process token (paid member)
      -- An exclusive token of another process is not paid with here.
      have unpaid : ∀ {other token}, other ≠ process → token ∈ held other →
          ledger.exclusive token → token ∉ ledger.pays statement :=
        fun different member exclusive pays =>
          different (sound.exclusive exclusive member (paid pays))
      refine ⟨Function.update held process
        (ledger.holds (held process) statement reply),
        lawful.kept sound.inv met executes goodPaid, ?_, ?_, ?_⟩
      · intro other token member
        by_cases same : other = process
        · subst same
          rw [Function.update_self] at member
          rcases member with ⟨had, kept⟩ | gained
          · exact lawful.stays sound.inv met executes
              (sound.good other token had) fun _ => kept
          · exact (lawful.gained sound.inv met executes goodPaid gained).1
        · rw [Function.update_of_ne same] at member
          exact lawful.stays sound.inv met executes
            (sound.good other token member) (unpaid same member)
      · -- Whatever else a process holds is neither gained nor kept here.
        have apart : ∀ {other token}, ledger.exclusive token →
            token ∈ ledger.holds (held process) statement reply →
              token ∈ held other → other = process := by
          intro other token exclusive here there
          by_contra different
          rcases here with ⟨had, _⟩ | gained
          · exact different (sound.exclusive exclusive there had)
          · exact unpaid different there exclusive
              ((lawful.gained sound.inv met executes goodPaid gained).2
                exclusive (sound.good other token there))
        intro first second token exclusive one two
        by_cases same : first = process
        · subst same
          by_cases same' : second = first
          · exact same'.symm
          · rw [Function.update_self] at one
            rw [Function.update_of_ne same'] at two
            exact (apart exclusive one two).symm
        · rw [Function.update_of_ne same] at one
          by_cases same' : second = process
          · subst same'
            rw [Function.update_self] at two
            exact apart exclusive two one
          · rw [Function.update_of_ne same'] at two
            exact sound.exclusive exclusive one two
      · intro other program continued
        by_cases same : other = process
        · subst same
          simp only [Function.update_self, Option.some.injEq] at continued ⊢
          exact continued ▸ (sound.affords other _ running).2 reply
            (lawful.possible sound.inv met executes (sound.good other))
        · simp only [Function.update_of_ne same] at continued ⊢
          exact sound.affords other program continued
  | @crash process =>
      refine ⟨held, sound.inv, sound.good, sound.exclusive, ?_⟩
      intro other program running
      by_cases same : other = process
      · subst same
        simp at running
      · simp only [Function.update_of_ne same] at running
        exact sound.affords other program running
  | elapse duration =>
      have kept := lawful.time duration sound.inv
      exact ⟨held, kept.1, fun process token member =>
        kept.2 token (sound.good process token member), sound.exclusive,
        sound.affords⟩

/-- Every run whose steps meet the condition keeps a configuration sound. -/
theorem Ledger.Lawful.run (lawful : ledger.Lawful machine condition inv)
    (sound : ∃ held, ledger.Sound inv before held)
    (run : machine.Run condition before after) :
    ∃ held, ledger.Sound inv after held := by
  induction run with
  | refl => exact sound
  | tail _ moves ih =>
      rcases ih with ⟨held, sound⟩
      rcases moves with ⟨event, step, met⟩
      exact lawful.step sound step met

end Holdings

end FireCrow.Library
