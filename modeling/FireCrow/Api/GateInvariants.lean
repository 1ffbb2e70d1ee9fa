import FireCrow.Api.JobGate

/-!
# What the gate keeps

A transaction admits a job only after it has counted fewer active jobs than
the cap, one transaction at a time holds the lock of a user, a delivery has at
most one job, and every response is what the call has read.
-/

namespace FireCrow.Api

open FireCrow.Library FireCrow.Schemas FireCrow.Orchestrator.Execution

variable {maxActive : Int} {state : Submissions}

/-! ## Statements that succeed -/

variable {transaction : Nat}

theorem gate?_mem {gate : Gate} (found : state.gate? transaction = some gate) :
    gate ∈ state.gates ∧ gate.transaction = transaction :=
  ⟨List.mem_of_find?_eq_some found, by simpa using List.find?_some found⟩

theorem attribution?_mem {deliveryId : Text} {attribution : Attribution}
    (found : state.attribution? deliveryId = some attribution) :
    attribution ∈ state.attributions ∧ attribution.deliveryId = deliveryId :=
  ⟨List.mem_of_find?_eq_some found, by simpa using List.find?_some found⟩

variable {after : Submissions}

theorem openGate_eq_ok {userId : Text}
    (success : state.openGate userId = .ok (transaction, after)) :
    (∀ gate ∈ state.gates, gate.userId ≠ userId) ∧
      transaction = state.nextTransaction ∧
      after = { state with
        gates := state.gates ++ [⟨state.nextTransaction, userId, []⟩]
        nextTransaction := state.nextTransaction + 1 } := by
  unfold Submissions.openGate at success
  split at success
  · cases success
  · rename_i free
    cases success
    exact ⟨by simpa using free, rfl, rfl⟩

theorem countLive_eq_ok {count : Nat}
    (success : state.countLive transaction = .ok (count, after)) :
    ∃ gate, state.gate? transaction = some gate ∧
      count = activeJobs state.db gate.userId ∧
      after = { state with
        gates := Table.set (fun gate => gate.transaction = transaction)
          (fun gate => { gate with counts := count :: gate.counts })
          state.gates } := by
  unfold Submissions.countLive at success
  cases found : state.gate? transaction with
  | none =>
      rw [found] at success
      cases success
  | some gate =>
      rw [found] at success
      cases success
      exact ⟨gate, rfl, rfl, rfl⟩

theorem commit_eq_ok {inserted : Nat} {jobId : Text}
    {deliveryId : Option Text}
    (success :
      state.commit transaction jobId deliveryId = .ok (inserted, after)) :
    ∃ gate, state.gate? transaction = some gate ∧
      ((inserted = 0 ∧
          (∃ named attribution, deliveryId = some named ∧
            state.attribution? named = some attribution) ∧
          after = state.release transaction) ∨
        (inserted = 1 ∧
          (∀ named, deliveryId = some named →
            state.attribution? named = none) ∧
          ∃ db, state.db.insertJob jobId gate.userId = .ok ((), db) ∧
            after = { state.release transaction with
              db := db
              attributions :=
                Submissions.attributed state.attributions jobId
                  deliveryId })) := by
  unfold Submissions.commit at success
  cases found : state.gate? transaction with
  | none =>
      rw [found] at success
      cases success
  | some gate =>
      rw [found] at success
      dsimp only at success
      refine ⟨gate, rfl, ?_⟩
      split at success
      · rename_i known
        cases success
        rcases Option.isSome_iff_exists.1 known with ⟨attribution, bound⟩
        rcases Option.bind_eq_some_iff.1 bound with ⟨named, given, held⟩
        exact .inl ⟨rfl, ⟨named, attribution, given, held⟩, rfl⟩
      · rename_i new
        rcases (Result.bind_eq_ok _ _ _).1 success with
          ⟨⟨_, db⟩, insert, done⟩
        cases done
        refine .inr ⟨rfl, ?_, db, insert, rfl⟩
        rintro named rfl
        simpa using new

theorem shared_eq_ok {statement : Statement} {answer : statement.Answer}
    (success : (GateStatement.shared statement).run state =
      .ok (answer, after)) :
    ∃ db, statement.run state.db = .ok (answer, db) ∧
      after = { state with db := db } := by
  rcases (Result.bind_eq_ok _ _ _).1 success with ⟨⟨given, db⟩, ran, done⟩
  cases done
  exact ⟨db, ran, rfl⟩

/-- A statement of the gate itself. -/
def GateStatement.Own : GateStatement → Prop
  | .shared _ => False
  | _ => True

variable {statement : GateStatement}

theorem run_error {error : AppError} (own : statement.Own)
    (failure : statement.run state = .error error) :
    ∃ reason, error = .database reason := by
  cases statement with
  | shared shared => exact own.elim
  | existingJob => cases failure
  | openGate userId =>
      simp only [GateStatement.run, Submissions.openGate] at failure
      split at failure
      · cases failure
        exact ⟨_, rfl⟩
      · cases failure
  | countLive transaction =>
      simp only [GateStatement.run, Submissions.countLive] at failure
      split at failure
      · cases failure
        exact ⟨_, rfl⟩
      · cases failure
  | commit transaction jobId deliveryId =>
      simp only [GateStatement.run, Submissions.commit] at failure
      split at failure
      · cases failure
        exact ⟨_, rfl⟩
      · split at failure
        · cases failure
        · rename_i gate _ _
          cases insert : state.db.insertJob jobId gate.userId with
          | error refused =>
              rw [insert] at failure
              cases failure
              unfold Database.insertJob at insert
              split at insert
              · cases insert
                exact ⟨_, rfl⟩
              · cases insert
          | ok result =>
              rw [insert] at failure
              cases failure
  | respond | disconnect => cases failure

theorem gate_answer_cases (maxActiveJobs : Int) (state : Submissions)
    (statement : GateStatement) :
    (∃ answer after, statement.run state = .ok (answer, after) ∧
      (gateMachine maxActiveJobs).answer state statement =
        (.ok answer, after)) ∨
    ∃ error, statement.run state = .error error ∧
      (gateMachine maxActiveJobs).answer state statement =
        (.error error, state) := by
  cases success : statement.run state with
  | error error =>
      refine .inr ⟨error, rfl, ?_⟩
      simp [gateMachine, GateStatement.answer, success]
  | ok result =>
      refine .inl ⟨result.1, result.2, rfl, ?_⟩
      simp [gateMachine, GateStatement.answer, success]

theorem gate_executes_ok {maxActiveJobs : Int} {answer : statement.Answer}
    (executes : (gateMachine maxActiveJobs).Executes state statement
      (.ok answer) after) :
    statement.run state = .ok (answer, after) := by
  have inversion : ∀ (reply : statement.Reply) (next : Submissions),
      (gateMachine maxActiveJobs).Executes state statement reply next →
        reply = .ok answer → statement.run state = .ok (answer, next) := by
    intro reply next executes equal
    rcases gate_answer_cases maxActiveJobs state statement with
      ⟨given, later, success, answered⟩ | ⟨error, _, answered⟩
    · cases executes with
      | answered =>
          rw [answered] at equal ⊢
          cases equal
          exact success
      | failed | lost => cases equal
    · cases executes with
      | answered =>
          rw [answered] at equal
          cases equal
      | failed | lost => cases equal
  exact inversion _ _ executes rfl

theorem gate_executes_error {maxActiveJobs : Int} {error : AppError}
    (own : statement.Own)
    (executes : (gateMachine maxActiveJobs).Executes state statement
      (.error error) after) : ∃ reason, error = .database reason := by
  have inversion : ∀ (reply : statement.Reply) (next : Submissions),
      (gateMachine maxActiveJobs).Executes state statement reply next →
        reply = .error error → ∃ reason, error = .database reason := by
    intro reply next executes equal
    rcases gate_answer_cases maxActiveJobs state statement with
      ⟨given, later, _, answered⟩ | ⟨refused, failure, answered⟩
    · cases executes with
      | answered =>
          rw [answered] at equal
          cases equal
      | failed | lost =>
          cases equal
          exact ⟨_, rfl⟩
    · cases executes with
      | answered =>
          rw [answered] at equal
          cases equal
          exact run_error own failure
      | failed | lost =>
          cases equal
          exact ⟨_, rfl⟩
  exact inversion _ _ executes rfl

/-! ## The discipline -/

/-- The transaction has counted fewer active jobs than the cap. -/
def Gate.passed (maxActive : Int) (gate : Gate) : Bool :=
  gate.counts.any fun count => (count : Int) < maxActive

/-- Jobs of deliveries stay, and a transaction keeps what it has counted. -/
structure Submissions.Precedes (state later : Submissions) : Prop where
  attributions : state.attributions ⊆ later.attributions
  transactions : state.nextTransaction ≤ later.nextTransaction
  gates : ∀ gate ∈ later.gates, gate.transaction < state.nextTransaction →
    ∃ earlier ∈ state.gates, earlier.transaction = gate.transaction ∧
      earlier.counts ⊆ gate.counts

theorem Submissions.Precedes.refl (state : Submissions) :
    state.Precedes state :=
  ⟨List.Subset.refl _, le_refl _,
    fun gate member _ => ⟨gate, member, rfl, List.Subset.refl _⟩⟩

theorem Submissions.Precedes.trans {first second third : Submissions}
    (before : first.Precedes second) (after : second.Precedes third) :
    first.Precedes third where
  attributions := List.Subset.trans before.attributions after.attributions
  transactions := before.transactions.trans after.transactions
  gates := by
    intro gate member older
    rcases after.gates gate member (older.trans_le before.transactions) with
      ⟨middle, inMiddle, same, kept⟩
    rcases before.gates middle inMiddle (same ▸ older) with
      ⟨earlier, inEarlier, equal, counted⟩
    exact ⟨earlier, inEarlier, equal.trans same, List.Subset.trans counted kept⟩

/-- A call for a delivery returns the job of the delivery, which it has found
or inserted below the cap, or it was refused at the cap. -/
def Submission.Justified (maxActive : Int) (state : Submissions)
    (deliveryId : Text) (submission : Submission) : Prop :=
  match submission.result with
  | .ok jobId =>
      ⟨jobId, deliveryId⟩ ∈ state.attributions ∧
        (submission.existing.isSome = true ∨
          ∃ live, submission.live = some live ∧ (live : Int) < maxActive)
  | .error error =>
      submission.existing = none ∧
        ∃ live, submission.live = some live ∧ maxActive ≤ live ∧
          error = tooManyActive live maxActive

/-- A response to a call for a delivery is justified, or tells a failure of
the database. -/
def Response.Justified (maxActive : Int) (state : Submissions)
    (response : Response) : Prop :=
  ∀ deliveryId, response.deliveryId = some deliveryId →
    match response.submission with
    | .ok submission => submission.Justified maxActive state deliveryId
    | .error error => ∃ reason, error = .database reason

theorem Submission.Justified.later {later : Submissions} {deliveryId : Text}
    {submission : Submission}
    (justified : submission.Justified maxActive state deliveryId)
    (attributions : state.attributions ⊆ later.attributions) :
    submission.Justified maxActive later deliveryId := by
  unfold Submission.Justified at justified ⊢
  cases result : submission.result with
  | ok jobId =>
      rw [result] at justified
      exact ⟨attributions justified.1, justified.2⟩
  | error error =>
      rw [result] at justified
      exact justified

theorem Response.Justified.later {later : Submissions} {response : Response}
    (justified : response.Justified maxActive state)
    (attributions : state.attributions ⊆ later.attributions) :
    response.Justified maxActive later := by
  intro deliveryId given
  have known := justified deliveryId given
  cases result : response.submission with
  | ok submission =>
      rw [result] at known
      exact Submission.Justified.later known attributions
  | error error =>
      rw [result] at known
      exact known

def Statement.Creates : Statement → Prop
  | .createJob .. => True
  | _ => False

/-- What a statement needs that the tables do not check. -/
def GateStatement.Required (maxActive : Int) (state : Submissions) :
    GateStatement → Prop
  | .shared statement => ¬ Statement.Creates statement
  | .commit transaction _ _ =>
      ∀ gate ∈ state.gates, gate.transaction = transaction →
        gate.passed maxActive = true
  | .respond response => response.Justified maxActive state
  | _ => True

/-- The discipline of every process. -/
def gateDiscipline (maxActiveJobs : Int) :
    Discipline Submissions GateStatement GateStatement.Reply where
  executes := (gateMachine maxActiveJobs).Executes
  rely := Submissions.Precedes
  requires := fun state statement =>
    statement.Required (max maxActiveJobs 1) state
  rely_refl := Submissions.Precedes.refl
  rely_trans := Submissions.Precedes.trans

/-! ## A call keeps to the discipline -/

section Calls

variable {maxActiveJobs : Int}

/-- What a call for a delivery ensures. -/
def Ensured (maxActive : Int) (deliveryId : Option Text) (state : Submissions)
    (result : Except AppError Submission) : Prop :=
  Response.Justified maxActive state ⟨deliveryId, result⟩

theorem ensured_failed (maxActive : Int) (deliveryId : Option Text)
    (state : Submissions) (reason : DatabaseError) :
    Ensured maxActive deliveryId state (.error (.database reason)) :=
  fun _ _ => ⟨reason, rfl⟩

theorem ask_bind_safe
    {deliveryId : Option Text} {next : statement.Answer → GateTask Submission}
    (own : statement.Own)
    (required : ∀ later, state.Precedes later →
      statement.Required (max maxActiveJobs 1) later)
    (continued : ∀ later answer after, state.Precedes later →
      statement.run later = .ok (answer, after) →
        (next answer).Safe (gateDiscipline maxActiveJobs)
          (Ensured maxActive deliveryId) after) :
    (ask statement >>= next).Safe (gateDiscipline maxActiveJobs)
      (Ensured maxActive deliveryId) state := by
  intro later relied
  refine ⟨required later relied, fun reply after executes => ?_⟩
  cases reply with
  | error error =>
      rcases gate_executes_error own executes with ⟨reason, rfl⟩
      exact fun last _ => ensured_failed maxActive deliveryId last reason
  | ok answer =>
      exact continued later answer after relied (gate_executes_ok executes)

theorem done_safe {deliveryId : Option Text} {submission : Submission}
    (ensured : Ensured maxActive deliveryId state (.ok submission)) :
    (pure submission : GateTask Submission).Safe (gateDiscipline maxActiveJobs)
      (Ensured maxActive deliveryId) state :=
  fun _ relied => Response.Justified.later ensured relied.attributions

variable {transaction : Nat}

theorem passed_later {count : Nat} {later : Submissions}
    (recent : transaction < state.nextTransaction)
    (counted : ∀ gate ∈ state.gates, gate.transaction = transaction →
      count ∈ gate.counts)
    (below : (count : Int) < maxActive) (relied : state.Precedes later) :
    ∀ gate ∈ later.gates, gate.transaction = transaction →
      gate.passed maxActive = true := by
  intro gate member same
  rcases relied.gates gate member (same ▸ recent) with
    ⟨earlier, inside, equal, kept⟩
  apply List.any_eq_true.2
  exact ⟨count, kept (counted earlier inside (equal.trans same)),
    decide_eq_true below⟩

/-- After the count the transaction knows it. -/
theorem counted_after {count : Nat}
    (success : state.countLive transaction = .ok (count, after)) :
    after.nextTransaction = state.nextTransaction ∧
      ∀ gate ∈ after.gates, gate.transaction = transaction →
        count ∈ gate.counts := by
  rcases countLive_eq_ok success with ⟨_, _, _, rfl⟩
  refine ⟨rfl, fun gate member same => ?_⟩
  rcases List.mem_map.1 member with ⟨earlier, _, rfl⟩
  by_cases mine : earlier.transaction = transaction
  · rw [if_pos (decide_eq_true mine)]
    exact List.mem_cons_self
  · rw [if_neg (by simpa using mine)] at same
    exact absurd same mine

/-- The select after the commit finds the job that the commit has found. -/
theorem raced_found {named : Text}
    {attribution : Attribution} {later : Submissions} {jobId : Text}
    (held : state.attribution? named = some attribution)
    (relied : (state.release transaction).Precedes later) :
    ⟨((later.attribution? named).map Attribution.jobId).getD jobId, named⟩ ∈
      later.attributions := by
  rcases attribution?_mem held with ⟨inside, same⟩
  have present : attribution ∈ later.attributions := relied.attributions inside
  cases found : later.attribution? named with
  | none =>
      have absent := List.find?_eq_none.1 found attribution present
      exact absurd (decide_eq_true same) absent
  | some other =>
      rcases attribution?_mem found with ⟨held, equal⟩
      rw [Option.map_some, Option.getD_some, ← equal]
      exact held

theorem createAuditJobAttributed_safe (jobId userId : Text)
    (deliveryId : Option Text) (state : Submissions) :
    (createAuditJobAttributed maxActiveJobs jobId userId deliveryId).Safe
      (gateDiscipline maxActiveJobs)
      (Ensured (max maxActiveJobs 1) deliveryId) state := by
  -- The gate, when the select has found no job.
  have gated : ∀ state : Submissions,
      (do
        let transaction : Nat ← ask (.openGate userId)
        let live : Nat ← ask (.countLive transaction)
        if max maxActiveJobs 1 ≤ (live : Int) then
          return (⟨none, some live,
            .error (tooManyActive live (max maxActiveJobs 1))⟩ : Submission)
        else
          let inserted : Nat ← ask (.commit transaction jobId deliveryId)
          if inserted = 0 then
            let raced : Option Text ← ask (.existingJob (deliveryId.getD []))
            return ⟨none, some live, .ok (raced.getD jobId)⟩
          else return ⟨none, some live, .ok jobId⟩ : GateTask Submission).Safe
        (gateDiscipline maxActiveJobs)
        (Ensured (max maxActiveJobs 1) deliveryId) state := by
    intro state
    apply ask_bind_safe
    · trivial
    · exact fun _ _ => trivial
    intro later transaction opened _ opening
    rcases openGate_eq_ok opening with ⟨_, rfl, rfl⟩
    apply ask_bind_safe
    · trivial
    · exact fun _ _ => trivial
    intro counting (live : Nat) counted waited counts
    rcases counted_after counts with ⟨kept, noted⟩
    have recent : later.nextTransaction < counted.nextTransaction := by
      rw [kept]
      exact waited.transactions
    split
    · rename_i full
      apply done_safe
      rintro named rfl
      exact ⟨rfl, live, rfl, full, rfl⟩
    · rename_i room
      have below : (live : Int) < max maxActiveJobs 1 := not_le.1 room
      apply ask_bind_safe
      · trivial
      · exact fun _ relied => passed_later recent noted below relied
      intro before (inserted : Nat) admitted _ commit
      rcases commit_eq_ok commit with ⟨gate, _, raced | created⟩
      · rcases raced with ⟨rfl, ⟨named, attribution, rfl, held⟩, rfl⟩
        rw [if_pos rfl]
        apply ask_bind_safe
        · trivial
        · exact fun _ _ => trivial
        intro selecting answer selected relied select
        cases select
        apply done_safe
        rintro _ ⟨⟩
        exact ⟨raced_found held relied, .inr ⟨live, rfl, below⟩⟩
      · rcases created with ⟨rfl, new, db, _, rfl⟩
        rw [if_neg Nat.one_ne_zero]
        apply done_safe
        rintro named rfl
        refine ⟨?_, .inr ⟨live, rfl, below⟩⟩
        exact List.mem_append_right _ (List.mem_singleton_self _)
  unfold createAuditJobAttributed
  cases deliveryId with
  | none => exact gated state
  | some named =>
      apply ask_bind_safe
      · trivial
      · exact fun _ _ => trivial
      intro later existing after _ select
      cases select
      cases found : later.attribution? named with
      | none => exact gated later
      | some attribution =>
          rcases attribution?_mem found with ⟨inside, same⟩
          apply done_safe
          rintro _ ⟨⟩
          refine ⟨?_, .inl rfl⟩
          rw [← same]
          exact inside

theorem submit_safe (jobId userId : Text) (deliveryId : Option Text)
    (state : Submissions) :
    (submit maxActiveJobs jobId userId deliveryId).Safe
      (gateDiscipline maxActiveJobs) (fun _ _ => True) state := by
  have call : (createAuditJobAttributed maxActiveJobs jobId userId
      deliveryId).Safe (gateDiscipline maxActiveJobs)
        (Ensured (max maxActiveJobs 1) deliveryId) state :=
    createAuditJobAttributed_safe jobId userId deliveryId state
  have attempted : ((createAuditJobAttributed maxActiveJobs jobId userId
      deliveryId).attempt : GateTask _).Safe (gateDiscipline maxActiveJobs)
        (fun later result => ∃ submission, result = .ok submission ∧
          Ensured (max maxActiveJobs 1) deliveryId later submission) state :=
    call.attempt fun _ submission ensured => ⟨submission, rfl, ensured⟩
  apply Program.Safe.bind attempted
  · exact fun _ _ _ => trivial
  · rintro later _ ⟨submission, ⟨⟩, ensured⟩
    intro last relied
    refine ⟨Response.Justified.later ensured relied.attributions,
      fun reply after _ => ?_⟩
    cases reply <;> exact fun _ _ => trivial

/-! ## Every process keeps to the discipline -/

theorem Statement.Ordinary.not_creates (statement : Statement)
    (ordinary : statement.Ordinary) : ¬ Statement.Creates statement := by
  cases statement <;> first | exact ordinary.elim | exact not_false

theorem Statement.Plain.not_creates (statement : Statement)
    (plain : statement.Plain) : ¬ Statement.Creates statement :=
  Statement.Ordinary.not_creates statement (Statement.Plain.ordinary _ plain)

theorem reapAll_not_creates (cutoff : Timestamp) (reason : Text)
    (abandoned : List (Text × Text)) (total : Nat) :
    (reapAll cutoff reason abandoned total).Asks
      (¬ Statement.Creates ·) := by
  induction abandoned generalizing total with
  | nil => trivial
  | cons row rest ih =>
      exact Program.Asks.bind (query_asks not_false).attempt fun _ => ih _

/-- No operation but the creation of a job creates one. -/
theorem operation_not_creates {operation : Operation}
    (other : createsJob operation = false) :
    operation.program.Asks (¬ Statement.Creates ·) := by
  cases operation with
  | createJob => cases other
  | beginExecution uuids jobId =>
      exact discard_asks ((beginExecution_ordinary uuids jobId).mono
        Statement.Ordinary.not_creates)
  | bindSnapshot | cancelJob =>
      apply Program.Asks.bind (query_asks not_false)
      intro updated
      split <;> trivial
  | retryJob jobId userId =>
      exact (retryJob_plain jobId userId).mono Statement.Plain.not_creates
  | reaperRound =>
      apply discard_asks
      apply Program.Asks.bind (query_asks not_false)
      intro now
      apply Program.Asks.bind (query_asks not_false).attempt
      intro abandoned
      exact reapAll_not_creates _ _ _ _
  | sweepZombieJobs =>
      apply discard_asks
      apply Program.Asks.bind (query_asks not_false)
      intro now
      apply Program.Asks.bind (query_asks not_false)
      intro abandoned
      apply Program.Asks.bind (reapAll_not_creates _ _ _ _)
      intro total
      apply Program.Asks.bind (query_asks not_false)
      intro stuck
      exact (failAll_plain stuck total).mono Statement.Plain.not_creates
  | _ => exact discard_asks (query_asks not_false)

theorem gateOperation_safe {operation : GateOperation}
    (permitted : operation.permitted state) :
    (operation.program maxActiveJobs).Safe (gateDiscipline maxActiveJobs)
      (fun _ _ => True) state := by
  cases operation with
  | submit jobId userId deliveryId =>
      exact submit_safe jobId userId deliveryId state
  | disconnect transaction =>
      intro later relied
      refine ⟨trivial, fun reply after _ => ?_⟩
      cases reply <;> exact fun _ _ => trivial
  | other operation =>
      have asks : (operation.program.lift GateStatement.shared
          (fun _ reply => reply) : GateTask Unit).Asks fun statement =>
            ∀ state, (gateDiscipline maxActiveJobs).requires state statement :=
        Program.Asks.lift ((operation_not_creates permitted.1).mono
          fun _ kept _ => kept)
      exact Program.Asks.safe asks state

end Calls

/-! ## The tables stay regular -/

/-- What the tables of the gate satisfy in every run. -/
structure Submissions.Regular (maxActive : Int) (state : Submissions) :
    Prop where
  jobIds : (state.db.jobs.map AuditJob.id).Nodup
  deliveries : (state.attributions.map Attribution.deliveryId).Nodup
  recent : ∀ gate ∈ state.gates, gate.transaction < state.nextTransaction
  transactions : (state.gates.map Gate.transaction).Nodup
  holders : (state.gates.map Gate.userId).Nodup
  responses : ∀ response ∈ state.responses, response.Justified maxActive state

theorem Submissions.Regular.release (regular : state.Regular maxActive)
    (transaction : Nat) : (state.release transaction).Regular maxActive where
  jobIds := regular.jobIds
  deliveries := regular.deliveries
  recent := fun gate member => regular.recent gate (List.mem_filter.1 member).1
  transactions :=
    regular.transactions.sublist (List.filter_sublist.map Gate.transaction)
  holders := regular.holders.sublist (List.filter_sublist.map Gate.userId)
  responses := regular.responses

theorem Submissions.precedes_release (state : Submissions)
    (transaction : Nat) : state.Precedes (state.release transaction) :=
  ⟨List.Subset.refl _, le_refl _, fun gate member _ =>
    ⟨gate, (List.mem_filter.1 member).1, rfl, List.Subset.refl _⟩⟩

theorem Submissions.precedes_db (state : Submissions) (db : Database) :
    state.Precedes { state with db := db } :=
  ⟨List.Subset.refl _, le_refl _,
    fun gate member _ => ⟨gate, member, rfl, List.Subset.refl _⟩⟩

variable {db : Database}

theorem newJobs_of_not_creates {statement : Statement}
    (other : ¬ Statement.Creates statement) : statement.newJobs db = [] := by
  cases statement <;> first | exact absurd trivial other | rfl

theorem jobIds_shared {after : Database} {statement : Statement}
    (other : ¬ Statement.Creates statement)
    (effect : statement.Effect db after) :
    after.jobs.map AuditJob.id = db.jobs.map AuditJob.id := by
  rw [effect.jobs, newJobs_of_not_creates other, List.append_nil, List.map_map]
  exact List.map_congr_left fun job _ => jobAfter_id db statement job

theorem gates_counted (transaction count : Nat) (gates : List Gate)
    {α : Type} (project : Gate → α)
    (same : ∀ gate : Gate, project { gate with counts := count :: gate.counts } =
      project gate) :
    (Table.set (fun gate => gate.transaction = transaction)
      (fun gate => { gate with counts := count :: gate.counts }) gates).map
        project = gates.map project := by
  unfold Table.set
  rw [List.map_map]
  apply List.map_congr_left
  intro gate _
  simp only [Function.comp_apply]
  split
  · exact same gate
  · rfl

theorem insertJob_jobs {after : Database} {jobId userId : Text}
    (success : db.insertJob jobId userId = .ok ((), after)) :
    (∀ job ∈ db.jobs, job.id ≠ jobId) ∧
      after.jobs = db.jobs ++ [db.newJob jobId userId] := by
  unfold Database.insertJob at success
  split at success
  · cases success
  · rename_i new
    cases success
    refine ⟨fun job member same => new ?_, rfl⟩
    exact List.find?_isSome.2 ⟨job, member, decide_eq_true same⟩

theorem Submissions.Regular.step {answer : statement.Answer}
    (regular : state.Regular maxActive)
    (required : statement.Required maxActive state)
    (success : statement.run state = .ok (answer, after)) :
    after.Regular maxActive ∧ state.Precedes after := by
  cases statement with
  | shared statement =>
      rcases shared_eq_ok success with ⟨db, ran, rfl⟩
      have ids := jobIds_shared required (Statement.effect ran)
      refine ⟨⟨?_, regular.deliveries, regular.recent, regular.transactions,
        regular.holders, regular.responses⟩, state.precedes_db db⟩
      show (db.jobs.map AuditJob.id).Nodup
      rw [ids]
      exact regular.jobIds
  | existingJob deliveryId =>
      cases success
      exact ⟨regular, .refl state⟩
  | openGate userId =>
      rcases openGate_eq_ok success with ⟨free, rfl, rfl⟩
      refine ⟨⟨regular.jobIds, regular.deliveries, ?_, ?_, ?_,
        fun response member => ?_⟩, ?_⟩
      · intro gate member
        rcases List.mem_append.1 member with old | new
        · exact Nat.lt_succ_of_lt (regular.recent gate old)
        · rcases List.mem_singleton.1 new with rfl
          exact Nat.lt_succ_self _
      · exact nodup_keys_append regular.transactions fun gate inside =>
          (regular.recent gate inside).ne
      · exact nodup_keys_append regular.holders free
      · exact (regular.responses response member).later (List.Subset.refl _)
      · refine ⟨List.Subset.refl _, Nat.le_succ _, fun gate member older => ?_⟩
        rcases List.mem_append.1 member with old | new
        · exact ⟨gate, old, rfl, List.Subset.refl _⟩
        · rcases List.mem_singleton.1 new with rfl
          exact absurd older (lt_irrefl _)
  | countLive transaction =>
      rcases countLive_eq_ok success with ⟨gate, _, rfl, rfl⟩
      refine ⟨⟨regular.jobIds, regular.deliveries, ?_, ?_, ?_,
        fun response member => ?_⟩, ?_⟩
      · intro gate member
        rcases List.mem_map.1 member with ⟨earlier, inside, rfl⟩
        have recent := regular.recent earlier inside
        split <;> exact recent
      · rw [gates_counted _ _ _ Gate.transaction fun _ => rfl]
        exact regular.transactions
      · rw [gates_counted _ _ _ Gate.userId fun _ => rfl]
        exact regular.holders
      · exact (regular.responses response member).later (List.Subset.refl _)
      · refine ⟨List.Subset.refl _, le_refl _, fun gate member _ => ?_⟩
        rcases List.mem_map.1 member with ⟨earlier, inside, rfl⟩
        refine ⟨earlier, inside, ?_⟩
        split
        · exact ⟨rfl, List.subset_cons_self _ _⟩
        · exact ⟨rfl, List.Subset.refl _⟩
  | commit transaction jobId deliveryId =>
      rcases commit_eq_ok success with ⟨gate, _, raced | created⟩
      · rcases raced with ⟨_, _, rfl⟩
        exact ⟨regular.release transaction, state.precedes_release transaction⟩
      · rcases created with ⟨_, new, db, insert, rfl⟩
        rcases insertJob_jobs insert with ⟨fresh, jobs⟩
        have released := regular.release transaction
        have grows : state.attributions ⊆ Submissions.attributed
            state.attributions jobId deliveryId := by
          cases deliveryId with
          | none => exact List.Subset.refl _
          | some named => exact List.subset_append_left _ _
        refine ⟨⟨?_, ?_, released.recent, released.transactions,
          released.holders, fun response member =>
            (regular.responses response member).later grows⟩,
          ⟨grows, le_refl _, (state.precedes_release transaction).gates⟩⟩
        · show (db.jobs.map AuditJob.id).Nodup
          rw [jobs]
          exact nodup_keys_append regular.jobIds fresh
        · cases deliveryId with
          | none => exact regular.deliveries
          | some named =>
              refine nodup_keys_append regular.deliveries ?_
              intro attribution inside equal
              have absent := List.find?_eq_none.1 (new named rfl) attribution
                inside
              exact absent (decide_eq_true equal)
  | respond response =>
      cases success
      refine ⟨⟨regular.jobIds, regular.deliveries, regular.recent,
        regular.transactions, regular.holders, fun other member => ?_⟩,
        ⟨List.Subset.refl _, le_refl _,
          fun gate member _ => ⟨gate, member, rfl, List.Subset.refl _⟩⟩⟩
      rcases List.mem_append.1 member with old | new
      · exact (regular.responses other old).later (List.Subset.refl _)
      · rcases List.mem_singleton.1 new with rfl
        exact Response.Justified.later required (List.Subset.refl _)
  | disconnect transaction =>
      cases success
      exact ⟨regular.release transaction, state.precedes_release transaction⟩

theorem gateGuarantees (maxActiveJobs : Int) :
    Guarantees (gateMachine maxActiveJobs) (gateDiscipline maxActiveJobs)
      (Submissions.Regular (max maxActiveJobs 1)) where
  executes := fun executes => executes
  operation := fun _ permitted => gateOperation_safe permitted
  statement := by
    intro state statement regular required
    rcases gate_answer_cases maxActiveJobs state statement with
      ⟨answer, after, success, equal⟩ | ⟨error, _, equal⟩
    · rw [equal]
      exact regular.step required success
    · rw [equal]
      exact ⟨regular, .refl state⟩
  time := by
    intro state duration regular
    exact ⟨⟨regular.jobIds, regular.deliveries, regular.recent,
      regular.transactions, regular.holders, regular.responses⟩,
      state.precedes_db _⟩

theorem gateStart_sound (maxActiveJobs : Int) :
    Sound (gateDiscipline maxActiveJobs)
      (Submissions.Regular (max maxActiveJobs 1)) gateStart where
  inv := by
    constructor <;> simp [gateStart, start]
  safe := fun process program running => by cases running

/-- Every configuration of a run is regular, and every process is safe. -/
theorem GateReachable.sound {maxActiveJobs : Int}
    {condition : Condition Submissions GateStatement GateStatement.Reply
      GateOperation} {config : GateConfiguration}
    (reachable : GateReachable maxActiveJobs condition config) :
    Sound (gateDiscipline maxActiveJobs)
      (Submissions.Regular (max maxActiveJobs 1)) config :=
  (gateStart_sound maxActiveJobs).run (gateGuarantees maxActiveJobs) reachable

end FireCrow.Api
