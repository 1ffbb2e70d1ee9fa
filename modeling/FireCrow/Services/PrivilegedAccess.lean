import FireCrow.Library.Interleaving
import FireCrow.Library.Text

/-!
# Privileged access

`approve_request` and `revoke_grant` of the PAM service, statement by
statement over `pam_requests`, `pam_grants` and `pam_audit`.  There is no
transaction: every statement commits on its own, and others run in between.

The grant names no user, and `pam_grants.user_id` is `NOT NULL` without a
default, so no approval is ever completed.
-/

namespace FireCrow.Services.Pam

open FireCrow.Library

/-- A UTC time in microseconds. -/
abbrev Timestamp := Int

/-- `chrono::Duration::minutes`. -/
def minutes (count : Int) : Int := 60000000 * count

/-! ## Tables -/

/-- The columns of `pam_requests` that approval reads and writes. -/
structure PrivilegedAccessRequest where
  id : Text
  userId : Text
  status : Text
  approverId : Option Text
  startedAt : Option Timestamp
  endsAt : Option Timestamp
deriving DecidableEq, Repr

/-- A row of `pam_grants`. -/
structure PrivilegedAccessGrant where
  id : Text
  requestId : Text
  userId : Text
  grantedBy : Text
  expiresAt : Timestamp
  revoked : Bool
  revokedAt : Option Timestamp
  revokedBy : Option Text
  createdAt : Timestamp
deriving DecidableEq, Repr

/-- A row of `pam_audit`. -/
structure PrivilegedAccessAudit where
  id : Text
  requestId : Text
  action : Text
  actorId : Text
  details : Text
  createdAt : Timestamp
deriving DecidableEq, Repr

structure Database where
  requests : List PrivilegedAccessRequest
  grants : List PrivilegedAccessGrant
  audits : List PrivilegedAccessAudit
  clock : Timestamp
deriving DecidableEq, Repr

inductive DatabaseError where
  | unavailable
  | notNullViolation (column : Text)
  | foreignKeyViolation
  | uniqueViolation
deriving DecidableEq, Repr

inductive AppError where
  | database (error : DatabaseError)
  | notFound (message : Text)
  | badRequest (message : Text)
  | forbidden (message : Text)
deriving DecidableEq, Repr

namespace Database

/-- `UPDATE pam_requests SET status='approved', … WHERE id=$4`. -/
def approve (db : Database) (approverId : Text) (now endsAt : Timestamp)
    (requestId : Text) : Database :=
  { db with
    requests := db.requests.map fun request =>
      if request.id = requestId then
        { request with
          status := "approved"
          approverId := some approverId
          startedAt := some now
          endsAt := some endsAt }
      else request }

/-- An insert into `pam_grants` under the constraints of the table; a column
that the statement leaves out takes its default, and `user_id` has none. -/
def insertGrant (db : Database) (id requestId : Text) (userId : Option Text)
    (grantedBy : Text) (expiresAt createdAt : Timestamp) :
    Except DatabaseError (PrivilegedAccessGrant × Database) :=
  match userId with
  | none => .error (.notNullViolation "user_id")
  | some userId =>
      if db.grants.any fun grant => grant.id == id then .error .uniqueViolation
      else if db.requests.any fun request => request.id == requestId then
        let grant : PrivilegedAccessGrant :=
          { id, requestId, userId, grantedBy, expiresAt, createdAt
            revoked := false, revokedAt := none, revokedBy := none }
        .ok (grant, { db with grants := db.grants ++ [grant] })
      else .error .foreignKeyViolation

/-- `UPDATE pam_grants SET revoked=true, … WHERE id=$3`. -/
def revoke (db : Database) (now : Timestamp) (actorId grantId : Text) :
    Database :=
  { db with
    grants := db.grants.map fun grant =>
      if grant.id = grantId then
        { grant with
          revoked := true
          revokedAt := some now
          revokedBy := some actorId }
      else grant }

end Database

/-! ## Statements -/

inductive Statement where
  | utcNow
  | selectRequest (requestId : Text)
  | approve (approverId : Text) (now endsAt : Timestamp) (requestId : Text)
  | insertGrant (id requestId approverId : Text) (endsAt now : Timestamp)
  | selectGrant (grantId : Text)
  | revoke (now : Timestamp) (actorId grantId : Text)
  | insertAudit (audit : PrivilegedAccessAudit)

namespace Statement

def Answer : Statement → Type
  | .utcNow => Timestamp
  | .selectRequest _ => Option PrivilegedAccessRequest
  | .insertGrant .. => PrivilegedAccessGrant
  | .selectGrant _ => Option PrivilegedAccessGrant
  | _ => Unit

def run (db : Database) : (statement : Statement) →
    Except DatabaseError (statement.Answer × Database)
  | .utcNow => .ok (db.clock, db)
  | .selectRequest requestId =>
      .ok (db.requests.find? fun request => request.id = requestId, db)
  | .approve approverId now endsAt requestId =>
      .ok ((), db.approve approverId now endsAt requestId)
  -- `INSERT INTO pam_grants (id, request_id, granted_by, expires_at,
  -- created_at)`: the statement has no `user_id`.
  | .insertGrant id requestId approverId endsAt now =>
      db.insertGrant id requestId none approverId endsAt now
  | .selectGrant grantId =>
      .ok (db.grants.find? fun grant =>
        grant.id = grantId ∧ grant.revoked = false, db)
  | .revoke now actorId grantId => .ok ((), db.revoke now actorId grantId)
  | .insertAudit audit =>
      if db.audits.any fun other => other.id == audit.id then
        .error .uniqueViolation
      else .ok ((), { db with audits := db.audits ++ [audit] })

abbrev Reply (statement : Statement) : Type := Except AppError statement.Answer

/-- A refused statement leaves the state. -/
def answer (db : Database) (statement : Statement) :
    statement.Reply × Database :=
  match statement.run db with
  | .ok (answer, after) => (.ok answer, after)
  | .error error => (.error (.database error), db)

end Statement

/-! ## Operations -/

abbrev Task := Program Statement Statement.Reply AppError

def ask (statement : Statement) : Task statement.Answer := .ask statement .done

/-- `approve_request`, with the id that it draws for the grant. -/
def approveRequest (requestId approverId : Text) (durationMinutes : Int)
    (grantId : Text) : Task PrivilegedAccessGrant := do
  let found : Option PrivilegedAccessRequest ← ask (.selectRequest requestId)
  match found with
  | none => .fail (.notFound "Request not found")
  | some request =>
      if request.status ≠ ("pending" : Text) then
        .fail (.badRequest "Request is not pending")
      else if request.userId = approverId then
        .fail (.forbidden "You cannot approve your own privilege request")
      else
        let now : Timestamp ← ask .utcNow
        let endsAt := now + minutes durationMinutes
        let _ ← ask (.approve approverId now endsAt requestId)
        ask (.insertGrant grantId requestId approverId endsAt now)

/-- `revoke_grant`, with the id that it draws for the audit row. -/
def revokeGrant (grantId actorId auditId : Text) : Task Unit := do
  let found : Option PrivilegedAccessGrant ← ask (.selectGrant grantId)
  match found with
  | none => .fail (.notFound "Grant not found")
  | some grant =>
      let now : Timestamp ← ask .utcNow
      let _ ← ask (.revoke now actorId grantId)
      let _ ← ask (.insertAudit
        { id := auditId
          requestId := grant.requestId
          action := "revoke"
          actorId := actorId
          details := "Revoked by admin"
          createdAt := now })

inductive Operation where
  | approveRequest (requestId approverId : Text) (durationMinutes : Int)
      (grantId : Text)
  | revokeGrant (grantId actorId auditId : Text)

def Operation.program : Operation → Task Unit
  | .approveRequest requestId approverId durationMinutes grantId =>
      (Pam.approveRequest requestId approverId durationMinutes grantId).discard
  | .revokeGrant grantId actorId auditId =>
      Pam.revokeGrant grantId actorId auditId

def machine : Machine Database Statement Statement.Reply AppError Operation where
  answer := Statement.answer
  failure _ := .error (.database .unavailable)
  elapse db duration := { db with clock := db.clock + duration }
  program := Operation.program
  permitted _ _ := True

instance (db : Database) (operation : Operation) :
    Decidable (machine.permitted db operation) :=
  inferInstanceAs (Decidable True)

abbrev Configuration := Config Database Statement Statement.Reply AppError

/-! ## What no statement changes -/

/-- The number of grants for a request, revoked ones included. -/
def Database.grantsFor (db : Database) (requestId : Text) : Nat :=
  db.grants.countP fun grant => grant.requestId = requestId

/-- The requests with their owners, and the request of every grant. -/
structure SameRecords (before after : Database) : Prop where
  requests : after.requests.map (fun request => (request.id, request.userId)) =
    before.requests.map fun request => (request.id, request.userId)
  grants : after.grants.map PrivilegedAccessGrant.requestId =
    before.grants.map PrivilegedAccessGrant.requestId

theorem SameRecords.refl (db : Database) : SameRecords db db := ⟨rfl, rfl⟩

theorem SameRecords.trans {first second third : Database}
    (before : SameRecords first second) (after : SameRecords second third) :
    SameRecords first third :=
  ⟨after.requests.trans before.requests, after.grants.trans before.grants⟩

variable {before after : Database}

theorem SameRecords.grantsFor
    (same : SameRecords before after) (requestId : Text) :
    after.grantsFor requestId = before.grantsFor requestId := by
  have counted : ∀ db : Database, db.grantsFor requestId =
      (db.grants.map PrivilegedAccessGrant.requestId).countP
        fun id => id = requestId := by
    intro db
    rw [List.countP_map]
    rfl
  rw [counted, counted, same.grants]

theorem SameRecords.owner
    (same : SameRecords before after) {request : PrivilegedAccessRequest}
    (member : request ∈ after.requests) :
    ∃ earlier ∈ before.requests,
      earlier.id = request.id ∧ earlier.userId = request.userId := by
  have listed : (request.id, request.userId) ∈
      before.requests.map fun request => (request.id, request.userId) := by
    rw [← same.requests]
    exact List.mem_map_of_mem member
  rcases List.mem_map.1 listed with ⟨earlier, inside, pair⟩
  exact ⟨earlier, inside, (Prod.mk.injEq .. ▸ pair).1,
    (Prod.mk.injEq .. ▸ pair).2⟩

/-- No statement adds or removes a request or a grant: the insert of a grant
is refused. -/
theorem Statement.answer_sameRecords (db : Database) (statement : Statement) :
    SameRecords db (statement.answer db).2 := by
  cases statement with
  | utcNow | selectRequest => exact .refl db
  | approve approverId now endsAt requestId =>
      refine ⟨?_, rfl⟩
      change ((db.approve approverId now endsAt requestId).requests.map _) = _
      rw [Database.approve, List.map_map]
      apply List.map_congr_left
      intro request _
      dsimp only [Function.comp_apply]
      split <;> rfl
  | insertGrant | selectGrant => exact .refl db
  | revoke now actorId grantId =>
      refine ⟨rfl, ?_⟩
      change ((db.revoke now actorId grantId).grants.map _) = _
      rw [Database.revoke, List.map_map]
      apply List.map_congr_left
      intro grant _
      dsimp only [Function.comp_apply]
      split <;> rfl
  | insertAudit audit =>
      rw [Statement.answer, Statement.run]
      split
      · rename_i outcome
        split at outcome
        · cases outcome
        · cases outcome
          exact ⟨rfl, rfl⟩
      · exact .refl db

variable {statement : Statement}

theorem Statement.answer_requests (db : Database)
    (other : ∀ approverId now endsAt requestId,
      statement ≠ .approve approverId now endsAt requestId) :
    (statement.answer db).2.requests = db.requests := by
  cases statement with
  | approve approverId now endsAt requestId =>
      exact absurd rfl (other approverId now endsAt requestId)
  | insertAudit audit =>
      rw [Statement.answer, Statement.run]
      split
      · rename_i outcome
        split at outcome
        · cases outcome
        · cases outcome
          rfl
      · rfl
  | _ => rfl

/-! ## All or nothing -/

/-- A request is approved exactly when it has one grant, and a pending one has
none. -/
structure Consistent (db : Database) : Prop where
  approved : ∀ request ∈ db.requests,
    request.status = ("approved" : Text) ↔ db.grantsFor request.id = 1
  pending : ∀ request ∈ db.requests,
    request.status = ("pending" : Text) → db.grantsFor request.id = 0

/-- Nobody has approved a request of their own. -/
def Separate (db : Database) : Prop :=
  ∀ request ∈ db.requests, request.approverId ≠ some request.userId

/-- Every request is as it was, with its grants. -/
structure Untouched (before after : Database) : Prop where
  requests : after.requests = before.requests
  grants : after.grants.map PrivilegedAccessGrant.requestId =
    before.grants.map PrivilegedAccessGrant.requestId

theorem Untouched.consistent
    (untouched : Untouched before after) (consistent : Consistent before) :
    Consistent after := by
  have same : SameRecords before after :=
    ⟨by rw [untouched.requests], untouched.grants⟩
  constructor
  · intro request member
    rw [untouched.requests] at member
    rw [same.grantsFor]
    exact consistent.approved request member
  · intro request member waiting
    rw [untouched.requests] at member
    rw [same.grantsFor]
    exact consistent.pending request member waiting

/-- No update of an approval takes effect on a request. -/
def Unapproving : Condition Database Statement Statement.Reply Operation
  | db, .executed _ (.approve _ _ _ requestId) _, after =>
      after = db ∨ ∀ request ∈ db.requests, request.id ≠ requestId
  | _, _, _ => True

variable {db : Database}

theorem Untouched.step {start : Database} {process : Nat}
    {reply : statement.Reply} (untouched : Untouched start db)
    (spared : Unapproving db (.executed process statement reply)
      (statement.answer db).2) :
    Untouched start (statement.answer db).2 := by
  have grants := (statement.answer_sameRecords db).grants
  refine ⟨?_, grants.trans untouched.grants⟩
  by_cases approval : ∃ approverId now endsAt requestId,
      statement = .approve approverId now endsAt requestId
  · rcases approval with ⟨approverId, now, endsAt, requestId, rfl⟩
    rcases spared with same | absent
    · rw [same]
      exact untouched.requests
    · have kept : (db.approve approverId now endsAt requestId).requests =
          db.requests := by
        refine (List.map_congr_left fun request member => ?_).trans
          (List.map_id db.requests)
        exact if_neg (absent request member)
      exact kept.trans untouched.requests
  · simp only [not_exists] at approval
    exact (Statement.answer_requests db approval).trans untouched.requests

/-! ## What a call knows -/

/-- What an approval may rely on when it updates: the request is another
user's, and it had not exactly one grant. -/
structure Approvable (db : Database) (approverId requestId : Text) : Prop where
  owner : ∀ request ∈ db.requests, request.id = requestId →
    request.userId ≠ approverId
  ungranted : db.grantsFor requestId ≠ 1

variable {requestId : Text}

theorem Approvable.same {approverId : Text}
    (approvable : Approvable before approverId requestId)
    (same : SameRecords before after) :
    Approvable after approverId requestId := by
  constructor
  · intro request member chosen
    rcases same.owner member with ⟨earlier, inside, id, owner⟩
    rw [← owner]
    exact approvable.owner earlier inside (id.trans chosen)
  · rw [same.grantsFor]
    exact approvable.ungranted

/-- The tables at any moment: ids are unique, nobody has approved for
themselves, and a pending request is not granted once. -/
structure Regular (db : Database) : Prop where
  ids : (db.requests.map PrivilegedAccessRequest.id).Nodup
  separate : Separate db
  waiting : ∀ request ∈ db.requests, request.status = ("pending" : Text) →
    db.grantsFor request.id ≠ 1

def requires (db : Database) : Statement → Prop
  | .approve approverId _ _ requestId => Approvable db approverId requestId
  | _ => True

def discipline : Discipline Database Statement Statement.Reply where
  executes db statement reply after :=
    Regular db ∧ machine.Executes db statement reply after
  rely := SameRecords
  requires := requires
  rely_refl := .refl
  rely_trans := fun before after => before.trans after

theorem executes_same {reply : statement.Reply}
    (executes : discipline.executes db statement reply after) :
    SameRecords db after := by
  rcases executes.2.after_cases with rfl | rfl
  · exact .refl _
  · exact statement.answer_sameRecords db

theorem executes_selectRequest {request : PrivilegedAccessRequest}
    (executes : discipline.executes db (.selectRequest requestId)
      (.ok (some request)) after) :
    after = db ∧ request ∈ db.requests ∧ request.id = requestId := by
  rcases executes.2.reply_cases with answered | failed
  · rcases Prod.mk.inj answered with ⟨replied, same⟩
    have found := Except.ok.inj replied
    exact ⟨same.symm, List.mem_of_find?_eq_some found,
      by simpa using List.find?_some found⟩
  · cases failed

theorem approveRequest_safe (requestId approverId : Text) (duration : Int)
    (grantId : Text) (db : Database) :
    (approveRequest requestId approverId duration grantId).Safe discipline
      (fun _ _ => True) db := by
  intro later _
  refine ⟨trivial, fun reply after executes => ?_⟩
  rcases reply with error | found
  · exact fun _ _ => trivial
  cases found with
  | none => exact fun _ _ => trivial
  | some request =>
      rcases executes_selectRequest executes with ⟨rfl, member, rfl⟩
      change Program.Safe discipline _ (ite _ _ (ite _ _ _)) after
      split
      · exact fun _ _ => trivial
      rename_i pending
      split
      · exact fun _ _ => trivial
      rename_i owner
      rw [not_not] at pending
      have approvable : Approvable after approverId request.id := by
        refine ⟨fun other inside same => ?_,
          executes.1.waiting request member pending⟩
        rw [List.inj_on_of_nodup_map executes.1.ids inside member same]
        exact owner
      apply Program.Safe.mono (Program.Asks.safe_known
        (fun {state _} same (known : Approvable state approverId request.id) =>
          known.same same)
        (fun executes known => known.same (executes_same executes))
        ?_ approvable)
      · exact fun _ _ _ => trivial
      · refine ⟨fun _ _ => trivial, fun reply => ?_⟩
        rcases reply with error | now
        · trivial
        refine ⟨fun _ known => known, fun reply => ?_⟩
        rcases reply with error | _
        · trivial
        exact ⟨fun _ _ => trivial, fun reply => by cases reply <;> trivial⟩

theorem revokeGrant_safe (grantId actorId auditId : Text) (db : Database) :
    (revokeGrant grantId actorId auditId).Safe discipline
      (fun _ _ => True) db := by
  apply Program.Asks.safe
  refine ⟨fun _ => trivial, fun reply => ?_⟩
  rcases reply with error | found
  · trivial
  cases found with
  | none => trivial
  | some grant =>
      refine ⟨fun _ => trivial, fun reply => ?_⟩
      rcases reply with error | now
      · trivial
      refine ⟨fun _ => trivial, fun reply => ?_⟩
      rcases reply with error | _
      · trivial
      exact ⟨fun _ => trivial, fun reply => by cases reply <;> trivial⟩

theorem Operation.program_safe (operation : Operation) (db : Database) :
    operation.program.Safe discipline (fun _ _ => True) db := by
  cases operation with
  | approveRequest requestId approverId duration grantId =>
      exact (approveRequest_safe requestId approverId duration grantId db).bind
        (fun _ _ _ => trivial) (fun _ _ _ _ _ => trivial)
  | revokeGrant grantId actorId auditId =>
      exact revokeGrant_safe grantId actorId auditId db

/-! ## Every run -/

theorem Regular.approve (regular : Regular db) {approverId : Text}
    (approvable : Approvable db approverId requestId) (now endsAt : Timestamp) :
    Regular (db.approve approverId now endsAt requestId) := by
  have cases : ∀ request ∈
      (db.approve approverId now endsAt requestId).requests,
      request ∈ db.requests ∨ request.status = ("approved" : Text) ∧
        request.approverId = some approverId ∧
          ∃ earlier ∈ db.requests, earlier.id = requestId ∧
            earlier.userId = request.userId := by
    intro request member
    rcases List.mem_map.1 member with ⟨earlier, inside, rfl⟩
    split
    · rename_i chosen
      exact .inr ⟨rfl, rfl, earlier, inside, chosen, rfl⟩
    · exact .inl inside
  constructor
  · have ids : (db.approve approverId now endsAt requestId).requests.map
        PrivilegedAccessRequest.id =
          db.requests.map PrivilegedAccessRequest.id := by
      rw [Database.approve, List.map_map]
      apply List.map_congr_left
      intro request _
      dsimp only [Function.comp_apply]
      split <;> rfl
    rw [ids]
    exact regular.ids
  · intro request member
    rcases cases request member with
      old | ⟨_, approver, earlier, inside, chosen, owner⟩
    · exact regular.separate request old
    · rw [approver, ← owner]
      exact fun same =>
        approvable.owner earlier inside chosen (Option.some.inj same).symm
  · intro request member waiting
    rcases cases request member with old | ⟨approved, _⟩
    · exact regular.waiting request old waiting
    · rw [approved] at waiting
      exact absurd waiting (by decide)

theorem Regular.answer (regular : Regular db)
    (required : requires db statement) : Regular (statement.answer db).2 := by
  by_cases approval : ∃ approverId now endsAt requestId,
      statement = .approve approverId now endsAt requestId
  · rcases approval with ⟨approverId, now, endsAt, requestId, rfl⟩
    exact regular.approve required now endsAt
  · simp only [not_exists] at approval
    have kept := Statement.answer_requests db approval
    have same := statement.answer_sameRecords db
    refine ⟨?_, ?_, ?_⟩
    · rw [kept]
      exact regular.ids
    · rw [Separate, kept]
      exact regular.separate
    · intro request member waiting
      rw [kept] at member
      rw [same.grantsFor]
      exact regular.waiting request member waiting

theorem guarantees : GuaranteesUnder machine discipline anyStep Regular where
  executes := fun regular _ executes => ⟨regular, executes⟩
  operation := fun _ _ => Operation.program_safe _ _
  statement := fun regular required _ =>
    ⟨regular.answer required, Statement.answer_sameRecords _ _⟩
  time := fun _ regular =>
    ⟨⟨regular.ids, regular.separate, regular.waiting⟩, rfl, rfl⟩

/-- Tables under their constraints, consistent at first, and no call under
way. -/
structure Start (config : Configuration) : Prop where
  ids : (config.state.requests.map PrivilegedAccessRequest.id).Nodup
  consistent : Consistent config.state
  separate : Separate config.state
  idle : ∀ process, config.processes process = none

theorem Start.sound {config : Configuration} (start : Start config) :
    Sound discipline Regular config where
  inv :=
    { ids := start.ids
      separate := start.separate
      waiting := fun request member waiting => by
        rw [start.consistent.pending request member waiting]
        exact Nat.zero_ne_one }
  safe := fun process program running => by
    rw [start.idle process] at running
    cases running

/-- A request that is approved, but not granted once. -/
def Broken (requestId : Text) (db : Database) : Prop :=
  (∃ request ∈ db.requests, request.id = requestId ∧
    request.status = ("approved" : Text)) ∧ db.grantsFor requestId ≠ 1

theorem Broken.answer (broken : Broken requestId db) (statement : Statement) :
    Broken requestId (statement.answer db).2 := by
  rcases broken with ⟨⟨request, member, id, approved⟩, ungranted⟩
  constructor
  · by_cases approval : ∃ approverId now endsAt chosen,
        statement = .approve approverId now endsAt chosen
    · rcases approval with ⟨approverId, now, endsAt, chosen, rfl⟩
      refine ⟨_, List.mem_map_of_mem member, ?_⟩
      split
      · exact ⟨id, rfl⟩
      · exact ⟨id, approved⟩
    · simp only [not_exists] at approval
      rw [Statement.answer_requests db approval]
      exact ⟨request, member, id, approved⟩
  · rw [(statement.answer_sameRecords db).grantsFor]
    exact ungranted

theorem Broken.inconsistent
    (broken : Broken requestId db) : ¬ Consistent db := by
  rcases broken with ⟨⟨request, member, rfl, approved⟩, ungranted⟩
  exact fun consistent =>
    ungranted ((consistent.approved request member).1 approved)

theorem Broken.of_step {before after : Configuration}
    {event : Event Statement Statement.Reply Operation}
    (sound : Sound discipline Regular before)
    (step : machine.Step before event after)
    (approving : ¬ Unapproving before.state event after.state) :
    ∃ requestId, Broken requestId after.state := by
  cases step with
  | call | crash | elapse => exact absurd trivial approving
  | @execute process statement next reply later running executes =>
      cases statement with
      | approve approverId now endsAt requestId =>
          have approvable : Approvable before.state approverId requestId :=
            (sound.safe process _ running _ (SameRecords.refl _)).1
          simp only [Unapproving, not_or, not_forall, not_not] at approving
          rcases approving with ⟨changed, request, member, id⟩
          have effect : later =
              before.state.approve approverId now endsAt requestId :=
            executes.after_cases.resolve_left changed
          rw [effect]
          refine ⟨requestId, ⟨_, List.mem_map_of_mem member, ?_⟩,
            approvable.ungranted⟩
          rw [if_pos id]
          exact ⟨id, rfl⟩
      | _ => exact absurd trivial approving

/-- However approvals and revocations interleave, fail and crash: nobody ever
approves a request of their own; as long as no update of an approval takes
effect, every request stays as it was, pending ones without a grant; and from
the first update that does, there is a request that is approved and not
granted. -/
theorem approval_all_or_nothing_iff {start : Configuration}
    (started : Start start) :
    (∀ after, machine.Run anyStep start after → Separate after.state) ∧
    (∀ after, machine.Run Unapproving start after →
      Untouched start.state after.state ∧ Consistent after.state) ∧
    ∀ before event after later, machine.Run anyStep start before →
      machine.Step before event after →
      ¬ Unapproving before.state event after.state →
      machine.Run anyStep after later → ¬ Consistent later.state := by
  refine ⟨fun after run => ?_, fun after run => ?_, ?_⟩
  · exact (started.sound.runUnder guarantees run).inv.separate
  · have untouched : Untouched start.state after.state :=
      run.keeps (Untouched start.state)
        (fun spared untouched => untouched.step spared)
        (fun _ untouched => ⟨untouched.requests, untouched.grants⟩) ⟨rfl, rfl⟩
    exact ⟨untouched, untouched.consistent started.consistent⟩
  · intro before event after later reached step approving onward
    rcases Broken.of_step (started.sound.runUnder guarantees reached) step
      approving with ⟨requestId, broken⟩
    have lasting : Broken requestId later.state :=
      onward.keeps (Broken requestId) (fun _ broken => broken.answer _)
        (fun _ broken => broken) broken
    exact lasting.inconsistent

/-! ## An approval -/

/-- A pending request of alice. -/
def aliceAsks : Configuration where
  state :=
    { requests := [⟨"request-1", "alice", "pending", none, none, none⟩]
      grants := []
      audits := []
      clock := 0 }
  processes _ := none

theorem aliceAsks_start : Start aliceAsks where
  ids := by decide
  consistent := ⟨by decide, by decide⟩
  separate := by
    rw [Separate]
    decide
  idle := fun _ => rfl

theorem approval_all_or_nothing_iff_aliceAsks : Separate aliceAsks.state :=
  (approval_all_or_nothing_iff aliceAsks_start).1 aliceAsks .refl

/-- Bob approves the request of alice, with nothing in between. -/
def bobApproves : Configuration :=
  machine.schedule (fun _ _ => true) aliceAsks
    [.call 0 (.approveRequest "request-1" "bob" 60 "grant-1"), .advance 0 4]

/-- The call ends with an error, and the request is approved without a
grant. -/
theorem bobApproves_halfway :
    machine.Run anyStep aliceAsks bobApproves ∧
      ((approveRequest "request-1" "bob" 60 "grant-1").alone Statement.answer
        aliceAsks.state).1 =
          .error (.database (.notNullViolation "user_id")) ∧
      bobApproves.state =
        ((approveRequest "request-1" "bob" 60 "grant-1").alone Statement.answer
          aliceAsks.state).2 ∧
      bobApproves.state.requests.map (fun request => request.status) =
        [("approved" : Text)] ∧
      bobApproves.state.grants = [] ∧ ¬ Consistent bobApproves.state := by
  have admits : Admits machine (fun _ _ => true) anyStep :=
    ⟨fun _ => trivial, trivial, trivial, fun _ => trivial⟩
  refine ⟨admits.schedule aliceAsks _, ?_, ?_, ?_, ?_, ?_⟩
  · decide
  · decide
  · decide
  · decide
  · have broken : Broken "request-1" bobApproves.state :=
      ⟨by decide, by decide⟩
    exact broken.inconsistent

end FireCrow.Services.Pam
