import FireCrow.Orchestrator.DeliverySafety

/-!
# Answers of the delivery routes

The two routes that deliver a report answer with an outcome and with a row of
the table of deliveries.  An outcome speaks of the row that was sent.  The
Telegram route reads the row of the version that it has resolved; the e-mail
route reads the row of the first version, whichever was sent.
-/

namespace FireCrow.Orchestrator.Delivery

open FireCrow.Library

/-! ## Routes -/

def DeliveryOutcome.asStr : DeliveryOutcome → Text
  | .sent => "sent"
  | .alreadySent => "already_sent"

/-- The answer of the e-mail route. -/
structure EmailAnswer where
  status : Text
  executionId : Text
  deliveryStatus : Option DeliveryState
  recipient : Text
deriving DecidableEq

/-- The answer of the Telegram route.  Where nothing is sent again it has no
delivery status. -/
structure TelegramAnswer where
  status : Text
  executionId : Text
  deliveryStatus : Option (Option DeliveryState)
  messageIsSummary : Bool
  omittedFindings : Nat
deriving DecidableEq

/-- `email_execution_report`, once the owner, the recipient and the artifact are
at hand.  The mailer is what it answers, where one is configured. -/
def emailExecutionReport (executionId recipient : Text)
    (mailer : Option (Except DeliveryError (Option Text))) :
    Task EmailAnswer := do
  match mailer with
  | none => .fail (.delivery .notConfigured)
  | some sender =>
      let outcome ← deliverExecutionEmail executionId recipient sender
      let status : Option DeliveryState ←
        query (.deliveryState ⟨⟨executionId, .email, recipient⟩, 1⟩)
      return {
        status := outcome.asStr
        executionId := executionId
        deliveryStatus := status
        recipient := recipient }

structure TelegramSettings where
  botToken : Text
  chatId : Text

/-- What the route needs of the rendered message. -/
structure RenderedMessage where
  isSummary : Bool
  omittedFindings : Nat

/-- `telegram_execution_report`, once the owner and the content are at hand.
The transport is what it answers, unless it cannot be built. -/
def telegramReport (executionId : Text) (settings : TelegramSettings)
    (message : RenderedMessage)
    (transport : Except DeliveryError (Except DeliveryError Text)) :
    Task TelegramAnswer := do
  let chatId := settings.chatId.trim
  if settings.botToken.trim.isEmpty || chatId.isEmpty then
    .fail (.delivery .notConfigured)
  else
    match transport with
    | .error error => .fail (.delivery error)
    | .ok sender =>
        let target : Target := ⟨executionId, .telegram, chatId⟩
        let alreadySent : Bool ← query (.alreadySent target)
        if alreadySent then
          return {
            status := "already_sent"
            executionId := executionId
            deliveryStatus := none
            messageIsSummary := message.isSummary
            omittedFindings := message.omittedFindings }
        else
          let deliveryVersion ← resolveDeliveryVersion target
          let key : DeliveryKey :=
            { target with deliveryVersion := deliveryVersion }
          let outcome ← deliver key (sender.map some)
          let status : Option DeliveryState ← query (.deliveryState key)
          return {
            status := outcome.asStr
            executionId := executionId
            deliveryStatus := some status
            messageIsSummary := message.isSummary
            omittedFindings := message.omittedFindings }

/-! ## What an answer reports -/

/-- An answer, with the chat that the Telegram route has read. -/
inductive Response where
  | email (answer : EmailAnswer)
  | telegram (chatId : Text) (answer : TelegramAnswer)
deriving DecidableEq

namespace Response

def target : Response → Target
  | .email answer => ⟨answer.executionId, .email, answer.recipient⟩
  | .telegram chatId answer => ⟨answer.executionId, .telegram, chatId⟩

/-- The row that the answer reports, where it reports one. -/
def reported : Response → Option (Option DeliveryState)
  | .email answer => some answer.deliveryStatus
  | .telegram _ answer => answer.deliveryStatus

end Response

/-- The columns that an answer reports. -/
def AuditDelivery.state (row : AuditDelivery) : DeliveryState where
  status := row.status
  failureClass := row.failureClass
  providerMessageId := row.providerMessageId
  attempts := row.attempts

/-- The delivery that an outcome speaks of: a target has one sent row at most. -/
def Database.delivered (db : Database) (target : Target) :
    Option AuditDelivery :=
  (db.of target).find? fun row => row.status = .sent

/-- The row that is reported is the row of the version that was sent. -/
def Response.Agrees (response : Response) (db : Database) : Prop :=
  ∀ reported, response.reported = some reported →
    ∃ row, db.delivered response.target = some row ∧ reported = some row.state

/-! ## Statements -/

/-- A statement on the table, or the answer to a request. -/
inductive RouteStatement where
  | table (statement : Statement)
  | respond (response : Response)

def RouteStatement.Reply : RouteStatement → Type
  | .table statement => statement.Reply
  | .respond _ => Unit

/-- The table, and the answers that were given. -/
structure Desk where
  deliveries : Database
  answers : List Response
deriving DecidableEq

namespace RouteStatement

def answer (desk : Desk) : (statement : RouteStatement) →
    statement.Reply × Desk
  | .table statement =>
      ((statement.answer desk.deliveries).1,
        { desk with deliveries := (statement.answer desk.deliveries).2 })
  | .respond response => ((), { desk with answers := desk.answers ++ [response] })

def failure : (statement : RouteStatement) → statement.Reply
  | .table _ => Except.error (AppError.database .unavailable)
  | .respond _ => ()

end RouteStatement

abbrev RouteTask := Program RouteStatement RouteStatement.Reply AppError

/-- Run a route and give its answer. -/
def respondWith {Answer : Type} (task : Task Answer)
    (response : Answer → Response) : RouteTask Unit := do
  let answer ← task.lift .table fun _ reply => reply
  .ask (.respond (response answer)) fun _ => .done (.ok ())

/-- The requests. -/
inductive RouteOperation where
  | email (executionId recipient : Text)
      (mailer : Option (Except DeliveryError (Option Text)))
  | telegram (executionId : Text) (settings : TelegramSettings)
      (message : RenderedMessage)
      (transport : Except DeliveryError (Except DeliveryError Text))

def RouteOperation.program : RouteOperation → RouteTask Unit
  | .email executionId recipient mailer =>
      respondWith (emailExecutionReport executionId recipient mailer) .email
  | .telegram executionId settings message transport =>
      respondWith (telegramReport executionId settings message transport)
        (.telegram settings.chatId.trim)

/-- The routes over one table. -/
def routes :
    Machine Desk RouteStatement RouteStatement.Reply AppError RouteOperation where
  answer := RouteStatement.answer
  failure := RouteStatement.failure
  elapse desk duration :=
    { desk with
      deliveries :=
        { desk.deliveries with now := desk.deliveries.now + duration } }
  program := RouteOperation.program
  permitted _ _ := True

instance (desk : Desk) (operation : RouteOperation) :
    Decidable (routes.permitted desk operation) :=
  isTrue trivial

abbrev RouteConfiguration :=
  Config Desk RouteStatement RouteStatement.Reply AppError

/-- No delivery, no answer and no request, for the executions that there are. -/
def opened (executions : List Text) : RouteConfiguration where
  state :=
    { deliveries := { now := 0, executions := executions, deliveries := [] }
      answers := [] }
  processes _ := none

/-- What any run of the routes reaches. -/
def RoutesReach (config : RouteConfiguration) : Prop :=
  ∃ executions, routes.Run anyStep (opened executions) config

/-! ## What is reported -/

/-- An answer goes with a sent row.  The e-mail route reports it where it is the
first version, and the failure of the first version elsewhere. -/
def Response.Recorded (response : Response) (db : Database) : Prop :=
  match response with
  | .email answer =>
      ∃ row ∈ db.deliveries, row.toTarget = response.target ∧
        row.status = .sent ∧
        ∃ reported, answer.deliveryStatus = some reported ∧
          if row.deliveryVersion = 1 then reported = row.state
          else reported.status = .failed
  | .telegram _ answer =>
      ∀ reported, answer.deliveryStatus = some reported →
        ∃ row ∈ db.deliveries, row.toTarget = response.target ∧
          row.status = .sent ∧ reported = some row.state

section Table

variable {db later : Database}

theorem Response.Recorded.mono {response : Response}
    (recorded : response.Recorded db) (precedes : db.Precedes later) :
    response.Recorded later := by
  have stays : ∀ row ∈ db.deliveries, row.status = .sent →
      row ∈ later.deliveries := by
    intro row member sent
    rcases precedes.successor row member with ⟨now, inside, continues⟩
    exact continues.frozen sent ▸ inside
  cases response with
  | email answer =>
      rcases recorded with ⟨row, member, of, sent, reported⟩
      exact ⟨row, stays row member sent, of, sent, reported⟩
  | telegram chatId answer =>
      intro reported same
      rcases recorded reported same with ⟨row, member, of, sent, rfl⟩
      exact ⟨row, stays row member sent, of, sent, rfl⟩

/-- The sent row is the one that is delivered. -/
theorem Database.Consistent.delivered_eq (consistent : db.Consistent)
    {row : AuditDelivery} (member : row ∈ db.deliveries)
    (sent : row.status = .sent) : db.delivered row.toTarget = some row := by
  unfold Database.delivered
  cases found : (db.of row.toTarget).find? fun row => row.status = .sent with
  | none =>
      have absent := List.find?_eq_none.1 found row (mem_of.2 ⟨member, rfl⟩)
      exact absurd (decide_eq_true sent) absent
  | some other =>
      have inside := mem_of.1 (List.mem_of_find?_eq_some found)
      have status : other.status = .sent := by
        simpa using List.find?_some found
      rw [consistent.sent_unique inside.1 member inside.2 status sent]

/-- The first version was sent exactly where none has failed. -/
theorem Database.Consistent.first_iff (consistent : db.Consistent)
    {row : AuditDelivery} (member : row ∈ db.deliveries)
    (sent : row.status = .sent) :
    row.deliveryVersion = 1 ↔ ∀ version, ¬ db.Failed row.toTarget version := by
  constructor
  · rintro first version ⟨other, inside, of, numbered, failed⟩
    have apart : ¬ other.deliveryVersion ≤ 1 := by
      intro low
      have same : other = row := by
        refine consistent.delivery_unique inside member ?_
        rw [DeliveryKey.mk.injEq]
        exact ⟨of, (le_antisymm low (consistent.positive other inside)).trans
          first.symm⟩
      rw [same, sent] at failed
      cases failed
    have before : row.deliveryVersion < other.deliveryVersion :=
      first ▸ not_le.1 apart
    have status := consistent.failed_before member
      (consistent.turns other inside) of.symm before
    rw [sent] at status
    cases status
  · intro unfailed
    by_contra later
    have positive := consistent.positive row member
    exact unfailed 1 (consistent.turns row member 1 le_rfl
      (lt_of_le_of_ne positive (Ne.symm later)))

/-- An answer agrees with its row unless an e-mail was delivered after a
failure. -/
theorem Response.Recorded.agrees_iff {response : Response}
    (recorded : response.Recorded db) (consistent : db.Consistent) :
    response.Agrees db ↔
      (response.target.channel = .email →
        ∀ version, ¬ db.Failed response.target version) := by
  cases response with
  | telegram chatId answer =>
      refine ⟨fun _ => nofun, fun _ reported same => ?_⟩
      rcases recorded reported same with ⟨row, member, of, sent, rfl⟩
      exact ⟨row, of ▸ consistent.delivered_eq member sent, rfl⟩
  | email answer =>
      rcases recorded with ⟨row, member, of, sent, reported, same, told⟩
      have delivered := consistent.delivered_eq member sent
      rw [of] at delivered
      have first := consistent.first_iff member sent
      rw [of] at first
      constructor
      · intro agrees _
        rw [← first]
        by_contra later
        rw [if_neg later] at told
        rcases agrees _ rfl with ⟨other, found, equal⟩
        rw [delivered, Option.some.injEq] at found
        rw [same, Option.some.injEq, ← found] at equal
        rw [equal] at told
        exact absurd (sent.symm.trans told) nofun
      · intro unfailed _ equal
        rw [if_pos (first.2 (unfailed rfl))] at told
        cases equal
        exact ⟨row, delivered, told ▸ same⟩

end Table

/-! ## Safety of the routes -/

section Programs

variable {db : Database}

theorem consistent_safe {Result : Type} {program : Task Result}
    {ensures : Database → Except AppError Result → Prop}
    (safe : program.Safe discipline ensures db) (consistent : db.Consistent) :
    program.Safe discipline
      (fun db result => ensures db result ∧ db.Consistent) db := by
  refine safe.keeping ?_ ?_ consistent
  · exact fun relied => relied.consistent
  · exact fun required executes kept =>
      kept.step (Executes.effect executes) required

theorem emailExecutionReport_safe (executionId recipient : Text)
    (mailer : Option (Except DeliveryError (Option Text)))
    (consistent : db.Consistent) :
    (emailExecutionReport executionId recipient mailer).Safe discipline
      (fun db result => ∀ answer, result = .ok answer →
        (Response.email answer).Recorded db) db := by
  cases mailer with
  | none => exact fun _ _ _ => nofun
  | some sender =>
      refine (consistent_safe (deliverExecutionEmail_safe executionId recipient
        sender consistent) consistent).bind (fun _ _ _ _ => nofun) ?_
      rintro state outcome ⟨ensured, kept⟩
      refine query_bind_safe (fun _ => trivial) (fun _ _ _ => nofun) ?_
      intro later status after relied ran
      cases ran
      intro last precedes answer same
      cases same
      refine Response.Recorded.mono ?_ precedes
      rcases (ensured outcome rfl).mono relied.successor with
        ⟨version, row, member, same, sent⟩
      have consistent := relied.consistent kept
      refine ⟨row, member, congrArg DeliveryKey.toTarget same, sent, ?_⟩
      split
      · rename_i first
        have found := consistent.delivery?_eq member
        rw [same] at found
        have numbered : version = 1 :=
          (congrArg DeliveryKey.deliveryVersion same).symm.trans first
        rw [numbered] at found
        exact ⟨row.state, congrArg (Option.map AuditDelivery.state) found, rfl⟩
      · rename_i further
        have positive := consistent.positive row member
        rcases consistent.turns row member 1 le_rfl
            (lt_of_le_of_ne positive (Ne.symm further)) with
          ⟨other, inside, of, numbered, failed⟩
        have found := consistent.delivery?_eq inside
        have key : other.toDeliveryKey =
            ⟨⟨executionId, .email, recipient⟩, 1⟩ := by
          rw [DeliveryKey.mk.injEq]
          exact ⟨of.trans (congrArg DeliveryKey.toTarget same), numbered⟩
        rw [key] at found
        exact ⟨other.state, congrArg (Option.map AuditDelivery.state) found,
          failed⟩

theorem telegramReport_safe (executionId : Text) (settings : TelegramSettings)
    (message : RenderedMessage)
    (transport : Except DeliveryError (Except DeliveryError Text))
    (consistent : db.Consistent) :
    (telegramReport executionId settings message transport).Safe discipline
      (fun db result => ∀ answer, result = .ok answer →
        (Response.telegram settings.chatId.trim answer).Recorded db) db := by
  unfold telegramReport
  dsimp only
  split
  · exact fun _ _ _ => nofun
  cases transport with
  | error error => exact fun _ _ _ => nofun
  | ok sender =>
      refine query_bind_safe (fun _ => trivial) (fun _ _ _ => nofun) ?_
      intro first alreadySent after relied ran
      cases ran
      split
      · intro last _ answer same reported none
        cases same
        cases none
      have consistent := relied.consistent consistent
      refine (consistent_safe (resolveDeliveryVersion_safe _ consistent)
        consistent).bind (fun _ _ _ _ => nofun) ?_
      rintro resolved deliveryVersion ⟨turn, consistent⟩
      refine (consistent_safe (deliver_safe (turn deliveryVersion rfl)
        (sender.map some)) consistent).bind (fun _ _ _ _ => nofun) ?_
      rintro delivered outcome ⟨ensured, consistent⟩
      refine query_bind_safe (fun _ => trivial) (fun _ _ _ => nofun) ?_
      intro later status after relied ran
      cases ran
      intro last precedes answer same
      cases same
      refine Response.Recorded.mono ?_ precedes
      rcases (ensured outcome rfl).2.mono relied.successor with
        ⟨row, member, same, sent⟩
      have found := (relied.consistent consistent).delivery?_eq member
      rw [same] at found
      intro reported equal
      cases equal
      exact ⟨row, member, congrArg DeliveryKey.toTarget same, sent,
        congrArg (Option.map AuditDelivery.state) found⟩

end Programs

/-! ## Runs of the routes -/

/-- What a route establishes before a statement. -/
def RouteStatement.Required (db : Database) : RouteStatement → Prop
  | .table statement => statement.Required db
  | .respond response => response.Recorded db

/-- The discipline of the routes. -/
def routeDiscipline : Discipline Desk RouteStatement RouteStatement.Reply where
  executes := routes.Executes
  rely := fun desk later => desk.deliveries.Precedes later.deliveries
  requires := fun desk statement => statement.Required desk.deliveries
  rely_refl := fun desk => .refl desk.deliveries
  rely_trans := Database.Precedes.trans

/-- The table is consistent, and every answer goes with it. -/
structure Desk.Upright (desk : Desk) : Prop where
  consistent : desk.deliveries.Consistent
  recorded : ∀ response ∈ desk.answers, response.Recorded desk.deliveries

theorem respondWith_safe {Answer : Type} {task : Task Answer}
    {response : Answer → Response} {desk : Desk}
    (safe : task.Safe discipline (fun db result => ∀ answer,
      result = .ok answer → (response answer).Recorded db) desk.deliveries) :
    (respondWith task response).Safe routeDiscipline (fun _ _ => True) desk := by
  have lifted : (task.lift RouteStatement.table fun _ reply => reply).Safe
      routeDiscipline (fun desk result => ∀ answer, result = .ok answer →
        (response answer).Recorded desk.deliveries) desk := by
    refine Program.Safe.embed Desk.deliveries id ?_ id safe
    intro state statement answer after executes
    cases executes with
    | answered => exact .answered
    | failed => exact .failed
    | lost => exact .lost
  refine lifted.bind (fun _ _ _ => trivial) fun state answer ensured => ?_
  intro later relied
  exact ⟨(ensured answer rfl).mono relied, fun _ _ _ _ _ => trivial⟩

theorem Desk.Upright.answer {desk : Desk} {statement : RouteStatement}
    (upright : desk.Upright) (required : statement.Required desk.deliveries) :
    (routes.answer desk statement).2.Upright ∧
      desk.deliveries.Precedes (routes.answer desk statement).2.deliveries := by
  cases statement with
  | table statement =>
      have effect := answer_effect desk.deliveries statement
      have precedes : desk.deliveries.Precedes
          (machine.answer desk.deliveries statement).2 :=
        ⟨fun consistent => consistent.step effect required,
          fun row member => effect.successor member⟩
      exact ⟨⟨precedes.consistent upright.consistent, fun response member =>
        (upright.recorded response member).mono precedes⟩, precedes⟩
  | respond response =>
      refine ⟨⟨upright.consistent, fun other member => ?_⟩, .refl _⟩
      rcases List.mem_append.1 member with earlier | new
      · exact upright.recorded other earlier
      · rw [List.mem_singleton.1 new]
        exact required

theorem route_guarantees :
    Guarantees routes routeDiscipline Desk.Upright where
  executes executes := executes
  operation := by
    intro desk operation upright _
    cases operation with
    | email executionId recipient mailer =>
        exact respondWith_safe (emailExecutionReport_safe executionId recipient
          mailer upright.consistent)
    | telegram executionId settings message transport =>
        exact respondWith_safe (telegramReport_safe executionId settings message
          transport upright.consistent)
  statement upright required := upright.answer required
  time := by
    intro desk duration upright
    have moved := guarantees.time duration upright.consistent
    exact ⟨⟨moved.1, fun response member =>
      (upright.recorded response member).mono moved.2⟩, moved.2⟩

theorem opened_sound (executions : List Text) :
    Sound routeDiscipline Desk.Upright (opened executions) where
  inv := ⟨(sound_start executions).inv, List.forall_mem_nil _⟩
  safe := fun _ _ running => by cases running

theorem RoutesReach.upright {config : RouteConfiguration}
    (reach : RoutesReach config) : config.state.Upright := by
  rcases reach with ⟨executions, run⟩
  exact ((opened_sound executions).run route_guarantees run).inv

/-! ## Runs without a failure -/

/-- The statement records a failure of a delivery to the target. -/
def RouteStatement.Fails (target : Target) (statement : RouteStatement) : Prop :=
  ∃ version providerMessageId failure, statement =
    .table (.finishDelivery ⟨target, version⟩ providerMessageId (some failure))

/-- No delivery to the target is recorded as failed. -/
def Unfailing (target : Target) :
    Condition Desk RouteStatement RouteStatement.Reply RouteOperation
  | _, .executed _ statement _, _ => ¬ statement.Fails target
  | _, _, _ => True

theorem failed_of_answer {db : Database} {statement : Statement}
    {target : Target} {version : Int}
    (failed : (statement.answer db).2.Failed target version) :
    db.Failed target version ∨
      (RouteStatement.table statement).Fails target := by
  rcases failed with ⟨row, member, of, numbered, failed⟩
  unfold Statement.answer at member
  split at member
  · rename_i ran
    rcases row_of_run ran member with
      old | ⟨key, _, rfl⟩ | ⟨providerMessageId, failureClass, rfl, status⟩
    · exact Or.inl ⟨row, old, of, numbered, failed⟩
    · cases failed
    · cases failureClass with
      | none =>
          rw [status] at failed
          cases failed
      | some failure =>
          exact Or.inr ⟨row.deliveryVersion, providerMessageId, failure,
            of ▸ rfl⟩
  · exact Or.inl ⟨row, member, of, numbered, failed⟩

theorem Unfailing.never_failed {target : Target} {executions : List Text}
    {config : RouteConfiguration}
    (run : routes.Run (Unfailing target) (opened executions) config) :
    ∀ version, ¬ config.state.deliveries.Failed target version := by
  refine run.keeps
    (fun desk => ∀ version, ¬ desk.deliveries.Failed target version) ?_ ?_ ?_
  · intro desk process statement reply unfailing kept version failed
    cases statement with
    | table statement =>
        rcases failed_of_answer failed with before | fails
        · exact kept version before
        · exact unfailing fails
    | respond response => exact kept version failed
  · exact fun _ kept => kept
  · rintro version ⟨row, member, _⟩
    cases member

/-! ## A schedule -/

/-- A delivery fails, and the next one is sent. -/
def retried : List (Action RouteOperation) :=
  [.call 0 (.email "execution-1" "user@example.com" (some (.error .timeout))),
    .advance 0 20,
    .call 1 (.email "execution-1" "user@example.com" (some (.ok none))),
    .advance 1 20]

/-- A delivery to the chat fails, and the next one is sent. -/
def retriedChat : List (Action RouteOperation) :=
  let settings : TelegramSettings := ⟨"token", "chat"⟩
  [.call 0 (.telegram "execution-1" settings ⟨false, 0⟩ (.ok (.error .timeout))),
    .advance 0 20,
    .call 1 (.telegram "execution-1" settings ⟨false, 0⟩ (.ok (.ok "7"))),
    .advance 1 20]

def everything (_ : Desk) (_ : RouteStatement) : Bool := true

theorem everything_admits : Admits routes everything anyStep := by
  constructor <;> intros <;> trivial

/-- What a schedule of the routes reaches. -/
def answered (actions : List (Action RouteOperation)) : RouteConfiguration :=
  routes.schedule everything (opened ["execution-1"]) actions

theorem answered_reach (actions : List (Action RouteOperation)) :
    RoutesReach (answered actions) :=
  ⟨_, everything_admits.schedule _ actions⟩

/-- What the e-mail route answers to the second request. -/
def secondAnswer : Response :=
  .email {
    status := "sent"
    executionId := "execution-1"
    deliveryStatus := some {
      status := .failed
      failureClass := some "provider_timeout"
      providerMessageId := none
      attempts := 1 }
    recipient := "user@example.com" }

/-- In every run of any number of requests, crashes and lost connections
included, the answer of a route reports the row of the version that was sent
exactly where the route is the Telegram route, or no delivery to the address has
failed.  A run in which no delivery to a target is recorded as failed answers
about it with the row that was sent. -/
theorem delivery_answers_iff (config : RouteConfiguration) :
    (RoutesReach config → ∀ response ∈ config.state.answers,
      (response.Agrees config.state.deliveries ↔
        (response.target.channel = .email →
          ∀ version, ¬ config.state.deliveries.Failed response.target version))) ∧
    ∀ target executions,
      routes.Run (Unfailing target) (opened executions) config →
        ∀ response ∈ config.state.answers, response.target = target →
          response.Agrees config.state.deliveries := by
  constructor
  · intro reach response member
    exact (reach.upright.recorded response member).agrees_iff
      reach.upright.consistent
  · intro target executions run response member same
    have reach : RoutesReach config :=
      ⟨executions, run.mono fun _ _ _ _ => trivial⟩
    rw [(reach.upright.recorded response member).agrees_iff
      reach.upright.consistent, same]
    exact fun _ => Unfailing.never_failed run

theorem delivery_answers_iff_retriedChat :
    (answered retriedChat).state.answers = [.telegram "chat" {
        status := "sent"
        executionId := "execution-1"
        deliveryStatus := some (some {
          status := .sent
          failureClass := none
          providerMessageId := some "7"
          attempts := 1 })
        messageIsSummary := false
        omittedFindings := 0 }] ∧
      ∀ response ∈ (answered retriedChat).state.answers,
        response.Agrees (answered retriedChat).state.deliveries := by
  have answers : (answered retriedChat).state.answers = [.telegram "chat" {
      status := "sent"
      executionId := "execution-1"
      deliveryStatus := some (some {
        status := .sent
        failureClass := none
        providerMessageId := some "7"
        attempts := 1 })
      messageIsSummary := false
      omittedFindings := 0 }] := by
    decide +kernel
  refine ⟨answers, fun response member => ?_⟩
  refine ((delivery_answers_iff _).1 (answered_reach retriedChat) response
    member).2 ?_
  rw [answers, List.mem_singleton] at member
  rw [member]
  exact nofun

/-- The second version is sent, and the failure of the first one is reported. -/
theorem retried_answer_disagrees :
    RoutesReach (answered retried) ∧
      (answered retried).state.answers = [secondAnswer] ∧
        ¬ secondAnswer.Agrees (answered retried).state.deliveries := by
  refine ⟨answered_reach retried, by decide +kernel, fun agrees => ?_⟩
  rcases agrees _ rfl with ⟨row, found, equal⟩
  have sent := List.find?_some found
  rw [Option.some.injEq] at equal
  have failed : row.status = .failed := congrArg DeliveryState.status equal.symm
  rw [failed] at sent
  exact absurd sent (by decide)

end FireCrow.Orchestrator.Delivery
