import FireCrow.Api.GithubWebhooks

/-!
# Replayed webhooks

GitHub signs bodies, and whoever has seen one may send it with its signature
again, under any delivery id and any event; without the secret no other body
passes.  The signature does not cover the headers, and a delivery is known by
its id alone, so a body takes effect again under every new id, and under every
event that its payload can be read as.
-/

namespace FireCrow.Api.Webhooks

open FireCrow.Library FireCrow.Library.Stateful

/-! ## Computations that only read -/

/-- However it ends, a computation leaves the state. -/
def Reads {Value : Type} (computation : Task Value) : Prop :=
  Moves (fun before after => after = before) (fun _ => True) computation

section Reads

variable {Value Next : Type}

theorem Reads.bind {computation : Task Value} {next : Value → Task Next}
    {db : Database} {returned : Next → Database → Prop}
    {failed : AppError → Database → Prop} (reads : Reads computation)
    (stopped : ∀ error, failed error db)
    (continued : ∀ value, Yields (next value) db returned failed) :
    Yields (computation >>= next) db returned failed := by
  rw [yields_bind]
  apply (reads db).mono
  · rintro value _ rfl
    exact continued value
  · rintro error _ ⟨_, rfl⟩
    exact stopped error

theorem Reads.andThen {computation : Task Value} {next : Value → Task Next}
    (reads : Reads computation) (continued : ∀ value, Reads (next value)) :
    Reads (computation >>= next) :=
  fun db => reads.bind (fun _ => ⟨trivial, rfl⟩) fun value => continued value db

theorem reads_pure (value : Value) : Reads (pure value : Task Value) :=
  fun _ => rfl

theorem reads_throw (error : AppError) : Reads (throw error : Task Value) :=
  fun _ => ⟨trivial, rfl⟩

theorem reads_fromResult (result : Except AppError Value) :
    Reads (fromResult result) := by
  cases result with
  | ok value => exact reads_pure value
  | error error => exact reads_throw error

theorem reads_get_bind {next : Database → Task Next}
    (continued : ∀ db, Reads (next db)) : Reads (get >>= next) :=
  moves_get_bind fun db => continued db db

end Reads

theorem getInstallation_reads (installationId : Int64) :
    Reads (getInstallation installationId) := by
  apply reads_get_bind
  intro db
  split
  · exact reads_pure _
  · exact reads_pure _

theorem authorizeInstallationRepo_reads (provider : Provider) (userId : Text)
    (installationId : Int64) (owner repo : Text) :
    Reads (authorizeInstallationRepo provider userId installationId owner
      repo) := by
  apply (reads_fromResult _).andThen
  intro owner
  apply (reads_fromResult _).andThen
  intro repo
  apply (getInstallation_reads _).andThen
  intro found
  cases found with
  | none => exact reads_throw _
  | some installation =>
      apply moves_ite (reads_throw _)
      apply moves_ite (reads_throw _)
      apply (reads_fromResult _).andThen
      intro _
      apply (reads_fromResult _).andThen
      intro _
      exact reads_pure _

theorem authorizePush_reads (provider : Provider) (installer : Text)
    (push : Push) : Reads (authorizePush provider installer push) := by
  intro db
  rw [authorizePush, MovesFrom, yields_tryCatch, yields_map]
  apply (authorizeInstallationRepo_reads provider installer push.installationId
    push.owner push.repo db).mono
  · exact fun _ _ same => same
  · rintro error _ ⟨_, rfl⟩
    split
    · rfl
    · exact ⟨trivial, rfl⟩

/-! ## What a handler changes -/

/-- The jobs and the installations are as they were. -/
def Unaffected (before after : Database) : Prop :=
  after.jobs = before.jobs ∧ after.installations = before.installations

instance (before after : Database) : Decidable (Unaffected before after) :=
  inferInstanceAs (Decidable (_ ∧ _))

theorem Unaffected.refl (db : Database) : Unaffected db db := ⟨rfl, rfl⟩

/-- The deliveries are as they were, and so is everything else unless the
delivery is processed. -/
def Handled {Response : Type} (db : Database) (result : Response × Outcome)
    (last : Database) : Prop :=
  last.deliveries = db.deliveries ∧
    (result.2 = .processed ∨ Unaffected db last)

/-- An error has changed nothing. -/
def Refused (db : Database) (_ : AppError) (last : Database) : Prop := last = db

theorem handled_same {Response : Type} (db : Database)
    (result : Response × Outcome) : Handled db result db :=
  ⟨rfl, .inr (.refl db)⟩

theorem refused_same (db : Database) (error : AppError) :
    Refused db error db := rfl

theorem insertJob_yields (job : AuditJob) (db : Database) :
    Yields (insertJob job) db
      (fun _ last => last.deliveries = db.deliveries) (Refused db) := by
  rw [insertJob, yields_bind, yields_get]
  split
  · exact rfl
  split
  · exact rfl
  split
  · exact rfl
  split
  · exact rfl
  · exact rfl

theorem createAuditJobAttributed_yields (maxActiveJobs : Int) (jobId : Text)
    (submission : Submission) (db : Database) :
    Yields (createAuditJobAttributed maxActiveJobs jobId submission) db
      (fun _ last => last.deliveries = db.deliveries) (Refused db) := by
  rw [createAuditJobAttributed]
  split
  · exact rfl
  split
  · exact rfl
  apply (reads_fromResult _).bind (refused_same db)
  intro sha
  rw [yields_bind, yields_get]
  split
  · exact rfl
  rw [gateAndInsert, yields_bind, yields_get]
  dsimp only
  split
  · exact rfl
  rw [yields_bind]
  apply (insertJob_yields _ db).mono
  · intro inserted last same
    split
    · exact same
    · exact same
  · exact fun _ _ refused => refused

theorem registerInstallation_yields (installationId accountId : Int64)
    (accountLogin accountType installedByUserId : Text) (db : Database) :
    Yields (registerInstallation installationId accountId accountLogin
      accountType installedByUserId) db
      (fun _ last => last.deliveries = db.deliveries) (Refused db) := by
  rw [registerInstallation]
  split
  · exact rfl
  split
  · exact rfl
  split
  · exact rfl
  split
  · exact rfl
  split
  · exact rfl
  rw [yields_modify]
  split
  · rfl
  · rfl

section Endpoint

variable [FloatFormat]

variable (settings : WebhookSettings)

variable (provider : Provider)

theorem handlePushEvent_yields (jobId deliveryId : Text) (payload : Json)
    (db : Database) :
    Yields (handlePushEvent settings provider jobId deliveryId payload) db
      (Handled db) (Refused db) := by
  rw [handlePushEvent]
  split
  · exact handled_same db _
  apply (reads_fromResult _).bind (refused_same db)
  intro configured
  split
  · exact handled_same db _
  apply (getInstallation_reads _).bind (refused_same db)
  intro found
  split
  · exact handled_same db _
  apply (authorizePush_reads _ _ _).bind (refused_same db)
  intro authorized
  cases authorized with
  | none => exact handled_same db _
  | some authorized =>
      rw [yields_bind]
      apply (createAuditJobAttributed_yields _ _ _ db).mono
      · exact fun _ last same => ⟨same, .inl rfl⟩
      · exact fun _ _ refused => refused

theorem handlePullRequestEvent_yields (jobId deliveryId : Text) (payload : Json)
    (db : Database) :
    Yields (handlePullRequestEvent settings provider jobId deliveryId payload)
      db (Handled db) (Refused db) := by
  rw [handlePullRequestEvent]
  split
  · exact handlePushEvent_yields settings provider jobId deliveryId _ db
  · exact handled_same db _

theorem handleInstallationCreated_yields (installationId : Int64)
    (payload : Json) (db : Database) :
    Yields (handleInstallationCreated installationId payload) db (Handled db)
      (Refused db) := by
  rw [handleInstallationCreated]
  apply (reads_fromResult _).bind (refused_same db)
  intro account
  rw [yields_bind, yields_get]
  dsimp only
  split
  · exact handled_same db _
  rw [yields_bind]
  apply (registerInstallation_yields _ _ _ _ _ db).mono
  · exact fun _ last same => ⟨same, .inl rfl⟩
  · exact fun _ _ refused => refused

theorem handleInstallationEvent_yields (payload : Json) (db : Database) :
    Yields (handleInstallationEvent payload) db (Handled db) (Refused db) := by
  rw [handleInstallationEvent]
  split
  · exact rfl
  rename_i installationId _
  have removed : Yields (removeInstallation installationId) db
      (fun _ last => last.deliveries = db.deliveries) (Refused db) := by
    rw [removeInstallation, yields_bind, yields_get]
    split <;> exact rfl
  have updated : ∀ suspended,
      Yields (setInstallationSuspended installationId suspended) db
        (fun _ last => last.deliveries = db.deliveries) (Refused db) := by
    intro suspended
    rw [setInstallationSuspended, yields_bind, yields_get]
    split <;> exact rfl
  dsimp only
  split
  · rw [yields_bind]
    apply removed.mono
    · exact fun _ last same => ⟨same, .inl rfl⟩
    · exact fun _ _ refused => refused
  split
  · rw [yields_bind]
    apply (updated _).mono
    · exact fun _ last same => ⟨same, .inl rfl⟩
    · exact fun _ _ refused => refused
  split
  · exact handleInstallationCreated_yields installationId payload db
  · exact handled_same db _

/-- The events that change something. -/
def actsOn (event : Text) : Bool :=
  event ∈ [("installation" : Text), "push", "pull_request"]

theorem handleEvent_yields
    (jobId : Text) (request : VerifiedRequest) (db : Database) :
    Yields (handleEvent settings provider jobId request) db
      (fun result last => Handled db result last ∧
        (actsOn request.event = false → Unaffected db last))
      (Refused db) := by
  have acting : ∀ {event : Text} {body : Task (Acknowledgement × Outcome)},
      actsOn event = true → Yields body db (Handled db) (Refused db) →
        Yields body db
          (fun result last => Handled db result last ∧
            (actsOn event = false → Unaffected db last)) (Refused db) := by
    intro event body acts yields
    apply yields.mono
    · intro result last handled
      refine ⟨handled, fun idle => ?_⟩
      rw [acts] at idle
      cases idle
    · exact fun _ _ refused => refused
  rw [handleEvent]
  split
  · exact ⟨handled_same db _, fun _ => .refl db⟩
  split
  · rename_i event
    rw [event]
    exact acting rfl (handleInstallationEvent_yields _ db)
  split
  · rename_i event
    rw [event]
    exact acting rfl (handlePushEvent_yields _ _ _ _ _ db)
  split
  · rename_i event
    rw [event]
    exact acting rfl (handlePullRequestEvent_yields _ _ _ _ _ db)
  · exact ⟨handled_same db _, fun _ => .refl db⟩

/-! ## What a request changes -/

/-- The record of deliveries lets a request through: its delivery is new, or
open with the same body. -/
def Admitted (db : Database) (request : VerifiedRequest) : Prop :=
  ∀ stored ∈ db.delivery? request.deliveryId,
    stored.bodySha256 = request.bodySha256 ∧ stored.outcome.isClosed = false

/-- The delivery of a request is on record, and open. -/
structure Recorded (db : Database) (request : VerifiedRequest)
    (last : Database) : Prop where
  unaffected : Unaffected db last
  kept : ∀ row ∈ db.deliveries, row ∈ last.deliveries
  ids : (db.deliveries.map WebhookDelivery.deliveryId).Nodup →
    (last.deliveries.map WebhookDelivery.deliveryId).Nodup
  row : ∃ row ∈ last.deliveries, row.deliveryId = request.deliveryId ∧
    row.bodySha256 = request.bodySha256 ∧ row.outcome.isClosed = false

variable {db : Database}

omit [FloatFormat] in
theorem delivery?_eq_some {deliveryId : Text}
    {row : WebhookDelivery} (found : db.delivery? deliveryId = some row) :
    row ∈ db.deliveries ∧ row.deliveryId = deliveryId :=
  ⟨List.mem_of_find?_eq_some found, by simpa using List.find?_some found⟩

omit [FloatFormat] in
theorem delivery?_eq_none {deliveryId : Text}
    (absent : db.delivery? deliveryId = none) :
    ∀ row ∈ db.deliveries, row.deliveryId ≠ deliveryId := by
  intro row member
  simpa using List.find?_eq_none.1 absent row member

theorem recordWebhookDelivery_yields (request : VerifiedRequest)
    (installationId : Option Int64) (db : Database) :
    Yields (recordWebhookDelivery request.deliveryId request.event
        request.bodySha256 installationId) db
      (fun replay last => replay = .duplicate ∧ last = db ∨
        replay = .process ∧ Admitted db request ∧ Recorded db request last)
      (Refused db) := by
  rw [recordWebhookDelivery]
  split
  · exact rfl
  rw [yields_bind, yields_get]
  split
  · rename_i absent
    rw [yields_bind, yields_set]
    refine .inr ⟨rfl, ?_, ?_⟩
    · intro stored found
      rw [absent] at found
      cases found
    · constructor
      · exact ⟨rfl, rfl⟩
      · exact fun row member => List.mem_append_left _ member
      · intro ids
        rw [List.map_append, List.nodup_append]
        refine ⟨ids, List.nodup_singleton _, ?_⟩
        rintro id inside _ listed rfl
        rcases List.mem_map.1 inside with ⟨other, member, rfl⟩
        exact delivery?_eq_none absent other member
          (List.mem_singleton.1 listed)
      · exact ⟨_, List.mem_append_right _ List.mem_cons_self, rfl, rfl, rfl⟩
  · rename_i stored found
    split
    · exact rfl
    rename_i same
    rw [not_not] at same
    split
    · exact .inl ⟨rfl, rfl⟩
    · rename_i «open»
      rw [Bool.not_eq_true] at «open»
      refine .inr ⟨rfl, ?_, ?_⟩
      · intro other given
        rw [found] at given
        cases given
        exact ⟨same, «open»⟩
      · exact
          { unaffected := .refl db
            kept := fun _ member => member
            ids := fun ids => ids
            row := ⟨stored, (delivery?_eq_some found).1,
              (delivery?_eq_some found).2, same, «open»⟩ }

/-- The jobs and installations change only with a delivery that is closed. -/
structure Closing (db : Database) (request : VerifiedRequest)
    (last : Database) : Prop where
  kept : ∀ row ∈ db.deliveries, row.outcome.isClosed = true →
    row ∈ last.deliveries
  ids : (db.deliveries.map WebhookDelivery.deliveryId).Nodup →
    (last.deliveries.map WebhookDelivery.deliveryId).Nodup
  closed : Unaffected db last ∨ Admitted db request ∧
    actsOn request.event = true ∧
      ∃ row ∈ last.deliveries, row.deliveryId = request.deliveryId ∧
        row.bodySha256 = request.bodySha256 ∧ row.outcome.isClosed = true

theorem Closing.same (db : Database) (request : VerifiedRequest) :
    Closing db request db where
  kept := fun _ member _ => member
  ids := fun ids => ids
  closed := .inl (.refl db)

/-- What follows the record of a delivery: its handling, and the mark. -/
theorem Closing.of_recorded {middle last : Database}
    {request : VerifiedRequest} {deliveries : List WebhookDelivery}
    (recorded : Recorded db request middle) (admitted : Admitted db request)
    {outcome : Outcome}
    (handled : last.deliveries = middle.deliveries ∧
      (outcome = .processed ∨ Unaffected middle last))
    (idle : actsOn request.event = false → Unaffected middle last)
    (marked : deliveries = Table.set
      (fun row => row.deliveryId == request.deliveryId && !row.outcome.isClosed)
      (fun row => { row with outcome := outcome }) last.deliveries) :
    Closing db request { last with deliveries := deliveries } := by
  rcases handled with ⟨same, effect⟩
  rw [same] at marked
  constructor
  · intro row member closed
    show row ∈ deliveries
    rw [marked]
    refine List.mem_map.2 ⟨row, recorded.kept row member, if_neg ?_⟩
    simp [closed]
  · intro ids
    show (deliveries.map WebhookDelivery.deliveryId).Nodup
    have names : deliveries.map WebhookDelivery.deliveryId =
        middle.deliveries.map WebhookDelivery.deliveryId := by
      rw [marked, Table.set, List.map_map]
      apply List.map_congr_left
      intro row _
      dsimp only [Function.comp_apply]
      split <;> rfl
    rw [names]
    exact recorded.ids ids
  · by_cases unaffected : Unaffected middle last
    · exact .inl ⟨unaffected.1.trans recorded.unaffected.1,
        unaffected.2.trans recorded.unaffected.2⟩
    · have processed := effect.resolve_right unaffected
      refine .inr ⟨admitted, ?_, ?_⟩
      · rw [← Bool.not_eq_false]
        exact fun none => unaffected (idle none)
      · rcases recorded.row with ⟨row, member, id, body, pending⟩
        show ∃ row ∈ deliveries, _
        rw [marked]
        refine ⟨{ row with outcome := outcome },
          List.mem_map.2 ⟨row, member, if_pos ?_⟩, id, body, ?_⟩
        · simp [id, pending]
        · rw [processed]
          rfl

theorem handleVerified_yields (jobId : Text) (request : VerifiedRequest)
    (db : Database) :
    Yields (handleVerified settings provider jobId request) db
      (fun _ last => Closing db request last)
      (fun _ last => Closing db request last) := by
  rw [handleVerified, yields_bind]
  apply (recordWebhookDelivery_yields request _ db).mono
  · rintro replay middle (⟨rfl, rfl⟩ | ⟨rfl, admitted, recorded⟩)
    · exact .same middle request
    · rw [yields_bind]
      apply (handleEvent_yields settings provider jobId request middle).mono
      · rintro ⟨response, outcome⟩ last ⟨handled, idle⟩
        dsimp only
        rw [yields_bind, markWebhookOutcome]
        split
        · rename_i pending
          have unaffected : Unaffected middle last :=
            handled.2.resolve_left (by
              intro processed
              cases pending.symm.trans processed)
          refine ⟨?_, ?_, .inl ⟨unaffected.1.trans recorded.unaffected.1,
            unaffected.2.trans recorded.unaffected.2⟩⟩
          · intro row member _
            rw [handled.1]
            exact recorded.kept row member
          · intro ids
            rw [handled.1]
            exact recorded.ids ids
        · exact Closing.of_recorded recorded admitted handled idle rfl
      · rintro error last rfl
        refine ⟨fun row member _ => recorded.kept row member, recorded.ids,
          .inl recorded.unaffected⟩
  · rintro error last rfl
    exact .same last request

/-! ## Runs -/

/-- A body that GitHub has signed, with the headers it was sent under. -/
structure SignedDelivery where
  deliveryId : Text
  event : Text
  body : Bytes
deriving DecidableEq

/-- A request has changed something, with its body as this event. -/
structure Effect where
  body : Bytes
  event : Text
deriving DecidableEq

/-- The tables, with what GitHub has signed and what has taken effect. -/
structure World where
  db : Database
  signed : List SignedDelivery
  effects : List Effect
deriving DecidableEq

inductive Happening where
  | signed (delivery : SignedDelivery)
  | received (request : WebhookRequest) (provider : Provider) (jobId : Text)

/-- The state that a computation leaves, however it ends. -/
def leaves {Value : Type} (computation : Task Value) (db : Database) :
    Database :=
  match computation.run db with
  | .ok _ last => last
  | .error _ last => last

/-- The world once a request is handled. -/
def World.receive (settings : WebhookSettings) (world : World)
    (request : WebhookRequest) (provider : Provider) (jobId : Text) : World :=
  let db := leaves (githubWebhook settings provider jobId request) world.db
  match verifyRequest settings request with
  | .error _ => { world with db := db }
  | .ok verified =>
      if Unaffected world.db db then { world with db := db }
      else
        { world with
          db := db
          effects := world.effects ++ [⟨request.body, verified.event⟩] }

theorem World.receive_signed (world : World)
    (request : WebhookRequest) (provider : Provider) (jobId : Text) :
    (world.receive settings request provider jobId).signed = world.signed := by
  rw [World.receive]
  split
  · rfl
  · split <;> rfl

/-- GitHub signs a delivery; anyone sends a request, whose signature is right
only if GitHub has signed the body. -/
inductive Step (settings : WebhookSettings) :
    World → Happening → World → Prop where
  | signed {world} (delivery : SignedDelivery) :
      Step settings world (.signed delivery)
        { world with signed := world.signed ++ [delivery] }
  | received {world} (request : WebhookRequest) (provider : Provider)
      (jobId : Text)
      (authentic : ∀ signature ∈ request.signature,
        verifyWebhookSignature settings.githubAppWebhookSecret request.body
          signature = true →
        ∃ delivery ∈ world.signed, delivery.body = request.body) :
      Step settings world (.received request provider jobId)
        (world.receive settings request provider jobId)

/-- Each signed body has taken effect at most once, and only as an event that
GitHub has sent it for. -/
structure Unreplayed (world : World) : Prop where
  once : (world.effects.map Effect.body).Nodup
  intended : ∀ effect ∈ world.effects, ∃ delivery ∈ world.signed,
    delivery.body = effect.body ∧ delivery.event = effect.event

/-- A request that the record of deliveries lets through comes under the event
that GitHub has sent its body for, and no other delivery has its body. -/
def Original (settings : WebhookSettings) (world : World) : Happening → Prop
  | .signed _ => True
  | .received request _ _ => ∀ verified,
      verifyRequest settings request = .ok verified →
      actsOn verified.event = true → Admitted world.db verified →
      (∃ delivery ∈ world.signed, delivery.body = request.body ∧
        delivery.event = verified.event) ∧
      ∀ row ∈ world.db.deliveries, row.bodySha256 = verified.bodySha256 →
        row.deliveryId = verified.deliveryId

/-- A run whose steps all meet the condition. -/
def Run (settings : WebhookSettings) : World → World → Prop :=
  Relation.ReflTransGen fun before after => ∃ happening,
    Step settings before happening after ∧ Original settings before happening

/-- Any run. -/
def AnyRun (settings : WebhookSettings) : World → World → Prop :=
  Relation.ReflTransGen fun before after => ∃ happening,
    Step settings before happening after

/-- Nothing has taken effect yet; a delivery id is a key. -/
structure Start (world : World) : Prop where
  ids : (world.db.deliveries.map WebhookDelivery.deliveryId).Nodup
  effects : world.effects = []

/-- What has taken effect belongs to a delivery that is closed. -/
structure Accounted (world : World) : Prop where
  ids : (world.db.deliveries.map WebhookDelivery.deliveryId).Nodup
  closed : ∀ effect ∈ world.effects, ∃ row ∈ world.db.deliveries,
    row.bodySha256 = webhookBodySha256 effect.body ∧
      row.outcome.isClosed = true
  unreplayed : Unreplayed world

omit [FloatFormat] in
theorem leaves_of_yields {Value : Type} {computation : Task Value}
    {ends : Database → Prop}
    (yields : Yields computation db (fun _ last => ends last)
      (fun _ last => ends last)) : ends (leaves computation db) := by
  rw [leaves]
  rw [Yields] at yields
  split at yields
  · rename_i run
    rw [run]
    exact yields
  · rename_i run
    rw [run]
    exact yields

theorem verifyRequest_bodySha256 {settings : WebhookSettings}
    {request : WebhookRequest} {verified : VerifiedRequest}
    (read : verifyRequest settings request = .ok verified) :
    verified.bodySha256 = webhookBodySha256 request.body := by
  rw [verifyRequest] at read
  repeat' split at read
  all_goals cases read
  rfl

/-- One step keeps the account. -/
theorem Accounted.step {settings : WebhookSettings} {before after : World}
    {happening : Happening} (accounted : Accounted before)
    (step : Step settings before happening after)
    (original : Original settings before happening) : Accounted after := by
  cases step with
  | signed delivery =>
      refine ⟨accounted.ids, accounted.closed, accounted.unreplayed.once, ?_⟩
      intro effect member
      rcases accounted.unreplayed.intended effect member with
        ⟨sent, listed, same⟩
      exact ⟨sent, List.mem_append_left _ listed, same⟩
  | received request provider jobId authentic =>
      rw [World.receive]
      cases read : verifyRequest settings request with
      | error error =>
          have same : leaves (githubWebhook settings provider jobId request)
              before.db = before.db := by
            rw [githubWebhook, read]
            rfl
          dsimp only
          rw [same]
          exact accounted
      | ok verified =>
          have closing : Closing before.db verified
              (leaves (githubWebhook settings provider jobId request)
                before.db) := by
            rw [githubWebhook, read]
            exact leaves_of_yields
              (handleVerified_yields settings provider jobId verified _)
          generalize leaves (githubWebhook settings provider jobId request)
            before.db = db at closing
          have kept : ∀ effect ∈ before.effects, ∃ row ∈ db.deliveries,
              row.bodySha256 = webhookBodySha256 effect.body ∧
                row.outcome.isClosed = true := by
            intro effect member
            rcases accounted.closed effect member with
              ⟨row, inside, body, closed⟩
            exact ⟨row, closing.kept row inside closed, body, closed⟩
          dsimp only
          split
          · exact ⟨closing.ids accounted.ids, kept, accounted.unreplayed.once,
              accounted.unreplayed.intended⟩
          rename_i affected
          rcases closing.closed.resolve_left affected with
            ⟨admitted, acts, row, inside, id, body, closed⟩
          rcases original verified read acts admitted with ⟨sent, own⟩
          have hash := verifyRequest_bodySha256 read
          refine ⟨closing.ids accounted.ids, ?_, ?_, ?_⟩
          · intro effect member
            rcases List.mem_append.1 member with earlier | latest
            · exact kept effect earlier
            · rw [List.mem_singleton.1 latest]
              exact ⟨row, inside, body.trans hash, closed⟩
          · rw [List.map_append, List.nodup_append]
            refine ⟨accounted.unreplayed.once, List.nodup_singleton _, ?_⟩
            rintro other listed _ latest rfl
            rcases List.mem_map.1 listed with ⟨effect, member, same⟩
            rcases accounted.closed effect member with
              ⟨earlier, stored, spent, ended⟩
            -- The body took effect under a delivery that is closed, which is
            -- this one, and so the request would have been turned away.
            rw [same, List.mem_singleton.1 latest, ← hash] at spent
            have delivery := own earlier stored spent
            have found : before.db.delivery? verified.deliveryId =
                some earlier := by
              rcases given : before.db.delivery? verified.deliveryId with
                _ | first
              · exact absurd delivery
                  (delivery?_eq_none given earlier stored)
              · rcases delivery?_eq_some given with ⟨listed, named⟩
                rw [List.inj_on_of_nodup_map accounted.ids listed stored
                  (named.trans delivery.symm)]
            have pending := (admitted earlier found).2
            rw [ended] at pending
            cases pending
          · intro effect member
            rcases List.mem_append.1 member with earlier | latest
            · exact accounted.unreplayed.intended effect earlier
            · rw [List.mem_singleton.1 latest]
              exact sent

end Endpoint

/-! ## A suspension undone -/

/-- The signature that GitHub sends with a body. -/
def signatureOf (secret : Text) (body : Bytes) : Text :=
  ("sha256=" : Text) ++
    Sha256.hexEncode (Sha256.hmac (octets secret.toBytes) (octets body))

theorem isWhitespace_of_mem_hexEncode {bytes : List Nat} {character : Char}
    (member : character ∈ Sha256.hexEncode bytes) :
    Text.isWhitespace character = false := by
  have digit : ∀ value < 16, Text.isWhitespace
      (Char.ofNat (if value < 10 then 48 + value else 87 + value)) = false := by
    decide
  rcases List.mem_flatMap.1 member with ⟨byte, _, given⟩
  rcases List.mem_map.1 given with ⟨value, listed, rfl⟩
  apply digit
  rcases List.mem_cons.1 listed with rfl | listed
  · exact Nat.mod_lt _ (by decide)
  · rw [List.mem_singleton.1 listed]
    exact Nat.mod_lt _ (by decide)

theorem verifyWebhookSignature_signatureOf {secret : Text} {body : Bytes}
    (nonempty : secret ≠ []) (short : body.length ≤ githubWebhookMaxBytes) :
    verifyWebhookSignature secret body (signatureOf secret body) = true := by
  have guard : (secret.isEmpty ||
      decide (githubWebhookMaxBytes < body.length)) = false := by
    simp [nonempty, short]
  have digits : ∀ character ∈ Sha256.hexEncode
      (Sha256.hmac (octets secret.toBytes) (octets body)),
      Text.isWhitespace character = false :=
    fun _ => isWhitespace_of_mem_hexEncode
  have present := Sha256.hexEncode_ne_nil
    (Sha256.hmac_ne_nil (octets secret.toBytes) (octets body))
  unfold verifyWebhookSignature signatureOf
  generalize Sha256.hexEncode
    (Sha256.hmac (octets secret.toBytes) (octets body)) = hexDigest
    at digits present ⊢
  rw [guard, Text.stripPrefix_eq_some.2 rfl, if_neg Bool.false_ne_true]
  dsimp only
  rw [Text.trim_eq_self digits, List.isEmpty_eq_false_iff.2 present,
    if_neg Bool.false_ne_true]
  exact beq_self_eq_true hexDigest

theorem verifyRequest_signed [FloatFormat] {settings : WebhookSettings}
    {request : WebhookRequest} {deliveryId event : Text} {payload : Json}
    (configured : settings.githubAppWebhookSecret.trim.isEmpty = false)
    (signed : request.signature =
      some (signatureOf settings.githubAppWebhookSecret request.body))
    (short : request.body.length ≤ githubWebhookMaxBytes)
    (parsed : (utf8Text request.body).bind Json.parse = some payload)
    (id : boundedHeader 128 request.deliveryId = some deliveryId)
    (name : boundedHeader 64 request.event = some event) :
    verifyRequest settings request =
      .ok ⟨deliveryId, event, webhookBodySha256 request.body, payload⟩ := by
  have nonempty : settings.githubAppWebhookSecret ≠ [] := by
    intro none
    rw [none] at configured
    cases configured
  have valid := verifyWebhookSignature_signatureOf nonempty short
  unfold verifyRequest
  generalize webhookBodySha256 request.body = bodySha256
  rw [signed, configured, if_neg Bool.false_ne_true]
  dsimp only
  rw [if_neg (not_lt.2 short), valid, if_neg Bool.true_eq_false.mp, parsed]
  dsimp only
  rw [id]
  dsimp only
  rw [name]

theorem World.receive_verified [FloatFormat] {settings : WebhookSettings}
    {world : World} {request : WebhookRequest} {provider : Provider}
    {jobId : Text} {verified : VerifiedRequest}
    (read : verifyRequest settings request = .ok verified) :
    world.receive settings request provider jobId =
      let db := leaves (handleVerified settings provider jobId verified) world.db
      if Unaffected world.db db then { world with db := db }
      else
        { world with
          db := db
          effects := world.effects ++ [⟨request.body, verified.event⟩] } := by
  rw [World.receive, githubWebhook, read]
  rfl

section Replay

attribute [local instance] FloatFormat.integersOnly

def hookSettings : WebhookSettings where
  githubAppWebhookSecret := "s3cret"
  githubAppId := 0
  githubAppPrivateKey := []
  isRsaKey _ := false
  maxActiveJobsPerUser := 5

def noProvider : Provider where
  exchangeInstallationToken _ := .error .rateLimited
  repository _ _ _ := .unreachable

def installationBody (action : Text) : Bytes :=
  Text.toBytes (("\x7b\"action\":\"" : Text) ++ action ++
    ("\",\"installation\":\x7b\"id\":5\x7d\x7d" : Text))

def installationDelivery (deliveryId action : Text) : SignedDelivery where
  deliveryId := deliveryId
  event := "installation"
  body := installationBody action

/-- A body with its signature, under a delivery id of one's choice. -/
def requestOf (deliveryId action : Text) : WebhookRequest where
  signature := some (signatureOf "s3cret" (installationBody action))
  deliveryId := some deliveryId
  event := some "installation"
  body := installationBody action

/-- An installation that is suspended. -/
def suspendedWorld : World where
  db :=
    { deliveries := []
      installations := [⟨5, 1, "acme", "User", "user-1", true⟩]
      jobs := []
      users := [⟨"user-1", some "1"⟩] }
  signed := []
  effects := []

theorem suspendedWorld_start : Start suspendedWorld := ⟨List.nodup_nil, rfl⟩

/-- GitHub signs a delivery, which then arrives. -/
def World.deliver (world : World) (deliveryId action : Text) : World :=
  World.receive hookSettings
    { world with
      signed := world.signed ++ [installationDelivery deliveryId action] }
    (requestOf deliveryId action) noProvider "job-1"

theorem World.deliver_run (world : World) (deliveryId action : Text) :
    AnyRun hookSettings world (world.deliver deliveryId action) := by
  refine .trans (.single ⟨_, .signed (installationDelivery deliveryId action)⟩)
    (.single ⟨_, .received (requestOf deliveryId action) noProvider "job-1" ?_⟩)
  intro _ _ _
  exact ⟨_, List.mem_append_right _ List.mem_cons_self, rfl⟩

/-- The installation is unsuspended and suspended again; the first body then
arrives once more under another delivery id. -/
def suspensionUndone : World :=
  World.receive hookSettings
    ((suspendedWorld.deliver "delivery-1" "unsuspend").deliver "delivery-2"
      "suspend")
    (requestOf "delivery-3" "unsuspend") noProvider "job-1"

theorem verifyRequest_requestOf {deliveryId action : Text}
    (id : boundedHeader 128 (some deliveryId) = some deliveryId)
    (short : (installationBody action).length ≤ githubWebhookMaxBytes)
    (parsed :
      ((utf8Text (installationBody action)).bind Json.parse).isSome = true) :
    verifyRequest hookSettings (requestOf deliveryId action) =
      .ok ⟨deliveryId, "installation",
        webhookBodySha256 (installationBody action),
        ((utf8Text (installationBody action)).bind Json.parse).get parsed⟩ := by
  have event : boundedHeader 64 (some "installation") = some "installation" := by
    decide
  exact verifyRequest_signed (by decide) rfl short (Option.some_get parsed).symm
    id event

theorem suspensionUndone_effects :
    suspensionUndone.effects.map Effect.body =
        [installationBody "unsuspend", installationBody "suspend",
          installationBody "unsuspend"] ∧
      suspensionUndone.db.installations.map
        (fun installation => installation.suspended) = [false] := by
  rw [suspensionUndone, World.deliver, World.deliver,
    World.receive_verified (verifyRequest_requestOf (by decide) (by decide)
      (by decide +kernel)),
    World.receive_verified (verifyRequest_requestOf (by decide) (by decide)
      (by decide +kernel)),
    World.receive_verified (verifyRequest_requestOf (by decide) (by decide)
      (by decide +kernel))]
  decide +kernel

end Replay

end FireCrow.Api.Webhooks
