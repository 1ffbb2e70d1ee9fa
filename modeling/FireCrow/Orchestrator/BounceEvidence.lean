import FireCrow.Orchestrator.DeliveryInvariants

/-!
# Evidence from the mail provider

The provider reports later what became of a message it accepted.  An event
changes the rows that carry the id of the message and are not terminal yet;
the id is recorded by the statement that makes a row terminal.
-/

namespace FireCrow.Orchestrator.Delivery

open FireCrow.Library

/-! ## Events -/

/-- The type of a verified event. -/
inductive ResendEvent where
  | delivered
  | bounced
  | complained
  | other

/-- What an event records: a status, with the class of a failure. -/
def ResendEvent.records : ResendEvent → Option (DeliveryStatus × Option Text)
  | .delivered => some (.sent, none)
  | .bounced => some (.failed, some "email.bounced")
  | .complained => some (.failed, some "email.complained")
  | .other => none

/-- An event that reports a failure. -/
def ResendEvent.IsFailure (event : ResendEvent) : Prop :=
  event = .bounced ∨ event = .complained

namespace Database

/-- The update of `resend_webhook`. -/
def recordEvent (db : Database) (messageId : Text) (status : DeliveryStatus)
    (failureClass : Option Text) : Except DatabaseError (Nat × Database) :=
  db.update ["status", "completed_at", "failure_class"]
    (fun row =>
      row.providerMessageId = some messageId && row.status ≠ .sent &&
        row.status ≠ .failed)
    fun row =>
      { row with
        status := status
        completedAt := some db.now
        failureClass := failureClass }

/-- A verified webhook; one without a message id is refused. -/
def resendWebhook (db : Database) (event : ResendEvent) (messageId : Text) :
    Database :=
  if messageId.isEmpty then db
  else
    match event.records with
    | none => db
    | some (status, failureClass) =>
        match db.recordEvent messageId status failureClass with
        | .ok (_, after) => after
        | .error _ => db

end Database

/-- A statement of a delivery, an event of the provider, or time passing. -/
inductive DeliveryEvent where
  | sql (statement : Statement)
  | webhook (event : ResendEvent) (messageId : Text)
  | tick (now : Timestamp)

def DeliveryEvent.after (db : Database) : DeliveryEvent → Database
  | .sql statement => (statement.answer db).2
  | .webhook event messageId => db.resendWebhook event messageId
  | .tick now => { db with now := now }

def runEvents (db : Database) (events : List DeliveryEvent) : Database :=
  events.foldl DeliveryEvent.after db

theorem runEvents_append (db : Database) (front back : List DeliveryEvent) :
    runEvents db (front ++ back) = runEvents (runEvents db front) back :=
  List.foldl_append

/-! ## Rows over a run -/

/-- The primary key and the checks of the table. -/
structure Database.Sound (db : Database) : Prop where
  keys : (db.deliveries.map AuditDelivery.toDeliveryKey).Nodup
  fits : ∀ row ∈ db.deliveries, row.fits = true
  checks : ∀ row ∈ db.deliveries, row.checks = true

/-- Every row continues. -/
structure Database.Leads (db last : Database) : Prop where
  sound : last.Sound
  continues : ∀ row ∈ db.deliveries, ∃ row' ∈ last.deliveries,
    row.Continues row'

variable {db : Database}

theorem Database.Sound.unique (sound : db.Sound)
    {left right : AuditDelivery} (inLeft : left ∈ db.deliveries)
    (inRight : right ∈ db.deliveries)
    (same : left.toDeliveryKey = right.toDeliveryKey) : left = right :=
  List.inj_on_of_nodup_map sound.keys inLeft inRight same

theorem Database.Leads.refl (sound : db.Sound) : db.Leads db :=
  ⟨sound, fun row member => ⟨row, member, .refl row⟩⟩

theorem Database.Leads.trans {first second third : Database}
    (before : first.Leads second) (after : second.Leads third) :
    first.Leads third where
  sound := after.sound
  continues := by
    intro row member
    rcases before.continues row member with ⟨middle, inside, continues⟩
    rcases after.continues middle inside with ⟨last, found, continues'⟩
    exact ⟨last, found, continues.trans continues'⟩

theorem update_eq_ok {db after : Database} {columns : List Text}
    {selects : AuditDelivery → Bool} {change : AuditDelivery → AuditDelivery}
    {count : Nat}
    (updated : db.update columns selects change = .ok (count, after)) :
    (∀ row ∈ db.deliveries, selects row = true →
      (change row).fits = true ∧ row.permits (change row) = true ∧
        (change row).checks = true) ∧
      after = { db with
        deliveries := Table.set selects change db.deliveries } := by
  unfold Database.update at updated
  dsimp only at updated
  split at updated
  · cases updated
  split at updated
  · cases updated
  rename_i fits
  split at updated
  · cases updated
  rename_i permits
  split at updated
  · cases updated
  rename_i checks
  cases updated
  refine ⟨fun row member selected => ?_, rfl⟩
  have inside := List.mem_filter.2 ⟨member, selected⟩
  simp only [List.any_eq_true, Bool.not_eq_true', not_exists, not_and,
    Bool.not_eq_false] at fits permits checks
  exact ⟨fits row inside, permits row inside, checks row inside⟩

/-- An update stores rows that fit and pass the checks. -/
theorem update_leads {db after : Database} {columns : List Text}
    {selects : AuditDelivery → Bool} {change : AuditDelivery → AuditDelivery}
    {count : Nat} (sound : db.Sound)
    (updated : db.update columns selects change = .ok (count, after))
    (key : ∀ row, (change row).toDeliveryKey = row.toDeliveryKey) :
    db.Leads after := by
  rcases update_eq_ok updated with ⟨valid, rfl⟩
  have kept (row : AuditDelivery) : (if selects row then change row
      else row).toDeliveryKey = row.toDeliveryKey := by
    split
    · exact key row
    · rfl
  have changed (row : AuditDelivery) (member : row ∈ db.deliveries) :
      (if selects row then change row else row).fits = true ∧
        (if selects row then change row else row).checks = true ∧
        row.Continues (if selects row then change row else row) := by
    split
    · rename_i selected
      rcases valid row member selected with ⟨fits, permits, checks⟩
      exact ⟨fits, checks, .of_permits (key row) permits⟩
    · exact ⟨sound.fits row member, sound.checks row member, .refl row⟩
  refine ⟨⟨?_, ?_, ?_⟩, ?_⟩
  · show ((db.deliveries.map _).map AuditDelivery.toDeliveryKey).Nodup
    rw [List.map_map]
    exact (List.map_congr_left fun row _ => kept row) ▸ sound.keys
  · intro row member
    rcases List.mem_map.1 member with ⟨old, inside, rfl⟩
    exact (changed old inside).1
  · intro row member
    rcases List.mem_map.1 member with ⟨old, inside, rfl⟩
    exact (changed old inside).2.1
  · intro row member
    exact ⟨_, List.mem_map_of_mem member, (changed row member).2.2⟩

theorem insertDelivery_leads {db after : Database} {key : DeliveryKey}
    {inserted : Nat} (sound : db.Sound)
    (claimed : db.insertDelivery key = .ok (inserted, after)) :
    db.Leads after := by
  rcases insertDelivery_ok claimed with ⟨-, -, rfl⟩ | ⟨-, opens, rfl⟩
  · exact .refl sound
  rcases (newDelivery_valid db key).2 ⟨opens.positive, opens.accepts⟩ with
    ⟨fits, checks, -⟩
  refine ⟨⟨?_, ?_, ?_⟩, ?_⟩
  · exact nodup_keys_append sound.keys (delivery?_none.1 opens.free)
  · intro row member
    rcases List.mem_append.1 member with old | new
    · exact sound.fits row old
    · exact List.mem_singleton.1 new ▸ fits
  · intro row member
    rcases List.mem_append.1 member with old | new
    · exact sound.checks row old
    · exact List.mem_singleton.1 new ▸ checks
  · intro row member
    exact ⟨row, List.mem_append_left _ member, .refl row⟩

theorem resendWebhook_leads (sound : db.Sound)
    (event : ResendEvent) (messageId : Text) :
    db.Leads (db.resendWebhook event messageId) := by
  unfold Database.resendWebhook
  split
  · exact .refl sound
  split
  · exact .refl sound
  split
  · rename_i count after updated
    exact update_leads sound updated fun _ => rfl
  · exact .refl sound

theorem answer_leads (sound : db.Sound)
    (statement : Statement) : db.Leads (statement.answer db).2 := by
  unfold Statement.answer
  split
  · rename_i answer after ran
    cases statement with
    | alreadySent | latest | deliveryState => cases ran; exact .refl sound
    | reclaimTarget | reclaimKey =>
        simp only [Statement.run, reclaim_eq] at ran
        cases ran
    | insertDelivery key => exact insertDelivery_leads sound ran
    | finishDelivery key providerMessageId failureClass =>
        have finished : db.finishDelivery key providerMessageId failureClass =
            .ok (answer, after) := ran
        unfold Database.finishDelivery at finished
        exact update_leads sound finished fun _ => rfl
  · exact .refl sound

theorem DeliveryEvent.leads (sound : db.Sound) (event : DeliveryEvent) :
    db.Leads (event.after db) := by
  cases event with
  | sql statement => exact answer_leads sound statement
  | webhook event messageId => exact resendWebhook_leads sound event messageId
  | tick now =>
      exact ⟨⟨sound.keys, sound.fits, sound.checks⟩,
        fun row member => ⟨row, member, .refl row⟩⟩

theorem runEvents_leads (sound : db.Sound)
    (events : List DeliveryEvent) : db.Leads (runEvents db events) := by
  induction events generalizing db with
  | nil => exact .refl sound
  | cons event events ih =>
      have first := event.leads sound
      exact first.trans (ih first.sound)

/-! ## Failures -/

/-- Nothing stands in the way of recording a failure. -/
theorem recordEvent_failed (sound : db.Sound) (messageId failureClass : Text) :
    ∃ count after, db.recordEvent messageId .failed (some failureClass) =
      .ok (count, after) := by
  unfold Database.recordEvent Database.update
  dsimp only
  have columns : (["status", "completed_at", "failure_class"] :
      List Text).any (fun column => column ∉ deliveryColumns) = false := by
    decide
  rw [if_neg (by rw [columns]; decide), if_neg, if_neg, if_neg]
  · exact ⟨_, _, rfl⟩
  · intro refused
    rcases List.any_eq_true.1 refused with ⟨row, inside, fails⟩
    have checks := sound.checks row (List.mem_filter.1 inside).1
    have passes : ({ row with
        status := .failed
        completedAt := some db.now
        failureClass := some failureClass } : AuditDelivery).checks = true := by
      unfold AuditDelivery.checks at checks ⊢
      simp only [Bool.and_eq_true] at checks
      rw [checks.1.1.1, checks.1.1.2]
      rfl
    rw [passes] at fails
    cases fails
  · intro refused
    rcases List.any_eq_true.1 refused with ⟨row, inside, fails⟩
    have selected := (List.mem_filter.1 inside).2
    have passes : row.permits { row with
        status := .failed
        completedAt := some db.now
        failureClass := some failureClass } = true := by
      cases status : row.status with
      | queued | sending => simp [AuditDelivery.permits, status]
      | sent => simp [status] at selected
      | failed => simp [status] at selected
    rw [passes] at fails
    cases fails
  · intro refused
    rcases List.any_eq_true.1 refused with ⟨row, inside, fails⟩
    have fits := sound.fits row (List.mem_filter.1 inside).1
    have passes : ({ row with
        status := .failed
        completedAt := some db.now
        failureClass := some failureClass } : AuditDelivery).fits = true := fits
    rw [passes] at fails
    cases fails

/-- An event that reports a failure fails every row of its message that is not
sent. -/
theorem resendWebhook_fails (sound : db.Sound)
    {event : ResendEvent} (failure : event.IsFailure) {messageId : Text}
    (present : messageId ≠ []) {row : AuditDelivery}
    (member : row ∈ db.deliveries)
    (recorded : row.providerMessageId = some messageId)
    (unsent : row.status ≠ .sent) :
    ∃ row' ∈ (db.resendWebhook event messageId).deliveries,
      row'.toDeliveryKey = row.toDeliveryKey ∧ row'.status = .failed := by
  have failing : ∃ failureClass,
      event.records = some (.failed, some failureClass) := by
    rcases failure with rfl | rfl
    · exact ⟨_, rfl⟩
    · exact ⟨_, rfl⟩
  rcases failing with ⟨failureClass, records⟩
  rcases recordEvent_failed sound messageId failureClass with
    ⟨count, after, updated⟩
  have same : db.resendWebhook event messageId = after := by
    unfold Database.resendWebhook
    rw [if_neg (by simpa using present), records]
    dsimp only
    rw [updated]
  rw [same, (update_eq_ok updated).2]
  refine ⟨_, List.mem_map_of_mem member, ?_⟩
  by_cases done : row.status = .failed
  · rw [if_neg (by simp [done])]
    exact ⟨rfl, done⟩
  · rw [if_pos (by simp [recorded, unsent, done])]
    exact ⟨rfl, rfl⟩

/-! ## Runs -/

/-- From every failure event about a recorded message on, its delivery is not
sent. -/
def EvidenceKept (db : Database) (events : List DeliveryEvent) : Prop :=
  ∀ before event messageId later rest, events =
      before ++ .webhook event messageId :: later ++ rest →
    event.IsFailure → messageId ≠ [] →
    ∀ row ∈ (runEvents db before).deliveries,
      row.providerMessageId = some messageId →
      ∀ row' ∈ (runEvents db
          (before ++ .webhook event messageId :: later)).deliveries,
        row'.toDeliveryKey = row.toDeliveryKey → row'.status ≠ .sent

/-- No failure event finds its delivery sent. -/
def UnsentAtFailure (db : Database) (events : List DeliveryEvent) : Prop :=
  ∀ before event messageId rest, events =
      before ++ .webhook event messageId :: rest →
    event.IsFailure → messageId ≠ [] →
    ∀ row ∈ (runEvents db before).deliveries,
      row.providerMessageId = some messageId → row.status ≠ .sent

/-- The evidence of a failure is kept exactly on the runs in which it arrives
before the delivery is sent. -/
theorem evidence_kept_iff (db : Database) (sound : db.Sound)
    (events : List DeliveryEvent) :
    EvidenceKept db events ↔ UnsentAtFailure db events := by
  constructor
  · intro kept before event messageId rest same failure present row member
      recorded sent
    have after := (runEvents_leads sound before).sound
    rcases (resendWebhook_leads after event messageId).continues row member with
      ⟨row', inside, continues⟩
    have frozen := continues.frozen sent
    subst frozen
    apply kept before event messageId [] rest (by simpa using same) failure
      present _ member recorded row' ?_ rfl sent
    rw [runEvents_append]
    exact inside
  · intro unsent before event messageId later rest same failure present row
      member recorded row' inside key
    have start := (runEvents_leads sound before).sound
    have pending := unsent before event messageId (later ++ rest)
      (by simpa using same) failure present row member recorded
    rcases resendWebhook_fails start failure present member recorded pending
      with ⟨failed, found, sameKey, status⟩
    have processed := (resendWebhook_leads start event messageId).sound
    have onward := runEvents_leads processed later
    rcases onward.continues failed found with ⟨last, reached, continues⟩
    rw [runEvents_append] at inside
    have equal : row' = last := onward.sound.unique inside reached
      (key.trans (sameKey.symm.trans continues.key.symm))
    rw [equal, continues.failed status]
    decide

/-! ## A bounce after acceptance -/

def reportKey : DeliveryKey where
  executionId := "execution-1"
  channel := .email
  destinationRef := "owner@example.com"
  deliveryVersion := 1

def sendingReport : AuditDelivery where
  toDeliveryKey := reportKey
  status := .sending
  attempts := 1
  providerMessageId := none
  failureClass := none
  createdAt := 0
  completedAt := none

def sendingDatabase : Database where
  now := 1
  executions := ["execution-1"]
  deliveries := [sendingReport]

theorem sendingDatabase_sound : sendingDatabase.Sound where
  keys := List.nodup_singleton _
  fits := by decide
  checks := by decide

/-- The provider accepts the message, and later reports that it bounced. -/
def acceptedThenBounced : List DeliveryEvent :=
  [.sql (.finishDelivery reportKey (some "message-1") none),
   .webhook .bounced "message-1"]

theorem evidence_kept_iff_accepted :
    EvidenceKept sendingDatabase acceptedThenBounced ↔
      UnsentAtFailure sendingDatabase acceptedThenBounced :=
  evidence_kept_iff sendingDatabase sendingDatabase_sound acceptedThenBounced

/-- The delivery stays sent. -/
theorem bounce_after_acceptance_lost :
    ¬ EvidenceKept sendingDatabase acceptedThenBounced := by
  intro kept
  let row : AuditDelivery :=
    { sendingReport with
      status := .sent
      providerMessageId := some "message-1"
      completedAt := some 1 }
  have before : row ∈ (runEvents sendingDatabase
      [.sql (.finishDelivery reportKey (some "message-1") none)]).deliveries := by
    decide
  have after : row ∈ (runEvents sendingDatabase
      acceptedThenBounced).deliveries := by
    decide
  exact kept [.sql (.finishDelivery reportKey (some "message-1") none)]
    .bounced "message-1" [] [] rfl (Or.inl rfl) (by decide) row before rfl row
    after rfl rfl

end FireCrow.Orchestrator.Delivery
