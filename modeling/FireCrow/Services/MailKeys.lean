import FireCrow.Orchestrator.DeliveryInvariants
import FireCrow.Services.Mail

/-!
# What the idempotency keys tell apart

A key names a topic: an execution's attempt, a user's confirmation, a request's
reminder or a request's completion.  Keys separate messages exactly as long as
every topic has one message, and then what is recorded as sent was accepted.
-/

namespace FireCrow.Services.Mail

open FireCrow.Library
open FireCrow.Orchestrator.Delivery (AppError DeliveryError DeliveryKey
  DeliveryOutcome Target)

/-! ## Topics -/

/-- What a key is composed of. -/
inductive Topic where
  | report (executionId : Text) (attemptNumber : Int)
  | confirmation (userId : Text)
  | reminder (requestId : Text)
  | completion (requestId : Text)
deriving DecidableEq

namespace Purpose

def topic : Purpose → Topic
  | .report executionId attemptNumber => .report executionId attemptNumber
  | .confirmation userId _ => .confirmation userId
  | .reminder requestId => .reminder requestId
  | .completion requestId => .completion requestId

/-- The identity that the artifact of a purpose carries. -/
def executionId : Purpose → Text
  | .report executionId _ => executionId
  | .confirmation userId _ => ("deletion-requested-" : Text) ++ userId
  | .reminder requestId => ("deletion-reminder-" : Text) ++ requestId
  | .completion requestId => ("deletion-completed-" : Text) ++ requestId

def attemptNumber : Purpose → Int
  | .report _ attemptNumber => attemptNumber
  | _ => 1

/-- The identifier of an execution is drawn, and attempts count from one. -/
def Drawn : Purpose → Prop
  | .report executionId attemptNumber =>
      executionId.all uuidCharacter = true ∧ 1 ≤ attemptNumber
  | _ => True

end Purpose

/-- The artifact carries the identity of the letter's purpose. -/
structure Letter.Proper (letter : Letter) : Prop where
  executionId : letter.artifact.executionId = letter.purpose.executionId
  attemptNumber : letter.artifact.attemptNumber = letter.purpose.attemptNumber
  drawn : letter.purpose.Drawn

theorem hyphen_notMem_ofInt {number : Int} (positive : 1 ≤ number) :
    '-' ∉ Text.ofInt number := by
  cases number with
  | negSucc number => exact absurd positive (by omega)
  | ofNat number =>
      intro member
      have digit : ('-').isDigit = true :=
        Nat.isDigit_of_mem_toDigits (by decide) (by decide) member
      revert digit
      decide

theorem ofInt_injective {first second : Int} (positive : 1 ≤ first)
    (positive' : 1 ≤ second) (same : Text.ofInt first = Text.ofInt second) :
    first = second := by
  cases first with
  | negSucc number => exact absurd positive (by omega)
  | ofNat number =>
      cases second with
      | negSucc number => exact absurd positive' (by omega)
      | ofNat number' =>
          have read := congrArg (fun text => Nat.ofDigitChars 10 text 0) same
          simp only [Text.ofInt, Text.ofNat,
            Nat.ofDigitChars_ten_toDigits] at read
          rw [read]

/-- The last separator is found where neither ending has one. -/
theorem append_hyphen_inj {front front' back back' : Text} (absent : '-' ∉ back)
    (absent' : '-' ∉ back')
    (same : front ++ '-' :: back = front' ++ '-' :: back') :
    front = front' ∧ back = back' := by
  have turned := congrArg List.reverse same
  simp only [List.reverse_append, List.reverse_cons, List.append_assoc,
    List.singleton_append] at turned
  have parts := congrArg (Text.splitOnce '-') turned
  rw [Text.splitOnce_append _ (by simpa using absent),
    Text.splitOnce_append _ (by simpa using absent')] at parts
  simp only [Option.some.injEq, Prod.mk.injEq, List.reverse_inj] at parts
  exact ⟨parts.2, parts.1⟩

theorem Purpose.Drawn.positive {purpose : Purpose} (drawn : purpose.Drawn) :
    1 ≤ purpose.attemptNumber := by
  cases purpose with
  | report => exact drawn.2
  | _ => exact le_refl 1

theorem append_ne_append {opening opening' : Text} (long : 12 ≤ opening.length)
    (long' : 12 ≤ opening'.length) (differ : opening.take 12 ≠ opening'.take 12)
    (rest rest' : Text) : opening ++ rest ≠ opening' ++ rest' := by
  intro same
  have starts := congrArg (List.take 12) same
  rw [List.take_append_of_le_length long,
    List.take_append_of_le_length long'] at starts
  exact differ starts

theorem drawn_ne {executionId opening : Text}
    (drawn : executionId.all uuidCharacter = true)
    (foreign : opening.all uuidCharacter = false) (rest : Text) :
    executionId ≠ opening ++ rest := by
  rintro rfl
  rw [List.all_append, foreign, Bool.false_and] at drawn
  cases drawn

theorem confirmation_foreign :
    ("deletion-requested-" : Text).all uuidCharacter = false := by
  decide

theorem reminder_foreign :
    ("deletion-reminder-" : Text).all uuidCharacter = false := by
  decide

theorem completion_foreign :
    ("deletion-completed-" : Text).all uuidCharacter = false := by
  decide

theorem confirmation_ne_reminder (userId requestId : Text) :
    ("deletion-requested-" : Text) ++ userId ≠
      ("deletion-reminder-" : Text) ++ requestId :=
  append_ne_append (by decide) (by decide) (by decide)
    userId requestId

theorem confirmation_ne_completion (userId requestId : Text) :
    ("deletion-requested-" : Text) ++ userId ≠
      ("deletion-completed-" : Text) ++ requestId :=
  append_ne_append (by decide) (by decide) (by decide)
    userId requestId

theorem reminder_ne_completion (first second : Text) :
    ("deletion-reminder-" : Text) ++ first ≠
      ("deletion-completed-" : Text) ++ second :=
  append_ne_append (by decide) (by decide) (by decide)
    first second

/-- Identities tell topics apart. -/
theorem Purpose.topic_eq {first second : Purpose} (drawn : first.Drawn)
    (drawn' : second.Drawn) (identity : first.executionId = second.executionId)
    (attempt : first.attemptNumber = second.attemptNumber) :
    first.topic = second.topic := by
  cases first with
  | report executionId attemptNumber =>
      cases second with
      | report executionId' attemptNumber' =>
          cases identity
          cases attempt
          rfl
      | confirmation =>
          exact absurd identity (drawn_ne drawn.1 confirmation_foreign _)
      | reminder => exact absurd identity (drawn_ne drawn.1 reminder_foreign _)
      | completion =>
          exact absurd identity (drawn_ne drawn.1 completion_foreign _)
  | confirmation userId token =>
      cases second with
      | report =>
          exact absurd identity.symm (drawn_ne drawn'.1 confirmation_foreign _)
      | confirmation =>
          exact congrArg Topic.confirmation (List.append_cancel_left identity)
      | reminder => exact absurd identity (confirmation_ne_reminder _ _)
      | completion => exact absurd identity (confirmation_ne_completion _ _)
  | reminder requestId =>
      cases second with
      | report =>
          exact absurd identity.symm (drawn_ne drawn'.1 reminder_foreign _)
      | confirmation =>
          exact absurd identity.symm (confirmation_ne_reminder _ _)
      | reminder =>
          exact congrArg Topic.reminder (List.append_cancel_left identity)
      | completion => exact absurd identity (reminder_ne_completion _ _)
  | completion requestId =>
      cases second with
      | report =>
          exact absurd identity.symm (drawn_ne drawn'.1 completion_foreign _)
      | confirmation =>
          exact absurd identity.symm (confirmation_ne_completion _ _)
      | reminder => exact absurd identity.symm (reminder_ne_completion _ _)
      | completion =>
          exact congrArg Topic.completion (List.append_cancel_left identity)

theorem Purpose.identity_eq {first second : Purpose}
    (same : first.topic = second.topic) :
    first.executionId = second.executionId ∧
      first.attemptNumber = second.attemptNumber := by
  cases first <;> cases second <;> cases same <;> exact ⟨rfl, rfl⟩

/-- Two letters carry the same key exactly if their topic is the same. -/
theorem idempotencyKey_eq_iff {first second : Letter} (proper : first.Proper)
    (proper' : second.Proper) :
    idempotencyKey first.artifact = idempotencyKey second.artifact ↔
      first.purpose.topic = second.purpose.topic := by
  constructor
  · intro same
    unfold idempotencyKey at same
    rw [proper.executionId, proper.attemptNumber, proper'.executionId,
      proper'.attemptNumber] at same
    have parts := append_hyphen_inj (hyphen_notMem_ofInt proper.drawn.positive)
      (hyphen_notMem_ofInt proper'.drawn.positive) same
    exact Purpose.topic_eq proper.drawn proper'.drawn
      (List.append_cancel_left parts.1)
      (ofInt_injective proper.drawn.positive proper'.drawn.positive parts.2)
  · intro same
    have identity := Purpose.identity_eq same
    unfold idempotencyKey
    rw [proper.executionId, proper.attemptNumber, proper'.executionId,
      proper'.attemptNumber, identity.1, identity.2]

/-! ## What the postings say -/

/-- The postings of a world. -/
abbrev World.postings (world : World) : List Posting := world.mailbox.postings

/-- Different messages or recipients never carry the same key. -/
def Separated (world : World) : Prop :=
  ∀ first ∈ world.postings, ∀ second ∈ world.postings,
    first.key = second.key → first.message = second.message

/-- Every retry of a message carries the message's key. -/
def Retried (world : World) : Prop :=
  ∀ first ∈ world.postings, ∀ second ∈ world.postings,
    first.message = second.message → first.key = second.key

/-- A topic has one message. -/
def OnePerTopic (world : World) : Prop :=
  ∀ first ∈ world.postings, ∀ second ∈ world.postings,
    first.message.purpose.topic = second.message.purpose.topic →
      first.message = second.message

/-- A delivery that is recorded as sent was accepted: the execution's report,
for the row's destination. -/
def Delivered (world : World) : Prop :=
  ∀ row ∈ world.deliveries.deliveries, row.status = .sent →
    ∃ posting ∈ world.postings, posting.accepted = true ∧
      posting.message.recipient = row.destinationRef ∧
      ∃ attemptNumber,
        posting.message.purpose = .report row.executionId attemptNumber

/-- Every reminder that is recorded was accepted. -/
def Reminded (world : World) : Prop :=
  ∀ requestId, ∀ ordinal < world.reminders requestId,
    ∃ posting ∈ world.postings, posting.accepted = true ∧
      posting.message.purpose = .reminder requestId ∧
      posting.message.ordinal = ordinal

/-- The provider answered the posting of a message with success. -/
def Posting.heard (posting : Posting) : Bool := posting.answer.isOk

/-- A report of the target was answered with success. -/
def World.Heard (world : World) (target : Target) : Prop :=
  ∃ posting ∈ world.postings, posting.heard = true ∧
    posting.message.recipient = target.destinationRef ∧
    ∃ attemptNumber,
      posting.message.purpose = .report target.executionId attemptNumber

/-- What every run keeps of the postings and of the deliveries. -/
structure Regular (world : World) : Prop where
  proper : ∀ posting ∈ world.postings, posting.message.Proper
  keyed : ∀ posting ∈ world.postings,
    posting.key = idempotencyKey posting.message.artifact
  taken : ∀ posting ∈ world.postings, posting.heard = true →
    ∃ earlier ∈ world.postings, earlier.accepted = true ∧
      earlier.key = posting.key
  recorded : ∀ row ∈ world.deliveries.deliveries, row.status = .sent →
    world.Heard row.toTarget

namespace Regular

variable {world : World}

section

variable (regular : Regular world)
include regular

theorem retried : Retried world := by
  intro first member second member' same
  rw [regular.keyed first member, regular.keyed second member', same]

/-- Keys separate messages exactly if every topic has one message. -/
theorem separated_iff : Separated world ↔ OnePerTopic world := by
  have keys : ∀ first ∈ world.postings, ∀ second ∈ world.postings,
      (first.key = second.key ↔
        first.message.purpose.topic = second.message.purpose.topic) := by
    intro first member second member'
    rw [regular.keyed first member, regular.keyed second member']
    exact idempotencyKey_eq_iff (regular.proper first member)
      (regular.proper second member')
  constructor
  · intro separated first member second member' same
    exact separated first member second member'
      ((keys first member second member').2 same)
  · intro single first member second member' same
    exact single first member second member'
      ((keys first member second member').1 same)

theorem accepted (separated : Separated world)
    {posting : Posting} (member : posting ∈ world.postings)
    (heard : posting.heard = true) :
    ∃ earlier ∈ world.postings, earlier.accepted = true ∧
      earlier.message = posting.message := by
  rcases regular.taken posting member heard with
    ⟨earlier, inside, accepted, key⟩
  exact ⟨earlier, inside, accepted,
    separated earlier inside posting member key⟩

theorem delivered (separated : Separated world) : Delivered world := by
  intro row member sent
  rcases regular.recorded row member sent with
    ⟨posting, inside, heard, recipient, attempt, purpose⟩
  rcases regular.accepted separated inside heard with
    ⟨earlier, inside', accepted, same⟩
  refine ⟨earlier, inside', accepted, ?_, attempt, ?_⟩
  · rw [same]
    exact recipient
  · rw [same]
    exact purpose

end

end Regular

/-! ## The discipline -/

/-- A letter carries its key, and success is recorded after it was heard. -/
def Statement.Required (world : World) : Statement → Prop
  | .post letter key => letter.Proper ∧ key = idempotencyKey letter.artifact
  | .delivery (.finishDelivery key _ none) => world.Heard key.toTarget
  | _ => True

def discipline (settings : Settings) : Discipline World Statement Statement.Reply
    where
  executes := (machine settings).Executes
  rely before after := before.postings ⊆ after.postings
  requires world statement := statement.Required world
  rely_refl _ := List.Subset.refl _
  rely_trans := List.Subset.trans

theorem World.Heard.mono {world later : World} {target : Target}
    (heard : world.Heard target) (grown : world.postings ⊆ later.postings) :
    later.Heard target := by
  rcases heard with ⟨posting, member, rest⟩
  exact ⟨posting, grown member, rest⟩

/-- A statement that anyone may issue. -/
def Statement.Free (statement : Statement) : Prop :=
  ∀ world, statement.Required world

/-! ## What a request to the provider does -/

theorem receive_message (mailbox : Mailbox) (message : Message) (key : Text) :
    (mailbox.receive message key).message = message ∧
      (mailbox.receive message key).key = key := by
  unfold Mailbox.receive
  dsimp only
  split
  · exact ⟨rfl, rfl⟩
  · exact ⟨rfl, rfl⟩

variable {key : Text}

theorem receive_heard {mailbox : Mailbox} {message : Message}
    (heard : (mailbox.receive message key).heard = true) :
    (mailbox.receive message key).accepted = true ∨
      ∃ earlier ∈ mailbox.postings, earlier.accepted = true ∧
        earlier.key = key := by
  unfold Mailbox.receive at heard ⊢
  dsimp only at heard ⊢
  split at heard
  · rename_i earlier found
    have selected := List.find?_some found
    rw [Bool.and_eq_true, decide_eq_true_eq] at selected
    exact .inr ⟨earlier, List.mem_of_find?_eq_some found, selected⟩
  · left
    cases received : mailbox.reception mailbox.postings.length with
    | accepts | acceptsUnheard => rfl
    | refuses error =>
        rw [received] at heard
        cases heard

theorem post_postings (world : World) (letter : Letter) (key : Text) :
    (world.post letter key).2.postings =
      world.postings ++
        [world.mailbox.receive (world.message letter) key] :=
  rfl

variable {world : World}

theorem mem_post {letter : Letter} {posting : Posting} :
    posting ∈ (world.post letter key).2.postings ↔
      posting ∈ world.postings ∨
        posting = world.mailbox.receive (world.message letter) key := by
  rw [post_postings, List.mem_append, List.mem_singleton]

theorem Regular.post {letter : Letter}
    (regular : Regular world) (proper : letter.Proper)
    (keyed : key = idempotencyKey letter.artifact) :
    Regular (world.post letter key).2 where
  proper := by
    intro posting member
    rcases mem_post.1 member with old | rfl
    · exact regular.proper posting old
    · rw [(receive_message _ _ _).1]
      exact ⟨proper.executionId, proper.attemptNumber, proper.drawn⟩
  keyed := by
    intro posting member
    rcases mem_post.1 member with old | rfl
    · exact regular.keyed posting old
    · rw [(receive_message _ _ _).1, (receive_message _ _ _).2]
      exact keyed
  taken := by
    intro posting member heard
    rcases mem_post.1 member with old | rfl
    · rcases regular.taken posting old heard with ⟨earlier, inside, rest⟩
      exact ⟨earlier, mem_post.2 (.inl inside), rest⟩
    · rcases receive_heard heard with accepted | ⟨earlier, inside, rest⟩
      · exact ⟨_, member, accepted, rfl⟩
      · refine ⟨earlier, mem_post.2 (.inl inside), rest.1, ?_⟩
        rw [rest.2, (receive_message _ _ _).2]
  recorded := by
    intro row member sent
    exact (regular.recorded row member sent).mono
      fun posting old => mem_post.2 (.inl old)

/-! ## What the delivery statements do -/

theorem sent_of_run {db after : Orchestrator.Delivery.Database}
    {statement : Orchestrator.Delivery.Statement} {answer : statement.Answer}
    (ran : statement.run db = .ok (answer, after))
    {row : Orchestrator.Delivery.AuditDelivery}
    (member : row ∈ after.deliveries) (sent : row.status = .sent) :
    row ∈ db.deliveries ∨
      ∃ messageId, statement =
        .finishDelivery row.toDeliveryKey messageId none := by
  rcases Orchestrator.Delivery.row_of_run ran member with
    old | ⟨key, _, rfl⟩ | ⟨messageId, failureClass, rfl, recorded⟩
  · exact .inl old
  · cases sent
  · cases failureClass with
    | none => exact .inr ⟨messageId, rfl⟩
    | some failure =>
        rw [sent] at recorded
        cases recorded

theorem Regular.delivery
    {statement : Orchestrator.Delivery.Statement} (regular : Regular world)
    (required : (Statement.delivery statement).Required world) :
    Regular (Statement.answer world (.delivery statement)).2 where
  proper := regular.proper
  keyed := regular.keyed
  taken := regular.taken
  recorded := by
    intro row member sent
    have after : row ∈ (statement.answer world.deliveries).2.deliveries :=
      member
    have stays : ∀ target, world.Heard target →
        (Statement.answer world (.delivery statement)).2.Heard target :=
      fun _ heard => heard
    unfold Orchestrator.Delivery.Statement.answer at after
    split at after
    · rename_i ran
      rcases sent_of_run ran after sent with old | ⟨messageId, rfl⟩
      · exact stays _ (regular.recorded row old sent)
      · exact stays _ required
    · exact stays _ (regular.recorded row after sent)

theorem Regular.answer {statement : Statement}
    (regular : Regular world) (required : statement.Required world) :
    Regular (statement.answer world).2 ∧
      world.postings ⊆ (statement.answer world).2.postings := by
  cases statement with
  | delivery statement =>
      exact ⟨regular.delivery required, List.Subset.refl _⟩
  | deletion statement =>
      exact ⟨⟨regular.proper, regular.keyed, regular.taken, regular.recorded⟩,
        List.Subset.refl _⟩
  | dueReminders => exact ⟨regular, List.Subset.refl _⟩
  | post letter key =>
      exact ⟨regular.post required.1 required.2, List.subset_append_left _ _⟩

/-! ## The programs -/

section Programs

variable {settings : Settings} {Result : Type}

theorem inAccounts_free (program : Deletion.Task Result) :
    (inAccounts program).Asks Statement.Free :=
  Program.Asks.lift (Program.Asks.any program fun _ _ => trivial)

theorem inDeliveries_free {program : Orchestrator.Delivery.Task Result}
    (asks : program.Asks fun statement =>
      (Statement.delivery statement).Free) :
    (inDeliveries program).Asks Statement.Free :=
  Program.Asks.lift asks

variable {letter : Letter}

theorem sendAttempts_free (proper : letter.Proper) (retries : Nat) :
    (sendAttempts letter (idempotencyKey letter.artifact) retries).Asks
      Statement.Free := by
  induction retries with
  | zero => exact ⟨fun _ => ⟨proper, rfl⟩, fun _ => trivial⟩
  | succ retries ih =>
      refine ⟨fun _ => ⟨proper, rfl⟩, fun reply => ?_⟩
      cases reply with
      | ok messageId => trivial
      | error error =>
          dsimp only
          split
          · exact ih
          · trivial

variable {mailer : EmailService}

variable {artifact : EmailArtifact} {recipient : Text}

theorem sendArtifact_free {purpose : Purpose}
    (proper : Letter.Proper ⟨purpose, recipient, artifact⟩) :
    (mailer.sendArtifact purpose recipient artifact).Asks Statement.Free := by
  unfold EmailService.sendArtifact
  split
  · exact sendAttempts_free proper _
  · trivial

theorem sendIgnored_free {purpose : Purpose}
    (proper : Letter.Proper ⟨purpose, recipient, artifact⟩) :
    (sendIgnored settings purpose recipient artifact).Asks Statement.Free := by
  unfold sendIgnored
  split
  · trivial
  · exact (sendArtifact_free proper).attempt.bind fun _ => trivial

theorem requestDeletion_free (requestId userId token : Text) :
    (requestDeletion settings requestId userId token).Asks Statement.Free := by
  apply (inAccounts_free _).bind
  rintro ⟨deadline, token⟩
  apply (inAccounts_free _).attempt.bind
  intro found
  split
  · split
    · trivial
    · apply sendIgnored_free
      exact ⟨rfl, rfl, trivial⟩
  · trivial

theorem deleteDue_free (due : List (Text × Text)) :
    (deleteDue settings due).Asks Statement.Free := by
  induction due with
  | nil => trivial
  | cons entry rest ih =>
      rcases entry with ⟨requestId, userId⟩
      apply (inAccounts_free _).bind
      intro marked
      split
      · exact ih
      apply (inAccounts_free _).bind
      intro _
      apply (inAccounts_free _).bind
      intro _
      apply (inAccounts_free _).bind
      intro found
      split
      · exact ih
      split
      · exact ih
      apply Program.Asks.bind
      · apply sendIgnored_free
        exact ⟨rfl, rfl, trivial⟩
      · exact fun _ => ih

theorem remindAll_free
    (reminders : List (Text × Text × Text × Deletion.Timestamp)) :
    (remindAll settings reminders).Asks Statement.Free := by
  induction reminders with
  | nil => trivial
  | cons entry rest ih =>
      rcases entry with ⟨requestId, userId, token, deadline⟩
      apply (inAccounts_free _).bind
      intro recipient
      have recorded : (inAccounts (Deletion.query
          (.recordReminder requestId)) >>= fun _ =>
            remindAll settings rest).Asks Statement.Free :=
        (inAccounts_free _).bind fun _ => ih
      split
      · exact recorded
      split
      · exact recorded
      apply Program.Asks.bind
      · apply sendIgnored_free
        exact ⟨rfl, rfl, trivial⟩
      · exact fun _ => recorded

theorem process_free : (process settings).Asks Statement.Free := by
  apply (inAccounts_free _).bind
  intro now
  apply (inAccounts_free _).bind
  intro due
  apply (deleteDue_free due).bind
  intro _
  exact ⟨fun _ => trivial, fun reply => by
    cases reply with
    | error error => trivial
    | ok reminders => exact remindAll_free reminders⟩

theorem sendAttempts_safe (proper : letter.Proper)
    (retries : Nat) (world : World) :
    (sendAttempts letter (idempotencyKey letter.artifact) retries).Safe
      (discipline settings)
      (fun world result => ∀ messageId, result = .ok messageId →
        ∃ posting ∈ world.postings, posting.heard = true ∧
          posting.message.toLetter = letter) world := by
  have heard : ∀ {before after : World}
      {reply : (Statement.post letter (idempotencyKey letter.artifact)).Reply},
      (machine settings).Executes before
        (.post letter (idempotencyKey letter.artifact)) reply after →
      ∀ messageId, reply = Except.ok messageId →
        ∃ posting ∈ after.postings, posting.heard = true ∧
          posting.message.toLetter = letter := by
    intro before after reply executes messageId success
    rcases executes.reply_cases with answered | failed
    · have state : (before.post letter (idempotencyKey letter.artifact)).2 =
          after := congrArg Prod.snd answered
      have replied : (before.post letter
          (idempotencyKey letter.artifact)).1 = reply :=
        congrArg Prod.fst answered
      refine ⟨before.mailbox.receive (before.message letter)
        (idempotencyKey letter.artifact), ?_, ?_, ?_⟩
      · rw [← state]
        exact mem_post.2 (.inr rfl)
      · have answer : (before.mailbox.receive (before.message letter)
            (idempotencyKey letter.artifact)).answer = Except.ok messageId :=
          replied.trans success
        rw [Posting.heard, answer]
        rfl
      · rw [(receive_message _ _ _).1]
        rfl
    · rw [failed] at success
      cases success
  induction retries generalizing world with
  | zero =>
      intro later _
      refine ⟨⟨proper, rfl⟩, fun reply after executes last grown messageId
        success => ?_⟩
      rcases heard executes messageId success with ⟨posting, member, rest⟩
      exact ⟨posting, grown member, rest⟩
  | succ retries ih =>
      intro later _
      refine ⟨⟨proper, rfl⟩, fun reply after executes => ?_⟩
      cases reply with
      | ok messageId =>
          intro last grown _ _
          rcases heard executes messageId rfl with ⟨posting, member, rest⟩
          exact ⟨posting, grown member, rest⟩
      | error error =>
          dsimp only
          split
          · exact ih after
          · intro last _ _ success
            cases success

theorem sendArtifact_safe (proper : letter.Proper) (world : World) :
    (mailer.sendArtifact letter.purpose letter.recipient letter.artifact).Safe
      (discipline settings)
      (fun world result => ∀ messageId, result = .ok messageId →
        ∃ posting ∈ world.postings, posting.heard = true ∧
          posting.message.toLetter = letter) world := by
  unfold EmailService.sendArtifact
  split
  · exact sendAttempts_safe proper _ world
  · intro last _ _ success
    cases success

theorem claimDelivery_free (key : DeliveryKey) :
    (inDeliveries (Orchestrator.Delivery.claimDelivery key)).Asks
      Statement.Free := by
  apply inDeliveries_free
  apply Program.Asks.bind
  · exact ⟨fun _ => trivial, fun _ => trivial⟩
  intro _
  apply Program.Asks.bind
  · exact ⟨fun _ => trivial, fun _ => trivial⟩
  intro inserted
  split
  · trivial
  apply Program.Asks.bind
  · exact ⟨fun _ => trivial, fun _ => trivial⟩
  intro existing
  cases existing with
  | none | some => trivial

theorem resolveDeliveryVersion_free (target : Target) :
    (inDeliveries (Orchestrator.Delivery.resolveDeliveryVersion target)).Asks
      Statement.Free := by
  apply inDeliveries_free
  apply Program.Asks.bind
  · exact ⟨fun _ => trivial, fun _ => trivial⟩
  intro _
  apply Program.Asks.bind
  · exact ⟨fun _ => trivial, fun _ => trivial⟩
  intro latest
  split
  · trivial
  · trivial
  · trivial
  · trivial

theorem free_safe {Error : Type}
    {program : Program Statement Statement.Reply Error Result}
    (free : program.Asks Statement.Free) (world : World) :
    program.Safe (discipline settings) (fun _ _ => True) world :=
  free.safe world

theorem deliver_safe {key : DeliveryKey} (proper : letter.Proper)
    (recipient : letter.recipient = key.destinationRef)
    (purpose : ∃ attemptNumber,
      letter.purpose = .report key.executionId attemptNumber) (world : World) :
    (deliver key (mailer.sendArtifact letter.purpose letter.recipient
      letter.artifact)).Safe (discipline settings) (fun _ _ => True) world := by
  apply Program.Safe.bind (free_safe (claimDelivery_free key) world)
  · exact fun _ _ _ => trivial
  intro claimed _ _
  have sending : (mailer.sendArtifact letter.purpose letter.recipient
      letter.artifact).attempt.Safe (discipline settings)
        (fun world result => ∀ messageId,
          result = (.ok (.ok messageId) : Except AppError _) →
            ∃ posting ∈ world.postings, posting.heard = true ∧
              posting.message.toLetter = letter) claimed := by
    apply (sendArtifact_safe proper claimed).attempt
    intro _ result ensured messageId same
    cases same
    exact ensured messageId rfl
  apply Program.Safe.bind sending
  · exact fun _ _ _ => trivial
  intro after sent heard
  cases sent with
  | ok messageId =>
      rcases heard messageId rfl with ⟨posting, member, answered, same⟩
      have reported : after.Heard key.toTarget := by
        refine ⟨posting, member, answered, ?_, ?_⟩
        · rw [same]
          exact recipient
        · rw [same]
          exact purpose
      intro later grown
      refine ⟨reported.mono grown, fun reply last _ => ?_⟩
      cases reply with
      | error | ok => exact fun _ _ => trivial
  | error error =>
      intro later _
      refine ⟨trivial, fun reply last _ => ?_⟩
      cases reply with
      | error | ok => exact fun _ _ => trivial

theorem deliverExecutionEmail_safe {executionId : Text}
    (identity : artifact.executionId = executionId)
    (drawn : executionId.all uuidCharacter = true)
    (positive : 1 ≤ artifact.attemptNumber) (world : World) :
    (deliverExecutionEmail mailer executionId recipient artifact).Safe
      (discipline settings) (fun _ _ => True) world := by
  have proper : Letter.Proper
      ⟨.report artifact.executionId artifact.attemptNumber, recipient,
        artifact⟩ := ⟨rfl, rfl, identity ▸ drawn, positive⟩
  apply Program.Safe.bind
  · apply free_safe
    exact ⟨fun _ => trivial, fun _ => trivial⟩
  · exact fun _ _ _ => trivial
  intro first alreadySent _
  split
  · exact fun _ _ => trivial
  apply Program.Safe.bind (free_safe (resolveDeliveryVersion_free _) first)
  · exact fun _ _ _ => trivial
  intro second version _
  apply Program.Safe.bind
  · apply free_safe
    exact ⟨fun _ => trivial, fun _ => trivial⟩
  · exact fun _ _ _ => trivial
  intro third existing _
  split
  · exact fun _ _ => trivial
  · exact deliver_safe proper rfl ⟨artifact.attemptNumber, by rw [identity]⟩
      third

theorem discard_safe {Error : Type}
    {program : Program Statement Statement.Reply Error Result}
    (safe : program.Safe (discipline settings) (fun _ _ => True) world) :
    program.discard.Safe (discipline settings) (fun _ _ => True) world :=
  safe.bind (fun _ _ => id) fun _ _ _ _ _ => trivial

end Programs

theorem guarantees (settings : Settings) :
    Guarantees (machine settings) (discipline settings) Regular where
  executes := fun executes => executes
  operation := by
    intro world operation _ permitted
    cases operation with
    | deliver mailer executionId recipient artifact =>
        exact discard_safe (deliverExecutionEmail_safe permitted.1 permitted.2.1
          permitted.2.2 world)
    | requestDeletion requestId userId token =>
        exact discard_safe (free_safe
          (requestDeletion_free requestId userId token).attempt world)
    | cancelDeletion userId token =>
        exact discard_safe (free_safe (inAccounts_free _).attempt world)
    | process => exact discard_safe (free_safe process_free.attempt world)
  statement := fun regular required => regular.answer required
  time := fun duration regular =>
    ⟨⟨regular.proper, regular.keyed, regular.taken, regular.recorded⟩,
      List.Subset.refl _⟩

theorem opening_sound (settings : Settings) (executions : List Text)
    (users : List Deletion.UserRow) (sessions : List Deletion.UserSession)
    (reception : Nat → Reception) :
    Sound (discipline settings) Regular
      (opening executions users sessions reception) where
  inv :=
    { proper := fun _ member => absurd member List.not_mem_nil
      keyed := fun _ member => absurd member List.not_mem_nil
      taken := fun _ member => absurd member List.not_mem_nil
      recorded := fun _ member => absurd member List.not_mem_nil }
  safe := fun _ _ running => by cases running

/-! ## One message for a topic -/

/-- A message is posted where its topic has no other one, and a reminder is
recorded where the provider has answered it with success. -/
def Statement.Orderly (world : World) : Statement → Prop
  | .post letter _ =>
      ∀ posting ∈ world.postings,
        posting.message.purpose.topic = letter.purpose.topic →
          posting.message = world.message letter
  | .deletion (.recordReminder requestId) =>
      ∃ posting ∈ world.postings, posting.heard = true ∧
        posting.message.purpose = .reminder requestId ∧
        posting.message.ordinal = world.reminders requestId
  | _ => True

def Orderly : Condition World Statement Statement.Reply Operation
  | world, .executed _ statement _, _ => statement.Orderly world
  | _, _, _ => True

theorem OnePerTopic.answer {statement : Statement}
    (single : OnePerTopic world) (orderly : statement.Orderly world) :
    OnePerTopic (statement.answer world).2 := by
  cases statement with
  | post letter key =>
      intro first member second member' same
      rcases mem_post.1 member with old | rfl
      · rcases mem_post.1 member' with old' | rfl
        · exact single first old second old' same
        · rw [(receive_message _ _ _).1] at same ⊢
          exact orderly first old same
      · rcases mem_post.1 member' with old' | rfl
        · rw [(receive_message _ _ _).1] at same ⊢
          exact (orderly second old' same.symm).symm
        · rfl
  | _ => exact single

section Reminders

/-- The reminders that a list of requests counts for one of them. -/
def counted (requests : List Deletion.DeletionRequest) (requestId : Text) :
    Nat :=
  (requests.find? fun request => request.id = requestId).elim 0
    Deletion.DeletionRequest.reminderCount

variable {requests : List Deletion.DeletionRequest}
  {selects : Deletion.DeletionRequest → Bool}
  {change : Deletion.DeletionRequest → Deletion.DeletionRequest}

theorem find?_set (kept : ∀ request, (change request).id = request.id)
    (requestId : Text) :
    ((Table.set selects change requests).find? fun request =>
        request.id = requestId) =
      (requests.find? fun request => request.id = requestId).map
        fun request => if selects request then change request else request := by
  unfold Table.set
  rw [List.find?_map]
  congr 2
  funext request
  by_cases selected : selects request = true
  · simp only [Function.comp_apply, if_pos selected, kept request]
  · simp only [Function.comp_apply, if_neg selected]

theorem counted_set (kept : ∀ request, (change request).id = request.id)
    (counts : ∀ request,
      (change request).reminderCount = request.reminderCount)
    (requestId : Text) :
    counted (Table.set selects change requests) requestId =
      counted requests requestId := by
  rw [counted, counted, find?_set kept]
  cases found : requests.find? fun request => request.id = requestId with
  | none => rfl
  | some request =>
      show (if selects request then change request
        else request).reminderCount = request.reminderCount
      split
      · exact counts request
      · rfl

theorem counted_concat {request : Deletion.DeletionRequest}
    (fresh : request.reminderCount = 0) (requestId : Text) :
    counted (requests ++ [request]) requestId = counted requests requestId := by
  rw [counted, counted, List.find?_append]
  cases found : requests.find? fun request => request.id = requestId with
  | some earlier => rfl
  | none =>
      rw [Option.none_or, List.find?_singleton]
      split
      · exact fresh
      · rfl

theorem counted_record (now : Deletion.Timestamp) (recorded requestId : Text) :
    counted (Table.set (fun request => request.id = recorded)
        (fun request =>
          { request with
            lastReminderSent := some now
            reminderCount := request.reminderCount + 1 }) requests) requestId ≤
      counted requests requestId + if recorded = requestId then 1 else 0 := by
  have kept : ∀ request : Deletion.DeletionRequest,
      ({ request with
          lastReminderSent := some now
          reminderCount := request.reminderCount + 1 } :
            Deletion.DeletionRequest).id = request.id := fun _ => rfl
  rw [counted, counted, find?_set kept]
  cases found : requests.find? fun request => request.id = requestId with
  | none => exact Nat.zero_le _
  | some request =>
      have named : request.id = requestId :=
        of_decide_eq_true (List.find?_some
          (p := fun request : Deletion.DeletionRequest =>
            decide (request.id = requestId)) found)
      show (if decide (request.id = recorded) then
        ({ request with
            lastReminderSent := some now
            reminderCount := request.reminderCount + 1 } :
              Deletion.DeletionRequest) else request).reminderCount ≤
        request.reminderCount + if recorded = requestId then 1 else 0
      by_cases same : request.id = recorded
      · rw [if_pos (decide_eq_true same), if_pos (same.symm.trans named)]
      · rw [if_neg (by simpa using same)]
        exact Nat.le_add_right _ _

theorem reminders_answer (world : World) (statement : Deletion.Statement)
    (requestId : Text) :
    (Statement.answer world (.deletion statement)).2.reminders requestId ≤
        world.reminders requestId ∨
      statement = .recordReminder requestId ∧
        (Statement.answer world (.deletion statement)).2.reminders requestId ≤
          world.reminders requestId + 1 := by
  cases statement with
  | insertRequest newId userId token deadline =>
      left
      show counted ((Deletion.Statement.insertRequest newId userId token
        deadline).answer world.accounts).2.requests requestId ≤ _
      unfold Deletion.Statement.answer
      dsimp only [Deletion.Statement.run]
      unfold Deletion.Accounts.insertRequest
      split
      · rename_i ran
        split at ran
        · cases ran
        split at ran
        · cases ran
        cases ran
        exact (counted_concat rfl requestId).le
      · exact le_refl _
  | cancelRequest | markRequestDeleted =>
      left
      apply le_of_eq
      apply counted_set
      · exact fun _ => rfl
      · exact fun _ => rfl
  | recordReminder recorded =>
      have counts := @counted_record world.accounts.requests
        world.accounts.now recorded requestId
      by_cases same : recorded = requestId
      · rw [if_pos same] at counts
        exact .inr ⟨by rw [same], counts⟩
      · rw [if_neg same] at counts
        exact .inl counts
  | recipient userId =>
      left
      show counted ((Deletion.Statement.recipient userId).answer
        world.accounts).2.requests requestId ≤ _
      unfold Deletion.Statement.answer
      dsimp only [Deletion.Statement.run]
      cases world.accounts.recipient userId <;> exact le_refl _
  | _ => exact .inl (le_refl _)

end Reminders

/-- Every reminder that is recorded was answered with success. -/
def RemindersHeard (world : World) : Prop :=
  ∀ requestId, ∀ ordinal < world.reminders requestId,
    ∃ posting ∈ world.postings, posting.heard = true ∧
      posting.message.purpose = .reminder requestId ∧
      posting.message.ordinal = ordinal

theorem RemindersHeard.answer {statement : Statement}
    (heard : RemindersHeard world) (orderly : statement.Orderly world) :
    RemindersHeard (statement.answer world).2 := by
  intro requestId ordinal counted
  cases statement with
  | delivery | dueReminders => exact heard requestId ordinal counted
  | post letter key =>
      rcases heard requestId ordinal counted with ⟨posting, member, rest⟩
      exact ⟨posting, mem_post.2 (.inl member), rest⟩
  | deletion statement =>
      rcases reminders_answer world statement requestId with
        less | ⟨rfl, more⟩
      · exact heard requestId ordinal (counted.trans_le less)
      · rcases Nat.lt_succ_iff_lt_or_eq.1 (counted.trans_le more) with
          earlier | rfl
        · exact heard requestId ordinal earlier
        · exact orderly

theorem Regular.reminded (regular : Regular world)
    (separated : Separated world) (heard : RemindersHeard world) :
    Reminded world := by
  intro requestId ordinal counted
  rcases heard requestId ordinal counted with
    ⟨posting, member, answered, purpose, same⟩
  rcases regular.accepted separated member answered with
    ⟨earlier, inside, accepted, message⟩
  refine ⟨earlier, inside, accepted, ?_, ?_⟩
  · rw [message]
    exact purpose
  · rw [message]
    exact same

/-- However deliveries, deletion requests, cancellations and housekeeping runs
interleave and fail, a retry carries the key of its message, and keys separate
messages exactly as long as every topic has one message; where each message is
posted on a topic of its own and each recorded reminder was answered with
success, what is recorded as sent was accepted by the provider. -/
theorem keys_separate_iff (settings : Settings) (executions : List Text)
    (users : List Deletion.UserRow) (sessions : List Deletion.UserSession)
    (reception : Nat → Reception) :
    (∀ config, (machine settings).Run anyStep
        (opening executions users sessions reception) config →
      Retried config.state ∧
        (Separated config.state ↔ OnePerTopic config.state)) ∧
    ∀ config, (machine settings).Run Orderly
        (opening executions users sessions reception) config →
      Separated config.state ∧ Retried config.state ∧
        Delivered config.state ∧ Reminded config.state := by
  have sound := opening_sound settings executions users sessions reception
  constructor
  · intro config run
    have regular := (sound.run (guarantees settings) run).inv
    exact ⟨regular.retried, regular.separated_iff⟩
  · intro config run
    have regular := (sound.run (guarantees settings) run).inv
    have single : OnePerTopic config.state :=
      run.keeps OnePerTopic (fun orderly single => single.answer orderly)
        (fun _ single => single) fun _ member => absurd member List.not_mem_nil
    have heard : RemindersHeard config.state :=
      run.keeps RemindersHeard (fun orderly heard => heard.answer orderly)
        (fun _ heard => heard) fun _ _ less => absurd less (Nat.not_lt_zero _)
    have separated := regular.separated_iff.2 single
    exact ⟨separated, regular.retried, regular.delivered separated,
      regular.reminded separated heard⟩

/-! ## Two recipients -/

instance (world : World) (statement : Statement) :
    Decidable (statement.Orderly world) :=
  match statement with
  | .post _ _ => inferInstanceAs (Decidable (∀ _ ∈ world.postings, _ → _))
  | .deletion (.recordReminder _) =>
      inferInstanceAs (Decidable (∃ _ ∈ world.postings, _ ∧ _ ∧ _))
  | .deletion .utcNow | .deletion (.insertRequest ..)
  | .deletion (.cancelRequest ..) | .deletion (.selectDue _)
  | .deletion (.markRequestDeleted _) | .deletion (.markUserDeleted _)
  | .deletion (.revokeSessions ..) | .deletion (.recipient _)
  | .deletion (.selectReminders ..) | .deletion (.email _) | .deletion .ended
  | .delivery _ | .dueReminders .. => isTrue trivial

instance (operation : Operation) : Decidable operation.Permitted :=
  match operation with
  | .deliver .. => inferInstanceAs (Decidable (_ ∧ _ ∧ _))
  | .requestDeletion .. | .cancelDeletion .. | .process => isTrue trivial

instance (settings : Settings) (world : World) (operation : Operation) :
    Decidable ((machine settings).permitted world operation) :=
  inferInstanceAs (Decidable operation.Permitted)

theorem orderly_admits (settings : Settings) :
    Admits (machine settings)
      (fun world statement => statement.Orderly world) Orderly where
  executed := by
    intro world process statement allowed
    show statement.Orderly world
    exact of_decide_eq_true allowed
  called := trivial
  crashed := trivial
  elapsed := fun _ => trivial

/-- No mailer for the account's mails, which have no text. -/
def reportsOnly : Settings where
  gracePeriod := 2592000
  reminderInterval := 86400
  mailer := none
  frontendUrl := "https://firecrow.example"
  backendBaseUrl := "https://api.firecrow.example"
  deletionRequestedEmail _ _ _ _ := ⟨[], [], []⟩
  deletionReminderEmail _ _ _ _ := ⟨[], [], []⟩
  deletionCompletedEmail _ _ := ⟨[], [], []⟩
  formatDeadline _ := []

def auditReport : EmailArtifact :=
  ⟨"e1", 1, "Fire Crow audit", "No findings.", "<p>No findings.</p>"⟩

/-- An execution, and a provider that accepts what it has not seen. -/
def reportOpening : Configuration :=
  opening ["e1"] [] [] fun _ => .accepts (some ("m1" : Text))

/-- The report is delivered to one recipient, twice. -/
def deliveredToAda : Configuration :=
  (machine reportsOnly).schedule
    (fun world statement => statement.Orderly world) reportOpening
    [.call 0 (.deliver ⟨2⟩ "e1" "ada@firecrow.example" auditReport),
      .advance 0 8,
      .call 1 (.deliver ⟨2⟩ "e1" "ada@firecrow.example" auditReport),
      .advance 1 8]

theorem keys_separate_iff_deliveredToAda :
    deliveredToAda.state.deliveries.deliveries.map
        (fun row => row.status) = [.sent] ∧
      Separated deliveredToAda.state ∧ Delivered deliveredToAda.state := by
  have kept := (keys_separate_iff reportsOnly ["e1"] [] []
    fun _ => .accepts (some ("m1" : Text))).2 deliveredToAda
      ((orderly_admits reportsOnly).schedule reportOpening _)
  exact ⟨by decide, kept.1, kept.2.2.1⟩

/-- The report is delivered to a second recipient. -/
def deliveredToBob : Configuration :=
  (machine reportsOnly).schedule (fun _ _ => true) reportOpening
    [.call 0 (.deliver ⟨2⟩ "e1" "ada@firecrow.example" auditReport),
      .advance 0 8,
      .call 1 (.deliver ⟨2⟩ "e1" "bob@firecrow.example" auditReport),
      .advance 1 8]

/-- The second delivery is recorded as sent, and nothing was sent to its
recipient. -/
theorem deliveredToBob_unsent :
    ¬ ∀ settings executions users sessions reception config,
      (machine settings).Run anyStep
          (opening executions users sessions reception) config →
        Separated config.state ∧ Retried config.state ∧
          Delivered config.state ∧ Reminded config.state := by
  intro separate
  have admits : Admits (machine reportsOnly) (fun _ _ => true) anyStep :=
    ⟨fun _ => trivial, trivial, trivial, fun _ => trivial⟩
  have kept := separate reportsOnly ["e1"] [] []
    (fun _ => .accepts (some ("m1" : Text))) deliveredToBob
    (admits.schedule reportOpening _)
  have unsent : ∃ row ∈ deliveredToBob.state.deliveries.deliveries,
      row.status = .sent ∧ ∀ posting ∈ deliveredToBob.state.postings,
        posting.accepted = true →
          posting.message.recipient ≠ row.destinationRef := by
    decide
  rcases unsent with ⟨row, member, sent, none⟩
  rcases kept.2.2.1 row member sent with
    ⟨posting, inside, accepted, recipient, _⟩
  exact none posting inside accepted recipient

end FireCrow.Services.Mail
