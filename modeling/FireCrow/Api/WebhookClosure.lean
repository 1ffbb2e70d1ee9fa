import FireCrow.Api.WebhookReplay

/-!
# Deliveries that stay open

A push or a pull request on a repository that its installation authorizes ends
with a job, or is ignored with a reason, unless the gate of new jobs refuses
what the handler has let through: a branch name of other characters, or one
job too many.  The error then leaves the delivery open.
-/

namespace FireCrow.Api.Webhooks

open FireCrow.Library FireCrow.Library.Stateful

/-! ## Names -/

/-- A character of an owner or a repository. -/
def isNameChar (character : Char) : Bool :=
  Text.isAsciiAlphanumeric character || character == '.' || character == '_' ||
    character == '-'

/-- A name of an owner or a repository. -/
structure IsName (name : Text) : Prop where
  characters : ∀ character ∈ name, isNameChar character = true
  nonempty : name ≠ []
  short : name.byteLen ≤ 255
  dots : name ≠ ("." : Text) ∧ name ≠ (".." : Text)

/-- The names of a repository that GitHub allows: none ends in `.git`. -/
structure GitHubNames (owner repo : Text) : Prop where
  ending : repo.endsWith ".git" = false
  owner : IsName owner
  repo : IsName repo

variable {character : Char}

theorem isNameChar_code (name : isNameChar character = true) :
    (48 ≤ character.val.toNat ∧ character.val.toNat ≤ 57) ∨
      (65 ≤ character.val.toNat ∧ character.val.toNat ≤ 90) ∨
      (97 ≤ character.val.toNat ∧ character.val.toNat ≤ 122) ∨
      character.val.toNat = 46 ∨ character.val.toNat = 95 ∨
      character.val.toNat = 45 := by
  simp only [isNameChar, Text.isAsciiAlphanumeric, Text.isAsciiDigit,
    Text.isAsciiUppercase, Text.isAsciiLowercase, Bool.or_eq_true,
    Bool.and_eq_true, decide_eq_true_eq, beq_iff_eq] at name
  rcases name with ((((digit | upper) | lower) | rfl) | rfl) | rfl
  · exact .inl digit
  · exact .inr (.inl upper)
  · exact .inr (.inr (.inl lower))
  · exact .inr (.inr (.inr (.inl rfl)))
  · exact .inr (.inr (.inr (.inr (.inl rfl))))
  · exact .inr (.inr (.inr (.inr (.inr rfl))))

theorem isWhitespace_of_isNameChar (name : isNameChar character = true) :
    Text.isWhitespace character = false := by
  have code := isNameChar_code name
  simp only [Text.isWhitespace, Bool.or_eq_false_iff, Bool.and_eq_false_iff,
    decide_eq_false_iff_not, beq_eq_false_iff_ne]
  omega

namespace IsName

variable {name : Text}

section

variable (isName : IsName name)
include isName

theorem trim_eq : name.trim = name :=
  Text.trim_eq_self fun character member =>
    isWhitespace_of_isNameChar (isName.characters character member)

theorem slash_not_mem : '/' ∉ name :=
  fun member => absurd (isName.characters '/' member) (by decide)

/-- The webhook takes a name as a path segment. -/
theorem validateAccountSegment_eq : validateAccountSegment name = .ok name := by
  have plain : (name.all fun character =>
      Text.isAsciiAlphanumeric character || character == '.' ||
        character == '_' || character == '-' || character == '+') = true := by
    rw [List.all_eq_true]
    intro character member
    exact Bool.or_eq_true_iff.2 (.inl (isName.characters character member))
  rw [validateAccountSegment, isName.trim_eq, plain, if_neg]
  simp [isName.nonempty, isName.short]

/-- The gate of new jobs takes a name as a segment of a URL. -/
theorem validSegment_eq : validSegment name = true := by
  have plain : (name.all fun character =>
      Text.isAsciiAlphanumeric character || character == '.' ||
        character == '_' || character == '-') = true := by
    rw [List.all_eq_true]
    exact isName.characters
  rw [validSegment, plain]
  simp only [Bool.and_true, Bool.and_eq_true, Bool.not_eq_true',
    List.isEmpty_eq_false_iff, bne_iff_ne]
  exact ⟨⟨isName.nonempty, isName.dots.1⟩, isName.dots.2⟩

end

end IsName

theorem dropSuffix_git {owner repo : Text} (names : GitHubNames owner repo) :
    dropSuffix (owner ++ '/' :: repo) ".git" = owner ++ '/' :: repo := by
  rw [dropSuffix, if_neg]
  intro ends
  have suffix : (".git" : Text) <:+ owner ++ '/' :: repo :=
    List.isSuffixOf_iff_suffix.1 ends
  have long : ¬ (".git" : Text) <:+ repo := by
    intro ends
    have ending := names.ending
    rw [Text.endsWith, List.isSuffixOf_iff_suffix.2 ends] at ending
    cases ending
  have whole : '/' :: repo <:+ owner ++ '/' :: repo := List.suffix_append _ _
  rcases List.suffix_or_suffix_of_suffix suffix whole with inside | inside
  · rcases List.suffix_cons_iff.1 inside with same | within
    · exact absurd (List.cons.inj same).1 (by decide)
    · exact long within
  · have slash : '/' ∈ (".git" : Text) :=
      inside.subset List.mem_cons_self
    exact absurd slash (by decide)

/-- The gate takes the address of every repository. -/
theorem normalizeRepositoryUrl_isSome {owner repo : Text}
    (names : GitHubNames owner repo) :
    (normalizeRepositoryUrl (("https://github.com/" : Text) ++ owner ++
      ("/" : Text) ++ repo)).isSome = true := by
  have address : ("https://github.com/" : Text) ++ owner ++ ("/" : Text) ++
      repo = ("https://github.com/" : Text) ++ (owner ++ '/' :: repo) := by
    rw [List.append_assoc, List.append_assoc]
    rfl
  have word : ∀ character ∈ ("https://github.com/" : Text) ++
      (owner ++ '/' :: repo), Text.isWhitespace character = false := by
    intro character member
    rcases List.mem_append.1 member with host | path
    · exact (by decide : ∀ character ∈ ("https://github.com/" : Text),
        Text.isWhitespace character = false) character host
    · rcases List.mem_append.1 path with inOwner | rest
      · exact isWhitespace_of_isNameChar
          (names.owner.characters character inOwner)
      · rcases List.mem_cons.1 rest with rfl | inRepo
        · rfl
        · exact isWhitespace_of_isNameChar
            (names.repo.characters character inRepo)
  have last : (owner ++ '/' :: repo).rdropWhile (· == '/') =
      owner ++ '/' :: repo := by
    rw [List.rdropWhile_eq_self_iff]
    intro nonempty slash
    rw [List.getLast_append_of_right_ne_nil _ _ (List.cons_ne_nil _ _),
      List.getLast_cons names.repo.nonempty, beq_iff_eq] at slash
    exact names.repo.slash_not_mem (slash ▸ List.getLast_mem _)
  rw [normalizeRepositoryUrl, address, Text.trim_eq_self word,
    Text.stripPrefix_eq_some.2 rfl]
  dsimp only
  rw [last, dropSuffix_git names,
    List.splitOn_append_cons_self_of_not_mem names.owner.slash_not_mem,
    List.splitOn_eq_singleton names.repo.slash_not_mem]
  dsimp only
  rw [names.owner.validSegment_eq, names.repo.validSegment_eq]
  rfl

/-! ## What the gate accepts -/

/-- The gate takes the branch, and finds the job of the delivery or room for
another one. -/
def Accepted (maxActiveJobs : Int) (db : Database) (submission : Submission)
    (deliveryId : Text) : Prop :=
  isValidBranchName submission.repoBranch = true ∧
    ((db.jobOf? deliveryId).isSome = true ∨
      (Table.varchar 255 submission.repoBranch).isSome = true ∧
        (db.liveJobs submission.userId : Int) < max maxActiveJobs 1)

/-- The database takes a new job. -/
structure Answers (db : Database) (jobId userId : Text) : Prop where
  fresh : ∀ job ∈ db.jobs, job.id ≠ jobId
  user : ∃ user ∈ db.users, user.id = userId

/-- What the handler has checked of a submission. -/
structure Submittable (submission : Submission) (deliveryId : Text) :
    Prop where
  url : (normalizeRepositoryUrl submission.repoUrl).isSome = true
  branch : submission.repoBranch.trim.isEmpty = false
  commit : ∃ sha, submission.requestedSha = some sha ∧
    isValidCommitSha sha = true
  webhook : ∃ installationId,
    submission.webhook = some ⟨deliveryId, installationId⟩

theorem isValidCommitSha_trim {sha : Text}
    (valid : isValidCommitSha sha = true) :
    sha.trim = sha ∧ sha.isEmpty = false := by
  simp only [isValidCommitSha, Bool.and_eq_true, beq_iff_eq, List.all_eq_true]
    at valid
  rcases valid with ⟨length, digits⟩
  constructor
  · apply Text.trim_eq_self
    intro character member
    have digit := (digits character member).1
    apply isWhitespace_of_isNameChar
    simp only [Text.isAsciiHexdigit, Bool.or_eq_true, Bool.and_eq_true,
      decide_eq_true_eq] at digit
    simp only [isNameChar, Text.isAsciiAlphanumeric, Text.isAsciiUppercase,
      Text.isAsciiLowercase, Bool.or_eq_true, Bool.and_eq_true,
      decide_eq_true_eq]
    rcases digit with (digit | upper) | lower
    · exact .inl (.inl (.inl (.inl (.inl digit))))
    · exact .inl (.inl (.inl (.inl (.inr
        ⟨upper.1, upper.2.trans (by decide)⟩))))
    · exact .inl (.inl (.inl (.inr ⟨lower.1, lower.2.trans (by decide)⟩)))
  · cases sha with
    | nil => cases length
    | cons _ _ => rfl

theorem Submittable.requestedCommit_eq {submission : Submission}
    {deliveryId : Text} (submittable : Submittable submission deliveryId) :
    requestedCommit submission.requestedSha =
      .ok submission.requestedSha := by
  rcases submittable.commit with ⟨sha, given, valid⟩
  rcases isValidCommitSha_trim valid with ⟨trimmed, nonempty⟩
  rw [given, requestedCommit, Option.map_some, trimmed]
  dsimp only
  rw [nonempty, valid]
  rfl

theorem createAuditJobAttributed_eq {maxActiveJobs : Int} {jobId : Text}
    {submission : Submission} {deliveryId : Text}
    (submittable : Submittable submission deliveryId)
    (branch : isValidBranchName submission.repoBranch = true)
    {db : Database} {returned : Text → Database → Prop}
    {failed : AppError → Database → Prop} :
    Yields (createAuditJobAttributed maxActiveJobs jobId submission) db
        returned failed ↔
      (db.jobOf? deliveryId).elim
        (Yields (gateAndInsert maxActiveJobs jobId submission.requestedSha
          submission) db returned failed)
        fun existing => returned existing.id db := by
  rcases submittable.webhook with ⟨installationId, attributed⟩
  have url : ¬ (normalizeRepositoryUrl submission.repoUrl).isNone = true := by
    rw [Option.isNone_iff_eq_none, ← Option.not_isSome_iff_eq_none, not_not]
    exact submittable.url
  rw [createAuditJobAttributed, if_neg url, if_neg (by simp [branch]),
    submittable.requestedCommit_eq]
  show Yields (pure submission.requestedSha >>= _) db returned failed ↔ _
  rw [yields_bind, yields_pure, yields_bind, yields_get, attributed,
    Option.bind_some]
  cases db.jobOf? deliveryId with
  | none | some => exact Iff.rfl

/-- The delivery has this job. -/
def HasJob (db : Database) (deliveryId jobId : Text) : Prop :=
  ∃ job ∈ db.jobs, job.id = jobId ∧ job.webhookDeliveryId = some deliveryId

variable {job : AuditJob}

theorem jobOf?_eq_some {db : Database} {deliveryId : Text}
    (found : db.jobOf? deliveryId = some job) : HasJob db deliveryId job.id :=
  ⟨job, List.mem_of_find?_eq_some found, rfl,
    by simpa using List.find?_some found⟩

theorem insertJob_yields_new {db : Database}
    (answers : Answers db job.id job.userId)
    (absent : job.webhookDeliveryId.bind db.jobOf? = none)
    (storable : (Table.varchar 255 job.repoBranch).isSome = true) :
    Yields (insertJob job) db
      (fun inserted last => inserted = 1 ∧ last.deliveries = db.deliveries ∧
        ∃ stored ∈ last.jobs, stored.id = job.id ∧
          stored.webhookDeliveryId = job.webhookDeliveryId)
      (fun _ _ => False) := by
  rcases Option.isSome_iff_exists.1 storable with ⟨branch, fits⟩
  have fresh : ¬ (db.jobs.any fun other => other.id == job.id) = true := by
    simpa using answers.fresh
  have user : (db.users.any fun user => user.id == job.userId) = true := by
    simpa using answers.user
  rw [insertJob, yields_bind, yields_get, fits]
  dsimp only
  rw [if_neg (by simp [absent]), if_neg fresh, if_pos user]
  exact ⟨rfl, rfl, _, List.mem_append_right _ List.mem_cons_self, rfl, rfl⟩

theorem insertJob_yields_unstorable {db : Database}
    (unstorable : (Table.varchar 255 job.repoBranch).isSome = false) :
    Yields (insertJob job) db (fun _ _ => False) (Refused db) := by
  rw [Option.isSome_eq_false_iff, Option.isNone_iff_eq_none] at unstorable
  rw [insertJob, yields_bind, yields_get, unstorable]
  exact rfl

section Gate

variable {maxActiveJobs : Int} {jobId deliveryId : Text}
  {submission : Submission} {db : Database}

theorem createAuditJobAttributed_accepted
    (submittable : Submittable submission deliveryId)
    (answers : Answers db jobId submission.userId)
    (accepted : Accepted maxActiveJobs db submission deliveryId) :
    Yields (createAuditJobAttributed maxActiveJobs jobId submission) db
      (fun id last => last.deliveries = db.deliveries ∧
        HasJob last deliveryId id) (fun _ _ => False) := by
  rw [createAuditJobAttributed_eq submittable accepted.1]
  cases found : db.jobOf? deliveryId with
  | some existing => exact ⟨rfl, jobOf?_eq_some found⟩
  | none =>
      rcases accepted.2 with present | ⟨storable, room⟩
      · rw [found] at present
        cases present
      rcases submittable.webhook with ⟨installationId, attributed⟩
      rw [Option.elim_none, gateAndInsert, yields_bind, yields_get]
      dsimp only
      rw [if_neg (not_le.2 room), yields_bind]
      apply Yields.mono (insertJob_yields_new answers ?_ storable)
      · rintro inserted last ⟨rfl, same, stored, member, id, delivery⟩
        rw [attributed] at delivery
        exact ⟨same, stored, member, id, delivery⟩
      · exact fun _ _ impossible => impossible
      · rw [attributed]
        exact found

theorem createAuditJobAttributed_refused
    (submittable : Submittable submission deliveryId)
    (refused : ¬ Accepted maxActiveJobs db submission deliveryId) :
    Yields (createAuditJobAttributed maxActiveJobs jobId submission) db
      (fun _ _ => False) (Refused db) := by
  by_cases branch : isValidBranchName submission.repoBranch = true
  · rw [createAuditJobAttributed_eq submittable branch]
    cases found : db.jobOf? deliveryId with
    | some existing =>
        exact absurd ⟨branch, .inl (by rw [found]; rfl)⟩ refused
    | none =>
        rw [Option.elim_none, gateAndInsert, yields_bind, yields_get]
        dsimp only
        split
        · exact rfl
        · rename_i room
          rw [yields_bind]
          apply Yields.mono (insertJob_yields_unstorable ?_)
          · exact fun _ _ impossible => impossible.elim
          · exact fun _ _ same => same
          · rw [← Bool.not_eq_true]
            exact fun storable =>
              refused ⟨branch, .inr ⟨storable, not_le.1 room⟩⟩
  · have url : ¬ (normalizeRepositoryUrl submission.repoUrl).isNone = true := by
      rw [Option.isNone_iff_eq_none, ← Option.not_isSome_iff_eq_none, not_not]
      exact submittable.url
    have unfit : isValidBranchName submission.repoBranch = false := by
      simpa using branch
    rw [createAuditJobAttributed, if_neg url, submittable.branch, unfit]
    exact rfl

end Gate

/-! ## What a handler closes -/

section Endpoint

variable [FloatFormat]

/-- The installation authorizes the repository of a push, GitHub answers, and
so does the database. -/
structure Ready (settings : WebhookSettings) (provider : Provider)
    (db : Database) (jobId : Text) (push : Push)
    (installation : GithubInstallation) : Prop where
  configured : appIdentity settings = .ok true
  names : GitHubNames push.owner push.repo
  known : db.installation? push.installationId = some installation
  usable : installation.suspended = false
  exchanged : provider.exchangeInstallationToken push.installationId = .ok ()
  reachable : ∃ code, provider.repository push.installationId push.owner
    push.repo = .status code ∧ 200 ≤ code ∧ code < 300
  answers : Answers db jobId installation.installedByUserId

theorem readPush_ok {payload : Json} {push : Push}
    (read : readPush payload = .ok push) :
    0 < push.installationId ∧ isValidCommitSha push.commit = true ∧
      push.branch = pushBranch payload := by
  rw [readPush] at read
  split at read
  · cases read
  rename_i installationId found
  dsimp only at read
  split at read
  · cases read
  split at read
  · cases read
  rename_i valid
  split at read
  · cases read
  cases read
  rw [Bool.not_eq_false] at valid
  refine ⟨?_, valid, rfl⟩
  exact of_decide_eq_true (Option.filter_eq_some_iff.1 found).2

theorem pushBranch_trim (payload : Json) :
    (pushBranch payload).trim.isEmpty = false := by
  rw [pushBranch]
  cases found : ((((payload.get? "ref").bind Json.asStr).bind fun ref =>
    ref.stripPrefix "refs/heads/").filter fun branch =>
      !branch.trim.isEmpty) with
  | none => decide
  | some branch =>
      have shown := (Option.filter_eq_some_iff.1 found).2
      simpa using shown

section Rules

variable {Next : Type} {db : Database} {returned : Next → Database → Prop}
  {failed : AppError → Database → Prop}

omit [FloatFormat] in
theorem yields_fromResult_ok {Value : Type} {value : Value}
    {result : Except AppError Value} (success : result = .ok value)
    (next : Value → Task Next) :
    Yields (fromResult result >>= next) db returned failed ↔
      Yields (next value) db returned failed := by
  rw [success]
  exact yields_bind (pure value) next

omit [FloatFormat] in
theorem yields_getInstallation {installationId : Int64}
    (positive : 0 < installationId)
    (next : Option GithubInstallation → Task Next) :
    Yields (getInstallation installationId >>= next) db returned failed ↔
      Yields (next (db.installation? installationId)) db returned failed := by
  have legal : ¬ installationId ≤ 0 := Int64.not_le.2 positive
  rw [yields_bind, getInstallation, yields_bind, yields_get, if_neg legal]
  exact Iff.rfl

end Rules

namespace Ready

variable {settings : WebhookSettings} {provider : Provider} {db : Database}
  {jobId : Text} {push : Push} {installation : GithubInstallation}

omit [FloatFormat] in
theorem authorizePush_yields
    (ready : Ready settings provider db jobId push installation)
    (positive : 0 < push.installationId)
    {returned : Option AuthorizedRepo → Database → Prop}
    {failed : AppError → Database → Prop} :
    Yields (authorizePush provider installation.installedByUserId push) db
        returned failed ↔
      returned (some ⟨push.installationId, push.owner, push.repo⟩) db := by
  rcases ready.reachable with ⟨code, replied, low, high⟩
  have verified : verifyInstallationRepo provider push.installationId
      push.owner push.repo = .ok () := by
    rw [verifyInstallationRepo, replied]
    exact if_pos ⟨low, high⟩
  rw [authorizePush, yields_tryCatch, yields_map, authorizeInstallationRepo,
    yields_fromResult_ok ready.names.owner.validateAccountSegment_eq,
    yields_fromResult_ok ready.names.repo.validateAccountSegment_eq,
    yields_getInstallation positive, ready.known]
  dsimp only
  rw [ready.usable, if_neg Bool.false_ne_true, if_neg (not_not.2 rfl),
    yields_fromResult_ok ready.exchanged, yields_fromResult_ok verified]
  exact Iff.rfl

theorem handlePushEvent_yields_iff
    (ready : Ready settings provider db jobId push installation)
    {deliveryId : Text} {payload : Json} (read : readPush payload = .ok push)
    {returned : Acknowledgement × Outcome → Database → Prop}
    {failed : AppError → Database → Prop} :
    Yields (handlePushEvent settings provider jobId deliveryId payload) db
        returned failed ↔
      Yields (createAuditJobAttributed (max settings.maxActiveJobsPerUser 1)
          jobId (pushSubmission installation.installedByUserId deliveryId push
            ⟨push.installationId, push.owner, push.repo⟩)) db
        (fun id last => returned (.queued id, .processed) last) failed := by
  have positive := (readPush_ok read).1
  rw [handlePushEvent, read]
  dsimp only
  rw [yields_fromResult_ok ready.configured, if_neg Bool.true_eq_false.mp,
    yields_getInstallation positive, ready.known,
    Option.filter_some_pos (by rw [ready.usable]; rfl)]
  dsimp only
  rw [yields_bind, ready.authorizePush_yields positive]
  dsimp only
  rw [yields_bind]
  exact Iff.rfl

/-- The handler has checked all but the branch. -/
theorem submittable
    (ready : Ready settings provider db jobId push installation)
    {payload : Json} (read : readPush payload = .ok push) (deliveryId : Text) :
    Submittable (pushSubmission installation.installedByUserId deliveryId push
      ⟨push.installationId, push.owner, push.repo⟩) deliveryId where
  url := normalizeRepositoryUrl_isSome ready.names
  branch := by
    rw [pushSubmission, (readPush_ok read).2.2]
    exact pushBranch_trim payload
  commit := ⟨push.commit, rfl, (readPush_ok read).2.1⟩
  webhook := ⟨push.installationId, rfl⟩

end Ready

/-! ## Deliveries -/

/-- The push that a delivery is handled as, or the reason to ignore it. -/
def pushOf (request : VerifiedRequest) : Except Text Push :=
  if request.event = ("push" : Text) then readPush request.payload
  else if bringsSnapshot (payloadAction request.payload) then
    readPush (pullRequestPush request.payload)
  else .error "pull request action carries no new snapshot"

/-- What a delivery is handled as: ignored, or a push. -/
theorem handleEvent_cases (settings : WebhookSettings) (provider : Provider)
    (jobId : Text) (request : VerifiedRequest)
    (event : request.event = ("push" : Text) ∨
      request.event = ("pull_request" : Text)) :
    (∃ reason, pushOf request = .error reason ∧
      handleEvent settings provider jobId request =
        pure (.ignored reason, .ignored)) ∨
    ∃ push payload, pushOf request = .ok push ∧ readPush payload = .ok push ∧
      handleEvent settings provider jobId request =
        handlePushEvent settings provider jobId request.deliveryId payload := by
  have dispatched : handleEvent settings provider jobId request =
      if request.event = ("push" : Text) then
        handlePushEvent settings provider jobId request.deliveryId
          request.payload
      else handlePullRequestEvent settings provider jobId request.deliveryId
        request.payload := by
    rw [handleEvent]
    rcases event with event | event <;> rw [event] <;> rfl
  have ignored : ∀ {payload reason}, readPush payload = .error reason →
      handlePushEvent settings provider jobId request.deliveryId payload =
        pure (.ignored reason, .ignored) := by
    intro payload reason read
    rw [handlePushEvent, read]
  rw [dispatched, pushOf]
  split
  · cases read : readPush request.payload with
    | error reason => exact .inl ⟨reason, rfl, ignored read⟩
    | ok push => exact .inr ⟨push, request.payload, rfl, read, rfl⟩
  · rw [handlePullRequestEvent]
    split
    · cases read : readPush (pullRequestPush request.payload) with
      | error reason => exact .inl ⟨reason, rfl, ignored read⟩
      | ok push => exact .inr ⟨push, _, rfl, read, rfl⟩
    · exact .inl ⟨_, rfl, rfl⟩

/-- The row of a delivery has this outcome. -/
def HasOutcome (db : Database) (deliveryId : Text) (outcome : Outcome) : Prop :=
  ∃ row ∈ db.deliveries, row.deliveryId = deliveryId ∧ row.outcome = outcome

/-- The delivery is processed with a job, or ignored with a reason. -/
def Closed (deliveryId : Text) (response : Acknowledgement)
    (last : Database) : Prop :=
  (∃ jobId, response = .queued jobId ∧
    HasOutcome last deliveryId .processed ∧ HasJob last deliveryId jobId) ∨
  ∃ reason, response = .ignored reason ∧ HasOutcome last deliveryId .ignored

/-- The row of the delivery is open, and there is no new job. -/
structure LeftOpen (db : Database) (deliveryId : Text) (last : Database) :
    Prop where
  row : ∃ row ∈ last.deliveries, row.deliveryId = deliveryId ∧
    row.outcome.isClosed = false
  jobs : last.jobs = db.jobs

/-- What is handled as a push is accepted by the gate. -/
def AcceptedPush (settings : WebhookSettings) (db : Database)
    (request : VerifiedRequest) : Prop :=
  ∀ push, pushOf request = .ok push →
    ∀ installation ∈ db.installation? push.installationId,
      Accepted (max settings.maxActiveJobsPerUser 1) db
        (pushSubmission installation.installedByUserId request.deliveryId push
          ⟨push.installationId, push.owner, push.repo⟩) request.deliveryId

/-- The record of deliveries lets a request through, and leaves the rest. -/
theorem recordWebhookDelivery_admitted {request : VerifiedRequest}
    (installationId : Option Int64) {db : Database}
    (admitted : Admitted db request)
    (short : request.deliveryId.byteLen ≤ 128 ∧ request.event.byteLen ≤ 64) :
    Yields (recordWebhookDelivery request.deliveryId request.event
        request.bodySha256 installationId) db
      (fun replay middle => replay = .process ∧ Recorded db request middle ∧
        middle.users = db.users)
      (fun _ _ => False) := by
  have recorded := recordWebhookDelivery_yields request installationId db
  rw [recordWebhookDelivery, if_neg (by simp [short.1, short.2])] at recorded ⊢
  rw [yields_bind, yields_get] at recorded ⊢
  cases found : db.delivery? request.deliveryId with
  | none =>
      rw [found] at recorded
      rcases recorded with ⟨impossible, _⟩ | ⟨_, _, recorded⟩
      · cases impossible
      · exact ⟨rfl, recorded, rfl⟩
  | some stored =>
      rcases admitted stored found with ⟨same, pending⟩
      rw [found] at recorded
      dsimp only at recorded ⊢
      rw [if_neg (not_not.2 same), pending, if_neg Bool.false_ne_true]
        at recorded ⊢
      rcases recorded with ⟨impossible, _⟩ | ⟨_, _, recorded⟩
      · cases impossible
      · exact ⟨rfl, recorded, rfl⟩

theorem verifyRequest_short {settings : WebhookSettings}
    {request : WebhookRequest} {verified : VerifiedRequest}
    (read : verifyRequest settings request = .ok verified) :
    verified.deliveryId.byteLen ≤ 128 ∧ verified.event.byteLen ≤ 64 := by
  have bounded : ∀ {limit : Nat} {value : Option Text} {text : Text},
      boundedHeader limit value = some text → text.byteLen ≤ limit := by
    intro limit value text header
    have shown := (Option.filter_eq_some_iff.1 header).2
    simp only [Bool.and_eq_true, decide_eq_true_eq] at shown
    exact shown.2
  rw [verifyRequest] at read
  repeat' split at read
  all_goals cases read
  rename_i deliveryId _ event _
  exact ⟨bounded ‹_›, bounded ‹_›⟩

theorem markWebhookOutcome_yields {db middle last : Database}
    {request : VerifiedRequest} (recorded : Recorded db request middle)
    (same : last.deliveries = middle.deliveries) {outcome : Outcome}
    (closing : outcome ≠ .pending) :
    Yields (markWebhookOutcome request.deliveryId outcome) last
      (fun _ marked => HasOutcome marked request.deliveryId outcome ∧
        marked.jobs = last.jobs) (fun _ _ => False) := by
  rw [markWebhookOutcome, if_neg closing, yields_modify]
  rcases recorded.row with ⟨row, member, id, _, pending⟩
  rw [← same] at member
  refine ⟨⟨{ row with outcome := outcome },
    List.mem_map.2 ⟨row, member, if_pos ?_⟩, id, rfl⟩, rfl⟩
  simp [id, pending]

section Handling

variable {settings : WebhookSettings} {provider : Provider} {jobId : Text}
  {request : VerifiedRequest} {db middle : Database}

/-- The rest of the database is as before the record. -/
theorem Ready.recorded {push : Push} {installation : GithubInstallation}
    (ready : Ready settings provider db jobId push installation)
    (recorded : Recorded db request middle) (users : middle.users = db.users) :
    Ready settings provider middle jobId push installation where
  configured := ready.configured
  names := ready.names
  known := by
    rw [Database.installation?, recorded.unaffected.2]
    exact ready.known
  usable := ready.usable
  exchanged := ready.exchanged
  reachable := ready.reachable
  answers :=
    { fresh := by
        rw [recorded.unaffected.1]
        exact ready.answers.fresh
      user := by
        rw [users]
        exact ready.answers.user }

theorem accepted_recorded (recorded : Recorded db request middle)
    {maxActiveJobs : Int} {submission : Submission} {deliveryId : Text} :
    Accepted maxActiveJobs middle submission deliveryId ↔
      Accepted maxActiveJobs db submission deliveryId := by
  rw [Accepted, Accepted, Database.jobOf?, Database.jobOf?, Database.liveJobs,
    Database.liveJobs, recorded.unaffected.1]

theorem handleVerified_accepted
    (event : request.event = ("push" : Text) ∨
      request.event = ("pull_request" : Text))
    (admitted : Admitted db request)
    (short : request.deliveryId.byteLen ≤ 128 ∧ request.event.byteLen ≤ 64)
    (ready : ∀ push, pushOf request = .ok push →
      ∃ installation, Ready settings provider db jobId push installation)
    (accepted : AcceptedPush settings db request) :
    Yields (handleVerified settings provider jobId request) db
      (Closed request.deliveryId) (fun _ _ => False) := by
  rw [handleVerified, yields_bind]
  apply (recordWebhookDelivery_admitted _ admitted short).mono
  swap
  · exact fun _ _ impossible => impossible
  rintro _ middle ⟨rfl, recorded, users⟩
  dsimp only
  rw [yields_bind]
  rcases handleEvent_cases settings provider jobId request event with
    ⟨reason, _, handled⟩ | ⟨push, payload, handledAs, read, handled⟩
  · rw [handled, yields_pure]
    dsimp only
    rw [yields_bind]
    apply (markWebhookOutcome_yields recorded rfl (by decide)).mono
    · rintro _ marked ⟨outcome, _⟩
      exact .inr ⟨reason, rfl, outcome⟩
    · exact fun _ _ impossible => impossible
  · rcases ready push handledAs with ⟨installation, ready⟩
    have fits := (accepted_recorded recorded).2
      (accepted push handledAs installation ready.known)
    have prepared := ready.recorded recorded users
    rw [handled, prepared.handlePushEvent_yields_iff read]
    apply (createAuditJobAttributed_accepted
      (ready.submittable read request.deliveryId) prepared.answers fits).mono
    · rintro id last ⟨same, job⟩
      dsimp only
      rw [yields_bind]
      apply (markWebhookOutcome_yields recorded same (by decide)).mono
      · rintro _ marked ⟨outcome, jobs⟩
        refine .inl ⟨id, rfl, outcome, ?_⟩
        rw [HasJob, jobs]
        exact job
      · exact fun _ _ impossible => impossible
    · exact fun _ _ impossible => impossible

theorem handleVerified_refused
    (event : request.event = ("push" : Text) ∨
      request.event = ("pull_request" : Text))
    (admitted : Admitted db request)
    (short : request.deliveryId.byteLen ≤ 128 ∧ request.event.byteLen ≤ 64)
    (ready : ∀ push, pushOf request = .ok push →
      ∃ installation, Ready settings provider db jobId push installation)
    (refused : ¬ AcceptedPush settings db request) :
    Yields (handleVerified settings provider jobId request) db
      (fun _ _ => False) (fun _ last => LeftOpen db request.deliveryId last) := by
  rw [handleVerified, yields_bind]
  apply (recordWebhookDelivery_admitted _ admitted short).mono
  swap
  · exact fun _ _ impossible => impossible.elim
  rintro _ middle ⟨rfl, recorded, users⟩
  dsimp only
  rw [yields_bind]
  rcases handleEvent_cases settings provider jobId request event with
    ⟨reason, ignored, _⟩ | ⟨push, payload, handledAs, read, handled⟩
  · refine absurd ?_ refused
    intro push read
    rw [ignored] at read
    cases read
  · rcases ready push handledAs with ⟨installation, ready⟩
    have prepared := ready.recorded recorded users
    rw [handled, prepared.handlePushEvent_yields_iff read]
    apply (createAuditJobAttributed_refused
      (ready.submittable read request.deliveryId) ?_).mono
    · exact fun _ _ impossible => impossible.elim
    · rintro error last rfl
      rcases recorded.row with ⟨row, member, id, _, pending⟩
      exact ⟨⟨row, member, id, pending⟩, recorded.unaffected.1⟩
    · intro accepted
      apply refused
      intro other handledAs' found known
      rw [handledAs] at handledAs'
      cases handledAs'
      rw [Option.mem_def, ready.known] at known
      cases known
      exact (accepted_recorded recorded).1 accepted

end Handling

theorem githubWebhook_refused {settings : WebhookSettings}
    {provider : Provider} {jobId : Text} {request : WebhookRequest}
    {verified : VerifiedRequest} {db : Database}
    (read : verifyRequest settings request = .ok verified)
    (event : verified.event = ("push" : Text) ∨
      verified.event = ("pull_request" : Text))
    (admitted : Admitted db verified)
    (ready : ∀ push, pushOf verified = .ok push →
      ∃ installation, Ready settings provider db jobId push installation)
    (refused : ¬ AcceptedPush settings db verified) :
    Yields (githubWebhook settings provider jobId request) db
        (fun _ _ => False)
        (fun _ last => LeftOpen db verified.deliveryId last) ∧
      ¬ Yields (githubWebhook settings provider jobId request) db
        (Closed verified.deliveryId) (fun _ _ => False) := by
  have left : Yields (githubWebhook settings provider jobId request) db
      (fun _ _ => False)
      (fun _ last => LeftOpen db verified.deliveryId last) := by
    rw [githubWebhook, yields_fromResult_ok read]
    exact handleVerified_refused event admitted (verifyRequest_short read) ready
      refused
  refine ⟨left, fun closed => ?_⟩
  apply not_yields_false
  exact (left.and closed).mono (fun _ _ both => both.1)
    (fun _ _ both => both.2)

/-- A verified push or pull request that the record of deliveries lets
through, on a repository that its installation authorizes, ends processed with
a job or ignored with a reason exactly when the gate accepts its branch and
the number of active jobs.  Otherwise the request fails, and the delivery
stays open without a new job. -/
theorem delivery_closed_iff {settings : WebhookSettings} {provider : Provider}
    {jobId : Text} {request : WebhookRequest} {verified : VerifiedRequest}
    {db : Database} (read : verifyRequest settings request = .ok verified)
    (event : verified.event = ("push" : Text) ∨
      verified.event = ("pull_request" : Text))
    (admitted : Admitted db verified)
    (ready : ∀ push, pushOf verified = .ok push →
      ∃ installation, Ready settings provider db jobId push installation) :
    (Yields (githubWebhook settings provider jobId request) db
        (Closed verified.deliveryId) (fun _ _ => False) ↔
      AcceptedPush settings db verified) ∧
    (¬ AcceptedPush settings db verified →
      Yields (githubWebhook settings provider jobId request) db
        (fun _ _ => False)
        (fun _ last => LeftOpen db verified.deliveryId last)) := by
  refine ⟨⟨fun closed => ?_, fun accepted => ?_⟩, fun refused =>
    (githubWebhook_refused read event admitted ready refused).1⟩
  · by_contra refused
    exact (githubWebhook_refused read event admitted ready refused).2 closed
  · rw [githubWebhook, yields_fromResult_ok read]
    exact handleVerified_accepted event admitted (verifyRequest_short read)
      ready accepted

end Endpoint

/-! ## A branch name of other characters -/

section Example

attribute [local instance] FloatFormat.integersOnly

def appSettings : WebhookSettings where
  githubAppWebhookSecret := "s3cret"
  githubAppId := 1
  githubAppPrivateKey := "key"
  isRsaKey _ := true
  maxActiveJobsPerUser := 5

/-- GitHub shows every repository. -/
def openProvider : Provider where
  exchangeInstallationToken _ := .ok ()
  repository _ _ _ := .status 200

/-- One installation and its user, without jobs. -/
def acmeTables : Database where
  deliveries := []
  installations := [⟨5, 1, "acme", "User", "user-1", false⟩]
  jobs := []
  users := [⟨"user-1", some "1"⟩]

def headSha : Text := "0123456789abcdef0123456789abcdef01234567"

/-- The body of a push to a branch of acme/app. -/
def pushBody (branch : Text) : Bytes :=
  Text.toBytes (("\x7b\"after\":\"" : Text) ++ headSha ++
    ("\",\"installation\":\x7b\"id\":5\x7d,\"ref\":\"refs/heads/" : Text) ++
    branch ++
    ("\",\"repository\":\x7b\"full_name\":\"acme/app\"\x7d\x7d" : Text))

def pushRequest (branch : Text) : WebhookRequest where
  signature := some (signatureOf "s3cret" (pushBody branch))
  deliveryId := some "delivery-1"
  event := some "push"
  body := pushBody branch

def pushPayload (branch : Text) : Json :=
  ((utf8Text (pushBody branch)).bind Json.parse).getD .null

def pushVerified (branch : Text) : VerifiedRequest where
  deliveryId := "delivery-1"
  event := "push"
  bodySha256 := webhookBodySha256 (pushBody branch)
  payload := pushPayload branch

def acmePush (branch : Text) : Push := ⟨5, headSha, "acme", "app", branch⟩

/-- The push is verified, and read as one to its branch. -/
structure ReadAs (branch : Text) : Prop where
  short : (pushBody branch).length ≤ githubWebhookMaxBytes
  parsed : ((utf8Text (pushBody branch)).bind Json.parse).isSome = true
  read : pushOf (pushVerified branch) = .ok (acmePush branch)

theorem ReadAs.verified {branch : Text} (readAs : ReadAs branch) :
    verifyRequest appSettings (pushRequest branch) =
      .ok (pushVerified branch) := by
  rcases Option.isSome_iff_exists.1 readAs.parsed with ⟨payload, parsed⟩
  have same : pushPayload branch = payload := by
    unfold pushPayload
    rw [parsed]
    rfl
  unfold pushVerified
  rw [same]
  have id : boundedHeader 128 (some "delivery-1") = some "delivery-1" := by
    decide
  have name : boundedHeader 64 (some "push") = some "push" := by decide
  exact verifyRequest_signed (by decide) rfl readAs.short parsed id name

theorem pushVerified_event (branch : Text) :
    (pushVerified branch).event = ("push" : Text) ∨
      (pushVerified branch).event = ("pull_request" : Text) := .inl rfl

theorem acmeTables_admitted (branch : Text) :
    Admitted acmeTables (pushVerified branch) := by
  intro stored found
  cases found

theorem acmeApp_names : GitHubNames "acme" "app" :=
  ⟨by decide, ⟨by decide, by decide, by decide, by decide⟩,
    ⟨by decide, by decide, by decide, by decide⟩⟩

theorem acmeTables_installation : acmeTables.installation? 5 =
    some ⟨5, 1, "acme", "User", "user-1", false⟩ := by decide

theorem acmeTables_ready {branch : Text} (readAs : ReadAs branch) :
    ∀ push, pushOf (pushVerified branch) = .ok push →
      ∃ installation,
        Ready appSettings openProvider acmeTables "job-1" push installation := by
  intro push read
  rw [readAs.read] at read
  cases read
  exact ⟨_,
    { configured := by decide
      names := acmeApp_names
      known := acmeTables_installation
      usable := rfl
      exchanged := rfl
      reachable := ⟨200, rfl, by decide, by decide⟩
      answers := ⟨by decide, ⟨⟨"user-1", some "1"⟩, by decide, rfl⟩⟩ }⟩

theorem mainBranch_readAs : ReadAs "main" :=
  ⟨by decide +kernel, by decide +kernel, by decide +kernel⟩

/-- A push to main is closed. -/
theorem delivery_closed_iff_mainBranch :
    Yields (githubWebhook appSettings openProvider "job-1" (pushRequest "main"))
      acmeTables (Closed (pushVerified "main").deliveryId)
      (fun _ _ => False) := by
  have accepted : AcceptedPush appSettings acmeTables (pushVerified "main") := by
    intro push read
    rw [mainBranch_readAs.read] at read
    cases read
    intro installation known
    rw [Option.mem_def] at known
    cases acmeTables_installation.symm.trans known
    exact ⟨by decide, .inr ⟨by decide, by decide⟩⟩
  rw [(delivery_closed_iff mainBranch_readAs.verified
    (pushVerified_event "main") (acmeTables_admitted "main")
    (acmeTables_ready mainBranch_readAs)).1]
  exact accepted

theorem fixBranch_readAs : ReadAs "fix#12" :=
  ⟨by decide +kernel, by decide +kernel, by decide +kernel⟩

/-- A push to a branch with a number sign, under the same conditions, stays
open. -/
theorem fixBranch_left_open :
    verifyRequest appSettings (pushRequest "fix#12") =
        .ok (pushVerified "fix#12") ∧
      Admitted acmeTables (pushVerified "fix#12") ∧
      (∀ push, pushOf (pushVerified "fix#12") = .ok push →
        ∃ installation, Ready appSettings openProvider acmeTables "job-1" push
          installation) ∧
      Yields (githubWebhook appSettings openProvider "job-1"
          (pushRequest "fix#12")) acmeTables (fun _ _ => False)
        (fun _ last => LeftOpen acmeTables (pushVerified "fix#12").deliveryId
          last) ∧
      ¬ Yields (githubWebhook appSettings openProvider "job-1"
          (pushRequest "fix#12")) acmeTables
        (Closed (pushVerified "fix#12").deliveryId)
        (fun _ _ => False) := by
  have ready := acmeTables_ready fixBranch_readAs
  have admitted := acmeTables_admitted "fix#12"
  have refused : ¬ AcceptedPush appSettings acmeTables
      (pushVerified "fix#12") := by
    intro accepted
    have gate := accepted _ fixBranch_readAs.read _ acmeTables_installation
    exact absurd gate.1 (by decide)
  exact ⟨fixBranch_readAs.verified, admitted, ready,
    githubWebhook_refused fixBranch_readAs.verified
      (pushVerified_event "fix#12") admitted ready refused⟩

end Example

end FireCrow.Api.Webhooks
