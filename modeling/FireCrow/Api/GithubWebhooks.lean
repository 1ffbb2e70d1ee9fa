import FireCrow.Library.Json
import FireCrow.Library.Sha256
import FireCrow.Library.Stateful
import FireCrow.Library.Table
import FireCrow.Library.Utf8

/-!
# The GitHub webhook

The endpoint that takes the deliveries of GitHub: the signature over the raw
bytes, the record of the delivery id, and the handlers of the events, which
create audit jobs through the submission gate and keep the installations.

The database answers every statement; what GitHub answers is drawn anew for
each request.  The transaction of the gate is one step here.
-/

namespace FireCrow.Api.Webhooks

open FireCrow.Library

inductive DatabaseError where
  | foreignKeyViolation
  | uniqueViolation
  | checkViolation
  | dataException
deriving DecidableEq, Repr

inductive AppError where
  | notImplemented (message : Text)
  | unauthorized (message : Text)
  | payloadTooLarge
  | badRequest (message : Text)
  | conflict (message : Text)
  | notFound (message : Text)
  | forbidden (message : Text)
  | rateLimited
  | unavailable (message : Text)
  | timeout (message : Text)
  | httpClient (message : Text)
  | internal (message : Text)
  | database (error : DatabaseError)
deriving DecidableEq, Repr

/-! ## Tables -/

/-- The column `outcome` of a delivery. -/
inductive Outcome where
  | pending
  | processed
  | ignored
  | failedTransient
deriving DecidableEq, Repr

/-- A delivery that is not to be processed again. -/
def Outcome.isClosed : Outcome → Bool
  | .processed => true
  | .ignored => true
  | .pending => false
  | .failedTransient => false

structure WebhookDelivery where
  deliveryId : Text
  event : Text
  bodySha256 : Text
  installationId : Option Int64
  outcome : Outcome
deriving DecidableEq

structure GithubInstallation where
  installationId : Int64
  accountId : Int64
  accountLogin : Text
  accountType : Text
  installedByUserId : Text
  suspended : Bool
deriving DecidableEq

inductive JobStatus where
  | queued
  | running
  | completed
  | failed
  | cancelled
deriving DecidableEq, Repr

/-- The columns of `audit_jobs` that the gate reads and writes. -/
structure AuditJob where
  id : Text
  userId : Text
  tenantId : Option Text
  repoUrl : Text
  repoBranch : Text
  requestedCommitSha : Option Text
  webhookDeliveryId : Option Text
  githubInstallationId : Option Int64
  status : JobStatus
deriving DecidableEq

/-- The columns of `users` that link an account to GitHub. -/
structure UserIdentity where
  id : Text
  githubId : Option Text
deriving DecidableEq

structure Database where
  deliveries : List WebhookDelivery
  installations : List GithubInstallation
  jobs : List AuditJob
  users : List UserIdentity
deriving DecidableEq

namespace Database

def delivery? (db : Database) (deliveryId : Text) : Option WebhookDelivery :=
  db.deliveries.find? fun delivery => delivery.deliveryId == deliveryId

def installation? (db : Database) (installationId : Int64) :
    Option GithubInstallation :=
  db.installations.find? fun installation =>
    installation.installationId == installationId

/-- The job that a delivery has created. -/
def jobOf? (db : Database) (deliveryId : Text) : Option AuditJob :=
  db.jobs.find? fun job => job.webhookDeliveryId == some deliveryId

/-- The queued and running jobs of a user. -/
def liveJobs (db : Database) (userId : Text) : Nat :=
  db.jobs.countP fun job =>
    job.userId == userId && (job.status == .queued || job.status == .running)

end Database

abbrev Task := EStateM AppError Database

/-- The outcome of a check. -/
def fromResult {Value : Type} : Except AppError Value → Task Value
  | .ok value => pure value
  | .error error => throw error

/-! ## Signatures -/

/-- The bytes of a text, or of a body, as numbers. -/
def octets (bytes : Bytes) : List Nat := bytes.map UInt8.toNat

def githubWebhookMaxBytes : Nat := 1024 * 1024

/-- `verify_webhook_signature`. -/
def verifyWebhookSignature (secret : Text) (body : Bytes) (headerValue : Text) :
    Bool :=
  if secret.isEmpty || githubWebhookMaxBytes < body.length then false
  else
    match headerValue.stripPrefix "sha256=" with
    | none => false
    | some hexDigest =>
        if hexDigest.trim.isEmpty then false
        else
          Sha256.hexEncode (Sha256.hmac (octets secret.toBytes) (octets body)) ==
            hexDigest.trim

/-- `webhook_body_sha256`. -/
def webhookBodySha256 (body : Bytes) : Text :=
  Sha256.hexEncode (Sha256.digest (octets body))

/-! ## The record of deliveries -/

/-- What a redelivery means. -/
inductive DeliveryReplay where
  | process
  | duplicate
deriving DecidableEq, Repr

/-- `record_webhook_delivery`. -/
def recordWebhookDelivery (deliveryId event bodySha256 : Text)
    (installationId : Option Int64) : Task DeliveryReplay :=
  if 128 < deliveryId.byteLen || 64 < event.byteLen then
    throw (.badRequest "GitHub webhook identity is invalid")
  else do
    let db ← get
    match db.delivery? deliveryId with
    | none =>
        let recorded : WebhookDelivery :=
          { deliveryId := deliveryId
            event := event
            bodySha256 := bodySha256
            installationId := installationId
            outcome := .pending }
        set { db with deliveries := db.deliveries ++ [recorded] }
        return .process
    | some stored =>
        if stored.bodySha256 ≠ bodySha256 then
          throw (.conflict
            "GitHub webhook delivery was replayed with a different body")
        else if stored.outcome.isClosed then return .duplicate
        else return .process

/-- `mark_webhook_outcome`. -/
def markWebhookOutcome (deliveryId : Text) (outcome : Outcome) : Task Unit :=
  if outcome = .pending then throw (.badRequest "unknown webhook outcome")
  else modify fun db =>
    { db with
      deliveries := Table.set
        (fun delivery =>
          delivery.deliveryId == deliveryId && !delivery.outcome.isClosed)
        (fun delivery => { delivery with outcome := outcome }) db.deliveries }

/-! ## Installations -/

/-- `register_installation`. -/
def registerInstallation (installationId accountId : Int64)
    (accountLogin accountType installedByUserId : Text) : Task Unit :=
  if installationId ≤ 0 || accountId ≤ 0 then
    throw (.badRequest
      "GitHub installation identity has an invalid identifier")
  else if accountLogin.trim.isEmpty || 255 < accountLogin.trim.byteLen then
    throw (.badRequest
      "GitHub installation identity has an invalid account login")
  else if accountType ≠ ("User" : Text) ∧
      accountType ≠ ("Organization" : Text) then
    throw (.badRequest
      "GitHub installation identity has an unknown account type")
  else if installedByUserId.trim.isEmpty then
    throw (.badRequest "GitHub installation identity has no installer")
  else if '\x00' ∈ accountLogin.trim then throw (.database .dataException)
  else modify fun db =>
    if (db.installation? installationId).isSome then
      { db with
        installations := Table.set
          (fun installation => installation.installationId == installationId)
          (fun installation =>
            { installation with
              accountId := accountId
              accountLogin := accountLogin.trim
              accountType := accountType
              installedByUserId := installedByUserId.trim })
          db.installations }
    else
      { db with
        installations := db.installations ++
          [{ installationId := installationId
             accountId := accountId
             accountLogin := accountLogin.trim
             accountType := accountType
             installedByUserId := installedByUserId.trim
             suspended := false }] }

/-- `get_installation`. -/
def getInstallation (installationId : Int64) :
    Task (Option GithubInstallation) := do
  let db ← get
  if installationId ≤ 0 then return none
  else return db.installation? installationId

/-- `set_installation_suspended`. -/
def setInstallationSuspended (installationId : Int64) (suspended : Bool) :
    Task Bool := do
  let db ← get
  if installationId ≤ 0 then return false
  else
    set { db with
      installations := Table.set
        (fun installation => installation.installationId == installationId)
        (fun installation => { installation with suspended := suspended })
        db.installations }
    return (db.installation? installationId).isSome

/-- `remove_installation`. -/
def removeInstallation (installationId : Int64) : Task Bool := do
  let db ← get
  if installationId ≤ 0 then return false
  else
    set { db with
      installations := db.installations.filter fun installation =>
        installation.installationId != installationId }
    return (db.installation? installationId).isSome

/-! ## GitHub -/

/-- How the request for a repository ends. -/
inductive RepositoryReply where
  | unreachable
  | timedOut
  | status (code : Nat)
deriving DecidableEq, Repr

/-- What GitHub answers while a request is handled: to the exchange of an
installation token, and to the request for a repository under it. -/
structure Provider where
  exchangeInstallationToken : Int64 → Except AppError Unit
  repository : Int64 → Text → Text → RepositoryReply

/-- `map_repo_access_error` for a request with a token, whose budget is not
read. -/
def mapRepoAccessError (httpStatus : Nat) (owner repo : Text) : AppError :=
  let name := owner ++ ("/" : Text) ++ repo
  if httpStatus = 401 then
    .unauthorized
      (("GitHub rejected the supplied token (invalid, expired, or revoked); cannot read " :
        Text) ++ name)
  else if httpStatus = 403 then
    .forbidden (("the supplied GitHub token lacks permission to read " : Text) ++
      name ++ (" (HTTP 403)" : Text))
  else if httpStatus = 404 then
    .notFound (("repository " : Text) ++ name ++
      (" was not found, is private, or the token has no access to it" : Text))
  else if httpStatus = 429 then .rateLimited
  else
    .httpClient (("GitHub repository access for " : Text) ++ name ++
      (" returned HTTP " : Text) ++ Text.ofNat httpStatus)

/-- `verify_installation_repo`. -/
def verifyInstallationRepo (provider : Provider) (installationId : Int64)
    (owner repo : Text) : Except AppError Unit :=
  match provider.repository installationId owner repo with
  | .unreachable => .error (.httpClient "GitHub repository check failed")
  | .timedOut => .error (.timeout "GitHub repository check timed out")
  | .status code =>
      if 200 ≤ code ∧ code < 300 then .ok ()
      else .error (mapRepoAccessError code owner repo)

/-- `validate_account_segment`. -/
def validateAccountSegment (value : Text) : Except AppError Text :=
  if value.trim.isEmpty || 255 < value.trim.byteLen ||
      !value.trim.all fun character =>
        Text.isAsciiAlphanumeric character || character == '.' ||
          character == '_' || character == '-' || character == '+' then
    .error (.badRequest
      "repository owner and name must be plain GitHub path segments")
  else .ok value.trim

structure AuthorizedRepo where
  installationId : Int64
  owner : Text
  repo : Text
deriving DecidableEq

def unknownInstallation : AppError :=
  .notFound "GitHub installation is unknown, revoked, or suspended"

/-- `authorize_installation_repo`. -/
def authorizeInstallationRepo (provider : Provider) (userId : Text)
    (installationId : Int64) (owner repo : Text) : Task AuthorizedRepo := do
  let owner ← fromResult (validateAccountSegment owner)
  let repo ← fromResult (validateAccountSegment repo)
  match ← getInstallation installationId with
  | none => throw unknownInstallation
  | some installation =>
      if installation.suspended then throw unknownInstallation
      else if installation.installedByUserId ≠ userId then
        throw (.forbidden
          "GitHub installation does not belong to this account")
      else
        fromResult (provider.exchangeInstallationToken installationId)
        fromResult (verifyInstallationRepo provider installationId owner repo)
        return ⟨installationId, owner, repo⟩

/-! ## The submission gate -/

/-- `valid_segment` of the scan contract. -/
def validSegment (segment : Text) : Bool :=
  !segment.isEmpty && segment != ("." : Text) && segment != (".." : Text) &&
    segment.all fun character =>
      Text.isAsciiAlphanumeric character || character == '.' ||
        character == '_' || character == '-'

/-- `strip_suffix`, or the text itself. -/
def dropSuffix (text ending : Text) : Text :=
  if text.endsWith ending then text.take (text.length - ending.length) else text

/-- `normalize_repository_url`. -/
def normalizeRepositoryUrl (url : Text) : Option Text :=
  match url.trim.stripPrefix "https://github.com/" with
  | none => none
  | some rest =>
      match (dropSuffix (rest.rdropWhile (· == '/')) ".git").splitOn '/' with
      | [owner, repo] =>
          if validSegment owner && validSegment repo then
            some (("https://github.com/" : Text) ++ owner ++ ("/" : Text) ++ repo)
          else none
      | _ => none

/-- The characters that no branch name may have. -/
def isForbiddenInBranch (character : Char) : Bool :=
  character.val.toNat < 0x20 || character.val.toNat == 0x7F ||
    Text.isWhitespace character ||
    character ∈ ['~', '^', ':', '?', '*', '[', '\\', '#', '&', '\'', '"', '<',
      '>', ';', '\x60', '$', '|', '\x7b', '\x7d']

/-- `is_valid_branch_name`. -/
def isValidBranchName (value : Text) : Bool :=
  let name := value.trim
  if name.isEmpty || 255 < name.byteLen then false
  else if name.startsWith "/" || name.startsWith "." || name.startsWith "-" then
    false
  else if name.endsWith "/" || name.endsWith "." || name.endsWith ".lock" then
    false
  else if name.contains ".." || name.contains "//" || name.contains "@\x7b" then
    false
  else !name.any isForbiddenInBranch

/-- `is_valid_commit_sha`. -/
def isValidCommitSha (value : Text) : Bool :=
  value.byteLen == 40 && value.all fun character =>
    Text.isAsciiHexdigit character && !Text.isAsciiUppercase character

/-- `WebhookJob`. -/
structure WebhookJob where
  deliveryId : Text
  installationId : Int64
deriving DecidableEq

structure Submission where
  userId : Text
  tenantId : Option Text
  repoUrl : Text
  repoBranch : Text
  requestedSha : Option Text
  webhook : Option WebhookJob
deriving DecidableEq

/-- The commit that a submission asks for. -/
def requestedCommit (requestedSha : Option Text) :
    Except AppError (Option Text) :=
  match requestedSha.map Text.trim with
  | none => .ok none
  | some sha =>
      if sha.isEmpty then .ok none
      else if isValidCommitSha sha then .ok (some sha)
      else .error (.badRequest
        "commit_sha must be a 40-character lowercase hex commit digest")

def tooManyActive (live : Nat) (maxActive : Int) : AppError :=
  .conflict
    (("too many active audits (" : Text) ++ Text.ofNat live ++ ("/" : Text) ++
      Text.ofInt maxActive ++
      ("); wait for one to finish or cancel it" : Text))

/-- The insert of a job, under the constraints of the table; none where the
delivery has one. -/
def insertJob (job : AuditJob) : Task Nat := do
  let db ← get
  match Table.varchar 255 job.repoBranch with
  | none => throw (.database .dataException)
  | some repoBranch =>
      if (job.webhookDeliveryId.bind db.jobOf?).isSome then return 0
      else if db.jobs.any fun other => other.id == job.id then
        throw (.database .uniqueViolation)
      else if db.users.any fun user => user.id == job.userId then
        set { db with
          jobs := db.jobs ++ [{ job with repoBranch := repoBranch }] }
        return 1
      else throw (.database .foreignKeyViolation)

/-- The count and the insert under the lock of the user. -/
def gateAndInsert (maxActiveJobs : Int) (jobId : Text) (sha : Option Text)
    (submission : Submission) : Task Text := do
  let db ← get
  let maxActive := max maxActiveJobs 1
  let live := db.liveJobs submission.userId
  if maxActive ≤ live then throw (tooManyActive live maxActive)
  else
    let inserted ← insertJob
      { id := jobId
        userId := submission.userId
        tenantId := submission.tenantId
        repoUrl := submission.repoUrl
        repoBranch := submission.repoBranch
        requestedCommitSha := sha
        webhookDeliveryId := submission.webhook.map WebhookJob.deliveryId
        githubInstallationId := submission.webhook.map WebhookJob.installationId
        status := .queued }
    if inserted = 0 then
      let db ← get
      let existing := submission.webhook.bind fun webhook =>
        db.jobOf? webhook.deliveryId
      return (existing.map AuditJob.id).getD jobId
    else return jobId

/-- `create_audit_job_attributed`, with the id that it draws. -/
def createAuditJobAttributed (maxActiveJobs : Int) (jobId : Text)
    (submission : Submission) : Task Text :=
  if (normalizeRepositoryUrl submission.repoUrl).isNone then
    throw (.badRequest
      "repo_url must be an https://github.com/\x7bowner\x7d/\x7brepo\x7d URL")
  else if !submission.repoBranch.trim.isEmpty &&
      !isValidBranchName submission.repoBranch then
    throw (.badRequest "repo_branch contains invalid characters or format")
  else do
    let sha ← fromResult (requestedCommit submission.requestedSha)
    let db ← get
    match submission.webhook.bind fun webhook => db.jobOf? webhook.deliveryId with
    | some existing => return existing.id
    | none => gateAndInsert maxActiveJobs jobId sha submission

/-! ## Requests -/

structure WebhookSettings where
  githubAppWebhookSecret : Text
  githubAppId : Nat
  githubAppPrivateKey : Text
  isRsaKey : Text → Bool
  maxActiveJobsPerUser : Int

/-- `AppIdentity::from_parts`: whether the App is configured. -/
def appIdentity (settings : WebhookSettings) : Except AppError Bool :=
  let keySet := !settings.githubAppPrivateKey.trim.isEmpty
  if settings.githubAppId = 0 && !keySet then .ok false
  else if settings.githubAppId ≠ 0 && keySet then
    if settings.isRsaKey settings.githubAppPrivateKey then .ok true
    else .error (.badRequest "GitHub App private key is not a valid RSA key")
  else .error (.badRequest
    "GitHub App identity is incomplete: configure both the App ID and its private key")

/-- A request with the headers that the endpoint reads, where they are there
and of visible characters. -/
structure WebhookRequest where
  signature : Option Text
  deliveryId : Option Text
  event : Option Text
  body : Bytes
deriving DecidableEq

/-- A header of a bounded length that is not blank. -/
def boundedHeader (limit : Nat) (value : Option Text) : Option Text :=
  (value.map Text.trim).filter fun text =>
    !text.isEmpty && text.byteLen ≤ limit

/-- The text of bytes that are UTF-8. -/
def utf8Text (bytes : Bytes) : Option Text :=
  let text := Bytes.fromUtf8Lossy bytes
  if text.toBytes = bytes then some text else none

section Endpoint

variable [FloatFormat]

/-- A request whose signature is right, as far as it is read before its
delivery is recorded. -/
structure VerifiedRequest where
  deliveryId : Text
  event : Text
  bodySha256 : Text
  payload : Json

/-- The id of the installation that a payload names. -/
def payloadInstallation (payload : Json) : Option Int64 :=
  (((payload.get? "installation").bind fun value => value.get? "id").bind
    Json.asI64).filter fun id => 0 < id

/-- What comes before the record of the delivery. -/
def verifyRequest (settings : WebhookSettings) (request : WebhookRequest) :
    Except AppError VerifiedRequest :=
  if settings.githubAppWebhookSecret.trim.isEmpty then
    .error (.notImplemented "GitHub webhooks are not configured")
  else
    match request.signature with
    | none => .error (.unauthorized "GitHub webhook signature is missing")
    | some signature =>
        if githubWebhookMaxBytes < request.body.length then
          .error .payloadTooLarge
        else if verifyWebhookSignature settings.githubAppWebhookSecret
            request.body signature = false then
          .error (.unauthorized "GitHub webhook signature is invalid")
        else
          match (utf8Text request.body).bind Json.parse with
          | none => .error (.badRequest "GitHub webhook body is not valid JSON")
          | some payload =>
              match boundedHeader 128 request.deliveryId with
              | none =>
                  .error (.badRequest "GitHub webhook delivery ID is missing")
              | some deliveryId =>
                  match boundedHeader 64 request.event with
                  | none =>
                      .error (.badRequest "GitHub webhook event is missing")
                  | some event => .ok
                      { deliveryId := deliveryId
                        event := event
                        bodySha256 := webhookBodySha256 request.body
                        payload := payload }

/-! ## Events -/

/-- What a handled delivery is answered with. -/
inductive Acknowledgement where
  | duplicate (deliveryId : Text)
  | pong
  | uninstalled (removed : Bool)
  | suspensionUpdated (suspended known : Bool)
  | unlinked
  | installed
  | ignoredAction (action : Text)
  | ignoredEvent (event deliveryId : Text)
  | ignored (reason : Text)
  | queued (jobId : Text)
deriving DecidableEq, Repr

/-- What a push asks for. -/
structure Push where
  installationId : Int64
  commit : Text
  owner : Text
  repo : Text
  branch : Text
deriving DecidableEq

def isZeros (text : Text) : Bool := text.all (· == '0')

/-- The branch of a push, as it is shown. -/
def pushBranch (payload : Json) : Text :=
  ((((payload.get? "ref").bind Json.asStr).bind fun ref =>
    ref.stripPrefix "refs/heads/").filter fun branch =>
      !branch.trim.isEmpty).getD "main"

/-- What is read of the payload of a push, or the reason to ignore it. -/
def readPush (payload : Json) : Except Text Push :=
  match payloadInstallation payload with
  | none => .error "push without an installation"
  | some installationId =>
      let commit :=
        (((payload.get? "after").bind Json.asStr).map Text.trim).getD []
      if commit.isEmpty || isZeros commit then
        .error "branch deletion carries no snapshot"
      else if isValidCommitSha commit = false then
        .error "push head is not a commit SHA"
      else
        let fullName := (((payload.get? "repository").bind fun repository =>
          repository.get? "full_name").bind Json.asStr).getD []
        let (owner, repo) := (fullName.splitOnce '/').getD ([], [])
        if owner.isEmpty || repo.isEmpty then
          .error "push names no repository"
        else .ok ⟨installationId, commit, owner, repo, pushBranch payload⟩

/-- Errors that no redelivery changes. -/
def AppError.isPermanent : AppError → Bool
  | .notFound _ => true
  | .forbidden _ => true
  | .badRequest _ => true
  | _ => false

/-- The repository of a push, none where a refusal is permanent. -/
def authorizePush (provider : Provider) (installer : Text) (push : Push) :
    Task (Option AuthorizedRepo) :=
  tryCatch
    (some <$> authorizeInstallationRepo provider installer push.installationId
      push.owner push.repo)
    fun error => if error.isPermanent then pure none else throw error

/-- The submission of an authorized push. -/
def pushSubmission (installer deliveryId : Text) (push : Push)
    (authorized : AuthorizedRepo) : Submission where
  userId := installer
  tenantId := none
  repoUrl := ("https://github.com/" : Text) ++ authorized.owner ++
    ("/" : Text) ++ authorized.repo
  repoBranch := push.branch
  requestedSha := some push.commit
  webhook := some ⟨deliveryId, push.installationId⟩

/-- `handle_push_event`, with the id that a job would get. -/
def handlePushEvent (settings : WebhookSettings) (provider : Provider)
    (jobId deliveryId : Text) (payload : Json) :
    Task (Acknowledgement × Outcome) :=
  match readPush payload with
  | .error reason => return (.ignored reason, .ignored)
  | .ok push => do
      if (← fromResult (appIdentity settings)) = false then
        return (.ignored "GitHub App is not configured", .ignored)
      else
        match (← getInstallation push.installationId).filter fun installation =>
            !installation.suspended with
        | none =>
            return (.ignored "push installation is unknown or suspended",
              .ignored)
        | some installation =>
            match ← authorizePush provider installation.installedByUserId
                push with
            | none => return (.ignored "repository not authorized", .ignored)
            | some authorized =>
                let jobId ← createAuditJobAttributed
                  (max settings.maxActiveJobsPerUser 1) jobId
                  (pushSubmission installation.installedByUserId deliveryId push
                    authorized)
                return (.queued jobId, .processed)

/-- The head of a pull request in the shape of a push. -/
def pullRequestPush (payload : Json) : Json :=
  match (payload.get? "pull_request").bind fun request =>
      request.get? "head" with
  | none => .null
  | some head =>
      .object
        [("after", .string (((head.get? "sha").bind Json.asStr).getD [])),
          ("installation", (payload.get? "installation").getD .null),
          ("ref", .string (("refs/heads/" : Text) ++
            ((head.get? "ref").bind Json.asStr).getD "main")),
          ("repository", (payload.get? "repository").getD .null)]

/-- The actions of a pull request that bring a new snapshot. -/
def bringsSnapshot (action : Text) : Bool :=
  action ∈ [("opened" : Text), "synchronize", "reopened"]

def payloadAction (payload : Json) : Text :=
  ((payload.get? "action").bind Json.asStr).getD []

/-- `handle_pull_request_event`. -/
def handlePullRequestEvent (settings : WebhookSettings) (provider : Provider)
    (jobId deliveryId : Text) (payload : Json) :
    Task (Acknowledgement × Outcome) :=
  if bringsSnapshot (payloadAction payload) then
    handlePushEvent settings provider jobId deliveryId (pullRequestPush payload)
  else
    return (.ignored "pull request action carries no new snapshot", .ignored)

/-- The account of an installation that was created. -/
structure InstallationAccount where
  id : Int64
  login : Text
  type : Text
deriving DecidableEq

def readAccount (payload : Json) : Except AppError InstallationAccount :=
  match (payload.get? "installation").bind fun installation =>
      installation.get? "account" with
  | none => .error (.badRequest "installation event has no account")
  | some account =>
      match ((account.get? "id").bind Json.asI64).filter fun id => 0 < id with
      | none => .error (.badRequest "installation event has no account ID")
      | some id => .ok
          { id := id
            login := ((account.get? "login").bind Json.asStr).getD []
            type := ((account.get? "type").bind Json.asStr).getD [] }

/-- The GitHub id of the sender. -/
def senderGithubId (payload : Json) : Text :=
  ((((payload.get? "sender").bind fun sender => sender.get? "id").bind
    Json.asI64).map fun id => Text.ofInt id.toInt).getD []

/-- `handle_installation_event` where an installation is created. -/
def handleInstallationCreated (installationId : Int64) (payload : Json) :
    Task (Acknowledgement × Outcome) := do
  let account ← fromResult (readAccount payload)
  let db ← get
  let installer := (db.users.find? fun user =>
    user.githubId == some (senderGithubId payload)).filter fun user =>
      !user.id.isEmpty
  match installer with
  | none => return (.unlinked, .ignored)
  | some installer =>
      registerInstallation installationId account.id account.login account.type
        installer.id
      return (.installed, .processed)

/-- `handle_installation_event`. -/
def handleInstallationEvent (payload : Json) :
    Task (Acknowledgement × Outcome) :=
  match payloadInstallation payload with
  | none =>
      throw (.badRequest "installation event has no installation ID")
  | some installationId =>
      let action := payloadAction payload
      if action = ("deleted" : Text) then do
        let removed ← removeInstallation installationId
        return (.uninstalled removed, .processed)
      else if action = ("suspend" : Text) ∨ action = ("unsuspend" : Text) then do
        let suspended := decide (action = ("suspend" : Text))
        let known ← setInstallationSuspended installationId suspended
        return (.suspensionUpdated suspended known, .processed)
      else if action = ("created" : Text) ∨
          action = ("new_permissions_accepted" : Text) then
        handleInstallationCreated installationId payload
      else return (.ignoredAction action, .ignored)

/-- What an event leads to. -/
def handleEvent (settings : WebhookSettings) (provider : Provider)
    (jobId : Text) (request : VerifiedRequest) :
    Task (Acknowledgement × Outcome) :=
  if request.event = ("ping" : Text) then return (.pong, .processed)
  else if request.event = ("installation" : Text) then
    handleInstallationEvent request.payload
  else if request.event = ("push" : Text) then
    handlePushEvent settings provider jobId request.deliveryId request.payload
  else if request.event = ("pull_request" : Text) then
    handlePullRequestEvent settings provider jobId request.deliveryId
      request.payload
  else
    return (.ignoredEvent request.event request.deliveryId, .ignored)

/-- `github_webhook` once a request is verified. -/
def handleVerified (settings : WebhookSettings) (provider : Provider)
    (jobId : Text) (request : VerifiedRequest) : Task Acknowledgement := do
  match ← recordWebhookDelivery request.deliveryId request.event
      request.bodySha256 (payloadInstallation request.payload) with
  | .duplicate => return .duplicate request.deliveryId
  | .process =>
      let (response, outcome) ← handleEvent settings provider jobId request
      markWebhookOutcome request.deliveryId outcome
      return response

/-- `github_webhook`. -/
def githubWebhook (settings : WebhookSettings) (provider : Provider)
    (jobId : Text) (request : WebhookRequest) : Task Acknowledgement :=
  fromResult (verifyRequest settings request) >>=
    handleVerified settings provider jobId

end Endpoint

end FireCrow.Api.Webhooks
