import FireCrow.DockerAuthz.BindSources
import FireCrow.DockerAuthz.Launch
import FireCrow.DockerAuthz.Queries

/-!
# Scanner launches

The backend's rules for a run against the plugin's rules for its create
request.  Every field of the request passes but two: the scratch paths, which
the plugin wants under `/work`, and the bind sources, for which it denies more
trees.
-/

namespace FireCrow.DockerAuthz

open FireCrow.Library FireCrow.Services Paths

section Launches

variable [FloatFormat]

/-! ## Fields that follow from a run -/

/-- A run as the backend's rules leave it. -/
structure ScannerRun (run : RunCommand) : Prop where
  image : run.image ∈ approvedImages
  network : run.network ∈ allowedNetworks
  readOnly : run.readOnly = true
  capDrop : run.capDrop = ["ALL"]
  securityOpt : run.securityOpt = ["no-new-privileges"]
  user : run.user = DockerAuthz.sandboxUser
  entrypoint : ∀ entrypoint ∈ run.entrypoint, entrypoint = "sh"
  command : run.command ≠ []
  scratch : run.tmpfs ≠ []

variable {members : List (Text × Json)}

theorem hostField_of_host {host : List (Text × Json)}
    (found : (Json.object members).get? "HostConfig" = some (.object host))
    (key : Text) :
    hostField (.object members) key = (Json.object host).get? key := by
  rw [hostField, hostConfig, found]
  rfl

theorem emptyListField_of_noneListed {spec : Json} {key : Text}
    (none : noneListed (hostField spec key) = true) (rule msg : Text) :
    emptyListField spec key rule msg = .ok () := by
  rw [emptyListField, denyIf, Result.refuseIf_eq_ok, none]
  nofun

variable {run : RunCommand}

/-- The fields of a request of a scanner run that its lists do not decide. -/
theorem fieldsAllowed_iff (scanner : ScannerRun run)
    (made : BodyOf run (.object members)) :
    FieldsAllowed (.object members) ↔
      bindsField (.object members) = .ok () ∧
        tmpfsField (.object members) = .ok () := by
  obtain ⟨host, found, hosted⟩ := made.host
  have field := hostField_of_host found
  refine ⟨fun allowed => ⟨allowed.binds, allowed.tmpfs⟩, ?_⟩
  rintro ⟨binds, tmpfs⟩
  constructor
  case binds => exact binds
  case tmpfs => exact tmpfs
  case image =>
    rw [approvedImageField, made.image]
    exact (denyIf_eq_ok _ _ _ _).2 (not_not.2 scanner.image)
  case privileged => rw [privilegedField, field, hosted.privileged]
  case capAdd =>
    exact emptyListField_of_noneListed ((field _).symm ▸ hosted.capAdd) _ _
  case capDrop =>
    rw [capDropField, field, hosted.capDrop (by simp [scanner.capDrop]),
      scanner.capDrop]
    rfl
  case mounts =>
    exact emptyListField_of_noneListed ((field _).symm ▸ hosted.mounts) _ _
  case volumesFrom =>
    exact emptyListField_of_noneListed ((field _).symm ▸ hosted.volumesFrom) _ _
  case network =>
    rw [networkField, field, hosted.network]
    exact (denyIf_eq_ok _ _ _ _).2 (not_not.2 scanner.network)
  case namespaces =>
    intro key listed
    rw [namespaceField, field]
    rcases hosted.namespaces key listed with absent | blank
    · rw [absent]
    · rw [blank]
  case devices =>
    exact emptyListField_of_noneListed ((field _).symm ▸ hosted.devices) _ _
  case entrypoint =>
    have spelled := made.entrypoint
    refine (denyIf_eq_ok _ _ _ _).2 ?_
    cases chosen : run.entrypoint with
    | none =>
        rw [chosen] at spelled
        rcases spelled with absent | null
        · rw [absent]
          intro same
          cases same
        · rw [null]
          intro same
          cases same
    | some entrypoint =>
        rw [chosen] at spelled
        rw [spelled, scanner.entrypoint entrypoint chosen]
        intro same
        cases same
  case cmd =>
    refine (denyIf_eq_ok _ _ _ _).2 ?_
    rw [made.cmd scanner.command]
    cases command : run.command with
    | nil => exact absurd command scanner.command
    | cons word words => simp [stringArray, Json.asStr]
  case user =>
    refine (denyIf_eq_ok _ _ _ _).2 (not_not.2 ?_)
    rw [made.user, scanner.user]
    rfl
  case readonly =>
    rw [readonlyField, field, hosted.readonly, scanner.readOnly]
  case securityOpt =>
    rw [securityOptField, field,
      hosted.securityOpt (by simp [scanner.securityOpt]), scanner.securityOpt]
    rfl
  case restartPolicy =>
    obtain ⟨policy, restarts, name, count⟩ := hosted.restartPolicy
    rw [restartPolicyField, field, restarts]
    refine (denyIf_eq_ok _ _ _ _).2 ?_
    cases policy with
    | nil => cases name
    | cons first others =>
        have accepted : ¬ (decide (("no" : Text) ∈
            ([[], "none", "no"] : List Text)) && decide ((0 : Nat) = 0)) =
              false := by decide
        rw [restartDisabled, name, count]
        · exact accepted
        · intro same
          cases same

/-! ## Scratch paths -/

theorem checkTmpfs_iff {opts : Text}
    (constant : opts ∈ [tmpfsOptions workTmpfsSize,
      tmpfsOptions extraTmpfsSize]) (dest : Text) :
    checkTmpfs (dest, .string opts) = .ok () ↔ isWorkPath dest = true := by
  have flags : checkTmpfsFlags opts [] (opts.splitOn ',') = .ok () := by
    revert opts
    decide
  have hardened : (opts.contains "noexec" && opts.contains "nosuid" &&
      opts.contains "nodev") = true := by
    revert opts
    decide
  rw [checkTmpfs, Result.then_eq_ok, denyIf_eq_ok, Bool.not_eq_false]
  refine and_iff_left ?_
  refine (Result.then_eq_ok _ _ _).2 ⟨flags, ?_⟩
  exact (denyIf_eq_ok _ _ _ _).2 (not_not.2 hardened)

theorem tmpfsField_iff (scratch : run.tmpfs ≠ [])
    (constant : ∀ entry ∈ run.tmpfs, entry.2 ∈
      [tmpfsOptions workTmpfsSize, tmpfsOptions extraTmpfsSize])
    (made : BodyOf run (.object members)) :
    tmpfsField (.object members) = .ok () ↔
      ∀ entry ∈ run.tmpfs, isWorkPath entry.1 = true := by
  obtain ⟨host, found, hosted⟩ := made.host
  obtain ⟨entries, listed, known, complete⟩ := hosted.tmpfs scratch
  rw [tmpfsField, hostField_of_host found, listed]
  refine (Result.forM_eq_ok _ _).trans ?_
  constructor
  · intro passed entry member
    obtain ⟨⟨dest, value⟩, inside, same⟩ :=
      List.mem_map.1 (complete entry member)
    obtain ⟨opts, isString, origin⟩ := known _ inside
    have checked := passed _ inside
    dsimp only at same isString origin
    rw [isString, checkTmpfs_iff (constant _ origin)] at checked
    exact same ▸ checked
  · rintro work ⟨dest, value⟩ inside
    obtain ⟨opts, isString, origin⟩ := known _ inside
    dsimp only at isString origin
    rw [isString, checkTmpfs_iff (constant _ origin)]
    exact work _ origin

/-! ## Bind sources -/

/-- A mount as `validateMount` leaves it. -/
structure StagingMount (mount : SandboxMount) : Prop where
  target : mount.containerPath ∈ allowedContainerPaths
  readOnly : mount.readOnly = true
  single : ':' ∉ mount.hostPath
  observable : rejectSensitiveHostPath mount.hostPath = .ok ()

omit [FloatFormat] in
theorem startsWith_of_reject {path : Text}
    (accepted : rejectSensitiveHostPath path = .ok ()) :
    path.startsWith "/" = true := by
  rw [rejectSensitiveHostPath, Result.then_eq_ok, Result.refuseIf_eq_ok]
    at accepted
  exact Bool.eq_true_of_not_eq_false accepted.1

omit [FloatFormat] in
theorem splitOn_asDockerSpec {mount : SandboxMount}
    (staging : StagingMount mount) :
    mount.asDockerSpec.splitOn ':' =
      [mount.hostPath, mount.containerPath, "ro"] := by
  have target : ':' ∉ mount.containerPath := by
    have plain : ∀ path ∈ allowedContainerPaths, ':' ∉ path := by decide
    exact plain _ staging.target
  have spelled : mount.asDockerSpec =
      [':'].intercalate [mount.hostPath, mount.containerPath, ("ro" : Text)] := by
    rw [SandboxMount.asDockerSpec, staging.readOnly]
    simp [List.intercalate, List.intersperse]
  rw [spelled, List.splitOn_intercalate]
  · simp only [List.forall_mem_cons]
    exact ⟨staging.single, target, by decide, List.forall_mem_nil _⟩
  · exact List.cons_ne_nil _ _

omit [FloatFormat] in
theorem checkBind_iff {mount : SandboxMount} (staging : StagingMount mount) :
    checkBind mount.asDockerSpec = .ok () ↔
      hostSourceDenied mount.hostPath = false := by
  have host : mount.hostPath ≠ [] := by
    intro empty
    have starts := startsWith_of_reject staging.observable
    rw [empty] at starts
    cases starts
  have container : ∀ path ∈ allowedContainerPaths,
      path ≠ [] ∧ path ∈ allowedBindTargets := by decide
  obtain ⟨named, allowed⟩ := container _ staging.target
  have parts : bindParts mount.asDockerSpec =
      some (mount.hostPath, mount.containerPath, ("ro" : Text)) := by
    rw [bindParts, splitOn_asDockerSpec staging]
  rw [checkBind, parts]
  simp only [Result.then_eq_ok, denyIf_eq_ok]
  constructor
  · rintro ⟨-, accepted, -⟩
    exact Bool.eq_false_of_not_eq_true accepted
  · intro accepted
    refine ⟨by simp [host, named], by simp [accepted], ?_⟩
    rw [not_or, not_not, not_not]
    exact ⟨allowed, by decide⟩

theorem bindsField_iff {mounts : List SandboxMount}
    (spelled : run.binds = mounts.map SandboxMount.asDockerSpec)
    (staging : ∀ mount ∈ mounts, StagingMount mount)
    (made : BodyOf run (.object members)) :
    bindsField (.object members) = .ok () ↔
      ∀ mount ∈ mounts, hostSourceDenied mount.hostPath = false := by
  obtain ⟨host, found, hosted⟩ := made.host
  rw [bindsField, hostField_of_host found]
  rcases hosted.binds with ⟨none, unlisted⟩ | ⟨binds, listed, same⟩
  · have noMounts : mounts = [] := List.map_eq_nil_iff.1 (spelled ▸ none)
    subst noMounts
    refine ⟨fun _ => by simp, fun _ => ?_⟩
    rcases (noneListed_iff _).1 unlisted with absent | null | blank
    · rw [absent]
    · rw [null]
    · rw [blank]
      rfl
  · rw [listed]
    refine (Result.forM_eq_ok _ _).trans ?_
    constructor
    · intro passed mount member
      rw [← checkBind_iff (staging mount member)]
      refine passed (.string mount.asDockerSpec) (List.mem_map_of_mem ?_)
      exact (same _).2 (spelled ▸ List.mem_map_of_mem member)
    · intro accepted item inside
      obtain ⟨bind, isBind, rfl⟩ := List.mem_map.1 inside
      have known := (same bind).1 isBind
      rw [spelled] at known
      obtain ⟨mount, member, rfl⟩ := List.mem_map.1 known
      exact (checkBind_iff (staging mount member)).2 (accepted mount member)

/-! ## Specifications -/

variable [BinaryFloat]

variable {spec : SandboxSpec}

omit [FloatFormat] in
theorem stagingMount_of_accepted (valid : validateSpec spec = .ok ())
    (approved : enforceExecutionPolicy spec = .ok ()) :
    ∀ mount ∈ spec.mounts, StagingMount mount := by
  simp only [validateSpec, Result.then_eq_ok, Result.forM_eq_ok] at valid
  intro mount member
  have checked := valid.2.2.2.2.2.1 mount member
  simp only [validateMount, Result.then_eq_ok, Result.refuseIf_eq_ok]
    at checked
  obtain ⟨-, -, target, writable, characters⟩ := checked
  refine ⟨not_not.1 target, Bool.eq_true_of_not_eq_false writable, ?_,
    rejectSensitiveHostPath_of_enforced approved mount member⟩
  exact fun colon => characters (List.any_eq_true.2 ⟨':', colon, rfl⟩)

omit [FloatFormat] in
theorem single_of_valid (valid : validateSpec spec = .ok ()) :
    ∀ path ∈ spec.extraTmpfs, ':' ∉ path := by
  simp only [validateSpec, Result.then_eq_ok, Result.forM_eq_ok] at valid
  intro path member colon
  have checked := valid.2.2.2.2.2.2.1 path member
  simp only [validateTmpfsPath, Result.then_eq_ok, Result.refuseIf_eq_ok]
    at checked
  exact checked.2.1 (List.any_eq_true.2 ⟨':', colon, rfl⟩)

omit [FloatFormat] [BinaryFloat] in
theorem approvedScannerExecutions_agree :
    ∀ execution ∈ approvedScannerExecutions,
      execution.1 ∈ approvedImages ∧ execution.1.startsWith "-" = false ∧
        execution.2.network ∈ allowedNetworks := by decide

omit [FloatFormat] in
theorem mem_executions_of_enforced
    (approved : enforceExecutionPolicy spec = .ok ()) :
    (spec.image, spec.network) ∈ approvedScannerExecutions := by
  rw [enforceExecutionPolicy, Result.then_eq_ok, Result.refuseIf_eq_ok,
    not_not] at approved
  exact approved.1

omit [FloatFormat] in
theorem scannerRun_of_accepted (valid : validateSpec spec = .ok ())
    (approved : enforceExecutionPolicy spec = .ok ()) (name : Text) :
    ScannerRun (runOf spec name) := by
  obtain ⟨image, -, network⟩ :=
    approvedScannerExecutions_agree _ (mem_executions_of_enforced approved)
  simp only [validateSpec, Result.then_eq_ok, Result.refuseIf_eq_ok] at valid
  simp only [enforceExecutionPolicy, Result.then_eq_ok,
    Result.option_forM_eq_ok, Result.refuseIf_eq_ok, not_not] at approved
  exact ⟨image, network, rfl, rfl, rfl, rfl, approved.2.1, valid.2.2.2.1,
    List.cons_ne_nil _ _⟩

/-! ## Names -/

omit [FloatFormat] [BinaryFloat] in
theorem unreserved_of_isUuid {uuid : Text} (form : IsUuid uuid) :
    (containerName uuid).all isUnreserved = true := by
  have opening : ∀ character ∈ scanNamePrefix, isUnreserved character = true := by
    decide
  refine List.all_eq_true.2 fun character member => ?_
  rcases List.mem_append.1 member with front | back
  · exact opening character front
  · obtain ⟨place, inside⟩ := List.mem_iff_getElem?.1 back
    rcases form.characters place character inside with letter | ⟨rfl, -⟩
    · simp only [isUuidCharacter, Bool.or_eq_true, Bool.and_eq_true,
        decide_eq_true_eq] at letter
      rcases letter with digit | ⟨least, most⟩
      · simp [isUnreserved, isAsciiAlphanumeric, digit]
      · have lower : Text.isAsciiLowercase character = true := by
          simp only [Text.isAsciiLowercase, Bool.and_eq_true, decide_eq_true_eq]
          exact ⟨least, le_trans most (by decide)⟩
        simp [isUnreserved, isAsciiAlphanumeric, lower]
    · decide

variable {request : AuthzRequest}

omit [BinaryFloat] in
theorem queryParam_of_request
    {uuid : Text} (form : IsUuid uuid) (named : run.name = containerName uuid)
    (made : RequestOf run request) :
    isScannerName ((queryParam request.uri "name").getD []) = true := by
  obtain ⟨path, noQuery, spelled⟩ :=
    made.uri (named ▸ unreserved_of_isUuid form)
  have accepted : isScannerName run.name = true :=
    (isScannerName_iff _).2 ⟨uuid, named, form⟩
  have fixed := fixed_of_isScannerName accepted
  have separate : '&' ∉ ("name" : Text) ++ '=' :: run.name := by
    intro member
    rcases List.mem_append.1 member with front | back
    · exact absurd front (by decide)
    · rcases List.mem_cons.1 back with same | inside
      · exact absurd same (by decide)
      · exact (fixed '&' inside).notAmpersand rfl
  have read := queryParam_single noQuery (by decide : '=' ∉ ("name" : Text))
    separate
  have same : request.uri = path ++ '?' :: (("name" : Text) ++ '=' :: run.name) := by
    rw [spelled, List.append_assoc]
    rfl
  rw [same, read, Option.getD_some, percentDecode_of_fixed fixed]
  exact accepted

/-! ## Agreement -/

omit [FloatFormat] in
theorem work_of_tmpfs_iff (spec : SandboxSpec) :
    (∀ entry ∈ tmpfsOf spec, isWorkPath entry.1 = true) ↔
      ∀ path ∈ spec.extraTmpfs, isWorkPath path = true := by
  rw [tmpfsOf, List.forall_mem_cons]
  constructor
  · rintro ⟨-, work⟩ path member
    exact work _ (List.mem_map_of_mem member)
  · refine fun work => ⟨by decide, fun entry member => ?_⟩
    obtain ⟨path, listed, rfl⟩ := List.mem_map.1 member
    exact work path listed

omit [FloatFormat] in
theorem constant_of_tmpfsOf (spec : SandboxSpec) :
    ∀ entry ∈ tmpfsOf spec, entry.2 ∈
      [tmpfsOptions workTmpfsSize, tmpfsOptions extraTmpfsSize] := by
  rw [tmpfsOf, List.forall_mem_cons]
  refine ⟨List.mem_cons_self, fun entry member => ?_⟩
  obtain ⟨path, -, rfl⟩ := List.mem_map.1 member
  exact List.mem_cons_of_mem _ List.mem_cons_self

/-- The plugin allows the create request of a run that the backend accepts
exactly when the scratch paths are under `/work`, no bind source is in a tree
that the plugin alone denies, and the body is within the cap. -/
theorem scanner_launch_allowed_iff {spec : SandboxSpec}
    (valid : validateSpec spec = .ok ())
    (approved : enforceExecutionPolicy spec = .ok ()) {uuid : Text}
    (form : IsUuid uuid) {request : AuthzRequest}
    (made : ClientMakes (dockerArgv spec (containerName uuid)) request) :
    (createPolicy request).allow = true ↔
      (∀ path ∈ spec.extraTmpfs, isWorkPath path = true) ∧
        (∀ mount ∈ spec.mounts, ∀ tree ∈ pluginTrees,
          ¬ tree <+: normalize mount.hostPath) ∧
        ∀ body ∈ request.body, body.byteLen ≤ maxBodyBytes := by
  have undashed := (approvedScannerExecutions_agree _
    (mem_executions_of_enforced approved)).2.1
  obtain ⟨run, read, requested⟩ := made
  rw [readRun_dockerArgv undashed (single_of_valid valid),
    Option.some.injEq] at read
  subst read
  obtain ⟨body, members, sent, parsed, bodyOf⟩ := requested.body
  have staging := stagingMount_of_accepted valid approved
  have fields := fieldsAllowed_iff
    (scannerRun_of_accepted valid approved (containerName uuid)) bodyOf
  have scratch :=
    tmpfsField_iff (List.cons_ne_nil _ _) (constant_of_tmpfsOf spec) bodyOf
  have binds := bindsField_iff rfl staging bodyOf
  have sources : (∀ mount ∈ spec.mounts,
      hostSourceDenied mount.hostPath = false) ↔
        ∀ mount ∈ spec.mounts, ∀ tree ∈ pluginTrees,
          ¬ tree <+: normalize mount.hostPath :=
    forall₂_congr fun mount member => hostSourceDenied_iff
      (startsWith_of_reject (staging mount member).observable)
      (observable_of_sandbox (staging mount member).observable)
  have allowed : FieldsAllowed (.object members) ↔
      (∀ path ∈ spec.extraTmpfs, isWorkPath path = true) ∧
        ∀ mount ∈ spec.mounts, ∀ tree ∈ pluginTrees,
          ¬ tree <+: normalize mount.hostPath := by
    rw [fields, binds, sources, scratch, and_comm]
    exact and_congr_left' (work_of_tmpfs_iff spec)
  rw [createPolicy_allow_iff]
  constructor
  · rintro ⟨text, found, passed⟩
    rw [passed.body_eq, Option.some.injEq] at sent
    subst sent
    rw [passed.parsed, Option.some.injEq, Json.object.injEq] at parsed
    subst parsed
    obtain ⟨work, outside⟩ := allowed.1 ((checkFields_eq_ok _).1 passed.fields)
    refine ⟨work, outside, fun body found => ?_⟩
    rw [passed.body_eq, Option.mem_some_iff] at found
    exact found ▸ passed.small
  · rintro ⟨work, outside, small⟩
    exact ⟨body, members, sent, small body sent, parsed,
      queryParam_of_request form rfl requested,
      (checkFields_eq_ok _).2 (allowed.2 ⟨work, outside⟩)⟩

theorem clientMakes_of_requestOf (valid : validateSpec spec = .ok ())
    (approved : enforceExecutionPolicy spec = .ok ()) {name : Text}
    (made : RequestOf (runOf spec name) request) :
    ClientMakes (dockerArgv spec name) request :=
  ⟨_, readRun_dockerArgv (approvedScannerExecutions_agree _
    (mem_executions_of_enforced approved)).2.1 (single_of_valid valid) _, made⟩

/-- A request of a run with a scratch path elsewhere is not allowed. -/
theorem createPolicy_allow_eq_false {name : Text}
    (made : RequestOf (runOf spec name) request)
    {path : Text} (member : path ∈ spec.extraTmpfs)
    (elsewhere : isWorkPath path = false) :
    (createPolicy request).allow = false := by
  refine Bool.eq_false_of_not_eq_true fun allowed => ?_
  obtain ⟨text, found, passed⟩ := (createPolicy_allow_iff request).1 allowed
  obtain ⟨body, members, sent, parsed, bodyOf⟩ := made.body
  rw [passed.body_eq, Option.some.injEq] at sent
  subst sent
  rw [passed.parsed, Option.some.injEq, Json.object.injEq] at parsed
  subst parsed
  have checked := ((checkFields_eq_ok _).1 passed.fields).tmpfs
  have work := (work_of_tmpfs_iff spec).1
    ((tmpfsField_iff (List.cons_ne_nil _ _) (constant_of_tmpfsOf spec)
      bodyOf).1 checked)
  rw [work path member] at elsewhere
  cases elsewhere

end Launches

section Samples

attribute [local instance] FloatFormat.integersOnly BinaryFloat.naturals

def sampleUuid : Text := "01234567-89ab-4def-8123-456789abcdef"

theorem sampleUuid_isUuid : IsUuid sampleUuid := by
  obtain ⟨uuid, same, form⟩ := (isScannerName_iff (containerName sampleUuid)).1
    (by decide)
  exact List.append_cancel_left same ▸ form

/-- A request of the client for the run of a scanner. -/
def sampleRequest (scanner : Agents.ScannerSpec) (tmpfs : List (Text × Text)) :
    AuthzRequest :=
  runRequest (runOf (Agents.sandboxSpec "/srv/scan" scanner)
    (containerName sampleUuid)) tmpfs

theorem scanner_launch_allowed_iff_gitleaks :
    (createPolicy (sampleRequest .gitleaks
      [(workDir, tmpfsOptions workTmpfsSize)])).allow = true := by
  have valid : validateSpec
      (Agents.sandboxSpec "/srv/scan" .gitleaks) = .ok () := by decide
  have approved : enforceExecutionPolicy
      (Agents.sandboxSpec "/srv/scan" .gitleaks) = .ok () := by decide +kernel
  have made := clientMakes_of_requestOf valid approved (requestOf_runRequest
    (runOf (Agents.sandboxSpec "/srv/scan" .gitleaks)
      (containerName sampleUuid))
    (List.pairwise_singleton _ (workDir, tmpfsOptions workTmpfsSize))
    fun _ => Iff.rfl)
  exact (scanner_launch_allowed_iff valid approved sampleUuid_isUuid made).2
    ⟨by decide, by decide, by decide +kernel⟩

/-- The run of the static analysis asks for `/tmp`. -/
theorem semgrep_launch_refused :
    ∃ (spec : SandboxSpec) (uuid : Text) (request : AuthzRequest),
      validateSpec spec = .ok () ∧ enforceExecutionPolicy spec = .ok () ∧
        IsUuid uuid ∧ ClientMakes (dockerArgv spec (containerName uuid)) request ∧
        (createPolicy request).allow = false := by
  have valid : validateSpec (Agents.sandboxSpec "/srv/scan"
      (.semgrep "/opt/rules")) = .ok () := by decide
  have approved : enforceExecutionPolicy (Agents.sandboxSpec "/srv/scan"
      (.semgrep "/opt/rules")) = .ok () := by decide +kernel
  have ordered : InOrder [(("/tmp" : Text), tmpfsOptions extraTmpfsSize),
      (workDir, tmpfsOptions workTmpfsSize)] := by
    rw [InOrder]
    decide
  have requested := requestOf_runRequest
    (runOf (Agents.sandboxSpec "/srv/scan" (.semgrep "/opt/rules"))
      (containerName sampleUuid)) ordered fun entry => by
        show entry ∈ [_, _] ↔ entry ∈ [_, _]
        simp only [List.mem_cons, List.not_mem_nil, or_false]
        exact or_comm
  exact ⟨_, _, _, valid, approved, sampleUuid_isUuid,
    clientMakes_of_requestOf valid approved requested,
    createPolicy_allow_eq_false requested List.mem_cons_self (by decide)⟩

end Samples

end FireCrow.DockerAuthz
