import FireCrow.DockerAuthz.ScannerLaunch
import FireCrow.Library.CommandLine

/-!
# The command line of a sandboxed run

The Docker client reads the argument vector with its table of flags.  Whatever
an accepted specification holds, the flags are the ones that the builder wrote
and the positional arguments are the image and the command.
-/

namespace FireCrow.DockerAuthz

open FireCrow.Library FireCrow.Services CommandLine

/-- What the client documents of the flags of `docker run`. -/
structure DockerRun (table : Table) : Prop where
  rm : table.long "rm" = some .switch
  name : table.long "name" = some .valued
  init : table.long "init" = some .switch
  network : table.long "network" = some .valued
  readOnly : table.long "read-only" = some .switch
  capDrop : table.long "cap-drop" = some .valued
  securityOpt : table.long "security-opt" = some .valued
  user : table.long "user" = some .valued
  entrypoint : table.long "entrypoint" = some .valued
  cpus : table.long "cpus" = some .valued
  memory : table.short 'm' = some .valued
  memorySwap : table.long "memory-swap" = some .valued
  pidsLimit : table.long "pids-limit" = some .valued
  tmpfs : table.long "tmpfs" = some .valued
  volume : table.short 'v' = some .valued
  environment : table.short 'e' = some .valued

/-- The first argument names the command, the others are its own. -/
def readDocker (table : Table) : List Text → Option (List Setting × List Text)
  | [] => none
  | word :: words => if word = "run" then table.parse words else none

section Settings

variable [BinaryFloat]

/-- The limits of a run. -/
def limitSettings (limits : ResourceLimits) : List Setting :=
  [(.long "cpus", BinaryFloat.display limits.cpus), (.short 'm', limits.memory),
    (.long "memory-swap", limits.memory),
    (.long "pids-limit", Text.ofNat limits.pidsLimit)]

/-- The flags that confine a run. -/
def hardening (spec : SandboxSpec) : List Setting :=
  [(.long "network", spec.network.network), (.long "read-only", CommandLine.set),
    (.long "cap-drop", "ALL"), (.long "security-opt", "no-new-privileges"),
    (.long "user", Services.sandboxUser)] ++ limitSettings spec.limits

def tmpfsSetting (path size : Text) : Setting :=
  (.long "tmpfs", path ++ ':' :: tmpfsOptions size)

def volumeSetting (mount : SandboxMount) : Setting :=
  (.short 'v', mount.asDockerSpec)

def variableSetting (entry : Text × Text) : Setting :=
  (.short 'e', entry.1 ++ '=' :: entry.2)

/-- The flags of a run in their order. -/
def sandboxSettings (spec : SandboxSpec) (name : Text) : List Setting :=
  [(.long "rm", CommandLine.set), (.long "name", name),
    (.long "init", CommandLine.set), (.long "network", spec.network.network),
    (.long "read-only", CommandLine.set), (.long "cap-drop", "ALL"),
    (.long "security-opt", "no-new-privileges"), (.long "user", Services.sandboxUser)] ++
  spec.entrypoint.toList.map (fun entrypoint => (.long "entrypoint", entrypoint)) ++
  limitSettings spec.limits ++
  [tmpfsSetting workDir workTmpfsSize] ++
  spec.extraTmpfs.map (tmpfsSetting · extraTmpfsSize) ++
  spec.mounts.map volumeSetting ++ spec.env.map variableSetting

/-- The arguments before the image. -/
def flagWords (spec : SandboxSpec) (name : Text) : List Text :=
  [("--rm" : Text), "--name", name, "--init", spec.network.asDockerArg,
    "--read-only", "--cap-drop=ALL", "--security-opt=no-new-privileges",
    ("--user=" : Text) ++ Services.sandboxUser] ++
  entrypointArgs spec.entrypoint ++
  spec.limits.asDockerArgs ++
  [("--tmpfs" : Text), workDir ++ ':' :: tmpfsOptions workTmpfsSize] ++
  spec.extraTmpfs.flatMap (fun path =>
    [("--tmpfs" : Text), path ++ ':' :: tmpfsOptions extraTmpfsSize]) ++
  spec.mounts.flatMap (fun mount => [("-v" : Text), mount.asDockerSpec]) ++
  spec.env.flatMap (fun (variableName, value) =>
    [("-e" : Text), variableName ++ '=' :: value])

theorem dockerArgv_eq (spec : SandboxSpec) (name : Text) :
    dockerArgv spec name =
      ("run" : Text) :: (flagWords spec name ++ spec.image :: spec.command) := by
  simp only [dockerArgv, flagWords, List.append_assoc, List.cons_append,
    List.nil_append]

variable {table : Table}

omit [BinaryFloat] in
theorem spells_entrypoint (docker : DockerRun table)
    (entrypoint : Option Text) :
    table.Spells (entrypointArgs entrypoint)
      (entrypoint.toList.map fun entrypoint => (.long "entrypoint", entrypoint)) := by
  cases entrypoint with
  | none => exact .nil
  | some entrypoint =>
      exact .joined (by decide) docker.entrypoint .nil

theorem spells_limits (docker : DockerRun table)
    {limits : ResourceLimits} (memory : limits.memory ≠ []) :
    table.Spells limits.asDockerArgs (limitSettings limits) :=
  .joined (by decide) docker.cpus <|
    .shortJoined (by decide) docker.memory memory <|
      .joined (by decide) docker.memorySwap <|
        .joined (by decide) docker.pidsLimit .nil

omit [BinaryFloat] in
theorem spells_opening (docker : DockerRun table)
    (network : NetworkMode) (name : Text) :
    table.Spells
      [("--rm" : Text), "--name", name, "--init", network.asDockerArg,
        "--read-only", "--cap-drop=ALL", "--security-opt=no-new-privileges",
        ("--user=" : Text) ++ Services.sandboxUser]
      [(.long "rm", CommandLine.set), (.long "name", name),
        (.long "init", CommandLine.set), (.long "network", network.network),
        (.long "read-only", CommandLine.set), (.long "cap-drop", "ALL"),
        (.long "security-opt", "no-new-privileges"),
        (.long "user", Services.sandboxUser)] :=
  .switched (by decide) docker.rm <|
    .separate (by decide) docker.name <|
      .switched (by decide) docker.init <|
        .joined (by decide) docker.network <|
          .switched (by decide) docker.readOnly <|
            .joined (by decide) docker.capDrop <|
              .joined (by decide) docker.securityOpt <|
                .joined (by decide) docker.user .nil

variable {spec : SandboxSpec}

/-- The arguments before the image spell the flags of the run. -/
theorem spells_flagWords (docker : DockerRun table)
    (memory : spec.limits.memory ≠ []) (name : Text) :
    table.Spells (flagWords spec name) (sandboxSettings spec name) := by
  have opening := spells_opening docker spec.network name
  have entrypoint := spells_entrypoint docker spec.entrypoint
  have limits := spells_limits docker memory
  have scratch (path size : Text) :
      table.Spells [("--tmpfs" : Text), path ++ ':' :: tmpfsOptions size]
        [tmpfsSetting path size] :=
    .separate (by decide) docker.tmpfs .nil
  have mount (mount : SandboxMount) :
      table.Spells [("-v" : Text), mount.asDockerSpec] [volumeSetting mount] :=
    .shortSeparate (by decide) docker.volume .nil
  have entry (entry : Text × Text) :
      table.Spells [("-e" : Text), entry.1 ++ '=' :: entry.2]
        [variableSetting entry] :=
    .shortSeparate (by decide) docker.environment .nil
  exact (((((opening.append entrypoint).append limits).append
    (scratch workDir workTmpfsSize)).append
      (.flatMap fun path _ => scratch path extraTmpfsSize)).append
        (.flatMap fun item _ => mount item)).append
          (.flatMap fun item _ => entry item)

/-! ## What the flags hold -/

/-- The flags that the builder writes. -/
def runFlags : List Flag :=
  [.long "rm", .long "name", .long "init", .long "network", .long "read-only",
    .long "cap-drop", .long "security-opt", .long "user", .long "entrypoint",
    .long "cpus", .short 'm', .long "memory-swap", .long "pids-limit",
    .long "tmpfs", .short 'v', .short 'e']

/-- The flags that the fields of a specification can repeat or leave out. -/
def repeatedFlags : List Flag :=
  [.long "entrypoint", .long "tmpfs", .short 'v', .short 'e']

/-- The flags that every run has once. -/
def onceFlags : List Flag :=
  [.long "rm", .long "name", .long "init", .long "network", .long "read-only",
    .long "cap-drop", .long "security-opt", .long "user", .long "cpus",
    .short 'm', .long "memory-swap", .long "pids-limit"]

/-- The flags of a run that do not depend on the lists of its specification. -/
def onceSettings (spec : SandboxSpec) (name : Text) : List Setting :=
  [(.long "rm", CommandLine.set), (.long "name", name),
    (.long "init", CommandLine.set), (.long "network", spec.network.network),
    (.long "read-only", CommandLine.set), (.long "cap-drop", "ALL"),
    (.long "security-opt", "no-new-privileges"),
    (.long "user", Services.sandboxUser)] ++ limitSettings spec.limits

theorem onceSettings_flags (spec : SandboxSpec) (name : Text) :
    (onceSettings spec name).map Prod.fst = onceFlags := rfl

omit [BinaryFloat] in
theorem filter_of_repeated {flag : Flag} (once : flag ∉ repeatedFlags)
    {settings : List Setting}
    (repeated : ∀ setting ∈ settings, setting.1 ∈ repeatedFlags) :
    (settings.filter fun setting => setting.1 = flag) = [] := by
  rw [List.filter_eq_nil_iff]
  intro setting member same
  rw [decide_eq_true_eq] at same
  exact once (same ▸ repeated setting member)

theorem filter_sandboxSettings (spec : SandboxSpec) (name : Text) {flag : Flag}
    (once : flag ∉ repeatedFlags) :
    ((sandboxSettings spec name).filter fun setting => setting.1 = flag) =
      (onceSettings spec name).filter fun setting => setting.1 = flag := by
  have mapped : ∀ {Item : Type} (items : List Item) (setting : Item → Setting),
      (∀ item, (setting item).1 ∈ repeatedFlags) →
        ((items.map setting).filter fun setting => setting.1 = flag) = [] := by
    intro Item items setting repeated
    refine filter_of_repeated once fun entry member => ?_
    rcases List.mem_map.1 member with ⟨item, _, rfl⟩
    exact repeated item
  have scratch : ([tmpfsSetting workDir workTmpfsSize].filter fun setting =>
      setting.1 = flag) = [] :=
    mapped [workDir] (tmpfsSetting · workTmpfsSize) fun _ => by
      exact List.mem_cons_of_mem _ List.mem_cons_self
  simp only [sandboxSettings, onceSettings, List.filter_append]
  rw [scratch, mapped spec.entrypoint.toList _ fun _ => by
      exact List.mem_cons_self, mapped spec.extraTmpfs _ fun _ => by
      exact List.mem_cons_of_mem _ List.mem_cons_self, mapped spec.mounts _ fun _ =>
      by exact List.mem_cons_of_mem _ (List.mem_cons_of_mem _ List.mem_cons_self),
    mapped spec.env _ fun _ => by
      exact List.mem_cons_of_mem _ (List.mem_cons_of_mem _
        (List.mem_cons_of_mem _ List.mem_cons_self))]
  simp only [List.append_nil]

variable {setting : Setting}

omit [BinaryFloat] in
theorem filter_of_distinct {settings : List Setting}
    (distinct : (settings.map Prod.fst).Nodup) (member : setting ∈ settings) :
    (settings.filter fun other => other.1 = setting.1) = [setting] := by
  induction settings with
  | nil => cases member
  | cons first settings ih =>
      rw [List.map_cons, List.nodup_cons] at distinct
      rcases List.mem_cons.1 member with rfl | later
      · have others : (settings.filter fun other => other.1 = setting.1) = [] := by
          rw [List.filter_eq_nil_iff]
          intro other there same
          rw [decide_eq_true_eq] at same
          exact distinct.1 (List.mem_map.2 ⟨other, there, same⟩)
        rw [List.filter_cons_of_pos (by exact decide_eq_true rfl), others]
      · rw [List.filter_cons_of_neg, ih distinct.2 later]
        rw [decide_eq_true_eq]
        exact fun same => distinct.1 (List.mem_map.2 ⟨setting, later, same.symm⟩)

theorem hardening_once (spec : SandboxSpec) (name : Text)
    (member : setting ∈ hardening spec) :
    ((sandboxSettings spec name).filter fun other => other.1 = setting.1) =
      [setting] := by
  have listed : setting ∈ onceSettings spec name := by
    rw [onceSettings]
    rcases List.mem_append.1 member with here | limit
    · exact List.mem_append_left _ (List.mem_cons_of_mem _
        (List.mem_cons_of_mem _ (List.mem_cons_of_mem _ here)))
    · exact List.mem_append_right _ limit
  have flag := List.mem_map_of_mem (f := Prod.fst) listed
  rw [onceSettings_flags] at flag
  have apart : ∀ flag ∈ onceFlags, flag ∉ repeatedFlags := by decide
  rw [filter_sandboxSettings spec name (apart _ flag)]
  refine filter_of_distinct ?_ listed
  rw [onceSettings_flags]
  decide

theorem mem_sandboxSettings {name : Text}
    (member : setting ∈ sandboxSettings spec name) :
    setting.1 ∈ runFlags ∧
      (setting.1 = .short 'v' → ∃ mount ∈ spec.mounts,
        setting = volumeSetting mount) ∧
      (setting.1 = .long "tmpfs" → ∃ path ∈ workDir :: spec.extraTmpfs,
        ∃ size, setting = tmpfsSetting path size) ∧
      (setting.1 = .short 'e' → ∃ entry ∈ spec.env,
        setting = variableSetting entry) := by
  by_cases listed : setting ∈ onceSettings spec name
  · have flag := List.mem_map_of_mem (f := Prod.fst) listed
    rw [onceSettings_flags] at flag
    rcases (by decide : ∀ flag ∈ onceFlags, flag ∈ runFlags ∧
      flag ≠ .short 'v' ∧ flag ≠ .long "tmpfs" ∧ flag ≠ .short 'e') _ flag with
      ⟨known, noVolume, noScratch, noVariable⟩
    exact ⟨known, fun same => absurd same noVolume,
      fun same => absurd same noScratch, fun same => absurd same noVariable⟩
  simp only [sandboxSettings, List.mem_append] at member
  rcases member with (((((opening | entrypoint) | limit) | work) | scratch) |
    volume) | entry
  · exact absurd (List.mem_append_left _ opening) listed
  · rcases List.mem_map.1 entrypoint with ⟨entrypoint, _, rfl⟩
    exact ⟨by exact of_decide_eq_true rfl, fun same => (by cases same),
      fun same => (by cases same), fun same => (by cases same)⟩
  · exact absurd (List.mem_append_right _ limit) listed
  · rw [List.mem_singleton] at work
    subst work
    exact ⟨by exact of_decide_eq_true rfl, fun same => (by cases same),
      fun _ => ⟨workDir, List.mem_cons_self, workTmpfsSize, rfl⟩,
      fun same => (by cases same)⟩
  · rcases List.mem_map.1 scratch with ⟨path, inside, rfl⟩
    exact ⟨by exact of_decide_eq_true rfl, fun same => (by cases same),
      fun _ => ⟨path, List.mem_cons_of_mem _ inside, extraTmpfsSize, rfl⟩,
      fun same => (by cases same)⟩
  · rcases List.mem_map.1 volume with ⟨mount, inside, rfl⟩
    exact ⟨by exact of_decide_eq_true rfl, fun _ => ⟨mount, inside, rfl⟩,
      fun same => (by cases same), fun same => (by cases same)⟩
  · rcases List.mem_map.1 entry with ⟨pair, inside, rfl⟩
    exact ⟨by exact of_decide_eq_true rfl, fun same => (by cases same),
      fun same => (by cases same), fun _ => ⟨pair, inside, rfl⟩⟩

/-- The flags that a run is read with: no other flag than those of the builder,
each that confines the run once, and every value of a field taken whole. -/
structure Confined (spec : SandboxSpec) (settings : List Setting) : Prop where
  fixed : ∀ setting ∈ settings, setting.1 ∈ runFlags
  once : ∀ setting ∈ hardening spec,
    (settings.filter fun other => other.1 = setting.1) = [setting]
  volumes : ∀ value : Text, (Flag.short 'v', value) ∈ settings →
    ∃ mount ∈ spec.mounts,
      value.splitOn ':' = [mount.hostPath, mount.containerPath, ("ro" : Text)]
  scratch : ∀ value : Text, (Flag.long "tmpfs", value) ∈ settings →
    ∃ path ∈ workDir :: spec.extraTmpfs, ∃ size,
      Text.splitOnce ':' value = some (path, tmpfsOptions size)
  environment : ∀ value : Text, (Flag.short 'e', value) ∈ settings →
    ∃ entry ∈ spec.env, Text.splitOnce '=' value = some entry

section

variable (valid : validateSpec spec = .ok ())
include valid

theorem env_name_of_valid : ∀ entry ∈ spec.env, '=' ∉ entry.1 := by
  simp only [validateSpec, Result.then_eq_ok, Result.forM_eq_ok] at valid
  rintro ⟨variableName, value⟩ member equals
  have checked := valid.2.2.2.2.2.2.2 _ member
  simp only [validateEnv, Result.then_eq_ok, Result.refuseIf_eq_ok, not_not]
    at checked
  have plain := List.all_eq_true.1 checked.1.2.1 '=' equals
  exact absurd plain (by decide)

theorem memory_of_valid : spec.limits.memory ≠ [] := by
  simp only [validateSpec, ResourceLimits.validate, Result.then_eq_ok,
    Result.refuseIf_eq_ok] at valid
  intro empty
  exact valid.2.1.2.1 (by rw [empty]; rfl)

theorem confined_of_accepted
    (approved : enforceExecutionPolicy spec = .ok ()) (name : Text) :
    Confined spec (sandboxSettings spec name) where
  fixed _ member := (mem_sandboxSettings member).1
  once _ member := hardening_once spec name member
  volumes value member := by
    rcases (mem_sandboxSettings member).2.1 rfl with ⟨mount, inside, same⟩
    refine ⟨mount, inside, ?_⟩
    rw [(Prod.mk.inj same).2]
    exact splitOn_asDockerSpec (stagingMount_of_accepted valid approved mount inside)
  scratch value member := by
    rcases (mem_sandboxSettings member).2.2.1 rfl with ⟨path, inside, size, same⟩
    refine ⟨path, inside, size, ?_⟩
    have single : ':' ∉ path := by
      rcases List.mem_cons.1 inside with rfl | inside
      · decide
      · exact single_of_valid valid path inside
    rw [(Prod.mk.inj same).2]
    exact Text.splitOnce_append _ single
  environment value member := by
    rcases (mem_sandboxSettings member).2.2.2 rfl with ⟨entry, inside, same⟩
    refine ⟨entry, inside, ?_⟩
    rw [(Prod.mk.inj same).2]
    exact Text.splitOnce_append _ (env_name_of_valid valid entry inside)

end

/-- The client reads the arguments of an accepted run as the builder meant
them: flags with their values, then the image, then the command. -/
theorem docker_argv_read {table : Table} (docker : DockerRun table)
    {spec : SandboxSpec} (valid : validateSpec spec = .ok ())
    (approved : enforceExecutionPolicy spec = .ok ()) (name : Text) :
    ∃ front settings,
      dockerArgv spec name =
        ("run" : Text) :: (front ++ spec.image :: spec.command) ∧
      table.Spells front settings ∧
      readDocker table (dockerArgv spec name) =
        some (settings, spec.image :: spec.command) ∧
      Confined spec settings := by
  have spelled := spells_flagWords docker (memory_of_valid valid) name
  have undashed : spec.image.head? ≠ some '-' :=
    (by decide : ∀ execution ∈ approvedScannerExecutions,
      execution.1.head? ≠ some '-') _ (mem_executions_of_enforced approved)
  refine ⟨flagWords spec name, sandboxSettings spec name, dockerArgv_eq spec name,
    spelled, ?_, confined_of_accepted valid approved name⟩
  rw [dockerArgv_eq, readDocker, if_pos rfl]
  exact Table.parse_positional spelled undashed spec.command

end Settings

/-- The flags of `docker run` that the builder writes. -/
def runTable : Table where
  long name :=
    if name ∈ ([("rm" : Text), "init", "read-only"] : List Text) then some .switch
    else if name ∈ ([("name" : Text), "network", "cap-drop", "security-opt", "user",
        "entrypoint", "cpus", "memory-swap", "pids-limit", "tmpfs"] : List Text) then
      some .valued
    else none
  short letter := if letter ∈ ['m', 'v', 'e'] then some .valued else none

theorem runTable_dockerRun : DockerRun runTable := by
  constructor <;> decide

section Samples

attribute [local instance] BinaryFloat.naturals

theorem docker_argv_read_gitleaks :
    ∃ front settings,
      dockerArgv (Agents.sandboxSpec "/srv/scan" .gitleaks) "--privileged" =
        ("run" : Text) :: (front ++
          (Agents.sandboxSpec "/srv/scan" .gitleaks).image ::
            (Agents.sandboxSpec "/srv/scan" .gitleaks).command) ∧
      runTable.Spells front settings ∧
      readDocker runTable
          (dockerArgv (Agents.sandboxSpec "/srv/scan" .gitleaks) "--privileged") =
        some (settings, (Agents.sandboxSpec "/srv/scan" .gitleaks).image ::
          (Agents.sandboxSpec "/srv/scan" .gitleaks).command) ∧
      Confined (Agents.sandboxSpec "/srv/scan" .gitleaks) settings :=
  docker_argv_read runTable_dockerRun (by decide +kernel) (by decide +kernel)
    "--privileged"

end Samples

end FireCrow.DockerAuthz
