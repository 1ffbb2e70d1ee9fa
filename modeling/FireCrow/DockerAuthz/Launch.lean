import FireCrow.Agents.ScannerSpecs
import FireCrow.DockerAuthz.Decisions
import FireCrow.Library.JsonRoundTrip

/-!
# The request of a scanner run

What the Docker client documents of `docker run`: how it reads an argument
vector, and which create request it makes of what it read.  The client itself
is not part of the development; a request is any that agrees with the
documentation.
-/

namespace FireCrow.DockerAuthz

open FireCrow.Library FireCrow.Services

/-- The settings of a `docker run` that a create request carries. -/
structure RunCommand where
  name : Text
  network : Text
  readOnly : Bool
  capDrop : List Text
  securityOpt : List Text
  user : Text
  entrypoint : Option Text
  /-- Destinations with their options. -/
  tmpfs : List (Text × Text)
  binds : List Text
  image : Text
  command : List Text

/-- The options with a value. -/
inductive RunOption where
  | name
  | network
  | capDrop
  | securityOpt
  | user
  | entrypoint
  | tmpfs
  | volume
  /-- Limits and variables, which the policy does not read. -/
  | other
deriving DecidableEq

def RunOption.ofText (word : Text) : Option RunOption :=
  if word = "--name" then some .name
  else if word = "--network" then some .network
  else if word = "--cap-drop" then some .capDrop
  else if word = "--security-opt" then some .securityOpt
  else if word = "--user" then some .user
  else if word = "--entrypoint" then some .entrypoint
  else if word = "--tmpfs" then some .tmpfs
  else if word = "-v" then some .volume
  else if word ∈ (["--cpus", "-m", "--memory-swap", "--pids-limit", "-e"] :
      List Text) then some .other
  else none

/-- Options without a value that the policy does not read. -/
def ignoredSwitches : List Text := ["--rm", "--init"]

namespace RunCommand

/-- A run without options. -/
def empty : RunCommand where
  name := []
  network := "default"
  readOnly := false
  capDrop := []
  securityOpt := []
  user := []
  entrypoint := none
  tmpfs := []
  binds := []
  image := []
  command := []

/-- Set an option. -/
def set (run : RunCommand) (value : Text) : RunOption → RunCommand
  | .name => { run with name := value }
  | .network => { run with network := value }
  | .capDrop => { run with capDrop := run.capDrop ++ [value] }
  | .securityOpt => { run with securityOpt := run.securityOpt ++ [value] }
  | .user => { run with user := value }
  | .entrypoint => { run with entrypoint := some value }
  | .tmpfs =>
      { run with tmpfs :=
        run.tmpfs ++ [(Text.splitOnce ':' value).getD (value, [])] }
  | .volume => { run with binds := run.binds ++ [value] }
  | .other => run

/-- Read the words behind `run`: options, the image and the command. -/
def read : RunCommand → List Text → Option RunCommand
  | _, [] => none
  | run, [word] =>
      if word.startsWith "-" then none
      else some { run with image := word, command := [] }
  | run, word :: next :: rest =>
      if word.startsWith "-" then
        if word ∈ ignoredSwitches then read run (next :: rest)
        else if word = "--read-only" then
          read { run with readOnly := true } (next :: rest)
        else match Text.splitOnce '=' word with
          | some (option, value) =>
              (RunOption.ofText option).bind fun option =>
                read (run.set value option) (next :: rest)
          | none =>
              (RunOption.ofText word).bind fun option =>
                read (run.set next option) rest
      else some { run with image := word, command := next :: rest }

end RunCommand

/-- Read the argument vector of a `docker run`. -/
def readRun : List Text → Option RunCommand
  | [] => none
  | word :: words => if word = "run" then RunCommand.empty.read words else none

/-! ## Reading a scanner run -/

/-- A word that is read as an option with a value. -/
def IsOption (name : Text) (option : RunOption) : Prop :=
  name.startsWith "-" = true ∧ '=' ∉ name ∧ name ∉ ignoredSwitches ∧
    name ≠ "--read-only" ∧ RunOption.ofText name = some option

instance (name : Text) (option : RunOption) : Decidable (IsOption name option) :=
  inferInstanceAs (Decidable (_ ∧ _))

namespace RunCommand

/-- Some words are read as options that lead from one run to another. -/
def Reads (run : RunCommand) (options : List Text) (result : RunCommand) :
    Prop :=
  ∀ words, words ≠ [] → run.read (options ++ words) = result.read words

namespace Reads

variable (run : RunCommand)

theorem nil : Reads run [] run :=
  fun _ _ => rfl

theorem append {run between result : RunCommand} {first second : List Text}
    (before : Reads run first between) (after : Reads between second result) :
    Reads run (first ++ second) result := by
  intro words more
  have later : second ++ words ≠ [] := by simp [more]
  rw [List.append_assoc, before _ later, after words more]

theorem ignored {run : RunCommand} {word : Text}
    (known : word ∈ ignoredSwitches) : Reads run [word] run := by
  intro words more
  have dashed : word.startsWith "-" = true := by
    revert known word
    decide
  cases words with
  | nil => exact absurd rfl more
  | cons next rest =>
      rw [List.singleton_append, read, if_pos dashed, if_pos known]

theorem readOnly :
    Reads run ["--read-only"] { run with readOnly := true } := by
  intro words more
  cases words with
  | nil => exact absurd rfl more
  | cons next rest =>
      rw [List.singleton_append, read, if_pos (by decide), if_neg (by decide),
        if_pos rfl]

/-- An option with its value behind an equals sign. -/
theorem joined {word name value : Text}
    {option : RunOption} (known : IsOption name option)
    (spelled : word = name ++ '=' :: value) :
    Reads run [word] (run.set value option) := by
  obtain ⟨dashed, single, -, -, known⟩ := known
  intro words more
  cases words with
  | nil => exact absurd rfl more
  | cons next rest =>
      have starts : word.startsWith "-" = true :=
        List.isPrefixOf_iff_prefix.2 ((List.isPrefixOf_iff_prefix.1 dashed).trans
          (spelled ▸ List.prefix_append _ _))
      have valued : '=' ∈ word := by rw [spelled]; simp
      have noSwitch : ∀ switch ∈ ("--read-only" : Text) :: ignoredSwitches,
          '=' ∉ switch := by decide
      rw [List.singleton_append, read, if_pos starts,
        if_neg fun listed => noSwitch _ (List.mem_cons_of_mem _ listed) valued,
        if_neg fun same : word = "--read-only" =>
          noSwitch word (List.mem_cons.2 (Or.inl same)) valued,
        spelled, Text.splitOnce_append value single]
      simp only [known, Option.bind_some]

/-- An option with its value in the next word. -/
theorem separate {name : Text} {option : RunOption}
    (known : IsOption name option) (value : Text) :
    Reads run [name, value] (run.set value option) := by
  obtain ⟨dashed, single, notIgnored, notReadOnly, known⟩ := known
  intro words _
  rw [List.cons_append, List.singleton_append, read, if_pos dashed,
    if_neg notIgnored, if_neg notReadOnly, Text.splitOnce_eq_none.2 single]
  simp only [known, Option.bind_some]

/-- The first word without a dash is the image. -/
theorem image {run result : RunCommand} {options : List Text} {image : Text}
    (reads : Reads run options result)
    (undashed : image.startsWith "-" = false) (command : List Text) :
    run.read (options ++ image :: command) =
      some { result with image := image, command := command } := by
  rw [reads _ (List.cons_ne_nil _ _)]
  cases command with
  | nil | cons => rw [read, if_neg (by rw [undashed]; nofun)]

end Reads

end RunCommand

section Runs

variable [BinaryFloat]

/-- The scratch paths of a specification with their options. -/
def tmpfsOf (spec : SandboxSpec) : List (Text × Text) :=
  (workDir, tmpfsOptions workTmpfsSize) ::
    spec.extraTmpfs.map fun path => (path, tmpfsOptions extraTmpfsSize)

/-- What the argument vector of a specification is read as. -/
def runOf (spec : SandboxSpec) (name : Text) : RunCommand where
  name := name
  network := spec.network.network
  readOnly := true
  capDrop := ["ALL"]
  securityOpt := ["no-new-privileges"]
  user := Services.sandboxUser
  entrypoint := spec.entrypoint
  tmpfs := tmpfsOf spec
  binds := spec.mounts.map SandboxMount.asDockerSpec
  image := spec.image
  command := spec.command

/-- What the options before the entrypoint are read as. -/
def openingRun (spec : SandboxSpec) (name : Text) : RunCommand :=
  { RunCommand.empty with
    name := name
    network := spec.network.network
    readOnly := true
    capDrop := ["ALL"]
    securityOpt := ["no-new-privileges"]
    user := Services.sandboxUser }

theorem reads_opening (spec : SandboxSpec) (name : Text) :
    RunCommand.Reads .empty
      ([("--rm" : Text), "--name", name, "--init"] ++
        [spec.network.asDockerArg] ++
        [("--read-only" : Text), "--cap-drop=ALL",
          "--security-opt=no-new-privileges",
          ("--user=" : Text) ++ Services.sandboxUser])
      (openingRun spec name) := by
  have rm : RunCommand.Reads .empty [("--rm" : Text)] .empty :=
    .ignored (by decide)
  have named := rm.append (.separate .empty
    (by decide : IsOption "--name" .name) name)
  have init := named.append (.ignored (by decide :
    ("--init" : Text) ∈ ignoredSwitches))
  have network := init.append (.joined _
    (by decide : IsOption "--network" .network)
    (rfl : spec.network.asDockerArg = _ ++ '=' :: spec.network.network))
  have readOnly := network.append (.readOnly _)
  have drop := readOnly.append (.joined _
    (by decide : IsOption "--cap-drop" .capDrop)
    (rfl : ("--cap-drop=ALL" : Text) = _ ++ '=' :: "ALL"))
  have secure := drop.append (.joined _
    (by decide : IsOption "--security-opt" .securityOpt)
    (rfl : ("--security-opt=no-new-privileges" : Text) =
      _ ++ '=' :: "no-new-privileges"))
  have user := secure.append (.joined _
    (by decide : IsOption "--user" .user)
    (rfl : ("--user=" : Text) ++ Services.sandboxUser =
      _ ++ '=' :: Services.sandboxUser))
  exact user

omit [BinaryFloat] in
theorem reads_entrypoint (run : RunCommand) (unset : run.entrypoint = none)
    (entrypoint : Option Text) :
    run.Reads (entrypointArgs entrypoint)
      { run with entrypoint := entrypoint } := by
  cases entrypoint with
  | none =>
      have same : { run with entrypoint := none } = run := by rw [← unset]
      rw [same]
      exact .nil run
  | some entrypoint =>
      exact .joined run (by decide : IsOption "--entrypoint" .entrypoint) rfl

theorem reads_limits (run : RunCommand) (limits : ResourceLimits) :
    run.Reads limits.asDockerArgs run := by
  have cpus : run.Reads
      [("--cpus=" : Text) ++ BinaryFloat.display limits.cpus] run :=
    .joined run (by decide : IsOption "--cpus" .other) rfl
  have memory : run.Reads [("-m=" : Text) ++ limits.memory] run :=
    .joined run (by decide : IsOption "-m" .other) rfl
  have swap : run.Reads [("--memory-swap=" : Text) ++ limits.memory] run :=
    .joined run (by decide : IsOption "--memory-swap" .other) rfl
  have pids : run.Reads
      [("--pids-limit=" : Text) ++ Text.ofNat limits.pidsLimit] run :=
    .joined run (by decide : IsOption "--pids-limit" .other) rfl
  exact cpus.append (memory.append (swap.append pids))

omit [BinaryFloat] in
theorem reads_tmpfs (run : RunCommand) {path : Text} (single : ':' ∉ path)
    (opts : Text) :
    run.Reads [("--tmpfs" : Text), path ++ ':' :: opts]
      { run with tmpfs := run.tmpfs ++ [(path, opts)] } := by
  have read := RunCommand.Reads.separate run
    (by decide : IsOption "--tmpfs" .tmpfs) (path ++ ':' :: opts)
  rwa [RunCommand.set, Text.splitOnce_append opts single,
    Option.getD_some] at read

omit [BinaryFloat] in
theorem reads_scratch (opts : Text) {paths : List Text}
    (single : ∀ path ∈ paths, ':' ∉ path) (run : RunCommand) :
    run.Reads (paths.flatMap fun path => [("--tmpfs" : Text), path ++ ':' :: opts])
      { run with
        tmpfs := run.tmpfs ++ paths.map fun path => (path, opts) } := by
  induction paths generalizing run with
  | nil => simpa using RunCommand.Reads.nil run
  | cons path paths ih =>
      have first := reads_tmpfs run (single path List.mem_cons_self) opts
      have rest := ih (fun other member =>
        single other (List.mem_cons_of_mem _ member))
        { run with tmpfs := run.tmpfs ++ [(path, opts)] }
      simpa using first.append rest

omit [BinaryFloat] in
theorem reads_binds (mounts : List SandboxMount) (run : RunCommand) :
    run.Reads (mounts.flatMap fun mount => [("-v" : Text), mount.asDockerSpec])
      { run with
        binds := run.binds ++ mounts.map SandboxMount.asDockerSpec } := by
  induction mounts generalizing run with
  | nil => simpa using RunCommand.Reads.nil run
  | cons mount mounts ih =>
      have first : run.Reads [("-v" : Text), mount.asDockerSpec]
          { run with binds := run.binds ++ [mount.asDockerSpec] } :=
        .separate run (by decide : IsOption "-v" .volume) mount.asDockerSpec
      simpa using first.append (ih _)

omit [BinaryFloat] in
theorem reads_env (env : List (Text × Text)) (run : RunCommand) :
    run.Reads (env.flatMap fun (variableName, value) =>
      [("-e" : Text), variableName ++ '=' :: value]) run := by
  induction env with
  | nil => exact .nil run
  | cons entry env ih =>
      have first : run.Reads [("-e" : Text), entry.1 ++ '=' :: entry.2] run :=
        .separate run (by decide : IsOption "-e" .other) _
      exact first.append ih

/-- The client reads the argument vector of a specification as its run. -/
theorem readRun_dockerArgv {spec : SandboxSpec}
    (undashed : spec.image.startsWith "-" = false)
    (single : ∀ path ∈ spec.extraTmpfs, ':' ∉ path) (name : Text) :
    readRun (dockerArgv spec name) = some (runOf spec name) := by
  have opening := (reads_opening spec name).append
    ((reads_entrypoint _ rfl spec.entrypoint).append
      (reads_limits _ spec.limits))
  have work := opening.append
    (reads_tmpfs _ (by decide : ':' ∉ workDir) (tmpfsOptions workTmpfsSize))
  have scratch := work.append
    (reads_scratch (tmpfsOptions extraTmpfsSize) single _)
  have mounted := scratch.append (reads_binds spec.mounts _)
  have complete := (mounted.append (reads_env spec.env _)).image undashed
    spec.command
  simp only [List.append_assoc, List.cons_append, List.nil_append] at complete
  simp only [dockerArgv, List.append_assoc, List.cons_append, List.nil_append]
  rw [readRun, if_pos rfl, complete]
  rfl

end Runs

/-! ## The create request -/

/-- A character that no query escapes. -/
def isUnreserved (character : Char) : Bool :=
  isAsciiAlphanumeric character || character ∈ ['-', '_', '.', '~']

section Requests

variable [FloatFormat]

/-- The JSON of a list of strings. -/
def stringArray (items : List Text) : Json := .array (items.map .string)

/-- `HostConfig` in the create request of a run. -/
structure HostOf (run : RunCommand) (host : Json) : Prop where
  privileged : host.get? "Privileged" = some (.bool false)
  capAdd : noneListed (host.get? "CapAdd") = true
  capDrop : run.capDrop ≠ [] →
    host.get? "CapDrop" = some (stringArray run.capDrop)
  binds : (run.binds = [] ∧ noneListed (host.get? "Binds") = true) ∨
    ∃ binds, host.get? "Binds" = some (stringArray binds) ∧
      ∀ bind, bind ∈ binds ↔ bind ∈ run.binds
  network : host.get? "NetworkMode" = some (.string run.network)
  namespaces : ∀ key ∈ namespaceKeys,
    host.get? key = none ∨ host.get? key = some (.string [])
  mounts : noneListed (host.get? "Mounts") = true
  volumesFrom : noneListed (host.get? "VolumesFrom") = true
  devices : noneListed (host.get? "Devices") = true
  readonly : host.get? "ReadonlyRootfs" = some (.bool run.readOnly)
  securityOpt : run.securityOpt ≠ [] →
    host.get? "SecurityOpt" = some (stringArray run.securityOpt)
  tmpfs : run.tmpfs ≠ [] → ∃ entries,
    host.get? "Tmpfs" = some (.object entries) ∧
      (∀ entry ∈ entries, ∃ opts, entry.2 = .string opts ∧
        (entry.1, opts) ∈ run.tmpfs) ∧
      ∀ entry ∈ run.tmpfs, entry.1 ∈ entries.map Prod.fst
  restartPolicy : ∃ policy, host.get? "RestartPolicy" = some (.object policy) ∧
    (Json.object policy).get? "Name" = some (.string "no") ∧
    ((Json.object policy).get? "MaximumRetryCount").bind Json.asU64 = some 0

/-- The create body of a run. -/
structure BodyOf (run : RunCommand) (body : Json) : Prop where
  image : body.get? "Image" = some (.string run.image)
  cmd : run.command ≠ [] → body.get? "Cmd" = some (stringArray run.command)
  user : body.get? "User" = some (.string run.user)
  entrypoint : match run.entrypoint with
    | none => body.get? "Entrypoint" = none ∨
        body.get? "Entrypoint" = some .null
    | some entrypoint => body.get? "Entrypoint" = some (stringArray [entrypoint])
  host : ∃ members, body.get? "HostConfig" = some (.object members) ∧
    HostOf run (.object members)

/-- A create request that the client may make of a run. -/
structure RequestOf (run : RunCommand) (request : AuthzRequest) : Prop where
  uri : run.name.all isUnreserved = true → ∃ path, '?' ∉ path ∧
    request.uri = path ++ ("?name=" : Text) ++ run.name
  body : ∃ text members, request.body = some text ∧
    Json.parse text = some (.object members) ∧ BodyOf run (.object members)

/-- A create request that the client may make of an argument vector. -/
def ClientMakes (argv : List Text) (request : AuthzRequest) : Prop :=
  ∃ run, readRun argv = some run ∧ RequestOf run request

/-! ## One request of the client -/

/-- The members of `HostConfig` that a run sets, with its scratch paths in
order. -/
def runHost (run : RunCommand) (tmpfs : List (Text × Text)) :
    List (Text × Json) :=
  [("Binds", stringArray run.binds), ("CapAdd", .null),
    ("CapDrop", stringArray run.capDrop),
    ("NetworkMode", .string run.network), ("Privileged", .bool false),
    ("ReadonlyRootfs", .bool run.readOnly),
    ("RestartPolicy", .object
      [("MaximumRetryCount", .int (JsonInt.ofUnsigned 0)),
        ("Name", .string "no")]),
    ("SecurityOpt", stringArray run.securityOpt),
    ("Tmpfs", .object (tmpfs.map fun entry => (entry.1, .string entry.2)))]

def runBody (run : RunCommand) (tmpfs : List (Text × Text)) :
    List (Text × Json) :=
  [("Cmd", stringArray run.command),
    ("Entrypoint", match run.entrypoint with
      | none => .null
      | some entrypoint => stringArray [entrypoint]),
    ("HostConfig", .object (runHost run tmpfs)),
    ("Image", .string run.image), ("User", .string run.user)]

def runRequest (run : RunCommand) (tmpfs : List (Text × Text)) :
    AuthzRequest where
  method := "POST"
  uri := ("/v1.47/containers/create?name=" : Text) ++ run.name
  user := none
  userAuthn := none
  body := some (Json.object (runBody run tmpfs)).render

theorem stringArray_buildable (items : List Text) (limit : Nat) :
    (stringArray items).Buildable (limit + 1) := by
  refine Json.buildable_array fun item member => ?_
  obtain ⟨text, -, rfl⟩ := List.mem_map.1 member
  exact ⟨trivial, Nat.zero_le _⟩

theorem stringArray_reread (items : List Text) :
    (stringArray items).reread = stringArray items := by
  rw [stringArray, Json.reread, Json.array.injEq]
  induction items with
  | nil => rfl
  | cons item items ih => exact congrArg (Json.string item :: ·) ih

theorem buildable_of_sorted {limit : Nat} {members : List (Text × Json)}
    (sorted : members.Pairwise fun left right => left.1 < right.1)
    (all : ∀ member ∈ members, member.2.Buildable limit) :
    (Json.object members).Buildable (limit + 1) :=
  @Json.buildable_object _ limit ⟨members, sorted⟩ all

/-- Scratch paths in ascending order. -/
def InOrder (tmpfs : List (Text × Text)) : Prop :=
  tmpfs.Pairwise fun left right => left.1 < right.1

variable {tmpfs : List (Text × Text)}

variable (run : RunCommand)

theorem runHost_buildable (ordered : InOrder tmpfs) (limit : Nat) :
    (Json.object (runHost run tmpfs)).Buildable (limit + 2) := by
  have keys : ((runHost run tmpfs).map Prod.fst).Pairwise (· < ·) := by
    show ([("Binds" : Text), "CapAdd", "CapDrop", "NetworkMode", "Privileged",
      "ReadonlyRootfs", "RestartPolicy", "SecurityOpt", "Tmpfs"]).Pairwise
        (· < ·)
    decide
  have restart : (Json.object
      [("MaximumRetryCount", .int (JsonInt.ofUnsigned 0)),
        ("Name", .string "no")]).Buildable (limit + 1) := by
    refine buildable_of_sorted (List.pairwise_map.1 (by
      show ([("MaximumRetryCount" : Text), "Name"]).Pairwise (· < ·)
      decide)) ?_
    simp [Json.Buildable, Json.Sorted, Json.depth]
  have scratch : (Json.object
      (tmpfs.map fun entry => (entry.1, .string entry.2))).Buildable
        (limit + 1) := by
    refine buildable_of_sorted (List.pairwise_map.2 ordered) fun member inside => ?_
    obtain ⟨entry, -, rfl⟩ := List.mem_map.1 inside
    exact ⟨trivial, Nat.zero_le _⟩
  have scalar : ∀ value : Json, value.Sorted → value.depth = 0 →
      value.Buildable (limit + 1) :=
    fun value sorted shallow => ⟨sorted, by omega⟩
  refine buildable_of_sorted (List.pairwise_map.1 keys) ?_
  simp only [runHost, List.forall_mem_cons]
  exact ⟨stringArray_buildable _ _, scalar _ trivial rfl,
    stringArray_buildable _ _, scalar _ trivial rfl, scalar _ trivial rfl,
    scalar _ trivial rfl, restart, stringArray_buildable _ _, scratch, List.forall_mem_nil _⟩

theorem runBody_buildable (ordered : InOrder tmpfs) :
    (Json.object (runBody run tmpfs)).Buildable 127 := by
  have keys : ((runBody run tmpfs).map Prod.fst).Pairwise (· < ·) := by
    show ([("Cmd" : Text), "Entrypoint", "HostConfig", "Image",
      "User"]).Pairwise (· < ·)
    decide
  have entrypoint : (match run.entrypoint with
      | none => Json.null
      | some entrypoint => stringArray [entrypoint]).Buildable 126 := by
    cases run.entrypoint with
    | none => exact ⟨trivial, Nat.zero_le _⟩
    | some entrypoint => exact stringArray_buildable _ _
  refine buildable_of_sorted (List.pairwise_map.1 keys) ?_
  simp only [runBody, List.forall_mem_cons]
  exact ⟨stringArray_buildable _ _, entrypoint, runHost_buildable run ordered _,
    ⟨trivial, Nat.zero_le _⟩, ⟨trivial, Nat.zero_le _⟩, List.forall_mem_nil _⟩

theorem rereadMembers_strings (entries : List (Text × Text)) :
    Json.rereadMembers (entries.map fun entry => (entry.1, .string entry.2)) =
      entries.map fun entry => (entry.1, .string entry.2) := by
  induction entries with
  | nil => rfl
  | cons entry entries ih => exact congrArg ((entry.1, .string entry.2) :: ·) ih

theorem runBody_reread (tmpfs : List (Text × Text)) :
    (Json.object (runBody run tmpfs)).reread =
      .object (runBody run tmpfs) := by
  have entrypoint : (match run.entrypoint with
      | none => Json.null
      | some entrypoint => stringArray [entrypoint]).reread =
        match run.entrypoint with
        | none => Json.null
        | some entrypoint => stringArray [entrypoint] := by
    cases run.entrypoint with
    | none => rfl
    | some entrypoint => exact stringArray_reread _
  simp only [runBody, runHost, Json.reread, Json.rereadMembers,
    stringArray_reread, rereadMembers_strings, entrypoint]

theorem parse_runBody (ordered : InOrder tmpfs) :
    Json.parse (Json.object (runBody run tmpfs)).render =
      some (.object (runBody run tmpfs)) := by
  rw [(runBody_buildable run ordered).parse_render, runBody_reread]

theorem hostOf_runHost
    (same : ∀ entry, entry ∈ tmpfs ↔ entry ∈ run.tmpfs) :
    HostOf run (.object (runHost run tmpfs)) where
  privileged := rfl
  capAdd := rfl
  capDrop _ := rfl
  binds := Or.inr ⟨run.binds, rfl, fun _ => Iff.rfl⟩
  network := rfl
  namespaces := by
    simp only [namespaceKeys, List.forall_mem_cons]
    exact ⟨.inl rfl, .inl rfl, .inl rfl, .inl rfl, List.forall_mem_nil _⟩
  mounts := rfl
  volumesFrom := rfl
  devices := rfl
  readonly := rfl
  securityOpt _ := rfl
  tmpfs _ := by
    refine ⟨_, rfl, fun entry member => ?_, fun entry member => ?_⟩
    · obtain ⟨known, listed, rfl⟩ := List.mem_map.1 member
      exact ⟨known.2, rfl, (same known).1 listed⟩
    · rw [List.map_map]
      exact List.mem_map.2 ⟨entry, (same entry).2 member, rfl⟩
  restartPolicy := ⟨_, rfl, rfl, rfl⟩

theorem bodyOf_runBody
    (same : ∀ entry, entry ∈ tmpfs ↔ entry ∈ run.tmpfs) :
    BodyOf run (.object (runBody run tmpfs)) where
  image := rfl
  cmd _ := rfl
  user := rfl
  entrypoint := by
    cases entrypoint : run.entrypoint with
    | none =>
        refine Or.inr ?_
        simp [runBody, entrypoint, Json.get?, SortedMap.lookupEntries]
    | some entry =>
        simp [runBody, entrypoint, Json.get?, SortedMap.lookupEntries]
  host := ⟨_, rfl, hostOf_runHost run same⟩

/-- The client may make this request of a run. -/
theorem requestOf_runRequest
    (ordered : InOrder tmpfs)
    (same : ∀ entry, entry ∈ tmpfs ↔ entry ∈ run.tmpfs) :
    RequestOf run (runRequest run tmpfs) where
  uri _ := ⟨"/v1.47/containers/create", by decide, rfl⟩
  body := ⟨_, _, rfl, parse_runBody run ordered, bodyOf_runBody run same⟩

end Requests

end FireCrow.DockerAuthz
