import FireCrow.DockerAuthz.Plugin

/-!
# Allowed requests

An error of a check is a denial, so a request is allowed exactly when every
check passes.  One lemma for each field says what passing means.
-/

namespace FireCrow.DockerAuthz

open FireCrow.Library

/-- Every way in which a check stops is a denial. -/
def Denies {α : Type} (check : Except Decision α) : Prop :=
  ∀ decision, check = .error decision → decision.allow = false

namespace Denies

variable {α β : Type}

theorem ok (value : α) : Denies (.ok value : Except Decision α) := nofun

theorem error (rule msg : Text) (target : Option Text) :
    Denies (.error (.deny rule msg target) : Except Decision α) := by
  rintro decision ⟨⟩
  rfl

theorem denyIf (condition : Prop) [Decidable condition] (rule msg : Text) :
    Denies (DockerAuthz.denyIf condition rule msg) := by
  unfold DockerAuthz.denyIf refuseIf
  split
  · exact error _ _ _
  · exact ok ()

theorem bind {check : Except Decision α} {next : α → Except Decision β}
    (first : Denies check) (later : ∀ value, Denies (next value)) :
    Denies (check >>= next) := by
  cases check with
  | error decision =>
      rintro _ ⟨⟩
      exact first decision rfl
  | ok value => exact later value

theorem forM {check : α → Except Decision Unit}
    (each : ∀ item, Denies (check item)) (items : List α) :
    Denies (items.forM check) := by
  induction items with
  | nil => exact ok ()
  | cons item items ih => exact bind (each item) fun _ => ih

/-- The decision of a check that allows when it passes. -/
theorem allow_iff {check : Except Decision Unit} (denies : Denies check)
    (rule : Text) :
    (Decision.ofChecks check rule).allow = true ↔ check = .ok () := by
  cases check with
  | error decision =>
      rw [Decision.ofChecks, denies decision rfl]
      exact ⟨nofun, nofun⟩
  | ok value => exact ⟨fun _ => rfl, fun _ => rfl⟩

end Denies

/-! ## The create policy -/

section Create

variable [FloatFormat]

omit [FloatFormat] in
@[simp]
theorem denyIf_eq_ok (condition : Prop) [Decidable condition] (rule msg : Text)
    (result : Unit) : denyIf condition rule msg = .ok result ↔ ¬ condition :=
  Result.refuseIf_eq_ok _ _ _

theorem noneListed_iff (value : Option Json) :
    noneListed value = true ↔
      value = none ∨ value = some .null ∨ value = some (.array []) := by
  rcases value with _ | (_ | _ | _ | _ | _ | (_ | _) | _) <;>
    simp [noneListed]

theorem checkBindEntry_denies (entry : Json) :
    Denies (checkBindEntry entry) := by
  unfold checkBindEntry
  split
  · unfold checkBind
    split
    · exact .error _ _ _
    · exact .bind (.denyIf _ _ _) fun _ =>
        .bind (.denyIf _ _ _) fun _ => .denyIf _ _ _
  · exact .error _ _ _

omit [FloatFormat] in
theorem checkTmpfsFlags_denies (opts : Text) (seen flags : List Text) :
    Denies (checkTmpfsFlags opts seen flags) := by
  induction flags generalizing seen with
  | nil => exact .ok ()
  | cons flag flags ih =>
      exact .bind (.denyIf _ _ _) fun _ => .bind (.denyIf _ _ _) fun _ => ih _

theorem checkTmpfs_denies (entry : Text × Json) :
    Denies (checkTmpfs entry) := by
  obtain ⟨dest, value⟩ := entry
  refine .bind (.denyIf _ _ _) fun _ => ?_
  cases value with
  | string opts =>
      exact .bind (checkTmpfsFlags_denies _ _ _) fun _ => .denyIf _ _ _
  | null | bool | int | float | array | object => exact .ok ()

theorem checkFields_denies (spec : Json) : Denies (checkFields spec) := by
  refine .bind ?image fun _ => .bind ?privileged fun _ =>
    .bind (.denyIf _ _ _) fun _ => .bind ?capDrop fun _ =>
    .bind ?binds fun _ => .bind (.denyIf _ _ _) fun _ =>
    .bind (.denyIf _ _ _) fun _ => .bind ?network fun _ =>
    .bind (.forM ?namespaces _) fun _ => .bind (.denyIf _ _ _) fun _ =>
    .bind (.denyIf _ _ _) fun _ => .bind (.denyIf _ _ _) fun _ =>
    .bind (.denyIf _ _ _) fun _ => .bind ?readonly fun _ =>
    .bind ?securityOpt fun _ => .bind ?tmpfs fun _ => ?restart
  case image =>
    unfold approvedImageField
    split
    · exact .denyIf _ _ _
    · exact .error _ _ _
  case privileged =>
    unfold privilegedField
    split
    · exact .ok ()
    · exact .ok ()
    · exact .error _ _ _
  case capDrop =>
    unfold capDropField
    split
    · exact .denyIf _ _ _
    · exact .error _ _ _
  case binds =>
    unfold bindsField
    split
    · exact .ok ()
    · exact .ok ()
    · exact .forM checkBindEntry_denies _
    · exact .error _ _ _
  case network =>
    unfold networkField
    split
    · exact .denyIf _ _ _
    · exact .error _ _ _
  case namespaces =>
    intro key
    unfold namespaceField
    split
    · exact .ok ()
    · exact .ok ()
    · exact .error _ _ _
  case readonly =>
    unfold readonlyField
    split
    · exact .ok ()
    · exact .error _ _ _
  case securityOpt =>
    unfold securityOptField
    dsimp only
    split
    · exact .forM (fun _ => .denyIf _ _ _) _
    · exact .error _ _ _
  case tmpfs =>
    unfold tmpfsField
    split
    · exact .ok ()
    · exact .forM checkTmpfs_denies _
    · exact .error _ _ _
  case restart =>
    unfold restartPolicyField
    split
    · exact .ok ()
    · exact .denyIf _ _ _

theorem createChecks_denies (request : AuthzRequest) :
    Denies (createChecks request) := by
  refine .bind ?body fun body => .bind ?spec fun spec =>
    .bind (.denyIf _ _ _) fun _ => checkFields_denies spec
  case body =>
    unfold createBody
    split
    · split
      · exact .ok _
      · exact .error _ _ _
    · exact .error _ _ _
  case spec =>
    unfold createSpec
    split
    · exact .error _ _ _
    · exact .ok _
    · exact .error _ _ _

/-- What an allowed create request passed. -/
structure CreateAllowed (request : AuthzRequest) (body : Text)
    (members : List (Text × Json)) : Prop where
  body_eq : request.body = some body
  small : body.byteLen ≤ maxBodyBytes
  parsed : Json.parse body = some (.object members)
  named : isScannerName ((queryParam request.uri "name").getD []) = true
  fields : checkFields (.object members) = .ok ()

omit [FloatFormat] in
theorem createBody_eq_ok {request : AuthzRequest} {body : Text} :
    createBody request = .ok body ↔
      request.body = some body ∧ body.byteLen ≤ maxBodyBytes := by
  unfold createBody
  split
  · rename_i text same
    split
    · rename_i small
      rw [same, Except.ok.injEq, Option.some.injEq]
      exact ⟨fun equal => ⟨equal, equal ▸ small⟩, And.left⟩
    · rename_i large
      rw [same, Option.some.injEq]
      exact ⟨nofun, fun both => absurd (both.1 ▸ both.2) large⟩
  · rename_i absent
    rw [absent]
    exact ⟨nofun, fun both => nomatch both.1⟩

theorem createSpec_eq_ok {body : Text} {spec : Json} :
    createSpec body = .ok spec ↔
      ∃ members, spec = .object members ∧
        Json.parse body = some (.object members) := by
  unfold createSpec
  split
  · rename_i unreadable
    rw [unreadable]
    exact ⟨nofun, fun ⟨_, _, parsed⟩ => nomatch parsed⟩
  · rename_i members parsed
    rw [parsed]
    constructor
    · rintro ⟨⟩
      exact ⟨members, rfl, rfl⟩
    · rintro ⟨_, rfl, ⟨⟩⟩
      rfl
  · rename_i value other parsed
    rw [parsed]
    refine ⟨nofun, ?_⟩
    rintro ⟨members, -, ⟨⟩⟩
    exact absurd rfl (other members)

theorem createPolicy_allow_iff (request : AuthzRequest) :
    (createPolicy request).allow = true ↔
      ∃ body members, CreateAllowed request body members := by
  rw [createPolicy, (createChecks_denies request).allow_iff, createChecks,
    Result.bind_eq_ok]
  constructor
  · rintro ⟨body, read, rest⟩
    obtain ⟨spec, isSpec, rest⟩ := (Result.bind_eq_ok _ _ _).1 rest
    obtain ⟨named, fields⟩ := (Result.then_eq_ok _ _ _).1 rest
    obtain ⟨members, rfl, parsed⟩ := createSpec_eq_ok.1 isSpec
    obtain ⟨body_eq, small⟩ := createBody_eq_ok.1 read
    exact ⟨body, members, body_eq, small, parsed,
      Bool.eq_true_of_not_eq_false ((Result.refuseIf_eq_ok _ _ _).1 named),
      fields⟩
  · rintro ⟨body, members, allowed⟩
    refine ⟨body, createBody_eq_ok.2 ⟨allowed.body_eq, allowed.small⟩,
      (Result.bind_eq_ok _ _ _).2 ⟨.object members,
        createSpec_eq_ok.2 ⟨members, rfl, allowed.parsed⟩,
        (Result.then_eq_ok _ _ _).2 ⟨?_, allowed.fields⟩⟩⟩
    exact (Result.refuseIf_eq_ok _ _ _).2 (by rw [allowed.named]; nofun)

/-- The fields of an allowed create body, as each check leaves them. -/
structure FieldsAllowed (spec : Json) : Prop where
  image : approvedImageField spec = .ok ()
  privileged : privilegedField spec = .ok ()
  capAdd : capAddField spec = .ok ()
  capDrop : capDropField spec = .ok ()
  binds : bindsField spec = .ok ()
  mounts : mountsField spec = .ok ()
  volumesFrom : volumesFromField spec = .ok ()
  network : networkField spec = .ok ()
  namespaces : ∀ key ∈ namespaceKeys, namespaceField spec key = .ok ()
  devices : devicesField spec = .ok ()
  entrypoint : entrypointField spec = .ok ()
  cmd : cmdField spec = .ok ()
  user : userField spec = .ok ()
  readonly : readonlyField spec = .ok ()
  securityOpt : securityOptField spec = .ok ()
  tmpfs : tmpfsField spec = .ok ()
  restartPolicy : restartPolicyField spec = .ok ()

theorem checkFields_eq_ok (spec : Json) :
    checkFields spec = .ok () ↔ FieldsAllowed spec := by
  simp only [checkFields, Result.then_eq_ok, Result.forM_eq_ok]
  constructor <;> rintro ⟨image, privileged, capAdd, capDrop, binds, mounts,
    volumesFrom, network, namespaces, devices, entrypoint, cmd, user, readonly,
    securityOpt, tmpfs, restartPolicy⟩ <;> exact ⟨image, privileged, capAdd,
      capDrop, binds, mounts, volumesFrom, network, namespaces, devices,
      entrypoint, cmd, user, readonly, securityOpt, tmpfs, restartPolicy⟩

end Create

end FireCrow.DockerAuthz
