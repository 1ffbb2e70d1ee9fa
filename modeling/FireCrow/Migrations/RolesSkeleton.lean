import FireCrow.Library.Text

/-!
# The roles migration

`20260901000100_roles_skeleton.sql` creates a role for every role id that
`role_permissions` mentions and moves the foreign key of that table from
`iam_policies` to `roles`.

The migration completes exactly when no role has two permissions: the check
for colliding names counts the rows of `role_permissions`, not the distinct
role ids.
-/

namespace FireCrow.Migrations.Roles

open FireCrow.Library

/-! ## The tables -/

/-- The columns of `users` that decide a permission. -/
structure User where
  id : Text
  roleId : Option Text
deriving DecidableEq, Repr

/-- A row of `role_permissions`. -/
structure RolePermission where
  id : Text
  roleId : Text
  permission : Text
  resourcePattern : Text
deriving DecidableEq, Repr

/-- A row of `roles`. -/
structure Role where
  id : Text
  name : Text
  description : Option Text
deriving DecidableEq, Repr

/-- The tables that a foreign key of `role_permissions` has referenced. -/
inductive Referenced where
  | iamPolicies
  | roles
deriving DecidableEq, Repr

/-- `confrelid::regclass::text`. -/
def Referenced.regclass : Referenced → Text
  | .iamPolicies => "iam_policies"
  | .roles => "roles"

/-- A foreign key of `role_permissions` on a table's `id`. -/
structure ForeignKey where
  name : Text
  column : Text
  references : Referenced
deriving DecidableEq, Repr

/-- `pg_get_constraintdef`. -/
def ForeignKey.constraintdef (key : ForeignKey) : Text :=
  ("FOREIGN KEY (" : Text) ++ key.column ++ (") REFERENCES " : Text) ++
    key.references.regclass ++ ("(id) ON DELETE CASCADE" : Text)

/-- What the migration reads and writes; `roles` may not exist yet. -/
structure Database where
  users : List User
  rolePermissions : List RolePermission
  iamPolicies : List Text
  roles : Option (List Role)
  foreignKeys : List ForeignKey
deriving DecidableEq, Repr

/-- The ids that a referenced table holds. -/
def Database.ids (db : Database) : Referenced → List Text
  | .iamPolicies => db.iamPolicies
  | .roles => (db.roles.getD []).map Role.id

/-- The role ids that `role_permissions` mentions, row by row. -/
def Database.roleIds (db : Database) : List Text :=
  db.rolePermissions.map RolePermission.roleId

/-- The query of the authorization middleware. -/
def permissionQuery (db : Database) (userId : Text)
    (permissions : List Text) : Bool :=
  db.users.any fun u =>
    db.rolePermissions.any fun rp =>
      u.roleId == some rp.roleId && u.id == userId &&
        permissions.contains rp.permission

/-! ## The migration -/

/-- What ends a migration. -/
inductive Exception where
  | raised (message : Text)
  | stringDataRightTruncation
  | uniqueViolation (constraint : Text)
  | foreignKeyViolation (constraint : Text)
  | duplicateObject (constraint : Text)
  | undefinedObject (constraint : Text)
deriving DecidableEq, Repr

/-- `btrim` of one argument: only spaces are removed. -/
def btrim (text : Text) : Text :=
  (text.dropWhile (· == ' ')).rdropWhile (· == ' ')

/-- `'role-' || role_id`. -/
def generated (roleId : Text) : Text := ("role-" : Text) ++ roleId

/-- `CREATE TABLE IF NOT EXISTS roles`. -/
def createRoles (db : Database) : Database :=
  { db with roles := some (db.roles.getD []) }

/-- `SELECT generated ... GROUP BY 1 HAVING count(*) > 1`: the groups are of
rows, so a role with two permissions is one of them. -/
def collidingNames (db : Database) : List Text :=
  let names := db.roleIds.map generated
  names.dedup.filter fun name => 1 < names.count name

/-- The first `DO` block. -/
def validateRolePermissions (db : Database) : Except Exception Unit :=
  if db.roleIds.any fun roleId => btrim roleId == [] then
    .error (.raised
      "role_permissions contains a NULL or blank role_id; cannot create a role for it")
  else if db.roleIds.any fun roleId => 255 < (generated roleId).length then
    .error (.raised
      "a role_permissions.role_id generates a name longer than roles.name allows (255)")
  else if 0 < (collidingNames db).length then
    .error (.raised (("generated role names would collide (" : Text) ++
      Text.ofNat (collidingNames db).length ++ (" groups)" : Text)))
  else .ok ()

/-- The row that the backfill selects for a role id. -/
def backfilled (roleId : Text) : Role where
  id := roleId
  name := generated roleId
  description := some
    "Backfilled from role_permissions.role_id. Name is synthetic and is not derived from iam_policies."

/-- One row of the backfill, `ON CONFLICT (id) DO NOTHING`. -/
def insertRole (roles : List Role) (roleId : Text) :
    Except Exception (List Role) :=
  if roles.any fun role => role.id == roleId then .ok roles
  else if 128 < roleId.length || 255 < (generated roleId).length then
    .error .stringDataRightTruncation
  else if roles.any fun role => role.name == generated roleId then
    .error (.uniqueViolation "roles_name_key")
  else .ok (roles ++ [backfilled roleId])

/-- `INSERT INTO roles SELECT DISTINCT ...`. -/
def backfill (db : Database) : Except Exception Database := do
  let roles ← db.roleIds.dedup.foldlM insertRole (db.roles.getD [])
  .ok { db with roles := some roles }

/-- The second `DO` block. -/
def verifyBackfill (db : Database) : Except Exception Unit :=
  let missing := db.roleIds.dedup.filter fun roleId =>
    !(db.ids .roles).contains roleId
  if 0 < missing.length then
    .error (.raised (("backfill incomplete: " : Text) ++
      Text.ofNat missing.length ++
      (" referenced role_id(s) have no roles row" : Text)))
  else .ok ()

/-- `DROP CONSTRAINT IF EXISTS`. -/
def dropConstraint (name : Text) (db : Database) : Database :=
  { db with foreignKeys := db.foreignKeys.filter fun key => key.name != name }

/-- `ADD CONSTRAINT ... FOREIGN KEY (role_id)`: every row is checked. -/
def addForeignKey (name : Text) (references : Referenced) (db : Database) :
    Except Exception Database :=
  if db.foreignKeys.any fun key => key.name == name then
    .error (.duplicateObject name)
  else if db.roleIds.all fun roleId => (db.ids references).contains roleId then
    .ok { db with foreignKeys := db.foreignKeys ++ [⟨name, "role_id", references⟩] }
  else .error (.foreignKeyViolation name)

/-- `RENAME CONSTRAINT`. -/
def renameConstraint (name renamed : Text) (db : Database) :
    Except Exception Database :=
  if db.foreignKeys.any fun key => key.name == renamed then
    .error (.duplicateObject renamed)
  else if db.foreignKeys.any fun key => key.name == name then
    .ok { db with
      foreignKeys := db.foreignKeys.map fun key =>
        if key.name == name then { key with name := renamed } else key }
  else .error (.undefinedObject name)

/-- The last `DO` block. -/
def verifyForeignKey (db : Database) : Except Exception Unit :=
  let keys := db.foreignKeys.filter fun key =>
    key.constraintdef.contains "role_id"
  let points_at := (keys.map fun key => key.references.regclass).max?.getD []
  if keys.length ≠ 1 then
    .error (.raised (("expected exactly 1 foreign key on role_permissions.role_id, found " : Text) ++
      Text.ofNat keys.length))
  else if points_at ≠ ("roles" : Text) then
    .error (.raised (("role_permissions.role_id still references " : Text) ++
      points_at ++ (" instead of roles" : Text)))
  else .ok ()

/-- `fk_role_permissions_roles_role_id`, the name of the new key at first. -/
def interimName : Text := "fk_role_permissions_roles_role_id"

/-- `fk_role_permissions_role_id`, the name of the old key and, in the end, of
the new one. -/
def canonicalName : Text := "fk_role_permissions_role_id"

/-- The migration. -/
def rolesSkeleton (db : Database) : Except Exception Database := do
  let db := createRoles db
  validateRolePermissions db
  let db ← backfill db
  verifyBackfill db
  let db ← addForeignKey interimName .roles (dropConstraint interimName db)
  let db ← renameConstraint interimName canonicalName
    (dropConstraint canonicalName db)
  verifyForeignKey db
  .ok db

/-! ## What the earlier schema admits -/

/-- The constraints of the schema before the migration.  `roles` may exist, as
`CREATE TABLE IF NOT EXISTS` allows. -/
structure Admitted (db : Database) : Prop where
  users : (db.users.map User.id).Nodup
  rolePermissions : (db.rolePermissions.map RolePermission.id).Nodup
  roleIds : ∀ roleId ∈ db.roleIds, roleId.length ≤ 128
  policies : ∀ roleId ∈ db.roleIds, roleId ∈ db.iamPolicies
  foreignKeys : db.foreignKeys = [⟨canonicalName, "role_id", .iamPolicies⟩]
  roles : ((db.roles.getD []).map Role.id).Nodup

/-- No role of another id holds a name that the migration generates. -/
def Unconflicted (db : Database) : Prop :=
  ∀ role ∈ db.roles.getD [], ∀ roleId ∈ db.roleIds,
    role.name = generated roleId → role.id = roleId

/-- One role for every role id that is mentioned, no other role that is new,
and the same answers. -/
structure Preserves (before after : Database) : Prop where
  one : ∀ roleId ∈ before.roleIds,
    (after.roles.getD []).countP (fun role => role.id = roleId) = 1
  kept : ∀ role ∈ before.roles.getD [], role ∈ after.roles.getD []
  others : ∀ role ∈ after.roles.getD [],
    role ∈ before.roles.getD [] ∨ role.id ∈ before.roleIds
  rolePermissions : after.rolePermissions = before.rolePermissions
  users : after.users = before.users
  answers : ∀ userId permissions,
    permissionQuery after userId permissions =
      permissionQuery before userId permissions

/-! ## The check for colliding names -/

theorem generated_injective : Function.Injective generated :=
  fun _ _ same => List.append_cancel_left same

@[simp]
theorem length_generated (roleId : Text) :
    (generated roleId).length = roleId.length + 5 := by
  rw [generated, List.length_append, Nat.add_comm]
  rfl

/-- The check passes exactly when no role id has two rows. -/
theorem collidingNames_eq_nil (db : Database) :
    collidingNames db = [] ↔ db.roleIds.Nodup := by
  rw [← List.nodup_map_iff generated_injective, List.nodup_iff_count_le_one]
  simp only [collidingNames, List.filter_eq_nil_iff, List.mem_dedup,
    decide_eq_true_eq, not_lt]
  constructor
  · intro few name
    by_cases member : name ∈ db.roleIds.map generated
    · exact few name member
    · rw [List.count_eq_zero_of_not_mem member]
      exact Nat.zero_le 1
  · exact fun few name _ => few name

variable {db : Database}

/-- Rows that the first block lets through. -/
theorem validateRolePermissions_eq (admitted : Admitted db)
    (nonblank : ∀ roleId ∈ db.roleIds, btrim roleId ≠ []) :
    validateRolePermissions db =
      if db.roleIds.Nodup then .ok ()
      else .error (.raised (("generated role names would collide (" : Text) ++
        Text.ofNat (collidingNames db).length ++ (" groups)" : Text))) := by
  have present : ¬ (db.roleIds.any fun roleId => btrim roleId == []) = true := by
    simp only [List.any_eq_true, beq_iff_eq, not_exists, not_and]
    exact nonblank
  have short :
      ¬ (db.roleIds.any fun roleId =>
        decide (255 < (generated roleId).length)) = true := by
    simp only [List.any_eq_true, decide_eq_true_eq, not_exists, not_and, not_lt,
      length_generated]
    intro roleId member
    have bounded := admitted.roleIds roleId member
    omega
  rw [validateRolePermissions, if_neg present, if_neg short]
  by_cases unique : db.roleIds.Nodup
  · rw [if_pos unique, (collidingNames_eq_nil db).2 unique]
    rfl
  · rw [if_neg unique, if_pos]
    exact List.length_pos_iff.2 fun none =>
      unique ((collidingNames_eq_nil db).1 none)

/-! ## The backfill -/

/-- The role ids that have no role yet. -/
def unfilled (roles : List Role) (roleIds : List Text) : List Text :=
  roleIds.filter fun roleId => !(roles.map Role.id).contains roleId

/-- The backfill adds a role for every id that has none. -/
theorem foldlM_insertRole {roles : List Role} {roleIds : List Text}
    (unique : roleIds.Nodup) (short : ∀ roleId ∈ roleIds, roleId.length ≤ 128)
    (unconflicted : ∀ role ∈ roles, ∀ roleId ∈ roleIds,
      role.name = generated roleId → role.id = roleId) :
    roleIds.foldlM insertRole roles =
      .ok (roles ++ (unfilled roles roleIds).map backfilled) := by
  induction roleIds generalizing roles with
  | nil => simp [unfilled, pure, Except.pure]
  | cons roleId roleIds ih =>
      rcases List.nodup_cons.1 unique with ⟨fresh, distinct⟩
      have shorter := fun other member =>
        short other (List.mem_cons_of_mem roleId member)
      by_cases filled : roleId ∈ roles.map Role.id
      · have skipped : insertRole roles roleId = .ok roles := by
          rw [insertRole, if_pos]
          simpa only [List.any_eq_true, beq_iff_eq, List.mem_map] using filled
        have same : unfilled roles (roleId :: roleIds) = unfilled roles roleIds :=
          List.filter_cons_of_neg (by simpa using filled)
        rw [List.foldlM_cons, skipped, same]
        exact ih distinct shorter fun role held other member =>
          unconflicted role held other (List.mem_cons_of_mem roleId member)
      · have added : insertRole roles roleId =
            .ok (roles ++ [backfilled roleId]) := by
          have bounded := short roleId List.mem_cons_self
          rw [insertRole, if_neg, if_neg, if_neg]
          · simp only [List.any_eq_true, beq_iff_eq, not_exists, not_and]
            intro role held named
            exact filled (List.mem_map.2 ⟨role, held,
              unconflicted role held roleId List.mem_cons_self named⟩)
          · simp only [length_generated, Bool.or_eq_true, decide_eq_true_eq]
            omega
          · simpa only [List.any_eq_true, beq_iff_eq, List.mem_map] using filled
        have same : unfilled roles (roleId :: roleIds) =
            roleId :: unfilled (roles ++ [backfilled roleId]) roleIds := by
          rw [unfilled, List.filter_cons_of_pos (by simpa using filled), unfilled]
          congr 1
          apply List.filter_congr
          intro other member
          have different : other ≠ roleId := fun same => fresh (same ▸ member)
          simp [backfilled, different]
        have clear : ∀ role ∈ roles ++ [backfilled roleId], ∀ other ∈ roleIds,
            role.name = generated other → role.id = other := by
          intro role held other member named
          rcases List.mem_append.1 held with old | new
          · exact unconflicted role old other
              (List.mem_cons_of_mem roleId member) named
          · rw [List.mem_singleton.1 new] at named ⊢
            exact generated_injective named
        rw [List.foldlM_cons, added, same]
        change roleIds.foldlM insertRole (roles ++ [backfilled roleId]) = _
        rw [ih distinct shorter clear, List.append_assoc]
        rfl

/-- The roles after the backfill. -/
def Database.filledRoles (db : Database) : List Role :=
  db.roles.getD [] ++
    (unfilled (db.roles.getD []) db.roleIds.dedup).map backfilled

/-- The ids after the backfill: the old ones, then those that were missing. -/
theorem Database.map_filledRoles (db : Database) :
    db.filledRoles.map Role.id =
      (db.roles.getD []).map Role.id ++
        unfilled (db.roles.getD []) db.roleIds.dedup := by
  rw [filledRoles, List.map_append, List.map_map]
  congr 1
  exact List.map_id _

theorem Database.mem_filledRoles (db : Database) {roleId : Text}
    (member : roleId ∈ db.roleIds) : roleId ∈ db.filledRoles.map Role.id := by
  rw [map_filledRoles, List.mem_append]
  by_cases filled : roleId ∈ (db.roles.getD []).map Role.id
  · exact .inl filled
  · refine .inr (List.mem_filter.2 ⟨List.mem_dedup.2 member, ?_⟩)
    simpa using filled

theorem Database.nodup_filledRoles (admitted : Admitted db) :
    (db.filledRoles.map Role.id).Nodup := by
  rw [map_filledRoles, List.nodup_append']
  refine ⟨admitted.roles, (List.nodup_dedup _).filter _, ?_⟩
  intro roleId old new
  have missing := (List.mem_filter.1 new).2
  simp only [Bool.not_eq_true', List.contains_eq_mem, decide_eq_false_iff_not]
    at missing
  exact missing old

/-! ## The whole migration -/

/-- The database that the migration leaves. -/
def Database.migrated (db : Database) : Database :=
  { db with
    roles := some db.filledRoles
    foreignKeys := [⟨canonicalName, "role_id", .roles⟩] }

theorem rolesSkeleton_eq (admitted : Admitted db)
    (nonblank : ∀ roleId ∈ db.roleIds, btrim roleId ≠ [])
    (unconflicted : Unconflicted db) :
    rolesSkeleton db =
      if db.roleIds.Nodup then .ok db.migrated
      else .error (.raised (("generated role names would collide (" : Text) ++
        Text.ofNat (collidingNames db).length ++ (" groups)" : Text))) := by
  have created : validateRolePermissions (createRoles db) =
      validateRolePermissions db := rfl
  have filled : backfill (createRoles db) =
      .ok { db with roles := some db.filledRoles } := by
    have inserted : db.roleIds.dedup.foldlM insertRole (db.roles.getD []) =
        .ok db.filledRoles := by
      apply foldlM_insertRole (List.nodup_dedup _)
      · exact fun roleId member =>
          admitted.roleIds roleId (List.mem_dedup.1 member)
      · exact fun role held roleId member =>
          unconflicted role held roleId (List.mem_dedup.1 member)
    change (do
      let roles ← db.roleIds.dedup.foldlM insertRole (db.roles.getD [])
      Except.ok { createRoles db with roles := some roles }) = _
    rw [inserted]
    rfl
  have complete : verifyBackfill { db with roles := some db.filledRoles } =
      .ok () := by
    rw [verifyBackfill, if_neg]
    rw [List.length_pos_iff, not_not, List.filter_eq_nil_iff]
    intro roleId member
    have held := db.mem_filledRoles (List.mem_dedup.1 member)
    simpa [Database.ids] using List.mem_map.1 held
  have constrained : addForeignKey interimName .roles
      (dropConstraint interimName { db with roles := some db.filledRoles }) =
        .ok { db with
          roles := some db.filledRoles
          foreignKeys := [⟨canonicalName, "role_id", .iamPolicies⟩,
            ⟨interimName, "role_id", .roles⟩] } := by
    have dropped : dropConstraint interimName
        { db with roles := some db.filledRoles } =
          { db with roles := some db.filledRoles } := by
      rw [dropConstraint, admitted.foreignKeys]
      rfl
    rw [dropped, addForeignKey, if_neg, if_pos, admitted.foreignKeys]
    · rfl
    · rw [List.all_eq_true]
      intro roleId member
      have held := db.mem_filledRoles member
      simpa [Database.ids] using List.mem_map.1 held
    · rw [admitted.foreignKeys]
      decide
  rw [rolesSkeleton, created, validateRolePermissions_eq admitted nonblank]
  split
  · rw [filled]
    simp only [bind, Except.bind, complete, constrained]
    rfl
  · rfl

theorem Preserves.migrated (admitted : Admitted db) :
    Preserves db db.migrated where
  one := by
    intro roleId member
    have counted := List.count_eq_one_of_mem
      (Database.nodup_filledRoles admitted) (db.mem_filledRoles member)
    rw [List.count_eq_countP, List.countP_map] at counted
    refine (List.countP_congr fun role _ => ?_).trans counted
    simp
  kept := fun role held => List.mem_append_left _ held
  others := by
    intro role held
    rcases List.mem_append.1 held with old | new
    · exact .inl old
    · rcases List.mem_map.1 new with ⟨roleId, missing, rfl⟩
      exact .inr (List.mem_dedup.1 (List.mem_filter.1 missing).1)
  rolePermissions := rfl
  users := rfl
  answers := fun _ _ => rfl

/-- The migration preserves authorization exactly when no role has two
permissions. -/
theorem authorization_preserved_iff (db : Database) (admitted : Admitted db)
    (nonblank : ∀ roleId ∈ db.roleIds, btrim roleId ≠ [])
    (unconflicted : Unconflicted db) :
    (∃ after, rolesSkeleton db = .ok after ∧ Preserves db after) ↔
      db.roleIds.Nodup := by
  rw [rolesSkeleton_eq admitted nonblank unconflicted]
  by_cases unique : db.roleIds.Nodup
  · rw [if_pos unique]
    exact iff_of_true ⟨_, rfl, .migrated admitted⟩ unique
  · rw [if_neg unique]
    refine iff_of_false ?_ unique
    rintro ⟨after, completed, _⟩
    cases completed

/-! ## Two roles -/

/-- Two roles with one permission each. -/
def auditorsAndViewers : Database where
  users := [⟨"user-1", some "auditor"⟩, ⟨"user-2", none⟩]
  rolePermissions := [⟨"rp-1", "auditor", "audit:read", "*"⟩,
    ⟨"rp-2", "viewer", "report:read", "*"⟩]
  iamPolicies := ["auditor", "viewer"]
  roles := none
  foreignKeys := [⟨canonicalName, "role_id", .iamPolicies⟩]

theorem auditorsAndViewers_admitted : Admitted auditorsAndViewers where
  users := by decide
  rolePermissions := by decide
  roleIds := by decide
  policies := by decide
  foreignKeys := rfl
  roles := by decide

theorem authorization_preserved_iff_auditorsAndViewers :
    ∃ after, rolesSkeleton auditorsAndViewers = .ok after ∧
      Preserves auditorsAndViewers after :=
  (authorization_preserved_iff auditorsAndViewers auditorsAndViewers_admitted
    (by decide) (fun _ held => (by cases held))).2 (by decide)

/-- A role with two permissions, as the administrator of a tenant has. -/
def adminWithTwoPermissions : Database where
  users := [⟨"user-1", some "admin"⟩]
  rolePermissions := [⟨"rp-1", "admin", "tenant:admin", "*"⟩,
    ⟨"rp-2", "admin", "audit:read", "*"⟩]
  iamPolicies := ["admin"]
  roles := none
  foreignKeys := [⟨canonicalName, "role_id", .iamPolicies⟩]

theorem adminWithTwoPermissions_refused :
    Admitted adminWithTwoPermissions ∧
      (∀ roleId ∈ adminWithTwoPermissions.roleIds, btrim roleId ≠ []) ∧
      Unconflicted adminWithTwoPermissions ∧
      rolesSkeleton adminWithTwoPermissions =
        .error (.raised "generated role names would collide (1 groups)") := by
  refine ⟨⟨by decide, by decide, by decide, by decide, rfl, by decide⟩,
    by decide, fun _ held => (by cases held), ?_⟩
  decide +kernel

end FireCrow.Migrations.Roles
