import FireCrow.Orchestrator.DeliveryProtocol

/-!
# Invariants of deliveries

What a statement does to the table: a row keeps its key and moves only as the
triggers permit, and a claim adds a row where its key was free.  A version is
opened only after the ones before it failed, which every request carries from
the row that it read to the row that it inserts.
-/

namespace FireCrow.Orchestrator.Delivery

open FireCrow.Library

/-! ## Effects -/

/-- A row keeps its key, a sent row stays, and a row that failed stays failed. -/
structure AuditDelivery.Continues (before after : AuditDelivery) : Prop where
  key : after.toDeliveryKey = before.toDeliveryKey
  frozen : before.status = .sent → after = before
  failed : before.status = .failed → after.status = .failed
  started : before.status ≠ .queued → after.status ≠ .queued

namespace AuditDelivery.Continues

theorem refl (row : AuditDelivery) : row.Continues row :=
  ⟨rfl, fun _ => rfl, id, id⟩

theorem trans {first second third : AuditDelivery}
    (before : first.Continues second) (after : second.Continues third) :
    first.Continues third where
  key := after.key.trans before.key
  frozen := by
    intro sent
    have same := before.frozen sent
    rw [same] at after
    exact after.frozen sent
  failed := after.failed ∘ before.failed
  started := after.started ∘ before.started

/-- The triggers let an update do no more to a row. -/
theorem of_permits {before after : AuditDelivery}
    (key : after.toDeliveryKey = before.toDeliveryKey)
    (permitted : before.permits after = true) : before.Continues after := by
  simp only [AuditDelivery.permits, Bool.and_eq_true, Bool.or_eq_true,
    decide_eq_true_eq, List.mem_cons, List.not_mem_nil, or_false] at permitted
  rcases permitted with ⟨unsent, moves⟩
  refine ⟨key, fun sent => absurd sent unsent, fun failed => ?_,
    fun started queued => ?_⟩
  · rcases moves with (same | ⟨queued, _⟩) | ⟨sending, _⟩
    · exact same ▸ failed
    · rw [failed] at queued
      cases queued
    · rw [failed] at sending
      cases sending
  · rcases moves with (same | ⟨wasQueued, _⟩) | ⟨_, sent | failed⟩
    · exact started (same.trans queued)
    · exact started wasQueued
    · rw [queued] at sent
      cases sent
    · rw [queued] at failed
      cases failed

end AuditDelivery.Continues

/-- The database takes rows for the target. -/
structure Database.Accepts (db : Database) (target : Target) : Prop where
  known : target.executionId ∈ db.executions
  short : target.destinationRef.length ≤ 320
  present : target.destinationRef.any (· ≠ ' ') = true

/-- A row of the key can be added. -/
structure Database.Opens (db : Database) (key : DeliveryKey) : Prop where
  free : db.delivery? key = none
  positive : 1 ≤ key.deliveryVersion
  accepts : db.Accepts key.toTarget

/-- Every row continues, and a claim may add its own. -/
inductive Statement.Effect (statement : Statement) (db after : Database) :
    Prop where
  | mk (change : AuditDelivery → AuditDelivery) (added : List AuditDelivery)
      (executions : after.executions = db.executions)
      (deliveries : after.deliveries = db.deliveries.map change ++ added)
      (continues : ∀ row ∈ db.deliveries, row.Continues (change row))
      (opened : added = [] ∨ ∃ key, statement = .insertDelivery key ∧
        db.Opens key ∧ added = [db.newDelivery key])

theorem Statement.Effect.refl (statement : Statement) (db : Database) :
    statement.Effect db db :=
  .mk id [] rfl (by simp) (fun row _ => .refl row) (Or.inl rfl)

variable {db after : Database}

/-- An update that is not refused keeps to the triggers. -/
theorem update_effect {columns : List Text}
    {selects : AuditDelivery → Bool} {change : AuditDelivery → AuditDelivery}
    {count : Nat} (statement : Statement)
    (updated : db.update columns selects change = .ok (count, after))
    (key : ∀ row, (change row).toDeliveryKey = row.toDeliveryKey) :
    statement.Effect db after := by
  unfold Database.update at updated
  dsimp only at updated
  split at updated
  · cases updated
  split at updated
  · cases updated
  split at updated
  · cases updated
  rename_i permitted
  split at updated
  · cases updated
  cases updated
  refine .mk (fun row => if selects row then change row else row) [] rfl
    (by simp [Table.set]) (fun row member => ?_) (Or.inl rfl)
  split
  · rename_i selected
    refine .of_permits (key row) ?_
    by_contra refused
    refine permitted (List.any_eq_true.2 ⟨row, ?_, ?_⟩)
    · exact List.mem_filter.2 ⟨member, selected⟩
    · simpa using refused
  · exact .refl row

/-- The reclaim names a column that the table does not have. -/
theorem reclaim_eq (db : Database) (selects : AuditDelivery → Bool) :
    db.reclaim selects = .error .undefinedColumn := by
  have undefined :
      (["status", "failure_class", "failure_reason"] : List Text).any
        (fun column => column ∉ deliveryColumns) = true := by
    decide +kernel
  unfold Database.reclaim Database.update
  dsimp only
  rw [if_pos undefined]

/-- An update that is not refused changes the rows that it selects. -/
theorem update_ok {columns : List Text} {count : Nat}
    {selects : AuditDelivery → Bool} {change : AuditDelivery → AuditDelivery}
    (updated : db.update columns selects change = .ok (count, after)) :
    after.deliveries = Table.set selects change db.deliveries := by
  unfold Database.update at updated
  dsimp only at updated
  iterate 4
    split at updated
    · cases updated
  cases updated
  rfl

/-- The row of a claim can be stored where the target is accepted. -/
theorem newDelivery_valid (db : Database) (key : DeliveryKey) :
    ((db.newDelivery key).fits = true ∧ (db.newDelivery key).checks = true ∧
      key.executionId ∈ db.executions) ↔
        1 ≤ key.deliveryVersion ∧ db.Accepts key.toTarget := by
  have fits : (db.newDelivery key).fits =
      decide (key.destinationRef.length ≤ 320) := Bool.and_true _
  have checks : (db.newDelivery key).checks =
      (decide (1 ≤ key.deliveryVersion) &&
        key.destinationRef.any (· ≠ ' ')) :=
    (Bool.and_true _).trans (Bool.and_true _)
  rw [fits, checks, Bool.and_eq_true, decide_eq_true_eq, decide_eq_true_eq]
  constructor
  · rintro ⟨short, ⟨positive, present⟩, known⟩
    exact ⟨positive, known, short, present⟩
  · rintro ⟨positive, known, short, present⟩
    exact ⟨short, ⟨positive, present⟩, known⟩

variable {key : DeliveryKey}

theorem insertDelivery_ok {inserted : Nat}
    (claimed : db.insertDelivery key = .ok (inserted, after)) :
    (inserted = 0 ∧ (db.delivery? key).isSome = true ∧ after = db) ∨
      inserted = 1 ∧ db.Opens key ∧ after = { db with
        deliveries := db.deliveries ++ [db.newDelivery key] } := by
  unfold Database.insertDelivery at claimed
  dsimp only at claimed
  split at claimed
  · cases claimed
  rename_i fits
  split at claimed
  · cases claimed
  rename_i checks
  split at claimed
  · rename_i taken
    cases claimed
    exact Or.inl ⟨rfl, taken, rfl⟩
  rename_i free
  split at claimed
  · cases claimed
  rename_i known
  cases claimed
  have valid := (newDelivery_valid db key).1
    ⟨by simpa using fits, by simpa using checks, not_not.1 known⟩
  exact Or.inr ⟨rfl, ⟨by simpa using free, valid.1, valid.2⟩, rfl⟩

/-- A claim where nothing is in its way. -/
theorem insertDelivery_opens (opens : db.Opens key) :
    db.insertDelivery key = .ok (1, { db with
      deliveries := db.deliveries ++ [db.newDelivery key] }) := by
  rcases (newDelivery_valid db key).2 ⟨opens.positive, opens.accepts⟩ with
    ⟨fits, checks, known⟩
  unfold Database.insertDelivery
  simp [fits, checks, opens.free, known]

variable {statement : Statement}

variable {answer : statement.Answer}

theorem Statement.effect (ran : statement.run db = .ok (answer, after)) :
    statement.Effect db after := by
  cases statement with
  | alreadySent | latest | deliveryState =>
      cases ran
      exact .refl _ db
  | reclaimTarget | reclaimKey =>
      simp only [Statement.run, reclaim_eq] at ran
      cases ran
  | insertDelivery key =>
      rcases insertDelivery_ok ran with ⟨_, _, rfl⟩ | ⟨_, opens, rfl⟩
      · exact .refl _ _
      · exact .mk id _ rfl (by simp) (fun row _ => .refl row)
          (Or.inr ⟨key, rfl, opens, rfl⟩)
  | finishDelivery key providerMessageId failureClass =>
      have finished : db.finishDelivery key providerMessageId failureClass =
          .ok (answer, after) := ran
      unfold Database.finishDelivery at finished
      exact update_effect _ finished fun _ => rfl

variable {row : AuditDelivery}

/-- A row after a statement was there, or it is the row of a claim, or its
delivery is recorded. -/
theorem row_of_run (ran : statement.run db = .ok (answer, after))
    (member : row ∈ after.deliveries) :
    row ∈ db.deliveries ∨
      (∃ key, statement = .insertDelivery key ∧ row = db.newDelivery key) ∨
      ∃ providerMessageId failureClass, statement =
          .finishDelivery row.toDeliveryKey providerMessageId failureClass ∧
        row.status = if failureClass.isNone then .sent else .failed := by
  cases statement with
  | alreadySent | latest | deliveryState =>
      cases ran
      exact Or.inl member
  | reclaimTarget | reclaimKey =>
      simp only [Statement.run, reclaim_eq] at ran
      cases ran
  | insertDelivery key =>
      rcases insertDelivery_ok ran with ⟨_, _, rfl⟩ | ⟨_, _, rfl⟩
      · exact Or.inl member
      · rcases List.mem_append.1 member with old | added
        · exact Or.inl old
        · exact Or.inr (Or.inl ⟨key, rfl, List.mem_singleton.1 added⟩)
  | finishDelivery key providerMessageId failureClass =>
      have finished : db.finishDelivery key providerMessageId failureClass =
          .ok (answer, after) := ran
      unfold Database.finishDelivery at finished
      dsimp only at finished
      rw [update_ok finished] at member
      rcases List.mem_map.1 member with ⟨old, inside, rfl⟩
      split
      · rename_i selected
        have same : old.toDeliveryKey = key := of_decide_eq_true selected
        exact Or.inr (Or.inr ⟨providerMessageId, failureClass, by rw [same], rfl⟩)
      · exact Or.inl inside

theorem answer_effect (db : Database) (statement : Statement) :
    statement.Effect db (machine.answer db statement).2 := by
  cases ran : statement.run db with
  | error error => simpa [machine, Statement.answer, ran] using .refl statement db
  | ok result => simpa [machine, Statement.answer, ran] using Statement.effect ran

/-! ## Rows -/

variable {target : Target}

theorem mem_of :
    row ∈ db.of target ↔ row ∈ db.deliveries ∧ row.toTarget = target := by
  simp [Database.of]

theorem delivery?_mem (found : db.delivery? key = some row) :
    row ∈ db.deliveries ∧ row.toDeliveryKey = key :=
  ⟨List.mem_of_find?_eq_some found, by simpa using List.find?_some found⟩

theorem delivery?_none :
    db.delivery? key = none ↔
      ∀ row ∈ db.deliveries, row.toDeliveryKey ≠ key := by
  simp [Database.delivery?]

section Effects

variable {statement : Statement} {db after : Database}

section

variable (effect : statement.Effect db after)
include effect

/-- A row after a statement was there, or it is the row of a claim. -/
theorem Statement.Effect.mem
    {row : AuditDelivery} (member : row ∈ after.deliveries) :
    (∃ old ∈ db.deliveries, old.Continues row) ∨
      ∃ key, statement = .insertDelivery key ∧ db.Opens key ∧
        row = db.newDelivery key := by
  rcases effect with ⟨change, added, _, deliveries, continues, opened⟩
  rw [deliveries, List.mem_append, List.mem_map] at member
  rcases member with ⟨old, inside, rfl⟩ | new
  · exact Or.inl ⟨old, inside, continues old inside⟩
  · rcases opened with rfl | ⟨key, named, opens, rfl⟩
    · cases new
    · exact Or.inr ⟨key, named, opens, List.mem_singleton.1 new⟩

theorem Statement.Effect.successor
    {row : AuditDelivery} (member : row ∈ db.deliveries) :
    ∃ now ∈ after.deliveries, row.Continues now := by
  rcases effect with ⟨change, added, _, deliveries, continues, _⟩
  refine ⟨change row, ?_, continues row member⟩
  rw [deliveries]
  exact List.mem_append_left _ (List.mem_map_of_mem member)

/-- The keys stay, and only a claim adds its own. -/
theorem Statement.Effect.keys :
    ∃ added, after.deliveries.map AuditDelivery.toDeliveryKey =
        db.deliveries.map AuditDelivery.toDeliveryKey ++ added ∧
      (added = [] ∨ ∃ key, db.Opens key ∧ added = [key]) := by
  rcases effect with ⟨change, added, _, deliveries, continues, opened⟩
  refine ⟨added.map AuditDelivery.toDeliveryKey, ?_, ?_⟩
  · rw [deliveries, List.map_append, List.map_map]
    congr 1
    exact List.map_congr_left fun row member => (continues row member).key
  · rcases opened with rfl | ⟨key, _, opens, rfl⟩
    · exact Or.inl rfl
    · exact Or.inr ⟨key, opens, rfl⟩

theorem Statement.Effect.executions_eq : after.executions = db.executions := by
  rcases effect with ⟨_, _, executions, _, _, _⟩
  exact executions

end

end Effects

/-! ## The discipline -/

/-- A delivery of the target failed with the version. -/
def Database.Failed (db : Database) (target : Target) (version : Int) : Prop :=
  ∃ row ∈ db.deliveries, row.toTarget = target ∧
    row.deliveryVersion = version ∧ row.status = .failed

/-- Every version before the key's failed. -/
def Database.Turn (db : Database) (key : DeliveryKey) : Prop :=
  ∀ version, 1 ≤ version → version < key.deliveryVersion →
    db.Failed key.toTarget version

/-- The table is one that requests can leave. -/
structure Database.Consistent (db : Database) : Prop where
  keys : (db.deliveries.map AuditDelivery.toDeliveryKey).Nodup
  started : ∀ row ∈ db.deliveries, row.status ≠ .queued
  positive : ∀ row ∈ db.deliveries, 1 ≤ row.deliveryVersion
  accepted : ∀ row ∈ db.deliveries, db.Accepts row.toTarget
  turns : ∀ row ∈ db.deliveries, db.Turn row.toDeliveryKey

/-- What others leave of the table: it stays consistent, and its rows
continue. -/
structure Database.Precedes (db later : Database) : Prop where
  consistent : db.Consistent → later.Consistent
  successor : ∀ row ∈ db.deliveries,
    ∃ now ∈ later.deliveries, row.Continues now

theorem Database.Precedes.refl (db : Database) : db.Precedes db :=
  ⟨id, fun row member => ⟨row, member, .refl row⟩⟩

theorem Database.Precedes.trans {first second third : Database}
    (before : first.Precedes second) (after : second.Precedes third) :
    first.Precedes third := by
  refine ⟨after.consistent ∘ before.consistent, fun row member => ?_⟩
  rcases before.successor row member with ⟨middle, inside, continues⟩
  rcases after.successor middle inside with ⟨last, found, further⟩
  exact ⟨last, found, continues.trans further⟩

/-- What a process establishes before it issues a statement: a claim comes in
its turn. -/
def Statement.Required (db : Database) : Statement → Prop
  | .insertDelivery key => db.Turn key
  | _ => True

/-- The discipline of every process. -/
def discipline : Discipline Database Statement Statement.Reply where
  executes := machine.Executes
  rely := Database.Precedes
  requires := fun db statement => statement.Required db
  rely_refl := Database.Precedes.refl
  rely_trans := Database.Precedes.trans

variable {later : Database}

theorem Database.Failed.mono {version : Int} (failed : db.Failed target version)
    (successor : ∀ row ∈ db.deliveries,
      ∃ now ∈ later.deliveries, row.Continues now) :
    later.Failed target version := by
  rcases failed with ⟨row, member, of, numbered, failed⟩
  rcases successor row member with ⟨now, inside, continues⟩
  exact ⟨now, inside,
    (congrArg DeliveryKey.toTarget continues.key).trans of,
    (congrArg DeliveryKey.deliveryVersion continues.key).trans numbered,
    continues.failed failed⟩

theorem Database.Turn.mono (turn : db.Turn key)
    (successor : ∀ row ∈ db.deliveries,
      ∃ now ∈ later.deliveries, row.Continues now) :
    later.Turn key :=
  fun version positive before =>
    (turn version positive before).mono successor

/-- A row has the key. -/
def Database.Claimed (db : Database) (key : DeliveryKey) : Prop :=
  ∃ row ∈ db.deliveries, row.toDeliveryKey = key

/-- The row of the key was sent. -/
def Database.SentAs (db : Database) (key : DeliveryKey) : Prop :=
  ∃ row ∈ db.deliveries, row.toDeliveryKey = key ∧ row.status = .sent

/-- Some version was sent to the target. -/
def Database.SentTo (db : Database) (target : Target) : Prop :=
  ∃ version, db.SentAs ⟨target, version⟩

theorem Database.Claimed.mono (claimed : db.Claimed key)
    (successor : ∀ row ∈ db.deliveries,
      ∃ now ∈ later.deliveries, row.Continues now) :
    later.Claimed key := by
  rcases claimed with ⟨row, member, same⟩
  rcases successor row member with ⟨now, inside, continues⟩
  exact ⟨now, inside, continues.key.trans same⟩

theorem Database.SentAs.mono (sent : db.SentAs key)
    (successor : ∀ row ∈ db.deliveries,
      ∃ now ∈ later.deliveries, row.Continues now) :
    later.SentAs key := by
  rcases sent with ⟨row, member, same, status⟩
  rcases successor row member with ⟨now, inside, continues⟩
  rw [continues.frozen status] at inside
  exact ⟨row, inside, same, status⟩

theorem Database.SentTo.mono (sent : db.SentTo target)
    (successor : ∀ row ∈ db.deliveries,
      ∃ now ∈ later.deliveries, row.Continues now) :
    later.SentTo target := by
  rcases sent with ⟨version, sent⟩
  exact ⟨version, sent.mono successor⟩

theorem Database.Consistent.step
    (consistent : db.Consistent) (effect : statement.Effect db after)
    (required : statement.Required db) : after.Consistent := by
  have successor : ∀ row ∈ db.deliveries,
      ∃ now ∈ after.deliveries, row.Continues now :=
    fun row member => effect.successor member
  have accepts : ∀ target, db.Accepts target → after.Accepts target := by
    intro target accepts
    exact ⟨effect.executions_eq ▸ accepts.known, accepts.short, accepts.present⟩
  constructor
  · rcases effect.keys with ⟨added, keys, rfl | ⟨key, opens, rfl⟩⟩
    · rw [keys, List.append_nil]
      exact consistent.keys
    · have added : ((db.deliveries ++ [db.newDelivery key]).map
          AuditDelivery.toDeliveryKey).Nodup :=
        nodup_keys_append consistent.keys (delivery?_none.1 opens.free)
      rw [List.map_append] at added
      exact keys ▸ added
  · intro row member
    rcases effect.mem member with ⟨old, inside, continues⟩ | ⟨key, _, _, rfl⟩
    · exact continues.started (consistent.started old inside)
    · exact nofun
  · intro row member
    rcases effect.mem member with ⟨old, inside, continues⟩ | ⟨key, _, opens, rfl⟩
    · rw [continues.key]
      exact consistent.positive old inside
    · exact opens.positive
  · intro row member
    rcases effect.mem member with ⟨old, inside, continues⟩ | ⟨key, _, opens, rfl⟩
    · rw [continues.key]
      exact accepts _ (consistent.accepted old inside)
    · exact accepts _ opens.accepts
  · intro row member
    rcases effect.mem member with ⟨old, inside, continues⟩ | ⟨key, rfl, _, rfl⟩
    · rw [continues.key]
      exact (consistent.turns old inside).mono successor
    · exact Turn.mono required successor

/-! ## Requests -/

theorem Executes.effect {reply : statement.Reply}
    (executes : machine.Executes db statement reply after) :
    statement.Effect db after := by
  cases executes with
  | answered | lost => exact answer_effect db statement
  | failed => exact .refl statement db

theorem Executes.ok
    (executes : machine.Executes db statement (.ok answer) after) :
    statement.run db = .ok (answer, after) := by
  have inversion : ∀ (reply : statement.Reply) (next : Database),
      machine.Executes db statement reply next → reply = .ok answer →
        statement.run db = .ok (answer, next) := by
    intro reply next executes equal
    cases executes with
    | answered =>
        simp only [machine, Statement.answer] at equal ⊢
        split at equal
        · rename_i other state success
          cases equal
          rw [success]
        · cases equal
    | failed | lost => cases equal
  exact inversion _ _ executes rfl

/-- The statements that any process may issue at any time. -/
def Statement.Free (statement : Statement) : Prop :=
  ∀ db : Database, statement.Required db

section Programs

variable {Result : Type} {ensures : Database → Except AppError Result → Prop}
  {db : Database} {statement : Statement}

/-- A statement that anyone may issue, then what follows its answer. -/
theorem query_bind_safe {next : statement.Answer → Task Result}
    (free : statement.Free) (failed : ∀ db error, ensures db (.error error))
    (continued : ∀ later answer after, db.Precedes later →
      statement.run later = .ok (answer, after) →
        (next answer).Safe discipline ensures after) :
    (query statement >>= next).Safe discipline ensures db := by
  intro later relied
  refine ⟨free later, fun reply after executes => ?_⟩
  cases reply with
  | error error => exact fun _ _ => failed _ error
  | ok answer => exact continued later answer after relied (Executes.ok executes)

/-- A statement that anyone may issue, whatever it replies. -/
theorem tryQuery_bind_safe {next : statement.Reply → Task Result}
    (free : statement.Free)
    (continued : ∀ later reply after, db.Precedes later →
      statement.Effect later after →
        (next reply).Safe discipline ensures after) :
    (tryQuery statement >>= next).Safe discipline ensures db := by
  intro later relied
  exact ⟨free later, fun reply after executes =>
    continued later reply after relied (Executes.effect executes)⟩

variable {key : DeliveryKey}

theorem finishDelivery_sent {providerMessageId : Option Text} {count : Nat}
    (finished : db.finishDelivery key providerMessageId none =
      .ok (count, after))
    (claimed : db.Claimed key) : after.SentAs key := by
  rcases claimed with ⟨row, member, same⟩
  unfold Database.finishDelivery at finished
  dsimp only at finished
  have moved : { row with
      status := .sent
      providerMessageId := providerMessageId
      failureClass := none
      completedAt := some db.now } ∈ after.deliveries := by
    rw [update_ok finished]
    exact List.mem_map.2 ⟨row, member, if_pos (decide_eq_true same)⟩
  exact ⟨_, moved, same, rfl⟩

theorem sentTo_of_any {target : Target}
    (found : ((db.of target).any fun row => row.status = .sent) = true) :
    db.SentTo target := by
  rcases List.any_eq_true.1 found with ⟨row, member, sent⟩
  rcases mem_of.1 member with ⟨inside, rfl⟩
  exact ⟨row.deliveryVersion, row, inside, rfl, of_decide_eq_true sent⟩

theorem sentTo_of_existing {state : AuditDelivery → DeliveryState}
    (status : ∀ row, (state row).status = row.status)
    (found : ((db.delivery? key).map state).any
      (fun existing => existing.status = .sent) = true) :
    db.SentTo key.toTarget := by
  rw [Option.any_map, Option.any_eq_true_iff_get] at found
  rcases found with ⟨present, sent⟩
  have row := delivery?_mem (Option.some_get present).symm
  refine ⟨key.deliveryVersion, _, row.1, row.2, ?_⟩
  rw [← status]
  exact of_decide_eq_true sent

theorem le_of_lt_nextVersion {version last : Int} (positive : 1 ≤ version)
    (before : version < nextVersion last) : version ≤ last := by
  unfold nextVersion at before
  split at before <;> omega

theorem resolveDeliveryVersion_safe (target : Target)
    (consistent : db.Consistent) :
    (resolveDeliveryVersion target).Safe discipline
      (fun db result => ∀ deliveryVersion, result = .ok deliveryVersion →
        db.Turn { target with deliveryVersion := deliveryVersion }) db := by
  refine tryQuery_bind_safe (fun _ => trivial) fun middle reply after relied effect => ?_
  have kept := (relied.consistent consistent).step effect trivial
  refine query_bind_safe (fun _ => trivial) (fun _ _ _ => nofun) ?_
  intro later latest last relied ran
  cases ran
  cases found : later.latest target with
  | none =>
      intro end_ _ deliveryVersion resolved
      cases resolved
      intro version positive before
      exact absurd before (not_lt.2 positive)
  | some row =>
      have member := mem_of.1 (List.argmax_mem found)
      have turn := (relied.consistent kept).turns row member.1
      obtain ⟨inside, rfl⟩ := member
      simp only [Option.map_some]
      cases status : row.status with
      | sent | sending => exact fun _ _ _ => nofun
      | queued => exact absurd status ((relied.consistent kept).started row inside)
      | failed =>
          intro last precedes deliveryVersion resolved
          cases resolved
          intro version positive before
          rcases lt_or_eq_of_le (le_of_lt_nextVersion positive before) with
            earlier | rfl
          · exact (turn version positive earlier).mono precedes.successor
          · exact Database.Failed.mono ⟨row, inside, rfl, rfl, status⟩
              precedes.successor

theorem claimDelivery_safe (turn : db.Turn key) :
    (claimDelivery key).Safe discipline
      (fun db result => result = .ok () → db.Claimed key) db := by
  refine tryQuery_bind_safe (fun _ => trivial)
    fun middle reply after relied effect => ?_
  have kept : after.Turn key :=
    (turn.mono relied.successor).mono fun row member => effect.successor member
  intro later precedes
  refine ⟨kept.mono precedes.successor, fun reply last executes => ?_⟩
  cases reply with
  | error error => exact fun _ _ => nofun
  | ok inserted =>
      rcases insertDelivery_ok (Executes.ok executes) with
        ⟨rfl, _, _⟩ | ⟨rfl, _, rfl⟩
      · change Program.Safe discipline _
          (query (.deliveryState key) >>= fun existing => _) last
        refine query_bind_safe (fun _ => trivial) (fun _ _ => nofun)
          fun _ existing _ _ _ => ?_
        cases existing with
        | none | some => exact fun _ _ => nofun
      · exact fun _ reached _ => Database.Claimed.mono
          ⟨_, List.mem_append_right _ (List.mem_singleton.2 rfl), rfl⟩
          reached.successor

theorem deliver_safe (turn : db.Turn key)
    (sender : Except DeliveryError (Option Text)) :
    (deliver key sender).Safe discipline
      (fun db result => ∀ outcome, result = .ok outcome →
        outcome = .sent ∧ db.SentAs key) db := by
  refine (claimDelivery_safe turn).bind (fun _ _ _ _ => nofun)
    fun last _ claimed => ?_
  cases sender with
  | ok providerMessageId =>
      refine query_bind_safe (fun _ => trivial) (fun _ _ _ => nofun)
        fun later count after relied ran => ?_
      intro end_ reached outcome same
      cases same
      have sent := finishDelivery_sent ran
        ((claimed rfl).mono relied.successor)
      exact ⟨rfl, sent.mono reached.successor⟩
  | error error =>
      exact query_bind_safe (fun _ => trivial) (fun _ _ _ => nofun)
        fun _ _ _ _ _ _ _ _ => nofun

theorem resolveAndDeliver_safe (target : Target)
    (sender : Except DeliveryError (Option Text)) (consistent : db.Consistent) :
    (resolveAndDeliver target sender).Safe discipline
      (fun db result => ∀ outcome, result = .ok outcome → db.SentTo target) db :=
  (resolveDeliveryVersion_safe target consistent).bind (fun _ _ _ _ => nofun)
    fun _ deliveryVersion turn =>
      (deliver_safe (turn deliveryVersion rfl) sender).mono
        fun _ _ ensured outcome same => ⟨deliveryVersion, (ensured outcome same).2⟩

theorem telegramExecutionReport_safe (executionId chatId : Text)
    (sender : Except DeliveryError (Option Text)) (consistent : db.Consistent) :
    (telegramExecutionReport executionId chatId sender).Safe discipline
      (fun _ _ => True) db := by
  refine query_bind_safe (fun _ => trivial) (fun _ _ => trivial) ?_
  intro later alreadySent after relied ran
  cases ran
  split
  · exact fun _ _ => trivial
  · exact (resolveAndDeliver_safe _ sender (relied.consistent consistent)).mono
      fun _ _ _ => trivial

/-- An e-mail request that succeeds finds a sent row, or has sent it. -/
theorem deliverExecutionEmail_safe (executionId recipient : Text)
    (sender : Except DeliveryError (Option Text)) (consistent : db.Consistent) :
    (deliverExecutionEmail executionId recipient sender).Safe discipline
      (fun db result => ∀ outcome, result = .ok outcome →
        db.SentTo ⟨executionId, .email, recipient⟩) db := by
  refine query_bind_safe (fun _ => trivial) (fun _ _ _ => nofun) ?_
  intro later alreadySent after relied ran
  cases ran
  split
  · rename_i found
    exact fun _ reached _ _ => (sentTo_of_any found).mono reached.successor
  · refine (resolveDeliveryVersion_safe _ (relied.consistent consistent)).bind
      (fun _ _ _ _ => nofun) fun state deliveryVersion turn => ?_
    refine query_bind_safe (fun _ => trivial) (fun _ _ _ => nofun) ?_
    intro last existing after precedes ran
    cases ran
    split
    · rename_i found
      exact fun _ reached _ _ =>
        (sentTo_of_existing (fun _ => rfl) found).mono reached.successor
    · exact (deliver_safe
        ((turn deliveryVersion rfl).mono precedes.successor) sender).mono
          fun _ _ ensured outcome same =>
            ⟨deliveryVersion, (ensured outcome same).2⟩

theorem discard_safe {program : Task Result}
    (safe : program.Safe discipline ensures db) :
    program.discard.Safe discipline (fun _ _ => True) db :=
  safe.bind (fun _ _ _ => trivial) fun _ _ _ _ _ => trivial

end Programs

theorem guarantees : Guarantees machine discipline Database.Consistent where
  executes executes := executes
  operation := by
    intro db operation consistent _
    cases operation with
    | deliver target sender =>
        exact discard_safe (resolveAndDeliver_safe target sender consistent)
    | email executionId recipient sender =>
        exact discard_safe
          (deliverExecutionEmail_safe executionId recipient sender consistent)
    | telegram executionId chatId sender =>
        exact discard_safe
          (telegramExecutionReport_safe executionId chatId sender consistent)
  statement := by
    intro db statement consistent required
    have effect := answer_effect db statement
    exact ⟨consistent.step effect required,
      fun _ => consistent.step effect required,
      fun row member => effect.successor member⟩
  time := by
    intro db duration consistent
    have kept : (machine.elapse db duration).Consistent :=
      ⟨consistent.keys, consistent.started, consistent.positive,
        fun row member => ⟨(consistent.accepted row member).known,
          (consistent.accepted row member).short,
          (consistent.accepted row member).present⟩,
        consistent.turns⟩
    exact ⟨kept, fun _ => kept, fun row member => ⟨row, member, .refl row⟩⟩

theorem sound_start (executions : List Text) :
    Sound discipline Database.Consistent (start executions) where
  inv := by
    constructor <;> simp [start]
  safe := by
    intro process program running
    cases running

theorem Reachable.sound {config : Configuration} (reachable : Reachable config) :
    Sound discipline Database.Consistent config := by
  rcases reachable with ⟨executions, run⟩
  exact (sound_start executions).run guarantees run

end FireCrow.Orchestrator.Delivery
