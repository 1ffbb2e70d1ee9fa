import FireCrow.Orchestrator.DeliveryInvariants

/-!
# Safety of deliveries

A report is sent at most once to a destination, whatever the requests do, and
a delivery that crashed after its claim keeps its destination: the reclaim of
stale rows never takes effect.
-/

namespace FireCrow.Orchestrator

open FireCrow.Library

namespace Delivery

variable {config later : Configuration}

theorem run_precedes (sound : Sound discipline Database.Consistent config)
    (run : machine.Run anyStep config later) :
    config.state.Precedes later.state := by
  refine Sound.keeps guarantees (fun db => config.state.Precedes db) sound ?_ ?_
    run (.refl config.state)
  · intro db process statement reply consistent required _ precedes
    exact precedes.trans (guarantees.statement consistent required).2
  · intro db duration consistent precedes
    exact precedes.trans (guarantees.time duration consistent).2

variable {db : Database} {row : AuditDelivery}

theorem Database.Consistent.delivery?_eq (consistent : db.Consistent)
    (member : row ∈ db.deliveries) :
    db.delivery? row.toDeliveryKey = some row := by
  cases found : db.delivery? row.toDeliveryKey with
  | none => exact absurd rfl (delivery?_none.1 found row member)
  | some other =>
      rcases delivery?_mem found with ⟨inside, same⟩
      rw [List.inj_on_of_nodup_map consistent.keys inside member same]

theorem Database.Consistent.delivery_unique
    (consistent : db.Consistent) {left right : AuditDelivery}
    (inLeft : left ∈ db.deliveries) (inRight : right ∈ db.deliveries)
    (same : left.toDeliveryKey = right.toDeliveryKey) : left = right :=
  List.inj_on_of_nodup_map consistent.keys inLeft inRight same

variable {key : DeliveryKey}

/-- A row whose version is not the last one failed. -/
theorem Database.Consistent.failed_before (consistent : db.Consistent)
    (member : row ∈ db.deliveries) (turn : db.Turn key)
    (target : row.toTarget = key.toTarget)
    (before : row.deliveryVersion < key.deliveryVersion) :
    row.status = .failed := by
  rcases turn row.deliveryVersion (consistent.positive row member) before with
    ⟨other, inside, of, numbered, failed⟩
  have same : other.toDeliveryKey = row.toDeliveryKey := by
    rw [DeliveryKey.mk.injEq]
    exact ⟨of.trans target.symm, numbered⟩
  exact consistent.delivery_unique inside member same ▸ failed

theorem Database.Consistent.sent_unique
    (consistent : db.Consistent) {left right : AuditDelivery}
    (inLeft : left ∈ db.deliveries) (inRight : right ∈ db.deliveries)
    (target : left.toTarget = right.toTarget)
    (sentLeft : left.status = .sent) (sentRight : right.status = .sent) :
    left = right := by
  rcases lt_trichotomy left.deliveryVersion right.deliveryVersion with
    before | same | after
  · have failed := consistent.failed_before inLeft
      (consistent.turns right inRight) target before
    rw [sentLeft] at failed
    cases failed
  · refine consistent.delivery_unique inLeft inRight ?_
    rw [DeliveryKey.mk.injEq]
    exact ⟨target, same⟩
  · have failed := consistent.failed_before inRight
      (consistent.turns left inLeft) target.symm after
    rw [sentRight] at failed
    cases failed

/-- A version is opened once all others of its target failed. -/
theorem Database.Consistent.opened_after_failures
    (consistent : db.Consistent) (turn : db.Turn key)
    (opens : db.Opens key) (member : row ∈ db.deliveries)
    (target : row.toTarget = key.toTarget) : row.status = .failed := by
  rcases lt_trichotomy row.deliveryVersion key.deliveryVersion with
    before | same | after
  · exact consistent.failed_before member turn target before
  · refine absurd ?_ (delivery?_none.1 opens.free row member)
    rw [DeliveryKey.mk.injEq]
    exact ⟨target, same⟩
  · rcases consistent.turns row member key.deliveryVersion opens.positive after
      with ⟨other, inside, of, numbered, _⟩
    refine absurd ?_ (delivery?_none.1 opens.free other inside)
    rw [DeliveryKey.mk.injEq]
    exact ⟨of.trans target, numbered⟩

/-- A claim that won. -/
def Wins (key : DeliveryKey)
    (event : Event Statement Statement.Reply Operation) : Prop :=
  ∃ process, event = .executed process (.insertDelivery key) (.ok (1 : Nat))

/-- What a claim that won did. -/
theorem Wins.opens {event : Event _ _ _}
    (wins : Wins key event) (step : machine.Step config event later) :
    config.state.Opens key ∧
      config.state.newDelivery key ∈ later.state.deliveries := by
  rcases wins with ⟨process, rfl⟩
  cases step with
  | execute running executes =>
      rcases insertDelivery_ok (Executes.ok executes) with
        ⟨none, _⟩ | ⟨_, opens, rfl⟩
      · cases none
      · exact ⟨opens, List.mem_append_right _ (List.mem_singleton.2 rfl)⟩

/-- The rows of a target that were sent. -/
def Database.sentTo (db : Database) (target : Target) : List AuditDelivery :=
  (db.of target).filter fun row => row.status = .sent

theorem Database.Consistent.sentTo_le_one
    (consistent : db.Consistent) (target : Target) :
    (db.sentTo target).length ≤ 1 := by
  have distinct : (db.sentTo target).Nodup :=
    (List.Nodup.of_map _ consistent.keys).sublist
      (List.filter_sublist.trans List.filter_sublist)
  have sent : ∀ row ∈ db.sentTo target, row ∈ db.deliveries ∧
      row.toTarget = target ∧ row.status = .sent := by
    intro row member
    rcases List.mem_filter.1 member with ⟨inside, status⟩
    exact ⟨(mem_of.1 inside).1, (mem_of.1 inside).2, of_decide_eq_true status⟩
  match rows : db.sentTo target with
  | [] => exact Nat.zero_le 1
  | [_] => exact le_refl 1
  | first :: second :: rest =>
      rw [rows] at distinct sent
      have left := sent first (by simp)
      have right := sent second (by simp)
      have same := consistent.sent_unique left.1 right.1
        (left.2.1.trans right.2.1.symm) left.2.2 right.2.2
      simp [same] at distinct

section

variable (sound : Sound discipline Database.Consistent config)
include sound

/-- A row that a run moves on keeps its key. -/
theorem run_successor (run : machine.Run anyStep config later)
    (found : config.state.delivery? key = some row) :
    ∃ now, later.state.delivery? key = some now ∧ row.Continues now := by
  rcases delivery?_mem found with ⟨member, rfl⟩
  have precedes := run_precedes sound run
  rcases precedes.successor row member with ⟨now, inside, continues⟩
  have same := (precedes.consistent sound.inv).delivery?_eq inside
  exact ⟨now, continues.key ▸ same, continues⟩

theorem wins_once {first second : Event _ _ _} {won after : Configuration}
    (claim : machine.Step config first won) (wins : Wins key first)
    (run : machine.Run anyStep won later)
    (step : machine.Step later second after) : ¬ Wins key second := by
  intro again
  have opened := (wins.opens claim).2
  have precedes := run_precedes (sound.step guarantees claim) run
  rcases precedes.successor _ opened with ⟨now, inside, continues⟩
  exact delivery?_none.1 (again.opens step).1.free now inside continues.key

/-- A row that a step adds comes after failures only. -/
theorem step_opens
    {event : Event _ _ _} (step : machine.Step config event later)
    (member : row ∈ later.state.deliveries)
    (new : config.state.delivery? row.toDeliveryKey = none) :
    ∀ current ∈ config.state.of row.toTarget, current.status = .failed := by
  have absent := delivery?_none.1 new
  cases step with
  | call | crash | elapse => exact absurd rfl (absent row member)
  | @execute process statement next reply after running executes =>
      have turn := (sound.safe process _ running _
        (Database.Precedes.refl _)).1
      rcases (Executes.effect executes).mem member with
        ⟨old, inside, continues⟩ | ⟨key, rfl, opens, rfl⟩
      · exact absurd continues.key.symm (absent old inside)
      · intro current found
        rcases mem_of.1 found with ⟨inside, target⟩
        exact sound.inv.opened_after_failures turn opens inside target

end

/-! ## A schedule -/

def target : Target := ⟨"execution-1", .email, "user@example.com"⟩

/-- Two requests race for a version; the one that wins fails, and another
delivers the next version. -/
def raced : List (Action Operation) :=
  [.call 0 (.deliver target (.error .timeout)),
    .call 1 (.deliver target (.error .timeout)), .advance 0 3, .advance 1 4,
    .advance 0 2, .advance 1 1, .call 2 (.email "execution-1" "user@example.com" (.ok none)),
    .advance 2 9]

/-- A request crashes once it has claimed its version, and an hour passes. -/
def crashed : List (Action Operation) :=
  [.call 0 (.deliver target (.ok none)), .advance 0 4, .crash 0,
    .wait (60 * 60 * 1000000)]

def allowed (_ : Database) (_ : Statement) : Bool := true

theorem allowed_admits : Admits machine allowed anyStep := by
  constructor <;> intros <;> trivial

/-- What a schedule reaches. -/
def reached (actions : List (Action Operation)) : Configuration :=
  machine.schedule allowed (start ["execution-1"]) actions

theorem reached_reachable (actions : List (Action Operation)) :
    Reachable (reached actions) :=
  ⟨_, allowed_admits.schedule _ actions⟩

/-! ## Resolving alone -/

/-- What `resolve_delivery_version` returns when nothing comes in between. -/
def Database.resolve (db : Database) (target : Target) :
    Except AppError Int × Database :=
  (resolveDeliveryVersion target).alone machine.answer db

/-- What `claim_delivery` returns when nothing comes in between. -/
def Database.claim (db : Database) (key : DeliveryKey) :
    Except AppError Unit × Database :=
  (claimDelivery key).alone machine.answer db

/-- Resolving the version leaves no stale row of the target, moves the ones
that there were to `failed`, returns a version that can be claimed, and does
return one where all deliveries failed. -/
structure Database.Unblocks (db : Database) (target : Target) : Prop where
  unstale : ∀ row ∈ (db.resolve target).2.of target,
    (db.resolve target).2.stale row = false
  reclaimed : ∀ row ∈ db.of target, db.stale row = true →
    ∃ now ∈ (db.resolve target).2.of target,
      now.toDeliveryKey = row.toDeliveryKey ∧ now.status = .failed
  claimable : ∀ deliveryVersion,
    (db.resolve target).1 = .ok deliveryVersion →
      (db.resolve target).2.delivery? ⟨target, deliveryVersion⟩ = none ∧
        ((db.resolve target).2.claim ⟨target, deliveryVersion⟩).1 = .ok ()
  returns : (∀ row ∈ (db.resolve target).2.of target, row.status = .failed) →
    ∃ deliveryVersion, (db.resolve target).1 = .ok deliveryVersion

/-- The version that follows the latest row. -/
def followingVersion (target : Target) :
    Option AuditDelivery → Except AppError Int
  | none => .ok 1
  | some row =>
      match row.status with
      | .sent => .error (alreadyDelivered target)
      | .sending => .error (inProgress target)
      | _ => .ok (nextVersion row.deliveryVersion)

section Alone

variable {Result : Type} {db after : Database}

/-- What follows the answer to a statement. -/
theorem alone_query (statement : Statement) {answer : statement.Answer}
    (ran : statement.run db = .ok (answer, after))
    (next : statement.Answer → Task Result) :
    (query statement >>= next).alone machine.answer db =
      (next answer).alone machine.answer after := by
  have answered : machine.answer db statement = (.ok answer, after) := by
    simp only [machine, Statement.answer, ran]
  change ((Program.done (machine.answer db statement).1 : Task _).bind
    next).alone machine.answer (machine.answer db statement).2 = _
  rw [answered]
  rfl

theorem alone_query_error (statement : Statement) {error : DatabaseError}
    (refused : statement.run db = .error error)
    (next : statement.Answer → Task Result) :
    (query statement >>= next).alone machine.answer db =
      (.error (.database error), db) := by
  have answered : machine.answer db statement =
      (.error (.database error), db) := by
    simp only [machine, Statement.answer, refused]
  change ((Program.done (machine.answer db statement).1 : Task _).bind
    next).alone machine.answer (machine.answer db statement).2 = _
  rw [answered]
  rfl

/-- A statement whose error is ignored. -/
theorem alone_tryQuery (statement : Statement) {error : DatabaseError}
    (refused : statement.run db = .error error)
    (next : statement.Reply → Task Result) :
    (tryQuery statement >>= next).alone machine.answer db =
      (next (.error (.database error))).alone machine.answer db := by
  have answered : machine.answer db statement =
      (.error (.database error), db) := by
    simp only [machine, Statement.answer, refused]
  change (next (machine.answer db statement).1).alone machine.answer
    (machine.answer db statement).2 = _
  rw [answered]

end Alone

theorem resolve_eq (db : Database) (target : Target) :
    db.resolve target = (followingVersion target (db.latest target), db) := by
  refine (alone_tryQuery (.reclaimTarget target) (reclaim_eq db _) _).trans ?_
  refine (alone_query (.latest target) rfl _).trans ?_
  cases db.latest target with
  | none => rfl
  | some row =>
      simp only [Option.map_some, followingVersion]
      cases row.status <;> rfl

theorem claim_eq_ok : (db.claim key).1 = .ok () ↔ db.Opens key := by
  have reclaimed (next : (Statement.reclaimKey key).Reply → Task Unit) :=
    alone_tryQuery (.reclaimKey key) (reclaim_eq db _) next
  constructor
  · intro claimed
    cases ran : db.insertDelivery key with
    | error error =>
        have refused : db.claim key = (.error (.database error), db) :=
          (reclaimed _).trans (alone_query_error (.insertDelivery key) ran _)
        rw [refused] at claimed
        cases claimed
    | ok result =>
        obtain ⟨inserted, after⟩ := result
        rcases insertDelivery_ok ran with ⟨rfl, taken, same⟩ | ⟨_, opens, _⟩
        · rw [same] at ran
          rcases Option.isSome_iff_exists.1 taken with ⟨row, found⟩
          have refused : db.claim key =
              (.error (claimRefused key row.status), db) := by
            refine ((reclaimed _).trans
              (alone_query (.insertDelivery key) ran _)).trans ?_
            refine (alone_query (.deliveryState key) rfl _).trans ?_
            rw [found]
            rfl
          rw [refused] at claimed
          cases claimed
        · exact opens
  · intro opens
    have claimed : db.claim key = (.ok (), { db with
        deliveries := db.deliveries ++ [db.newDelivery key] }) :=
      (reclaimed _).trans
        (alone_query (.insertDelivery key) (insertDelivery_opens opens) _)
    rw [claimed]

theorem Database.Consistent.unblocks_iff
    (consistent : db.Consistent) (target : Target) :
    db.Unblocks target ↔
      (∀ row ∈ db.of target, db.stale row = false) ∧
        (db.of target = [] → db.Accepts target) ∧
        ∀ row, db.latest target = some row → row.status = .failed →
          row.deliveryVersion ≠ 2 ^ 31 - 1 := by
  have resolved := resolve_eq db target
  have none_iff : db.latest target = none ↔ db.of target = [] :=
    List.argmax_eq_none
  constructor
  · rintro ⟨unstale, _, claimable, _⟩
    simp only [resolved] at unstale claimable
    refine ⟨unstale, fun empty => ?_, fun row found failed last => ?_⟩
    · rw [none_iff.2 empty] at claimable
      exact (claim_eq_ok.1 (claimable 1 rfl).2).accepts
    · rw [found] at claimable
      simp only [followingVersion, failed, last, nextVersion] at claimable
      have positive : (1 : Int) ≤ -2 ^ 31 :=
        (claim_eq_ok.1 (claimable _ rfl).2).positive
      exact absurd positive (by decide)
  · rintro ⟨unstale, accepts, unused⟩
    refine ⟨?_, ?_, ?_, ?_⟩
    · simpa only [resolved] using unstale
    · intro row member stale
      rw [unstale row member] at stale
      cases stale
    · intro deliveryVersion returned
      rw [resolved] at returned ⊢
      dsimp only at returned ⊢
      suffices opens : db.Opens ⟨target, deliveryVersion⟩ from
        ⟨opens.free, claim_eq_ok.2 opens⟩
      cases found : db.latest target with
      | none =>
          rw [found] at returned
          cases returned
          have empty := none_iff.1 found
          refine ⟨delivery?_none.2 fun row member same => ?_, le_refl _,
            accepts empty⟩
          have inside := mem_of.2 ⟨member, congrArg DeliveryKey.toTarget same⟩
          rw [empty] at inside
          cases inside
      | some row =>
          rw [found] at returned
          have inside := mem_of.1 (List.argmax_mem found)
          have positive := consistent.positive row inside.1
          cases status : row.status with
          | sent | sending =>
              simp only [followingVersion, status] at returned
              cases returned
          | queued => exact absurd status (consistent.started row inside.1)
          | failed =>
              simp only [followingVersion, status, nextVersion,
                if_neg (unused row found status)] at returned
              cases returned
              refine ⟨delivery?_none.2 fun other member same => ?_,
                le_trans positive (le_of_lt (Int.lt_succ _)),
                inside.2 ▸ consistent.accepted row inside.1⟩
              have le := List.le_of_mem_argmax
                (mem_of.2 ⟨member, congrArg DeliveryKey.toTarget same⟩) found
              rw [same] at le
              exact absurd le (not_le.2 (Int.lt_succ _))
    · intro failed
      rw [resolved] at failed ⊢
      cases found : db.latest target with
      | none => exact ⟨1, rfl⟩
      | some row =>
          simp only [followingVersion, failed row (List.argmax_mem found)]
          exact ⟨_, rfl⟩

/-- The reclaim of the row that the crashed request left is refused. -/
theorem crashed_not_unblocked : ¬ (reached crashed).state.Unblocks target := by
  intro unblocks
  have row : (reached crashed).state.of target =
      [{ toTarget := target
         deliveryVersion := 1
         status := .sending
         attempts := 1
         providerMessageId := none
         failureClass := none
         createdAt := 0
         completedAt := none }] := by
    decide
  have unstale := unblocks.unstale
  rw [resolve_eq, row] at unstale
  exact absurd (unstale _ (List.mem_singleton.2 rfl)) (by decide)

end Delivery

open Delivery

/-- In every run of any number of requests, crashes and lost connections
included, at most one claim of a key wins, a version is opened only while
every row of its target failed, at most one row of a target is sent, and a
sent row stays as it is. -/
theorem delivery_at_most_once {config : Configuration}
    (reachable : Reachable config) :
    (∀ key first won later second after,
        machine.Step config first won → Wins key first →
          machine.Run anyStep won later →
            machine.Step later second after → ¬ Wins key second) ∧
      (∀ event after row, machine.Step config event after →
        row ∈ after.state.deliveries →
          config.state.delivery? row.toDeliveryKey = none →
            ∀ current ∈ config.state.of row.toTarget,
              current.status = .failed) ∧
      (∀ target, (config.state.sentTo target).length ≤ 1) ∧
      ∀ later key row, machine.Run anyStep config later →
        config.state.delivery? key = some row → row.status = .sent →
          later.state.delivery? key = some row := by
  have sound := reachable.sound
  refine ⟨?_, ?_, sound.inv.sentTo_le_one, ?_⟩
  · intro key first won later second after claim wins run step
    exact wins_once sound claim wins run step
  · intro event after row step member new
    exact step_opens sound step member new
  · intro later key row run found sent
    rcases run_successor sound run found with ⟨now, row, continues⟩
    exact continues.frozen sent ▸ row

theorem delivery_at_most_once_raced :
    (reached raced).state.deliveries.map (fun row =>
        (row.deliveryVersion, row.status)) = [(1, .failed), (2, .sent)] ∧
      ((reached raced).state.sentTo target).length ≤ 1 :=
  ⟨by decide,
    (delivery_at_most_once (reached_reachable raced)).2.2.1 target⟩

/-- In every reachable state, resolving the version unblocks a target exactly
when no row of it is stale, the target can be stored and its versions are not
used up: the reclaim of stale rows never takes effect. -/
theorem delivery_unblocked_iff {config : Configuration}
    (reachable : Reachable config) (target : Target) :
    config.state.Unblocks target ↔
      (∀ row ∈ config.state.of target, config.state.stale row = false) ∧
        (config.state.of target = [] → config.state.Accepts target) ∧
        ∀ row, config.state.latest target = some row → row.status = .failed →
          row.deliveryVersion ≠ 2 ^ 31 - 1 :=
  reachable.sound.inv.unblocks_iff target

theorem delivery_unblocked_iff_raced :
    (reached raced).state.Unblocks target := by
  have latest : ((reached raced).state.latest target).map
      (fun row => row.deliveryVersion) = some 2 := by
    decide
  refine (delivery_unblocked_iff (reached_reachable raced) target).2
    ⟨by decide, fun empty => absurd empty (by decide), ?_⟩
  intro row found _
  rw [found, Option.map_some, Option.some.injEq] at latest
  rw [latest]
  decide

/-- A delivery that crashed after its claim blocks its target. -/
theorem crashed_delivery_blocks :
    Reachable (reached crashed) ∧
      ¬ (reached crashed).state.Unblocks target :=
  ⟨reached_reachable crashed, crashed_not_unblocked⟩

end FireCrow.Orchestrator
