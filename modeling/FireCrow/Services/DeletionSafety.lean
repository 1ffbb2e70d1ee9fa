import FireCrow.Services.DeletionInvariants

/-!
# Deletion follows the latest request

A run reads the requests first and acts on what it has read afterwards, and it
stops where a statement fails.  So a reminder is recorded on a request that
was cancelled in between, an older request outlives the cancelling of the
newest, and a request whose run stops after marking it is never taken up
again.
-/

namespace FireCrow.Services.Deletion

open FireCrow.Library

namespace Accounts

/-- The request of the user that was made last. -/
def newest? (accounts : Accounts) (userId : Text) : Option DeletionRequest :=
  (accounts.requests.filter fun request => request.userId = userId).getLast?

/-- The user has cancelled the newest request. -/
def Withdrawn (accounts : Accounts) (userId : Text) : Prop :=
  ∃ request ∈ accounts.newest? userId, request.status = .cancelled

/-- The rows of the user. -/
def account (accounts : Accounts) (userId : Text) : List UserRow :=
  accounts.users.filter fun user => user.id = userId

end Accounts

/-! ## Orderly runs -/

/-- Where a statement does no harm: no run marks a request of a user who has
cancelled the newest one, nobody cancels the newest request while a run is
between marking another one and marking the user, and a reminder is recorded
before its request is cancelled or deleted. -/
def Statement.Timely (accounts : Accounts) : Statement → Prop
  | .cancelRequest userId token => ∀ newest ∈ accounts.newest? userId,
      newest.cancellationToken = token → newest.status = .requested →
        accounts.Active userId → ∀ request ∈ accounts.requests,
          request.userId = userId → request.status ≠ .deleted
  | .markRequestDeleted requestId => ∀ request ∈ accounts.requests,
      request.id = requestId → request.status = .requested →
        accounts.Active request.userId → ¬ accounts.Withdrawn request.userId
  | .recordReminder requestId => ∀ request ∈ accounts.requests,
      request.id = requestId → request.status = .requested
  | .ended => accounts.inFlight = []
  | _ => True

/-- Every statement that changes a row is timely; and when a run ends, no run
has stopped, or still stands, between marking a request and revoking the
sessions of its user. -/
def Orderly : Condition Accounts Statement Statement.Reply Operation
  | accounts, .executed _ .ended _, _ => Statement.ended.Timely accounts
  | accounts, .executed _ statement _, next =>
      next ≠ accounts → statement.Timely accounts
  | _, _, _ => True

/-! ## The newest request -/

section Newest

variable {accounts after : Accounts} {userId : Text}

theorem newest?_eq_some {request : DeletionRequest}
    (newest : request ∈ accounts.newest? userId) :
    request ∈ accounts.requests ∧ request.userId = userId := by
  have member := List.mem_of_getLast? newest
  rcases List.mem_filter.1 member with ⟨inside, owner⟩
  exact ⟨inside, of_decide_eq_true owner⟩

theorem filter_set {selects : DeletionRequest → Bool}
    {change : DeletionRequest → DeletionRequest}
    (keeps : ∀ request, (change request).userId = request.userId)
    (requests : List DeletionRequest) (userId : Text) :
    (Table.set selects change requests).filter
        (fun request => request.userId = userId) =
      Table.set selects change
        (requests.filter fun request => request.userId = userId) := by
  unfold Table.set
  rw [List.filter_map]
  congr 1
  apply List.filter_congr
  intro request _
  simp only [Function.comp_apply]
  split
  · rw [keeps]
  · rfl

theorem newest?_set {selects : DeletionRequest → Bool}
    {change : DeletionRequest → DeletionRequest} {inFlight : List Text}
    (keeps : ∀ request, (change request).userId = request.userId) :
    ({ accounts with
      requests := Table.set selects change accounts.requests
      inFlight := inFlight } : Accounts).newest? userId =
      (accounts.newest? userId).map fun request =>
        if selects request then change request else request := by
  unfold Accounts.newest?
  rw [filter_set keeps, Table.set, List.getLast?_map]

theorem newest?_append (added : DeletionRequest) :
    ({ accounts with requests := accounts.requests ++ [added] } :
      Accounts).newest? userId =
      if added.userId = userId then some added
      else accounts.newest? userId := by
  unfold Accounts.newest?
  rw [List.filter_append]
  by_cases mine : added.userId = userId
  · simp [mine]
  · simp [mine]

end Newest

/-! ## A deleted request is heeded -/

/-- Where the user of a deleted request is not marked yet, the newest request
is not cancelled. -/
def Accounts.Heeded (accounts : Accounts) : Prop :=
  ∀ request ∈ accounts.requests, request.status = .deleted →
    accounts.Active request.userId → ¬ accounts.Withdrawn request.userId

section Heeded

variable {accounts after : Accounts}

theorem Accounts.Heeded.update (heeded : accounts.Heeded)
    {selects : DeletionRequest → Bool}
    {change : DeletionRequest → DeletionRequest} {inFlight : List Text}
    (keeps : ∀ request, (change request).userId = request.userId)
    (cancels : ∀ userId, ∀ newest ∈ accounts.newest? userId,
      selects newest = true → (change newest).status = .cancelled →
        newest.status ≠ .cancelled → accounts.Active userId →
          ∀ request ∈ accounts.requests, request.userId = userId →
            (if selects request then change request else request).status ≠
              .deleted)
    (marks : ∀ request ∈ accounts.requests, selects request = true →
      (change request).status = .deleted → request.status ≠ .deleted →
        accounts.Active request.userId →
          ¬ accounts.Withdrawn request.userId) :
    ({ accounts with
      requests := Table.set selects change accounts.requests
      inFlight := inFlight } : Accounts).Heeded := by
  intro request member deleted active withdrawn
  rcases List.mem_map.1 member with ⟨earlier, inside, rfl⟩
  have owner : (if selects earlier then change earlier else earlier).userId =
      earlier.userId := by
    split
    · exact keeps earlier
    · rfl
  rw [owner] at active withdrawn
  have was : accounts.Active earlier.userId := active
  rcases withdrawn with ⟨newest, found, cancelled⟩
  rw [newest?_set keeps] at found
  rcases Option.map_eq_some_iff.1 found with ⟨before, newest?, rfl⟩
  by_cases already : before.status = .cancelled
  · have before : accounts.Withdrawn earlier.userId :=
      ⟨before, newest?, already⟩
    by_cases done : earlier.status = .deleted
    · exact heeded earlier inside done was before
    · split at deleted
      · rename_i selected
        exact marks earlier inside selected deleted done was before
      · exact done deleted
  · split at cancelled
    · rename_i selected
      exact cancels earlier.userId before newest? selected cancelled already was
        earlier inside rfl deleted
    · exact already cancelled

theorem Accounts.Heeded.step {statement : Statement}
    {answer : statement.Answer} (heeded : accounts.Heeded)
    (timely : statement.Timely accounts)
    (success : statement.run accounts = .ok (answer, after)) :
    after.Heeded := by
  cases statement with
  | utcNow => cases success; exact heeded
  | insertRequest requestId userId token deadline =>
      rcases insertRequest_eq_ok success with
        ⟨_, added, _, _, status, _, rfl⟩
      intro request member deleted active withdrawn
      rcases withdrawn with ⟨newest, found, cancelled⟩
      rw [newest?_append] at found
      rcases List.mem_append.1 member with old | new
      · split at found
        · cases found
          rw [status] at cancelled
          cases cancelled
        · exact heeded request old deleted active ⟨newest, found, cancelled⟩
      · rcases List.mem_singleton.1 new with rfl
        rw [status] at deleted
        cases deleted
  | cancelRequest userId token =>
      cases success
      apply heeded.update
      · exact fun _ => rfl
      · intro owner newest found selected _ _ active request inside same deleted
        simp only [Bool.and_eq_true, decide_eq_true_eq] at selected
        have mine := (newest?_eq_some found).2.symm.trans selected.2.1
        subst mine
        refine timely newest found selected.1 selected.2.2 active request inside
          same ?_
        split at deleted
        · cases deleted
        · exact deleted
      · intro _ _ _ deleted
        cases deleted
  | selectDue now => cases success; exact heeded
  | markRequestDeleted requestId =>
      cases success
      apply heeded.update
      · exact fun _ => rfl
      · intro _ _ _ _ cancelled
        cases cancelled
      · intro request inside selected _ _ active
        simp only [Accounts.marks, Bool.and_eq_true, decide_eq_true_eq]
          at selected
        exact timely request inside selected.1 selected.2 active
  | markUserDeleted userId =>
      have precedes := Statement.run_precedes success
      cases success
      intro request member deleted active withdrawn
      refine heeded request member deleted ?_ withdrawn
      by_contra inactive
      exact precedes.inactive inactive active
  | revokeSessions userId requestId => cases success; exact heeded
  | recipient userId =>
      simp only [Statement.run] at success
      cases found : accounts.recipient userId with
      | error error => rw [found] at success; cases success
      | ok row => rw [found] at success; cases success; exact heeded
  | selectReminders | email => cases success; exact heeded
  | recordReminder requestId =>
      cases success
      apply heeded.update
      · exact fun _ => rfl
      · exact fun _ _ _ _ cancelled open' => absurd cancelled open'
      · exact fun _ _ _ deleted undeleted => absurd deleted undeleted
  | ended => cases success; exact heeded

end Heeded

/-! ## A cancelled account is kept -/

/-- The ids of the requests of a user, in the order in which they were made. -/
def Accounts.requestIds (accounts : Accounts) (userId : Text) : List Text :=
  (accounts.requests.filter fun request => request.userId = userId).map
    DeletionRequest.id

section Kept

variable {accounts after : Accounts} {userId : Text}

variable {change : DeletionRequest → DeletionRequest}
    {selects : DeletionRequest → Bool} {inFlight : List Text}

theorem requestIds_set
    (keeps : ∀ request, (change request).userId = request.userId)
    (ids : ∀ request, (change request).id = request.id) :
    ({ accounts with
      requests := Table.set selects change accounts.requests
      inFlight := inFlight } : Accounts).requestIds userId =
      accounts.requestIds userId := by
  unfold Accounts.requestIds
  rw [filter_set keeps, Table.set, List.map_map]
  apply List.map_congr_left
  intro request _
  simp only [Function.comp_apply]
  split
  · exact ids request
  · rfl

theorem withdrawn_set
    (keeps : ∀ request, (change request).userId = request.userId)
    (stays : ∀ request, selects request = true → request.status = .cancelled →
      (change request).status = .cancelled)
    (withdrawn : accounts.Withdrawn userId) :
    ({ accounts with
      requests := Table.set selects change accounts.requests
      inFlight := inFlight } : Accounts).Withdrawn userId := by
  rcases withdrawn with ⟨newest, found, cancelled⟩
  refine ⟨if selects newest then change newest else newest, ?_, ?_⟩
  · rw [newest?_set keeps]
    exact Option.map_eq_some_iff.2 ⟨newest, found, rfl⟩
  · split
    · rename_i selected
      exact stays newest selected cancelled
    · exact cancelled

/-- What a statement leaves of a user who has cancelled: nothing changes, or a
newer request has been made. -/
structure Accounts.Leaves (accounts after : Accounts) (userId : Text) :
    Prop where
  ids : accounts.requestIds userId <+: after.requestIds userId
  kept : after.requestIds userId = accounts.requestIds userId →
    accounts.Withdrawn userId →
      after.Withdrawn userId ∧ after.account userId = accounts.account userId

theorem Accounts.Leaves.refl (accounts : Accounts) (userId : Text) :
    accounts.Leaves accounts userId :=
  ⟨List.prefix_refl _, fun _ withdrawn => ⟨withdrawn, rfl⟩⟩

theorem Accounts.Leaves.of_set
    (keeps : ∀ request, (change request).userId = request.userId)
    (ids : ∀ request, (change request).id = request.id)
    (stays : ∀ request, selects request = true → request.status = .cancelled →
      (change request).status = .cancelled) :
    accounts.Leaves { accounts with
      requests := Table.set selects change accounts.requests
      inFlight := inFlight } userId where
  ids := by
    rw [requestIds_set keeps ids]
  kept := fun _ withdrawn => ⟨withdrawn_set keeps stays withdrawn, rfl⟩

/-- A required statement keeps the account of a user who has cancelled. -/
theorem Accounts.Heeded.leaves {statement : Statement}
    {answer : statement.Answer} (heeded : accounts.Heeded)
    (regular : accounts.Regular) (required : statement.Required accounts)
    (success : statement.run accounts = .ok (answer, after)) :
    accounts.Leaves after userId := by
  cases statement with
  | utcNow | selectDue | selectReminders | email | ended => cases success; exact .refl _ _
  | insertRequest requestId owner token deadline =>
      rcases insertRequest_eq_ok success with ⟨_, added, _, _, _, _, rfl⟩
      have ids : ({ accounts with
          requests := accounts.requests ++ [added] } : Accounts).requestIds
            userId = accounts.requestIds userId ++
              if added.userId = userId then [added.id] else [] := by
        unfold Accounts.requestIds
        rw [List.filter_append, List.map_append]
        by_cases mine : added.userId = userId <;> simp [mine]
      refine ⟨ids ▸ List.prefix_append _ _, fun same withdrawn => ⟨?_, rfl⟩⟩
      rw [ids] at same
      have other : added.userId ≠ userId := by
        intro mine
        rw [if_pos mine] at same
        simp at same
      rcases withdrawn with ⟨newest, found, cancelled⟩
      refine ⟨newest, ?_, cancelled⟩
      rw [newest?_append, if_neg other]
      exact found
  | cancelRequest owner token =>
      cases success
      exact .of_set (fun _ => rfl) (fun _ => rfl) (fun _ _ _ => rfl)
  | markRequestDeleted requestId =>
      cases success
      refine .of_set (fun _ => rfl) (fun _ => rfl) ?_
      intro request selected cancelled
      simp [Accounts.marks, cancelled] at selected
  | markUserDeleted owner =>
      cases success
      rcases required with ⟨requestId, ⟨named, inNamed, id, belongs⟩,
        ⟨deleted, inDeleted, same, status⟩⟩
      have equal := regular.same inNamed inDeleted (id.trans same.symm)
      subst equal
      refine ⟨List.prefix_refl _, fun _ withdrawn => ⟨withdrawn, ?_⟩⟩
      show ((accounts.users.map _).filter _) = accounts.users.filter _
      rw [List.filter_map]
      have kept : ∀ user ∈ accounts.users, user.id = userId →
          (user.id = owner && user.deletedAt.isNone) = false := by
        intro user member mine
        by_contra marks
        simp only [Bool.not_eq_false, Bool.and_eq_true, decide_eq_true_eq,
          Option.isNone_iff_eq_none] at marks
        have owned := belongs.trans (marks.1.symm.trans mine)
        exact heeded named inNamed status
          ⟨user, member, mine.trans owned.symm, marks.2⟩ (owned ▸ withdrawn)
      have rows : accounts.users.filter ((fun user : UserRow =>
          decide (user.id = userId)) ∘ fun user =>
            if (user.id = owner && user.deletedAt.isNone) then
              { user with deletedAt := some accounts.now } else user) =
          accounts.users.filter fun user => user.id = userId := by
        apply List.filter_congr
        intro user _
        simp only [Function.comp_apply]
        split <;> rfl
      rw [rows]
      apply (List.map_congr_left ?_).trans (List.map_id _)
      intro user member
      rcases List.mem_filter.1 member with ⟨inside, mine⟩
      have stays := kept user inside (of_decide_eq_true mine)
      exact if_neg (Bool.eq_false_iff.1 stays)
  | revokeSessions owner requestId =>
      cases success
      exact ⟨List.prefix_refl _, fun _ withdrawn => ⟨withdrawn, rfl⟩⟩
  | recipient owner =>
      simp only [Statement.run] at success
      cases found : accounts.recipient owner with
      | error error => rw [found] at success; cases success
      | ok row => rw [found] at success; cases success; exact .refl _ _
  | recordReminder requestId =>
      cases success
      exact .of_set (fun _ => rfl) (fun _ => rfl)
        (fun _ _ cancelled => cancelled)

/-- The same newest request means that no request was made in between. -/
theorem requestIds_eq {later newest : DeletionRequest} (regular : after.Regular)
    (ids : accounts.requestIds userId <+: after.requestIds userId)
    (before : accounts.newest? userId = some newest)
    (found : after.newest? userId = some later) (same : later.id = newest.id) :
    after.requestIds userId = accounts.requestIds userId := by
  rcases ids with ⟨added, extended⟩
  have last : (after.requestIds userId).getLast? = some newest.id := by
    unfold Accounts.requestIds
    rw [List.getLast?_map, ← same]
    exact congrArg (Option.map DeletionRequest.id) found
  have inside : newest.id ∈ accounts.requestIds userId :=
    List.mem_map_of_mem (List.mem_of_getLast? before)
  have unique : (after.requestIds userId).Nodup :=
    regular.ids.sublist (List.Sublist.map _ List.filter_sublist)
  rw [← extended] at last unique ⊢
  cases added with
  | nil => exact List.append_nil _
  | cons head tail =>
      rw [List.getLast?_append_of_ne_nil _ (List.cons_ne_nil _ _)] at last
      have again := List.mem_of_getLast? last
      exact absurd rfl ((List.nodup_append.1 unique).2.2 _ inside _ again)

end Kept

/-! ## Orderly runs follow the latest request -/

section Orderly

variable {settings : LifecycleSettings} {before after : Configuration}

/-- An answered statement in an orderly step is timely, or changes nothing. -/
theorem Orderly.timely {accounts next : Accounts} {process : Nat}
    {statement : Statement} {reply : statement.Reply}
    (orderly : Orderly accounts (.executed process statement reply) next) :
    next = accounts ∨ statement.Timely accounts := by
  by_cases same : next = accounts
  · exact .inl same
  · right
    cases statement with
    | ended => exact orderly
    | _ => exact orderly same

theorem orderly_keeps (kept : Accounts → Prop)
    (sound : Sound (discipline settings) Accounts.Regular before)
    (statement : ∀ {accounts after : Accounts} {statement : Statement}
      {answer : statement.Answer}, accounts.Regular →
        statement.Required accounts → statement.Timely accounts →
          statement.run accounts = .ok (answer, after) → kept accounts →
            kept after)
    (time : ∀ {accounts : Accounts} (duration : Nat), kept accounts →
      kept { accounts with now := accounts.now + duration })
    (run : (machine settings).Run Orderly before after)
    (start : kept before.state) : kept after.state := by
  apply sound.keeps (guarantees settings) kept ?_ ?_ run start
  · intro accounts process issued reply regular required orderly holds
    rcases (machine_runs settings).cases accounts issued with
      ⟨answer, after, success, answered⟩ | ⟨error, _, answered⟩
    · rw [answered] at orderly ⊢
      rcases orderly.timely with same | timely
      · exact same ▸ holds
      · exact statement regular required timely success holds
    · rw [answered]
      exact holds
  · exact fun duration _ holds => time duration holds

theorem orderly_heeded
    (sound : Sound (discipline settings) Accounts.Regular before)
    (run : (machine settings).Run Orderly before after)
    (heeded : before.state.Heeded) : after.state.Heeded := by
  apply orderly_keeps Accounts.Heeded sound ?_ ?_ run heeded
  · exact fun _ _ timely success heeded => heeded.step timely success
  · exact fun _ heeded => heeded

/-- An orderly run keeps the account of a user who has cancelled, until a newer
request is made. -/
theorem orderly_keeps_account {userId : Text}
    (sound : Sound (discipline settings) Accounts.Regular before)
    (run : (machine settings).Run Orderly before after)
    (heeded : before.state.Heeded) (withdrawn : before.state.Withdrawn userId) :
    before.state.requestIds userId <+: after.state.requestIds userId ∧
      (after.state.requestIds userId = before.state.requestIds userId →
        after.state.account userId = before.state.account userId) := by
  have kept := orderly_keeps (fun accounts => accounts.Heeded ∧
      before.state.requestIds userId <+: accounts.requestIds userId ∧
      (accounts.requestIds userId = before.state.requestIds userId →
        accounts.Withdrawn userId ∧
          accounts.account userId = before.state.account userId))
    sound ?_ ?_ run ⟨heeded, List.prefix_refl _, fun _ => ⟨withdrawn, rfl⟩⟩
  · exact ⟨kept.2.1, fun same => (kept.2.2 same).2⟩
  · rintro accounts later statement answer regular required timely success
      ⟨heeded, ids, stays⟩
    have leaves : accounts.Leaves later userId :=
        heeded.leaves regular required success
    refine ⟨heeded.step timely success, ids.trans leaves.ids, fun same => ?_⟩
    have earlier : accounts.requestIds userId =
        before.state.requestIds userId := by
      apply (ids.eq_of_length_le ?_).symm
      exact same ▸ leaves.ids.length_le
    rcases stays earlier with ⟨gone, account⟩
    rcases leaves.kept (same.trans earlier.symm) gone with ⟨still, rows⟩
    exact ⟨still, rows.trans account⟩
  · rintro accounts duration ⟨heeded, ids, stays⟩
    exact ⟨heeded, ids, stays⟩

/-- The reminders of a request that is no longer pending stay as they are. -/
def Reminded (request : DeletionRequest) (accounts : Accounts) : Prop :=
  (∃ later ∈ accounts.requests, later.id = request.id) ∧
    ∀ later ∈ accounts.requests, later.id = request.id →
      later.status ≠ .requested ∧
        later.lastReminderSent = request.lastReminderSent ∧
        later.reminderCount = request.reminderCount

theorem Reminded.update {request : DeletionRequest} {accounts : Accounts}
    (reminded : Reminded request accounts) {selects : DeletionRequest → Bool}
    {change : DeletionRequest → DeletionRequest} {inFlight : List Text}
    (ids : ∀ request, (change request).id = request.id)
    (pending : ∀ other ∈ accounts.requests, selects other = true →
      other.status ≠ .requested → (change other).status ≠ .requested ∧
        (change other).lastReminderSent = other.lastReminderSent ∧
        (change other).reminderCount = other.reminderCount) :
    Reminded request { accounts with
      requests := Table.set selects change accounts.requests
      inFlight := inFlight } := by
  rcases reminded with ⟨⟨present, inside, same⟩, unchanged⟩
  have id : ∀ other, (if selects other then change other else other).id =
      other.id := by
    intro other
    split
    · exact ids other
    · rfl
  refine ⟨⟨_, List.mem_map_of_mem inside, (id present).trans same⟩, ?_⟩
  intro later member named
  rcases List.mem_map.1 member with ⟨other, found, rfl⟩
  rw [id] at named
  rcases unchanged other found named with ⟨closed, last, count⟩
  split
  · rename_i selected
    rcases pending other found selected closed with ⟨still, same, equal⟩
    exact ⟨still, same.trans last, equal.trans count⟩
  · exact ⟨closed, last, count⟩

theorem orderly_reminded {request : DeletionRequest}
    (sound : Sound (discipline settings) Accounts.Regular before)
    (run : (machine settings).Run Orderly before after)
    (reminded : Reminded request before.state) :
    Reminded request after.state := by
  apply orderly_keeps (Reminded request) sound ?_ ?_ run reminded
  · intro accounts later statement answer regular _ timely success reminded
    cases statement with
    | utcNow | selectDue | markUserDeleted | revokeSessions | selectReminders
    | email | ended => cases success; exact reminded
    | insertRequest requestId userId token deadline =>
        rcases insertRequest_eq_ok success with
          ⟨fresh, added, named, _, _, _, rfl⟩
        rcases reminded with ⟨⟨present, inside, same⟩, unchanged⟩
        refine ⟨⟨present, List.mem_append_left _ inside, same⟩, ?_⟩
        intro later member equal
        rcases List.mem_append.1 member with old | new
        · exact unchanged later old equal
        · rcases List.mem_singleton.1 new with rfl
          exact absurd (same.trans (equal.symm.trans named))
            (fresh present inside)
    | cancelRequest | markRequestDeleted =>
        cases success
        apply reminded.update
        · exact fun _ => rfl
        · exact fun _ _ _ _ => ⟨by simp, rfl, rfl⟩
    | recipient userId =>
        simp only [Statement.run] at success
        cases found : accounts.recipient userId with
        | error error => rw [found] at success; cases success
        | ok row => rw [found] at success; cases success; exact reminded
    | recordReminder requestId =>
        cases success
        apply reminded.update
        · exact fun _ => rfl
        · intro other inside selected closed
          exact absurd (timely other inside (of_decide_eq_true selected)) closed
  · exact fun _ reminded => reminded

end Orderly

/-- In every orderly run a user is marked deleted only where some request,
never cancelled, has passed its deadline.  From there on the account of a user
who has cancelled the newest request does not change before a newer one is
made; no reminder is recorded on a request that is cancelled or deleted; and
once a run ends, the users of the deleted requests are marked and have no
session left. -/
theorem deletion_follows_requests {settings : LifecycleSettings}
    {users : List UserRow} {sessions : List UserSession}
    {before : Configuration}
    (unmarked : ∀ user ∈ users, user.deletedAt = none)
    (reachable : (machine settings).Run Orderly (opening users sessions)
      before) :
    (∀ user ∈ before.state.users, user.deletedAt ≠ none →
      ∃ request ∈ before.state.requests, request.userId = user.id ∧
        request.status ≠ .cancelled ∧ request.cancelledAt = none ∧
        request.deadline ≤ before.state.now) ∧
    (∀ after, (machine settings).Run Orderly before after →
      ∀ userId newest later, before.state.newest? userId = some newest →
        newest.status = .cancelled → after.state.newest? userId = some later →
          later.id = newest.id →
            after.state.account userId = before.state.account userId) ∧
    (∀ after, (machine settings).Run Orderly before after →
      ∀ request ∈ before.state.requests, request.status ≠ .requested →
        ∀ later ∈ after.state.requests, later.id = request.id →
          later.lastReminderSent = request.lastReminderSent ∧
            later.reminderCount = request.reminderCount) ∧
    ∀ process reply ended after,
      (machine settings).Step before (.executed process .ended reply) ended →
        Orderly before.state (.executed process .ended reply) ended.state →
          (machine settings).Run Orderly ended after →
            ∀ request ∈ before.state.requests, request.status = .deleted →
              after.state.Finished request.userId := by
  have sound := (opening_sound settings unmarked).run (guarantees settings)
    reachable
  have regular := sound.inv
  have heeded : before.state.Heeded := by
    apply orderly_heeded (opening_sound settings unmarked) reachable
    simp [Accounts.Heeded, opening]
  refine ⟨?_, ?_, ?_, ?_⟩
  · intro user member marked
    rcases regular.marked user member marked with
      ⟨request, inside, owner, deleted⟩
    have uncancelled : request.status ≠ .cancelled := by simp [deleted]
    exact ⟨request, inside, owner, uncancelled,
      regular.uncancelled request inside uncancelled,
      regular.overdue request inside deleted⟩
  · intro after run userId newest later found cancelled last same
    rcases orderly_keeps_account sound run heeded
      ⟨newest, found, cancelled⟩ with ⟨ids, kept⟩
    have arrived := sound.run (guarantees settings) run
    exact kept (requestIds_eq arrived.inv ids found last same)
  · intro after run request member closed later inside same
    have reminded : Reminded request before.state := by
      refine ⟨⟨request, member, rfl⟩, fun other found equal => ?_⟩
      have one := regular.same found member equal
      subst one
      exact ⟨closed, rfl, rfl⟩
    exact ((orderly_reminded sound run reminded).2 later inside same).2
  · intro process reply ended after step orderly run request member deleted
    have idle : before.state.inFlight = [] := orderly
    have finished := regular.finished request member deleted (by simp [idle])
    have unchanged : ended.state = before.state := by
      cases step with
      | execute _ executes => cases executes <;> rfl
    refine (sound.step (guarantees settings) step).keeps (guarantees settings)
      (fun accounts => accounts.Finished request.userId) ?_ ?_ run ?_
    · intro accounts _ statement reply holds required _ kept
      exact ((guarantees settings).statement holds required).2.finished kept
    · intro accounts duration holds kept
      exact ((guarantees settings).time duration holds).2.finished kept
    · exact unchanged ▸ finished

/-! ## Schedules -/

instance (accounts : Accounts) (userId : Text) :
    Decidable (accounts.Active userId) :=
  inferInstanceAs (Decidable (∃ user ∈ accounts.users,
    user.id = userId ∧ user.deletedAt = none))

instance (accounts : Accounts) (userId : Text) :
    Decidable (accounts.Withdrawn userId) :=
  inferInstanceAs (Decidable (∃ request ∈ accounts.newest? userId,
    request.status = .cancelled))

instance (accounts : Accounts) (statement : Statement) :
    Decidable (statement.Timely accounts) := by
  cases statement <;> unfold Statement.Timely <;> infer_instance

theorem timely_admits (settings : LifecycleSettings) :
    Admits (machine settings)
      (fun accounts statement => statement.Timely accounts) Orderly := by
  refine ⟨?_, trivial, trivial, fun _ => trivial⟩
  intro accounts process statement allowed
  have timely : statement.Timely accounts := of_decide_eq_true allowed
  cases statement with
  | ended => exact timely
  | _ => exact fun _ => timely

def periods : LifecycleSettings := ⟨100, 50⟩

/-- Two users, one of them with a session. -/
def twoUsers : Configuration :=
  opening
    [⟨"user-1", "ada", some "ada@example.org".toList, none⟩,
      ⟨"user-2", "bob", some "bob@example.org".toList, none⟩]
    [⟨"session-1", "user-2", false⟩]

theorem twoUsers_unmarked : ∀ user ∈ twoUsers.state.users,
    user.deletedAt = none := by
  decide

/-- Both ask for deletion, and the first one cancels. -/
def cancelledRequest : Configuration :=
  (machine periods).schedule (fun accounts statement =>
      statement.Timely accounts) twoUsers
    [.call 0 (.requestDeletion "request-1" "user-1" "token-1"), .advance 0 2,
      .call 1 (.requestDeletion "request-2" "user-2" "token-2"), .advance 1 2,
      .call 2 (.cancelDeletion "user-1" "token-1"), .advance 2 1]

/-- A run after both deadlines. -/
def deletedAccount : Configuration :=
  (machine periods).schedule (fun accounts statement =>
      statement.Timely accounts) cancelledRequest
    [.wait 200, .call 3 .process, .advance 3 8]

/-- The run deletes the second account and keeps the first. -/
theorem deletion_follows_requests_cancelledRequest :
    ¬ deletedAccount.state.Active "user-2" ∧
      deletedAccount.state.account "user-1" =
        cancelledRequest.state.account "user-1" := by
  refine ⟨by decide, ?_⟩
  apply (deletion_follows_requests twoUsers_unmarked
    ((timely_admits periods).schedule twoUsers _)).2.1 deletedAccount
    ((timely_admits periods).schedule cancelledRequest _) "user-1"
    ⟨"request-1", "user-1", 100, .cancelled, "token-1", some 0, none, 0⟩
    ⟨"request-1", "user-1", 100, .cancelled, "token-1", some 0, none, 0⟩
  · decide
  · rfl
  · decide
  · rfl

/-- The run has selected the reminders when the request is cancelled. -/
def racedReminder : Configuration :=
  (machine periods).schedule (fun _ _ => true) twoUsers
    [.call 0 (.requestDeletion "request-1" "user-1" "token-1"), .advance 0 2,
      .call 1 .process, .advance 1 4,
      .call 2 (.cancelDeletion "user-1" "token-1"), .advance 2 1]

theorem racedReminder_recorded :
    ¬ ∀ settings users sessions before after,
      (∀ user ∈ users, user.deletedAt = none) →
        (machine settings).Run anyStep (opening users sessions) before →
          (machine settings).Run anyStep before after →
            ∀ request ∈ before.state.requests, request.status ≠ .requested →
              ∀ later ∈ after.state.requests, later.id = request.id →
                later.lastReminderSent = request.lastReminderSent ∧
                  later.reminderCount = request.reminderCount := by
  intro never
  have admits : Admits (machine periods) (fun _ _ => true) anyStep :=
    ⟨fun _ => trivial, trivial, trivial, fun _ => trivial⟩
  have kept := never periods _ _ racedReminder
    ((machine periods).schedule (fun _ _ => true) racedReminder [.advance 1 1])
    twoUsers_unmarked (admits.schedule twoUsers _)
    (admits.schedule racedReminder _)
    ⟨"request-1", "user-1", 100, .cancelled, "token-1", some 0, none, 0⟩
    (by decide) (by decide)
    ⟨"request-1", "user-1", 100, .cancelled, "token-1", some 0, some 0, 1⟩
    (by decide) rfl
  exact absurd kept.2 (by decide)

end FireCrow.Services.Deletion
