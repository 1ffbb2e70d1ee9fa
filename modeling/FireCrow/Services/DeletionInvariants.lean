import FireCrow.Services.DeletionLifecycle

/-!
# Invariants of account deletion

A request keeps its user and its deadline, a deleted request and a marked user
stay so, and no session comes back.  A run that has read a due request may
therefore mark it later, mark its user, and revoke the sessions, in this order,
whatever the others do in between.
-/

namespace FireCrow.Services.Deletion

open FireCrow.Library

/-! ## What the tables say of a user -/

namespace Accounts

/-- Some row of the user is not marked deleted. -/
def Active (accounts : Accounts) (userId : Text) : Prop :=
  ∃ user ∈ accounts.users, user.id = userId ∧ user.deletedAt = none

/-- The user is marked deleted and has no session left. -/
structure Finished (accounts : Accounts) (userId : Text) : Prop where
  marked : ¬ accounts.Active userId
  revoked : ∀ session ∈ accounts.sessions, session.userId = userId →
    session.isRevoked = true

/-- A request of the id belongs to the user. -/
def Names (accounts : Accounts) (requestId userId : Text) : Prop :=
  ∃ request ∈ accounts.requests,
    request.id = requestId ∧ request.userId = userId

/-- The deadline of a request of the id has passed. -/
def Overdue (accounts : Accounts) (requestId : Text) : Prop :=
  ∃ request ∈ accounts.requests,
    request.id = requestId ∧ request.deadline ≤ accounts.now

/-- A request of the id is marked deleted. -/
def Deleted (accounts : Accounts) (requestId : Text) : Prop :=
  ∃ request ∈ accounts.requests,
    request.id = requestId ∧ request.status = .deleted

end Accounts

/-! ## What others leave alone -/

/-- The request keeps what does not change. -/
structure DeletionRequest.Continues (request later : DeletionRequest) :
    Prop where
  id : later.id = request.id
  userId : later.userId = request.userId
  deadline : later.deadline = request.deadline
  deleted : request.status = .deleted → later.status = .deleted

theorem DeletionRequest.Continues.refl (request : DeletionRequest) :
    request.Continues request :=
  ⟨rfl, rfl, rfl, fun status => status⟩

theorem DeletionRequest.Continues.trans {first second third : DeletionRequest}
    (before : first.Continues second) (after : second.Continues third) :
    first.Continues third :=
  ⟨after.id.trans before.id, after.userId.trans before.userId,
    after.deadline.trans before.deadline, after.deleted ∘ before.deleted⟩

/-- Time passes, requests continue, marks stay and sessions stay revoked. -/
structure Accounts.Precedes (accounts later : Accounts) : Prop where
  now : accounts.now ≤ later.now
  requests : ∀ request ∈ accounts.requests,
    ∃ next ∈ later.requests, request.Continues next
  users : ∀ user ∈ later.users, ∃ earlier ∈ accounts.users,
    earlier.id = user.id ∧ (user.deletedAt = none → earlier.deletedAt = none)
  sessions : ∀ session ∈ later.sessions, ∃ earlier ∈ accounts.sessions,
    earlier.userId = session.userId ∧
      (earlier.isRevoked = true → session.isRevoked = true)

namespace Accounts.Precedes

theorem refl (accounts : Accounts) : accounts.Precedes accounts where
  now := le_refl _
  requests := fun request member => ⟨request, member, .refl request⟩
  users := fun user member => ⟨user, member, rfl, id⟩
  sessions := fun session member => ⟨session, member, rfl, id⟩

theorem trans {first second third : Accounts}
    (before : first.Precedes second) (after : second.Precedes third) :
    first.Precedes third where
  now := before.now.trans after.now
  requests := by
    intro request member
    rcases before.requests request member with ⟨next, inside, continues⟩
    rcases after.requests next inside with ⟨last, found, kept⟩
    exact ⟨last, found, continues.trans kept⟩
  users := by
    intro user member
    rcases after.users user member with ⟨middle, inside, same, kept⟩
    rcases before.users middle inside with ⟨earlier, found, equal, marked⟩
    exact ⟨earlier, found, equal.trans same, marked ∘ kept⟩
  sessions := by
    intro session member
    rcases after.sessions session member with ⟨middle, inside, same, kept⟩
    rcases before.sessions middle inside with ⟨earlier, found, equal, revoked⟩
    exact ⟨earlier, found, equal.trans same, kept ∘ revoked⟩

variable {accounts later : Accounts}

variable {requestId userId : Text}

section

variable (precedes : accounts.Precedes later)
include precedes

theorem names (names : accounts.Names requestId userId) :
    later.Names requestId userId := by
  rcases names with ⟨request, member, same, owner⟩
  rcases precedes.requests request member with ⟨next, inside, continues⟩
  exact ⟨next, inside, continues.id.trans same, continues.userId.trans owner⟩

theorem overdue
    (overdue : accounts.Overdue requestId) : later.Overdue requestId := by
  rcases overdue with ⟨request, member, same, passed⟩
  rcases precedes.requests request member with ⟨next, inside, continues⟩
  have past := passed.trans precedes.now
  exact ⟨next, inside, continues.id.trans same, continues.deadline ▸ past⟩

theorem deleted
    (deleted : accounts.Deleted requestId) : later.Deleted requestId := by
  rcases deleted with ⟨request, member, same, status⟩
  rcases precedes.requests request member with ⟨next, inside, continues⟩
  exact ⟨next, inside, continues.id.trans same, continues.deleted status⟩

theorem inactive
    (inactive : ¬ accounts.Active userId) : ¬ later.Active userId := by
  rintro ⟨user, member, same, unmarked⟩
  rcases precedes.users user member with ⟨earlier, inside, equal, kept⟩
  exact inactive ⟨earlier, inside, equal.trans same, kept unmarked⟩

theorem finished
    (finished : accounts.Finished userId) : later.Finished userId where
  marked := precedes.inactive finished.marked
  revoked := by
    intro session member owner
    rcases precedes.sessions session member with ⟨earlier, inside, same, kept⟩
    exact kept (finished.revoked earlier inside (same.trans owner))

end

theorem of_requests {requests : List DeletionRequest} {inFlight : List Text}
    (continues : ∀ request ∈ accounts.requests,
      ∃ next ∈ requests, request.Continues next) :
    accounts.Precedes { accounts with
      requests := requests
      inFlight := inFlight } where
  now := le_refl _
  requests := continues
  users := fun user member => ⟨user, member, rfl, id⟩
  sessions := fun session member => ⟨session, member, rfl, id⟩

end Accounts.Precedes

/-! ## Statements -/

section Statements

variable {settings : LifecycleSettings} {accounts after : Accounts}

theorem machine_runs (settings : LifecycleSettings) :
    (machine settings).Runs fun accounts statement =>
      Statement.run accounts statement where
  answered := by
    intro accounts statement answer after success
    show Statement.answer accounts statement = _
    rw [Statement.answer, success]
  refused := by
    intro accounts statement error failure
    show Statement.answer accounts statement = _
    rw [Statement.answer, failure]
  failed := fun statement => ⟨.unavailable, rfl⟩

theorem insertRequest_eq_ok {requestId userId token : Text}
    {deadline : Timestamp} {answer : Unit}
    (success : accounts.insertRequest requestId userId token deadline =
      .ok (answer, after)) :
    (∀ request ∈ accounts.requests, request.id ≠ requestId) ∧
      ∃ request, request.id = requestId ∧ request.userId = userId ∧
        request.status = .requested ∧ request.cancelledAt = none ∧
        after = { accounts with requests := accounts.requests ++ [request] } := by
  unfold Accounts.insertRequest at success
  split at success
  · cases success
  rename_i fresh
  split at success
  · cases success
  cases success
  refine ⟨fun request member same => fresh ?_, _, rfl, rfl, rfl, rfl, rfl⟩
  exact List.any_eq_true.2 ⟨request, member, by simp [same]⟩

theorem markRequestDeleted_deleted {requestId : Text}
    (affected : (accounts.markRequestDeleted requestId).1 ≠ 0) :
    (accounts.markRequestDeleted requestId).2.Deleted requestId := by
  rcases List.countP_pos_iff.1 (Nat.pos_of_ne_zero affected) with
    ⟨request, member, selected⟩
  have same := selected
  simp only [Accounts.marks, Bool.and_eq_true, decide_eq_true_eq] at same
  refine ⟨{ request with status := .deleted }, List.mem_map.2
    ⟨request, member, ?_⟩, same.1, rfl⟩
  rw [if_pos selected]

theorem markUserDeleted_inactive (accounts : Accounts) (userId : Text) :
    ¬ (accounts.markUserDeleted userId).2.Active userId := by
  rintro ⟨user, member, same, unmarked⟩
  rcases List.mem_map.1 member with ⟨earlier, _, rfl⟩
  split at same
  · rename_i selected
    rw [if_pos selected] at unmarked
    cases unmarked
  · rename_i unselected
    rw [if_neg unselected] at unmarked
    simp [same, unmarked] at unselected

theorem Statement.run_precedes {statement : Statement}
    {answer : statement.Answer}
    (success : statement.run accounts = .ok (answer, after)) :
    accounts.Precedes after := by
  -- An update keeps the request apart from the columns that it sets.
  have updated : ∀ (selects : DeletionRequest → Bool)
      (change : DeletionRequest → DeletionRequest),
      (∀ request, selects request = true →
        request.Continues (change request)) →
        ∀ request ∈ accounts.requests,
          ∃ next ∈ Table.set selects change accounts.requests,
            request.Continues next := by
    intro selects change continues request member
    refine ⟨_, List.mem_map_of_mem member, ?_⟩
    split
    · rename_i selected
      exact continues request selected
    · exact .refl request
  cases statement with
  | utcNow => cases success; exact .refl _
  | insertRequest requestId userId token deadline =>
      rcases insertRequest_eq_ok success with
        ⟨_, added, _, _, _, _, rfl⟩
      exact .of_requests fun request member =>
        ⟨request, List.mem_append_left _ member, .refl request⟩
  | cancelRequest userId token =>
      cases success
      apply Accounts.Precedes.of_requests
      apply updated
      intro request selected
      simp only [Bool.and_eq_true, decide_eq_true_eq] at selected
      exact ⟨rfl, rfl, rfl, fun deleted => by simp [deleted] at selected⟩
  | selectDue now => cases success; exact .refl _
  | markRequestDeleted requestId =>
      cases success
      apply Accounts.Precedes.of_requests
      apply updated
      exact fun request _ => ⟨rfl, rfl, rfl, fun _ => rfl⟩
  | markUserDeleted userId =>
      cases success
      refine ⟨le_refl _, fun request member => ⟨request, member, .refl _⟩, ?_,
        fun session member => ⟨session, member, rfl, id⟩⟩
      intro user member
      rcases List.mem_map.1 member with ⟨earlier, inside, rfl⟩
      refine ⟨earlier, inside, ?_⟩
      split
      · exact ⟨rfl, fun unmarked => by cases unmarked⟩
      · exact ⟨rfl, id⟩
  | revokeSessions userId requestId =>
      cases success
      refine ⟨le_refl _, fun request member => ⟨request, member, .refl _⟩,
        fun user member => ⟨user, member, rfl, id⟩, ?_⟩
      intro session member
      rcases List.mem_map.1 member with ⟨earlier, inside, rfl⟩
      refine ⟨earlier, inside, ?_⟩
      split
      · exact ⟨rfl, fun _ => rfl⟩
      · exact ⟨rfl, id⟩
  | recipient userId =>
      simp only [Statement.run] at success
      cases found : accounts.recipient userId with
      | error error => rw [found] at success; cases success
      | ok row => rw [found] at success; cases success; exact .refl _
  | selectReminders | email => cases success; exact .refl _
  | recordReminder requestId =>
      cases success
      apply Accounts.Precedes.of_requests
      apply updated
      exact fun request _ => ⟨rfl, rfl, rfl, fun status => status⟩
  | ended => cases success; exact .refl _

end Statements

/-! ## The discipline -/

/-- What a run must know before it changes the rows. -/
def Statement.Required (accounts : Accounts) : Statement → Prop
  | .markRequestDeleted requestId => accounts.Overdue requestId
  | .markUserDeleted userId => ∃ requestId,
      accounts.Names requestId userId ∧ accounts.Deleted requestId
  | .revokeSessions userId requestId =>
      accounts.Names requestId userId ∧ ¬ accounts.Active userId
  | _ => True

def discipline (settings : LifecycleSettings) :
    Discipline Accounts Statement Statement.Reply where
  executes := (machine settings).Executes
  rely := Accounts.Precedes
  requires := fun accounts statement => statement.Required accounts
  rely_refl := Accounts.Precedes.refl
  rely_trans := Accounts.Precedes.trans

section Runs

variable {settings : LifecycleSettings}

theorem query_bind_safe {Result : Type} {statement : Statement}
    {next : statement.Answer → Task Result} {accounts : Accounts}
    (required : ∀ later, accounts.Precedes later → statement.Required later)
    (continued : ∀ later answer after, accounts.Precedes later →
      statement.run later = .ok (answer, after) →
        (next answer).Safe (discipline settings) (fun _ _ => True) after) :
    (query statement >>= next).Safe (discipline settings) (fun _ _ => True)
      accounts := by
  intro later relied
  refine ⟨required later relied, fun reply after executes => ?_⟩
  cases reply with
  | error error => exact fun _ _ => trivial
  | ok answer =>
      exact continued later answer after relied
        ((machine_runs settings).executes executes)

theorem pure_safe {Result : Type} (result : Result) (accounts : Accounts) :
    (pure result : Task Result).Safe (discipline settings) (fun _ _ => True)
      accounts :=
  fun _ _ => trivial

/-- The requests of a list were overdue when they were read. -/
def Due (accounts : Accounts) (due : List (Text × Text)) : Prop :=
  ∀ entry ∈ due, accounts.Names entry.1 entry.2 ∧ accounts.Overdue entry.1

theorem Due.later {accounts later : Accounts} {due : List (Text × Text)}
    (overdue : Due accounts due) (precedes : accounts.Precedes later) :
    Due later due := by
  intro entry member
  rcases overdue entry member with ⟨named, passed⟩
  exact ⟨precedes.names named, precedes.overdue passed⟩

theorem selectDue_due {accounts : Accounts} {now : Timestamp}
    (past : now ≤ accounts.now) : Due accounts (accounts.selectDue now) := by
  intro entry member
  rcases List.mem_map.1 member with ⟨request, selected, rfl⟩
  rcases List.mem_filter.1 selected with ⟨inside, matched⟩
  simp only [Bool.and_eq_true, decide_eq_true_eq] at matched
  exact ⟨⟨request, inside, rfl, rfl⟩,
    ⟨request, inside, rfl, matched.2.trans past⟩⟩

theorem deleteDue_safe {due : List (Text × Text)} (stats : DeletionStats)
    {accounts : Accounts} (overdue : Due accounts due) :
    (deleteDue due stats).Safe (discipline settings) (fun _ _ => True)
      accounts := by
  induction due generalizing stats accounts with
  | nil => exact pure_safe stats accounts
  | cons entry rest ih =>
      have first := overdue entry List.mem_cons_self
      have others : Due accounts rest := fun other member =>
        overdue other (List.mem_cons_of_mem _ member)
      apply query_bind_safe
      · exact fun later relied => relied.overdue first.2
      intro later marked after relied success
      have moved := relied.trans (Statement.run_precedes success)
      split
      · exact ih stats (others.later moved)
      rename_i affected
      have deleted : after.Deleted entry.1 := by
        cases success
        exact markRequestDeleted_deleted affected
      have named := moved.names first.1
      apply query_bind_safe
      · exact fun next passed => ⟨entry.1, passed.names named,
          passed.deleted deleted⟩
      intro next count last passed success
      have inactive : ¬ last.Active entry.2 := by
        cases success
        exact markUserDeleted_inactive next entry.2
      have following := passed.trans (Statement.run_precedes success)
      apply query_bind_safe
      · exact fun state kept => ⟨kept.names (following.names named),
          kept.inactive inactive⟩
      intro state revoked ended kept success
      have finishing := kept.trans (Statement.run_precedes success)
      apply query_bind_safe
      · exact fun _ _ => trivial
      intro before _ last unchanged success
      have reading := unchanged.trans (Statement.run_precedes success)
      exact ih _ (others.later
        (((moved.trans following).trans finishing).trans reading))

theorem remindAll_asks (reminders : List (Text × Text))
    (stats : DeletionStats) :
    (remindAll reminders stats).Asks fun statement =>
      ∀ accounts, (discipline settings).requires accounts statement := by
  induction reminders generalizing stats with
  | nil => trivial
  | cons entry rest ih =>
      refine ⟨fun _ => trivial, fun reply => ?_⟩
      cases reply with
      | error error => trivial
      | ok email =>
          refine ⟨fun _ => trivial, fun reply => ?_⟩
          cases reply with
          | error error => trivial
          | ok recorded => exact ih _

theorem process_safe (accounts : Accounts) :
    (process settings).Safe (discipline settings) (fun _ _ => True)
      accounts := by
  apply query_bind_safe
  · exact fun _ _ => trivial
  intro later now after _ success
  cases success
  apply query_bind_safe
  · exact fun _ _ => trivial
  intro next due last relied success
  cases success
  apply Program.Safe.bind (deleteDue_safe _ (selectDue_due relied.now))
  · exact fun _ _ _ => trivial
  intro state stats _
  apply query_bind_safe
  · exact fun _ _ => trivial
  exact fun _ reminders final _ _ => (remindAll_asks reminders stats).safe final

theorem operation_safe (operation : Operation) (accounts : Accounts) :
    (operation.program settings).Safe (discipline settings)
      (fun _ _ => True) accounts := by
  cases operation with
  | requestDeletion requestId userId token =>
      refine Program.Safe.bind (show Program.Safe (discipline settings)
        (fun _ _ => True) _ accounts from ?_) ?_ ?_
      · apply query_bind_safe
        · exact fun _ _ => trivial
        intro later now after _ _
        apply query_bind_safe
        · exact fun _ _ => trivial
        exact fun _ _ final _ _ => pure_safe _ final
      · exact fun _ _ _ => trivial
      · exact fun state _ _ => pure_safe () state
  | cancelDeletion userId token =>
      refine Program.Safe.bind (show Program.Safe (discipline settings)
        (fun _ _ => True) _ accounts from ?_) ?_ ?_
      · apply query_bind_safe
        · exact fun _ _ => trivial
        exact fun _ _ final _ _ => pure_safe _ final
      · exact fun _ _ _ => trivial
      · exact fun state _ _ => pure_safe () state
  | process =>
      apply Program.Safe.bind (process_safe accounts)
      · exact fun _ _ _ => trivial
      intro state stats _ later _
      exact ⟨trivial, fun _ _ _ _ _ => trivial⟩

end Runs

/-! ## The invariant -/

/-- What holds between any two statements: a request that is not cancelled
never was, a deleted one is overdue, a marked user has one, and its user is
finished unless the request is in flight. -/
structure Accounts.Regular (accounts : Accounts) : Prop where
  ids : (accounts.requests.map DeletionRequest.id).Nodup
  uncancelled : ∀ request ∈ accounts.requests, request.status ≠ .cancelled →
    request.cancelledAt = none
  overdue : ∀ request ∈ accounts.requests, request.status = .deleted →
    request.deadline ≤ accounts.now
  marked : ∀ user ∈ accounts.users, user.deletedAt ≠ none →
    ∃ request ∈ accounts.requests, request.userId = user.id ∧
      request.status = .deleted
  finished : ∀ request ∈ accounts.requests, request.status = .deleted →
    request.id ∉ accounts.inFlight → accounts.Finished request.userId

section Invariant

variable {accounts after : Accounts}

theorem Accounts.Regular.same (regular : accounts.Regular)
    {left right : DeletionRequest} (inLeft : left ∈ accounts.requests)
    (inRight : right ∈ accounts.requests) (equal : left.id = right.id) :
    left = right :=
  List.inj_on_of_nodup_map regular.ids inLeft inRight equal

/-- An update that keeps ids, users and deadlines keeps the tables regular
when every row that it writes is as it must be. -/
theorem Accounts.Regular.update (regular : accounts.Regular)
    {selects : DeletionRequest → Bool}
    {change : DeletionRequest → DeletionRequest} {inFlight : List Text}
    (keys : ∀ request, (change request).id = request.id ∧
      (change request).userId = request.userId ∧
      (change request).deadline = request.deadline)
    (kept : ∀ request ∈ accounts.requests, selects request = true →
      request.status = .deleted → (change request).status = .deleted)
    (uncancelled : ∀ request ∈ accounts.requests, selects request = true →
      (change request).status ≠ .cancelled →
        (change request).cancelledAt = none)
    (deleted : ∀ request ∈ accounts.requests, selects request = true →
      (change request).status = .deleted →
        request.deadline ≤ accounts.now ∧
          (request.id ∉ inFlight → accounts.Finished request.userId))
    (flights : ∀ request ∈ accounts.requests, request.id ∈ accounts.inFlight →
      request.id ∈ inFlight) :
    ({ accounts with
      requests := Table.set selects change accounts.requests
      inFlight := inFlight } : Accounts).Regular where
  ids := by
    show ((accounts.requests.map _).map DeletionRequest.id).Nodup
    rw [List.map_map]
    convert regular.ids using 2
    funext request
    simp only [Function.comp_apply]
    split
    · exact (keys request).1
    · rfl
  uncancelled := by
    intro request member
    rcases List.mem_map.1 member with ⟨earlier, inside, rfl⟩
    split
    · rename_i selected
      exact uncancelled earlier inside selected
    · exact regular.uncancelled earlier inside
  overdue := by
    intro request member
    rcases List.mem_map.1 member with ⟨earlier, inside, rfl⟩
    split
    · rename_i selected
      intro status
      rw [(keys earlier).2.2]
      exact (deleted earlier inside selected status).1
    · exact regular.overdue earlier inside
  marked := by
    intro user member gone
    rcases regular.marked user member gone with ⟨request, inside, owner, status⟩
    refine ⟨_, List.mem_map_of_mem inside, ?_⟩
    split
    · rename_i selected
      exact ⟨(keys request).2.1.trans owner, kept request inside selected status⟩
    · exact ⟨owner, status⟩
  finished := by
    intro request member
    rcases List.mem_map.1 member with ⟨earlier, inside, rfl⟩
    have unchanged : ∀ {userId : Text}, accounts.Finished userId →
        ({ accounts with
          requests := Table.set selects change accounts.requests
          inFlight := inFlight } : Accounts).Finished userId :=
      fun finished => ⟨finished.marked, finished.revoked⟩
    split
    · rename_i selected
      intro status landed
      rw [(keys earlier).1] at landed
      rw [(keys earlier).2.1]
      exact unchanged ((deleted earlier inside selected status).2 landed)
    · intro status landed
      exact unchanged (regular.finished earlier inside status fun flying =>
        landed (flights earlier inside flying))

theorem Accounts.Regular.step {statement : Statement}
    {answer : statement.Answer} (regular : accounts.Regular)
    (required : statement.Required accounts)
    (success : statement.run accounts = .ok (answer, after)) :
    after.Regular := by
  have precedes := Statement.run_precedes success
  cases statement with
  | utcNow => cases success; exact regular
  | insertRequest requestId userId token deadline =>
      rcases insertRequest_eq_ok success with
        ⟨fresh, added, named, _, status, uncancelled, rfl⟩
      refine ⟨?_, ?_, ?_, ?_, ?_⟩
      · exact nodup_keys_append regular.ids fun request inside same =>
          fresh request inside (same.trans named)
      · intro request member
        rcases List.mem_append.1 member with old | new
        · exact regular.uncancelled request old
        · rcases List.mem_singleton.1 new with rfl
          exact fun _ => uncancelled
      · intro request member deleted
        rcases List.mem_append.1 member with old | new
        · exact regular.overdue request old deleted
        · rcases List.mem_singleton.1 new with rfl
          rw [status] at deleted
          cases deleted
      · intro user member gone
        rcases regular.marked user member gone with ⟨request, inside, found⟩
        exact ⟨request, List.mem_append_left _ inside, found⟩
      · intro request member deleted landed
        rcases List.mem_append.1 member with old | new
        · exact precedes.finished (regular.finished request old deleted landed)
        · rcases List.mem_singleton.1 new with rfl
          rw [status] at deleted
          cases deleted
  | cancelRequest userId token =>
      cases success
      apply regular.update
      · exact fun _ => ⟨rfl, rfl, rfl⟩
      · intro request _ selected deleted
        simp [deleted] at selected
      · exact fun _ _ _ uncancelled => absurd rfl uncancelled
      · intro request _ _ deleted
        cases deleted
      · exact fun _ _ flying => flying
  | selectDue now => cases success; exact regular
  | markRequestDeleted requestId =>
      cases success
      apply regular.update
      · exact fun _ => ⟨rfl, rfl, rfl⟩
      · exact fun _ _ _ _ => rfl
      · intro request member selected _
        simp only [Accounts.marks, Bool.and_eq_true, decide_eq_true_eq]
          at selected
        exact regular.uncancelled request member (by simp [selected.2])
      · intro request member selected _
        have affected : accounts.requests.countP (Accounts.marks requestId) ≠
            0 := by
          have found := List.countP_pos_iff.2 ⟨request, member, selected⟩
          exact found.ne'
        simp only [Accounts.marks, Bool.and_eq_true, decide_eq_true_eq]
          at selected
        rcases required with ⟨due, inside, named, past⟩
        have equal := regular.same inside member (named.trans selected.1.symm)
        subst equal
        refine ⟨past, fun landed => absurd ?_ landed⟩
        rw [if_neg affected]
        exact selected.1 ▸ List.mem_cons_self
      · intro request _ flying
        split
        · exact flying
        · exact List.mem_cons_of_mem _ flying
  | markUserDeleted userId =>
      cases success
      rcases required with ⟨requestId, ⟨named, inNamed, id, owner⟩,
        ⟨deleted, inDeleted, same, status⟩⟩
      have equal := regular.same inNamed inDeleted (id.trans same.symm)
      subst equal
      refine ⟨regular.ids, regular.uncancelled, regular.overdue, ?_, ?_⟩
      · intro user member gone
        rcases List.mem_map.1 member with ⟨earlier, inside, rfl⟩
        split at gone
        · rename_i selected
          rw [if_pos selected]
          simp only [Bool.and_eq_true, decide_eq_true_eq] at selected
          exact ⟨named, inNamed, owner.trans selected.1.symm, status⟩
        · rename_i unselected
          rw [if_neg unselected]
          exact regular.marked earlier inside gone
      · intro request member deleted landed
        exact precedes.finished (regular.finished request member deleted landed)
  | revokeSessions userId requestId =>
      cases success
      rcases required with ⟨⟨named, inNamed, id, owner⟩, inactive⟩
      refine ⟨regular.ids, regular.uncancelled, regular.overdue,
        regular.marked, ?_⟩
      intro request member deleted landed
      by_cases mine : request.id = requestId
      · have equal := regular.same inNamed member (id.trans mine.symm)
        subst equal
        rw [owner]
        refine ⟨inactive, fun session inside possessed => ?_⟩
        rcases List.mem_map.1 inside with ⟨earlier, _, rfl⟩
        split
        · rfl
        · rename_i unselected
          rw [if_neg unselected] at possessed
          simpa [possessed] using unselected
      · have grounded : request.id ∉ accounts.inFlight := fun flying =>
          landed (List.mem_filter.2 ⟨flying, by simpa using mine⟩)
        exact precedes.finished
          (regular.finished request member deleted grounded)
  | recipient userId =>
      simp only [Statement.run] at success
      cases found : accounts.recipient userId with
      | error error => rw [found] at success; cases success
      | ok row => rw [found] at success; cases success; exact regular
  | selectReminders | email => cases success; exact regular
  | recordReminder requestId =>
      cases success
      apply regular.update
      · exact fun _ => ⟨rfl, rfl, rfl⟩
      · exact fun _ _ _ deleted => deleted
      · exact fun request member _ => regular.uncancelled request member
      · exact fun request member _ deleted =>
          ⟨regular.overdue request member deleted,
            regular.finished request member deleted⟩
      · exact fun _ _ flying => flying
  | ended => cases success; exact regular

end Invariant

theorem guarantees (settings : LifecycleSettings) :
    Guarantees (machine settings) (discipline settings) Accounts.Regular where
  executes := fun executes => executes
  operation := fun _ _ => operation_safe _ _
  statement := by
    intro accounts statement regular required
    rcases (machine_runs settings).cases accounts statement with
      ⟨answer, after, success, answered⟩ | ⟨error, _, answered⟩
    · rw [answered]
      exact ⟨regular.step required success, Statement.run_precedes success⟩
    · rw [answered]
      exact ⟨regular, .refl accounts⟩
  time := by
    intro accounts duration regular
    have later : accounts.now ≤ accounts.now + duration :=
      Int.le_add_of_nonneg_right (Int.natCast_nonneg duration)
    refine ⟨⟨regular.ids, regular.uncancelled, fun request member deleted =>
        (regular.overdue request member deleted).trans later, regular.marked,
        fun request member deleted landed => ?_⟩,
      ⟨later, fun request member => ⟨request, member, .refl request⟩,
        fun user member => ⟨user, member, rfl, id⟩,
        fun session member => ⟨session, member, rfl, id⟩⟩⟩
    have finished := regular.finished request member deleted landed
    exact ⟨finished.marked, finished.revoked⟩

theorem opening_sound (settings : LifecycleSettings) {users : List UserRow}
    {sessions : List UserSession}
    (unmarked : ∀ user ∈ users, user.deletedAt = none) :
    Sound (discipline settings) Accounts.Regular (opening users sessions) where
  inv :=
    { ids := List.nodup_nil
      uncancelled := by simp [opening]
      overdue := by simp [opening]
      marked := fun user member gone => absurd (unmarked user member) gone
      finished := by simp [opening] }
  safe := fun process program running => by cases running

end FireCrow.Services.Deletion
