import FireCrow.Services.Payments

/-!
# Payments credit once

Between any two statements of a call other calls may begin, insert and commit,
and a connection may be lost.  The unique index leaves one record for each
reference, and a record is committed together with the credit of its account,
so that each balance is the sum of the records that credit the account.
-/

namespace FireCrow.Services.Payments

open FireCrow.Library

/-! ## What a call holds -/

/-- What a call knows of its transaction: that it has written nothing, that it
has an insert without its update, or that it may commit; and what lasts: the
record that it will return, with the reference it asked for, the account and
amount of its insert, and how the transaction has ended. -/
inductive Token where
  | begun (transaction : Nat)
  | inserted (transaction : Nat)
  | ready (transaction : Nat)
  | writes (transaction : Nat) (account : Account) (amount : Rat)
  | backed (transaction : Nat) (record : PaymentRecord) (reference : Text)
  | settled (transaction : Nat)
  | clashed (transaction : Nat)
  | refused (transaction : Nat)
  | never

/-- No transaction of this number has been refused. -/
def Database.Spared (db : Database) (number : Nat) : Prop :=
  number < db.nextTransaction ∧ number ∉ db.clashes ∧ number ∉ db.refused

/-- The transaction, while it is open, is as said. -/
def Database.While (db : Database) (number : Nat) (holds : Stage → Prop) :
    Prop :=
  ∀ transaction ∈ db.transactions, transaction.number = number →
    holds transaction.stage

def Token.exclusive : Token → Prop
  | .begun _ => True
  | .inserted _ => True
  | .ready _ => True
  | _ => False

def Token.good (db : Database) : Token → Prop
  | .begun number =>
      number < db.nextTransaction ∧ db.While number fun stage => stage = .begun
  | .inserted number => db.Spared number ∧
      db.While number fun stage => ∃ record, stage = .inserted record
  | .ready number => db.Spared number ∧
      db.While number fun stage => ∀ record, stage ≠ .inserted record
  | .writes number account amount => number < db.nextTransaction ∧
      db.While number fun stage => ∃ record, stage.record? = some record ∧
        record.account = account ∧ record.amount = amount
  | .backed number record reference => number < db.nextTransaction ∧
      record.transactionReference = reference ∧
        (record ∈ db.records ∨ number ∉ db.committed ∧
          db.While number fun stage => stage.record? = some record)
  | .settled number => db.Spared number ∧ number ∈ db.committed ∧
      db.While number fun _ => False
  | .clashed number => number ∈ db.clashes
  | .refused number => number ∈ db.refused
  | .never => False

/-- What a response says. -/
def Response.evidence (response : Response) : Set Token :=
  match response.outcome with
  | .error error =>
      {token | error ≠ unavailable ∧ token = .never ∧
        0 < response.request.amount}
  | .ok outcome =>
      {token | token = .never ∧ ¬ 0 < response.request.amount} ∪
        match outcome.result with
        | .ok record =>
            {.settled outcome.transaction,
              .backed outcome.transaction record
                response.request.transactionReference}
        | .error error =>
            {token | error ≠ unavailable ∧
              ((error = .database (.uniqueViolation referenceKey) ∧
                token = .clashed outcome.transaction) ∨
              (error ≠ .database (.uniqueViolation referenceKey) ∧
                token = .refused outcome.transaction))}

def pays : Statement → Set Token
  | .insert number _ => {.begun number, .ready number}
  | .credit number account amount =>
      {.inserted number, .writes number account amount}
  | .commit number => {.ready number}
  | .respond response => response.evidence
  | _ => ∅

def gains : (statement : Statement) → statement.Reply → Set Token
  | .beginTransaction, .ok number => {.begun number, .ready number}
  | .selectByReference number reference, .ok (some record) =>
      {.backed number record reference}
  | .insert number _, .ok record =>
      {.inserted number, .writes number record.account record.amount,
        .backed number record record.transactionReference}
  | .insert number _, .error error =>
      {token | error ≠ unavailable ∧
        ((error = .database (.uniqueViolation referenceKey) ∧
          token = .clashed number) ∨
        (error ≠ .database (.uniqueViolation referenceKey) ∧
          token = .refused number))}
  | .credit number _ _, .ok () => {.ready number}
  | .commit number, .ok () => {.settled number}
  | _, _ => ∅

/-- An insert returns its row, and only inserts are refused for anything but
availability. -/
def possible : (statement : Statement) → statement.Reply → Prop
  | .insert _ record, .ok returned => returned = record
  | .insert _ _, .error _ => True
  | _, .ok _ => True
  | _, .error error => error = unavailable

def ledger : Ledger Database Statement Statement.Reply Token where
  exclusive := Token.exclusive
  good := Token.good
  pays := pays
  gains := gains
  possible := fun _ => possible

/-! ## The tables -/

/-- The sum of the records that credit an account. -/
def Database.paid (db : Database) (account : Account) : Rat :=
  ((db.records.filter fun record => record.account = account).map
    PaymentRecord.amount).sum

/-- Two open transactions with one of these are the same. -/
def Alone {Value : Type} (transactions : List Transaction)
    (value : Stage → Option Value) : Prop :=
  ∀ one ∈ transactions, ∀ other ∈ transactions, ∀ held,
    value one.stage = some held → value other.stage = some held →
      one.number = other.number

/-- What a stage says of the committed tables. -/
def Stage.Regular (db : Database) : Stage → Prop
  | .begun => True
  | .inserted record => record.transactionReference ∉
        db.records.map PaymentRecord.transactionReference ∧
      (db.balance record.account).isSome = true
  | .credited record account balance => record.transactionReference ∉
        db.records.map PaymentRecord.transactionReference ∧
      record.account = account ∧
        ∃ before, db.balance account = some before ∧
          balance = before + record.amount

/-- One record for each reference, and balances that are the sums of the
records; and what the open transactions keep. -/
structure Regular (db : Database) : Prop where
  references : (db.records.map PaymentRecord.transactionReference).Nodup
  balances : ∀ account balance, db.balance account = some balance →
    balance = db.paid account
  covered : ∀ record ∈ db.records, (db.balance record.account).isSome = true
  numbers : ∀ transaction ∈ db.transactions,
    transaction.number < db.nextTransaction ∧
      transaction.number ∉ db.committed ∧ transaction.number ∉ db.clashes ∧
        transaction.number ∉ db.refused
  stages : ∀ transaction ∈ db.transactions, transaction.stage.Regular db
  inserts : Alone db.transactions fun stage =>
    stage.record?.map PaymentRecord.transactionReference
  updates : Alone db.transactions Stage.locked?
  ended : ∀ number, number ∈ db.committed ∨ number ∈ db.clashes ∨
    number ∈ db.refused → number < db.nextTransaction
  responses : ∀ response ∈ db.responses, ∀ token ∈ response.evidence,
    token.good db

/-! ## What a statement does -/

variable {db : Database} {transaction : Transaction}

theorem Database.mem_of_transaction? {number : Nat}
    (found : db.transaction? number = some transaction) :
    transaction ∈ db.transactions ∧ transaction.number = number :=
  ⟨List.mem_of_find?_eq_some found, by simpa using List.find?_some found⟩

/-- The transaction of the number is open, and this far. -/
def Database.Open (db : Database) (number : Nat) (stage : Stage) : Prop :=
  (⟨number, stage⟩ : Transaction) ∈ db.transactions

variable {stage : Stage}

theorem Database.While.of_open {number : Nat}
    {holds : Stage → Prop} (always : db.While number holds)
    (isOpen : db.Open number stage) : holds stage :=
  always _ isOpen rfl

/-- An insert that does anything is the first of its open transaction: it
finds its reference in the table, is refused for something else, or writes. -/
theorem Database.insert_cases (db : Database) (number : Nat)
    (record : PaymentRecord) :
    db.insert number record = (.error unavailable, db) ∨
    db.Open number .begun ∧
      ((db.insert number record =
          (.error (.database (.uniqueViolation referenceKey)),
            { db.release number with clashes := db.clashes ++ [number] }) ∧
        record.transactionReference ∈
          db.records.map PaymentRecord.transactionReference) ∨
      (∃ error, error ≠ unavailable ∧
        error ≠ .database (.uniqueViolation referenceKey) ∧
        db.insert number record = (.error error,
          { db.release number with refused := db.refused ++ [number] })) ∨
      (db.insert number record =
          (.ok record, db.advance number (.inserted record)) ∧
        record.transactionReference ∉
          db.records.map PaymentRecord.transactionReference ∧
        db.insertWaits number record = false ∧
        db.references record = true)) := by
  cases found : db.transaction? number with
  | none =>
      left
      rw [insert, found]
  | some transaction =>
      rcases transaction with ⟨own, stage⟩
      have same := Database.mem_of_transaction? found
      cases stage with
      | inserted | credited =>
          left
          rw [insert, found]
      | begun =>
          have isOpen : db.Open number .begun := by
            rcases same with ⟨member, rfl⟩
            exact member
          rw [insert, found]
          dsimp only
          by_cases fits : record.fits = true
          · rw [fits, Bool.not_true, if_neg Bool.false_ne_true]
            split
            · rename_i listed
              refine .inr ⟨isOpen, .inl ⟨rfl, ?_⟩⟩
              rw [List.any_eq_true] at listed
              rcases listed with ⟨other, member, same⟩
              exact List.mem_map.2 ⟨other, member, of_decide_eq_true same⟩
            · rename_i unlisted
              split
              · exact .inr ⟨isOpen, .inr (.inl
                  ⟨_, by decide, by decide, rfl⟩)⟩
              · split
                · exact .inl rfl
                · rename_i waits
                  split
                  · exact .inr ⟨isOpen, .inr (.inl
                      ⟨_, by decide, by decide, rfl⟩)⟩
                  · rename_i referenced
                    refine .inr ⟨isOpen, .inr (.inr ⟨rfl, ?_, ?_, ?_⟩)⟩
                    · intro listed
                      apply unlisted
                      rw [List.any_eq_true]
                      rcases List.mem_map.1 listed with ⟨other, member, same⟩
                      exact ⟨other, member, decide_eq_true same⟩
                    · exact Bool.eq_false_of_not_eq_true waits
                    · simpa using referenced
          · rw [Bool.not_eq_true] at fits
            rw [fits, Bool.not_false, if_pos rfl]
            exact .inr ⟨isOpen, .inr (.inl ⟨_, by decide, by decide, rfl⟩)⟩

/-- An update that does anything is the first after the insert of its
transaction. -/
theorem Database.credit_cases (db : Database) (number : Nat) (account : Account)
    (amount : Rat) :
    db.credit number account amount = (.error unavailable, db) ∨
    ∃ record, db.Open number (.inserted record) ∧
      ((db.balance account = none ∧
        db.credit number account amount = (.ok (), db)) ∨
      ∃ balance, db.balance account = some balance ∧
        db.updateWaits number account = false ∧
        db.credit number account amount = (.ok (), db.advance number
          (.credited record account (balance + amount)))) := by
  cases found : db.transaction? number with
  | none =>
      left
      rw [credit, found]
  | some transaction =>
      rcases transaction with ⟨own, stage⟩
      have same := Database.mem_of_transaction? found
      cases stage with
      | begun | credited =>
          left
          rw [credit, found]
      | inserted record =>
          have isOpen : db.Open number (.inserted record) := by
            rcases same with ⟨member, rfl⟩
            exact member
          rw [credit, found]
          dsimp only
          cases held : db.balance account with
          | none => exact .inr ⟨record, isOpen, .inl ⟨rfl, rfl⟩⟩
          | some balance =>
              dsimp only
              split
              · exact .inl rfl
              · rename_i waits
                exact .inr ⟨record, isOpen, .inr ⟨balance, rfl,
                  Bool.eq_false_of_not_eq_true waits, rfl⟩⟩

theorem Database.select_cases (db : Database) (number : Nat)
    (reference : Text) :
    (Statement.selectByReference number reference).answer db =
      (.error unavailable, db) ∨
    db.Open number .begun ∧
      (Statement.selectByReference number reference).answer db =
        (.ok (db.records.find? fun record =>
          record.transactionReference = reference), db) := by
  cases found : db.transaction? number with
  | none =>
      left
      rw [Statement.answer, found]
  | some transaction =>
      rcases transaction with ⟨own, stage⟩
      rcases Database.mem_of_transaction? found with ⟨member, rfl⟩
      cases stage with
      | begun =>
          right
          rw [Statement.answer, found]
          exact ⟨member, rfl⟩
      | inserted | credited =>
          left
          rw [Statement.answer, found]

/-- A commit ends its open transaction with what it has written. -/
theorem Database.commit_cases (db : Database) (number : Nat) :
    db.commit number = (.error unavailable, db) ∨
    ∃ stage, db.Open number stage ∧
      db.commit number = (.ok (), { (db.apply stage).release number with
        committed := db.committed ++ [number] }) := by
  cases found : db.transaction? number with
  | none =>
      left
      rw [commit, found]
  | some transaction =>
      rcases Database.mem_of_transaction? found with ⟨member, rfl⟩
      refine .inr ⟨transaction.stage, member, ?_⟩
      rw [commit, found]

/-! ## What lasts -/

/-- The history grows. -/
structure Grows (db after : Database) : Prop where
  next : db.nextTransaction ≤ after.nextTransaction
  records : ∀ record ∈ db.records, record ∈ after.records
  committed : ∀ number ∈ db.committed, number ∈ after.committed
  clashes : ∀ number ∈ db.clashes, number ∈ after.clashes
  refused : ∀ number ∈ db.refused, number ∈ after.refused

/-- The history of a number does not grow, and its transaction stays as it is
or is lost. -/
structure Spares (number : Nat) (db after : Database) : Prop where
  transactions : ∀ transaction ∈ after.transactions,
    transaction.number = number → transaction ∈ db.transactions
  committed : number ∈ after.committed → number ∈ db.committed
  clashes : number ∈ after.clashes → number ∈ db.clashes
  refused : number ∈ after.refused → number ∈ db.refused

variable {after : Database}

theorem Database.While.spared {number : Nat}
    {holds : Stage → Prop} (always : db.While number holds)
    (spares : Spares number db after) : after.While number holds :=
  fun transaction member same =>
    always transaction (spares.transactions transaction member same) same

theorem Database.Spared.spared {number : Nat}
    (spared : db.Spared number) (grows : Grows db after)
    (spares : Spares number db after) : after.Spared number :=
  ⟨lt_of_lt_of_le spared.1 grows.next, fun clash => spared.2.1 (spares.clashes clash),
    fun refused => spared.2.2 (spares.refused refused)⟩

/-- The transaction that a token is about. -/
def Token.number : Token → Nat
  | .begun number => number
  | .inserted number => number
  | .ready number => number
  | .writes number _ _ => number
  | .backed number _ _ => number
  | .settled number => number
  | .clashed number => number
  | .refused number => number
  | .never => 0

variable {token : Token}

theorem Token.good.spared (good : token.good db) (grows : Grows db after)
    (spares : Spares token.number db after) : token.good after := by
  cases token with
  | begun | writes =>
      exact ⟨lt_of_lt_of_le good.1 grows.next, good.2.spared spares⟩
  | inserted number =>
      exact ⟨good.1.spared grows spares, good.2.spared spares⟩
  | ready number => exact ⟨good.1.spared grows spares, good.2.spared spares⟩
  | backed number record reference =>
      refine ⟨lt_of_lt_of_le good.1 grows.next, good.2.1, ?_⟩
      rcases good.2.2 with listed | ⟨uncommitted, pending⟩
      · exact .inl (grows.records record listed)
      · exact .inr ⟨fun committed => uncommitted (spares.committed committed),
          pending.spared spares⟩
  | settled number =>
      exact ⟨good.1.spared grows spares, grows.committed number good.2.1,
        good.2.2.spared spares⟩
  | clashed number => exact grows.clashes number good
  | refused number => exact grows.refused number good
  | never => exact good

/-- A token that the history alone keeps. -/
inductive Token.Lasting (db : Database) : Token → Prop where
  | backed {number record reference} (earlier : number < db.nextTransaction)
      (asked : record.transactionReference = reference)
      (listed : record ∈ db.records) :
      Lasting db (.backed number record reference)
  | clashed {number} (listed : number ∈ db.clashes) :
      Lasting db (.clashed number)
  | refused {number} (listed : number ∈ db.refused) :
      Lasting db (.refused number)

theorem Token.Lasting.good
    (lasting : token.Lasting db) (grows : Grows db after) :
    token.good after := by
  cases lasting with
  | backed earlier asked listed =>
      exact ⟨lt_of_lt_of_le earlier grows.next, asked,
        .inl (grows.records _ listed)⟩
  | clashed listed => exact grows.clashes _ listed
  | refused listed => exact grows.refused _ listed

/-- A good token is of an earlier transaction, or lasts. -/
theorem Token.good.earlier (good : token.good db) :
    token.number < db.nextTransaction ∨ token.Lasting db := by
  cases token with
  | begun number => exact .inl good.1
  | inserted | ready => exact .inl good.1.1
  | writes | backed => exact .inl good.1
  | settled number => exact .inl good.1.1
  | clashed number => exact .inr (.clashed good)
  | refused number => exact .inr (.refused good)
  | never => exact good.elim

/-- What is said of a transaction that has written nothing, beyond what its
call holds, lasts. -/
theorem Token.good.of_begun
    (good : token.good db) (isOpen : db.Open token.number .begun)
    (unpaid : token.exclusive →
      token ∉ ({.begun token.number, .ready token.number} : Set Token)) :
    token.Lasting db := by
  cases token with
  | begun number => exact absurd (.inl rfl) (unpaid trivial)
  | inserted number =>
      rcases good.2.of_open isOpen with ⟨record, impossible⟩
      cases impossible
  | ready number => exact absurd (.inr rfl) (unpaid trivial)
  | writes number account amount =>
      rcases good.2.of_open isOpen with ⟨record, impossible, _⟩
      cases impossible
  | backed number record reference =>
      rcases good.2.2 with listed | ⟨_, pending⟩
      · exact .backed good.1 good.2.1 listed
      · have impossible := pending.of_open isOpen
        cases impossible
  | settled number => exact (good.2.2.of_open isOpen).elim
  | clashed number => exact .clashed good
  | refused number => exact .refused good
  | never => exact good.elim

theorem mem_release {number : Nat} :
    transaction ∈ (db.release number).transactions ↔
      transaction ∈ db.transactions ∧ transaction.number ≠ number := by
  simp [Database.release]

theorem mem_advance {number : Nat}
    (member : transaction ∈ (db.advance number stage).transactions) :
    transaction = ⟨number, stage⟩ ∨
      transaction ∈ db.transactions ∧ transaction.number ≠ number := by
  rcases List.mem_map.1 member with ⟨earlier, inside, rfl⟩
  split
  · exact .inl rfl
  · rename_i different
    exact .inr ⟨inside, different⟩

theorem Grows.advance (db : Database) (number : Nat) (stage : Stage) :
    Grows db (db.advance number stage) :=
  ⟨le_refl _, fun _ => id, fun _ => id, fun _ => id, fun _ => id⟩

variable {other : Nat}

theorem Spares.advance {number : Nat} (stage : Stage)
    (different : other ≠ number) : Spares other db (db.advance number stage) where
  transactions := by
    intro transaction member same
    rcases mem_advance member with rfl | ⟨inside, _⟩
    · exact absurd same.symm different
    · exact inside
  committed := id
  clashes := id
  refused := id

theorem Spares.release (db : Database) (number other : Nat) :
    Spares other db (db.release number) where
  transactions := fun _ member _ => (mem_release.1 member).1
  committed := id
  clashes := id
  refused := id

theorem mem_of_mem_append_ne {numbers : List Nat} {number : Nat}
    (different : other ≠ number) (member : other ∈ numbers ++ [number]) :
    other ∈ numbers :=
  (List.mem_append.1 member).resolve_right fun last =>
    different (List.mem_singleton.1 last)

variable {record : PaymentRecord}

/-- What a token says stays so until its holder pays with it. -/
theorem Token.good.insert (good : token.good db) {number : Nat}
    (unpaid : token.exclusive → token ∉ pays (.insert number record)) :
    token.good (db.insert number record).2 := by
  rcases db.insert_cases number record with
    unchanged | ⟨isOpen, ⟨clash, _⟩ | ⟨error, _, _, refusal⟩ | ⟨written, _⟩⟩
  · rw [unchanged]
    exact good
  · have grows : Grows db (db.insert number record).2 := by
      rw [clash]
      exact ⟨le_refl _, fun _ => id, fun _ => id,
        fun _ member => List.mem_append_left _ member, fun _ => id⟩
    by_cases own : token.number = number
    · subst own
      exact (good.of_begun isOpen unpaid).good grows
    · refine good.spared grows ?_
      rw [clash]
      have spares := Spares.release db number token.number
      exact ⟨spares.transactions, id, mem_of_mem_append_ne own, id⟩
  · have grows : Grows db (db.insert number record).2 := by
      rw [refusal]
      exact ⟨le_refl _, fun _ => id, fun _ => id, fun _ => id,
        fun _ member => List.mem_append_left _ member⟩
    by_cases own : token.number = number
    · subst own
      exact (good.of_begun isOpen unpaid).good grows
    · refine good.spared grows ?_
      rw [refusal]
      have spares := Spares.release db number token.number
      exact ⟨spares.transactions, id, id, mem_of_mem_append_ne own⟩
  · rw [written]
    by_cases own : token.number = number
    · subst own
      exact (good.of_begun isOpen unpaid).good (.advance db _ _)
    · exact good.spared (.advance db _ _) (.advance _ own)

/-- Going on from an insert keeps what is said of its transaction. -/
theorem Database.While.advance {number : Nat}
    {holds : Stage → Prop} (now : holds stage) :
    (db.advance number stage).While number holds := by
  intro transaction member same
  rcases mem_advance member with rfl | ⟨_, different⟩
  · exact now
  · exact absurd same different

theorem Token.good.credit
    (good : token.good db) {number : Nat} {account : Account} {amount : Rat}
    (unpaid : token.exclusive → token ∉ pays (.credit number account amount)) :
    token.good (db.credit number account amount).2 := by
  rcases db.credit_cases number account amount with
    unchanged | ⟨record, isOpen, ⟨_, unchanged⟩ | ⟨balance, _, _, written⟩⟩
  · rw [unchanged]
    exact good
  · rw [unchanged]
    exact good
  · rw [written]
    by_cases own : token.number = number
    · subst own
      cases token with
      | begun number =>
          have impossible := good.2.of_open isOpen
          cases impossible
      | inserted number => exact absurd (.inl rfl) (unpaid trivial)
      | ready number => exact absurd rfl (good.2.of_open isOpen record)
      | writes number held value =>
          have written := good.2.of_open isOpen
          exact ⟨good.1, Database.While.advance written⟩
      | backed number held reference =>
          refine ⟨good.1, good.2.1, ?_⟩
          rcases good.2.2 with listed | ⟨uncommitted, pending⟩
          · exact .inl listed
          · have written := pending.of_open isOpen
            exact .inr ⟨uncommitted, Database.While.advance written⟩
      | settled number => exact (good.2.2.of_open isOpen).elim
      | clashed | refused | never => exact good
    · exact good.spared (.advance db _ _) (.advance _ own)

theorem Database.apply_records (db : Database) (stage : Stage) :
    (db.apply stage).records = db.records ++ stage.record?.toList := by
  cases stage with
  | begun => exact (List.append_nil _).symm
  | inserted record => rfl
  | credited record account balance => cases account <;> rfl

theorem Database.apply_rest (db : Database) (stage : Stage) :
    (db.apply stage).transactions = db.transactions ∧
      (db.apply stage).nextTransaction = db.nextTransaction ∧
      (db.apply stage).committed = db.committed ∧
      (db.apply stage).clashes = db.clashes ∧
      (db.apply stage).refused = db.refused ∧
      (db.apply stage).responses = db.responses := by
  cases stage with
  | begun | inserted => exact ⟨rfl, rfl, rfl, rfl, rfl, rfl⟩
  | credited record account balance =>
      cases account <;> exact ⟨rfl, rfl, rfl, rfl, rfl, rfl⟩

/-- The tables after a commit. -/
def Database.afterCommit (db : Database) (number : Nat) (stage : Stage) :
    Database :=
  { (db.apply stage).release number with committed := db.committed ++ [number] }

theorem mem_afterCommit {number : Nat} :
    transaction ∈ (db.afterCommit number stage).transactions ↔
      transaction ∈ db.transactions ∧ transaction.number ≠ number := by
  have released :
      transaction ∈ ((db.apply stage).release number).transactions ↔ _ :=
    mem_release
  rwa [(db.apply_rest stage).1] at released

theorem Grows.afterCommit (db : Database) (number : Nat) (stage : Stage) :
    Grows db (db.afterCommit number stage) := by
  rcases db.apply_rest stage with ⟨_, next, _, clashes, refused, _⟩
  refine ⟨le_of_eq next.symm, ?_, fun _ => List.mem_append_left _,
    fun other member => ?_, fun other member => ?_⟩
  · intro record member
    change record ∈ (db.apply stage).records
    rw [db.apply_records]
    exact List.mem_append_left _ member
  · change other ∈ (db.apply stage).clashes
    rwa [clashes]
  · change other ∈ (db.apply stage).refused
    rwa [refused]

theorem Spares.afterCommit {number : Nat} (stage : Stage)
    (different : other ≠ number) :
    Spares other db (db.afterCommit number stage) := by
  rcases db.apply_rest stage with ⟨_, _, _, clashes, refused, _⟩
  refine ⟨fun _ member _ => (mem_afterCommit.1 member).1,
    mem_of_mem_append_ne different, fun member => ?_, fun member => ?_⟩
  · change other ∈ (db.apply stage).clashes at member
    rwa [clashes] at member
  · change other ∈ (db.apply stage).refused at member
    rwa [refused] at member

theorem Token.good.commit (good : token.good db) {number : Nat}
    (unpaid : token.exclusive → token ∉ pays (.commit number)) :
    token.good (db.commit number).2 := by
  rcases db.commit_cases number with unchanged | ⟨stage, isOpen, committed⟩
  · rw [unchanged]
    exact good
  · rw [committed]
    change token.good (db.afterCommit number stage)
    have grows := Grows.afterCommit db number stage
    by_cases own : token.number = number
    · subst own
      rcases db.apply_rest stage with ⟨_, next, _, clashes, refused, _⟩
      have gone : ∀ holds : Stage → Prop,
          (db.afterCommit token.number stage).While token.number holds :=
        fun _ transaction member same =>
          absurd same (mem_afterCommit.1 member).2
      have spared : db.Spared token.number →
          (db.afterCommit token.number stage).Spared token.number := by
        intro spared
        refine ⟨lt_of_lt_of_le spared.1 grows.next, fun member => ?_,
          fun member => ?_⟩
        · change _ ∈ (db.apply stage).clashes at member
          rw [clashes] at member
          exact spared.2.1 member
        · change _ ∈ (db.apply stage).refused at member
          rw [refused] at member
          exact spared.2.2 member
      cases token with
      | begun number => exact ⟨lt_of_lt_of_le good.1 grows.next, gone _⟩
      | inserted number => exact ⟨spared good.1, gone _⟩
      | ready number => exact absurd rfl (unpaid trivial)
      | writes number held value =>
          exact ⟨lt_of_lt_of_le good.1 grows.next, gone _⟩
      | backed number held reference =>
          refine ⟨lt_of_lt_of_le good.1 grows.next, good.2.1, .inl ?_⟩
          rcases good.2.2 with listed | ⟨_, pending⟩
          · exact grows.records held listed
          · have written := pending.of_open isOpen
            change held ∈ (db.apply stage).records
            rw [db.apply_records, written]
            exact List.mem_append_right _ (List.mem_singleton_self held)
      | settled number => exact (good.2.2.of_open isOpen).elim
      | clashed number => exact grows.clashes number good
      | refused number => exact grows.refused number good
      | never => exact good
    · exact good.spared grows (.afterCommit stage own)

theorem Token.good.answer (good : token.good db) {statement : Statement}
    (unpaid : token.exclusive → token ∉ pays statement) :
    token.good (statement.answer db).2 := by
  cases statement with
  | utcNow => exact good
  | beginTransaction =>
      have grows : Grows db (Statement.beginTransaction.answer db).2 :=
        ⟨Nat.le_succ _, fun _ => id, fun _ => id, fun _ => id, fun _ => id⟩
      rcases good.earlier with earlier | lasting
      · refine good.spared grows ⟨fun transaction member same => ?_, id, id, id⟩
        rcases List.mem_append.1 member with inside | new
        · exact inside
        · rw [List.mem_singleton.1 new] at same
          exact absurd same.symm (Nat.ne_of_lt earlier)
      · exact lasting.good grows
  | selectByReference number reference =>
      rcases db.select_cases number reference with refused | ⟨_, found⟩
      · rw [refused]
        exact good
      · rw [found]
        exact good
  | insert number record => exact good.insert unpaid
  | credit number account amount => exact good.credit unpaid
  | commit number => exact good.commit unpaid
  | disconnect number =>
      exact good.spared ⟨le_refl _, fun _ => id, fun _ => id, fun _ => id,
        fun _ => id⟩ (.release db number token.number)
  | respond response =>
      exact good.spared ⟨le_refl _, fun _ => id, fun _ => id, fun _ => id,
        fun _ => id⟩ ⟨fun _ member _ => member, id, id, id⟩

theorem Response.evidence_lasts {response : Response}
    (member : token ∈ response.evidence) : ¬ token.exclusive := by
  rcases response with ⟨userId, request, outcome⟩
  rcases outcome with error | ⟨number, error | record⟩
  · rw [member.2.1]
    exact id
  · rcases member with ⟨rfl, _⟩ | ⟨_, ⟨_, rfl⟩ | ⟨_, rfl⟩⟩
    · exact id
    · exact id
    · exact id
  · rcases member with ⟨rfl, _⟩ | rfl | rfl
    · exact id
    · exact id
    · exact id

/-! ## The tables of a step -/

section

variable (regular : Regular db)
include regular

theorem Regular.ending
    (transactions : ∀ transaction ∈ after.transactions,
      transaction ∈ db.transactions ∧ transaction.number ∉ after.clashes ∧
        transaction.number ∉ after.refused)
    (users : after.users = db.users) (tenants : after.tenants = db.tenants)
    (records : after.records = db.records)
    (committed : after.committed = db.committed)
    (next : after.nextTransaction = db.nextTransaction)
    (ended : ∀ number, number ∈ after.clashes ∨ number ∈ after.refused →
      number < db.nextTransaction)
    (responses : ∀ response ∈ after.responses, ∀ token ∈ response.evidence,
      token.good after) : Regular after := by
  have balance : after.balance = db.balance := by
    funext account
    cases account with
    | user id => exact congrFun users id
    | tenant id => exact congrArg (Option.map _) (congrFun tenants id)
  have paid : after.paid = db.paid := by
    funext account
    rw [Database.paid, Database.paid, records]
  refine ⟨records ▸ regular.references, ?_, ?_, ?_, ?_, ?_, ?_, ?_, responses⟩
  · rw [balance, paid]
    exact regular.balances
  · rw [balance, records]
    exact regular.covered
  · intro transaction member
    rcases transactions transaction member with ⟨inside, clash, refusal⟩
    have earlier := regular.numbers transaction inside
    rw [next, committed]
    exact ⟨earlier.1, earlier.2.1, clash, refusal⟩
  · intro transaction member
    have stage := regular.stages transaction (transactions transaction member).1
    cases held : transaction.stage with
    | begun => trivial
    | inserted | credited =>
        rw [held] at stage
        rw [Stage.Regular, records, balance]
        exact stage
  · exact fun one inOne other inOther => regular.inserts one
      (transactions one inOne).1 other (transactions other inOther).1
  · exact fun one inOne other inOther => regular.updates one
      (transactions one inOne).1 other (transactions other inOther).1
  · intro number member
    rw [next]
    rcases member with inCommitted | rest
    · rw [committed] at inCommitted
      exact regular.ended number (.inl inCommitted)
    · exact ended number rest

theorem Regular.answered (statement : Statement) :
    ∀ response ∈ db.responses, ∀ token ∈ response.evidence,
      token.good (statement.answer db).2 :=
  fun response inside _ member =>
    (regular.responses response inside _ member).answer fun exclusive =>
      absurd exclusive (Response.evidence_lasts member)

theorem Regular.beginTransaction :
    Regular (Statement.beginTransaction.answer db).2 := by
  have cases : ∀ transaction ∈ db.transactions ++
      [⟨db.nextTransaction, .begun⟩], transaction ∈ db.transactions ∨
        transaction = ⟨db.nextTransaction, .begun⟩ :=
    fun transaction member =>
      (List.mem_append.1 member).imp_right List.mem_singleton.1
  have fresh : ∀ number, number ∈ db.committed ∨ number ∈ db.clashes ∨
      number ∈ db.refused → number ≠ db.nextTransaction :=
    fun number member => Nat.ne_of_lt (regular.ended number member)
  refine ⟨regular.references, regular.balances, regular.covered, ?_, ?_, ?_, ?_,
    fun number member => Nat.lt_succ_of_lt (regular.ended number member),
    regular.answered _⟩
  · intro transaction member
    rcases cases transaction member with inside | rfl
    · have earlier := regular.numbers transaction inside
      exact ⟨Nat.lt_succ_of_lt earlier.1, earlier.2⟩
    · exact ⟨Nat.lt_succ_self _, fun listed => fresh _ (.inl listed) rfl,
        fun listed => fresh _ (.inr (.inl listed)) rfl,
        fun listed => fresh _ (.inr (.inr listed)) rfl⟩
  · intro transaction member
    rcases cases transaction member with inside | rfl
    · exact regular.stages transaction inside
    · trivial
  · intro one inOne other inOther held first second
    rcases cases one inOne with oldOne | rfl
    · rcases cases other inOther with oldOther | rfl
      · exact regular.inserts one oldOne other oldOther held first second
      · cases second
    · cases first
  · intro one inOne other inOther held first second
    rcases cases one inOne with oldOne | rfl
    · rcases cases other inOther with oldOther | rfl
      · exact regular.updates one oldOne other oldOther held first second
      · cases second
    · cases first

/-- A transaction goes on, with a stage that fits the tables and what the
other transactions have written. -/
theorem Regular.advance {number : Nat}
    {before : Stage} (isOpen : db.Open number before)
    (fits : stage.Regular db)
    (inserts : ∀ other ∈ db.transactions, other.number ≠ number → ∀ held,
      stage.record?.map PaymentRecord.transactionReference = some held →
        other.stage.record?.map PaymentRecord.transactionReference ≠ some held)
    (updates : ∀ other ∈ db.transactions, other.number ≠ number → ∀ held,
      stage.locked? = some held → other.stage.locked? ≠ some held)
    (responses : ∀ response ∈ db.responses, ∀ token ∈ response.evidence,
      token.good (db.advance number stage)) :
    Regular (db.advance number stage) where
  references := regular.references
  balances := regular.balances
  covered := regular.covered
  numbers := by
    intro transaction member
    rcases mem_advance member with rfl | ⟨inside, _⟩
    · exact regular.numbers ⟨number, before⟩ isOpen
    · exact regular.numbers transaction inside
  stages := by
    intro transaction member
    rcases mem_advance member with rfl | ⟨inside, _⟩
    · cases stage <;> exact fits
    · have old := regular.stages transaction inside
      cases held : transaction.stage <;> rw [held] at old <;> exact old
  inserts := by
    intro one inOne other inOther held first second
    rcases mem_advance inOne with rfl | ⟨oldOne, notOne⟩
    · rcases mem_advance inOther with rfl | ⟨oldOther, notOther⟩
      · rfl
      · exact absurd second (inserts other oldOther notOther held first)
    · rcases mem_advance inOther with rfl | ⟨oldOther, _⟩
      · exact absurd first (inserts one oldOne notOne held second)
      · exact regular.inserts one oldOne other oldOther held first second
  updates := by
    intro one inOne other inOther held first second
    rcases mem_advance inOne with rfl | ⟨oldOne, notOne⟩
    · rcases mem_advance inOther with rfl | ⟨oldOther, notOther⟩
      · rfl
      · exact absurd second (updates other oldOther notOther held first)
    · rcases mem_advance inOther with rfl | ⟨oldOther, _⟩
      · exact absurd first (updates one oldOne notOne held second)
      · exact regular.updates one oldOne other oldOther held first second
  ended := regular.ended
  responses := responses

end

theorem Database.references_balance (references : db.references record = true) :
    (db.balance record.account).isSome = true := by
  rw [Database.references, Bool.and_eq_true] at references
  rw [PaymentRecord.account]
  cases named : record.tenantId with
  | none => exact references.1
  | some tenantId =>
      rw [named] at references
      simpa [creditedAccount, Database.balance] using references.2

theorem Regular.insert (regular : Regular db) (number : Nat)
    (record : PaymentRecord) : Regular (db.insert number record).2 := by
  have answered := regular.answered (.insert number record)
  change ∀ response ∈ db.responses, ∀ token ∈ response.evidence,
    token.good (db.insert number record).2 at answered
  rcases db.insert_cases number record with unchanged |
    ⟨isOpen, ⟨clash, _⟩ | ⟨error, _, _, refusal⟩ |
      ⟨written, unlisted, waits, references⟩⟩
  · rw [unchanged]
    exact regular
  · have earlier := (regular.numbers ⟨number, .begun⟩ isOpen).1
    rw [clash] at answered ⊢
    refine regular.ending ?_ rfl rfl rfl rfl rfl ?_ answered
    · intro transaction member
      rcases mem_release.1 member with ⟨inside, different⟩
      have spared := (regular.numbers transaction inside).2.2
      exact ⟨inside, fun listed => spared.1 (mem_of_mem_append_ne different listed),
        spared.2⟩
    · rintro other (listed | listed)
      · rcases List.mem_append.1 listed with old | new
        · exact regular.ended other (.inr (.inl old))
        · rw [List.mem_singleton.1 new]
          exact earlier
      · exact regular.ended other (.inr (.inr listed))
  · have earlier := (regular.numbers ⟨number, .begun⟩ isOpen).1
    rw [refusal] at answered ⊢
    refine regular.ending ?_ rfl rfl rfl rfl rfl ?_ answered
    · intro transaction member
      rcases mem_release.1 member with ⟨inside, different⟩
      have spared := (regular.numbers transaction inside).2.2
      exact ⟨inside, spared.1,
        fun listed => spared.2 (mem_of_mem_append_ne different listed)⟩
    · rintro other (listed | listed)
      · exact regular.ended other (.inr (.inl listed))
      · rcases List.mem_append.1 listed with old | new
        · exact regular.ended other (.inr (.inr old))
        · rw [List.mem_singleton.1 new]
          exact earlier
  · rw [written] at answered ⊢
    refine regular.advance isOpen
      ⟨unlisted, Database.references_balance references⟩ ?_ ?_ answered
    · intro other inside different held first second
      cases first
      cases inserted : other.stage.record? with
      | none =>
          rw [inserted] at second
          cases second
      | some pending =>
          rw [inserted] at second
          have waiting : db.insertWaits number record = true := by
            refine List.any_eq_true.2 ⟨other, inside, ?_⟩
            rw [inserted]
            simpa [different] using .inl (Option.some.inj second)
          rw [waits] at waiting
          cases waiting
    · intro other _ _ held impossible
      cases impossible

theorem Regular.credit (regular : Regular db) {number : Nat}
    {account : Account} {amount : Rat}
    (writes : (Token.writes number account amount).good db) :
    Regular (db.credit number account amount).2 := by
  have answered := regular.answered (.credit number account amount)
  change ∀ response ∈ db.responses, ∀ token ∈ response.evidence,
    token.good (db.credit number account amount).2 at answered
  rcases db.credit_cases number account amount with
    unchanged | ⟨record, isOpen, ⟨_, unchanged⟩ | ⟨balance, held, waits, written⟩⟩
  · rw [unchanged]
    exact regular
  · rw [unchanged]
    exact regular
  · rw [written] at answered ⊢
    rcases writes.2.of_open isOpen with ⟨other, pending, own, same⟩
    cases pending
    have stage : Stage.Regular db (.inserted record) :=
      regular.stages ⟨number, .inserted record⟩ isOpen
    refine regular.advance isOpen
      ⟨stage.1, own, balance, held, by rw [same]⟩ ?_ ?_ answered
    · intro other inside different held first second
      exact different (regular.inserts other inside ⟨number, .inserted record⟩
        isOpen held second first)
    · intro other inside different locked first second
      cases first
      have waiting : db.updateWaits number account = true := by
        refine List.any_eq_true.2 ⟨other, inside, ?_⟩
        simpa [different] using second
      rw [waits] at waiting
      cases waiting

theorem Database.balance_setBalance (db : Database) (value : Rat)
    (account other : Account) :
    (db.setBalance value account).balance other =
      if other = account then some value else db.balance other := by
  cases account with
  | user id =>
      cases other with
      | user id' =>
          by_cases same : id' = id <;>
            simp [setBalance, balance, Function.update, same]
      | tenant id' => simp [setBalance, balance]
  | tenant id =>
      cases other with
      | user id' => simp [setBalance, balance]
      | tenant id' =>
          by_cases same : id' = id <;>
            simp [setBalance, balance, Function.update, same]

theorem Database.balance_credited (db : Database) (record : PaymentRecord)
    (account other : Account) (value : Rat) :
    (db.apply (.credited record account value)).balance other =
      if other = account then some value else db.balance other := by
  rw [← db.balance_setBalance]
  cases account <;> cases other <;> rfl

theorem Regular.apply (regular : Regular db) {number : Nat}
    (isOpen : db.Open number stage)
    (ready : ∀ record, stage ≠ .inserted record) :
    ((db.apply stage).records.map PaymentRecord.transactionReference).Nodup ∧
      (∀ account balance, (db.apply stage).balance account = some balance →
        balance = (db.apply stage).paid account) ∧
      (∀ record ∈ (db.apply stage).records,
        ((db.apply stage).balance record.account).isSome = true) ∧
      ∀ transaction ∈ db.transactions, transaction.number ≠ number →
        transaction.stage.Regular (db.apply stage) := by
  cases stage with
  | begun => exact ⟨regular.references, regular.balances, regular.covered,
      fun transaction inside _ => regular.stages transaction inside⟩
  | inserted record => exact absurd rfl (ready record)
  | credited record account value =>
      rcases regular.stages ⟨number, .credited record account value⟩ isOpen with
        ⟨unlisted, rfl, before, held, rfl⟩
      have balances := db.balance_credited record record.account
      have kept : ∀ {account}, (db.balance account).isSome = true →
          ((db.apply (.credited record record.account
            (before + record.amount))).balance account).isSome = true := by
        intro account present
        rw [balances]
        split
        · rfl
        · exact present
      have records := db.apply_records
        (.credited record record.account (before + record.amount))
      refine ⟨?_, ?_, ?_, ?_⟩
      · rw [records, List.map_append, List.nodup_append']
        refine ⟨regular.references, List.nodup_singleton _, ?_⟩
        exact List.disjoint_singleton.2 unlisted
      · intro account balance found
        have paid : (db.apply (.credited record record.account
            (before + record.amount))).paid account =
              db.paid account +
                if record.account = account then record.amount else 0 := by
          rw [Database.paid, records, Database.paid, List.filter_append,
            List.map_append, List.sum_append]
          congr 1
          by_cases same : record.account = account <;> simp [Stage.record?, same]
        rw [paid]
        rw [balances] at found
        by_cases same : account = record.account
        · subst same
          rw [if_pos rfl, Option.some.injEq] at found
          rw [← found, if_pos rfl, regular.balances _ before held]
        · rw [if_neg same] at found
          rw [if_neg fun other => same other.symm, add_zero]
          exact regular.balances account balance found
      · intro other member
        rw [records] at member
        rcases List.mem_append.1 member with old | new
        · exact kept (regular.covered other old)
        · rw [List.mem_singleton.1 new, balances, if_pos rfl]
          rfl
      · intro transaction inside different
        have unshared : ∀ pending,
            transaction.stage.record? = some pending →
              pending.transactionReference ∉
                db.records.map PaymentRecord.transactionReference →
              pending.transactionReference ∉
                (db.apply (.credited record record.account
                  (before + record.amount))).records.map
                    PaymentRecord.transactionReference := by
          intro pending written fresh listed
          rw [records, List.map_append, List.mem_append] at listed
          rcases listed with old | new
          · exact fresh old
          · refine different (regular.inserts transaction inside
              ⟨number, .credited record record.account
                (before + record.amount)⟩ isOpen record.transactionReference
                ?_ rfl)
            change transaction.stage.record?.map _ = _
            rw [written]
            exact congrArg some (List.mem_singleton.1 new)
        have stage := regular.stages transaction inside
        cases held' : transaction.stage with
        | begun => trivial
        | inserted pending =>
            rw [held'] at stage
            exact ⟨unshared pending (by rw [held']; rfl) stage.1, kept stage.2⟩
        | credited pending account value =>
            rw [held'] at stage
            rcases stage with ⟨fresh, own, earlier, found, sum⟩
            refine ⟨unshared pending (by rw [held']; rfl) fresh, own, earlier,
              ?_, sum⟩
            rw [balances, if_neg]
            · exact found
            · rintro rfl
              exact different (regular.updates transaction inside
                ⟨number, .credited record record.account
                  (before + record.amount)⟩ isOpen record.account
                  (by rw [held']; rfl) rfl)

theorem Regular.commit (regular : Regular db) {number : Nat}
    (ready : (Token.ready number).good db) : Regular (db.commit number).2 := by
  have answered := regular.answered (.commit number)
  change ∀ response ∈ db.responses, ∀ token ∈ response.evidence,
    token.good (db.commit number).2 at answered
  rcases db.commit_cases number with unchanged | ⟨stage, isOpen, committed⟩
  · rw [unchanged]
    exact regular
  · rw [committed] at answered ⊢
    rcases regular.apply isOpen (ready.2.of_open isOpen) with
      ⟨references, balances, covered, stages⟩
    rcases db.apply_rest stage with
      ⟨transactions, next, _, clashes, refused, responses⟩
    have earlier := (regular.numbers ⟨number, stage⟩ isOpen).1
    have cases : ∀ transaction ∈ (db.afterCommit number stage).transactions,
        transaction ∈ db.transactions ∧ transaction.number ≠ number :=
      fun _ member => mem_afterCommit.1 member
    constructor
    · exact references
    · exact balances
    · exact covered
    · intro transaction member
      rcases cases transaction member with ⟨inside, different⟩
      rcases regular.numbers transaction inside with ⟨lower, open?, clash, refusal⟩
      refine ⟨lt_of_lt_of_eq lower next.symm,
        fun listed => open? (mem_of_mem_append_ne different listed), ?_, ?_⟩
      · change _ ∉ (db.apply stage).clashes
        rwa [clashes]
      · change _ ∉ (db.apply stage).refused
        rwa [refused]
    · intro transaction member
      rcases cases transaction member with ⟨inside, different⟩
      have kept := stages transaction inside different
      cases held : transaction.stage <;> rw [held] at kept <;> exact kept
    · exact fun one inOne other inOther => regular.inserts one
        (cases one inOne).1 other (cases other inOther).1
    · exact fun one inOne other inOther => regular.updates one
        (cases one inOne).1 other (cases other inOther).1
    · intro other listed
      refine lt_of_lt_of_eq ?_ next.symm
      rcases listed with inCommitted | inClashes | inRefused
      · rcases List.mem_append.1 inCommitted with old | new
        · exact regular.ended other (.inl old)
        · rw [List.mem_singleton.1 new]
          exact earlier
      · change other ∈ (db.apply stage).clashes at inClashes
        rw [clashes] at inClashes
        exact regular.ended other (.inr (.inl inClashes))
      · change other ∈ (db.apply stage).refused at inRefused
        rw [refused] at inRefused
        exact regular.ended other (.inr (.inr inRefused))
    · intro response member
      change response ∈ (db.apply stage).responses at member
      rw [responses] at member
      exact answered response member

/-- A step keeps the tables regular when its statement is paid for. -/
theorem Regular.answer (regular : Regular db)
    {statement : Statement} (paid : ∀ token ∈ pays statement, token.good db) :
    Regular (statement.answer db).2 := by
  cases statement with
  | utcNow => exact regular
  | beginTransaction => exact regular.beginTransaction
  | selectByReference number reference =>
      rcases db.select_cases number reference with refused | ⟨_, found⟩
      · rw [refused]
        exact regular
      · rw [found]
        exact regular
  | insert number record => exact regular.insert number record
  | credit number account amount => exact regular.credit (paid _ (.inr rfl))
  | commit number => exact regular.commit (paid _ rfl)
  | disconnect number =>
      refine regular.ending ?_ rfl rfl rfl rfl rfl
        (fun other listed => regular.ended other (.inr listed))
        (regular.answered (.disconnect number))
      intro transaction member
      have inside := (mem_release.1 member).1
      exact ⟨inside, (regular.numbers transaction inside).2.2⟩
  | respond response =>
      refine regular.ending (fun transaction inside =>
        ⟨inside, (regular.numbers transaction inside).2.2⟩) rfl rfl rfl rfl rfl
        (fun other listed => regular.ended other (.inr listed)) ?_
      intro other member token evidence
      rcases List.mem_append.1 member with old | new
      · exact regular.answered (.respond response) other old token evidence
      · rw [List.mem_singleton.1 new] at evidence
        exact (paid token evidence).answer fun exclusive =>
          absurd exclusive (Response.evidence_lasts evidence)

/-! ## A call pays for its statements -/

theorem possible_answer (db : Database) (statement : Statement) :
    possible statement (statement.answer db).1 := by
  cases statement with
  | insert number record =>
      change possible (.insert number record) (db.insert number record).1
      rcases db.insert_cases number record with unchanged |
        ⟨_, ⟨clash, _⟩ | ⟨error, _, _, refusal⟩ | ⟨written, _⟩⟩
      · rw [unchanged]
        trivial
      · rw [clash]
        trivial
      · rw [refusal]
        trivial
      · rw [written]
        rfl
  | credit number account amount =>
      change possible (.credit number account amount)
        (db.credit number account amount).1
      rcases db.credit_cases number account amount with
        unchanged | ⟨record, _, ⟨_, unchanged⟩ | ⟨balance, _, _, written⟩⟩
      · rw [unchanged]
        rfl
      · rw [unchanged]
        trivial
      · rw [written]
        trivial
  | commit number =>
      change possible (.commit number) (db.commit number).1
      rcases db.commit_cases number with unchanged | ⟨stage, _, committed⟩
      · rw [unchanged]
        rfl
      · rw [committed]
        trivial
  | selectByReference number reference =>
      rcases db.select_cases number reference with refused | ⟨_, found⟩
      · rw [refused]
        rfl
      · rw [found]
        trivial
  | _ => trivial

theorem possible_unavailable (statement : Statement) :
    possible statement (.error unavailable) := by
  cases statement <;> first | rfl | trivial

theorem gains_unavailable (statement : Statement) :
    gains statement (.error unavailable) = ∅ := by
  cases statement with
  | insert number record =>
      apply Set.eq_empty_of_forall_notMem
      exact fun token gained => gained.1 rfl
  | selectByReference number reference => rfl
  | _ => rfl

/-- What is gained is good, and what is exclusive is new or was paid for. -/
theorem gains_good (regular : Regular db)
    {statement : Statement} (paid : ∀ token ∈ pays statement, token.good db)
    (gained : token ∈ gains statement (statement.answer db).1) :
    token.good (statement.answer db).2 ∧
      (token.exclusive → token.good db → token ∈ pays statement) := by
  cases statement with
  | utcNow => exact gained.elim
  | beginTransaction =>
      have fresh : ∀ number, number ∈ db.committed ∨ number ∈ db.clashes ∨
          number ∈ db.refused → number ≠ db.nextTransaction :=
        fun number member => Nat.ne_of_lt (regular.ended number member)
      have new : ∀ holds : Stage → Prop, holds .begun →
          (Statement.beginTransaction.answer db).2.While db.nextTransaction
            holds := by
        intro holds now transaction member same
        rcases List.mem_append.1 member with old | last
        · exact absurd same (Nat.ne_of_lt (regular.numbers transaction old).1)
        · rw [List.mem_singleton.1 last]
          exact now
      rcases gained with rfl | rfl
      · refine ⟨⟨Nat.lt_succ_self _, new _ rfl⟩, fun _ good => ?_⟩
        exact absurd good.1 (Nat.lt_irrefl _)
      · refine ⟨⟨⟨Nat.lt_succ_self _,
          fun listed => fresh _ (.inr (.inl listed)) rfl,
          fun listed => fresh _ (.inr (.inr listed)) rfl⟩, new _ ?_⟩,
          fun _ good => absurd good.1.1 (Nat.lt_irrefl _)⟩
        exact fun record impossible => by cases impossible
  | selectByReference number reference =>
      rcases db.select_cases number reference with refused | ⟨isOpen, found⟩
      · rw [refused] at gained
        exact gained.elim
      · rw [found] at gained ⊢
        dsimp only at gained ⊢
        cases selected : db.records.find? fun record =>
            record.transactionReference = reference with
        | none =>
            rw [selected] at gained
            exact gained.elim
        | some record =>
            rw [selected] at gained
            cases gained
            exact ⟨⟨(regular.numbers ⟨number, .begun⟩ isOpen).1,
              by simpa using List.find?_some selected,
              .inl (List.mem_of_find?_eq_some selected)⟩, False.elim⟩
  | insert number record =>
      change token ∈ gains (.insert number record) (db.insert number record).1
        at gained
      change token.good (db.insert number record).2 ∧ _
      rcases db.insert_cases number record with unchanged |
        ⟨isOpen, ⟨clash, _⟩ | ⟨error, other, another, refusal⟩ |
          ⟨written, _⟩⟩
      · rw [unchanged] at gained
        exact absurd rfl gained.1
      · rw [clash] at gained ⊢
        rcases gained.2 with ⟨_, rfl⟩ | ⟨different, _⟩
        · exact ⟨List.mem_append_right _ (List.mem_singleton_self _), False.elim⟩
        · exact absurd rfl different
      · rw [refusal] at gained ⊢
        rcases gained.2 with ⟨same, _⟩ | ⟨_, rfl⟩
        · exact absurd same another
        · exact ⟨List.mem_append_right _ (List.mem_singleton_self _), False.elim⟩
      · have ready := paid (.ready number) (.inr rfl)
        rw [written] at gained ⊢
        rcases gained with rfl | rfl | rfl
        · refine ⟨⟨ready.1, Database.While.advance ⟨record, rfl⟩⟩,
            fun _ good => ?_⟩
          rcases good.2.of_open isOpen with ⟨_, impossible⟩
          cases impossible
        · exact ⟨⟨ready.1.1,
            Database.While.advance ⟨record, rfl, rfl, rfl⟩⟩, False.elim⟩
        · refine ⟨⟨ready.1.1, rfl, .inr ⟨?_, Database.While.advance rfl⟩⟩,
            False.elim⟩
          exact (regular.numbers ⟨number, .begun⟩ isOpen).2.1
  | credit number account amount =>
      change token ∈ gains (.credit number account amount)
        (db.credit number account amount).1 at gained
      change token.good (db.credit number account amount).2 ∧ _
      have inserted := paid (.inserted number) (.inl rfl)
      have writes := paid (.writes number account amount) (.inr rfl)
      rcases db.credit_cases number account amount with
        unchanged | ⟨record, isOpen, ⟨missing, _⟩ | ⟨balance, _, _, written⟩⟩
      · rw [unchanged] at gained
        exact gained.elim
      · rcases writes.2.of_open isOpen with ⟨_, pending, own, _⟩
        cases pending
        have present := (regular.stages ⟨number, .inserted record⟩ isOpen).2
        rw [own, missing] at present
        cases present
      · rw [written] at gained ⊢
        cases gained
        refine ⟨⟨inserted.1, Database.While.advance ?_⟩, fun _ good => ?_⟩
        · exact fun _ impossible => by cases impossible
        · exact absurd rfl (good.2.of_open isOpen record)
  | commit number =>
      change token ∈ gains (.commit number) (db.commit number).1 at gained
      change token.good (db.commit number).2 ∧ _
      have ready := paid (.ready number) rfl
      rcases db.commit_cases number with unchanged | ⟨stage, isOpen, committed⟩
      · rw [unchanged] at gained
        exact gained.elim
      · rw [committed] at gained ⊢
        cases gained
        rcases db.apply_rest stage with ⟨_, next, _, clashes, refused, _⟩
        refine ⟨⟨⟨lt_of_lt_of_eq ready.1.1 next.symm, fun listed => ?_,
          fun listed => ?_⟩, List.mem_append_right _ (List.mem_singleton_self _),
          ?_⟩, False.elim⟩
        · change number ∈ (db.apply stage).clashes at listed
          rw [clashes] at listed
          exact ready.1.2.1 listed
        · change number ∈ (db.apply stage).refused at listed
          rw [refused] at listed
          exact ready.1.2.2 listed
        · exact fun transaction member same =>
            (mem_afterCommit.1 member).2 same
  | disconnect | respond => exact gained.elim

/-! ## The programs -/

/-- The lookup of a call leaves what it holds, and backs what it finds. -/
theorem existingRecord_affords (number : Nat) (req : CreatePaymentRequest)
    {held : Set Token} (begun : .begun number ∈ held)
    (ready : .ready number ∈ held) :
    (existingRecord number req).Affords ledger
      (fun held result =>
        (∀ error, result = .error error → error = unavailable) ∧
        ∀ found, result = .ok found →
          .begun number ∈ held ∧ .ready number ∈ held ∧
            ∀ record, found = some record →
              .backed number record req.transactionReference ∈ held) held := by
  by_cases named : (!req.transactionReference.trim.isEmpty) = true
  · have selects : existingRecord number req =
        .ask (.selectByReference number req.transactionReference) .done :=
      if_pos named
    rw [selects]
    refine ⟨Set.empty_subset _, fun reply possible => ?_⟩
    rcases reply with error | selected
    · refine ⟨fun other same => ?_, fun _ impossible => by cases impossible⟩
      cases same
      exact possible
    · refine ⟨fun _ impossible => (by cases impossible), fun found same => ?_⟩
      cases same
      refine ⟨.inl ⟨begun, id⟩, .inl ⟨ready, id⟩, ?_⟩
      rintro record rfl
      exact .inr rfl
  · have skips : existingRecord number req = .done (.ok none) := if_neg named
    rw [skips]
    refine ⟨fun _ impossible => (by cases impossible), fun found same => ?_⟩
    cases same
    exact ⟨begun, ready, fun record impossible => by cases impossible⟩

theorem evidence_unavailable (userId : Text) (req : CreatePaymentRequest)
    (held : Set Token) :
    (⟨userId, req, .error unavailable⟩ : Response).evidence ⊆ held := by
  rintro token ⟨different, _⟩
  exact absurd rfl different

/-- A call ends with the evidence of its response. -/
theorem recordPayment_affords (id userId : Text) (req : CreatePaymentRequest) :
    (recordPayment id userId req).Affords ledger
      (fun held result =>
        (⟨userId, req, result⟩ : Response).evidence ⊆ held) ∅ := by
  unfold recordPayment
  split
  · rename_i refused
    rintro token ⟨_, _, positive⟩
    exact absurd positive (not_lt.2 refused)
  rename_i positive
  rw [not_le] at positive
  refine ⟨Set.empty_subset _, fun reply possible => ?_⟩
  rcases reply with error | number
  · cases possible
    exact evidence_unavailable userId req _
  have begun : Token.begun number ∈
      ledger.holds ∅ .beginTransaction (.ok number) := .inr (.inl rfl)
  have ready : Token.ready number ∈
      ledger.holds ∅ .beginTransaction (.ok number) := .inr (.inr rfl)
  refine (existingRecord_affords number req begun ready).bind ?_ ?_
  · intro held error ensured
    rw [ensured.1 error rfl]
    exact evidence_unavailable userId req _
  · intro held found ensured
    rcases ensured.2 found rfl with ⟨begun, ready, backed⟩
    cases found with
    | some record =>
        refine ⟨?_, fun reply possible => ?_⟩
        · rintro token rfl
          exact ready
        rcases reply with error | _
        · cases possible
          exact evidence_unavailable userId req _
        rintro token (⟨rfl, refused⟩ | rfl | rfl)
        · exact absurd positive refused
        · exact .inr rfl
        · refine .inl ⟨backed record rfl, ?_⟩
          intro impossible
          cases impossible
    | none =>
        refine ⟨Set.empty_subset _, fun reply possible => ?_⟩
        rcases reply with error | now
        · cases possible
          exact evidence_unavailable userId req _
        refine ⟨?_, fun reply possible => ?_⟩
        · rintro token (rfl | rfl)
          · exact .inl ⟨begun, Set.notMem_empty _⟩
          · exact .inl ⟨ready, Set.notMem_empty _⟩
        rcases reply with error | record
        · rintro token (⟨rfl, refused⟩ | ⟨different, gained⟩)
          · exact absurd positive refused
          · exact .inr ⟨different, gained⟩
        cases possible
        refine ⟨?_, fun reply possible => ?_⟩
        · rintro token (rfl | rfl)
          · exact .inr (.inl rfl)
          · exact .inr (.inr (.inl rfl))
        rcases reply with error | _
        · cases possible
          exact evidence_unavailable userId req _
        refine ⟨?_, fun reply possible => ?_⟩
        · rintro token rfl
          exact .inr rfl
        rcases reply with error | _
        · cases possible
          exact evidence_unavailable userId req _
        rintro token (⟨rfl, refused⟩ | rfl | rfl)
        · exact absurd positive refused
        · exact .inr rfl
        · refine .inl ⟨.inl ⟨.inr (.inr (.inr rfl)), ?_⟩, ?_⟩
          · rintro (impossible | impossible) <;> cases impossible
          · intro impossible
            cases impossible

theorem call_affords (id userId : Text) (req : CreatePaymentRequest) :
    (call id userId req).Affords ledger (fun _ _ => True) ∅ := by
  have attempted : ((recordPayment id userId req).attempt : Task _).Affords
      ledger (fun held result => ∀ outcome, result = .ok outcome →
        (⟨userId, req, outcome⟩ : Response).evidence ⊆ held) ∅ := by
    apply (recordPayment_affords id userId req).attempt
    rintro held result evidence outcome same
    cases same
    exact evidence
  refine attempted.bind ?_ ?_
  · exact fun _ _ _ => trivial
  · intro held outcome evidence
    refine ⟨evidence outcome rfl, fun reply _ => ?_⟩
    rcases reply with error | _ <;> trivial

theorem Operation.program_affords (operation : Operation) :
    operation.program.Affords ledger (fun _ _ => True) ∅ := by
  cases operation with
  | recordPayment id userId req => exact call_affords id userId req
  | processWebhook id event =>
      change (Payments.processWebhook id event).Affords ledger
        (fun _ _ => True) ∅
      unfold Payments.processWebhook
      split
      · trivial
      · exact call_affords id event.userId _
  | disconnect number =>
      refine ⟨Set.empty_subset _, fun reply _ => ?_⟩
      rcases reply with error | _ <;> trivial

theorem lawful : ledger.Lawful machine anyStep Regular where
  operation := Operation.program_affords
  possible := by
    intro db process statement reply after held _ _ executes _
    cases executes with
    | answered => exact possible_answer db statement
    | failed | lost => exact possible_unavailable statement
  kept := by
    intro db process statement reply after regular _ executes paid
    rcases executes.after_cases with rfl | rfl
    · exact regular
    · exact regular.answer paid
  stays := by
    intro db process statement reply after token _ _ executes good unpaid
    rcases executes.after_cases with rfl | rfl
    · exact good
    · exact Token.good.answer good unpaid
  gained := by
    intro db process statement reply after token regular _ executes paid gained
    cases executes with
    | answered => exact gains_good regular paid gained
    | failed | lost =>
        change token ∈ gains statement (.error unavailable) at gained
        rw [gains_unavailable] at gained
        exact gained.elim
  time := by
    intro db duration regular
    have same : ∀ token : Token, token.good db → token.good
        { db with clock := db.clock + duration } := by
      intro token good
      exact good.spared ⟨le_refl _, fun _ => id, fun _ => id, fun _ => id,
        fun _ => id⟩ ⟨fun _ member _ => member, id, id, id⟩
    exact ⟨regular.ending (fun transaction inside =>
      ⟨inside, (regular.numbers transaction inside).2.2⟩) rfl rfl rfl rfl rfl
      (fun other listed => regular.ended other (.inr listed))
      fun response inside token member =>
        same token (regular.responses response inside token member), same⟩

/-! ## Every run -/

/-- Committed tables that are in order, with no call under way. -/
structure Start (config : Configuration) : Prop where
  references :
    (config.state.records.map PaymentRecord.transactionReference).Nodup
  balances : ∀ account balance, config.state.balance account = some balance →
    balance = config.state.paid account
  covered : ∀ record ∈ config.state.records,
    (config.state.balance record.account).isSome = true
  history : config.state.transactions = [] ∧ config.state.committed = [] ∧
    config.state.clashes = [] ∧ config.state.refused = [] ∧
    config.state.responses = []
  idle : ∀ process, config.processes process = none

theorem Start.sound {config : Configuration} (start : Start config) :
    ∃ held, ledger.Sound Regular config held := by
  rcases start.history with ⟨transactions, committed, clashes, refused, responses⟩
  refine ⟨fun _ => ∅, ?_, fun _ _ member => member.elim,
    fun _ member => member.elim, ?_⟩
  · refine ⟨start.references, start.balances, start.covered, ?_, ?_, ?_, ?_, ?_, ?_⟩
    · rw [transactions]
      exact fun _ impossible => by cases impossible
    · rw [transactions]
      exact fun _ impossible => by cases impossible
    · rw [transactions]
      exact fun _ impossible => by cases impossible
    · rw [transactions]
      exact fun _ impossible => by cases impossible
    · rw [committed, clashes, refused]
      rintro number (impossible | impossible | impossible) <;> cases impossible
    · rw [responses]
      exact fun _ impossible => by cases impossible
  · intro process program running
    rw [start.idle process] at running
    cases running

/-- What the caller gets. -/
def Response.result (response : Response) : Except AppError PaymentRecord :=
  response.outcome.bind Outcome.result

/-- The amount is positive, and the insert of the call, if it came to one, met
no record of its reference and was refused for nothing else. -/
def Response.Undisturbed (db : Database) (response : Response) : Prop :=
  0 < response.request.amount ∧ ∀ outcome, response.outcome = .ok outcome →
    outcome.transaction ∉ db.clashes ∧ outcome.transaction ∉ db.refused

/-- An answered call for a recorded reference returns the record exactly when
it was undisturbed. -/
theorem Regular.returns_iff (regular : Regular db)
    {response : Response} (member : response ∈ db.responses)
    (answered : response.result ≠ .error unavailable)
    (listed : record ∈ db.records)
    (same : record.transactionReference =
      response.request.transactionReference) :
    response.result = .ok record ↔ response.Undisturbed db := by
  have evidence := regular.responses response member
  rcases response with ⟨userId, request, error | ⟨number, error | returned⟩⟩
  · have refused : ¬ 0 < request.amount := fun positive =>
      evidence .never ⟨fun lost => answered (congrArg _ lost), rfl, positive⟩
    exact iff_of_false (fun impossible => by cases impossible)
      fun undisturbed => refused undisturbed.1
  · refine iff_of_false (fun impossible => by cases impossible)
      fun undisturbed => ?_
    have spared := undisturbed.2 _ rfl
    have other : error ≠ unavailable := fun lost =>
      answered (congrArg Except.error lost)
    by_cases clash : error = .database (.uniqueViolation referenceKey)
    · exact spared.1 (evidence (.clashed number)
        (.inr ⟨other, .inl ⟨clash, rfl⟩⟩))
    · exact spared.2 (evidence (.refused number)
        (.inr ⟨other, .inr ⟨clash, rfl⟩⟩))
  · have settled := evidence (.settled number) (.inr (.inl rfl))
    have backed := evidence
      (.backed number returned request.transactionReference) (.inr (.inr rfl))
    have inTable : returned ∈ db.records := by
      rcases backed.2.2 with inside | ⟨uncommitted, _⟩
      · exact inside
      · exact absurd settled.2.1 uncommitted
    have positive : 0 < request.amount := by
      by_contra refused
      exact evidence .never (.inl ⟨rfl, refused⟩)
    have one := List.inj_on_of_nodup_map regular.references listed inTable
      (same.trans backed.2.1.symm)
    refine iff_of_true (by rw [one]; rfl) ⟨positive, ?_⟩
    intro outcome own
    cases own
    exact settled.1.2

/-- However calls and redeliveries interleave, and whatever is lost on the way:
every reference has at most one record, every balance is the sum of the
records that credit the account, and every record credits an account; and a
call that was answered, whose reference some call has recorded, returns that
record exactly when its insert met no record and was refused for nothing
else. -/
theorem payments_credit_once_iff {start config : Configuration}
    (started : Start start) (run : machine.Run anyStep start config) :
    (config.state.records.map PaymentRecord.transactionReference).Nodup ∧
    (∀ account balance, config.state.balance account = some balance →
      balance = config.state.paid account) ∧
    (∀ record ∈ config.state.records,
      (config.state.balance record.account).isSome = true) ∧
    ∀ response ∈ config.state.responses,
      response.result ≠ .error unavailable →
      ∀ record ∈ config.state.records,
        record.transactionReference =
          response.request.transactionReference →
        (response.result = .ok record ↔ response.Undisturbed config.state) := by
  rcases lawful.run started.sound run with ⟨held, sound⟩
  have regular := sound.inv
  exact ⟨regular.references, regular.balances, regular.covered,
    fun response member answered record listed same =>
      regular.returns_iff member answered listed same⟩

/-! ## Two calls for one payment -/

/-- Alice, without a balance yet. -/
def alicePays : Configuration where
  state :=
    { users := fun id => if id = ("alice" : Text) then some 0 else none
      tenants := fun _ => none
      records := []
      transactions := []
      nextTransaction := 0
      clock := 0
      committed := []
      clashes := []
      refused := []
      responses := [] }
  processes _ := none

theorem alicePays_start : Start alicePays where
  references := List.nodup_nil
  balances := by
    rintro (id | id) balance found
    · simp only [alicePays, Database.balance] at found
      split at found
      · cases found
        rfl
      · cases found
    · cases found
  covered := fun _ impossible => by cases impossible
  history := ⟨rfl, rfl, rfl, rfl, rfl⟩
  idle := fun _ => rfl

def tenDollars : CreatePaymentRequest where
  tenantId := none
  amount := 10
  currency := none
  paymentProvider := none
  transactionReference := "reference-1"
  description := none

/-- A call and, once it has ended, its redelivery. -/
def redelivered : Configuration :=
  machine.schedule (fun _ _ => true) alicePays
    [.call 0 (.recordPayment "payment-1" "alice" tenDollars), .advance 0 7,
      .call 1 (.recordPayment "payment-2" "alice" tenDollars), .advance 1 4]

/-- Two calls that both select before either inserts. -/
def raced : Configuration :=
  machine.schedule (fun _ _ => true) alicePays
    [.call 0 (.recordPayment "payment-1" "alice" tenDollars),
      .call 1 (.recordPayment "payment-2" "alice" tenDollars),
      .advance 0 2, .advance 1 2, .advance 0 5, .advance 1 3]

theorem schedule_run (actions : List (Action Operation)) :
    machine.Run anyStep alicePays
      (machine.schedule (fun _ _ => true) alicePays actions) := by
  have admits : Admits machine (fun _ _ => true) anyStep :=
    ⟨fun _ => trivial, trivial, trivial, fun _ => trivial⟩
  exact admits.schedule alicePays actions

/-- The record of the payment. -/
def firstPayment : PaymentRecord := newRecord "payment-1" "alice" tenDollars 0

theorem redelivered_state :
    redelivered.state.records = [firstPayment] ∧
      redelivered.state.responses =
        [⟨"alice", tenDollars, .ok ⟨0, .ok firstPayment⟩⟩,
          ⟨"alice", tenDollars, .ok ⟨1, .ok firstPayment⟩⟩] := by
  decide +kernel

theorem payments_credit_once_iff_redelivered :
    (⟨"alice", tenDollars, .ok ⟨1, .ok firstPayment⟩⟩ : Response).Undisturbed
      redelivered.state := by
  refine ((payments_credit_once_iff alicePays_start
    (schedule_run _)).2.2.2 _ ?_ ?_ firstPayment ?_ rfl).1 rfl
  · change _ ∈ redelivered.state.responses
    rw [redelivered_state.2]
    exact List.mem_cons_of_mem _ (List.mem_singleton_self _)
  · exact fun impossible => by cases impossible
  · change _ ∈ redelivered.state.records
    rw [redelivered_state.1]
    exact List.mem_singleton_self _

/-- The second call selects before the first commits and inserts after it: it
returns an error although its payment is recorded. -/
theorem raced_refused :
    machine.Run anyStep alicePays raced ∧
      raced.state.records = [firstPayment] ∧
      raced.state.responses =
        [⟨"alice", tenDollars, .ok ⟨0, .ok firstPayment⟩⟩,
          ⟨"alice", tenDollars, .ok ⟨1,
            .error (.database (.uniqueViolation referenceKey))⟩⟩] :=
  ⟨schedule_run _, by decide +kernel, by decide +kernel⟩

end FireCrow.Services.Payments
