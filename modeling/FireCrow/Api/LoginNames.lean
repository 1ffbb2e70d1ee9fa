import FireCrow.Library.Interleaving
import FireCrow.Library.Json
import FireCrow.Library.Table
import FireCrow.Library.Unicode

/-!
# Login names

What is written to the names of `users`: a registration, the callback of the
GitHub login and the deletion of a user, statement by statement.  The name and
the address of a row are unique as they are stored, each in its own column; a
login looks its name up in both columns, in lower case.
-/

namespace FireCrow.Api.Names

open FireCrow.Library

inductive DatabaseError where
  | unavailable
  | dataException
  | uniqueViolation
  | noRow
deriving DecidableEq, Repr

inductive AppError where
  | badRequest (message : Text)
  | conflict (message : Text)
  | internal
  | turnstile (message : Text)
  | database (error : DatabaseError)
  | redirect (message : Text)
deriving DecidableEq, Repr

/-! ## The users table -/

/-- The columns of `users` that these endpoints write. -/
structure User where
  id : Text
  username : Text
  email : Option Text
  passwordHash : Option Text
  isActive : Bool
  githubId : Option Text
  githubAccessToken : Option Text
deriving DecidableEq, Repr

namespace User

/-- The row as its columns store it. -/
def stored (user : User) : Option User := do
  let id ← Table.varchar 128 user.id
  let username ← Table.varchar 128 user.username
  let email ← user.email.mapM (Table.varchar 255)
  let passwordHash ← user.passwordHash.mapM Table.storedText
  let githubId ← user.githubId.mapM (Table.varchar 128)
  let githubAccessToken ← user.githubAccessToken.mapM Table.storedText
  return {
    id := id
    username := username
    email := email
    passwordHash := passwordHash
    isActive := user.isActive
    githubId := githubId
    githubAccessToken := githubAccessToken }

/-- Two rows that a constraint keeps out of one table. -/
def collides (user other : User) : Bool :=
  user.id == other.id || user.username == other.username ||
    (user.email.isSome && user.email == other.email) ||
    (user.githubId.isSome && user.githubId == other.githubId)

end User

structure Database where
  users : List User
  securityLog : List (Text × Text)
deriving DecidableEq, Repr

namespace Database

def insert (db : Database) (user : User) : Except DatabaseError Database :=
  match user.stored with
  | none => .error .dataException
  | some row =>
      if db.users.any row.collides then .error .uniqueViolation
      else .ok { db with users := db.users ++ [row] }

/-- `UPDATE users SET … WHERE id=$1`. -/
def update (db : Database) (id : Text) (change : User → Option User) :
    Except DatabaseError Database :=
  match db.users.find? fun user => user.id == id with
  | none => .ok db
  | some user =>
      match change user with
      | none => .error .dataException
      | some row =>
          if db.users.any fun other => other.id != id && row.collides other then
            .error .uniqueViolation
          else .ok
            { db with
              users := Table.set (fun user => user.id == id) (fun _ => row)
                db.users }

end Database

namespace User

/-- `SET is_active=false, email=NULL, username='deleted_'||id`. -/
def delete (user : User) : Option User := do
  let username ← Table.varchar 128 (("deleted_" : Text) ++ user.id)
  return { user with isActive := false, email := none, username := username }

/-- `SET github_id = $1, github_access_token = $2`. -/
def linkGithub (githubId accessToken : Text) (user : User) : Option User := do
  let githubId ← Table.varchar 128 githubId
  let accessToken ← Table.storedText accessToken
  return {
    user with
    githubId := some githubId
    githubAccessToken := some accessToken }

end User

/-! ## Statements -/

inductive Statement where
  | insertUser (user : User)
  | selectByGithubId (githubId : Text)
  | selectUser (id : Text)
  | updateGithub (githubId accessToken id : Text)
  | deleteUser (id : Text)
  | recordSecurityEvent (userId action : Text)
  | sendWelcome (email username userId : Text)

namespace Statement

def Answer : Statement → Type
  | .selectByGithubId _ => Option User
  | .selectUser _ => User
  | _ => Unit

def run (db : Database) : (statement : Statement) →
    Except DatabaseError (statement.Answer × Database)
  | .insertUser user => (db.insert user).map fun after => ((), after)
  | .selectByGithubId githubId =>
      .ok (db.users.find? fun user => user.githubId == some githubId, db)
  | .selectUser id =>
      match db.users.find? fun user => user.id == id with
      | none => .error .noRow
      | some user => .ok (user, db)
  | .updateGithub githubId accessToken id =>
      (db.update id (User.linkGithub githubId accessToken)).map
        fun after => ((), after)
  | .deleteUser id =>
      (db.update id User.delete).map fun after => ((), after)
  | .recordSecurityEvent userId action =>
      .ok ((), { db with securityLog := db.securityLog ++ [(userId, action)] })
  | .sendWelcome _ _ _ => .ok ((), db)

abbrev Reply (statement : Statement) : Type :=
  Except DatabaseError statement.Answer

/-- A refused statement leaves the state. -/
def answer (db : Database) (statement : Statement) :
    statement.Reply × Database :=
  match statement.run db with
  | .ok (answer, after) => (.ok answer, after)
  | .error error => (.error error, db)

end Statement

/-! ## What a statement does to the table -/

/-- The row that a statement writes with its names. -/
def Statement.writes (db : Database) : Statement → Option User
  | .insertUser user => user.stored
  | .deleteUser id =>
      (db.users.find? fun user => user.id == id).bind User.delete
  | _ => none

/-- What a statement does to the rows: nothing, which is no write unless it is
refused, a row more, or another row in the place of one that keeps its id. -/
inductive Effect (db : Database) (statement : Statement) (after : Database) :
    Prop where
  | same (users : after.users = db.users)
      (idle : after = db ∨ statement.writes db = none)
  | added (row : User) (written : statement.writes db = some row)
      (unique : ∀ other ∈ db.users, row.collides other = false)
      (users : after.users = db.users ++ [row])
  | changed (row user : User)
      (found : db.users.find? (fun user => user.id == row.id) = some user)
      (names : statement.writes db = some row ∨
        statement.writes db = none ∧ row.username = user.username ∧
          row.email = user.email)
      (unique : ∀ other ∈ db.users, other.id ≠ row.id →
        row.collides other = false)
      (users : after.users =
        Table.set (fun user => user.id == row.id) (fun _ => row) db.users)

variable {db : Database} {user : User}

theorem Database.insert_eq_ok {after : Database}
    (done : db.insert user = .ok after) :
    ∃ row, user.stored = some row ∧
      (∀ other ∈ db.users, row.collides other = false) ∧
      after = { db with users := db.users ++ [row] } := by
  rw [Database.insert] at done
  split at done
  · cases done
  · rename_i row written
    split at done
    · cases done
    · rename_i unique
      cases done
      refine ⟨row, written, ?_, rfl⟩
      simpa using unique

theorem Database.update_eq_ok {after : Database} {id : Text}
    {change : User → Option User} (done : db.update id change = .ok after) :
    (db.users.find? (fun user => user.id == id) = none ∧ after = db) ∨
      ∃ user row, db.users.find? (fun user => user.id == id) = some user ∧
        change user = some row ∧
        (∀ other ∈ db.users, other.id ≠ id → row.collides other = false) ∧
        after = { db with
          users := Table.set (fun user => user.id == id) (fun _ => row)
            db.users } := by
  rw [Database.update] at done
  split at done
  · rename_i absent
    cases done
    exact .inl ⟨absent, rfl⟩
  · rename_i user found
    split at done
    · cases done
    · rename_i row written
      split at done
      · cases done
      · rename_i unique
        cases done
        refine .inr ⟨user, row, found, written, ?_, rfl⟩
        simpa using unique

theorem User.delete_id {row : User} (deleted : user.delete = some row) :
    row.id = user.id := by
  rw [User.delete, Option.bind_eq_bind, Option.bind_eq_some_iff] at deleted
  rcases deleted with ⟨username, _, same⟩
  cases same
  rfl

theorem User.linkGithub_names {row : User} {githubId accessToken : Text}
    (linked : user.linkGithub githubId accessToken = some row) :
    row.id = user.id ∧ row.username = user.username ∧
      row.email = user.email := by
  rw [User.linkGithub, Option.bind_eq_bind, Option.bind_eq_some_iff] at linked
  rcases linked with ⟨storedId, _, linked⟩
  rw [Option.bind_eq_some_iff] at linked
  rcases linked with ⟨storedToken, _, same⟩
  cases same
  exact ⟨rfl, rfl, rfl⟩

theorem found_id {id : Text}
    (found : db.users.find? (fun user => user.id == id) = some user) :
    user.id = id := by
  simpa using List.find?_some found

theorem Statement.answer_effect (db : Database) (statement : Statement) :
    Effect db statement (statement.answer db).2 := by
  rw [Statement.answer]
  split
  swap
  · exact .same rfl (.inl rfl)
  rename_i answer after done
  cases statement with
  | insertUser user =>
      rcases outcome : db.insert user with error | written
      · rw [Statement.run, outcome] at done
        cases done
      · rw [Statement.run, outcome] at done
        cases done
        rcases Database.insert_eq_ok outcome with ⟨row, written, unique, rfl⟩
        exact .added row written unique rfl
  | updateGithub githubId accessToken id =>
      rcases outcome : db.update id (User.linkGithub githubId accessToken) with
        error | written
      · rw [Statement.run, outcome] at done
        cases done
      · rw [Statement.run, outcome] at done
        cases done
        rcases Database.update_eq_ok outcome with
          ⟨_, rfl⟩ | ⟨user, row, found, linked, unique, rfl⟩
        · exact .same rfl (.inl rfl)
        · rcases User.linkGithub_names linked with ⟨kept, username, email⟩
          obtain rfl : row.id = id := kept.trans (found_id found)
          exact .changed row user found (.inr ⟨rfl, username, email⟩) unique rfl
  | deleteUser id =>
      rcases outcome : db.update id User.delete with error | written
      · rw [Statement.run, outcome] at done
        cases done
      · rw [Statement.run, outcome] at done
        cases done
        rcases Database.update_eq_ok outcome with
          ⟨_, rfl⟩ | ⟨user, row, found, deleted, unique, rfl⟩
        · exact .same rfl (.inl rfl)
        · obtain rfl : row.id = id :=
            (User.delete_id deleted).trans (found_id found)
          refine .changed row user found (.inl ?_) unique rfl
          rw [Statement.writes, found]
          exact deleted
  | selectUser id =>
      rw [Statement.run] at done
      split at done
      · cases done
      · cases done
        exact .same rfl (.inl rfl)
  | selectByGithubId | sendWelcome =>
      cases done
      exact .same rfl (.inl rfl)
  | recordSecurityEvent userId action =>
      cases done
      exact .same rfl (.inr rfl)

/-! ## The constraints of the table -/

/-- No two rows collide. -/
def Regular (db : Database) : Prop :=
  db.users.Pairwise fun user other => user.collides other = false

theorem User.collides_comm (user other : User) :
    user.collides other = other.collides user := by
  rw [Bool.eq_iff_iff]
  simp only [User.collides, Bool.or_eq_true, Bool.and_eq_true, beq_iff_eq]
  constructor
  · rintro (((same | same) | ⟨some, same⟩) | ⟨some, same⟩)
    · exact .inl (.inl (.inl same.symm))
    · exact .inl (.inl (.inr same.symm))
    · exact .inl (.inr ⟨same ▸ some, same.symm⟩)
    · exact .inr ⟨same ▸ some, same.symm⟩
  · rintro (((same | same) | ⟨some, same⟩) | ⟨some, same⟩)
    · exact .inl (.inl (.inl same.symm))
    · exact .inl (.inl (.inr same.symm))
    · exact .inl (.inr ⟨same ▸ some, same.symm⟩)
    · exact .inr ⟨same ▸ some, same.symm⟩

instance : Std.Symm fun user other : User => user.collides other = false where
  symm user other apart := by rw [User.collides_comm, apart]

/-- What the constraints say of two rows. -/
theorem User.of_not_collides {other : User}
    (apart : user.collides other = false) :
    user.id ≠ other.id ∧ user.username ≠ other.username ∧
      ∀ email ∈ user.email, ∀ taken ∈ other.email, email ≠ taken := by
  simp only [User.collides, Bool.or_eq_false_iff, beq_eq_false_iff_ne,
    Bool.and_eq_false_iff] at apart
  rcases apart with ⟨⟨⟨id, username⟩, email⟩, _⟩
  refine ⟨id, username, ?_⟩
  intro address given taken held same
  rw [Option.mem_def] at given held
  rw [given, held, same] at email
  simp at email

theorem Regular.single (regular : Regular db) (id : Text) :
    db.users.Pairwise fun user other =>
      ¬ ((user.id == id) = true ∧ (other.id == id) = true) := by
  apply regular.imp
  intro user other apart both
  simp only [beq_iff_eq] at both
  exact (User.of_not_collides apart).1 (both.1.trans both.2.symm)

theorem Regular.answer (regular : Regular db)
    (statement : Statement) : Regular (statement.answer db).2 := by
  cases statement.answer_effect db with
  | same users => rwa [Regular, users]
  | added row _ unique users =>
      rw [Regular, users, Table.pairwise_concat]
      refine ⟨regular, fun other member => ?_⟩
      rw [User.collides_comm]
      exact unique other member
  | changed row user _ _ unique users =>
      rw [Regular, users]
      apply Table.pairwise_set regular (regular.single row.id)
      intro _ _ _ other member separate
      exact unique other member (by simpa using separate)

/-! ## Operations -/

abbrev Task := Program Statement Statement.Reply AppError

/-- A statement whose error ends the request. -/
def ask (statement : Statement) (handle : DatabaseError → AppError) :
    Task statement.Answer :=
  .ask statement fun reply => .done (reply.mapError handle)

/-- A statement whose error is ignored. -/
def ignore (statement : Statement) : Task Unit :=
  .ask statement fun _ => .done (.ok ())

structure Registered where
  userId : Text
  username : Text
  email : Text
deriving DecidableEq, Repr

/-- The identity that GitHub has returned. -/
structure GitHubUser where
  id : Int64
  login : Text
  email : Option Text
deriving DecidableEq

section Endpoints

variable [FloatFormat] [UnicodeTables]

/-- What the endpoints are configured with, the checks and primitives of other
services, and the database's `LOWER`. -/
structure NameSettings where
  turnstile : Json → Option AppError
  hashPassword : Text → Option Text
  encryptSecret : Text → Option Text
  frontendUrl : Text
  mailer : Bool
  lower : Text → Text

/-- A name as a login looks it up. -/
def normalizeLogin (username : Text) : Text := username.trim.toLowercase

/-- The characters of a registered username. -/
def isUsernameChar (character : Char) : Bool :=
  Text.isAsciiAlphanumeric character || character == '_' || character == '-'

/-- The address that a registration stores. -/
def registeredEmail (username emailInput : Text) : Text :=
  if emailInput.trim.isEmpty then
    username.toLowercase ++ ("@local.firecrow" : Text)
  else emailInput.trim.toLowercase

/-- `register`, with the id that it draws. -/
def register (settings : NameSettings) (payload : Json) (userId : Text) :
    Task Registered :=
  match settings.turnstile payload with
  | some error => .fail error
  | none =>
    match ((payload.get? "username").bind Json.asStr).map Text.trim with
    | none => .fail (.badRequest "Missing username")
    | some username =>
        if username.isEmpty || 64 < username.byteLen ||
            !username.all isUsernameChar then
          .fail (.badRequest
            "Username must be 1-64 alphanumeric characters, underscores, or hyphens")
        else
          match (payload.get? "password").bind Json.asStr with
          | none => .fail (.badRequest "Missing password")
          | some password =>
              let emailInput := ((payload.get? "email").bind Json.asStr).getD []
              let email := registeredEmail username emailInput
              if password.byteLen < 10 then
                .fail (.badRequest "Password must be at least 10 characters")
              else
                match settings.hashPassword password with
                | none => .fail .internal
                | some passwordHash => do
                    let _ ← ask (.insertUser
                      { id := userId
                        username := username
                        email := some email
                        passwordHash := some passwordHash
                        isActive := true
                        githubId := none
                        githubAccessToken := none }) fun error =>
                      if error = .uniqueViolation then
                        .conflict
                          "An account with this username or email already exists"
                      else .database error
                    let _ ← ignore (.recordSecurityEvent userId "user_registered")
                    if !email.endsWith "@local.firecrow" &&
                        !settings.frontendUrl.trim.isEmpty &&
                        settings.mailer then
                      let _ ← ignore (.sendWelcome email username userId)
                      return ⟨userId, username, email⟩
                    else return ⟨userId, username, email⟩

/-- `github_callback` from the identity that GitHub has returned to the user
who is let in, with the id that it draws. -/
def githubCallback (settings : NameSettings) (ghUser : GitHubUser)
    (accessToken newId : Text) : Task User := do
  let githubId := Text.ofInt ghUser.id.toInt
  let found : Option User ← ask (.selectByGithubId githubId) fun _ =>
    .redirect "Database error"
  match found with
  | some existing =>
      match settings.encryptSecret accessToken with
      | none => .fail (.redirect "Token encryption failed")
      | some encrypted =>
          let _ ← ask (.updateGithub githubId encrypted existing.id) fun _ =>
            .redirect
              "Could not link this GitHub account. Please try again."
          return {
            existing with
            githubId := some githubId
            githubAccessToken := some accessToken }
  | none =>
      let username := ghUser.login ++ ("_" : Text) ++ newId.take 4
      match settings.encryptSecret accessToken with
      | none => .fail (.redirect "Token encryption failed")
      | some encrypted =>
          let _ ← ask (.insertUser
            { id := newId
              username := username
              email := ghUser.email
              passwordHash := none
              isActive := true
              githubId := some githubId
              githubAccessToken := some encrypted }) fun _ =>
            if ghUser.email.isSome then
              .redirect
                "An account already exists for this email address. Sign in with your password instead."
            else .redirect "Could not create an account. Please try again."
          ask (.selectUser newId) fun _ => .redirect "Failed to fetch new user"

/-- `delete_user`. -/
def deleteUser (userId : Text) : Task Unit := ask (.deleteUser userId) .database

inductive Operation where
  | register (payload : Json) (userId : Text)
  | githubCallback (ghUser : GitHubUser) (accessToken newId : Text)
  | deleteUser (userId : Text)

def Operation.program (settings : NameSettings) : Operation → Task Unit
  | .register payload userId =>
      (Names.register settings payload userId).discard
  | .githubCallback ghUser accessToken newId =>
      (Names.githubCallback settings ghUser accessToken newId).discard
  | .deleteUser userId => Names.deleteUser userId

def machine (settings : NameSettings) :
    Machine Database Statement Statement.Reply AppError Operation where
  answer := Statement.answer
  failure _ := .error .unavailable
  elapse db _ := db
  program := Operation.program settings
  permitted _ _ := True

instance (settings : NameSettings) (db : Database) (operation : Operation) :
    Decidable ((machine settings).permitted db operation) :=
  inferInstanceAs (Decidable True)

abbrev Configuration := Config Database Statement Statement.Reply AppError

/-! ## One account for a name -/

/-- `LOWER(username)=$1 OR LOWER(email)=$1`. -/
def User.answersTo (settings : NameSettings) (user : User) (name : Text) :
    Bool :=
  settings.lower user.username == name ||
    user.email.map settings.lower == some name

/-- The account whose password a login checks: the first row that is found. -/
def Database.loginAccount (settings : NameSettings) (db : Database)
    (username : Text) : Option User :=
  db.users.find? fun user => user.answersTo settings (normalizeLogin username)

/-- A login name has at most one account. -/
def OneAccount (settings : NameSettings) (db : Database) : Prop :=
  ∀ username, (db.users.filter fun user =>
    user.answersTo settings (normalizeLogin username)).length ≤ 1

/-- Two texts that are one login name in lower case. -/
def Confused (settings : NameSettings) (left right : Text) : Prop :=
  settings.lower left = settings.lower right ∧
    ∃ username, normalizeLogin username = settings.lower left

/-- The names of a row are not confused with those of another: a username and
an address that differ in more than their case, and neither is the other
row's address or username. -/
structure ToldApart (settings : NameSettings) (user other : User) : Prop where
  usernames : user.username ≠ other.username →
    ¬ Confused settings user.username other.username
  emails : ∀ email ∈ user.email, ∀ taken ∈ other.email, email ≠ taken →
    ¬ Confused settings email taken
  username : ∀ taken ∈ other.email, ¬ Confused settings user.username taken
  email : ∀ email ∈ user.email, ¬ Confused settings email other.username

/-- A write that takes effect finds no other row that would be confused with
the one it writes. -/
def Distinguishing (settings : NameSettings) :
    Condition Database Statement Statement.Reply Operation
  | db, .executed _ statement _, after =>
      after = db ∨ ∀ row ∈ statement.writes db, ∀ other ∈ db.users,
        other.id ≠ row.id → ToldApart settings row other
  | _, _, _ => True

/-! ## Rows apart -/

/-- No login name has both rows. -/
def Apart (settings : NameSettings) (user other : User) : Prop :=
  ∀ username, ¬ (user.answersTo settings (normalizeLogin username) = true ∧
    other.answersTo settings (normalizeLogin username) = true)

instance (settings : NameSettings) : Std.Symm (Apart settings) where
  symm _ _ apart username both := apart username both.symm

variable {settings : NameSettings}

variable {db : Database}

theorem oneAccount_iff :
    OneAccount settings db ↔ db.users.Pairwise (Apart settings) := by
  simp only [OneAccount, ← Table.pairwise_iff_length_filter,
    List.pairwise_iff_getElem, Apart]
  constructor
  · intro single i j left right less username
    exact single username i j left right less
  · intro apart username i j left right less
    exact apart i j left right less username

variable {user : User}

omit [UnicodeTables] in
theorem User.answersTo_iff {name : Text} :
    user.answersTo settings name = true ↔
      settings.lower user.username = name ∨
        ∃ email ∈ user.email, settings.lower email = name := by
  simp [User.answersTo]

/-- Rows that the constraints allow are apart when they are told apart. -/
theorem toldApart_iff {other : User} (unique : user.collides other = false) :
    ToldApart settings user other ↔ Apart settings user other := by
  rcases User.of_not_collides unique with ⟨_, usernames, emails⟩
  constructor
  · rintro told username ⟨first, second⟩
    have confused : ∀ {left right},
        settings.lower left = normalizeLogin username →
        settings.lower right = normalizeLogin username →
          Confused settings left right :=
      fun left right => ⟨left.trans right.symm, username, left.symm⟩
    rw [User.answersTo_iff] at first second
    rcases first with first | ⟨email, given, first⟩ <;>
      rcases second with second | ⟨taken, held, second⟩
    · exact told.usernames usernames (confused first second)
    · exact told.username taken held (confused first second)
    · exact told.email email given (confused first second)
    · exact told.emails email given taken held
        (emails email given taken held) (confused first second)
  · intro apart
    constructor
    · rintro _ ⟨same, username, name⟩
      apply apart username
      rw [name]
      exact ⟨User.answersTo_iff.2 (.inl rfl),
        User.answersTo_iff.2 (.inl same.symm)⟩
    · rintro email given taken held _ ⟨same, username, name⟩
      apply apart username
      rw [name]
      exact ⟨User.answersTo_iff.2 (.inr ⟨email, given, rfl⟩),
        User.answersTo_iff.2 (.inr ⟨taken, held, same.symm⟩)⟩
    · rintro taken held ⟨same, username, name⟩
      apply apart username
      rw [name]
      exact ⟨User.answersTo_iff.2 (.inl rfl),
        User.answersTo_iff.2 (.inr ⟨taken, held, same.symm⟩)⟩
    · rintro email given ⟨same, username, name⟩
      apply apart username
      rw [name]
      exact ⟨User.answersTo_iff.2 (.inr ⟨email, given, rfl⟩),
        User.answersTo_iff.2 (.inl same.symm)⟩

theorem Apart.of_names {row other : User} (apart : Apart settings user other)
    (username : row.username = user.username) (email : row.email = user.email) :
    Apart settings row other := by
  intro name both
  rw [User.answersTo, username, email] at both
  exact apart name both

/-! ## Every run -/

variable {settings : NameSettings}

theorem oneAccount_answer_iff (regular : Regular db)
    (single : OneAccount settings db) (statement : Statement) :
    OneAccount settings (statement.answer db).2 ↔
      (statement.answer db).2 = db ∨ ∀ row ∈ statement.writes db,
        ∀ other ∈ db.users, other.id ≠ row.id →
          ToldApart settings row other := by
  rw [oneAccount_iff] at single ⊢
  cases statement.answer_effect db with
  | same users idle =>
      rw [users, iff_true_left single]
      apply idle.imp_right
      intro none row written
      rw [none] at written
      cases written
  | added row written unique users =>
      rw [users, Table.pairwise_concat, and_iff_right single]
      constructor
      · intro apart
        refine .inr fun other given member inside _ => ?_
        rw [written] at given
        cases given
        exact (toldApart_iff (unique member inside)).2
          (Std.Symm.symm _ _ (apart member inside))
      · rintro (same | told) other member
        · rw [same] at users
          exact absurd (congrArg List.length users) (by simp)
        · have separate := (User.of_not_collides (unique other member)).1.symm
          exact Std.Symm.symm _ _ ((toldApart_iff (unique other member)).1
            (told row written other member separate))
  | changed row user found names unique users =>
      have member := List.mem_of_find?_eq_some found
      have id := found_id found
      rw [users]
      constructor
      · intro apart
        refine .inr fun other given another inside separate => ?_
        rcases names with written | ⟨none, _⟩
        · rw [written] at given
          cases given
          have placed : row ∈ Table.set (fun user => user.id == row.id)
              (fun _ => row) db.users :=
            List.mem_map.2 ⟨user, member, if_pos (by simpa using id)⟩
          have stays : another ∈ Table.set (fun user => user.id == row.id)
              (fun _ => row) db.users :=
            List.mem_map.2 ⟨another, inside, if_neg (by simpa using separate)⟩
          have distinct : row ≠ another := by
            rintro rfl
            exact separate rfl
          exact (toldApart_iff (unique another inside separate)).2
            (apart.forall placed stays distinct)
        · rw [none] at given
          cases given
      · rintro (same | told)
        · rwa [← users, same]
        · apply Table.pairwise_set single (regular.single row.id)
          intro _ _ _ other inside others
          have separate : other.id ≠ row.id := by simpa using others
          rcases names with written | ⟨_, username, email⟩
          · exact (toldApart_iff (unique other inside separate)).1
              (told row written other inside separate)
          · have distinct : user ≠ other := by
              rintro rfl
              exact separate id
            exact (single.forall member inside distinct).of_names username email

/-- A name that has one account has it in every order of the rows. -/
theorem OneAccount.loginAccount_perm {other : Database}
    (single : OneAccount settings db) (same : db.users.Perm other.users)
    (username : Text) :
    other.loginAccount settings username = db.loginAccount settings username :=
  Table.find?_perm (single username) same

end Endpoints

/-! ## Two accounts of one name -/

section TwoAccounts

attribute [local instance] FloatFormat.integersOnly UnicodeTables.ascii

def plainSettings : NameSettings where
  turnstile _ := none
  hashPassword := some
  encryptSecret := some
  frontendUrl := []
  mailer := false
  lower := Text.toAsciiLowercase

/-- A table without rows. -/
def noUsers : Configuration where
  state := ⟨[], []⟩
  processes _ := none

def registration (username email : Text) : Json :=
  .object
    [("email", .string email), ("password", .string "correct horse"),
      ("username", .string username)]

/-- One registration after the other, under names that differ in case. -/
def twoAlices : Configuration :=
  (machine plainSettings).schedule (fun _ _ => true) noUsers
    [.call 0 (.register (registration "Alice" "alice@one.example") "user-1"),
      .advance 0 4,
      .call 1 (.register (registration "alice" "alice@two.example") "user-2"),
      .advance 1 4]

end TwoAccounts

end FireCrow.Api.Names
