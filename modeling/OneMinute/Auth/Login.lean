/-
  OneMinute.Auth.Login

  The tables of accounts and `Repository.Login`, one statement at a time.

  A login stands at a stage, which holds what it has read and what its
  transaction has written and not committed.  Each statement sees what is
  committed when it starts, beside the transaction's own writes.  What a
  transaction locks it holds to its end: the advisory lock of its subject, the
  rows that it updates, and the entries of unique indexes that it inserts.
  Whichever statement fails, the deferred Rollback follows.  A COMMIT that fails
  has committed nothing; one that commits while its reply is lost is not among the
  outcomes.
-/

import OneMinute.Calls
import OneMinute.Communication.Tables
import OneMinute.Lib.Locks
import OneMinute.Lib.Threads

namespace OneMinute.Auth

open Discovery (UserID UnixMilli)
open Communication (trimSpace)

/-! ## Tables -/

structure UserRow where
  id : UserID
  status : AccountStatus
  lastSeenAt : Option UnixMilli
deriving DecidableEq, Repr

/-- A row of `external_identities`; the only provider is google. -/
structure IdentityRow where
  subject : String
  userID : UserID
  emailVerified : Bool
  lastLoginAt : UnixMilli
deriving DecidableEq, Repr

structure ProfileRow where
  userID : UserID
  displayName : String
  avatarURL : String
deriving DecidableEq, Repr

structure SessionRow where
  userID : UserID
  secretHash : List UInt8
  createdAt : UnixMilli
  expiresAt : UnixMilli
deriving DecidableEq, Repr

structure Accounts where
  users : List UserRow
  identities : List IdentityRow
  profiles : List ProfileRow
  sessions : List SessionRow
deriving DecidableEq, Repr

/-- CHECK(char_length(provider_subject) BETWEEN 1 AND 255). -/
def SubjectChecked (subject : String) : Prop := 1 ≤ subject.length ∧ subject.length ≤ 255

/-- CHECK(char_length(display_name) BETWEEN 1 AND 80). -/
def NameChecked (name : String) : Prop := 1 ≤ name.length ∧ name.length ≤ 80

instance (subject : String) : Decidable (SubjectChecked subject) :=
  inferInstanceAs (Decidable (_ ∧ _))

instance (name : String) : Decidable (NameChecked name) := inferInstanceAs (Decidable (_ ∧ _))

/-- CHECK(octet_length(secret_hash) = 32) and CHECK(expires_at > created_at). -/
def SessionRow.Checked (s : SessionRow) : Prop :=
  s.secretHash.length = 32 ∧ s.createdAt < s.expiresAt

instance (s : SessionRow) : Decidable s.Checked := inferInstanceAs (Decidable (_ ∧ _))

/-- The constraints of the four tables. -/
structure Accounts.Consistent (a : Accounts) : Prop where
  userKey : (a.users.map UserRow.id).Nodup
  identityKey : (a.identities.map IdentityRow.subject).Nodup
  identityUser : (a.identities.map IdentityRow.userID).Nodup
  identityExists : ∀ e ∈ a.identities, e.userID ∈ a.users.map UserRow.id
  identityChecked : ∀ e ∈ a.identities, SubjectChecked e.subject
  profileKey : (a.profiles.map ProfileRow.userID).Nodup
  profileExists : ∀ p ∈ a.profiles, p.userID ∈ a.users.map UserRow.id
  profileChecked : ∀ p ∈ a.profiles, NameChecked p.displayName
  sessionKey : (a.sessions.map SessionRow.secretHash).Nodup
  sessionExists : ∀ s ∈ a.sessions, s.userID ∈ a.users.map UserRow.id
  sessionChecked : ∀ s ∈ a.sessions, s.Checked

/-! ## Login -/

structure Identity where
  subject : String
  name : String
  picture : String
  emailVerified : Bool
deriving DecidableEq, Repr

/-- What Login returns. -/
structure User where
  id : UserID
  displayName : String
  avatarURL : String
  newUser : Bool
  googleEmailVerified : Bool
deriving DecidableEq, Repr

/-- The arguments of a Login. -/
structure LoginRequest where
  identity : Identity
  secretHash : List UInt8
  expires : UnixMilli
deriving DecidableEq, Repr

/-- What a transaction locks. -/
inductive Resource where
  /-- An advisory lock. -/
  | advisory (key : Int)
  /-- A row of `users`. -/
  | user (id : UserID)
  /-- A row of `external_identities`. -/
  | identity (subject : String)
  /-- An entry of the unique index of `sessions`. -/
  | session (secretHash : List UInt8)
deriving DecidableEq, Repr

/-- The next statement of a Login; `now` is the start of its transaction. -/
inductive Stage where
  | begin
  | lock (now : UnixMilli)
  | select (now : UnixMilli)
  | insertUser (now : UnixMilli)
  | insertIdentity (now : UnixMilli) (id : UserID)
  | insertProfile (now : UnixMilli) (id : UserID)
  | updateUser (now : UnixMilli) (u : User)
  | updateIdentity (now : UnixMilli) (u : User)
  | insertSession (now : UnixMilli) (u : User)
  | commit (now : UnixMilli) (u : User)
  /-- The deferred Rollback. -/
  | rollback
  /-- The user that is returned, or an error. -/
  | done (result : Option User)
deriving DecidableEq, Repr

structure Shared where
  /-- What is committed. -/
  accounts : Accounts
  locks : Locks Resource
  /-- The logins that have committed with what they return, the last first. -/
  log : List (LoginRequest × User)

/-- The text cannot be an argument of a statement. -/
def hasNUL (text : String) : Bool := text.toList.contains (Char.ofNat 0)

/-- The name of a new profile. -/
def displayName (name : String) : String :=
  if trimSpace name = "" then "New person"
  else if 80 < (trimSpace name).length then String.ofList ((trimSpace name).toList.take 80)
  else trimSpace name

namespace Accounts

/-- The SELECT of Login. -/
def account (a : Accounts) (subject : String) : Option User :=
  (a.identities.find? fun e => decide (e.subject = subject)).bind fun e =>
    if a.users.any fun u => decide (u.id = e.userID) then
      (a.profiles.find? fun p => decide (p.userID = e.userID)).map fun p =>
        ⟨e.userID, p.displayName, p.avatarURL, false, e.emailVerified⟩
    else none

/-- The UPDATE of `users` finds a row. -/
def isActive (a : Accounts) (id : UserID) : Bool :=
  a.users.any fun u => decide (u.id = id) && decide (u.status = .active)

/-- What the transaction wrote: a new account or the two UPDATEs, and the
    session. -/
def commit (a : Accounts) (r : LoginRequest) (now : UnixMilli) (u : User) : Accounts where
  users :=
    if u.newUser then ⟨u.id, .active, some now⟩ :: a.users
    else a.users.map fun x => if x.id = u.id then { x with lastSeenAt := some now } else x
  identities :=
    if u.newUser then ⟨r.identity.subject, u.id, r.identity.emailVerified, now⟩ :: a.identities
    else a.identities.map fun e =>
      if e.subject = r.identity.subject then
        { e with lastLoginAt := now, emailVerified := r.identity.emailVerified }
      else e
  profiles := if u.newUser then ⟨u.id, u.displayName, u.avatarURL⟩ :: a.profiles else a.profiles
  sessions := ⟨u.id, r.secretHash, now, r.expires⟩ :: a.sessions

end Accounts

/-- A statement in the transaction; an error leads to the rollback. -/
def statement (failed : Bool) (x : Shared) (result : Option (Shared × Stage)) :
    Option (Shared × Stage) :=
  if failed then some (x, .rollback) else result

/-- A statement that needs a lock; it waits while another transaction has it. -/
def Shared.locking (x : Shared) (i : Nat) (k : Resource) (next : Stage) : Option (Shared × Stage) :=
  (x.locks.acquire i k).map fun locks => ({ x with locks }, next)

/-- One statement of the transaction `i`.  `hash` is `hashtextextended`.  With `failed`
    the statement has had no effect, the COMMIT as the others. -/
def LoginRequest.step (r : LoginRequest) (hash : String → Int) (i : Nat) (d : Draw)
    (failed : Bool) (x : Shared) : Stage → Option (Shared × Stage)
  | .begin => some (x, if failed then .done none else .lock d.now)
  | .lock now =>
    statement failed x <|
      if hasNUL r.identity.subject then some (x, .rollback)
      else x.locking i (.advisory (hash ("google:" ++ r.identity.subject))) (.select now)
  | .select now =>
    statement failed x <|
      match x.accounts.account r.identity.subject with
      | some u => some (x, .updateUser now u)
      | none => some (x, .insertUser now)
  | .insertUser now =>
    statement failed x <|
      -- the index is asked again once the lock is there
      x.locking i (.user d.id)
        (if d.id ∈ x.accounts.users.map UserRow.id then .rollback else .insertIdentity now d.id)
  | .insertIdentity now id =>
    statement failed x <|
      if ¬ SubjectChecked r.identity.subject then some (x, .rollback)
      else
        x.locking i (.identity r.identity.subject)
          (if r.identity.subject ∈ x.accounts.identities.map IdentityRow.subject then .rollback
          else .insertProfile now id)
  | .insertProfile now id =>
    statement failed x <|
      if hasNUL (displayName r.identity.name) || hasNUL r.identity.picture
          || !decide (NameChecked (displayName r.identity.name)) then some (x, .rollback)
      else
        some (x, .updateUser now
          ⟨id, displayName r.identity.name, r.identity.picture, true, r.identity.emailVerified⟩)
  | .updateUser now u =>
    statement failed x <|
      -- a new row is active, and its writer sees it
      if u.newUser || x.accounts.isActive u.id then
        x.locking i (.user u.id) (.updateIdentity now u)
      else some (x, .rollback)
  | .updateIdentity now u =>
    statement failed x <|
      x.locking i (.identity r.identity.subject)
        (.insertSession now { u with googleEmailVerified := r.identity.emailVerified })
  | .insertSession now u =>
    statement failed x <|
      if ¬ SessionRow.Checked ⟨u.id, r.secretHash, now, r.expires⟩ then some (x, .rollback)
      else
        x.locking i (.session r.secretHash)
          (if r.secretHash ∈ x.accounts.sessions.map SessionRow.secretHash then .rollback
          else .commit now u)
  | .commit now u =>
    if failed then some (x, .rollback)
    else
      some (⟨x.accounts.commit r now u, x.locks.release i, (r, u) :: x.log⟩, .done (some u))
  | .rollback => some ({ x with locks := x.locks.release i }, .done none)
  | .done _ => none

/-! ## Runs -/

/-- A call of Login under way. -/
structure Login where
  request : LoginRequest
  stage : Stage
deriving DecidableEq, Repr

/-- Concurrent and repeated calls of Login; a call is supplied with the
    database's draws and told whether it fails. -/
def logins (hash : String → Int) :
    Threads Shared Login LoginRequest (Draw × Bool) Empty where
  start r := ⟨r, .begin⟩
  turn i d x l :=
    (l.request.step hash i d.1 d.2 x l.stage).map fun out => (out.1, ⟨l.request, out.2⟩)
  env e _ := nomatch e

/-- All schedules of logins on the accounts `a`. -/
def loginMachine (hash : String → Int) (a : Accounts) :
    Machine (Pool Shared Login) (Schedule LoginRequest (Draw × Bool) Empty) :=
  (logins hash).machine ⟨a, .free, []⟩

end OneMinute.Auth
