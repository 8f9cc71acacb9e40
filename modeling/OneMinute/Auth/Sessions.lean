/-
  OneMinute.Auth.Sessions

  The HTTP handlers of sign-in, and the sessions that they make, read and end.

  `google` checks the request, has the credential validated (`validate` is
  `idtoken.Validate`), draws a secret and calls Login; the other requests are one
  statement each, `Current` or `Revoke`.  All of them run beside each other, and
  operators change the status and users the name of an account meanwhile.  The
  site remembers with each session the request that it was issued for.
-/

import OneMinute.Auth.Subjects
import OneMinute.Ice.Credentials

namespace OneMinute.Auth

open Discovery (UserID UnixMilli)

/-! ## Credentials -/

/-- A claim of a credential. -/
inductive Claim where
  | text (s : String)
  | flag (b : Bool)
  | other
deriving DecidableEq, Repr

/-- A validated credential. -/
structure Payload where
  subject : String
  claims : List (String × Claim)
deriving DecidableEq, Repr

def Payload.text (p : Payload) (name : String) : String :=
  match p.claims.lookup name with
  | some (.text s) => s
  | _ => ""

def Payload.flag (p : Payload) (name : String) : Bool :=
  match p.claims.lookup name with
  | some (.flag b) => b
  | _ => false

/-- `idtoken.Validate`: what a credential says to an audience at an instant. -/
abbrev Validator := String → String → UnixMilli → Option Payload

/-- `GoogleVerifier.Verify` of a credential that was validated, or not. -/
def verify (validated : Option Payload) (nonce : String) : Except String Identity :=
  match validated with
  | none => .error "invalid Google credential"
  | some p =>
    if nonce = "" ∨ p.text "nonce" ≠ nonce then .error "invalid Google nonce"
    else if p.subject = "" then .error "Google subject missing"
    else .ok ⟨p.subject, p.text "name", p.text "picture", p.flag "email_verified"⟩

/-- `base64.RawURLEncoding`: the standard encoding with - and _ for + and /, and
    without padding. -/
def rawURLEncode (bytes : List UInt8) : String :=
  String.ofList <| (Ice.base64 bytes).filterMap fun b =>
    if b = 61 then none
    else if b = 43 then some '-'
    else if b = 47 then some '_'
    else some (Char.ofNat b.toNat)

/-- `randomToken` of the bytes that `rand.Read` has read, or not. -/
def randomToken (random : Option (List UInt8)) : Option String := random.map rawURLEncode

/-! ## Requests and replies -/

/-- What a handler reads of a request. -/
structure HttpRequest where
  origin : String
  cookies : List (String × String)
deriving DecidableEq, Repr

def HttpRequest.cookie (r : HttpRequest) (name : String) : Option String := r.cookies.lookup name

/-- The body of a sign-in. -/
structure GoogleBody where
  credential : String
  nonce : String
deriving DecidableEq, Repr

structure Cookie where
  name : String
  value : String
  path : String
  maxAge : Int
  expires : UnixMilli
  secure : Bool
  httpOnly : Bool
  sameSite : String
deriving DecidableEq, Repr

inductive Body where
  | empty
  | error (text : String)
  | config (enabled : Bool) (clientID nonce : String)
  | user (u : User)
deriving DecidableEq, Repr

structure Reply where
  status : Nat
  body : Body := .empty
  cookies : List Cookie := []
deriving DecidableEq, Repr

def writeError (status : Nat) (message : String) : Reply := ⟨status, .error message, []⟩

structure Handler where
  origin : String
  clientID : String
  /-- The audience of the verifier, if there is one. -/
  audience : Option String
  secure : Bool
deriving DecidableEq, Repr

/-- 30 days, in milliseconds. -/
def sessionLifetime : Int := 30 * 24 * 3600 * 1000

namespace Handler

variable (h : Handler)

def sessionCookie : String := if h.secure then "__Host-encounter_session" else "encounter_session"

def nonceCookie : String :=
  if h.secure then "__Host-encounter_login_nonce" else "encounter_login_nonce"

def validOrigin (r : HttpRequest) : Bool := decide (r.origin = h.origin)

def setCookie (name value : String) (now : UnixMilli) (lifetime : Int) : Cookie :=
  ⟨name, value, "/", lifetime / 1000, now + lifetime, h.secure, true, "Lax"⟩

def clearCookie (name : String) : Cookie := ⟨name, "", "/", -1, 1000, h.secure, true, "Lax"⟩

/-- `config`: a new nonce, in the body and in a cookie. -/
def config (random : Option (List UInt8)) (now : UnixMilli) : Reply :=
  match randomToken random with
  | none => writeError 500 "could not initialize sign-in"
  | some nonce =>
    ⟨200, .config (decide (h.clientID ≠ "")) h.clientID nonce,
      [h.setCookie h.nonceCookie nonce now (10 * 60 * 1000)]⟩

/-- A sign-in that has passed the checks: the request, the bytes of the secret,
    the instant, and what Login is called with. -/
structure Ticket where
  request : HttpRequest
  body : GoogleBody
  random : List UInt8
  issuedAt : UnixMilli
  login : LoginRequest
deriving DecidableEq, Repr

def Ticket.secret (t : Ticket) : String := rawURLEncode t.random

/-- `google` up to the call of Login. -/
def google (validate : Validator) (sha256 : String → List UInt8) (now : UnixMilli)
    (random : Option (List UInt8)) (r : HttpRequest) (body : Option GoogleBody) :
    Except Reply Ticket :=
  if h.validOrigin r = false then .error (writeError 403 "origin rejected")
  else
    match h.audience with
    | none => .error (writeError 503 "Google sign-in is not configured")
    | some audience =>
      if h.clientID = "" then .error (writeError 503 "Google sign-in is not configured")
      else
        match body with
        | none => .error (writeError 400 "invalid request")
        | some body =>
          if body.nonce.utf8ByteSize < 20 ∨ r.cookie h.nonceCookie ≠ some body.nonce then
            .error (writeError 403 "login nonce rejected")
          else
            match verify (validate body.credential audience now) body.nonce with
            | .error _ => .error (writeError 401 "Google sign-in failed")
            | .ok identity =>
              match random with
              | none => .error (writeError 500 "could not create session")
              | some bytes =>
                .ok ⟨r, body, bytes, now,
                  ⟨identity, sha256 (rawURLEncode bytes), now + sessionLifetime⟩⟩

/-- The reply after Login. -/
def signedIn (t : Ticket) (now : UnixMilli) : Option User → Reply
  | none => writeError 500 "could not create session"
  | some u =>
    ⟨200, .user u, [h.setCookie h.sessionCookie t.secret now sessionLifetime,
      h.clearCookie h.nonceCookie]⟩

/-- `me`, for what Authenticate answers. -/
def me : Option User → Reply
  | none => { writeError 401 "not signed in" with cookies := [h.clearCookie h.sessionCookie] }
  | some u => ⟨200, .user u, []⟩

/-- The reply of `logout`. -/
def loggedOut : Reply := ⟨204, .empty, [h.clearCookie h.sessionCookie]⟩

end Handler

/-! ## The statements -/

structure Site where
  db : Shared
  /-- The column `revoked_at` of `sessions`, by `secret_hash`. -/
  revokedAt : List UInt8 → Option UnixMilli
  /-- The sessions issued so far and the users that Login returned, the last
      first. -/
  issued : List (Handler.Ticket × User)

namespace Site

/-- An account as Current returns it. -/
def profile (x : Site) (id : UserID) : Option User :=
  if x.db.accounts.isActive id then
    (x.db.accounts.profiles.find? fun p => decide (p.userID = id)).bind fun p =>
      (x.db.accounts.identities.find? fun e => decide (e.userID = id)).map fun e =>
        ⟨id, p.displayName, p.avatarURL, false, e.emailVerified⟩
  else none

/-- `Repository.Current`, at the instant `now` of the database. -/
def current (x : Site) (secretHash : List UInt8) (now : UnixMilli) : Option User :=
  (x.db.accounts.sessions.find? fun s => decide (s.secretHash = secretHash)).bind fun s =>
    if x.revokedAt secretHash = none ∧ now < s.expiresAt then x.profile s.userID else none

/-- `Repository.Revoke`. -/
def revoke (x : Site) (secretHash : List UInt8) (now : UnixMilli) : Site :=
  if x.db.accounts.sessions.any fun s => decide (s.secretHash = secretHash) then
    { x with
      revokedAt := fun k =>
        if k = secretHash then some ((x.revokedAt secretHash).getD now) else x.revokedAt k }
  else x

end Site

/-! ## Runs -/

inductive GoogleStage where
  | start
  /-- Login is under way. -/
  | login (t : Handler.Ticket) (stage : Stage)
  | replied (reply : Reply)
deriving DecidableEq, Repr

inductive WebRequest where
  | google (r : HttpRequest) (body : Option GoogleBody)
  /-- Authenticate, which `me` and all the other handlers call. -/
  | authenticate (r : HttpRequest)
  | logout (r : HttpRequest)
deriving DecidableEq, Repr

inductive WebThread where
  | google (r : HttpRequest) (body : Option GoogleBody) (stage : GoogleStage)
  | authenticate (r : HttpRequest) (answer : Option (Option User))
  | logout (r : HttpRequest) (reply : Option Reply)
deriving DecidableEq, Repr

def WebRequest.start : WebRequest → WebThread
  | .google r body => .google r body .start
  | .authenticate r => .authenticate r none
  | .logout r => .logout r none

/-- What a turn is supplied with: the clock of the server, the bytes that it
    draws, and the database's draws and failures. -/
structure WebSupply where
  now : UnixMilli := 0
  random : Option (List UInt8) := none
  draw : Draw := ⟨0, ""⟩
  failed : Bool := false

/-- What operators and users change of an account. -/
inductive Edit where
  | status (id : UserID) (status : AccountStatus)
  | rename (id : UserID) (name : String)
deriving DecidableEq, Repr

def Accounts.edit (a : Accounts) : Edit → Option Accounts
  | .status id status =>
    some { a with users := a.users.map fun u => if u.id = id then { u with status } else u }
  | .rename id name =>
    if NameChecked name then
      some { a with
        profiles := a.profiles.map fun p =>
          if p.userID = id then { p with displayName := name } else p }
    else none

section
variable (h : Handler) (validate : Validator) (sha256 : String → List UInt8)
  (hash : String → Int)

/-- The site after a Login that has come to `stage`. -/
def Site.record (x : Site) (db : Shared) (t : Handler.Ticket) : Stage → Site
  | .done (some u) => { x with db, issued := (t, u) :: x.issued }
  | _ => { x with db }

/-- `google` after a statement of Login. -/
def afterLogin (t : Handler.Ticket) (now : UnixMilli) : Stage → GoogleStage
  | .done result => .replied (h.signedIn t now result)
  | stage => .login t stage

/-- The next statement of a request. -/
def webTurn (i : Nat) (d : WebSupply) (x : Site) : WebThread → Option (Site × WebThread)
  | .google r body .start =>
    match h.google validate sha256 d.now d.random r body with
    | .error reply => some (x, .google r body (.replied reply))
    | .ok t => some (x, .google r body (.login t .begin))
  | .google r body (.login t stage) =>
    (t.login.step hash i d.draw d.failed x.db stage).map fun out =>
      (x.record out.1 t out.2, .google r body (afterLogin h t d.now out.2))
  | .authenticate r none =>
    match r.cookie h.sessionCookie with
    | none => some (x, .authenticate r (some none))
    | some value =>
      some (x, .authenticate r
        (some (if d.failed then none else x.current (sha256 value) d.draw.now)))
  | .logout r none =>
    if h.validOrigin r = false then
      some (x, .logout r (some (writeError 403 "origin rejected")))
    else
      match r.cookie h.sessionCookie with
      | none => some (x, .logout r (some h.loggedOut))
      | some value =>
        -- an error of Revoke is dropped
        some (if d.failed then x else x.revoke (sha256 value) d.draw.now,
          .logout r (some h.loggedOut))
  | .google _ _ (.replied _) | .authenticate _ (some _) | .logout _ (some _) => none

def web : Threads Site WebThread WebRequest WebSupply Edit where
  start := WebRequest.start
  turn := webTurn h validate sha256 hash
  env e x := (x.db.accounts.edit e).map fun accounts => { x with db := { x.db with accounts } }

/-- All schedules of requests on the accounts `a`. -/
def webMachine (a : Accounts) :
    Machine (Pool Site WebThread) (Schedule WebRequest WebSupply Edit) :=
  (web h validate sha256 hash).machine ⟨⟨a, .free, []⟩, fun _ => none, []⟩

end

end OneMinute.Auth
