/-
  OneMinute.Turn.Config

  The TURN server's configuration, and the peers that it relays to.

  A peer is refused by the classes of package net or by a list of networks.  Each
  of these is a range of addresses whatever their form, so the refused IPv4
  addresses are those of fourteen ranges (`publicPeer_iff`).
-/

import OneMinute.Lib.NetText

namespace OneMinute.Turn

open Net (Text IP IPv4 text to4 isUnspecified isLoopback isPrivate isMulticast
  isLinkLocalUnicast isGlobalUnicast parseIP parseCIDR network canonical)
open Octets (Prefix)

/-! ## PublicPeer -/

def blocks : List String :=
  ["0.0.0.0/8", "100.64.0.0/10", "192.0.0.0/24", "192.0.2.0/24", "198.18.0.0/15",
    "198.51.100.0/24", "203.0.113.0/24", "240.0.0.0/4", "2001:db8::/32"]

/-- The classes of the first test. -/
def refused (ip : IP) : Bool :=
  !isGlobalUnicast ip || isPrivate ip || isLoopback ip || isLinkLocalUnicast ip

/-- The loop over the blocks.  One that does not parse has no network, and the call of
    `Contains` on it no result. -/
def outside (ip : IP) : List String → Option Bool
  | [] => some true
  | block :: rest => do
    let (_, subnet) ← parseCIDR (text block)
    if subnet.contains ip then some false else outside ip rest

/-- `PublicPeer`; nil is none. -/
def publicPeer : Option IP → Option Bool
  | none => some false
  | some ip => if refused ip then some false else outside ip blocks

/-! ## Load -/

structure Config where
  environment : Text
  listenAddr : Text
  healthAddr : Text
  realm : Text
  secret : Text
  publicIP : Option IP
  relayMin : Nat
  relayMax : Nat
  allowPrivate : Bool
deriving DecidableEq, Repr

inductive Failure where
  | error (text : String)
  /-- `PublicPeer` has no result. -/
  | nilDereference
deriving DecidableEq, Repr

def get (getenv : String → Text) (key fallback : String) : Text :=
  if getenv key = [] then text fallback else getenv key

/-- `strconv.ParseUint` with base 10 and 16 bits. -/
def parseUint16 (s : Text) : Option Nat :=
  (Decimal.parseNat s).filter fun n => decide (n < 65536)

/-- `strconv.ParseBool` -/
def parseBool (s : Text) : Option Bool :=
  if ["1", "t", "T", "TRUE", "true", "True"].any fun t => decide (s = text t) then some true
  else if ["0", "f", "F", "FALSE", "false", "False"].any fun t => decide (s = text t) then
    some false
  else none

/-- An address that is there, is IPv4, and is one host's. -/
def Concrete : Option IP → Prop
  | none => False
  | some ip => to4 ip ≠ none ∧ isUnspecified ip = false ∧ isMulticast ip = false

instance : (ip : Option IP) → Decidable (Concrete ip)
  | none => inferInstanceAs (Decidable False)
  | some _ => inferInstanceAs (Decidable (_ ∧ _))

/-- The range of relay ports. -/
def relayRange (min max : Text) : Option (Nat × Nat) := do
  let min ← parseUint16 min
  let max ← parseUint16 max
  if min < 1024 ∨ max < min ∨ max = 65535 then none else some (min, max)

/-- The last test. -/
def checkProduction (c : Config) : Except Failure Config :=
  let unfit : Failure :=
    .error "production TURN requires a public IP and private peers disabled"
  if c.environment ≠ text "production" then .ok c
  else if c.allowPrivate then .error unfit
  else
    match publicPeer c.publicIP with
    | none => .error .nilDereference
    | some isPublic => if isPublic then .ok c else .error unfit

/-- `Load` -/
def load (getenv : String → Text) : Except Failure Config :=
  let environment := get getenv "APP_ENV" "development"
  let secret := getenv "TURN_SECRET"
  let publicIP := parseIP (getenv "TURN_PUBLIC_IP")
  if environment ≠ text "development" ∧ environment ≠ text "test" ∧
      environment ≠ text "production" then .error (.error "invalid APP_ENV")
  else if secret.length < 32 ∨ secret = text "replace-with-at-least-32-random-bytes" then
    .error (.error "TURN_SECRET must contain at least 32 random characters")
  else if ¬ Concrete publicIP then
    .error (.error "TURN_PUBLIC_IP must be a concrete IPv4 address")
  else
    match relayRange (get getenv "TURN_RELAY_MIN" "49160")
        (get getenv "TURN_RELAY_MAX" "49180") with
    | none => .error (.error "invalid TURN relay range (1024..65534)")
    | some (relayMin, relayMax) =>
      match parseBool (get getenv "TURN_ALLOW_PRIVATE_PEERS" "false") with
      | none => .error (.error "invalid TURN_ALLOW_PRIVATE_PEERS")
      | some allowPrivate =>
        checkProduction
          ⟨environment, get getenv "TURN_LISTEN_ADDR" ":3478",
            get getenv "TURN_HEALTH_ADDR" ":8081", get getenv "TURN_REALM" "local.encounter", secret,
            publicIP, relayMin, relayMax, allowPrivate⟩

/-- The server's `PermissionHandler`. -/
def permission (c : Config) (peer : Option IP) : Option Bool :=
  if c.allowPrivate then some true else publicPeer peer

/-! ## The blocks as ranges -/

def ranges : List Prefix :=
  [⟨[0, 0, 0, 0], 8⟩, ⟨[100, 64, 0, 0], 10⟩, ⟨[192, 0, 0, 0], 24⟩, ⟨[192, 0, 2, 0], 24⟩,
    ⟨[198, 18, 0, 0], 15⟩, ⟨[198, 51, 100, 0], 24⟩, ⟨[203, 0, 113, 0], 24⟩, ⟨[240, 0, 0, 0], 4⟩,
    ⟨[0x20, 0x01, 0x0d, 0xb8, 0, 0, 0, 0, 0, 0, 0, 0, 0, 0, 0, 0], 32⟩]

/-- The text of a range. -/
def Parses (block : String) (p : Prefix) : Prop :=
  (parseCIDR (text block)).map Prod.snd = some (network p) ∧
    (p.base.length = 4 ∨ (p.base.length = 16 ∧ to4 (network p).ip = none))

instance (block : String) (p : Prefix) : Decidable (Parses block p) :=
  inferInstanceAs (Decidable (_ ∧ _))

theorem blocks_parse : List.Forall₂ Parses blocks ranges := by decide

/-- The loop ends, with true if the address is in none of the ranges. -/
theorem outside_iff {blocks : List String} {ranges : List Prefix}
    (h : List.Forall₂ Parses blocks ranges) (ip : IP) :
    ∃ verdict, outside ip blocks = some verdict ∧
      (verdict = true ↔ ∀ p ∈ ranges, canonical ip ∉ p) := by
  induction h with
  | nil => exact ⟨true, rfl, by simp⟩
  | @cons block p blocks ranges hparses _ ih =>
      obtain ⟨verdict, hrest, hiff⟩ := ih
      obtain ⟨hnetwork, hbase⟩ := hparses
      obtain ⟨⟨address, subnet⟩, hparse, rfl⟩ := Option.map_eq_some_iff.mp hnetwork
      have hcontains := Net.contains_network_iff ip hbase
      rw [outside, hparse, List.forall_mem_cons, ← hcontains, ← hiff]
      show ∃ verdict', (if (network p).contains ip then some false else outside ip blocks) =
        some verdict' ∧ _
      split
      · next hin => exact ⟨false, rfl, by simp [hin]⟩
      · next hout => exact ⟨verdict, hrest, (and_iff_right hout).symm⟩

theorem publicPeer_returns (peer : Option IP) : ∃ verdict, publicPeer peer = some verdict := by
  cases peer with
  | none => exact ⟨false, rfl⟩
  | some ip =>
      obtain ⟨verdict, hverdict, -⟩ := outside_iff blocks_parse ip
      unfold publicPeer
      simp only
      split
      · exact ⟨false, rfl⟩
      · exact ⟨verdict, hverdict⟩

/-! ## What is refused -/

/-- The classes that are tested again are not global unicast. -/
theorem refused_eq (ip : IP) : refused ip = (!isGlobalUnicast ip || isPrivate ip) := by
  unfold refused isGlobalUnicast
  cases isLoopback ip <;> cases isLinkLocalUnicast ip <;> simp

/-- The classes are ranges too; `reserved` are some of all these that cover the rest. -/
theorem publicPeer_eq {ip l : IP} {special priv reserved : List Prefix} (hl : canonical ip = l)
    (hglobal : isGlobalUnicast ip = true ↔ ∀ p ∈ special, l ∉ p)
    (hprivate : isPrivate ip = true ↔ ∃ p ∈ priv, l ∈ p)
    (hparts : ∀ p ∈ reserved, p ∈ special ++ priv ++ ranges)
    (hcover : ∀ p ∈ special ++ priv ++ ranges, p.base.length = l.length →
      ∃ q ∈ reserved, p.Within q) :
    publicPeer (some ip) = some (decide (∀ p ∈ reserved, l ∉ p)) := by
  obtain ⟨verdict, hverdict, hiff⟩ := outside_iff blocks_parse ip
  rw [hl] at hiff
  have hreserved : (∀ p ∈ reserved, l ∉ p) ↔
      isGlobalUnicast ip = true ∧ ¬ isPrivate ip = true ∧ verdict = true := by
    rw [Octets.avoids_iff hparts hcover, hglobal, hprivate, hiff, List.forall_mem_append,
      List.forall_mem_append, and_assoc]
    simp only [not_exists, not_and]
  unfold publicPeer
  simp only [refused_eq, hverdict, hreserved]
  cases isGlobalUnicast ip <;> cases isPrivate ip <;> simp

/-- The ranges of IPv4 that no peer is in. -/
def reserved4 : List Prefix :=
  [⟨[0, 0, 0, 0], 8⟩, ⟨[10, 0, 0, 0], 8⟩, ⟨[100, 64, 0, 0], 10⟩, ⟨[127, 0, 0, 0], 8⟩,
    ⟨[169, 254, 0, 0], 16⟩, ⟨[172, 16, 0, 0], 12⟩, ⟨[192, 0, 0, 0], 24⟩, ⟨[192, 0, 2, 0], 24⟩,
    ⟨[192, 168, 0, 0], 16⟩, ⟨[198, 18, 0, 0], 15⟩, ⟨[198, 51, 100, 0], 24⟩,
    ⟨[203, 0, 113, 0], 24⟩, ⟨[224, 0, 0, 0], 4⟩, ⟨[240, 0, 0, 0], 4⟩]

/-- 255.255.255.255 is in 240.0.0.0/4, and 0.0.0.0 in 0.0.0.0/8. -/
theorem publicPeer_of_form {x : IPv4} {ip : IP} (h : ip ∈ x.forms) :
    publicPeer (some ip) = some (decide (∀ p ∈ reserved4, x.octets ∉ p)) := by
  have hparts : ∀ p ∈ reserved4, p ∈ Net.special4 ++ Net.private4 ++ ranges := by decide
  have hcover : ∀ p ∈ Net.special4 ++ Net.private4 ++ ranges, p.base.length = 4 →
      ∃ q ∈ reserved4, p.Within q := by decide
  exact publicPeer_eq (Net.canonical_of_form h) (Net.isGlobalUnicast_iff h)
    (Net.isPrivate_iff h) hparts hcover

/-- `PublicPeer` returns, with true for the addresses outside the fourteen ranges. -/
theorem publicPeer_iff (x : IPv4) : ∀ ip ∈ x.forms,
    (∃ verdict, publicPeer (some ip) = some verdict) ∧
      (publicPeer (some ip) = some true ↔ ∀ p ∈ reserved4, x.octets ∉ p) := by
  intro ip h
  rw [publicPeer_of_form h]
  refine ⟨⟨_, rfl⟩, ?_⟩
  rw [Option.some.injEq, decide_eq_true_eq]

/-- 172.31.255.255 is the last private address of its range. -/
theorem publicPeer_iff_boundary :
    publicPeer (some (IPv4.mk 172 31 255 255).mapped) ≠ some true ∧
      publicPeer (some (IPv4.mk 172 32 0 0).mapped) = some true := by
  have hlast := publicPeer_iff ⟨172, 31, 255, 255⟩ (IPv4.mk 172 31 255 255).mapped (by decide)
  have hnext := publicPeer_iff ⟨172, 32, 0, 0⟩ (IPv4.mk 172 32 0 0).mapped (by decide)
  rw [ne_eq, hlast.2, hnext.2]
  decide

/-- What the tests sample, for all texts. -/
theorem publicPeer_text (x : IPv4) :
    publicPeer (parseIP x.text) = some (decide (∀ p ∈ reserved4, x.octets ∉ p)) := by
  rw [Net.parseIP_text]
  exact publicPeer_of_form (Net.mapped_mem_forms x)

/-- The ranges of IPv6 that no peer is in. -/
def reserved6 : List Prefix :=
  [Net.unspecified6, Net.loopback6, Net.private6, Net.linkLocal6, Net.multicast6,
    ⟨[0x20, 0x01, 0x0d, 0xb8, 0, 0, 0, 0, 0, 0, 0, 0, 0, 0, 0, 0], 32⟩]

/-- An address of 16 octets that is not IPv4 in its long form. -/
theorem publicPeer_of_none {ip : IP} (hlength : ip.length = 16) (h : to4 ip = none) :
    publicPeer (some ip) = some (decide (∀ p ∈ reserved6, ip ∉ p)) := by
  have hprivate : isPrivate ip = true ↔ ∃ p ∈ [Net.private6], ip ∈ p := by
    rw [Net.isPrivate_iff_of_none hlength h]
    simp
  have hparts : ∀ p ∈ reserved6, p ∈ Net.special6 ++ [Net.private6] ++ ranges := by decide
  have hcover : ∀ p ∈ Net.special6 ++ [Net.private6] ++ ranges, p.base.length = 16 →
      ∃ q ∈ reserved6, p.Within q := by decide
  rw [← hlength] at hcover
  exact publicPeer_eq (Net.canonical_of_none h) (Net.isGlobalUnicast_iff_of_none hlength h)
    hprivate hparts hcover

/-- A unique local address, and an address beside the documentation range. -/
theorem publicPeer_of_none_boundary :
    publicPeer (some (0xfd :: List.replicate 14 0 ++ [1])) = some false ∧
      publicPeer (some ([0x20, 0x01, 0x0d, 0xb9] ++ List.replicate 12 0)) = some true := by
  constructor
  · rw [publicPeer_of_none (by decide) (by decide)]
    decide
  · rw [publicPeer_of_none (by decide) (by decide)]
    decide

/-- No other string of octets is an address. -/
theorem publicPeer_of_length {ip : IP} (h : ip.length ≠ 4) (h' : ip.length ≠ 16) :
    publicPeer (some ip) = some false := by
  have hglobal : isGlobalUnicast ip = false := by simp [isGlobalUnicast, h, h']
  unfold publicPeer
  simp [refused_eq, hglobal]

/-! ## What is loaded -/

section
variable {getenv : String → Text} {c : Config}

theorem parseUint16_lt {s : Text} {n : Nat} (h : parseUint16 s = some n) : n < 65536 := by
  unfold parseUint16 at h
  obtain ⟨_, hlt⟩ := Option.filter_eq_some_iff.mp h
  exact of_decide_eq_true hlt

theorem relayRange_eq_some {min max : Text} {m n : Nat} (h : relayRange min max = some (m, n)) :
    1024 ≤ m ∧ m ≤ n ∧ n < 65535 := by
  unfold relayRange at h
  obtain ⟨m', hmin, h⟩ := Option.bind_eq_some_iff.mp h
  obtain ⟨n', hmax, h⟩ := Option.bind_eq_some_iff.mp h
  have hlt := parseUint16_lt hmax
  split at h
  · cases h
  · cases h
    omega

/-- What `Load` lets through. -/
structure Config.Accepted (c : Config) : Prop where
  environment : c.environment ∈ ["development", "test", "production"].map text
  secret : 32 ≤ c.secret.length
  address : Concrete c.publicIP
  ports : 1024 ≤ c.relayMin ∧ c.relayMin ≤ c.relayMax ∧ c.relayMax < 65535
  production : c.environment = text "production" →
    c.allowPrivate = false ∧ publicPeer c.publicIP = some true

theorem check_eq_ok {p : Prop} [Decidable p] {e : Failure} {r : Except Failure Config} :
    (if p then .error e else r) = .ok c ↔ ¬ p ∧ r = .ok c := by
  split
  · next hp => simp [hp]
  · next hp => simp [hp]

theorem checkProduction_eq_ok {c' : Config} (h : checkProduction c = .ok c') :
    c' = c ∧ (c.environment = text "production" →
      c.allowPrivate = false ∧ publicPeer c.publicIP = some true) := by
  unfold checkProduction at h
  simp only at h
  split at h
  · next hother => exact ⟨(Except.ok.inj h).symm, fun hproduction => absurd hproduction hother⟩
  · split at h
    · cases h
    · next hallow =>
        split at h
        · cases h
        · next isPublic hpublic =>
            split at h
            · next hyes =>
                refine ⟨(Except.ok.inj h).symm, fun _ => ⟨by simpa using hallow, ?_⟩⟩
                rw [hpublic, hyes]
            · cases h

theorem checkProduction_of_public (hallow : c.allowPrivate = false)
    (hpublic : publicPeer c.publicIP = some true) : checkProduction c = .ok c := by
  unfold checkProduction
  simp only [hallow, hpublic]
  simp

theorem accepted_of_load (h : load getenv = .ok c) : c.Accepted := by
  unfold load at h
  obtain ⟨henvironment, h⟩ := check_eq_ok.mp h
  obtain ⟨hsecret, h⟩ := check_eq_ok.mp h
  obtain ⟨haddress, h⟩ := check_eq_ok.mp h
  split at h
  · cases h
  · next m n hrange =>
      split at h
      · cases h
      · next allowPrivate hallow =>
          obtain ⟨rfl, hproduction⟩ := checkProduction_eq_ok h
          refine ⟨?_, not_lt.mp fun hshort => hsecret (Or.inl hshort), not_not.mp haddress,
            relayRange_eq_some hrange, hproduction⟩
          simp only [List.map_cons, List.map_nil, List.mem_cons, List.not_mem_nil, or_false]
          tauto

theorem checkProduction_ne : checkProduction c ≠ .error .nilDereference := by
  obtain ⟨verdict, hverdict⟩ := publicPeer_returns c.publicIP
  unfold checkProduction
  simp only [hverdict]
  split
  · simp
  · split
    · simp
    · cases verdict with
      | true => simp
      | false => simp

theorem check_ne {p : Prop} [Decidable p] {message : String} {r : Except Failure Config}
    (h : r ≠ .error .nilDereference) :
    (if p then .error (.error message) else r) ≠ .error .nilDereference := by
  split
  · simp
  · exact h

/-- `PublicPeer` has a result on every address. -/
theorem load_ne_nilDereference : load getenv ≠ .error .nilDereference := by
  apply check_ne
  apply check_ne
  apply check_ne
  split
  · simp
  · split
    · simp
    · exact checkProduction_ne

/-- The peers of an IPv4 address in either form, and the server's own address. -/
theorem production_peers (h : load getenv = .ok c)
    (hproduction : c.environment = text "production") :
    (∃ x : IPv4, ∃ ip ∈ x.forms, c.publicIP = some ip ∧ ∀ p ∈ reserved4, x.octets ∉ p) ∧
      ∀ x : IPv4, ∀ ip ∈ x.forms,
        permission c (some ip) = some (decide (∀ p ∈ reserved4, x.octets ∉ p)) := by
  have haccepted := accepted_of_load h
  obtain ⟨hallow, hpublic⟩ := haccepted.production hproduction
  constructor
  · cases hip : c.publicIP with
    | none =>
        rw [hip] at hpublic
        cases hpublic
    | some ip =>
        have haddress := haccepted.address
        rw [hip] at haddress hpublic
        obtain ⟨octets, hto⟩ := Option.ne_none_iff_exists'.mp haddress.1
        obtain ⟨x, hform, -⟩ := Net.form_of_to4 hto
        rw [publicPeer_of_form hform, Option.some.injEq, decide_eq_true_eq] at hpublic
        exact ⟨x, ip, hform, rfl, hpublic⟩
  · intro x ip hform
    unfold permission
    rw [hallow, if_neg (by decide), publicPeer_of_form hform]

/-- The addresses that are no host's are in ranges. -/
theorem concrete_of_reserved {x : IPv4} {ip : IP} (h : ip ∈ x.forms)
    (hfree : ∀ p ∈ reserved4, x.octets ∉ p) : Concrete (some ip) := by
  refine ⟨?_, ?_, ?_⟩
  · rw [Net.to4_of_form h]
    simp
  · rw [← Bool.not_eq_true, Net.isUnspecified_iff h]
    intro hunspecified
    have hwithin : Net.unspecified4.Within ⟨[0, 0, 0, 0], 8⟩ := by decide
    exact hfree ⟨[0, 0, 0, 0], 8⟩ (by decide) (Octets.mem_of_within hwithin hunspecified)
  · rw [← Bool.not_eq_true, Net.isMulticast_iff h]
    exact hfree Net.multicast4 (by decide)

/-- A production server with an address in decimal starts if that is outside the ranges. -/
theorem load_production_iff {x : IPv4} {m n : Nat}
    (henvironment : getenv "APP_ENV" = text "production")
    (hsecret : 32 ≤ (getenv "TURN_SECRET").length)
    (hreplaced : getenv "TURN_SECRET" ≠ text "replace-with-at-least-32-random-bytes")
    (haddress : getenv "TURN_PUBLIC_IP" = x.text)
    (hrange : relayRange (get getenv "TURN_RELAY_MIN" "49160")
      (get getenv "TURN_RELAY_MAX" "49180") = some (m, n))
    (hallow : parseBool (get getenv "TURN_ALLOW_PRIVATE_PEERS" "false") = some false) :
    (∃ c, load getenv = .ok c) ↔ ∀ p ∈ reserved4, x.octets ∉ p := by
  have hform := Net.mapped_mem_forms x
  have hget : get getenv "APP_ENV" "development" = text "production" := by
    unfold get
    rw [henvironment, if_neg (by decide)]
  have hload : load getenv = if ¬ Concrete (some x.mapped) then
      .error (.error "TURN_PUBLIC_IP must be a concrete IPv4 address") else checkProduction
        ⟨text "production", get getenv "TURN_LISTEN_ADDR" ":3478",
          get getenv "TURN_HEALTH_ADDR" ":8081", get getenv "TURN_REALM" "local.encounter",
          getenv "TURN_SECRET", some x.mapped, m, n, false⟩ := by
    unfold load
    simp only [hget, haddress, Net.parseIP_text, hrange, hallow]
    rw [if_neg fun h => h.2.2 rfl, if_neg (not_or.mpr ⟨not_lt.mpr hsecret, hreplaced⟩)]
  rw [hload]
  constructor
  · rintro ⟨c, hc⟩
    obtain ⟨-, hcheck⟩ := check_eq_ok.mp hc
    obtain ⟨-, hpublic⟩ := (checkProduction_eq_ok hcheck).2 rfl
    rwa [publicPeer_of_form hform, Option.some.injEq, decide_eq_true_eq] at hpublic
  · intro hfree
    have hpublic : publicPeer (some x.mapped) = some true := by
      rw [publicPeer_of_form hform, decide_eq_true hfree]
    exact ⟨_, check_eq_ok.mpr ⟨not_not.mpr (concrete_of_reserved hform hfree),
      checkProduction_of_public rfl hpublic⟩⟩

end

/-- The environment of a production server. -/
def deployed (key : String) : Text :=
  if key = "APP_ENV" then text "production"
  else if key = "TURN_SECRET" then List.replicate 32 120
  else if key = "TURN_PUBLIC_IP" then text "8.8.8.8"
  else []

theorem production_peers_deployed : ∃ c, load deployed = .ok c ∧
    permission c (some (IPv4.mk 169 254 169 254).mapped) = some false ∧
    permission c (some (IPv4.mk 8 8 4 4).mapped) = some true := by
  have hobs : (load deployed).toOption.map (fun c => decide (c.environment = text "production")) =
      some true := by
    decide +kernel
  obtain ⟨c, hc, hproduction⟩ := Option.map_eq_some_iff.mp hobs
  have hload : load deployed = .ok c := by
    cases h : load deployed with
    | error e =>
        rw [h] at hc
        cases hc
    | ok c' =>
        rw [h] at hc
        cases hc
        rfl
  obtain ⟨-, hpeers⟩ := production_peers hload (of_decide_eq_true hproduction)
  refine ⟨c, hload, ?_, ?_⟩
  · rw [hpeers ⟨169, 254, 169, 254⟩ _ (Net.mapped_mem_forms _)]
    decide
  · rw [hpeers ⟨8, 8, 4, 4⟩ _ (Net.mapped_mem_forms _)]
    decide

end OneMinute.Turn
