/-
  OneMinute.Lib.Net

  Go's package net: addresses as strings of octets, their classes, and networks.

  An IPv4 address comes in 4 octets or in 16, after a fixed prefix.  Every
  function asks `to4` first or compares with `equal`, so each class is a set of
  addresses whatever their form (`to4_of_form`, `equal_iff`).
-/

import OneMinute.Lib.Octets

namespace Net

open Octets (Prefix agree leading)

/-- `net.IP`; where nil is told from no octets it is an `Option`. -/
abbrev IP := List UInt8

/-! ## Forms -/

/-- `v4InV6Prefix` -/
def v4InV6Prefix : IP := [0, 0, 0, 0, 0, 0, 0, 0, 0, 0, 0xff, 0xff]

/-- An IPv4 address. -/
structure IPv4 where
  a : UInt8
  b : UInt8
  c : UInt8
  d : UInt8
deriving DecidableEq, Repr

/-- The short form. -/
def IPv4.octets (x : IPv4) : IP := [x.a, x.b, x.c, x.d]

/-- `net.IPv4` -/
def IPv4.mapped (x : IPv4) : IP := v4InV6Prefix ++ x.octets

/-- Both forms. -/
def IPv4.forms (x : IPv4) : List IP := [x.octets, x.mapped]

/-- `To4` -/
def to4 (ip : IP) : Option IP :=
  if ip.length = 4 then some ip
  else if ip.length = 16 ∧ ip.take 12 = v4InV6Prefix then some (ip.drop 12)
  else none

/-- An address in 4 octets if it has that form. -/
def canonical (ip : IP) : IP := (to4 ip).getD ip

/-- `Equal` -/
def equal (ip x : IP) : Bool :=
  if ip.length = x.length then decide (ip = x)
  else if ip.length = 4 ∧ x.length = 16 then
    decide (x.take 12 = v4InV6Prefix ∧ ip = x.drop 12)
  else if ip.length = 16 ∧ x.length = 4 then
    decide (ip.take 12 = v4InV6Prefix ∧ ip.drop 12 = x)
  else false

/-! ## Classes -/

/-- `IPv4bcast` -/
def IPv4bcast : IP := (IPv4.mk 255 255 255 255).mapped

/-- `IPv4zero` -/
def IPv4zero : IP := (IPv4.mk 0 0 0 0).mapped

/-- `IPv6unspecified` -/
def IPv6unspecified : IP := [0, 0, 0, 0, 0, 0, 0, 0, 0, 0, 0, 0, 0, 0, 0, 0]

/-- `IPv6loopback` -/
def IPv6loopback : IP := [0, 0, 0, 0, 0, 0, 0, 0, 0, 0, 0, 0, 0, 0, 0, 1]

/-- `ip[i]` where `i` is below the length. -/
def octet (ip : IP) (i : Nat) : UInt8 := ip.getD i 0

/-- `IP.IsUnspecified` -/
def isUnspecified (ip : IP) : Bool := equal ip IPv4zero || equal ip IPv6unspecified

/-- `IP.IsLoopback` -/
def isLoopback (ip : IP) : Bool :=
  match to4 ip with
  | some ip4 => decide (octet ip4 0 = 127)
  | none => equal ip IPv6loopback

/-- `IP.IsPrivate` -/
def isPrivate (ip : IP) : Bool :=
  match to4 ip with
  | some ip4 =>
    decide (octet ip4 0 = 10 ∨ (octet ip4 0 = 172 ∧ octet ip4 1 &&& 0xf0 = 16) ∨
      (octet ip4 0 = 192 ∧ octet ip4 1 = 168))
  | none => decide (ip.length = 16 ∧ octet ip 0 &&& 0xfe = 0xfc)

/-- `IP.IsMulticast` -/
def isMulticast (ip : IP) : Bool :=
  match to4 ip with
  | some ip4 => decide (octet ip4 0 &&& 0xf0 = 0xe0)
  | none => decide (ip.length = 16 ∧ octet ip 0 = 0xff)

/-- `IP.IsLinkLocalUnicast` -/
def isLinkLocalUnicast (ip : IP) : Bool :=
  match to4 ip with
  | some ip4 => decide (octet ip4 0 = 169 ∧ octet ip4 1 = 254)
  | none => decide (ip.length = 16 ∧ octet ip 0 = 0xfe ∧ octet ip 1 &&& 0xc0 = 0x80)

/-- `IP.IsGlobalUnicast` -/
def isGlobalUnicast (ip : IP) : Bool :=
  decide (ip.length = 4 ∨ ip.length = 16) && !equal ip IPv4bcast && !isUnspecified ip &&
    !isLoopback ip && !isMulticast ip && !isLinkLocalUnicast ip

/-! ## Networks -/

/-- `IPNet` -/
structure IPNet where
  ip : IP
  mask : List UInt8
deriving DecidableEq, Repr

/-- `CIDRMask`; nil is no octets. -/
def cidrMask (ones bits : Nat) : List UInt8 :=
  if (bits ≠ 32 ∧ bits ≠ 128) ∨ bits < ones then [] else leading ones (bits / 8)

/-- `IP.Mask` -/
def mask (ip : IP) (m : List UInt8) : IP :=
  let m := if m.length = 16 ∧ ip.length = 4 ∧ (m.take 12).all (fun b => decide (b = 0xff))
    then m.drop 12 else m
  let ip := if m.length = 4 ∧ ip.length = 16 ∧ ip.take 12 = v4InV6Prefix then ip.drop 12 else ip
  if ip.length ≠ m.length then [] else ip.zipWith (· &&& ·) m

/-- `networkNumberAndMask` -/
def networkNumberAndMask (n : IPNet) : IP × List UInt8 :=
  let ip := canonical n.ip
  if (to4 n.ip).isNone ∧ ip.length ≠ 16 then ([], [])
  else if n.mask.length = 4 then if ip.length ≠ 4 then ([], []) else (ip, n.mask)
  else if n.mask.length = 16 then (ip, if ip.length = 4 then n.mask.drop 12 else n.mask)
  else ([], [])

/-- `IPNet.Contains` -/
def IPNet.contains (n : IPNet) (ip : IP) : Bool :=
  let nm := networkNumberAndMask n
  let ip := canonical ip
  if ip.length ≠ nm.1.length then false else agree nm.2 nm.1 ip

/-! ## Either form -/

section
variable {x : IPv4} {ip : IP}

theorem mem_forms : ip ∈ x.forms ↔ ip = x.octets ∨ ip = x.mapped := by
  unfold IPv4.forms
  rw [List.mem_cons, List.mem_singleton]

theorem mapped_mem_forms (x : IPv4) : x.mapped ∈ x.forms := mem_forms.mpr (Or.inr rfl)

theorem to4_of_form (h : ip ∈ x.forms) : to4 ip = some x.octets := by
  rcases mem_forms.mp h with rfl | rfl
  · rfl
  · rfl

theorem canonical_of_form (h : ip ∈ x.forms) : canonical ip = x.octets := by
  unfold canonical
  rw [to4_of_form h, Option.getD_some]

theorem length_of_form (h : ip ∈ x.forms) : ip.length = 4 ∨ ip.length = 16 := by
  rcases mem_forms.mp h with rfl | rfl
  · exact Or.inl rfl
  · exact Or.inr rfl

/-- There are no others. -/
theorem form_of_to4 {l : IP} (h : to4 ip = some l) : ∃ x : IPv4, ip ∈ x.forms ∧ l = x.octets := by
  unfold to4 at h
  split at h
  · next hlength =>
      obtain ⟨a, b, c, d, rfl⟩ := List.length_eq_four.mp hlength
      refine ⟨⟨a, b, c, d⟩, List.mem_cons_self, (Option.some.inj h).symm⟩
  · split at h
    · next hmapped =>
        obtain ⟨hlength, htake⟩ := hmapped
        have hdrop : (ip.drop 12).length = 4 := by rw [List.length_drop, hlength]
        obtain ⟨a, b, c, d, hoctets⟩ := List.length_eq_four.mp hdrop
        refine ⟨⟨a, b, c, d⟩, ?_, ?_⟩
        · have hip : ip = (IPv4.mk a b c d).mapped := by
            rw [← List.take_append_drop 12 ip, htake, hoctets]
            rfl
          rw [hip]
          exact mapped_mem_forms _
        · rw [← Option.some.inj h, hoctets]
          rfl
    · cases h

theorem to4_eq_none (hlength : ip.length = 16) (h : ip.take 12 ≠ v4InV6Prefix) :
    to4 ip = none := by
  unfold to4
  rw [if_neg (by omega), if_neg fun hmapped => h hmapped.2]

theorem canonical_of_length (h : ip.length = 4) : canonical ip = ip := by
  unfold canonical to4
  rw [if_pos h, Option.getD_some]

theorem canonical_of_mapped (hlength : ip.length = 16) (h : ip.take 12 = v4InV6Prefix) :
    canonical ip = ip.drop 12 := by
  unfold canonical to4
  rw [if_neg (by omega), if_pos ⟨hlength, h⟩, Option.getD_some]

theorem canonical_of_none (h : to4 ip = none) : canonical ip = ip := by
  unfold canonical
  rw [h, Option.getD_none]

variable {y : IP}

theorem eq_canonical_iff (hip : ip.length = 4) (hy : y.length = 16) :
    ip = canonical y ↔ y.take 12 = v4InV6Prefix ∧ ip = y.drop 12 := by
  by_cases hmapped : y.take 12 = v4InV6Prefix
  · rw [canonical_of_mapped hy hmapped]
    exact (and_iff_right hmapped).symm
  · rw [canonical_of_none (to4_eq_none hy hmapped)]
    constructor
    · rintro rfl
      omega
    · rintro ⟨htake, -⟩
      exact absurd htake hmapped

theorem canonical_eq_iff (hip : ip.length = 16) (hy : y.length = 16) :
    canonical ip = canonical y ↔ ip = y := by
  constructor
  · intro h
    by_cases hmapped : ip.take 12 = v4InV6Prefix
    · have hdrop := canonical_of_mapped hip hmapped
      have hfour : (ip.drop 12).length = 4 := by rw [List.length_drop, hip]
      obtain ⟨htake, hrest⟩ := (eq_canonical_iff hfour hy).mp (hdrop.symm.trans h)
      rw [← List.take_append_drop 12 ip, ← List.take_append_drop 12 y, hmapped, htake, hrest]
    · have hself := canonical_of_none (to4_eq_none hip hmapped)
      by_cases hmapped' : y.take 12 = v4InV6Prefix
      · have hlength := congrArg List.length h
        rw [hself, canonical_of_mapped hy hmapped', List.length_drop, hip, hy] at hlength
        omega
      · rwa [hself, canonical_of_none (to4_eq_none hy hmapped')] at h
  · rintro rfl
    rfl

/-- `Equal` compares addresses and not their forms. -/
theorem equal_iff (hip : ip.length = 4 ∨ ip.length = 16) (hy : y.length = 4 ∨ y.length = 16) :
    equal ip y = true ↔ canonical ip = canonical y := by
  unfold equal
  rcases hip with hip | hip
  · rw [canonical_of_length hip]
    rcases hy with hy | hy
    · rw [if_pos (hip.trans hy.symm), canonical_of_length hy, decide_eq_true_eq]
    · rw [if_neg (by omega), if_pos ⟨hip, hy⟩, decide_eq_true_eq, eq_canonical_iff hip hy]
  · rcases hy with hy | hy
    · rw [if_neg (by omega), if_neg (by omega), if_pos ⟨hip, hy⟩, decide_eq_true_eq,
        canonical_of_length hy]
      constructor
      · rintro ⟨htake, hdrop⟩
        exact ((eq_canonical_iff hy hip).mpr ⟨htake, hdrop.symm⟩).symm
      · intro h
        obtain ⟨htake, hdrop⟩ := (eq_canonical_iff hy hip).mp h.symm
        exact ⟨htake, hdrop.symm⟩
    · rw [if_pos (hip.trans hy.symm), decide_eq_true_eq, canonical_eq_iff hip hy]

end

/-! ## The classes of IPv4 -/

/-- 255.255.255.255/32 -/
def broadcast4 : Prefix := ⟨[255, 255, 255, 255], 32⟩

/-- 0.0.0.0/32 -/
def unspecified4 : Prefix := ⟨[0, 0, 0, 0], 32⟩

/-- 127.0.0.0/8 -/
def loopback4 : Prefix := ⟨[127, 0, 0, 0], 8⟩

/-- 224.0.0.0/4 -/
def multicast4 : Prefix := ⟨[224, 0, 0, 0], 4⟩

/-- 169.254.0.0/16 -/
def linkLocal4 : Prefix := ⟨[169, 254, 0, 0], 16⟩

/-- 10.0.0.0/8, 172.16.0.0/12 and 192.168.0.0/16 -/
def private4 : List Prefix := [⟨[10, 0, 0, 0], 8⟩, ⟨[172, 16, 0, 0], 12⟩, ⟨[192, 168, 0, 0], 16⟩]

/-- What is not global unicast. -/
def special4 : List Prefix := [broadcast4, unspecified4, loopback4, multicast4, linkLocal4]

section
variable {x : IPv4} {ip : IP}

theorem equal_mapped_iff {y : IPv4} (h : ip ∈ x.forms) :
    equal ip y.mapped = true ↔ x.octets ∈ (⟨y.octets, 32⟩ : Prefix) := by
  have hy := mapped_mem_forms y
  rw [equal_iff (length_of_form h) (length_of_form hy), canonical_of_form h, canonical_of_form hy]
  exact Octets.mem_full.symm

theorem isUnspecified_iff (h : ip ∈ x.forms) :
    isUnspecified ip = true ↔ x.octets ∈ unspecified4 := by
  have hv6 : equal ip IPv6unspecified = false := by
    have hself : canonical IPv6unspecified = IPv6unspecified := by decide
    rw [← Bool.not_eq_true, equal_iff (length_of_form h) (Or.inr rfl), canonical_of_form h, hself]
    intro heq
    have hlength : 4 = 16 := congrArg List.length heq
    omega
  unfold isUnspecified IPv4zero
  rw [hv6, Bool.or_false, equal_mapped_iff h]
  rfl

theorem isLoopback_iff (h : ip ∈ x.forms) : isLoopback ip = true ↔ x.octets ∈ loopback4 := by
  unfold isLoopback
  rw [to4_of_form h]
  simp [octet, IPv4.octets, loopback4, Octets.cons_mem_of_le, Octets.mem_zero]

theorem leadingOctet_four : Octets.leadingOctet 4 = 0xf0 := by decide

theorem isPrivate_iff (h : ip ∈ x.forms) : isPrivate ip = true ↔ ∃ p ∈ private4, x.octets ∈ p := by
  have hbase : (16 : UInt8) &&& 0xf0 = 16 := by decide
  unfold isPrivate
  rw [to4_of_form h]
  simp [octet, IPv4.octets, private4, Octets.cons_mem_of_le, Octets.cons_mem_of_lt,
    Octets.mem_zero, leadingOctet_four, hbase]

theorem isMulticast_iff (h : ip ∈ x.forms) : isMulticast ip = true ↔ x.octets ∈ multicast4 := by
  have hbase : (224 : UInt8) &&& 0xf0 = 0xe0 := by decide
  unfold isMulticast
  rw [to4_of_form h]
  simp [octet, IPv4.octets, multicast4, Octets.cons_mem_of_lt, leadingOctet_four, hbase]

theorem isLinkLocalUnicast_iff (h : ip ∈ x.forms) :
    isLinkLocalUnicast ip = true ↔ x.octets ∈ linkLocal4 := by
  unfold isLinkLocalUnicast
  rw [to4_of_form h]
  simp [octet, IPv4.octets, linkLocal4, Octets.cons_mem_of_le, Octets.mem_zero]

theorem isGlobalUnicast_iff (h : ip ∈ x.forms) :
    isGlobalUnicast ip = true ↔ ∀ p ∈ special4, x.octets ∉ p := by
  have hbroadcast : equal ip IPv4bcast = true ↔ x.octets ∈ broadcast4 := equal_mapped_iff h
  unfold isGlobalUnicast
  simp [special4, length_of_form h, ← Bool.not_eq_true, hbroadcast, isUnspecified_iff h,
    isLoopback_iff h, isMulticast_iff h, isLinkLocalUnicast_iff h, and_assoc]

end

/-! ## The classes of IPv6 -/

/-- ::/128 -/
def unspecified6 : Prefix := ⟨IPv6unspecified, 128⟩

/-- ::1/128 -/
def loopback6 : Prefix := ⟨IPv6loopback, 128⟩

/-- fc00::/7 -/
def private6 : Prefix := ⟨[0xfc, 0, 0, 0, 0, 0, 0, 0, 0, 0, 0, 0, 0, 0, 0, 0], 7⟩

/-- ff00::/8 -/
def multicast6 : Prefix := ⟨[0xff, 0, 0, 0, 0, 0, 0, 0, 0, 0, 0, 0, 0, 0, 0, 0], 8⟩

/-- fe80::/10 -/
def linkLocal6 : Prefix := ⟨[0xfe, 0x80, 0, 0, 0, 0, 0, 0, 0, 0, 0, 0, 0, 0, 0, 0], 10⟩

def special6 : List Prefix := [unspecified6, loopback6, multicast6, linkLocal6]

section
variable {ip : IP}

theorem equal_mapped_of_none {y : IPv4} (hlength : ip.length = 16) (h : to4 ip = none) :
    equal ip y.mapped = false := by
  have hy := mapped_mem_forms y
  rw [← Bool.not_eq_true, equal_iff (Or.inr hlength) (length_of_form hy), canonical_of_none h,
    canonical_of_form hy]
  rintro rfl
  cases hlength

theorem equal_iff_of_none {y : IP} (hlength : ip.length = 16) (h : to4 ip = none)
    (hy : y.length = 16) (hself : canonical y = y) :
    equal ip y = true ↔ ip ∈ (⟨y, 128⟩ : Prefix) := by
  have hfull : ip ∈ (⟨y, 8 * y.length⟩ : Prefix) ↔ ip = y := Octets.mem_full
  rw [hy] at hfull
  rw [hfull, equal_iff (Or.inr hlength) (Or.inr hy), canonical_of_none h, hself]

theorem isUnspecified_iff_of_none (hlength : ip.length = 16) (h : to4 ip = none) :
    isUnspecified ip = true ↔ ip ∈ unspecified6 := by
  unfold isUnspecified IPv4zero
  rw [equal_mapped_of_none hlength h, Bool.false_or]
  exact equal_iff_of_none hlength h rfl (by decide)

theorem isLoopback_iff_of_none (hlength : ip.length = 16) (h : to4 ip = none) :
    isLoopback ip = true ↔ ip ∈ loopback6 := by
  unfold isLoopback
  rw [h]
  exact equal_iff_of_none hlength h rfl (by decide)

theorem isPrivate_iff_of_none (hlength : ip.length = 16) (h : to4 ip = none) :
    isPrivate ip = true ↔ ip ∈ private6 := by
  have hmask : Octets.leadingOctet 7 = 0xfe := by decide
  have hbase : (0xfc : UInt8) &&& 0xfe = 0xfc := by decide
  unfold isPrivate
  rw [h]
  obtain ⟨a, l, rfl⟩ := List.exists_cons_of_length_eq_add_one hlength
  rw [List.length_cons, Nat.add_right_cancel_iff] at hlength
  simp [octet, private6, Octets.cons_mem_of_lt, hmask, hbase, hlength]

theorem isMulticast_iff_of_none (hlength : ip.length = 16) (h : to4 ip = none) :
    isMulticast ip = true ↔ ip ∈ multicast6 := by
  unfold isMulticast
  rw [h]
  obtain ⟨a, l, rfl⟩ := List.exists_cons_of_length_eq_add_one hlength
  rw [List.length_cons, Nat.add_right_cancel_iff] at hlength
  simp [octet, multicast6, Octets.cons_mem_of_le, Octets.mem_zero, hlength]

theorem isLinkLocalUnicast_iff_of_none (hlength : ip.length = 16) (h : to4 ip = none) :
    isLinkLocalUnicast ip = true ↔ ip ∈ linkLocal6 := by
  have hmask : Octets.leadingOctet 2 = 0xc0 := by decide
  have hbase : (0x80 : UInt8) &&& 0xc0 = 0x80 := by decide
  unfold isLinkLocalUnicast
  rw [h]
  obtain ⟨a, t, rfl⟩ := List.exists_cons_of_length_eq_add_one hlength
  rw [List.length_cons, Nat.add_right_cancel_iff] at hlength
  obtain ⟨b, l, rfl⟩ := List.exists_cons_of_length_eq_add_one hlength
  rw [List.length_cons, Nat.add_right_cancel_iff] at hlength
  simp [octet, linkLocal6, Octets.cons_mem_of_le, Octets.cons_mem_of_lt, hmask, hbase, hlength]

theorem isGlobalUnicast_iff_of_none (hlength : ip.length = 16) (h : to4 ip = none) :
    isGlobalUnicast ip = true ↔ ∀ p ∈ special6, ip ∉ p := by
  have hbroadcast : equal ip IPv4bcast = false := equal_mapped_of_none hlength h
  unfold isGlobalUnicast
  simp [special6, hlength, hbroadcast, ← Bool.not_eq_true, isUnspecified_iff_of_none hlength h,
    isLoopback_iff_of_none hlength h, isMulticast_iff_of_none hlength h,
    isLinkLocalUnicast_iff_of_none hlength h, and_assoc]

end

/-! ## Networks as ranges -/

/-- The network of a prefix, as `ParseCIDR` makes it. -/
def network (p : Prefix) : IPNet := ⟨p.base.zipWith (· &&& ·) p.mask, p.mask⟩

theorem mask_mapped (x : IPv4) {m : List UInt8} (h : m.length = 4) :
    mask x.mapped m = x.octets.zipWith (· &&& ·) m := by
  simp [mask, h, IPv4.mapped, IPv4.octets, v4InV6Prefix]

/-- The base is masked already. -/
theorem agree_zipWith (m base l : List UInt8) :
    agree m (base.zipWith (· &&& ·) m) l = agree m base l := by
  induction m generalizing base l with
  | nil => rfl
  | cons b m ih =>
      cases base with
      | nil => rfl
      | cons c base =>
          cases l with
          | nil => rfl
          | cons d l =>
              rw [List.zipWith_cons_cons, agree, agree, ih, UInt8.and_assoc, UInt8.and_self]

theorem length_network_ip (p : Prefix) : (network p).ip.length = p.base.length := by
  simp [network, Prefix.mask]

theorem length_network_mask (p : Prefix) : (network p).mask.length = p.base.length := by
  simp [network, Prefix.mask]

/-- A base of 16 octets that is not IPv4 in its long form is left as it is. -/
theorem networkNumberAndMask_network {p : Prefix}
    (hp : p.base.length = 4 ∨ (p.base.length = 16 ∧ to4 (network p).ip = none)) :
    networkNumberAndMask (network p) = ((network p).ip, p.mask) := by
  have hip := length_network_ip p
  have hmask := length_network_mask p
  unfold networkNumberAndMask
  rcases hp with hfour | ⟨hlength, hnone⟩
  · have hto : to4 (network p).ip = some (network p).ip := if_pos (hip.trans hfour)
    rw [canonical_of_length (hip.trans hfour), hto, if_neg (by simp), if_pos (hmask.trans hfour),
      if_neg (by omega)]
    rfl
  · rw [canonical_of_none hnone, if_neg (by omega), if_neg (by omega),
      if_pos (hmask.trans hlength), if_neg (by omega)]
    rfl

theorem contains_network_iff {p : Prefix} (ip : IP)
    (hp : p.base.length = 4 ∨ (p.base.length = 16 ∧ to4 (network p).ip = none)) :
    (network p).contains ip = true ↔ canonical ip ∈ p := by
  unfold IPNet.contains
  rw [networkNumberAndMask_network hp, Octets.mem_iff_agree]
  simp only [length_network_ip]
  split
  · next hlength =>
      constructor
      · intro hfalse
        cases hfalse
      · rintro ⟨heq, -⟩
        exact absurd heq hlength
  · next hlength =>
      rw [not_not] at hlength
      have hagree : agree p.mask (network p).ip (canonical ip) =
          agree p.mask p.base (canonical ip) := agree_zipWith p.mask p.base (canonical ip)
      rw [hagree]
      exact (and_iff_right hlength).symm

end Net
