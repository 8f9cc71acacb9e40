/-
  OneMinute.Lib.NetText

  The texts of package net: addresses of both families, and CIDR notation.

  An IPv4 address in decimal is read back in its long form (`parseIP_text`), and
  with a number of bits as the network of the prefix (`parseCIDR_text`).
-/

import OneMinute.Lib.Decimal
import OneMinute.Lib.Net

namespace Net

open Octets (leading)

/-- A text is its bytes. -/
abbrev Text := List UInt8

/-- The bytes of a string. -/
def text (s : String) : Text := s.toUTF8.data.toList

/-- `.` -/
def dot : UInt8 := 46

/-- `/` -/
def slash : UInt8 := 47

/-- `:` -/
def colon : UInt8 := 58

/-- `%` -/
def percent : UInt8 := 37

/-- `netip.Addr`: 4 or 16 octets. -/
structure Addr where
  bytes : IP
  zone : Text
deriving DecidableEq, Repr

/-- `Addr.BitLen`: 32 or 128. -/
def Addr.bitLen (a : Addr) : Nat := 8 * a.bytes.length

/-- `Addr.As16`: an IPv4 address in its long form. -/
def Addr.as16 (a : Addr) : IP := if a.bytes.length = 4 then v4InV6Prefix ++ a.bytes else a.bytes

/-- The fields before the current one, and the value and number of its digits. -/
def parseIPv4Fields (fields : List UInt8) (val digLen : Nat) : Text → Option (List UInt8)
  | [] => if fields.length < 3 then none else some (fields ++ [UInt8.ofNat val])
  | c :: s =>
    if Decimal.isDigit c then
      if digLen = 1 ∧ val = 0 then none
      else
        let val := val * 10 + (c.toNat - 48)
        if 255 < val then none else parseIPv4Fields fields val (digLen + 1) s
    else if c = dot then
      -- no digit before the dot, or nothing after it
      if digLen = 0 ∨ s = [] then none
      else if fields.length = 3 then none
      else parseIPv4Fields (fields ++ [UInt8.ofNat val]) 0 0 s
    else none

/-- The value of a hexadecimal digit of either case. -/
def hexValue (c : UInt8) : Option Nat :=
  if 48 ≤ c.toNat ∧ c.toNat ≤ 57 then some (c.toNat - 48)
  else if 97 ≤ c.toNat ∧ c.toNat ≤ 102 then some (c.toNat - 97 + 10)
  else if 65 ≤ c.toNat ∧ c.toNat ≤ 70 then some (c.toNat - 65 + 10)
  else none

/-- The value and number of the leading hexadecimal digits, and what follows them. -/
def hexField (acc off : Nat) : Text → Option (Nat × Nat × Text)
  | [] => some (acc, off, [])
  | c :: s =>
    match hexValue c with
    | none => some (acc, off, c :: s)
    | some d =>
      let acc := acc * 16 + d
      if 3 < off ∨ 0xffff < acc then none else hexField acc (off + 1) s

/-- The loop over the fields of 16 bits: at most `n` more of them, after the octets
    `ip` and perhaps an ellipsis.  What is left of the text is returned too. -/
def parseIPv6Fields : Nat → IP → Option Nat → Text → Option (IP × Option Nat × Text)
  | 0, ip, ellipsis, s => some (ip, ellipsis, s)
  | n + 1, ip, ellipsis, s => do
    let (acc, off, rest) ← hexField 0 0 s
    if off = 0 then none
    else if rest.head? = some dot then
      if ellipsis = none ∧ ip.length ≠ 12 then none
      else if 16 < ip.length + 4 then none
      else
        let fields ← parseIPv4Fields [] 0 0 s
        some (ip ++ fields, ellipsis, [])
    else
      let ip := ip ++ [UInt8.ofNat (acc / 256), UInt8.ofNat acc]
      match rest with
      | [] => some (ip, ellipsis, [])
      | c :: s =>
        if c ≠ colon ∨ s = [] then none
        else if s.head? = some colon then
          if ellipsis.isSome then none
          else if s.tail = [] then some (ip, some ip.length, [])
          else parseIPv6Fields n ip (some ip.length) s.tail
        else parseIPv6Fields n ip ellipsis s

/-- The octets that the ellipsis stands for. -/
def expandEllipsis (ip : IP) (ellipsis : Option Nat) : Option IP :=
  match ellipsis with
  | none => if ip.length < 16 then none else some ip
  | some i =>
    if ip.length < 16 then some (ip.take i ++ List.replicate (16 - ip.length) 0 ++ ip.drop i)
    else none

/-- An IPv6 address without its zone. -/
def parseIPv6Bytes (s : Text) : Option IP :=
  let leads := decide (s.take 2 = [colon, colon])
  let s := if leads then s.drop 2 else s
  if leads ∧ s = [] then some IPv6unspecified
  else do
    let (ip, ellipsis, rest) ← parseIPv6Fields 8 [] (if leads then some 0 else none) s
    if rest ≠ [] then none else expandEllipsis ip ellipsis

/-- `netip.parseIPv6`: what follows the first percent sign is the zone, which is not
    empty. -/
def parseIPv6 (s : Text) : Option Addr :=
  match s.span (fun c => decide (c ≠ percent)) with
  | (addr, []) => (parseIPv6Bytes addr).map fun ip => ⟨ip, []⟩
  | (addr, _ :: zone) =>
    if zone = [] then none else (parseIPv6Bytes addr).map fun ip => ⟨ip, zone⟩

/-- `netip.ParseAddr`: the first of these bytes tells the family. -/
def parseAddr (s : Text) : Option Addr :=
  match s.find? fun c => decide (c = dot ∨ c = colon ∨ c = percent) with
  | none => none
  | some c =>
    if c = dot then (parseIPv4Fields [] 0 0 s).map fun ip => ⟨ip, []⟩
    else if c = colon then parseIPv6 s
    else none

/-- `net.ParseIP`; nil is none. -/
def parseIP (s : Text) : Option IP := do
  let addr ← parseAddr s
  if addr.zone ≠ [] then none else some addr.as16

/-- `net.ParseCIDR` -/
def parseCIDR (s : Text) : Option (IP × IPNet) :=
  match s.span (fun c => decide (c ≠ slash)) with
  | (_, []) => none
  | (addr, _ :: ones) => do
    let addr ← parseAddr addr
    if addr.zone ≠ [] then none
    else
      let n ← Decimal.parseNat ones
      if addr.bitLen < n then none
      else
        let m := cidrMask n addr.bitLen
        some (addr.as16, ⟨mask addr.as16 m, m⟩)

/-! ## What is written in decimal -/

/-- `String` of an IPv4 address. -/
def IPv4.text (x : IPv4) : Text :=
  Decimal.formatNat x.a.toNat ++ dot :: (Decimal.formatNat x.b.toNat ++
    dot :: (Decimal.formatNat x.c.toNat ++ dot :: Decimal.formatNat x.d.toNat))

section
variable {fields : List UInt8} {s : Text}

/-- One more digit of a field. -/
theorem parseIPv4Fields_digit {val k d : Nat} (hd : d < 10) (hle : val * 10 + d ≤ 255)
    (hzero : ¬ (k = 1 ∧ val = 0)) :
    parseIPv4Fields fields val k (Decimal.digit d :: s) =
      parseIPv4Fields fields (val * 10 + d) (k + 1) s := by
  have hvalue : (Decimal.digit d).toNat - 48 = d := by
    rw [Decimal.toNat_digit hd]
    omega
  rw [parseIPv4Fields, if_pos (Decimal.isDigit_digit hd), if_neg hzero, hvalue]
  exact if_neg (by omega)

/-- A field, by its last digit. -/
theorem parseIPv4Fields_formatNat (fields : List UInt8) (s : Text) (n : Nat) (h : n ≤ 255) :
    ∃ k, 0 < k ∧ parseIPv4Fields fields 0 0 (Decimal.formatNat n ++ s) =
      parseIPv4Fields fields n k s := by
  induction n using Nat.strongRecOn generalizing s with
  | ind n ih =>
      by_cases hn : n < 10
      · refine ⟨1, by omega, ?_⟩
        rw [Decimal.formatNat_of_lt hn, List.singleton_append,
          parseIPv4Fields_digit hn (by omega) (by omega), Nat.zero_mul, Nat.zero_add]
      · obtain ⟨m, d, hd, hm, rfl⟩ : ∃ m d, d < 10 ∧ 0 < m ∧ n = d + 10 * m :=
          ⟨n / 10, n % 10, by omega, by omega, by omega⟩
        obtain ⟨k, hk, hfirst⟩ := ih m (by omega) (s := Decimal.digit d :: s) (by omega)
        refine ⟨k + 1, by omega, ?_⟩
        rw [Decimal.formatNat_append hm hd, List.append_assoc, List.singleton_append, hfirst,
          parseIPv4Fields_digit hd (by omega) (by omega)]
        congr 1
        omega

/-- A field and the dot after it. -/
theorem parseIPv4Fields_dot {b : UInt8} (hfields : fields.length < 3) (hs : s ≠ []) :
    parseIPv4Fields fields 0 0 (Decimal.formatNat b.toNat ++ dot :: s) =
      parseIPv4Fields (fields ++ [b]) 0 0 s := by
  have hlt := b.toNat_lt
  obtain ⟨k, hk, hfield⟩ := parseIPv4Fields_formatNat fields (dot :: s) b.toNat (by omega)
  have hdot : ¬ Decimal.isDigit dot = true := by decide
  have hmore : ¬ (k = 0 ∨ s = []) := by
    rintro (hzero | hnil)
    · omega
    · exact hs hnil
  rw [hfield, parseIPv4Fields, if_neg hdot, if_pos rfl, if_neg hmore, if_neg (by omega),
    UInt8.ofNat_toNat]

/-- The last field. -/
theorem parseIPv4Fields_last {b : UInt8} (hfields : fields.length = 3) :
    parseIPv4Fields fields 0 0 (Decimal.formatNat b.toNat) = some (fields ++ [b]) := by
  have hlt := b.toNat_lt
  obtain ⟨k, -, hfield⟩ := parseIPv4Fields_formatNat fields [] b.toNat (by omega)
  rw [List.append_nil] at hfield
  rw [hfield, parseIPv4Fields, if_neg (by omega), UInt8.ofNat_toNat]

end

section
variable (x : IPv4)

theorem parseIPv4Fields_text : parseIPv4Fields [] 0 0 x.text = some x.octets := by
  unfold IPv4.text
  rw [parseIPv4Fields_dot (by simp) (by simp), parseIPv4Fields_dot (by simp) (by simp),
    parseIPv4Fields_dot (by simp) (Decimal.formatNat_ne_nil _), parseIPv4Fields_last rfl]
  rfl

theorem mem_text {c : UInt8} (h : c ∈ x.text) : Decimal.isDigit c = true ∨ c = dot := by
  have hdigit {n : Nat} (hc : c ∈ Decimal.formatNat n) := Decimal.isDigit_of_mem_formatNat hc
  unfold IPv4.text at h
  simp only [List.mem_append, List.mem_cons] at h
  rcases h with h | rfl | h | rfl | h | rfl | h
  · exact Or.inl (hdigit h)
  · exact Or.inr rfl
  · exact Or.inl (hdigit h)
  · exact Or.inr rfl
  · exact Or.inl (hdigit h)
  · exact Or.inr rfl
  · exact Or.inl (hdigit h)

/-- The first byte that is no digit is a dot. -/
theorem parseAddr_text : parseAddr x.text = some ⟨x.octets, []⟩ := by
  have hfind : x.text.find? (fun c => decide (c = dot ∨ c = colon ∨ c = percent)) = some dot := by
    have hdigits : (Decimal.formatNat x.a.toNat).find?
        (fun c => decide (c = dot ∨ c = colon ∨ c = percent)) = none := by
      rw [List.find?_eq_none]
      intro c hc hsep
      have hdigit := Decimal.isDigit_of_mem_formatNat hc
      rcases of_decide_eq_true hsep with rfl | rfl | rfl
      · exact absurd hdigit (by decide)
      · exact absurd hdigit (by decide)
      · exact absurd hdigit (by decide)
    unfold IPv4.text
    rw [List.find?_append, hdigits]
    rfl
  unfold parseAddr
  rw [hfind]
  simp only [if_pos, parseIPv4Fields_text, Option.map_some]

theorem parseIP_text : parseIP x.text = some x.mapped := by
  unfold parseIP
  rw [parseAddr_text]
  rfl

theorem span_text (s : Text) :
    (x.text ++ slash :: s).span (fun c => decide (c ≠ slash)) = (x.text, slash :: s) := by
  have hne : ∀ c ∈ x.text, decide (c ≠ slash) = true := by
    intro c hc
    rw [decide_eq_true_eq]
    rintro rfl
    rcases mem_text x hc with hdigit | hdot
    · exact absurd hdigit (by decide)
    · exact absurd hdot (by decide)
  rw [List.span_eq_takeWhile_dropWhile, List.takeWhile_append_of_pos hne,
    List.dropWhile_append_of_pos hne]
  simp

theorem parseCIDR_text {n : Nat} (h : n ≤ 32) :
    parseCIDR (x.text ++ slash :: Decimal.formatNat n) =
      some (x.mapped, network ⟨x.octets, n⟩) := by
  have hbits : (Addr.mk x.octets []).bitLen = 32 := rfl
  have hmask : cidrMask n 32 = leading n 4 := if_neg (by omega)
  have hmasked := mask_mapped x (Octets.length_leading n 4)
  unfold parseCIDR
  rw [span_text]
  simp only [parseAddr_text, Decimal.parseNat_formatNat, Option.bind_eq_bind, Option.bind_some,
    hbits, hmask, if_neg (not_lt.mpr h), ne_eq, not_true_eq_false, if_false]
  exact congrArg (fun ip => some (x.mapped, IPNet.mk ip (leading n 4))) hmasked

end

end Net
