/-
  OneMinute.Lib.Octets

  Strings of octets as numbers, and the ranges that a prefix of their bits names.

  A mask of leading ones is built and applied octet by octet.  Two strings agree
  under it exactly if their numbers do without the other bits
  (`agree_leading_iff`), wherever in an octet the mask ends.
-/

import Mathlib.Data.Nat.Digits.Lemmas

namespace Octets

/-! ## Numbers -/

/-- The first octet is the most significant one. -/
def number (l : List UInt8) : Nat := Nat.ofDigits 256 (l.map UInt8.toNat).reverse

@[simp] theorem number_nil : number [] = 0 := rfl

theorem number_cons (b : UInt8) (l : List UInt8) :
    number (b :: l) = number l + 256 ^ l.length * b.toNat := by
  unfold number
  rw [List.map_cons, List.reverse_cons, Nat.ofDigits_append, Nat.ofDigits_singleton,
    List.length_reverse, List.length_map]

theorem number_lt (l : List UInt8) : number l < 256 ^ l.length := by
  have hdigits : ∀ d ∈ (l.map UInt8.toNat).reverse, d < 256 := by
    intro d hd
    obtain ⟨b, _, rfl⟩ := List.mem_map.mp (List.mem_reverse.mp hd)
    exact b.toNat_lt
  have hlt := Nat.ofDigits_lt_base_pow_length (by decide) hdigits
  rwa [List.length_reverse, List.length_map] at hlt

/-! ## Masks -/

/-- The leading `n` bits of an octet. -/
def leadingOctet (n : Nat) : UInt8 := ~~~UInt8.ofNat (0xff >>> n)

/-- The leading `n` bits of as many octets. -/
def leading (n : Nat) : Nat → List UInt8
  | 0 => []
  | size + 1 =>
    if 8 ≤ n then 0xff :: leading (n - 8) size else leadingOctet n :: leading 0 size

/-- Whether two strings are the same under a mask. -/
def agree : List UInt8 → List UInt8 → List UInt8 → Bool
  | m :: mask, a :: l, b :: l' => decide (a &&& m = b &&& m) && agree mask l l'
  | _, _, _ => true

@[simp] theorem length_leading (n size : Nat) : (leading n size).length = size := by
  induction size generalizing n with
  | zero => rfl
  | succ size ih =>
      unfold leading
      split
      · rw [List.length_cons, ih]
      · rw [List.length_cons, ih]

/-- A word under its leading bits. -/
theorem toNat_and_leading {w n : Nat} (h : n ≤ w) (x : BitVec w) :
    (x &&& ~~~(BitVec.allOnes w >>> n)).toNat = x.toNat / 2 ^ (w - n) * 2 ^ (w - n) := by
  apply Nat.eq_of_testBit_eq
  intro i
  rw [BitVec.testBit_toNat, Nat.testBit_mul_two_pow, Nat.testBit_div_two_pow]
  simp only [BitVec.getLsbD_and, BitVec.getLsbD_not, BitVec.getLsbD_ushiftRight,
    BitVec.getLsbD_allOnes, BitVec.testBit_toNat]
  by_cases hi : w - n ≤ i
  · rw [Nat.sub_add_cancel hi]
    by_cases hw : i < w
    · have hout : ¬ n + i < w := by omega
      simp [hw, hi, hout]
    · simp [hw, BitVec.getLsbD_of_ge x i (by omega)]
  · have hin : n + i < w := by omega
    simp [hi, hin]

/-- Two octets agree in their leading bits if their numbers do. -/
theorem and_leadingOctet_iff {n : Nat} (h : n ≤ 8) (a b : UInt8) :
    a &&& leadingOctet n = b &&& leadingOctet n ↔
      a.toNat / 2 ^ (8 - n) = b.toNat / 2 ^ (8 - n) := by
  have hones : BitVec.ofNat 8 (0xff >>> n) = BitVec.allOnes 8 >>> n := by
    apply BitVec.eq_of_toNat_eq
    have hle : 0xff >>> n ≤ 0xff := Nat.shiftRight_le 0xff n
    rw [BitVec.toNat_ofNat, BitVec.toNat_ushiftRight, Nat.mod_eq_of_lt (by omega)]
    rfl
  have hmask : (leadingOctet n).toBitVec = ~~~(BitVec.allOnes 8 >>> n) := by
    unfold leadingOctet
    rw [UInt8.toBitVec_not, UInt8.toBitVec_ofNat', hones]
  have hand (c : UInt8) :
      (c &&& leadingOctet n).toNat = c.toNat / 2 ^ (8 - n) * 2 ^ (8 - n) := by
    have hbits := toNat_and_leading h c.toBitVec
    rwa [← hmask] at hbits
  rw [← UInt8.toNat_inj, hand, hand]
  exact Nat.mul_left_inj (by positivity)

theorem and_full_iff (a b : UInt8) : a &&& 0xff = b &&& 0xff ↔ a.toNat = b.toNat := by
  have hfull : leadingOctet 8 = 0xff := by decide
  have hbits := and_leadingOctet_iff (le_refl 8) a b
  rwa [hfull, Nat.sub_self, pow_zero, Nat.div_one, Nat.div_one] at hbits

/-! ## Agreement -/

theorem add_mul_div {m k a s : Nat} (h : k ≤ m) :
    (s + 2 ^ m * a) / 2 ^ k = s / 2 ^ k + 2 ^ (m - k) * a := by
  have hpow : 2 ^ m = 2 ^ k * 2 ^ (m - k) := by rw [← pow_add, Nat.add_sub_cancel' h]
  rw [hpow, mul_assoc, Nat.add_mul_div_left _ _ (Nat.two_pow_pos k)]

theorem add_mul_inj {r a b s t : Nat} (hs : s < r) (ht : t < r) :
    s + r * a = t + r * b ↔ a = b ∧ s = t := by
  have hpos : 0 < r := by omega
  constructor
  · intro h
    have hdiv := congrArg (· / r) h
    simp only [Nat.add_mul_div_left _ _ hpos, Nat.div_eq_of_lt hs, Nat.div_eq_of_lt ht,
      Nat.zero_add] at hdiv
    subst hdiv
    exact ⟨rfl, Nat.add_right_cancel h⟩
  · rintro ⟨rfl, rfl⟩
    rfl

theorem number_lt_two_pow {l : List UInt8} {size : Nat} (h : l.length = size) :
    number l < 2 ^ (8 * size) := by
  rw [pow_mul, ← h]
  exact number_lt l

theorem number_div_lt {l : List UInt8} {k size : Nat} (h : l.length = size) (hk : k ≤ 8 * size) :
    number l / 2 ^ k < 2 ^ (8 * size - k) := by
  apply Nat.div_lt_of_lt_mul
  rw [← pow_add, Nat.add_sub_cancel' hk]
  exact number_lt_two_pow h

/-- The numbers agree in their leading `n` bits. -/
theorem agree_leading_iff {n size : Nat} {l l' : List UInt8} (h : l.length = size)
    (h' : l'.length = size) :
    agree (leading n size) l l' = true ↔
      number l / 2 ^ (8 * size - n) = number l' / 2 ^ (8 * size - n) := by
  induction size generalizing n l l' with
  | zero =>
      rw [List.length_eq_zero_iff.mp h, List.length_eq_zero_iff.mp h']
      simp [agree]
  | succ size ih =>
      obtain ⟨a, t, rfl⟩ := List.exists_cons_of_length_eq_add_one h
      obtain ⟨b, t', rfl⟩ := List.exists_cons_of_length_eq_add_one h'
      rw [List.length_cons, Nat.add_right_cancel_iff] at h h'
      have hpow : 256 ^ size = 2 ^ (8 * size) := by rw [pow_mul]; rfl
      rw [number_cons, number_cons, h, h', hpow]
      unfold leading
      split
      · next hall =>
          -- the first octet counts as a whole
          have hrest : 8 * size - (n - 8) = 8 * (size + 1) - n := by omega
          have hle : 8 * (size + 1) - n ≤ 8 * size := by omega
          rw [agree, Bool.and_eq_true, decide_eq_true_eq, and_full_iff, ih h h', hrest,
            add_mul_div hle, add_mul_div hle,
            add_mul_inj (number_div_lt h hle) (number_div_lt h' hle)]
      · next hpart =>
          -- the octets after the first do not count
          have hfree : 8 * (size + 1) - n = 8 * size + (8 - n) := by omega
          have hlow := number_lt_two_pow h
          have hlow' := number_lt_two_pow h'
          have hpos := Nat.two_pow_pos (8 * size)
          rw [agree, Bool.and_eq_true, decide_eq_true_eq, and_leadingOctet_iff (by omega), ih h h',
            Nat.sub_zero, hfree, pow_add, ← Nat.div_div_eq_div_mul, ← Nat.div_div_eq_div_mul,
            Nat.add_mul_div_left _ _ hpos, Nat.add_mul_div_left _ _ hpos, Nat.div_eq_of_lt hlow,
            Nat.div_eq_of_lt hlow', Nat.zero_add, Nat.zero_add]
          exact and_iff_left rfl

/-! ## Prefixes -/

/-- The strings as long as `base` whose leading bits are those of `base`. -/
structure Prefix where
  base : List UInt8
  ones : Nat
deriving DecidableEq, Repr

/-- The bits after the prefix are shifted out. -/
instance : Membership (List UInt8) Prefix where
  mem p l :=
    l.length = p.base.length ∧
      number l / 2 ^ (8 * p.base.length - p.ones) = number p.base / 2 ^ (8 * p.base.length - p.ones)

instance (l : List UInt8) (p : Prefix) : Decidable (l ∈ p) := inferInstanceAs (Decidable (_ ∧ _))

def Prefix.mask (p : Prefix) : List UInt8 := leading p.ones p.base.length

theorem mem_iff_agree {l : List UInt8} {p : Prefix} :
    l ∈ p ↔ l.length = p.base.length ∧ agree p.mask p.base l = true := by
  constructor
  · rintro ⟨hlength, hnumber⟩
    exact ⟨hlength, (agree_leading_iff rfl hlength).mpr hnumber.symm⟩
  · rintro ⟨hlength, hagree⟩
    exact ⟨hlength, ((agree_leading_iff rfl hlength).mp hagree).symm⟩

/-- A range in a range: a longer prefix of the same bits. -/
def Prefix.Within (p q : Prefix) : Prop := q.ones ≤ p.ones ∧ p.base ∈ q

instance (p q : Prefix) : Decidable (p.Within q) := inferInstanceAs (Decidable (_ ∧ _))

theorem mem_of_within {l : List UInt8} {p q : Prefix} (h : p.Within q) (hl : l ∈ p) : l ∈ q := by
  obtain ⟨hones, hbase, hnumber⟩ := h
  obtain ⟨hlength, hagree⟩ := hl
  refine ⟨hlength.trans hbase, ?_⟩
  rw [hbase] at hagree
  obtain ⟨k, hk⟩ := Nat.exists_eq_add_of_le (Nat.sub_le_sub_left hones (8 * q.base.length))
  rw [← hnumber, hk, pow_add, ← Nat.div_div_eq_div_mul, ← Nat.div_div_eq_div_mul, hagree]

/-- Ranges out of a list that cover the whole list. -/
theorem avoids_iff {l : List UInt8} {whole parts : List Prefix}
    (hparts : ∀ p ∈ whole, p ∈ parts)
    (hcover : ∀ p ∈ parts, p.base.length = l.length → ∃ q ∈ whole, p.Within q) :
    (∀ p ∈ whole, l ∉ p) ↔ ∀ p ∈ parts, l ∉ p := by
  constructor
  · intro h p hp hl
    obtain ⟨q, hq, hwithin⟩ := hcover p hp hl.1.symm
    exact h q hq (mem_of_within hwithin hl)
  · intro h p hp
    exact h p (hparts p hp)

variable {a b : UInt8} {l base : List UInt8} {n : Nat}

theorem mem_zero : l ∈ (⟨base, 0⟩ : Prefix) ↔ l.length = base.length := by
  constructor
  · rintro ⟨hlength, -⟩
    exact hlength
  · intro h
    refine ⟨h, ?_⟩
    rw [Nat.sub_zero, Nat.div_eq_of_lt (number_lt_two_pow h),
      Nat.div_eq_of_lt (number_lt_two_pow rfl)]

theorem cons_mem_of_le (h : 8 ≤ n) :
    a :: l ∈ (⟨b :: base, n⟩ : Prefix) ↔ a = b ∧ l ∈ (⟨base, n - 8⟩ : Prefix) := by
  rw [mem_iff_agree, mem_iff_agree]
  simp only [Prefix.mask, List.length_cons, Nat.add_right_cancel_iff, leading, if_pos h, agree,
    Bool.and_eq_true, decide_eq_true_eq, and_full_iff, UInt8.toNat_inj]
  tauto

theorem cons_mem_of_lt (h : n < 8) :
    a :: l ∈ (⟨b :: base, n⟩ : Prefix) ↔
      a &&& leadingOctet n = b &&& leadingOctet n ∧ l.length = base.length := by
  have hrest : l.length = base.length → agree (leading 0 base.length) base l = true := by
    intro hlength
    exact (mem_iff_agree.mp (mem_zero.mpr hlength)).2
  rw [mem_iff_agree]
  simp only [Prefix.mask, List.length_cons, Nat.add_right_cancel_iff, leading,
    if_neg (not_le.mpr h), agree, Bool.and_eq_true, decide_eq_true_eq]
  constructor
  · rintro ⟨hlength, hfirst, -⟩
    exact ⟨hfirst.symm, hlength⟩
  · rintro ⟨hfirst, hlength⟩
    exact ⟨hlength, hfirst.symm, hrest hlength⟩

theorem mem_full : l ∈ (⟨base, 8 * base.length⟩ : Prefix) ↔ l = base := by
  induction base generalizing l with
  | nil =>
      rw [List.length_nil, Nat.mul_zero, mem_zero]
      exact List.length_eq_zero_iff
  | cons b base ih =>
      cases l with
      | nil =>
          constructor
          · rintro ⟨hlength, -⟩
            cases hlength
          · intro h
            cases h
      | cons a l =>
          have hrest : 8 * (b :: base).length - 8 = 8 * base.length := by
            rw [List.length_cons]
            omega
          rw [cons_mem_of_le (by rw [List.length_cons]; omega), hrest, ih, List.cons.injEq]

end Octets
