/-
  OneMinute.Lib.Decimal

  Integers in decimal, as texts of bytes: what is printed is read back
  (`parseNat_formatNat`, `parseInt_formatInt`).  Reading is bounded, as an
  integer of 64 bits is; printing is not.
-/

import Mathlib.Data.Nat.Digits.Lemmas

namespace Decimal

/-! ## Natural numbers -/

def digit (d : Nat) : UInt8 := UInt8.ofNat (48 + d)

def isDigit (c : UInt8) : Bool := decide (48 ≤ c.toNat) && decide (c.toNat ≤ 57)

/-- The digits from the last one on. -/
def digitsOf (n : Nat) : List Nat := if n = 0 then [0] else Nat.digits 10 n

def formatNat (n : Nat) : List UInt8 := (digitsOf n).reverse.map digit

/-- At least one digit, and nothing else. -/
def parseNat (s : List UInt8) : Option Nat :=
  if s ≠ [] ∧ s.all isDigit then
    some (Nat.ofDigits 10 (s.map fun c => c.toNat - 48).reverse)
  else none

theorem digitsOf_lt {n d : Nat} (h : d ∈ digitsOf n) : d < 10 := by
  unfold digitsOf at h
  split at h
  · rw [List.mem_singleton] at h
    omega
  · exact Nat.digits_lt_base (by omega) h

theorem ofDigits_digitsOf (n : Nat) : Nat.ofDigits 10 (digitsOf n) = n := by
  unfold digitsOf
  split
  · next h => rw [h]; rfl
  · exact Nat.ofDigits_digits 10 n

theorem digitsOf_ne_nil (n : Nat) : digitsOf n ≠ [] := by
  unfold digitsOf
  split
  · simp
  · next h => exact Nat.digits_ne_nil_iff_ne_zero.mpr h

theorem toNat_digit {d : Nat} (h : d < 10) : (digit d).toNat = 48 + d := by
  unfold digit
  rw [UInt8.toNat_ofNat']
  omega

theorem isDigit_digit {d : Nat} (h : d < 10) : isDigit (digit d) = true := by
  unfold isDigit
  rw [toNat_digit h, Bool.and_eq_true, decide_eq_true_eq, decide_eq_true_eq]
  omega

/-- A printed number consists of digits. -/
theorem isDigit_of_mem_formatNat {n : Nat} {c : UInt8} (h : c ∈ formatNat n) :
    isDigit c = true := by
  obtain ⟨d, hd, rfl⟩ := List.mem_map.mp h
  exact isDigit_digit (digitsOf_lt (List.mem_reverse.mp hd))

theorem formatNat_ne_nil (n : Nat) : formatNat n ≠ [] := by
  unfold formatNat
  simpa using digitsOf_ne_nil n

@[simp] theorem parseNat_formatNat (n : Nat) : parseNat (formatNat n) = some n := by
  have hback : (formatNat n).map (fun c => c.toNat - 48) = (digitsOf n).reverse := by
    unfold formatNat
    rw [List.map_map]
    conv_rhs => rw [← List.map_id (digitsOf n).reverse]
    refine List.map_congr_left fun d hd => ?_
    have hlt := digitsOf_lt (List.mem_reverse.mp hd)
    show (digit d).toNat - 48 = d
    rw [toNat_digit hlt]
    omega
  unfold parseNat
  rw [if_pos ⟨formatNat_ne_nil n, List.all_eq_true.mpr fun c => isDigit_of_mem_formatNat⟩, hback,
    List.reverse_reverse, ofDigits_digitsOf]

/-- A number of one digit. -/
theorem formatNat_of_lt {d : Nat} (h : d < 10) : formatNat d = [digit d] := by
  unfold formatNat digitsOf
  split
  · next hzero =>
      subst hzero
      rfl
  · next hpos =>
      rw [Nat.digits_of_lt 10 d hpos h]
      rfl

theorem formatNat_append {n d : Nat} (hn : 0 < n) (hd : d < 10) :
    formatNat (d + 10 * n) = formatNat n ++ [digit d] := by
  have hdigits : Nat.digits 10 (d + 10 * n) = d :: Nat.digits 10 n :=
    Nat.digits_add 10 (by decide) d n hd (Or.inr hn.ne')
  unfold formatNat digitsOf
  rw [if_neg (by omega), if_neg (by omega), hdigits, List.reverse_cons, List.map_append]
  rfl

def IsInt64 (n : Int) : Prop := -0x8000000000000000 ≤ n ∧ n < 0x8000000000000000

instance (n : Int) : Decidable (IsInt64 n) := inferInstanceAs (Decidable (_ ∧ _))

def minus : UInt8 := 45

def plus : UInt8 := 43

def formatInt (n : Int) : List UInt8 :=
  if n < 0 then minus :: formatNat n.natAbs else formatNat n.natAbs

/-- A number in the range. -/
def checked (n : Int) : Option Int := if IsInt64 n then some n else none

/-- An optional sign and digits. -/
def parseInt (s : List UInt8) : Option Int :=
  if s.head? = some minus then (parseNat s.tail).bind fun n => checked (-n)
  else if s.head? = some plus then (parseNat s.tail).bind fun n => checked n
  else (parseNat s).bind fun n => checked n

/-- A printed natural number has no sign. -/
theorem head?_formatNat_ne {n : Nat} {c : UInt8} (hc : isDigit c = false) :
    (formatNat n).head? ≠ some c := by
  intro h
  have hmem : c ∈ formatNat n := List.mem_of_head? h
  rw [isDigit_of_mem_formatNat hmem] at hc
  cases hc

/-- An optional sign and digits, whatever the size. -/
def signed (s : List UInt8) : Option Int :=
  if s.head? = some minus then (parseNat s.tail).map fun (k : Nat) => -(k : Int)
  else if s.head? = some plus then (parseNat s.tail).map Int.ofNat
  else (parseNat s).map Int.ofNat

/-- `ParseInt` without its error: 0 for what is no number, and the nearest bound
    for a number beyond the range. -/
def clamped (s : List UInt8) : Int :=
  match signed s with
  | none => 0
  | some n => max (-0x8000000000000000) (min n 0x7fffffffffffffff)

@[simp] theorem signed_formatInt (n : Int) : signed (formatInt n) = some n := by
  unfold formatInt signed
  by_cases hn : n < 0
  · rw [if_pos hn, List.head?_cons, if_pos rfl, List.tail_cons, parseNat_formatNat,
      Option.map_some, show -(n.natAbs : Int) = n by omega]
  · rw [if_neg hn, if_neg (head?_formatNat_ne rfl), if_neg (head?_formatNat_ne rfl),
      parseNat_formatNat, Option.map_some, Int.ofNat_eq_natCast,
      show (n.natAbs : Int) = n by omega]

theorem clamped_formatInt {n : Int} (h : IsInt64 n) : clamped (formatInt n) = n := by
  have hrange := h
  unfold IsInt64 at hrange
  unfold clamped
  rw [signed_formatInt]
  show max _ (min n _) = n
  omega

theorem mem_formatInt {n : Int} {c : UInt8} (h : c ∈ formatInt n) :
    isDigit c = true ∨ c = minus := by
  unfold formatInt at h
  split at h
  · exact (List.mem_cons.mp h).symm.imp_left isDigit_of_mem_formatNat
  · exact Or.inl (isDigit_of_mem_formatNat h)

end Decimal
