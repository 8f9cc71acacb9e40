/-
  OneMinute.Lib.Lexicographic

  Encodings that keep the lexicographic order.

  A code whose words have one length and stand in the order of what they encode
  keeps the order of lists, word by word (`flatMap_lt_iff`).  A separator that
  stands at the same place in both lists does not matter (`separate_lt_iff`).
-/

import Mathlib.Data.List.Lex
import Mathlib.Order.Lattice

namespace Lexicographic

variable {α β : Type _} [LinearOrder α] [LinearOrder β]

/-- Two lists are compared by their first parts, if these have one length. -/
theorem append_lt_append_iff {p q s t : List α} (h : p.length = q.length) :
    p ++ s < q ++ t ↔ p < q ∨ p = q ∧ s < t := by
  induction p generalizing q with
  | nil =>
      obtain rfl := List.length_eq_zero_iff.mp h.symm
      simp
  | cons a p ih =>
      cases q with
      | nil => cases h
      | cons b q =>
          have hlen : p.length = q.length := Nat.succ.inj h
          rw [List.cons_append, List.cons_append, List.cons_lt_cons_iff, List.cons_lt_cons_iff,
            ih hlen, List.cons.injEq]
          constructor
          · rintro (hab | ⟨hab, hpq | ⟨hpq, hst⟩⟩)
            · exact Or.inl (Or.inl hab)
            · exact Or.inl (Or.inr ⟨hab, hpq⟩)
            · exact Or.inr ⟨⟨hab, hpq⟩, hst⟩
          · rintro ((hab | ⟨hab, hpq⟩) | ⟨⟨hab, hpq⟩, hst⟩)
            · exact Or.inl hab
            · exact Or.inr ⟨hab, Or.inl hpq⟩
            · exact Or.inr ⟨hab, Or.inr ⟨hpq, hst⟩⟩

/-- A separator at the same place in both lists. -/
theorem separate_lt_iff {p q s t : List α} {c : α} (h : p.length = q.length) :
    p ++ c :: s < q ++ c :: t ↔ p < q ∨ p = q ∧ s < t := by
  rw [append_lt_append_iff h, List.cons_lt_cons_iff]
  simp

variable {code : α → List β}

/-- Values that are in one order are equal together. -/
theorem eq_iff_of_lt_iff {a b : α} {x y : β} (h : x < y ↔ a < b) (h' : y < x ↔ b < a) :
    x = y ↔ a = b := by
  rw [le_antisymm_iff, le_antisymm_iff, ← not_lt, ← not_lt, ← not_lt, ← not_lt, h, h']

theorem length_flatMap {α β : Type _} {code : α → List β}
    (hlength : ∀ a b, (code a).length = (code b).length) {l l' : List α}
    (h : l.length = l'.length) : (l.flatMap code).length = (l'.flatMap code).length := by
  induction l generalizing l' with
  | nil =>
      obtain rfl := List.length_eq_zero_iff.mp h.symm
      rfl
  | cons a l ih =>
      cases l' with
      | nil => cases h
      | cons b l' =>
          rw [List.flatMap_cons, List.flatMap_cons, List.length_append, List.length_append,
            hlength a b, ih (Nat.succ.inj h)]

/-- Lists of one length are in the order of their encodings. -/
theorem flatMap_lt_iff (hlength : ∀ a b, (code a).length = (code b).length)
    (hcode : ∀ a b, code a < code b ↔ a < b) {l l' : List α} (h : l.length = l'.length) :
    l.flatMap code < l'.flatMap code ↔ l < l' := by
  induction l generalizing l' with
  | nil =>
      obtain rfl := List.length_eq_zero_iff.mp h.symm
      simp
  | cons a l ih =>
      cases l' with
      | nil => cases h
      | cons b l' =>
          rw [List.flatMap_cons, List.flatMap_cons, append_lt_append_iff (hlength a b), hcode,
            eq_iff_of_lt_iff (hcode a b) (hcode b a), ih (Nat.succ.inj h),
            List.cons_lt_cons_iff]

end Lexicographic
