/-
  OneMinute.Lib.Selection

  The first element of a stably sorted list that has a property.

  It is the least one with the property, and of those that the order does not
  tell apart the one that stood first in the unsorted list
  (`find?_insertionSort`): so a search in the sorted list selects by the order
  and then by position.
-/

import Mathlib.Data.List.Sort

namespace Selection

variable {α : Type _}

/-- `a` is the first of the least elements of `l` with `P`, for an order `le` in
    which several may be equal. -/
def IsFirst (le : α → α → Prop) (P : α → Bool) (l : List α) (a : α) : Prop :=
  ∃ pre post, l = pre ++ a :: post ∧ P a = true ∧ (∀ x ∈ pre, P x = true → ¬ le x a) ∧
    ∀ x ∈ post, P x = true → le a x

variable {le : α → α → Prop} [DecidableRel le] {P : α → Bool} {l : List α} {a b : α}

theorem find?_orderedInsert_of_not (ha : ¬ P a = true) :
    (l.orderedInsert le a).find? P = l.find? P := by
  induction l with
  | nil => simp [ha]
  | cons x l ih =>
      rw [List.orderedInsert_cons]
      split
      · exact List.find?_cons_of_neg ha
      · rw [List.find?_cons, List.find?_cons, ih]

theorem find?_orderedInsert_of_none (ha : P a = true) (h : l.find? P = none) :
    (l.orderedInsert le a).find? P = some a := by
  induction l with
  | nil => exact List.find?_cons_of_pos ha
  | cons x l ih =>
      rw [List.orderedInsert_cons]
      split
      · exact List.find?_cons_of_pos ha
      · obtain ⟨hx, hl⟩ := List.forall_mem_cons.mp (List.find?_eq_none.mp h)
        rw [List.find?_cons_of_neg hx]
        exact ih (List.find?_eq_none.mpr hl)

/-- An element goes before the one found if it may. -/
theorem find?_orderedInsert_of_some [IsTrans α le] (hsorted : l.Pairwise le) (ha : P a = true)
    (h : l.find? P = some b) :
    (l.orderedInsert le a).find? P = if le a b then some a else some b := by
  induction l with
  | nil => cases h
  | cons x l ih =>
      obtain ⟨hx, hl⟩ := List.pairwise_cons.mp hsorted
      rw [List.orderedInsert_cons]
      by_cases hP : P x = true
      · rw [List.find?_cons_of_pos hP] at h
        obtain rfl := Option.some.inj h
        split
        · exact List.find?_cons_of_pos ha
        · exact List.find?_cons_of_pos hP
      · rw [List.find?_cons_of_neg hP] at h
        by_cases hax : le a x
        · -- `x` is before the one found, so `a` is
          rw [if_pos hax, List.find?_cons_of_pos ha,
            if_pos (IsTrans.trans _ _ _ hax (hx b (List.mem_of_find?_eq_some h)))]
        · rw [if_neg hax, List.find?_cons_of_neg hP]
          exact ih hl h

/-- Searching the sorted list selects. -/
theorem find?_insertionSort [Std.Total le] [IsTrans α le]
    (h : (l.insertionSort le).find? P = some a) : IsFirst le P l a := by
  induction l generalizing a with
  | nil => cases h
  | cons x l ih =>
      have hsorted : (l.insertionSort le).Pairwise le := List.pairwise_insertionSort le l
      rw [List.insertionSort_cons] at h
      by_cases hx : P x = true
      · cases hfind : (l.insertionSort le).find? P with
        | none =>
            rw [find?_orderedInsert_of_none hx hfind] at h
            obtain rfl := Option.some.inj h
            refine ⟨[], l, rfl, hx, fun y hy => absurd hy List.not_mem_nil, fun y hy hP => ?_⟩
            have hy := (List.mem_insertionSort le).mpr hy
            exact absurd hP (List.find?_eq_none.mp hfind y hy)
        | some b =>
            rw [find?_orderedInsert_of_some hsorted hx hfind] at h
            obtain ⟨pre, post, rfl, hb, hpre, hpost⟩ := ih hfind
            split at h
            · next hle =>
                obtain rfl := Option.some.inj h
                refine ⟨[], _, rfl, hx, fun y hy => absurd hy List.not_mem_nil, fun y hy hP => ?_⟩
                rcases List.mem_append.mp hy with hy | hy
                · exact IsTrans.trans _ _ _ hle ((Std.Total.total b y).resolve_right (hpre y hy hP))
                · rcases List.mem_cons.mp hy with rfl | hy
                  · exact hle
                  · exact IsTrans.trans _ _ _ hle (hpost y hy hP)
            · next hle =>
                obtain rfl := Option.some.inj h
                exact ⟨x :: pre, post, rfl, hb,
                  List.forall_mem_cons.mpr ⟨fun _ => hle, hpre⟩, hpost⟩
      · rw [find?_orderedInsert_of_not hx] at h
        obtain ⟨pre, post, rfl, ha, hpre, hpost⟩ := ih h
        exact ⟨x :: pre, post, rfl, ha,
          List.forall_mem_cons.mpr ⟨fun hP => absurd hP hx, hpre⟩, hpost⟩

end Selection
