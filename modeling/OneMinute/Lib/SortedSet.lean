/-
  OneMinute.Lib.SortedSet

  Sorted sets: members with an integer score, each member at most once.

    * `zadd` / `zrem` / `score` — ZADD, ZREM, ZSCORE;
    * `due`                     — ZRANGEBYSCORE -inf max LIMIT 0 count;
    * `range`                   — the first members by (score, member).

  The order among equal scores is a parameter (`before`), since it is the
  order of the members' encodings.
-/

import Mathlib.Data.List.Sort
import Mathlib.Data.List.Nodup

/-- Members with their scores; no member occurs twice. -/
structure SortedSet (α : Type _) where
  entries : List (α × Int)
  nodup : (entries.map Prod.fst).Nodup

namespace SortedSet

variable {α : Type _}

/-- The empty set. -/
def empty : SortedSet α := ⟨[], List.nodup_nil⟩

/-- The rank order: by score, then by `before`. -/
abbrev RanksBefore (before : α → α → Bool) (e f : α × Int) : Prop :=
  e.2 < f.2 ∨ (e.2 = f.2 ∧ before e.1 f.1 = true)

/-- The entries in rank order. -/
def ranked (before : α → α → Bool) (z : SortedSet α) : List (α × Int) :=
  z.entries.insertionSort (RanksBefore before)

/-- ZRANGE 0 .. `count - 1` WITHSCORES. -/
def range (before : α → α → Bool) (z : SortedSet α) (count : Nat) : List (α × Int) :=
  (z.ranked before).take count

/-- ZRANGEBYSCORE -inf `max` LIMIT 0 `count`. -/
def due (before : α → α → Bool) (z : SortedSet α) (max : Int) (count : Nat) : List α :=
  (((z.ranked before).filter fun e => decide (e.2 ≤ max)).take count).map Prod.fst

variable [DecidableEq α]

/-- ZSCORE. -/
def score (z : SortedSet α) (x : α) : Option Int :=
  (z.entries.find? fun e => decide (e.1 = x)).map Prod.snd

/-- ZREM. -/
def zrem (z : SortedSet α) (x : α) : SortedSet α where
  entries := z.entries.filter fun e => decide (e.1 ≠ x)
  nodup := z.nodup.sublist (List.filter_sublist.map _)

/-- ZADD: set the member's score. -/
def zadd (z : SortedSet α) (x : α) (s : Int) : SortedSet α where
  entries := (x, s) :: (z.zrem x).entries
  nodup := by
    rw [List.map_cons, List.nodup_cons]
    refine ⟨?_, (z.zrem x).nodup⟩
    intro h
    obtain ⟨e, he, hx⟩ := List.mem_map.mp h
    exact absurd hx (of_decide_eq_true (List.mem_filter.mp he).2)

/-! ## Scores after an update -/

@[simp] theorem score_empty (x : α) : (empty : SortedSet α).score x = none := rfl

theorem score_zrem (z : SortedSet α) (x y : α) :
    (z.zrem x).score y = if y = x then none else z.score y := by
  unfold score zrem
  rw [List.find?_filter]
  split
  · next h =>
      subst h
      rw [Option.map_eq_none_iff, List.find?_eq_none]
      intro e _ he
      simp at he
  · next h =>
      congr 2
      funext e
      by_cases he : e.1 = y
      · simp [he, h]
      · simp [he]

theorem score_zadd (z : SortedSet α) (x : α) (s : Int) (y : α) :
    (z.zadd x s).score y = if y = x then some s else z.score y := by
  by_cases h : y = x
  · subst h
    simp [score, zadd]
  · have hx : ¬ x = y := fun e => h e.symm
    rw [if_neg h]
    calc (z.zadd x s).score y = (z.zrem x).score y := by simp [score, zadd, hx]
      _ = z.score y := by rw [score_zrem, if_neg h]

/-- A new member goes in front. -/
theorem entries_zadd_new {z : SortedSet α} {x : α} (s : Int) (h : ∀ e ∈ z.entries, e.1 ≠ x) :
    (z.zadd x s).entries = (x, s) :: z.entries := by
  have hkeep : z.entries.filter (fun e => decide (e.1 ≠ x)) = z.entries := by
    rw [List.filter_eq_self]
    intro e he
    simpa using h e he
  exact congrArg (List.cons (x, s)) hkeep

/-- A member is in the set exactly with its score. -/
theorem mem_entries_iff {z : SortedSet α} {x : α} {s : Int} :
    (x, s) ∈ z.entries ↔ z.score x = some s := by
  obtain ⟨es, hnd⟩ := z
  unfold score
  induction es with
  | nil => simp
  | cons e es ih =>
      rw [List.map_cons, List.nodup_cons] at hnd
      have ih := ih hnd.2
      simp only at ih ⊢
      rw [List.mem_cons, List.find?_cons]
      by_cases he : e.1 = x
      · have hnot : (x, s) ∉ es := fun h =>
          hnd.1 (List.mem_map.mpr ⟨(x, s), h, he.symm⟩)
        simp only [he, decide_true, Option.map_some, Option.some.injEq, hnot, or_false]
        constructor
        · rintro h
          rw [← h]
        · rintro h
          rw [← he, ← h]
      · have hne : ¬ (x, s) = e := fun h => he (by rw [← h])
        simp only [he, decide_false, hne, false_or]
        exact ih

/-! ## Ranges -/

omit [DecidableEq α] in
theorem mem_ranked {before : α → α → Bool} {z : SortedSet α} {e : α × Int} :
    e ∈ z.ranked before ↔ e ∈ z.entries :=
  List.mem_insertionSort _

/-- When the due members fit into one batch, each of them is in it. -/
theorem mem_due {before : α → α → Bool} {z : SortedSet α} {max s : Int} {count : Nat} {x : α}
    (hx : z.score x = some s) (hs : s ≤ max)
    (hcount : (z.entries.filter fun e => decide (e.2 ≤ max)).length ≤ count) :
    x ∈ z.due before max count := by
  have hperm : ((z.ranked before).filter fun e => decide (e.2 ≤ max)).length ≤ count := by
    have h := ((List.perm_insertionSort (RanksBefore before) z.entries).filter
      (fun e : α × Int => decide (e.2 ≤ max))).length_eq
    unfold ranked
    rw [h]
    exact hcount
  unfold due
  rw [List.take_of_length_le hperm]
  refine List.mem_map.mpr ⟨(x, s), List.mem_filter.mpr ⟨?_, by simpa using hs⟩, rfl⟩
  exact mem_ranked.mpr (mem_entries_iff.mpr hx)

/-! ## The front of a set -/

omit [DecidableEq α] in
/-- Insertion keeps a list in ascending order of scores. -/
theorem pairwise_orderedInsert {before : α → α → Bool} {l : List (α × Int)} (e : α × Int)
    (h : l.Pairwise fun e f => e.2 ≤ f.2) :
    (l.orderedInsert (RanksBefore before) e).Pairwise fun e f => e.2 ≤ f.2 := by
  induction l with
  | nil => exact List.pairwise_singleton _ _
  | cons a l ih =>
      obtain ⟨ha, hl⟩ := List.pairwise_cons.mp h
      rw [List.orderedInsert]
      split
      · next hea =>
          have hle : e.2 ≤ a.2 := hea.elim Int.le_of_lt fun h => Int.le_of_eq h.1
          refine List.pairwise_cons.mpr ⟨fun f hf => ?_, h⟩
          rcases List.mem_cons.mp hf with rfl | hf
          · exact hle
          · exact Int.le_trans hle (ha f hf)
      · next hea =>
          have hle : a.2 ≤ e.2 := by
            by_contra hlt
            exact hea (Or.inl (by omega))
          refine List.pairwise_cons.mpr ⟨fun f hf => ?_, ih hl⟩
          rcases (List.mem_orderedInsert _).mp hf with rfl | hf
          · exact hle
          · exact ha f hf

omit [DecidableEq α] in
theorem pairwise_ranked (before : α → α → Bool) (z : SortedSet α) :
    (z.ranked before).Pairwise fun e f => e.2 ≤ f.2 := by
  unfold ranked
  induction z.entries with
  | nil => exact List.Pairwise.nil
  | cons e l ih => exact pairwise_orderedInsert e ih

omit [DecidableEq α] in
/-- With so many entries below a score, the front holds no others. -/
theorem take_below {l : List (α × Int)} {s : Int} {count : Nat}
    (hsort : l.Pairwise fun e f => e.2 ≤ f.2)
    (hcount : count ≤ (l.filter fun e => decide (e.2 < s)).length) :
    ∀ e ∈ l.take count, e.2 < s := by
  induction l generalizing count with
  | nil => simp
  | cons a l ih =>
      obtain ⟨ha, hl⟩ := List.pairwise_cons.mp hsort
      by_cases hs : a.2 < s
      · rw [List.filter_cons_of_pos (by simpa using hs), List.length_cons] at hcount
        cases count with
        | zero => simp
        | succ count =>
            intro e he
            rcases List.mem_cons.mp he with rfl | he
            · exact hs
            · exact ih hl (Nat.le_of_succ_le_succ hcount) e he
      · -- the first is not below, so none is
        have hnone : (a :: l).filter (fun e => decide (e.2 < s)) = [] := by
          refine List.filter_eq_nil_iff.mpr fun e he => ?_
          rcases List.mem_cons.mp he with rfl | he
          · simpa using hs
          · have := ha e he
            simp only [decide_eq_true_eq]
            omega
        rw [hnone] at hcount
        rw [Nat.le_zero.mp hcount]
        simp

omit [DecidableEq α] in
theorem range_below {before : α → α → Bool} {z : SortedSet α} {s : Int} {count : Nat}
    (hcount : count ≤ (z.entries.filter fun e => decide (e.2 < s)).length) :
    ∀ e ∈ z.range before count, e.2 < s := by
  refine take_below (pairwise_ranked before z) ?_
  have h := ((List.perm_insertionSort (RanksBefore before) z.entries).filter
    (fun e : α × Int => decide (e.2 < s))).length_eq
  unfold ranked
  rw [h]
  exact hcount

omit [DecidableEq α] in
/-- What is in a range is in the set. -/
theorem mem_of_mem_range {before : α → α → Bool} {z : SortedSet α} {count : Nat} {e : α × Int}
    (he : e ∈ z.range before count) : e ∈ z.entries :=
  mem_ranked.mp (List.mem_of_mem_take he)

end SortedSet
