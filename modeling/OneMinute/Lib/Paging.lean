/-
  OneMinute.Lib.Paging

  Keyset paging.  A page has the items with the largest keys below a bound, in
  descending order; the next page is asked for below the last key of the one
  before.  The pages of a collection that meanwhile grows at the top only are
  together what stood below the first bound (`Lists.of_short`, `Lists.next`).
-/

import Mathlib.Data.List.Sort

namespace Paging

variable {α : Type _} (key : α → Nat)

/-- The key is below the bound, if there is one. -/
def Below (bound : Option Nat) (a : α) : Prop := ∀ n ∈ bound, key a < n

instance (bound : Option Nat) (a : α) : Decidable (Below key bound a) :=
  inferInstanceAs (Decidable (∀ n ∈ bound, key a < n))

/-- The items below the bound in descending order, of which a page shows the
    first ones. -/
def descending (l : List α) (bound : Option Nat) : List α :=
  (l.filter fun a => decide (Below key bound a)).insertionSort fun a b => key b ≤ key a

def page (size : Nat) (l : List α) (bound : Option Nat) : List α :=
  (descending key l bound).take size

/-- `items` are the items of `l` below the bound, each once, in descending
    order. -/
structure Lists (l : List α) (bound : Option Nat) (items : List α) : Prop where
  sorted : items.Pairwise fun a b => key b < key a
  mem : ∀ a, a ∈ items ↔ a ∈ l ∧ Below key bound a

/-- The collection `l` became `l'`: items stay, and what is new is above them. -/
structure Tops (l l' : List α) : Prop where
  kept : ∀ a ∈ l, a ∈ l'
  above : ∀ a ∈ l', a ∉ l → ∀ b ∈ l, key b < key a

variable {key} {l l' : List α} {bound : Option Nat}

theorem lists_descending (hkeys : (l.map key).Nodup) :
    Lists key l bound (descending key l bound) where
  sorted := by
    -- sorting gives ≤, the distinct keys make it <
    have hle : (descending key l bound).Pairwise fun a b => key b ≤ key a := by
      have : Std.Total fun a b : α => key b ≤ key a := ⟨fun a b => Nat.le_total (key b) (key a)⟩
      have : IsTrans α fun a b => key b ≤ key a := ⟨fun a b c hab hbc => Nat.le_trans hbc hab⟩
      exact List.pairwise_insertionSort _ _
    have hne : (descending key l bound).Pairwise fun a b => key a ≠ key b := by
      have hperm := List.perm_insertionSort (fun a b => key b ≤ key a)
        (l.filter fun a => decide (Below key bound a))
      have hnodup : ((descending key l bound).map key).Nodup :=
        (hperm.map key).nodup_iff.mpr (hkeys.sublist (List.filter_sublist.map key))
      exact List.pairwise_map.mp hnodup
    exact (hle.and hne).imp fun h => Nat.lt_of_le_of_ne h.1 (Ne.symm h.2)
  mem := by
    intro a
    rw [descending, List.mem_insertionSort, List.mem_filter, decide_eq_true_eq]

theorem page_sorted {size : Nat} (hkeys : (l.map key).Nodup) :
    (page key size l bound).Pairwise fun a b => key b < key a :=
  (lists_descending hkeys).sorted.sublist (List.take_sublist size _)

theorem mem_of_mem_page {size : Nat} {a : α} (hkeys : (l.map key).Nodup)
    (h : a ∈ page key size l bound) : a ∈ l ∧ Below key bound a :=
  ((lists_descending hkeys).mem a).mp (List.mem_of_mem_take h)

/-- A page that is not empty ends with its smallest key. -/
theorem exists_least {size : Nat} (hkeys : (l.map key).Nodup)
    (hne : page key size l bound ≠ []) :
    ∃ a ∈ page key size l bound, ∀ b ∈ page key size l bound, key a ≤ key b := by
  refine ⟨_, List.getLast_mem hne, fun b hb => ?_⟩
  have hsorted : (page key size l bound).Pairwise _ := page_sorted hkeys
  rw [← List.dropLast_append_getLast hne] at hb hsorted
  rcases List.mem_append.mp hb with hb | hb
  · exact Nat.le_of_lt
      ((List.pairwise_append.mp hsorted).2.2 b hb _ (List.mem_singleton_self _))
  · rw [List.mem_singleton.mp hb]

/-- Below an item there is less than below the bound that it met. -/
theorem descending_length_lt {a : α} (ha : a ∈ l) (hbound : Below key bound a) :
    (descending key l (some (key a))).length < (descending key l bound).length := by
  unfold descending
  rw [List.length_insertionSort, List.length_insertionSort]
  have hfilter : (l.filter fun b => decide (Below key (some (key a)) b)) =
      (l.filter fun b => decide (Below key bound b)).filter
        fun b => decide (Below key (some (key a)) b) := by
    rw [List.filter_filter]
    refine List.filter_congr fun b _ => ?_
    rw [← Bool.decide_and, decide_eq_decide]
    refine ⟨fun h => ⟨h, fun n hn => Nat.lt_trans (h _ rfl) (hbound n hn)⟩, fun h => h.1⟩
  rw [hfilter]
  refine List.length_filter_lt_length_iff_exists.mpr
    ⟨a, List.mem_filter.mpr ⟨ha, decide_eq_true hbound⟩, ?_⟩
  rw [decide_eq_true_eq]
  exact fun h => Nat.lt_irrefl _ (h _ rfl)

/-- A page that is not full is all there is. -/
theorem Lists.of_short {size : Nat} (hkeys : (l.map key).Nodup)
    (h : (page key size l bound).length < size) : Lists key l bound (page key size l bound) := by
  have hall : page key size l bound = descending key l bound := by
    refine List.take_of_length_le ?_
    rw [page, List.length_take] at h
    omega
  rw [hall]
  exact lists_descending hkeys

/-- What a page leaves out is below all that it shows. -/
theorem mem_page_or_below {size : Nat} (hkeys : (l.map key).Nodup) {a b : α}
    (hlast : a ∈ page key size l bound) (hb : b ∈ l) (hbound : Below key bound b) :
    b ∈ page key size l bound ∨ key b < key a := by
  have hlists : Lists key l bound _ := lists_descending hkeys
  have hmem : b ∈ descending key l bound := (hlists.mem b).mpr ⟨hb, hbound⟩
  rw [← List.take_append_drop size (descending key l bound)] at hmem
  rcases List.mem_append.mp hmem with h | h
  · exact Or.inl h
  · have hsorted := hlists.sorted
    rw [← List.take_append_drop size (descending key l bound)] at hsorted
    exact Or.inr ((List.pairwise_append.mp hsorted).2.2 a hlast b h)

/-- Before the rest, which is listed from what the collection has become, comes
    the page. -/
theorem Lists.next {size : Nat} {a : α} {rest : List α} (hkeys : (l.map key).Nodup)
    (ha : a ∈ page key size l bound) (hmin : ∀ b ∈ page key size l bound, key a ≤ key b)
    (htops : Tops key l l') (hrest : Lists key l' (some (key a)) rest) :
    Lists key l bound (page key size l bound ++ rest) := by
  have hin : ∀ b ∈ page key size l bound, b ∈ l ∧ Below key bound b :=
    fun b hb => mem_of_mem_page hkeys hb
  have hbelow : ∀ b ∈ rest, b ∈ l' ∧ key b < key a := by
    intro b hb
    obtain ⟨hmem, hlt⟩ := (hrest.mem b).mp hb
    exact ⟨hmem, hlt _ rfl⟩
  constructor
  · refine List.pairwise_append.mpr ⟨page_sorted hkeys, hrest.sorted, fun x hx y hy => ?_⟩
    exact Nat.lt_of_lt_of_le (hbelow y hy).2 (hmin x hx)
  · intro b
    rw [List.mem_append]
    constructor
    · rintro (hb | hb)
      · exact hin b hb
      · -- below an item of `l`, so no new one
        obtain ⟨hmem, hlt⟩ := hbelow b hb
        have hold : b ∈ l := by
          by_contra hnew
          exact absurd (htops.above b hmem hnew a (hin a ha).1) (Nat.not_lt_of_lt hlt)
        exact ⟨hold, fun n hn => Nat.lt_trans hlt ((hin a ha).2 n hn)⟩
    · rintro ⟨hb, hbound⟩
      rcases mem_page_or_below hkeys ha hb hbound with h | h
      · exact Or.inl h
      · refine Or.inr ((hrest.mem b).mpr ⟨htops.kept b hb, fun n hn => ?_⟩)
        cases hn
        exact h

end Paging
