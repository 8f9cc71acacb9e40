/-
  OneMinute.Lib.Draining

  Sorted sets that only lose members, and batches of due ones that are removed.

    * `RankOrder before`  — `before` orders the members' encodings;
    * `Shrinks z z'`      — `z'` is what is left of `z`;
    * `dueCount`          — ZCOUNT -inf max;
    * `dueCount_drained`  — removing the batch of a range takes its size off the
      count, whatever else goes.

  A member of the batch is in the batch of every set that the set shrinks to, as
  long as it is still a member (`Shrinks.mem_due`): the sort is stable under
  removal.
-/

import OneMinute.Lib.SortedSet

namespace SortedSet

variable {α : Type _}

/-! ## Rank orders -/

/-- A strict order in which members of equal encodings are not told apart. -/
structure RankOrder (before : α → α → Bool) : Prop where
  asymm : ∀ x y, before x y = true → before y x = false
  trans : ∀ x y z, before x y = false → before y z = false → before x z = false

section
variable {before : α → α → Bool} {a b c : α × Int} {l : List (α × Int)}

theorem RanksBefore.not_flip (hb : RankOrder before) (h : RanksBefore before a b) :
    ¬ RanksBefore before b a := by
  rintro (hlt | ⟨heq, hba⟩)
  · rcases h with h | ⟨h, -⟩ <;> omega
  · rcases h with h | ⟨-, hab⟩
    · omega
    · rw [hb.asymm _ _ hab] at hba
      cases hba

/-- What ranks before an entry ranks before all that do not rank before that one. -/
theorem RanksBefore.of_not (hb : RankOrder before) (h : RanksBefore before a b)
    (hc : ¬ RanksBefore before c b) : RanksBefore before a c := by
  have hbc : b.2 ≤ c.2 := by
    by_contra hlt
    exact hc (Or.inl (by omega))
  rcases h with h | ⟨heq, hab⟩
  · exact Or.inl (by omega)
  · by_cases hlt : b.2 < c.2
    · exact Or.inl (by omega)
    · have hcb : c.2 = b.2 := by omega
      have hbefore : before c.1 b.1 = false :=
        Bool.eq_false_of_not_eq_true fun e => hc (Or.inr ⟨hcb, e⟩)
      refine Or.inr ⟨by omega, ?_⟩
      by_contra hac
      have := hb.trans _ _ _ (Bool.eq_false_of_not_eq_true hac) hbefore
      rw [hab] at this
      cases this

/-- In rank order: nothing ranks before what stands ahead of it. -/
def InOrder (before : α → α → Bool) (l : List (α × Int)) : Prop :=
  l.Pairwise fun e f => ¬ RanksBefore before f e

/-- An entry that ranks before the head ranks before all. -/
theorem InOrder.ranksBefore_all (hb : RankOrder before) (h : InOrder before (b :: l))
    (hab : RanksBefore before a b) : ∀ c ∈ b :: l, RanksBefore before a c := by
  intro c hc
  rcases List.mem_cons.mp hc with rfl | hc
  · exact hab
  · exact hab.of_not hb ((List.pairwise_cons.mp h).1 c hc)

theorem inOrder_orderedInsert (hb : RankOrder before) (e : α × Int) (h : InOrder before l) :
    InOrder before (l.orderedInsert (RanksBefore before) e) := by
  induction l with
  | nil => exact List.pairwise_singleton _ _
  | cons a l ih =>
      obtain ⟨ha, hl⟩ := List.pairwise_cons.mp h
      rw [List.orderedInsert]
      split
      · next hea =>
          have hall := h.ranksBefore_all hb hea
          exact List.pairwise_cons.mpr ⟨fun f hf => (hall f hf).not_flip hb, h⟩
      · next hea =>
          refine List.pairwise_cons.mpr ⟨fun f hf => ?_, ih hl⟩
          rcases (List.mem_orderedInsert _).mp hf with rfl | hf
          · exact hea
          · exact ha f hf

theorem inOrder_insertionSort (hb : RankOrder before) (l : List (α × Int)) :
    InOrder before (l.insertionSort (RanksBefore before)) := by
  induction l with
  | nil => exact List.Pairwise.nil
  | cons e l ih => exact inOrder_orderedInsert hb e ih

/-! ## The sort is stable under removal -/

theorem orderedInsert_of_all (h : ∀ c ∈ l, RanksBefore before a c) :
    l.orderedInsert (RanksBefore before) a = a :: l := by
  cases l with
  | nil => rfl
  | cons b l => rw [List.orderedInsert, if_pos (h b List.mem_cons_self)]

theorem filter_orderedInsert (hb : RankOrder before) (p : α × Int → Bool)
    (h : InOrder before l) :
    (l.orderedInsert (RanksBefore before) a).filter p =
      if p a then (l.filter p).orderedInsert (RanksBefore before) a else l.filter p := by
  induction l with
  | nil =>
      rw [List.orderedInsert_nil]
      split
      · next hp => rw [List.filter_cons_of_pos hp]; rfl
      · next hp => rw [List.filter_cons_of_neg hp]
  | cons b l ih =>
      rw [List.orderedInsert]
      split
      · next hab =>
          split
          · next hp =>
              -- what is left of the list is still behind the new entry
              have hall : ∀ c ∈ (b :: l).filter p, RanksBefore before a c :=
                fun c hc => h.ranksBefore_all hb hab c (List.mem_of_mem_filter hc)
              rw [List.filter_cons_of_pos hp, orderedInsert_of_all hall]
          · next hp => rw [List.filter_cons_of_neg hp]
      · next hab =>
          have ih := ih (List.pairwise_cons.mp h).2
          by_cases hpb : p b = true
          · rw [List.filter_cons_of_pos hpb, List.filter_cons_of_pos hpb, ih]
            split
            · rw [List.orderedInsert, if_neg hab]
            · rfl
          · rw [List.filter_cons_of_neg hpb, List.filter_cons_of_neg hpb, ih]

theorem insertionSort_filter (hb : RankOrder before) (p : α × Int → Bool)
    (l : List (α × Int)) :
    (l.filter p).insertionSort (RanksBefore before) =
      (l.insertionSort (RanksBefore before)).filter p := by
  induction l with
  | nil => rfl
  | cons a l ih =>
      rw [List.insertionSort_cons, filter_orderedInsert hb p (inOrder_insertionSort hb l), ← ih]
      split
      · next hp => rw [List.filter_cons_of_pos hp, List.insertionSort_cons]
      · next hp => rw [List.filter_cons_of_neg hp]

end

/-! ## Shrinking sets -/

/-- `z'` is what is left of `z`. -/
def Shrinks (z z' : SortedSet α) : Prop := ∃ p, z'.entries = z.entries.filter p

namespace Shrinks

variable {z z' z'' : SortedSet α}

theorem refl (z : SortedSet α) : Shrinks z z :=
  ⟨fun _ => true, (List.filter_eq_self.mpr fun _ _ => rfl).symm⟩

theorem trans (h : Shrinks z z') (h' : Shrinks z' z'') : Shrinks z z'' := by
  obtain ⟨p, hp⟩ := h
  obtain ⟨q, hq⟩ := h'
  exact ⟨_, by rw [hq, hp, List.filter_filter]⟩

theorem mem (h : Shrinks z z') {e : α × Int} (he : e ∈ z'.entries) : e ∈ z.entries := by
  obtain ⟨p, hp⟩ := h
  rw [hp] at he
  exact List.mem_of_mem_filter he

theorem zrem [DecidableEq α] (z : SortedSet α) (x : α) : Shrinks z (z.zrem x) := ⟨_, rfl⟩

/-- What is left keeps its score. -/
theorem score [DecidableEq α] (h : Shrinks z z') {x : α} {s : Int} (hx : z'.score x = some s) :
    z.score x = some s :=
  mem_entries_iff.mp (h.mem (mem_entries_iff.mpr hx))

end Shrinks

/-! ## Batches -/

/-- The entries up to a score, in rank order. -/
def below (before : α → α → Bool) (z : SortedSet α) (max : Int) : List (α × Int) :=
  (z.ranked before).filter fun e => decide (e.2 ≤ max)

section
variable {before : α → α → Bool} {z z' : SortedSet α} {max max' : Int} {count : Nat} {x : α}

theorem mem_take_filter {l : List (α × Int)} {e : α × Int} {p : α × Int → Bool}
    (h : e ∈ l.take count) (hp : p e = true) : e ∈ (l.filter p).take count := by
  have hlength : ((l.take count).filter p).length ≤ count :=
    Nat.le_trans (List.length_filter_le _ _) (List.length_take_le _ _)
  have hfront : (l.take count).filter p <+: (l.filter p).take count :=
    List.prefix_take_iff.mpr ⟨(List.take_prefix _ _).filter p, hlength⟩
  exact hfront.subset (List.mem_filter.mpr ⟨h, hp⟩)

theorem mem_due_iff :
    x ∈ z.due before max count ↔ ∃ s, (x, s) ∈ (z.below before max).take count := by
  constructor
  · intro h
    obtain ⟨e, he, rfl⟩ := List.mem_map.mp h
    exact ⟨e.2, he⟩
  · rintro ⟨s, hs⟩
    exact List.mem_map.mpr ⟨(x, s), hs, rfl⟩

theorem mem_below {e : α × Int} : e ∈ z.below before max ↔ e ∈ z.entries ∧ e.2 ≤ max := by
  unfold below
  rw [List.mem_filter, mem_ranked, decide_eq_true_iff]

/-- What is due has a score that is. -/
theorem score_of_mem_due [DecidableEq α] (h : x ∈ z.due before max count) :
    ∃ s, z.score x = some s ∧ s ≤ max := by
  obtain ⟨s, hs⟩ := mem_due_iff.mp h
  obtain ⟨hmem, hle⟩ := mem_below.mp (List.mem_of_mem_take hs)
  exact ⟨s, mem_entries_iff.mp hmem, hle⟩

/-- A member of a batch is in the batch of what is left, if it is left. -/
theorem Shrinks.mem_due [DecidableEq α] (hb : RankOrder before) (h : Shrinks z z')
    (hx : x ∈ z.due before max count) (hkept : z'.score x ≠ none) :
    x ∈ z'.due before max count := by
  obtain ⟨s', hs'⟩ := Option.ne_none_iff_exists'.mp hkept
  obtain ⟨s, hs⟩ := mem_due_iff.mp hx
  have hscore := mem_entries_iff.mp (mem_below.mp (List.mem_of_mem_take hs)).1
  obtain rfl : s = s' := Option.some.inj (hscore.symm.trans (h.score hs'))
  obtain ⟨p, hp⟩ := h
  have hpx : p (x, s) = true := by
    have := mem_entries_iff.mpr hs'
    rw [hp] at this
    exact (List.mem_filter.mp this).2
  have hbelow : z'.below before max = (z.below before max).filter p := by
    unfold below ranked
    rw [hp, insertionSort_filter hb, List.filter_filter, List.filter_filter]
    exact List.filter_congr fun e _ => Bool.and_comm _ _
  refine mem_due_iff.mpr ⟨s, ?_⟩
  rw [hbelow]
  exact mem_take_filter hs hpx

/-- In ascending order the entries up to a score are in front. -/
theorem filter_in_front {l : List (α × Int)} (h : l.Pairwise fun e f => e.2 ≤ f.2) (max : Int) :
    (l.filter fun e => decide (e.2 ≤ max)) <+: l := by
  induction l with
  | nil => exact List.nil_prefix
  | cons a l ih =>
      obtain ⟨ha, hl⟩ := List.pairwise_cons.mp h
      by_cases hle : a.2 ≤ max
      · rw [List.filter_cons_of_pos (by simpa using hle)]
        exact (List.prefix_cons_inj a).mpr (ih hl)
      · have hnone : (a :: l).filter (fun e => decide (e.2 ≤ max)) = [] := by
          refine List.filter_eq_nil_iff.mpr fun e he => ?_
          rcases List.mem_cons.mp he with rfl | he
          · simpa using hle
          · have := ha e he
            simp only [decide_eq_true_eq]
            omega
        rw [hnone]
        exact List.nil_prefix

/-- A batch is in the batch of any later instant. -/
theorem mem_due_mono (h : x ∈ z.due before max count) (hle : max ≤ max') :
    x ∈ z.due before max' count := by
  obtain ⟨s, hs⟩ := mem_due_iff.mp h
  have hfilter : z.below before max =
      (z.below before max').filter fun e => decide (e.2 ≤ max) := by
    unfold below
    rw [List.filter_filter]
    refine List.filter_congr fun e _ => ?_
    by_cases he : e.2 ≤ max
    · simp [he, Int.le_trans he hle]
    · simp [he]
  have hsorted : (z.below before max').Pairwise fun e f => e.2 ≤ f.2 :=
    (pairwise_ranked before z).sublist List.filter_sublist
  have hfront : (z.below before max).take count <+: z.below before max' := by
    rw [hfilter]
    exact (List.take_prefix _ _).trans (filter_in_front hsorted max)
  refine mem_due_iff.mpr ⟨s, ?_⟩
  exact (List.prefix_take_iff.mpr ⟨hfront, List.length_take_le _ _⟩).subset hs

/-! ## Counting what is due -/

/-- ZCOUNT -inf `max`. -/
def dueCount (z : SortedSet α) (max : Int) : Nat :=
  (z.entries.filter fun e => decide (e.2 ≤ max)).length

theorem length_below : (z.below before max).length = z.dueCount max :=
  ((List.perm_insertionSort (RanksBefore before) z.entries).filter _).length_eq

theorem nodup_entries (z : SortedSet α) : z.entries.Nodup := z.nodup.of_map _

/-- Without a due member the count is 0, and conversely. -/
theorem dueCount_eq_zero [DecidableEq α] :
    z.dueCount max = 0 ↔ ∀ x s, z.score x = some s → max < s := by
  unfold dueCount
  rw [List.length_eq_zero_iff, List.filter_eq_nil_iff]
  constructor
  · intro h x s hs
    have := h (x, s) (mem_entries_iff.mpr hs)
    simp only [decide_eq_true_eq] at this
    omega
  · intro h e he hle
    have := h e.1 e.2 (mem_entries_iff.mp he)
    simp only [decide_eq_true_eq] at hle
    omega

theorem nodup_due : (z.due before max count).Nodup := by
  have hsub : ((z.below before max).take count).Sublist (z.ranked before) :=
    (List.take_sublist _ _).trans List.filter_sublist
  have hkeys : ((z.ranked before).map Prod.fst).Nodup :=
    ((List.perm_insertionSort _ _).map _).nodup_iff.mpr z.nodup
  exact hkeys.sublist (hsub.map _)

/-- The `count` lowest members up to `max`, or all of them. -/
structure IsLowest [DecidableEq α] (z : SortedSet α) (max : Int) (count : Nat)
    (xs : List α) : Prop where
  nodup : xs.Nodup
  length : xs.length = min count (z.dueCount max)
  due : ∀ x ∈ xs, ∃ s, z.score x = some s ∧ s ≤ max
  lowest : ∀ x ∈ xs, ∀ y, y ∉ xs → ∀ s t, z.score x = some s → z.score y = some t → s ≤ t

/-- The range is of the lowest members. -/
theorem isLowest_due [DecidableEq α] (before : α → α → Bool) :
    z.IsLowest max count (z.due before max count) where
  nodup := nodup_due
  length := by
    show (((z.below before max).take count).map Prod.fst).length = _
    rw [List.length_map, List.length_take, length_below]
  due := fun _ hx => score_of_mem_due hx
  lowest := by
    intro x hx y hy s t hs ht
    obtain ⟨s', hs', hle⟩ := score_of_mem_due hx
    obtain rfl : s = s' := Option.some.inj (hs.symm.trans hs')
    by_cases hmax : t ≤ max
    · -- `y` is due as well, so it stands behind the batch
      have hy' : (y, t) ∈ (z.below before max).drop count := by
        have hmem : (y, t) ∈ z.below before max := mem_below.mpr ⟨mem_entries_iff.mpr ht, hmax⟩
        rw [← List.take_append_drop count (z.below before max)] at hmem
        exact (List.mem_append.mp hmem).resolve_left fun h => hy (mem_due_iff.mpr ⟨t, h⟩)
      obtain ⟨s', hx'⟩ := mem_due_iff.mp hx
      have hscore := mem_entries_iff.mp (mem_below.mp (List.mem_of_mem_take hx')).1
      obtain rfl : s = s' := Option.some.inj (hs.symm.trans hscore)
      have hsorted : (z.below before max).Pairwise fun e f => e.2 ≤ f.2 :=
        (pairwise_ranked before z).sublist List.filter_sublist
      rw [← List.take_append_drop count (z.below before max), List.pairwise_append] at hsorted
      exact hsorted.2.2 (x, s) hx' (y, t) hy'
    · omega

/-- Removing the batch of `max'` takes as many off the count of any earlier
    `max`, as long as there are so many. -/
theorem dueCount_drained [DecidableEq α] (h : Shrinks z z') (hle : max ≤ max')
    (hgone : ∀ x ∈ z.due before max' count, z'.score x = none) :
    z'.dueCount max ≤ z.dueCount max - count := by
  have hdisjoint : ∀ e ∈ (z.below before max).take count,
      ∀ f ∈ z'.entries.filter (fun e => decide (e.2 ≤ max)), e ≠ f := by
    rintro ⟨x, s⟩ he f hf rfl
    have hnone := hgone x (mem_due_mono (mem_due_iff.mpr ⟨s, he⟩) hle)
    rw [mem_entries_iff.mp (List.mem_of_mem_filter hf)] at hnone
    cases hnone
  have hbatch : ((z.below before max).take count).Nodup := by
    refine List.Nodup.sublist (List.take_sublist _ _) (List.Nodup.filter _ ?_)
    exact (List.perm_insertionSort _ _).nodup_iff.mpr z.nodup_entries
  have hnodup := List.nodup_append.mpr ⟨hbatch, z'.nodup_entries.filter _, hdisjoint⟩
  have hsubset : (z.below before max).take count ++
      z'.entries.filter (fun e => decide (e.2 ≤ max)) ⊆
        z.entries.filter fun e => decide (e.2 ≤ max) := by
    intro e he
    rcases List.mem_append.mp he with he | he
    · have := mem_below.mp (List.mem_of_mem_take he)
      exact List.mem_filter.mpr ⟨this.1, by simpa using this.2⟩
    · exact List.mem_filter.mpr ⟨h.mem (List.mem_of_mem_filter he), (List.mem_filter.mp he).2⟩
  have hlength := (List.subperm_of_subset hnodup hsubset).length_le
  rw [List.length_append, List.length_take, length_below] at hlength
  unfold dueCount at hlength ⊢
  omega

end

end SortedSet
