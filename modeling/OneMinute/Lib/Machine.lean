/-
  OneMinute.Lib.Machine

  Deterministic machines with a scheduler: a start state and a partial step
  function.  The scheduler's choices (which operation, which process, which
  clock value, which failure) are the labels, so a run is a list of labels and
  a concrete run can be computed.

  The rules below are the only inductions over runs that a development needs:

    * `runFrom_invariant` — a property every step preserves holds after a run;
    * `runFrom_invariant_along` — the same for runs whose steps all meet a
      condition on the state before the step (`Along`);
    * `runFrom_relates` — a preorder that every step respects relates the ends;
    * `forall_iff_along` — when the condition is exact, so is the rule;
    * `run_induction` — an invariant that may also mention the labels so far;
    * `exists_change` — a property that became true did so at one step.
-/

import Mathlib.Data.List.Induction

/-- A start state and a partial step function; `none` means that the label is
    not enabled. -/
structure Machine (σ α : Type _) where
  init : σ
  step : σ → α → Option σ

namespace Machine

variable {σ α : Type _} (M : Machine σ α)

/-- The state after taking the labels in order, if all of them are enabled. -/
def runFrom : σ → List α → Option σ
  | s, [] => some s
  | s, a :: as => (M.step s a).bind fun s' => runFrom s' as

/-- A run from the start state. -/
def run (as : List α) : Option σ := M.runFrom M.init as

/-- The run `as` takes label `a` from state `u` to state `v`. -/
def Taken (as : List α) (u : σ) (a : α) (v : σ) : Prop :=
  ∃ pre post, as = pre ++ a :: post ∧ M.run pre = some u ∧ M.step u a = some v

/-- Every step of the run `as` from `s` meets the condition `C` on the state
    before it and its label. -/
def Along (C : σ → α → Prop) (s : σ) (as : List α) : Prop :=
  ∀ pre a post u, as = pre ++ a :: post → M.runFrom s pre = some u → C u a

/-! ## Composing runs -/

@[simp] theorem runFrom_nil (s : σ) : M.runFrom s [] = some s := rfl

theorem runFrom_cons (s : σ) (a : α) (as : List α) :
    M.runFrom s (a :: as) = (M.step s a).bind fun s' => M.runFrom s' as := rfl

variable {M}

theorem runFrom_cons_eq_some {s t : σ} {a : α} {as : List α} :
    M.runFrom s (a :: as) = some t ↔
      ∃ s', M.step s a = some s' ∧ M.runFrom s' as = some t := by
  rw [runFrom_cons, Option.bind_eq_some_iff]

theorem runFrom_append_eq_some {s t : σ} {as bs : List α} :
    M.runFrom s (as ++ bs) = some t ↔
      ∃ s', M.runFrom s as = some s' ∧ M.runFrom s' bs = some t := by
  induction as generalizing s with
  | nil => simp
  | cons a as ih =>
      rw [List.cons_append, runFrom_cons_eq_some]
      constructor
      · rintro ⟨s₁, h1, h2⟩
        obtain ⟨s₂, h3, h4⟩ := ih.mp h2
        exact ⟨s₂, runFrom_cons_eq_some.mpr ⟨s₁, h1, h3⟩, h4⟩
      · rintro ⟨s₂, h1, h2⟩
        obtain ⟨s₁, h3, h4⟩ := runFrom_cons_eq_some.mp h1
        exact ⟨s₁, h3, ih.mpr ⟨s₂, h4, h2⟩⟩

/-- A run that starts like another one goes on from where that one ended. -/
theorem runFrom_append_iff {s u t : σ} {as bs : List α} (h : M.runFrom s as = some u) :
    M.runFrom s (as ++ bs) = some t ↔ M.runFrom u bs = some t := by
  rw [runFrom_append_eq_some]
  constructor
  · rintro ⟨u', hu', hrest⟩
    rw [h] at hu'
    cases hu'
    exact hrest
  · exact fun hrest => ⟨u, h, hrest⟩

theorem runFrom_concat_eq_some {s t : σ} {as : List α} {a : α} :
    M.runFrom s (as ++ [a]) = some t ↔
      ∃ s', M.runFrom s as = some s' ∧ M.step s' a = some t := by
  rw [runFrom_append_eq_some]
  refine exists_congr fun s' => and_congr_right fun _ => ?_
  rw [runFrom_cons_eq_some]
  simp

/-! ## Invariants -/

/-- A property that every step preserves holds after every run. -/
theorem runFrom_invariant {P : σ → Prop}
    (hstep : ∀ s a s', P s → M.step s a = some s' → P s')
    {s t : σ} {as : List α} (hrun : M.runFrom s as = some t) (h0 : P s) : P t := by
  induction as generalizing s with
  | nil =>
      cases hrun
      exact h0
  | cons a as ih =>
      obtain ⟨s', h1, h2⟩ := runFrom_cons_eq_some.mp hrun
      exact ih h2 (hstep s a s' h0 h1)

theorem run_invariant {P : σ → Prop} (h0 : P M.init)
    (hstep : ∀ s a s', P s → M.step s a = some s' → P s')
    {t : σ} {as : List α} (hrun : M.run as = some t) : P t :=
  runFrom_invariant hstep hrun h0

theorem Along.tail {C : σ → α → Prop} {s s' : σ} {a : α} {as : List α}
    (h : M.Along C s (a :: as)) (hstep : M.step s a = some s') : M.Along C s' as := by
  intro pre b post u hsplit hpre
  exact h (a :: pre) b post u (by rw [hsplit]; rfl)
    (runFrom_cons_eq_some.mpr ⟨s', hstep, hpre⟩)

theorem Along.head {C : σ → α → Prop} {s : σ} {a : α} {as : List α}
    (h : M.Along C s (a :: as)) : C s a :=
  h [] a as s rfl rfl

theorem along_nil {C : σ → α → Prop} {s : σ} : M.Along C s [] := by
  intro pre a post u hsplit
  simp at hsplit

/-- Build `Along` one step at a time, as for a concrete run. -/
theorem along_cons {C : σ → α → Prop} {s : σ} {a : α} {as : List α}
    (hC : C s a) (hrest : ∀ s', M.step s a = some s' → M.Along C s' as) :
    M.Along C s (a :: as) := by
  intro pre b post u hsplit hpre
  cases pre with
  | nil =>
      cases hsplit
      cases hpre
      exact hC
  | cons c pre =>
      rw [List.cons_append, List.cons.injEq] at hsplit
      obtain ⟨rfl, hsplit⟩ := hsplit
      obtain ⟨s', h1, h2⟩ := runFrom_cons_eq_some.mp hpre
      exact hrest s' h1 pre b post u hsplit h2

theorem along_cons_iff {C : σ → α → Prop} {s : σ} {a : α} {as : List α} :
    M.Along C s (a :: as) ↔ C s a ∧ ∀ s' ∈ M.step s a, M.Along C s' as :=
  ⟨fun h => ⟨h.head, fun _ hs' => h.tail hs'⟩, fun h => along_cons h.1 h.2⟩

/-- A decidable condition can be checked along a concrete run. -/
instance decidableAlong {C : σ → α → Prop} [∀ s a, Decidable (C s a)] (s : σ) :
    (as : List α) → Decidable (M.Along C s as)
  | [] => isTrue along_nil
  | a :: as =>
    have : ∀ s', Decidable (M.Along C s' as) := fun s' => decidableAlong s' as
    decidable_of_iff (C s a ∧ ∀ s' ∈ M.step s a, M.Along C s' as) along_cons_iff.symm

theorem Along.mono {C D : σ → α → Prop} {s : σ} {as : List α}
    (h : M.Along C s as) (hCD : ∀ u a, C u a → D u a) : M.Along D s as :=
  fun pre a post u hsplit hpre => hCD u a (h pre a post u hsplit hpre)

/-- Two conditions at once. -/
theorem Along.and {C D : σ → α → Prop} {s : σ} {as : List α} (hC : M.Along C s as)
    (hD : M.Along D s as) : M.Along (fun u a => C u a ∧ D u a) s as :=
  fun pre a post u hsplit hpre => ⟨hC pre a post u hsplit hpre, hD pre a post u hsplit hpre⟩

/-- The condition also holds along every prefix. -/
theorem Along.of_append {C : σ → α → Prop} {s : σ} {as bs : List α}
    (h : M.Along C s (as ++ bs)) : M.Along C s as := by
  intro pre a post u hsplit hpre
  exact h pre a (post ++ bs) u (by rw [hsplit]; simp) hpre

/-- Build `Along` by the last step. -/
theorem along_concat {C : σ → α → Prop} {s t : σ} {as : List α} {a : α} (h : M.Along C s as)
    (hrun : M.runFrom s as = some t) (hC : C t a) : M.Along C s (as ++ [a]) := by
  intro pre b post u hsplit hpre
  rcases List.eq_nil_or_concat post with rfl | ⟨post, d, rfl⟩
  · obtain ⟨rfl, hab⟩ := List.append_inj' hsplit rfl
    cases hab
    rw [hrun] at hpre
    cases hpre
    exact hC
  · rw [List.concat_eq_append, ← List.cons_append, ← List.append_assoc] at hsplit
    obtain ⟨rfl, _⟩ := List.append_inj' hsplit rfl
    exact h pre b post u rfl hpre

/-- A property preserved by every step that meets the condition holds after
    every run whose steps all meet it. -/
theorem runFrom_invariant_along {P : σ → Prop} {C : σ → α → Prop}
    (hstep : ∀ s a s', P s → C s a → M.step s a = some s' → P s')
    {s t : σ} {as : List α} (hrun : M.runFrom s as = some t) (hC : M.Along C s as)
    (h0 : P s) : P t := by
  induction as generalizing s with
  | nil =>
      cases hrun
      exact h0
  | cons a as ih =>
      obtain ⟨s', h1, h2⟩ := runFrom_cons_eq_some.mp hrun
      exact ih h2 (hC.tail h1) (hstep s a s' h0 hC.head h1)

/-- A preorder between a state and its successors relates the ends of a run. -/
theorem runFrom_relates {P : σ → Prop} {R : σ → σ → Prop} (hrefl : ∀ s, R s s)
    (htrans : ∀ {s t u}, R s t → R t u → R s u)
    (hstep : ∀ s a s', P s → M.step s a = some s' → P s' ∧ R s s')
    {s t : σ} {as : List α} (hrun : M.runFrom s as = some t) (h0 : P s) : P t ∧ R s t := by
  refine runFrom_invariant (P := fun t => P t ∧ R s t) ?_ hrun ⟨h0, hrefl s⟩
  rintro u a v ⟨hu, hsu⟩ huv
  obtain ⟨hv, hR⟩ := hstep u a v hu huv
  exact ⟨hv, htrans hsu hR⟩

/-- When, from a state with `P`, a step that meets `D` leads to a state with `P`
    exactly if it meets `C`, then a run of such steps stays within `P` exactly if
    all its steps meet `C`. -/
theorem forall_iff_along {P : σ → Prop} {C D : σ → α → Prop}
    (hstep : ∀ s a s', P s → D s a → M.step s a = some s' → (P s' ↔ C s a))
    {s t : σ} {as : List α} (hrun : M.runFrom s as = some t) (hD : M.Along D s as) (h0 : P s) :
    (∀ pre post u, as = pre ++ post → M.runFrom s pre = some u → P u) ↔ M.Along C s as := by
  constructor
  · intro h pre a post u hsplit hpre
    have hu : P u := h pre (a :: post) u hsplit hpre
    have hDu : D u a := hD pre a post u hsplit hpre
    rw [hsplit, runFrom_append_iff hpre] at hrun
    obtain ⟨v, hv, _⟩ := runFrom_cons_eq_some.mp hrun
    refine (hstep u a v hu hDu hv).mp (h (pre ++ [a]) post v (by rw [hsplit]; simp) ?_)
    exact runFrom_concat_eq_some.mpr ⟨u, hpre, hv⟩
  · rintro h pre post u rfl hpre
    exact runFrom_invariant_along (C := fun s a => D s a ∧ C s a)
      (fun s a s' hs hDC hs' => (hstep s a s' hs hDC.1 hs').mpr hDC.2) hpre
      (hD.of_append.and h.of_append) h0

/-! ## Histories -/

/-- Induction on a run by its last step, for properties of the labels so far
    and the state reached. -/
theorem run_induction {P : List α → σ → Prop} (h0 : P [] M.init)
    (hstep : ∀ as s a s', M.run as = some s → P as s → M.step s a = some s' →
      P (as ++ [a]) s')
    {as : List α} {t : σ} (hrun : M.run as = some t) : P as t := by
  induction as using List.reverseRecOn generalizing t with
  | nil =>
      cases hrun
      exact h0
  | append_singleton as a ih =>
      obtain ⟨s, h1, h2⟩ := runFrom_concat_eq_some.mp hrun
      exact hstep as s a t h1 (ih h1) h2

/-- A property false at the start of a run and true at its end became true at
    one step. -/
theorem exists_change {P : σ → Prop} {s t : σ} {as : List α}
    (hrun : M.runFrom s as = some t) (h0 : ¬ P s) (h1 : P t) :
    ∃ pre a post u v, as = pre ++ a :: post ∧ M.runFrom s pre = some u ∧
      M.step u a = some v ∧ M.runFrom v post = some t ∧ ¬ P u ∧ P v := by
  induction as generalizing s with
  | nil =>
      cases hrun
      exact absurd h1 h0
  | cons a as ih =>
      obtain ⟨s', hs, hrest⟩ := runFrom_cons_eq_some.mp hrun
      by_cases hP : P s'
      · exact ⟨[], a, as, s, s', rfl, rfl, hs, hrest, h0, hP⟩
      · obtain ⟨pre, b, post, u, v, hsplit, hpre, hb, hpost, hu, hv⟩ := ih hrest hP
        exact ⟨a :: pre, b, post, u, v, by rw [hsplit]; rfl,
          runFrom_cons_eq_some.mpr ⟨s', hs, hpre⟩, hb, hpost, hu, hv⟩

theorem Taken.append {as : List α} {u v : σ} {a : α} (h : M.Taken as u a v)
    (bs : List α) : M.Taken (as ++ bs) u a v := by
  obtain ⟨pre, post, hsplit, hpre, hstep⟩ := h
  exact ⟨pre, post ++ bs, by rw [hsplit]; simp, hpre, hstep⟩

/-- A step of a run with one more label is a step of the run, or the last one. -/
theorem taken_concat_iff {as : List α} {s t u v : σ} {a b : α} (hrun : M.run as = some s)
    (hstep : M.step s a = some t) :
    M.Taken (as ++ [a]) u b v ↔ M.Taken as u b v ∨ u = s ∧ b = a ∧ v = t := by
  constructor
  · rintro ⟨pre, post, hsplit, hpre, hb⟩
    rcases List.eq_nil_or_concat post with rfl | ⟨post, c, rfl⟩
    · obtain ⟨rfl, hab⟩ := List.append_inj' hsplit rfl
      cases hab
      rw [hrun] at hpre
      cases hpre
      rw [hstep] at hb
      cases hb
      exact Or.inr ⟨rfl, rfl, rfl⟩
    · rw [List.concat_eq_append, ← List.cons_append, ← List.append_assoc] at hsplit
      obtain ⟨rfl, _⟩ := List.append_inj' hsplit rfl
      exact Or.inl ⟨pre, post, rfl, hpre, hb⟩
  · rintro (h | ⟨rfl, rfl, rfl⟩)
    · obtain ⟨pre, post, rfl, hpre, hb⟩ := h
      exact ⟨pre, post ++ [a], by simp, hpre, hb⟩
    · exact ⟨as, [], rfl, hrun, hstep⟩

theorem taken_concat {as : List α} {u v : σ} {a : α} (hrun : M.run as = some u)
    (hstep : M.step u a = some v) : M.Taken (as ++ [a]) u a v :=
  ⟨as, [], rfl, hrun, hstep⟩

end Machine
