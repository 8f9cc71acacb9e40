/-
  OneMinute.Lib.Threads

  Threads over a shared state, scheduled one call at a time.

  A pool starts threads, lets thread `i` make its next call, or lets the
  environment act.  The proof rule is the one for interference: a property of
  the shared state and an assertion of each thread hold in every run when

    * a new thread starts with its assertion;
    * a call keeps the property and leads to the assertion of what is left;
    * a call, and a step of the environment, keeps the assertions of the others.
-/

import OneMinute.Lib.Machine

/-- What threads do: `ρ` are the requests that start them, `δ` what a call is
    supplied with, `ε` the steps of the environment. -/
structure Threads (σ τ ρ δ ε : Type _) where
  start : ρ → τ
  turn : Nat → δ → σ → τ → Option (σ × τ)
  env : ε → σ → Option σ

/-- The shared state and all threads so far; a thread is named by its index. -/
structure Pool (σ τ : Type _) where
  shared : σ
  threads : List τ

inductive Schedule (ρ δ ε : Type _) where
  | spawn (r : ρ)
  | turn (i : Nat) (d : δ)
  | env (e : ε)
deriving DecidableEq

namespace Threads

variable {σ τ ρ δ ε : Type _} (T : Threads σ τ ρ δ ε)

def step (s : Pool σ τ) : Schedule ρ δ ε → Option (Pool σ τ)
  | .spawn r => some { s with threads := s.threads ++ [T.start r] }
  | .turn i d =>
    s.threads[i]?.bind fun th =>
      (T.turn i d s.shared th).map fun out => ⟨out.1, s.threads.set i out.2⟩
  | .env e => (T.env e s.shared).map fun x => { s with shared := x }

/-- All schedules from a shared state. -/
def machine (x : σ) : Machine (Pool σ τ) (Schedule ρ δ ε) := ⟨⟨x, []⟩, T.step⟩

variable {T}

theorem step_turn {s s' : Pool σ τ} {i : Nat} {d : δ} (h : T.step s (.turn i d) = some s') :
    ∃ th x' th', s.threads[i]? = some th ∧ T.turn i d s.shared th = some (x', th') ∧
      s' = ⟨x', s.threads.set i th'⟩ := by
  obtain ⟨th, hth, h⟩ := Option.bind_eq_some_iff.mp h
  obtain ⟨⟨x', th'⟩, hturn, rfl⟩ := Option.map_eq_some_iff.mp h
  exact ⟨th, x', th', hth, hturn, rfl⟩

/-- After a call of thread `i`, a thread is that one or stands where it stood. -/
theorem getElem?_set_cases {l : List τ} {a b : τ} {i j : Nat} (h : (l.set i a)[j]? = some b) :
    i = j ∧ b = a ∨ i ≠ j ∧ l[j]? = some b := by
  by_cases hij : i = j
  · subst hij
    rw [List.getElem?_set_self'] at h
    obtain ⟨_, _, rfl⟩ := Option.map_eq_some_iff.mp h
    exact Or.inl ⟨rfl, rfl⟩
  · rw [List.getElem?_set_ne hij] at h
    exact Or.inr ⟨hij, h⟩

/-! ## Invariants -/

/-- The conditions of the rule, for a property `P` of the shared state and the
    assertion `Ok x i th` of thread `i`, which has `th` left to do. -/
structure Sound (T : Threads σ τ ρ δ ε) (P : σ → Prop) (Ok : σ → Nat → τ → Prop) : Prop where
  start : ∀ x i r, P x → Ok x i (T.start r)
  own : ∀ {i d x th x' th'}, P x → Ok x i th → T.turn i d x th = some (x', th') →
    P x' ∧ Ok x' i th'
  other : ∀ {i j d x th x' th' ou}, i ≠ j → P x → Ok x i th → Ok x j ou →
    T.turn i d x th = some (x', th') → Ok x' j ou
  env : ∀ {e x x'}, P x → T.env e x = some x' → P x' ∧ ∀ i th, Ok x i th → Ok x' i th

/-- The property and the assertions hold. -/
def Holds (P : σ → Prop) (Ok : σ → Nat → τ → Prop) (s : Pool σ τ) : Prop :=
  P s.shared ∧ ∀ i th, s.threads[i]? = some th → Ok s.shared i th

variable {P : σ → Prop} {Ok : σ → Nat → τ → Prop}

theorem Sound.step (h : T.Sound P Ok) {s s' : Pool σ τ} {a : Schedule ρ δ ε}
    (hs : Holds P Ok s) (hstep : T.step s a = some s') : Holds P Ok s' := by
  obtain ⟨hP, hOk⟩ := hs
  cases a with
  | spawn r =>
      obtain rfl := Option.some.inj hstep
      refine ⟨hP, fun i th hi => ?_⟩
      rw [List.getElem?_append] at hi
      split at hi
      · exact hOk i th hi
      · obtain ⟨_, rfl⟩ := List.getElem?_eq_some_iff.mp hi
        rw [List.getElem_singleton]
        exact h.start _ _ _ hP
  | turn i d =>
      obtain ⟨th, x', th', hth, hturn, rfl⟩ := step_turn hstep
      have hi : Ok s.shared i th := hOk i th hth
      refine ⟨(h.own hP hi hturn).1, fun j ou hj => ?_⟩
      rcases getElem?_set_cases hj with ⟨rfl, rfl⟩ | ⟨hij, hj⟩
      · exact (h.own hP hi hturn).2
      · exact h.other hij hP hi (hOk j ou hj) hturn
  | env e =>
      obtain ⟨x', henv, rfl⟩ := Option.map_eq_some_iff.mp hstep
      obtain ⟨hP', hkeep⟩ := h.env hP henv
      exact ⟨hP', fun i th hi => hkeep i th (hOk i th hi)⟩

theorem Sound.runFrom (h : T.Sound P Ok) {x : σ} {s t : Pool σ τ} {as : List (Schedule ρ δ ε)}
    (hrun : (T.machine x).runFrom s as = some t) (hs : Holds P Ok s) : Holds P Ok t :=
  Machine.runFrom_invariant (P := Holds P Ok) (fun _ _ _ hu hstep => h.step hu hstep) hrun hs

/-- The rule. -/
theorem Sound.run (h : T.Sound P Ok) {x : σ} {t : Pool σ τ} {as : List (Schedule ρ δ ε)}
    (hrun : (T.machine x).run as = some t) (h0 : P x) : Holds P Ok t := by
  refine h.runFrom hrun ⟨h0, fun i th hi => ?_⟩
  rw [Threads.machine, List.getElem?_nil] at hi
  cases hi

/-! ## Threads that are done -/

/-- A thread without a next call stays as it is. -/
theorem final_stays {x : σ} {s t : Pool σ τ} {as : List (Schedule ρ δ ε)} {i : Nat} {th : τ}
    (hrun : (T.machine x).runFrom s as = some t) (hi : s.threads[i]? = some th)
    (hfinal : ∀ d y, T.turn i d y th = none) : t.threads[i]? = some th := by
  refine Machine.runFrom_invariant (P := fun u : Pool σ τ => u.threads[i]? = some th) ?_ hrun hi
  intro u a v hu hstep
  cases a with
  | spawn r =>
      obtain rfl := Option.some.inj hstep
      rw [List.getElem?_append_left (List.getElem?_eq_some_iff.mp hu).1]
      exact hu
  | turn j d =>
      obtain ⟨ou, x', th', hj, hturn, rfl⟩ := step_turn hstep
      have hji : j ≠ i := by
        rintro rfl
        rw [hu] at hj
        cases hj
        rw [hfinal] at hturn
        cases hturn
      rw [List.getElem?_set_ne hji]
      exact hu
  | env e =>
      obtain ⟨x', _, rfl⟩ := Option.map_eq_some_iff.mp hstep
      exact hu

end Threads
