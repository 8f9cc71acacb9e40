/-
  OneMinute.Lib.Process

  Sequential programs that call an environment, one atomic call at a time.

  An interface lists the calls, with the type of each one's reply; a reply may
  also be missing, which is an error of the call.  A call may use an input that
  is supplied when it is made (a clock value, a random identifier).  Between two
  calls of a process anything may happen in the environment, so a process is
  known by its exchanges alone:

    * `Unfolds p tr q` — after the exchanges `tr` (latest first), `p` has `q`
      left to do;
    * `Always P tr p Q` — whatever the replies, every call that `p` makes is
      allowed by `P` in view of the exchanges before it, and `Q` holds of the
      exchanges and the result at the end.

  `Always` is proved program by program with `always_bind`, and used at any
  point of an interleaved run through `Always.unfolds`.

  When nothing happens between the calls, a process is a state transformer:

    * `Alone exec ok e p e' a` — from `e`, with `exec` answering every call and
      inputs that `ok` admits, `p` ends in `e'` with `a`;
    * `Answerable ok p` — every call of `p` has such an input, so `p` does end
      (`Answerable.exists_alone`).
-/

/-- Calls with the types of their replies, and the input a call may use. -/
structure Interface where
  Input : Type
  Call : Type
  Reply : Call → Type

/-- A call that was made, with its reply; `none` is an error. -/
structure Exchange (I : Interface) where
  call : I.Call
  reply : Option (I.Reply call)

inductive Process (I : Interface) (α : Type) where
  | done (a : α)
  | ask (c : I.Input → I.Call) (k : (x : I.Input) → Option (I.Reply (c x)) → Process I α)

namespace Process

variable {I : Interface} {α β : Type}

/-- Sequential composition. -/
def bind : Process I α → (α → Process I β) → Process I β
  | .done a, f => f a
  | .ask c k, f => .ask c fun x r => bind (k x r) f

instance : Monad (Process I) where
  pure := .done
  bind := bind

/-- One call that needs no input. -/
def call (c : I.Call) : Process I (Option (I.Reply c)) := .ask (fun _ => c) fun _ r => .done r

/-! ## Exchanges -/

/-- After the exchanges `tr`, latest first, the process has this left to do. -/
inductive Unfolds (p : Process I α) : List (Exchange I) → Process I α → Prop where
  | start : Unfolds p [] p
  | turn {tr : List (Exchange I)} {c : I.Input → I.Call}
      {k : (x : I.Input) → Option (I.Reply (c x)) → Process I α} (h : Unfolds p tr (.ask c k))
      (x : I.Input) (r : Option (I.Reply (c x))) : Unfolds p (⟨c x, r⟩ :: tr) (k x r)

/-- Whatever the replies, `P` allows every call in view of the exchanges before
    it, and `Q` holds at the end. -/
def Always (P : List (Exchange I) → I.Call → Prop) :
    List (Exchange I) → Process I α → (List (Exchange I) → α → Prop) → Prop
  | tr, .done a, Q => Q tr a
  | tr, .ask c k, Q => ∀ x, P tr (c x) ∧ ∀ r, Always P (⟨c x, r⟩ :: tr) (k x r) Q

section
variable {P : List (Exchange I) → I.Call → Prop} {tr : List (Exchange I)} {p q : Process I α}
  {Q R : List (Exchange I) → α → Prop}

/-- A weaker condition at the end. -/
theorem Always.post (h : Always P tr p Q) (hQR : ∀ tr a, Q tr a → R tr a) :
    Always P tr p R := by
  induction p generalizing tr with
  | done a => exact hQR tr a h
  | ask c k ih => exact fun x => ⟨(h x).1, fun r => ih x r ((h x).2 r)⟩

/-- A weaker condition on the calls. -/
theorem Always.allow {P' : List (Exchange I) → I.Call → Prop} (h : Always P tr p Q)
    (hPP' : ∀ tr c, P tr c → P' tr c) : Always P' tr p Q := by
  induction p generalizing tr with
  | done a => exact h
  | ask c k ih => exact fun x => ⟨hPP' _ _ (h x).1, fun r => ih x r ((h x).2 r)⟩

/-- Every exchange at the end was there before, or its call was allowed. -/
theorem Always.mem (h : Always P tr p Q) :
    Always P tr p fun tr' a => Q tr' a ∧ ∀ e ∈ tr', e ∈ tr ∨ ∃ tr₀, P tr₀ e.call := by
  induction p generalizing tr with
  | done a => exact ⟨h, fun e he => Or.inl he⟩
  | ask c k ih =>
      refine fun x => ⟨(h x).1, fun r => (ih x r ((h x).2 r)).post fun tr' a hQ => ⟨hQ.1, ?_⟩⟩
      intro e he
      rcases hQ.2 e he with hmem | hP
      · rcases List.mem_cons.mp hmem with rfl | hold
        · exact Or.inr ⟨tr, (h x).1⟩
        · exact Or.inl hold
      · exact Or.inr hP

/-- The exchanges before are still there at the end. -/
theorem Always.grows (h : Always P tr p Q) : Always P tr p fun tr' a => Q tr' a ∧ tr ⊆ tr' := by
  induction p generalizing tr with
  | done a => exact ⟨h, List.Subset.refl _⟩
  | ask c k ih =>
      refine fun x => ⟨(h x).1, fun r => (ih x r ((h x).2 r)).post fun tr' a hQ => ⟨hQ.1, ?_⟩⟩
      exact List.subset_of_cons_subset hQ.2

/-- Sequential composition: the first part establishes what the second needs. -/
theorem always_bind {f : α → Process I β} {S : List (Exchange I) → β → Prop}
    (h : Always P tr p fun tr a => Always P tr (f a) S) : Always P tr (p >>= f) S := by
  induction p generalizing tr with
  | done a => exact h
  | ask c k ih => exact fun x => ⟨(h x).1, fun r => ih x r ((h x).2 r)⟩

/-- What holds of the whole process holds of what is left of it. -/
theorem Always.unfolds (h : Always P [] p Q) (hu : Unfolds p tr q) : Always P tr q Q := by
  induction hu with
  | start => exact h
  | turn _ x r ih => exact (ih x).2 r

end

/-! ## Undisturbed runs -/

section
variable {σ : Type} (exec : σ → (c : I.Call) → σ × Option (I.Reply c)) (ok : σ → I.Call → Prop)

/-- From `e`, with nothing between its calls, `p` ends in `e'` with `a`. -/
inductive Alone : σ → Process I α → σ → α → Prop where
  | done (e : σ) (a : α) : Alone e (.done a) e a
  | ask {e e' : σ} {c : I.Input → I.Call}
      {k : (x : I.Input) → Option (I.Reply (c x)) → Process I α} {a : α} (x : I.Input)
      (hok : ok e (c x)) (h : Alone (exec e (c x)).1 (k x (exec e (c x)).2) e' a) :
      Alone e (.ask c k) e' a

/-- Whatever the state, every call has an input that is admitted there. -/
def Answerable : Process I α → Prop
  | .done _ => True
  | .ask c k => (∀ e, ∃ x, ok e (c x)) ∧ ∀ x r, Answerable (k x r)

variable {exec ok}

theorem alone_done {e e' : σ} {a b : α} :
    Alone exec ok e (.done a) e' b ↔ e' = e ∧ b = a := by
  constructor
  · intro h
    cases h
    exact ⟨rfl, rfl⟩
  · rintro ⟨rfl, rfl⟩
    exact .done _ _

theorem alone_ask {e e' : σ} {c : I.Input → I.Call}
    {k : (x : I.Input) → Option (I.Reply (c x)) → Process I α} {a : α} :
    Alone exec ok e (.ask c k) e' a ↔
      ∃ x, ok e (c x) ∧ Alone exec ok (exec e (c x)).1 (k x (exec e (c x)).2) e' a := by
  constructor
  · intro h
    cases h with
    | ask x hok h => exact ⟨x, hok, h⟩
  · rintro ⟨x, hok, h⟩
    exact .ask x hok h

/-- Sequential composition: the second part goes on where the first ended. -/
theorem alone_bind {e e' : σ} {p : Process I α} {f : α → Process I β} {b : β} :
    Alone exec ok e (p >>= f) e' b ↔
      ∃ e₁ a, Alone exec ok e p e₁ a ∧ Alone exec ok e₁ (f a) e' b := by
  induction p generalizing e with
  | done a =>
      constructor
      · exact fun h => ⟨e, a, .done e a, h⟩
      · rintro ⟨e₁, a', h1, h2⟩
        obtain ⟨rfl, rfl⟩ := alone_done.mp h1
        exact h2
  | ask c k ih =>
      constructor
      · intro h
        obtain ⟨x, hok, h⟩ := alone_ask.mp h
        obtain ⟨e₁, a, h1, h2⟩ := (ih x _).mp h
        exact ⟨e₁, a, .ask x hok h1, h2⟩
      · rintro ⟨e₁, a, h1, h2⟩
        obtain ⟨x, hok, h1⟩ := alone_ask.mp h1
        exact .ask x hok ((ih x _).mpr ⟨e₁, a, h1, h2⟩)

/-- A call that needs no input, and what goes on from its reply. -/
theorem Alone.of_call {e e' : σ} {c : I.Call} {f : Option (I.Reply c) → Process I β} {b : β}
    (h : Alone exec ok e (call c >>= f) e' b) :
    Alone exec ok (exec e c).1 (f (exec e c).2) e' b := by
  obtain ⟨_, _, h⟩ := alone_ask.mp h
  exact h

theorem Answerable.bind {p : Process I α} {f : α → Process I β} (hp : Answerable ok p)
    (hf : ∀ a, Answerable ok (f a)) : Answerable ok (p >>= f) := by
  induction p with
  | done a => exact hf a
  | ask c k ih => exact ⟨hp.1, fun x r => ih x r (hp.2 x r)⟩

/-- A program whose calls all have an input ends. -/
theorem Answerable.exists_alone {p : Process I α} (hp : Answerable ok p) (e : σ) :
    ∃ e' a, Alone exec ok e p e' a := by
  induction p generalizing e with
  | done a => exact ⟨e, a, .done e a⟩
  | ask c k ih =>
      obtain ⟨x, hok⟩ := hp.1 e
      obtain ⟨e', a, h⟩ := ih x (exec e (c x)).2 (hp.2 x _) (exec e (c x)).1
      exact ⟨e', a, .ask x hok h⟩

end

end Process
