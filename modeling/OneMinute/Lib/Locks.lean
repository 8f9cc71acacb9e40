/-
  OneMinute.Lib.Locks

  Exclusive locks held to the end of a transaction, as row locks of a database
  are.  A lock has at most one owner, so mutual exclusion is part of the type; a
  transaction that asks for a lock of another one waits (`acquire` has no
  result), and gives all its locks back at once.

    * `acquire`    — take one lock, or keep it;
    * `acquireAll` — take several, when none of them has another owner;
    * `release`    — give back everything that a transaction holds.
-/

import Mathlib.Data.Option.Basic

/-- The owner of each lock, if it is held. -/
abbrev Locks (κ : Type _) := κ → Option Nat

namespace Locks

variable {κ : Type _}

/-- Nothing is locked. -/
def free : Locks κ := fun _ => none

/-- Transaction `i` gives back what it holds. -/
def release (l : Locks κ) (i : Nat) : Locks κ := fun k => if l k = some i then none else l k

theorem release_eq_some {l : Locks κ} {i j : Nat} {k : κ} :
    l.release i k = some j ↔ l k = some j ∧ j ≠ i := by
  unfold release
  split
  · next h =>
      rw [h]
      constructor
      · intro e
        cases e
      · rintro ⟨e, hne⟩
        cases e
        exact absurd rfl hne
  · next h =>
      constructor
      · intro e
        refine ⟨e, fun hji => h ?_⟩
        rw [e, hji]
      · exact fun e => e.1

/-- Transaction `i` took locks that were free, and gave none back. -/
structure Taken (l l' : Locks κ) (i : Nat) : Prop where
  kept : ∀ k j, l k = some j → l' k = some j
  new : ∀ k j, l' k = some j → l k = some j ∨ j = i

theorem Taken.refl (l : Locks κ) (i : Nat) : Taken l l i where
  kept := fun _ _ h => h
  new := fun _ _ h => Or.inl h

theorem Taken.trans {l₁ l₂ l₃ : Locks κ} {i : Nat} (h₁ : Taken l₁ l₂ i) (h₂ : Taken l₂ l₃ i) :
    Taken l₁ l₃ i where
  kept := fun k j h => h₂.kept k j (h₁.kept k j h)
  new := by
    intro k j h
    rcases h₂.new k j h with h | rfl
    · exact h₁.new k j h
    · exact Or.inr rfl

/-- Nobody else holds the lock. -/
def FreeFor (l : Locks κ) (i : Nat) (k : κ) : Prop := ∀ j, l k = some j → j = i

theorem FreeFor.taken {l l' : Locks κ} {i : Nat} {k : κ} (h : l.FreeFor i k)
    (ht : Taken l l' i) : l'.FreeFor i k := by
  intro j hj
  rcases ht.new k j hj with hj | rfl
  · exact h j hj
  · rfl

variable [DecidableEq κ]

/-- Transaction `i` takes the lock `k`; it waits while another one holds it. -/
def acquire (l : Locks κ) (i : Nat) (k : κ) : Option (Locks κ) :=
  match l k with
  | some j => if j = i then some l else none
  | none => some fun x => if x = k then some i else l x

/-- Transaction `i` takes all the locks `ks`. -/
def acquireAll (l : Locks κ) (i : Nat) : List κ → Option (Locks κ)
  | [] => some l
  | k :: ks => (l.acquire i k).bind fun l' => acquireAll l' i ks

theorem acquire_eq_some {l l' : Locks κ} {i : Nat} {k : κ} (h : l.acquire i k = some l') :
    Taken l l' i ∧ l' k = some i := by
  unfold acquire at h
  split at h
  · next j hj =>
      split at h
      · next hji =>
          cases h
          exact ⟨.refl l i, by rw [hj, hji]⟩
      · cases h
  · next hfree =>
      cases h
      refine ⟨⟨fun x j hx => ?_, fun x j hx => ?_⟩, if_pos rfl⟩
      · rw [if_neg]
        · exact hx
        · rintro rfl
          rw [hfree] at hx
          cases hx
      · split at hx
        · cases hx
          exact Or.inr rfl
        · exact Or.inl hx

theorem acquire_of_freeFor {l : Locks κ} {i : Nat} {k : κ} (h : l.FreeFor i k) :
    ∃ l', l.acquire i k = some l' := by
  unfold acquire
  split
  · next j hj =>
      rw [if_pos (h j hj)]
      exact ⟨l, rfl⟩
  · exact ⟨_, rfl⟩

theorem acquireAll_eq_some {l l' : Locks κ} {i : Nat} {ks : List κ}
    (h : l.acquireAll i ks = some l') : Taken l l' i ∧ ∀ k ∈ ks, l' k = some i := by
  induction ks generalizing l with
  | nil =>
      cases h
      exact ⟨.refl _ i, fun k hk => (List.not_mem_nil hk).elim⟩
  | cons k ks ih =>
      obtain ⟨l₁, h₁, h₂⟩ := Option.bind_eq_some_iff.mp h
      obtain ⟨htaken, hk⟩ := acquire_eq_some h₁
      obtain ⟨hrest, hks⟩ := ih h₂
      refine ⟨htaken.trans hrest, fun x hx => ?_⟩
      rcases List.mem_cons.mp hx with rfl | hx
      · exact hrest.kept x i hk
      · exact hks x hx

end Locks
