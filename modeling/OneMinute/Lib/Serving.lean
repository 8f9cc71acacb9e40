/-
  OneMinute.Lib.Serving

  One sequential request in an arbitrary environment.

  A request stands at a stage; its call `k` is supplied with `w k`, in which the
  state that the call finds may be a part, and has an effect.  Nothing relates
  what one call finds to what the one before it left, so whatever holds here
  holds however others run between the calls.

    * `stageAt` — where the request stands before its call `k`;
    * `Does`    — its call `k` has an effect;
    * `stageAt_induction` — what each call keeps, counted by calls.
-/

import Mathlib.Data.Option.Basic

namespace Serving

variable {τ δ ε : Type _}

/-- Where the request stands before its call `k`, unless it is done. -/
def stageAt (step : δ → τ → Option (ε × τ)) (start : τ) (w : Nat → δ) : Nat → Option τ
  | 0 => some start
  | k + 1 => (stageAt step start w k).bind fun st => (step (w k) st).map Prod.snd

/-- Call `k` has the effect `e`. -/
def Does (step : δ → τ → Option (ε × τ)) (start : τ) (w : Nat → δ) (k : Nat) (e : ε) : Prop :=
  ∃ st st', stageAt step start w k = some st ∧ step (w k) st = some (e, st')

variable {step : δ → τ → Option (ε × τ)} {start : τ} {w : Nat → δ} {k : Nat}

theorem stageAt_succ {st st' : τ} {e : ε} (h : stageAt step start w k = some st)
    (hstep : step (w k) st = some (e, st')) : stageAt step start w (k + 1) = some st' := by
  rw [stageAt, h, Option.bind_some, hstep, Option.map_some]

theorem stageAt_induction {P : Nat → τ → Prop} (h0 : P 0 start)
    (hstep : ∀ k st e st', P k st → step (w k) st = some (e, st') → P (k + 1) st')
    {st : τ} (h : stageAt step start w k = some st) : P k st := by
  induction k generalizing st with
  | zero =>
      cases h
      exact h0
  | succ k ih =>
      obtain ⟨st₀, hst₀, hmap⟩ := Option.bind_eq_some_iff.mp h
      obtain ⟨⟨e, st₁⟩, hturn, rfl⟩ := Option.map_eq_some_iff.mp hmap
      exact hstep k st₀ e st₁ (ih hst₀) hturn

end Serving
