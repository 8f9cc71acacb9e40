/-
  OneMinute.Communication.Acceptance

  An accept is told of once.

  Every tab and device of the callee rings and may accept.  What is counted is
  the acceptances that were published or that a request still will publish
  (`acceptances`): only the accept that finds the call ringing adds one, and from
  then on the call does not ring.
-/

import OneMinute.Communication.Signals

namespace OneMinute.Communication

open Discovery (UserID UnixMilli)

section
variable {U : UUIDText} {db : Database} {as : List CallAction} {i : Nat} {s s' : CallPool}
  {x x' : Switchboard} {th th' : CallThread}

/-! ## Accepted once -/

/-- The event, or its copy, that tells of the acceptance of `call`. -/
def CallEvent.tellsAccept (copy : Bool) (call : Call) : CallEvent → Bool
  | .action type c _ _ => !copy && decide (type = "accept") && decide (c = call)
  | .copy type c => copy && decide (type = "accept") && decide (c = call)
  | .invited _ => false

/-- A request that still has to publish it. -/
def CallThread.willTellAccept (copy : Bool) (call : Call) : CallThread → Bool
  | .action _ (.emit c b) => decide (b.type = "accept") && decide (c = call)
  | .action _ (.emitSelf c type) => copy && decide (type = "accept") && decide (c = call)
  | .action _ _ | .invite _ _ => false

/-- The acceptances of `call` that were told of or will be. -/
def acceptances (copy : Bool) (call : Call) (x : Switchboard) (threads : List CallThread) : Nat :=
  x.published.countP (fun p => p.event.tellsAccept copy call)
    + threads.countP (CallThread.willTellAccept copy call)

section
variable {copy : Bool} {call : Call}

/-- A turn tells at most what its stage emits. -/
theorem countP_turn (copy : Bool) (call : Call) {d : CallSupply}
    (hturn : th.turn U i d x = some (x', th')) :
    x'.published.countP (fun p => p.event.tellsAccept copy call) ≤
      x.published.countP (fun p => p.event.tellsAccept copy call)
        + if (th.emission d).any (fun e => e.2.tellsAccept copy call) then 1 else 0 := by
  rcases published_turn hturn with hsame | ⟨channel, e, hemission, hcons⟩
  · rw [hsame]
    exact Nat.le_add_right _ _
  · rw [hcons, hemission, List.countP_cons]
    exact le_rfl

/-- The switch itself sends no `accept`. -/
theorem dispatch_tells (r : ActionRequest) (state : Option CallState) (c : Call)
    (b : ActionBody) :
    (CallThread.action r (r.dispatch state c b)).willTellAccept copy call = false := by
  have hdescribe : b.type ≠ "accept" →
      (CallThread.action r (r.describe state c b)).willTellAccept copy call = false := by
    intro hne
    unfold ActionRequest.describe
    split
    · rfl
    · split
      · rfl
      · split
        · rfl
        · simp [CallThread.willTellAccept, hne]
  unfold ActionRequest.dispatch
  split
  · split <;> rfl
  · rfl
  · rfl
  · split <;> rfl
  · next htype => exact hdescribe (by rw [htype]; decide)
  · next htype => exact hdescribe (by rw [htype]; decide)
  · next htype =>
      split
      · rfl
      · split
        · rfl
        · simp [CallThread.willTellAccept, htype]
  · next htype =>
      split
      · rfl
      · split
        · rfl
        · simp [CallThread.willTellAccept, htype]
  · rfl

/-- `emit` tells what it was to tell, and leaves the sender's copy to tell it. -/
theorem tells_emit (copy : Bool) (call : Call) (r : ActionRequest) (c : Call) (b : ActionBody)
    (payload : Json) (now : UnixMilli) :
    (if (CallThread.action r (if isCopied b.type then .emitSelf c b.type
        else .done 200)).willTellAccept copy call then 1 else 0)
      + (if (CallEvent.action b.type c payload now).tellsAccept copy call then 1 else 0) ≤
    if (CallThread.action r (.emit c b)).willTellAccept copy call then 1 else 0 := by
  by_cases haccept : b.type = "accept" ∧ c = call
  · obtain ⟨htype, rfl⟩ := haccept
    have hevent : (CallEvent.action b.type c payload now).tellsAccept copy c = !copy := by
      simp [CallEvent.tellsAccept, htype]
    have hnow : (CallThread.action r (.emit c b)).willTellAccept copy c = true := by
      simp [CallThread.willTellAccept, htype]
    have hnext : (CallThread.action r
        (if isCopied b.type then .emitSelf c b.type else .done 200)).willTellAccept copy c =
          copy := by
      simp [CallThread.willTellAccept, htype, isCopied]
    rw [hevent, hnow, hnext]
    cases copy <;> decide
  · have hevent : (CallEvent.action b.type c payload now).tellsAccept copy call = false := by
      rw [CallEvent.tellsAccept, Bool.and_assoc, ← Bool.decide_and, decide_eq_false haccept,
        Bool.and_false]
    have hnext : (CallThread.action r
        (if isCopied b.type then .emitSelf c b.type else .done 200)).willTellAccept copy call =
          false := by
      split
      · rw [CallThread.willTellAccept, Bool.and_assoc, ← Bool.decide_and,
          decide_eq_false haccept, Bool.and_false]
      · rfl
    rw [hevent, hnext]
    exact Nat.zero_le _

/-- The accept will tell of its call, if that rang. -/
theorem tells_accept (copy : Bool) (call : Call) {d : CallSupply} {r : ActionRequest} {c : Call}
    {b : ActionBody} :
    (CallThread.action r
        (if d.outcome = .ok ∧ (x.calls.store.acceptScript r.id c).reply = 1 then .emit c b
          else .done 409)).willTellAccept copy call = false ∨
      c = call ∧ x.calls.store.state r.id = some .ringing ∧ d.outcome = .ok := by
  split
  · next hdone =>
      by_cases hc : c = call
      · exact Or.inr ⟨hc, ringing_of_accept hdone.2, hdone.1⟩
      · exact Or.inl (by simp [CallThread.willTellAccept, hc])
  · exact Or.inl rfl

/-- An action emits and keeps no acceptance that it was not to tell of, unless it is
    the accept itself. -/
theorem tells_action (copy : Bool) (call : Call) {d : CallSupply} {r : ActionRequest}
    {stage stage' : ActionStage} (hok : r.Ok U db as x i stage)
    (hstep : r.step U i d x stage = some (x', stage')) :
    (if (CallThread.action r stage').willTellAccept copy call then 1 else 0)
        + (if ((CallThread.action r stage).emission d).any
            (fun e => e.2.tellsAccept copy call) then 1 else 0) ≤
      (if (CallThread.action r stage).willTellAccept copy call then 1 else 0) ∨
    ∃ b, stage = .accept call b ∧ x.calls.store.state r.id = some .ringing ∧
      x'.calls = x.calls.after (.accept r.id call) := by
  have hquiet : (CallThread.action r stage).emission d = none →
      (CallThread.action r stage').willTellAccept copy call = false →
      (if (CallThread.action r stage').willTellAccept copy call then 1 else 0)
        + (if ((CallThread.action r stage).emission d).any
            (fun e => e.2.tellsAccept copy call) then 1 else 0) ≤
      (if (CallThread.action r stage).willTellAccept copy call then 1 else 0) := by
    intro hnone hno
    rw [hnone, hno]
    exact Nat.zero_le _
  cases stage with
  | fetch =>
      refine Or.inl (hquiet rfl ?_)
      rw [ActionRequest.step] at hstep
      split at hstep
      · cases hstep
        rfl
      · cases hstep
        split
        · split
          · rfl
          · split
            · rfl
            · rfl
        · rfl
        · rfl
  | peer state c b =>
      cases hstep
      exact Or.inl (hquiet rfl (dispatch_tells _ _ _ _))
  | accept c b =>
      cases hstep
      rcases tells_accept (x := x) (d := d) (r := r) (c := c) (b := b) copy call with
        hno | ⟨rfl, hring, hout⟩
      · exact Or.inl (hquiet rfl hno)
      · refine Or.inr ⟨b, rfl, hring, ?_⟩
        rw [hout]
        rfl
  | finish c b =>
      cases hstep
      refine Or.inl (hquiet rfl ?_)
      have hne : b.type ≠ "accept" := by
        rcases hok.2 with h | ⟨h, -⟩
        · rw [h]
          decide
        · rw [h]
          decide
      simp [CallThread.willTellAccept, hne]
  | heartbeat c =>
      cases hstep
      exact Or.inl (hquiet rfl rfl)
  | emit c b =>
      cases hstep
      exact Or.inl (tells_emit copy call r c b ((b.payload.map RawMessage.value).getD .null) d.now)
  | emitSelf c type =>
      cases hstep
      exact Or.inl ((Nat.zero_add _).le)
  | done status => cases hstep

/-- A turn tells of no acceptance that was not to be told of, unless it is the
    accept itself. -/
theorem tells_turn (copy : Bool) (call : Call) {d : CallSupply} (hok : th.Ok U db as x i)
    (hturn : th.turn U i d x = some (x', th')) :
    x'.published.countP (fun p => p.event.tellsAccept copy call)
        + (if th'.willTellAccept copy call then 1 else 0) ≤
      x.published.countP (fun p => p.event.tellsAccept copy call)
        + (if th.willTellAccept copy call then 1 else 0) ∨
    ∃ r b, th = .action r (.accept call b) ∧ x'.published = x.published ∧
      x.calls.store.state r.id = some .ringing ∧
      x'.calls = x.calls.after (.accept r.id call) := by
  have hcount := countP_turn copy call hturn
  cases th with
  | invite r stage =>
      obtain ⟨⟨y, stage'⟩, -, heq⟩ := Option.map_eq_some_iff.mp hturn
      cases heq
      -- an invitation is no acceptance
      have hno : ((CallThread.invite r stage).emission d).any
          (fun e => e.2.tellsAccept copy call) = false := by
        cases stage <;> rfl
      rw [hno] at hcount
      exact Or.inl hcount
  | action r stage =>
      obtain ⟨⟨y, stage'⟩, hstep, heq⟩ := Option.map_eq_some_iff.mp hturn
      cases heq
      rcases tells_action copy call hok hstep with hle | ⟨b, rfl, hring, hcalls⟩
      · left
        dsimp only at hcount ⊢
        omega
      · rcases published_turn hturn with hsame | ⟨_, _, hemission, -⟩
        · exact Or.inr ⟨r, b, rfl, hsame, hring, hcalls⟩
        · cases hemission

end

section
variable {copy : Bool} {call : Call}

/-- Once the acceptance was told of, the call rings no more. -/
def ToldOnce (copy : Bool) (call : Call) (s : CallPool) : Prop :=
  acceptances copy call s.shared s.threads = 0 ∨
    acceptances copy call s.shared s.threads = 1 ∧ call ∈ s.shared.calls.invited ∧
      ∀ h, s.shared.calls.store.calls.get call.id = some h → h.state = some .active

/-- A hash that does not ring will not ring. -/
theorem active_evolves {w w' : CallWorld} {accepts : CallID → Prop}
    (hevolves : Evolves accepts w w') (hc : call ∈ w.invited)
    (hactive : ∀ h, w.store.calls.get call.id = some h → h.state = some .active) :
    ∀ h, w'.store.calls.get call.id = some h → h.state = some .active := by
  intro h' hget
  rcases hevolves.hash _ h' hget with ⟨h, hh, -, hsame | ⟨-, -, hnew⟩⟩ | ⟨c, -, -, hnew, -⟩
  · rw [hsame]
    exact hactive h hh
  · exact hnew
  · exact absurd rfl (hnew call hc)

theorem toldOnce_of_le {s s' : CallPool} (hs : ToldOnce copy call s)
    (hle : acceptances copy call s'.shared s'.threads ≤ acceptances copy call s.shared s.threads)
    (hevolves : ∃ accepts, Evolves accepts s.shared.calls s'.shared.calls) :
    ToldOnce copy call s' := by
  obtain ⟨accepts, hevolves⟩ := hevolves
  rcases hs with hzero | ⟨hone, hc, hactive⟩
  · exact Or.inl (Nat.le_zero.mp (hzero ▸ hle))
  · rcases Nat.le_one_iff_eq_zero_or_eq_one.mp (hone ▸ hle) with h | h
    · exact Or.inl h
    · exact Or.inr ⟨h, hevolves.mem hc, active_evolves hevolves hc hactive⟩

/-- The accept itself: the call rang, so nothing was told of it. -/
theorem toldOnce_accept {th' : CallThread} {x' : Switchboard} {r : ActionRequest}
    {b : ActionBody} (htold : ToldOnce copy call s) (hok : r.Ok U db as s.shared i (.accept call b))
    (hevolves : ∃ accepts, Evolves accepts s.shared.calls x'.calls)
    (hle : acceptances copy call x' (s.threads.set i th') ≤
      acceptances copy call s.shared s.threads + 1)
    (hring : s.shared.calls.store.state r.id = some .ringing)
    (hcalls : x'.calls = s.shared.calls.after (.accept r.id call)) :
    ToldOnce copy call ⟨x', s.threads.set i th'⟩ := by
  obtain ⟨accepts, hevolves⟩ := hevolves
  obtain ⟨hc, hid, -⟩ := hok.1
  have hzero : acceptances copy call s.shared s.threads = 0 := by
    rcases htold with hzero | ⟨-, -, hactive⟩
    · exact hzero
    · obtain ⟨h, hh, hstate⟩ := exists_hash hring
      rw [hactive h (by rw [hid]; exact hh)] at hstate
      cases hstate
  rw [hzero] at hle
  rcases Nat.le_one_iff_eq_zero_or_eq_one.mp hle with h | h
  · exact Or.inl h
  · refine Or.inr ⟨h, hevolves.mem hc, fun h' hh' => ?_⟩
    have hactive : x'.calls.store.state call.id = some .active := by
      rw [hcalls, hid]
      exact state_accept call hring
    rwa [state_of_some hh'] at hactive

theorem toldOnce_turn {d : CallSupply} {th th' : CallThread} {x' : Switchboard}
    (htold : ToldOnce copy call s) (hs : CallSound U db as s) (hi : s.threads[i]? = some th)
    (hturn : th.turn U i d s.shared = some (x', th'))
    (hevolves : ∃ accepts, Evolves accepts s.shared.calls x'.calls) :
    ToldOnce copy call ⟨x', s.threads.set i th'⟩ := by
  obtain ⟨hlt, hget⟩ := List.getElem?_eq_some_iff.mp hi
  have hcount : (s.threads.set i th').countP (CallThread.willTellAccept copy call) = _ :=
    List.countP_set hlt
  have hpos : (if th.willTellAccept copy call then 1 else 0) ≤
      s.threads.countP (CallThread.willTellAccept copy call) := by
    split
    · next hp => exact List.one_le_countP_iff.mpr ⟨th, hget ▸ List.getElem_mem hlt, hp⟩
    · exact Nat.zero_le _
  rw [hget] at hcount
  rcases tells_turn copy call (hs.threads i th hi) hturn with
    hle | ⟨r, b, rfl, hpublished, hring, hcalls⟩
  · refine toldOnce_of_le htold ?_ hevolves
    show x'.published.countP _ + (s.threads.set i th').countP _ ≤ _
    unfold acceptances
    rw [hcount]
    omega
  · refine toldOnce_accept htold (hs.threads i _ hi) hevolves ?_ hring hcalls
    have hnext : (if th'.willTellAccept copy call then 1 else 0) ≤ 1 := by
      split
      · exact Nat.le_refl 1
      · exact Nat.zero_le 1
    unfold acceptances
    rw [hcount, hpublished]
    omega

theorem toldOnce_of_run (copy : Bool) (call : Call)
    (hrun : (switchboardMachine U db).run as = some s) : ToldOnce copy call s := by
  refine Machine.run_induction (P := fun _ => ToldOnce copy call) (Or.inl rfl) ?_ hrun
  intro as s a s' hrun htold hstep
  have hs := callSound_of_run hrun
  cases a with
  | spawn q =>
      obtain rfl := Option.some.inj hstep
      refine toldOnce_of_le htold (le_of_eq ?_) ⟨fun _ => False, .refl _⟩
      have hstart : (q.start U).willTellAccept copy call = false := by
        cases q with
        | invite r => rfl
        | action r =>
            show (CallThread.action r (if U.parses r.id then .fetch else .done 400)).willTellAccept
              copy call = false
            split
            · rfl
            · rfl
      show _ + (s.threads ++ [q.start U]).countP (CallThread.willTellAccept copy call) = _
      rw [List.countP_append, List.countP_singleton, hstart]
      rfl
  | env e =>
      obtain rfl := Option.some.inj hstep
      obtain ⟨accepts, hevolves, -⟩ := evolves_env s.shared e
      refine toldOnce_of_le htold (le_of_eq ?_) ⟨accepts, hevolves⟩
      unfold acceptances
      rw [published_env]
  | turn i d =>
      obtain ⟨th, x', th', hi, hturn, rfl, hturned⟩ := turned_of_step hs hrun hstep
      obtain ⟨accepts, hevolves, -⟩ := hturned.evolves
      exact toldOnce_turn htold hs hi hturn ⟨accepts, hevolves⟩

/-- However often and from how many tabs a call is accepted, its caller is told
    of it at most once, and so is its callee. -/
theorem accepted_once (hrun : (switchboardMachine U db).run as = some s) :
    (s.shared.published.filter fun p => p.event.tellsAccept copy call).length ≤ 1 := by
  have hle : s.shared.published.countP (fun p => p.event.tellsAccept copy call) ≤
      acceptances copy call s.shared s.threads := Nat.le_add_right _ _
  rw [← List.countP_eq_length_filter]
  rcases toldOnce_of_run copy call hrun with h | ⟨h, -⟩
  · omega
  · omega

end

end

/-- Ben accepts in two tabs, which both have seen the call ring. -/
def twoTabs : List CallAction :=
  ringing ++ [asks "ben" "accept" none, asks "ben" "accept" none] ++ callTurns 1 1 ++ callTurns 2 1
    ++ callTurns 1 4 ++ callTurns 2 2

theorem accepted_once_twoTabs :
    ∃ s, (switchboardMachine canonicalUUIDs annNamed).run twoTabs = some s ∧
      s.shared.published.length = 3 ∧
      (s.shared.published.filter fun p => p.event.tellsAccept false annsCall).length ≤ 1 := by
  have hobs : ((switchboardMachine canonicalUUIDs annNamed).run twoTabs).map (fun s =>
      s.shared.published.length) = some 3 := by
    decide +kernel
  obtain ⟨s, hs, hobs⟩ := Option.map_eq_some_iff.mp hobs
  exact ⟨s, hs, hobs, accepted_once hs⟩

end OneMinute.Communication
