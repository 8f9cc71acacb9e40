/-
  OneMinute.Communication.Beats

  How long an accepted call lives.

  Accept and heartbeat give the hash 75 seconds.  What is left of them is known
  from the run alone: the time since the last beat (`sinceBeat`) and the lifetime
  of the hash add up to 75 seconds (`Beating`).  So an accepted call that nobody
  ends is there exactly as long as no pause between its beats was longer, and a
  beat that comes too late revives nothing.
-/

import OneMinute.Communication.Leases

namespace OneMinute.Communication

open Discovery (UserID)

/-- The milliseconds since the last beat of the call, after `n` of them. -/
def sinceBeat (key : CallID) : Nat → List CallOp → Nat
  | n, [] => n
  | n, .tick d :: ops => sinceBeat key (n + d) ops
  | n, .heartbeat k _ :: ops => sinceBeat key (if k = key then 0 else n) ops
  | n, .invite _ :: ops | n, .fetch _ :: ops | n, .accept _ _ :: ops | n, .finish _ _ :: ops =>
    sinceBeat key n ops

/-- What one operation makes of the time since the last beat. -/
def CallOp.since (key : CallID) (n : Nat) (op : CallOp) : Nat := sinceBeat key n [op]

theorem sinceBeat_cons (key : CallID) (n : Nat) (op : CallOp) (ops : List CallOp) :
    sinceBeat key n (op :: ops) = sinceBeat key (op.since key n) ops := by
  cases op <;> rfl

/-- No pause between beats is longer than the 75 seconds. -/
def Prompt (key : CallID) (n : Nat) (ops : List CallOp) : Prop :=
  ∀ pre, pre <+: ops → sinceBeat key n pre ≤ 75000

theorem prompt_cons {key : CallID} {n : Nat} {op : CallOp} {ops : List CallOp} :
    Prompt key n (op :: ops) ↔ n ≤ 75000 ∧ Prompt key (op.since key n) ops := by
  constructor
  · intro h
    refine ⟨h [] List.nil_prefix, fun pre hpre => ?_⟩
    rw [← sinceBeat_cons]
    exact h (op :: pre) (List.cons_prefix_cons.mpr ⟨rfl, hpre⟩)
  · rintro ⟨hn, h⟩ pre hpre
    rcases List.prefix_cons_iff.mp hpre with rfl | ⟨pre', rfl, hpre'⟩
    · exact hn
    · rw [sinceBeat_cons]
      exact h pre' hpre'

/-- The operation does not end the call. -/
def CallOp.Spares (key : CallID) : CallOp → Prop
  | .finish k _ => k ≠ key
  | .invite _ | .fetch _ | .accept _ _ | .heartbeat _ _ | .tick _ => True

/-- The call is active, and its last beat was `n` milliseconds ago. -/
structure Beating (c : Call) (n : Nat) (w : CallWorld) : Prop where
  prompt : n ≤ 75000
  active : w.store.state c.id = some .active
  lifetime : ∃ T, w.store.calls.expiry c.id = some T ∧ T + n = w.store.clock + 75000

section
variable {w u t : CallWorld} {c : Call} {n : Nat} {op : CallOp} {as bs : List CallOp}

/-- An operation that leaves clock, hash and lifetime alone. -/
theorem Beating.of_same (h : Beating c n w) (hclock : t.store.clock = w.store.clock)
    (hget : t.store.calls.get c.id = w.store.calls.get c.id)
    (hexpiry : t.store.calls.expiry c.id = w.store.calls.expiry c.id) : Beating c n t where
  prompt := h.prompt
  active := by
    unfold CallStore.state
    rw [hget]
    exact h.active
  lifetime := by
    obtain ⟨T, hT, hsum⟩ := h.lifetime
    exact ⟨T, by rw [hexpiry, hT], by rw [hclock, hsum]⟩

/-- The store that an accept leaves, if the call rings. -/
theorem acceptScript_of_ringing {s : CallStore} {key : CallID} {call : Call}
    (h : s.state key = some .ringing) :
    (s.acceptScript key call).store =
      { s with
        calls := (s.calls.modify key {} fun h => { h with state := some .active }).expire key
          (s.ttl 75)
        busy := (s.busy.expire call.caller (s.ttl 80)).expire call.callee (s.ttl 80) } := by
  unfold CallStore.acceptScript
  rw [if_neg (not_not.mpr h)]

theorem ttl_beat (s : CallStore) : s.ttl 75 + 0 = s.clock + 75000 := by
  unfold CallStore.ttl
  omega

theorem beating_of_accept (h : (w.store.acceptScript c.id c).reply = 1) :
    Beating c 0 (w.after (.accept c.id c)) := by
  have hring : w.store.state c.id = some .ringing := by
    by_contra hno
    unfold CallStore.acceptScript at h
    rw [if_pos hno] at h
    exact absurd h Int.zero_ne_one
  have hstore : (w.after (.accept c.id c)).store = _ := acceptScript_of_ringing hring
  have hget : (w.after (.accept c.id c)).store.calls.get c.id =
      some { (w.store.calls.get c.id).getD {} with state := some .active } := by
    rw [hstore, Keyspace.get_expire, Keyspace.get_modify, if_pos rfl]
  refine ⟨Nat.zero_le _, ?_, w.store.ttl 75, ?_, ?_⟩
  · unfold CallStore.state
    rw [hget]
    rfl
  · rw [hstore]
    show ((w.store.calls.modify c.id {} _).expire c.id _).expiry c.id = _
    rw [Keyspace.expiry_expire, if_pos rfl, Keyspace.get_modify, if_pos rfl]
    rfl
  · rw [hstore]
    exact ttl_beat w.store

/-- Time: the hash is there until the 75 seconds are over. -/
theorem Beating.tick (h : Beating c n w) (d : Nat) :
    if n + d ≤ 75000 then Beating c (n + d) (w.after (.tick d))
    else (w.after (.tick d)).store.calls.get c.id = none := by
  obtain ⟨T, hT, hsum⟩ := h.lifetime
  have hget : (w.after (.tick d)).store.calls.get c.id = _ :=
    Keyspace.get_lapse w.store.calls (w.store.clock + d) c.id
  have halive : Keyspace.Alive (w.store.clock + d) (w.store.calls.expiry c.id) ↔
      n + d ≤ 75000 := by
    rw [hT]
    constructor
    · intro h
      have := h T rfl
      omega
    · intro h e he
      obtain rfl := Option.some.inj he
      omega
  split
  · next hle =>
      rw [if_pos (halive.mpr hle)] at hget
      refine ⟨hle, ?_, T, ?_, ?_⟩
      · unfold CallStore.state
        rw [hget]
        exact h.active
      · show (w.store.calls.lapse (w.store.clock + d)).expiry c.id = _
        rw [Keyspace.expiry_lapse, if_pos (halive.mpr hle), hT]
      · show T + (n + d) = w.store.clock + d + 75000
        omega
  · next hlate => rwa [if_neg fun ha => hlate (halive.mp ha)] at hget

/-- One operation: the call goes on beating, unless the pause gets too long. -/
theorem Beating.step (h : Beating c n w) (hc : c ∈ w.invited) (hp : op.Permitted w)
    (hop : op.Spares c.id) :
    if op.since c.id n ≤ 75000 then Beating c (op.since c.id n) (w.after op)
    else (w.after op).store.calls.get c.id = none := by
  cases op with
  | tick d => exact h.tick d
  | invite call =>
      have hother : c.id ≠ call.id := hp.2 c hc
      show if n ≤ 75000 then Beating c n _ else _
      rw [if_pos h.prompt]
      rcases w.store.inviteScript_cases call with hno | ⟨-, -, hyes⟩
      · refine h.of_same ?_ ?_ ?_ <;>
          rw [show (w.after (.invite call)).store = (w.store.inviteScript call).store from rfl, hno]
      · have hstore : (w.after (.invite call)).store = w.store.reserved call :=
          congrArg CallStore.Answer.store hyes
        refine h.of_same (by rw [hstore]; rfl) ?_ ?_
        · rw [hstore, CallStore.reserved, Keyspace.get_expire, Keyspace.get_modify, if_neg hother]
        · rw [hstore, CallStore.reserved, Keyspace.expiry_expire, if_neg hother,
            Keyspace.expiry_modify]
  | fetch key =>
      show if n ≤ 75000 then Beating c n _ else _
      rw [if_pos h.prompt]
      exact h.of_same rfl rfl rfl
  | accept key call =>
      show if n ≤ 75000 then Beating c n _ else _
      rw [if_pos h.prompt]
      by_cases hring : w.store.state key = some .ringing
      · have hother : c.id ≠ key := by
          intro e
          have hactive := h.active
          rw [e, hring] at hactive
          cases hactive
        have hstore : (w.after (.accept key call)).store = _ := acceptScript_of_ringing hring
        refine h.of_same (by rw [hstore]) ?_ ?_
        · rw [hstore, Keyspace.get_expire, Keyspace.get_modify, if_neg hother]
        · rw [hstore, Keyspace.expiry_expire, if_neg hother, Keyspace.expiry_modify]
      · have hstore : (w.after (.accept key call)).store = w.store := by
          show (w.store.acceptScript key call).store = _
          unfold CallStore.acceptScript
          rw [if_pos hring]
        exact h.of_same (by rw [hstore]) (by rw [hstore]) (by rw [hstore])
  | finish key call =>
      have hother : c.id ≠ key := fun e => hop e.symm
      show if n ≤ 75000 then Beating c n _ else _
      rw [if_pos h.prompt]
      refine h.of_same rfl ?_ ?_
      · exact (Keyspace.get_del w.store.calls key c.id).trans (if_neg hother)
      · exact (Keyspace.expiry_del w.store.calls key c.id).trans (if_neg hother)
  | heartbeat key call =>
      show if (if key = c.id then 0 else n) ≤ 75000 then Beating c (if key = c.id then 0 else n) _
        else _
      by_cases hactive : w.store.state key = some .active
      · have hstore : (w.after (.heartbeat key call)).store.calls =
            w.store.calls.expire key (w.store.ttl 75) := by
          show (w.store.heartbeatScript key call).store.calls = _
          unfold CallStore.heartbeatScript
          rw [if_neg (not_not.mpr hactive)]
        have hclock : (w.after (.heartbeat key call)).store.clock = w.store.clock := by
          show (w.store.heartbeatScript key call).store.clock = _
          unfold CallStore.heartbeatScript
          rw [if_neg (not_not.mpr hactive)]
        by_cases hkey : key = c.id
        · subst hkey
          rw [if_pos rfl, if_pos (Nat.zero_le _)]
          obtain ⟨h₀, hh₀, -⟩ := exists_hash hactive
          refine ⟨Nat.zero_le _, ?_, w.store.ttl 75, ?_, by rw [hclock]; exact ttl_beat _⟩
          · unfold CallStore.state
            rw [hstore, Keyspace.get_expire]
            exact hactive
          · rw [hstore, Keyspace.expiry_expire, if_pos rfl, hh₀]
            rfl
        · have hother : c.id ≠ key := fun e => hkey e.symm
          rw [if_neg hkey, if_pos h.prompt]
          refine h.of_same hclock ?_ ?_
          · rw [hstore, Keyspace.get_expire]
          · rw [hstore, Keyspace.expiry_expire, if_neg hother]
      · have hkey : key ≠ c.id := by
          rintro rfl
          exact hactive h.active
        have hstore : (w.after (.heartbeat key call)).store = w.store := by
          show (w.store.heartbeatScript key call).store = _
          unfold CallStore.heartbeatScript
          rw [if_pos hactive]
        rw [if_neg hkey, if_pos h.prompt]
        exact h.of_same (by rw [hstore]) (by rw [hstore]) (by rw [hstore])

/-- A beating call over a run: it is active at the end if no pause was too long,
    and gone otherwise. -/
theorem Beating.runFrom (h : Beating c n w) (hc : c ∈ w.invited)
    (hrest : callMachine.runFrom w bs = some t) (hspared : ∀ op ∈ bs, op.Spares c.id) :
    (Prompt c.id n bs → t.store.state c.id = some .active) ∧
      (¬ Prompt c.id n bs → t.store.calls.get c.id = none) := by
  induction bs generalizing w n with
  | nil =>
      cases hrest
      refine ⟨fun _ => h.active, fun hlate => absurd ?_ hlate⟩
      intro pre hpre
      rw [List.prefix_nil.mp hpre]
      exact h.prompt
  | cons op bs ih =>
      obtain ⟨u, hstep, hrest⟩ := Machine.runFrom_cons_eq_some.mp hrest
      obtain ⟨hp, rfl⟩ := callStep_eq_some.mp hstep
      have hnext := h.step hc hp (hspared op List.mem_cons_self)
      have hc' := invited_after w op hc
      rw [prompt_cons]
      by_cases hle : op.since c.id n ≤ 75000
      · rw [if_pos hle] at hnext
        have hspared' : ∀ o ∈ bs, o.Spares c.id :=
          fun o ho => hspared o (List.mem_cons_of_mem _ ho)
        obtain ⟨halive, hlate⟩ := ih hnext hc' hrest hspared'
        exact ⟨fun hprompt => halive hprompt.2,
          fun hno => hlate fun hprompt => hno ⟨h.prompt, hprompt⟩⟩
      · rw [if_neg hle] at hnext
        have hgone : t.store.calls.get c.id = none := by
          by_contra hback
          obtain ⟨h₁, hh₁⟩ := Option.ne_none_iff_exists'.mp hback
          exact settled_of_runFrom (Q := fun _ => False) (fun _ _ hf _ => hf) hrest hc'
            (fun h hh => by rw [hnext] at hh; cases hh) h₁ hh₁
        exact ⟨fun hprompt => absurd (hprompt.2 [] List.nil_prefix) hle, fun _ => hgone⟩

/-- In every run: a call that was accepted, and that nobody ends, is active and
    holds both its users exactly as long as no 75 seconds have passed without a
    heartbeat; after a longer pause it is gone, whatever beats come later. -/
theorem accepted_call_lives_iff (hrun : callMachine.run as = some w)
    (hp : (CallOp.accept c.id c).Permitted w) (hreply : (w.store.acceptScript c.id c).reply = 1)
    (hrest : callMachine.runFrom (w.after (.accept c.id c)) bs = some t)
    (hspared : ∀ op ∈ bs, op.Spares c.id) :
    (Prompt c.id 0 bs ↔ t.store.state c.id = some .active) ∧
      (Prompt c.id 0 bs → t.store.Holds c.id c.caller ∧ t.store.Holds c.id c.callee) ∧
      (¬ Prompt c.id 0 bs → t.store.calls.get c.id = none) := by
  have hw := leased_of_run hrun
  obtain ⟨hc, -⟩ := hw.fetched c.id c hp
  have hleased : Leased (w.after (.accept c.id c)) := leased_after hw hp
  have hc' := invited_after w (.accept c.id c) hc
  obtain ⟨halive, hlate⟩ := (beating_of_accept hreply).runFrom hc' hrest hspared
  have htrun : callMachine.run (as ++ .accept c.id c :: bs) = some t :=
    (Machine.runFrom_append_iff hrun).mpr
      (Machine.runFrom_cons_eq_some.mpr ⟨_, callStep_eq_some.mpr ⟨hp, rfl⟩, hrest⟩)
  have ht := leased_of_run htrun
  have hct : c ∈ t.invited := by
    refine Machine.runFrom_invariant (P := fun v => c ∈ v.invited) ?_ hrest hc'
    intro v op v' hv hstep
    obtain ⟨-, rfl⟩ := callStep_eq_some.mp hstep
    exact invited_after v op hv
  refine ⟨⟨halive, fun hactive => ?_⟩, fun hprompt => ?_, hlate⟩
  · by_contra hno
    obtain ⟨h, hh, -⟩ := exists_hash hactive
    rw [hlate hno] at hh
    cases hh
  · obtain ⟨h, hh, -⟩ := exists_hash (halive hprompt)
    have hlive : t.store.calls.get c.id ≠ none := by
      rw [hh]
      simp
    exact ⟨ht.lease c hct hlive _ (Or.inl rfl), ht.lease c hct hlive _ (Or.inr rfl)⟩

end

/-- Ann's call, which Ben has seen. -/
def rung : List CallOp := [.invite annCallsBen, .tick 10000, .fetch "k1"]

/-- Beats after 60 and 70 seconds. -/
def beats : List CallOp :=
  [.tick 60000, .heartbeat "k1" annCallsBen, .tick 70000, .heartbeat "k1" annCallsBen, .tick 75000]

theorem accepted_call_lives_iff_beats : ∃ w t, callMachine.run rung = some w ∧
    callMachine.runFrom (w.after (.accept "k1" annCallsBen)) beats = some t ∧
    t.store.state "k1" = some .active ∧ Prompt "k1" 0 beats := by
  have hobs : (callMachine.run rung).bind (fun w =>
      (callMachine.runFrom (w.after (.accept "k1" annCallsBen)) beats).map fun t =>
        decide ((CallOp.accept "k1" annCallsBen).Permitted w ∧
          (w.store.acceptScript "k1" annCallsBen).reply = 1 ∧
          t.store.state "k1" = some .active)) = some true := by
    decide +kernel
  obtain ⟨w, hw, hobs⟩ := Option.bind_eq_some_iff.mp hobs
  obtain ⟨t, ht, hobs⟩ := Option.map_eq_some_iff.mp hobs
  obtain ⟨hp, hreply, hactive⟩ := of_decide_eq_true hobs
  have hspared : ∀ op ∈ beats, op.Spares annCallsBen.id := by
    simp [beats, CallOp.Spares]
  exact ⟨w, t, hw, ht, hactive,
    (accepted_call_lives_iff hw hp hreply ht hspared).1.mpr hactive⟩

end OneMinute.Communication
