/-
  OneMinute.Communication.Invites

  An invite beyond its reservation: the INSERT of the notification, and the DEL
  that takes the reservation back when the INSERT fails.

  The DEL comes in a call of its own, on the context of the request, and does not
  compare what the busy keys hold.  So a failed invite takes back exactly its own
  reservation if and only if the DEL takes effect before another call has one of
  the keys, or is lost when the keys are gone already
  (`failed_invites_roll_back_iff`).  A DEL within the 50 seconds of the lease, on
  a call that nobody else touches, is of the first kind (`rollback_in_time`).
-/

import OneMinute.Communication.Leases
import OneMinute.Lib.Threads

namespace OneMinute.Communication

open Discovery (UserID)

/-! ## Threads -/

/-- How a call to Redis or to the database goes. -/
inductive Outcome where
  | ok
  /-- It takes effect, and the reply is lost. -/
  | lost
  | failed
  /-- The request's context is cancelled; so it fails without effect. -/
  | cancelled
deriving DecidableEq, Repr

def Outcome.effective : Outcome → Bool
  | .ok | .lost => true
  | .failed | .cancelled => false

inductive InviteStage where
  | reserve
  | insert
  /-- The INSERT failed; the context may be cancelled by now. -/
  | rollback (cancelled : Bool)
  | done (status : Nat)
deriving DecidableEq, Repr

/-- An invite from its reservation on. -/
structure InviteThread where
  call : Call
  stage : InviteStage
deriving DecidableEq, Repr

/-- DEL of the hash and of both busy keys. -/
def CallStore.rollback (s : CallStore) (call : Call) : CallStore :=
  { s with calls := s.calls.del call.id, busy := (s.busy.del call.caller).del call.callee }

/-- The DEL takes effect. -/
def rollbackEffective (cancelled : Bool) (d : Outcome) : Bool := !cancelled && d.effective

def InviteThread.turn (d : Outcome) (w : CallWorld) (th : InviteThread) :
    Option (CallWorld × InviteThread) :=
  match th.stage with
  | .reserve =>
    if (CallOp.invite th.call).Permitted w then
      let w' := if d.effective then w.after (.invite th.call) else w
      if d = .ok ∧ (w.store.inviteScript th.call).reply = 1 then
        some (w', { th with stage := .insert })
      else some (w', { th with stage := .done 409 })
    else none
  | .insert =>
    if d = .ok then some (w, { th with stage := .done 200 })
    else some (w, { th with stage := .rollback (decide (d = .cancelled)) })
  | .rollback cancelled =>
    let w' :=
      if rollbackEffective cancelled d then { w with store := w.store.rollback th.call } else w
    some (w', { th with stage := .done 500 })
  | .done _ => none

/-- Invites, with the requests of `callAction` and time around them. -/
def invites : Threads CallWorld InviteThread Call Outcome CallOp where
  start := fun call => ⟨call, .reserve⟩
  turn := fun _ => InviteThread.turn
  env := fun op w => callMachine.step w op

abbrev InvitePool := Pool CallWorld InviteThread

abbrev InviteAction := Schedule Call Outcome CallOp

def inviteMachine : Machine InvitePool InviteAction := invites.machine .empty

/-! ## Taking a reservation back -/

/-- Between `s` and `s'` the reservation of `call` was taken back, and nothing
    else. -/
structure RolledBack (call : Call) (s s' : CallStore) : Prop where
  caller : s'.busy.get call.caller ≠ some call.id
  callee : s'.busy.get call.callee ≠ some call.id
  hash : s'.calls.get call.id = none
  others : ∀ u id, s.busy.get u = some id → id ≠ call.id → s'.busy.get u = some id

/-- The busy key of `u` does not hold another call's id. -/
def NotRetaken (call : Call) (s : CallStore) (u : UserID) : Prop :=
  ∀ id ∈ s.busy.get u, id = call.id

/-- The condition on the store in which the DEL is sent. -/
def RollbackSafe (call : Call) (effective : Bool) (s : CallStore) : Prop :=
  if effective then NotRetaken call s call.caller ∧ NotRetaken call s call.callee
  else s.busy.get call.caller ≠ some call.id ∧ s.busy.get call.callee ≠ some call.id ∧
    s.calls.get call.id = none

/-- The DEL that a step is, if it is one: the call of the invite, which returns
    with it, and whether it takes effect. -/
def delOf (u : InvitePool) : InviteAction → Option (Call × Bool)
  | .turn i d =>
    u.threads[i]?.bind fun th =>
      match th.stage with
      | .rollback cancelled => some (th.call, rollbackEffective cancelled d)
      | .reserve | .insert | .done _ => none
  | .spawn _ | .env _ => none

def TakesBack (u : InvitePool) (a : InviteAction) (v : InvitePool) : Prop :=
  ∀ del ∈ delOf u a, RolledBack del.1 u.shared.store v.shared.store

def SafeDel (u : InvitePool) (a : InviteAction) : Prop :=
  ∀ del ∈ delOf u a, RollbackSafe del.1 del.2 u.shared.store

instance (call : Call) (s : CallStore) (u : UserID) : Decidable (NotRetaken call s u) :=
  inferInstanceAs (Decidable (∀ id ∈ s.busy.get u, id = call.id))

instance (call : Call) (effective : Bool) (s : CallStore) :
    Decidable (RollbackSafe call effective s) := by
  unfold RollbackSafe
  infer_instance

instance (u : InvitePool) (a : InviteAction) : Decidable (SafeDel u a) :=
  inferInstanceAs (Decidable (∀ del ∈ delOf u a, _))

section
variable {s s' : CallStore} {call : Call} {u v : InvitePool} {a : InviteAction}

theorem busy_rollback (s : CallStore) (call : Call) (x : UserID) :
    (s.rollback call).busy.get x =
      if x = call.callee then none else if x = call.caller then none else s.busy.get x := by
  unfold CallStore.rollback
  rw [Keyspace.get_del, Keyspace.get_del]

theorem rolledBack_iff_of_effective :
    RolledBack call s (s.rollback call) ↔ RollbackSafe call true s := by
  rw [RollbackSafe, if_pos rfl]
  constructor
  · intro h
    constructor
    · intro id hid
      by_contra hne
      have hkept := h.others call.caller id hid hne
      rw [busy_rollback, if_pos rfl, ite_self] at hkept
      cases hkept
    · intro id hid
      by_contra hne
      have hkept := h.others call.callee id hid hne
      rw [busy_rollback, if_pos rfl] at hkept
      cases hkept
  · rintro ⟨hcaller, hcallee⟩
    refine ⟨?_, ?_, ?_, ?_⟩
    · rw [busy_rollback, if_pos rfl, ite_self]
      exact Option.some_ne_none _ |>.symm
    · rw [busy_rollback, if_pos rfl]
      exact Option.some_ne_none _ |>.symm
    · exact (Keyspace.get_del _ _ _).trans (if_pos rfl)
    · intro x id hid hne
      have h1 : x ≠ call.callee := by
        rintro rfl
        exact hne (hcallee id hid)
      have h2 : x ≠ call.caller := by
        rintro rfl
        exact hne (hcaller id hid)
      rw [busy_rollback, if_neg h1, if_neg h2]
      exact hid

theorem rolledBack_iff_of_lost : RolledBack call s s ↔ RollbackSafe call false s := by
  rw [RollbackSafe, if_neg Bool.false_ne_true]
  exact ⟨fun h => ⟨h.caller, h.callee, h.hash⟩, fun h => ⟨h.1, h.2.1, h.2.2, fun _ _ hid _ => hid⟩⟩

theorem delOf_eq_some {del : Call × Bool} (h : delOf u a = some del) :
    ∃ i d cancelled, a = .turn i d ∧ u.threads[i]? = some ⟨del.1, .rollback cancelled⟩ ∧
      del.2 = rollbackEffective cancelled d := by
  cases a with
  | spawn r => cases h
  | env op => cases h
  | turn i d =>
      obtain ⟨⟨call, stage⟩, hth, h⟩ := Option.bind_eq_some_iff.mp h
      cases stage with
      | rollback cancelled =>
          obtain rfl := Option.some.inj h
          exact ⟨i, d, cancelled, rfl, hth, rfl⟩
      | reserve | insert | done => cases h

/-- One DEL. -/
theorem takesBack_iff (hstep : inviteMachine.step u a = some v) :
    TakesBack u a v ↔ SafeDel u a := by
  refine forall_congr' fun del => forall_congr' fun hdel => ?_
  obtain ⟨call, effective⟩ := del
  obtain ⟨i, d, cancelled, rfl, hi, (rfl : effective = _)⟩ := delOf_eq_some hdel
  obtain ⟨th, x', th', hth, hturn, rfl⟩ := Threads.step_turn hstep
  obtain rfl := Option.some.inj (hi.symm.trans hth)
  obtain ⟨rfl, -⟩ := Prod.mk.inj (Option.some.inj hturn)
  show RolledBack call u.shared.store
    (if rollbackEffective cancelled d then _ else _ : CallWorld).store ↔ _
  cases rollbackEffective cancelled d with
  | true => exact rolledBack_iff_of_effective
  | false => exact rolledBack_iff_of_lost

end

/-- In every run of invites, call actions and time, whatever fails and however
    long it takes: every invite whose INSERT failed takes back exactly its own
    reservation if and only if every DEL of the run either takes effect while
    neither busy key holds another call's id, or is lost while the keys do not
    hold this call's id and the hash is gone. -/
theorem failed_invites_roll_back_iff {as : List InviteAction} {t : InvitePool}
    (hrun : inviteMachine.run as = some t) :
    (∀ u a v, inviteMachine.Taken as u a v → TakesBack u a v) ↔
      inviteMachine.Along SafeDel inviteMachine.init as := by
  constructor
  · intro h pre a post u hsplit hpre
    obtain ⟨u', hu', hrest⟩ := Machine.runFrom_append_eq_some.mp (hsplit ▸ hrun)
    obtain rfl := Option.some.inj (hpre.symm.trans hu')
    obtain ⟨v, hstep, -⟩ := Machine.runFrom_cons_eq_some.mp hrest
    exact (takesBack_iff hstep).mp (h u a v ⟨pre, post, hsplit, hpre, hstep⟩)
  · rintro h u a v ⟨pre, post, hsplit, hpre, hstep⟩
    exact (takesBack_iff hstep).mpr (h pre a post u hsplit hpre)

/-! ## In time -/

/-- The busy key of `x` holds `id` and does not lapse before `T`. -/
def KeyHeld (busy : Keyspace UserID CallID) (x : UserID) (id : CallID) (T : Nat) : Prop :=
  busy.get x = some id ∧ ∃ e, busy.expiry x = some e ∧ T ≤ e

/-- The keys of `call`, reserved at `start`, are still there. -/
structure Reserved (call : Call) (start : Nat) (s : CallStore) : Prop where
  since : start ≤ s.clock
  keys : ∀ x, call.Has x → KeyHeld s.busy x call.id (start + 50000)

/-- The step does not come too late for `call`, does not end it, and is not the
    DEL of another invite of one of its users. -/
def LeavesReserved (call : Call) (start : Nat) (u : InvitePool) : InviteAction → Prop
  | .env (.tick d) => u.shared.store.clock + d ≤ start + 50000
  | .env (.finish _ c) => c.id ≠ call.id
  | .turn j _ => ∀ c cancelled, u.threads[j]? = some ⟨c, .rollback cancelled⟩ →
      ∀ x, call.Has x → ¬ c.Has x
  | .env (.invite _) | .env (.fetch _) | .env (.accept _ _) | .env (.heartbeat _ _) | .spawn _ =>
    True

namespace KeyHeld

variable {busy : Keyspace UserID CallID} {x y : UserID} {id id' : CallID} {T t : Nat}

theorem put (h : KeyHeld busy x id T) (hne : x ≠ y) (id' : CallID) (e : Option Nat) :
    KeyHeld (busy.put y id' e) x id T := by
  unfold KeyHeld
  rw [Keyspace.get_put, Keyspace.expiry_put, if_neg hne, if_neg hne]
  exact h

theorem del (h : KeyHeld busy x id T) (hne : x ≠ y) : KeyHeld (busy.del y) x id T := by
  unfold KeyHeld
  rw [Keyspace.get_del, Keyspace.expiry_del, if_neg hne, if_neg hne]
  exact h

theorem expire (h : KeyHeld busy x id T) (ht : T ≤ t) (y : UserID) :
    KeyHeld (busy.expire y t) x id T := by
  unfold KeyHeld
  rw [Keyspace.get_expire, Keyspace.expiry_expire]
  refine ⟨h.1, ?_⟩
  split
  · rw [h.1]
    exact ⟨t, rfl, ht⟩
  · exact h.2

theorem lapse (h : KeyHeld busy x id T) (ht : t ≤ T) : KeyHeld (busy.lapse t) x id T := by
  obtain ⟨hget, e, he, hle⟩ := h
  have halive : Keyspace.Alive t (busy.expiry x) := by
    intro e' he'
    rw [he] at he'
    obtain rfl := Option.some.inj he'
    exact Nat.le_trans ht hle
  unfold KeyHeld
  rw [Keyspace.get_lapse, Keyspace.expiry_lapse, if_pos halive, if_pos halive]
  exact ⟨hget, e, he, hle⟩

/-- Freeing another call's keys. -/
theorem free (h : KeyHeld busy x id T) (hne : id' ≠ id) (y : UserID) :
    KeyHeld (CallStore.free id' busy y) x id T := by
  unfold CallStore.free
  split
  · next hy =>
      refine h.del fun hxy => hne ?_
      rw [← hxy, h.1] at hy
      exact (Option.some.inj hy).symm
  · exact h

theorem renew (h : KeyHeld busy x id T) (ht : T ≤ t) (id' : CallID) (y : UserID) :
    KeyHeld (CallStore.renew id' t busy y) x id T := by
  unfold CallStore.renew
  split
  · exact h.expire ht y
  · split
    · next hy =>
        refine h.put (fun hxy => ?_) _ _
        rw [← hxy, h.1] at hy
        cases hy
    · exact h

end KeyHeld

section
variable {call : Call} {start : Nat} {s : CallStore} {w : CallWorld}

theorem Reserved.ttl_le (h : Reserved call start s) : start + 50000 ≤ s.ttl 80 := by
  have := h.since
  unfold CallStore.ttl
  omega

theorem reserved_of_invite (h : (s.inviteScript call).reply = 1) :
    Reserved call s.clock (s.inviteScript call).store := by
  rcases CallStore.inviteScript_cases s call with hno | ⟨-, -, hyes⟩
  · rw [hno] at h
    cases h
  · rw [hyes]
    refine ⟨Nat.le_refl _, fun x hx => ?_⟩
    unfold KeyHeld CallStore.reserved
    rw [Keyspace.get_put, Keyspace.get_put, Keyspace.expiry_put, Keyspace.expiry_put]
    have hle : s.clock + 50000 ≤ s.ttl 50 := by
      unfold CallStore.ttl
      omega
    by_cases hcallee : x = call.callee
    · rw [if_pos hcallee, if_pos hcallee]
      exact ⟨rfl, _, rfl, hle⟩
    · have hcaller : x = call.caller := (hx.resolve_right fun e => hcallee e.symm).symm
      rw [if_neg hcallee, if_neg hcallee, if_pos hcaller, if_pos hcaller]
      exact ⟨rfl, _, rfl, hle⟩

theorem Reserved.invite (h : Reserved call start s) (c : Call) :
    Reserved call start (s.inviteScript c).store := by
  rcases CallStore.inviteScript_cases s c with hno | ⟨hcaller, hcallee, hyes⟩
  · rw [hno]
    exact h
  · rw [hyes]
    refine ⟨h.since, fun x hx => ?_⟩
    have hbusy := h.keys x hx
    refine (hbusy.put ?_ _ _).put ?_ _ _
    · rintro rfl
      rw [hbusy.1] at hcaller
      cases hcaller
    · rintro rfl
      rw [hbusy.1] at hcallee
      cases hcallee

theorem Reserved.rollback (h : Reserved call start s) {c : Call}
    (hother : ∀ x, call.Has x → ¬ c.Has x) : Reserved call start (s.rollback c) := by
  refine ⟨h.since, fun x hx => ((h.keys x hx).del ?_).del ?_⟩
  · exact fun e => hother x hx (Or.inl e.symm)
  · exact fun e => hother x hx (Or.inr e.symm)

/-- A request of `callAction`, or time. -/
theorem Reserved.env (h : Reserved call start w.store) {u : InvitePool} {op : CallOp}
    (hu : u.shared = w) (hquiet : LeavesReserved call start u (.env op)) :
    Reserved call start (w.after op).store := by
  cases op with
  | invite c => exact h.invite c
  | fetch key => exact h
  | accept key c =>
      show Reserved call start (w.store.acceptScript key c).store
      unfold CallStore.acceptScript
      split
      · exact h
      · exact ⟨h.since, fun x hx => ((h.keys x hx).expire h.ttl_le _).expire h.ttl_le _⟩
  | finish key c => exact ⟨h.since, fun x hx => ((h.keys x hx).free hquiet _).free hquiet _⟩
  | heartbeat key c =>
      show Reserved call start (w.store.heartbeatScript key c).store
      unfold CallStore.heartbeatScript
      split
      · exact h
      · exact ⟨h.since, fun x hx => ((h.keys x hx).renew h.ttl_le _ _).renew h.ttl_le _ _⟩
  | tick d =>
      subst hu
      exact ⟨Nat.le_trans h.since (Nat.le_add_right _ _), fun x hx => (h.keys x hx).lapse hquiet⟩

theorem Reserved.step {u v : InvitePool} {a : InviteAction}
    (h : Reserved call start u.shared.store) (hquiet : LeavesReserved call start u a)
    (hstep : inviteMachine.step u a = some v) : Reserved call start v.shared.store := by
  cases a with
  | spawn r =>
      obtain rfl := Option.some.inj hstep
      exact h
  | env op =>
      obtain ⟨w, henv, rfl⟩ := Option.map_eq_some_iff.mp hstep
      obtain ⟨-, rfl⟩ := callStep_eq_some.mp henv
      exact h.env rfl hquiet
  | turn j d =>
      obtain ⟨⟨c, stage⟩, w, th', hth, hturn, rfl⟩ := Threads.step_turn hstep
      cases stage with
      | reserve =>
          obtain ⟨-, hturn⟩ := Option.ite_none_right_eq_some.mp hturn
          have hw : w = if d.effective then u.shared.after (.invite c) else u.shared := by
            split at hturn
            · exact (Prod.mk.inj (Option.some.inj hturn)).1.symm
            · exact (Prod.mk.inj (Option.some.inj hturn)).1.symm
          show Reserved call start w.store
          rw [hw]
          split
          · exact h.invite c
          · exact h
      | insert =>
          have hw : w = u.shared := by
            unfold invites InviteThread.turn at hturn
            dsimp only at hturn
            split at hturn
            · exact (Prod.mk.inj (Option.some.inj hturn)).1.symm
            · exact (Prod.mk.inj (Option.some.inj hturn)).1.symm
          show Reserved call start w.store
          rw [hw]
          exact h
      | rollback cancelled =>
          obtain ⟨rfl, -⟩ := Prod.mk.inj (Option.some.inj hturn)
          show Reserved call start
            (if rollbackEffective cancelled d then _ else _ : CallWorld).store
          split
          · exact h.rollback (hquiet c cancelled hth)
          · exact h
      | done status => cases hturn

/-- The reservation of an invite that goes on to its INSERT. -/
theorem reserved_of_step {r r' : InvitePool} {i : Nat} {d : Outcome}
    (hi : r.threads[i]? = some ⟨call, .reserve⟩)
    (hstep : inviteMachine.step r (.turn i d) = some r')
    (hi' : r'.threads[i]? = some ⟨call, .insert⟩) :
    Reserved call r.shared.store.clock r'.shared.store := by
  obtain ⟨th, w, th', hth, hturn, rfl⟩ := Threads.step_turn hstep
  obtain rfl := Option.some.inj (hi.symm.trans hth)
  obtain ⟨-, hturn⟩ := Option.ite_none_right_eq_some.mp hturn
  rcases Threads.getElem?_set_cases hi' with ⟨-, rfl⟩ | ⟨hne, -⟩
  · split at hturn
    · next hreply =>
        obtain ⟨rfl, -⟩ := Prod.mk.inj (Option.some.inj hturn)
        obtain ⟨rfl, hreply⟩ := hreply
        exact reserved_of_invite hreply
    · obtain ⟨-, hth'⟩ := Prod.mk.inj (Option.some.inj hturn)
      cases hth'
  · exact absurd rfl hne

/-- A DEL that takes effect within the 50 seconds of the lease, while nobody ends
    the call and no other invite of its users is taken back, takes back exactly
    its own reservation. -/
theorem rollback_in_time {r r' u v : InvitePool} {i : Nat} {d d' : Outcome}
    {bs : List InviteAction} (hi : r.threads[i]? = some ⟨call, .reserve⟩)
    (hreserve : inviteMachine.step r (.turn i d) = some r')
    (hi' : r'.threads[i]? = some ⟨call, .insert⟩)
    (hrun : inviteMachine.runFrom r' bs = some u)
    (hquiet : inviteMachine.Along (LeavesReserved call r.shared.store.clock) r' bs)
    (hu : u.threads[i]? = some ⟨call, .rollback false⟩) (heffective : d'.effective = true)
    (hdel : inviteMachine.step u (.turn i d') = some v) :
    RolledBack call u.shared.store v.shared.store := by
  have hreserved : Reserved call r.shared.store.clock u.shared.store :=
    Machine.runFrom_invariant_along
      (P := fun x : InvitePool => Reserved call r.shared.store.clock x.shared.store)
      (fun _ _ _ h hC hstep => h.step hC hstep) hrun hquiet (reserved_of_step hi hreserve hi')
  have hdelOf : delOf u (.turn i d') = some (call, true) := by
    refine Option.bind_eq_some_iff.mpr ⟨_, hu, ?_⟩
    show some (call, rollbackEffective false d') = _
    rw [rollbackEffective, heffective]
    rfl
  have hsafe : SafeDel u (.turn i d') := by
    intro del h
    rw [hdelOf] at h
    obtain rfl := Option.some.inj h
    refine ⟨fun id hid => ?_, fun id hid => ?_⟩
    · exact Option.some.inj (hid.symm.trans (hreserved.keys _ (Or.inl rfl)).1)
    · exact Option.some.inj (hid.symm.trans (hreserved.keys _ (Or.inr rfl)).1)
  exact (takesBack_iff hdel).mpr hsafe _ hdelOf

end

/-! ## Two runs -/

/-- The INSERT fails, and the DEL comes at once. -/
def refused : List InviteAction := [.spawn annCallsBen, .turn 0 .ok, .turn 0 .failed, .turn 0 .ok]

theorem failed_invites_roll_back_iff_refused : ∃ t, inviteMachine.run refused = some t ∧
    ∀ u a v, inviteMachine.Taken refused u a v → TakesBack u a v := by
  obtain ⟨t, ht⟩ := Option.isSome_iff_exists.mp
    (by decide +kernel : (inviteMachine.run refused).isSome = true)
  have hsafe : inviteMachine.Along SafeDel inviteMachine.init refused := by decide +kernel
  exact ⟨t, ht, (failed_invites_roll_back_iff ht).mpr hsafe⟩

/-- The request is cancelled during the INSERT. -/
def hungUp : List InviteAction := [.spawn annCallsBen, .turn 0 .ok, .turn 0 .cancelled]

/-- Ann is still busy with a call that nobody was told about. -/
theorem not_rolled_back_hungUp : ¬ ∀ as t, inviteMachine.run as = some t →
    ∀ u a v, inviteMachine.Taken as u a v → TakesBack u a v := by
  intro h
  have hobs : (inviteMachine.run hungUp).map (fun u =>
      (delOf u (.turn 0 .ok),
        (inviteMachine.step u (.turn 0 .ok)).map fun v => v.shared.store.busy.get "ann")) =
          some (some (annCallsBen, false), some (some "k1")) := by
    decide +kernel
  obtain ⟨u, hu, hobs⟩ := Option.map_eq_some_iff.mp hobs
  obtain ⟨hdel, hobs⟩ := Prod.mk.inj hobs
  obtain ⟨v, hv, hbusy⟩ := Option.map_eq_some_iff.mp hobs
  have hrun : inviteMachine.run (hungUp ++ [.turn 0 .ok]) = some v :=
    Machine.runFrom_concat_eq_some.mpr ⟨u, hu, hv⟩
  have hback := h _ v hrun u (.turn 0 .ok) v ⟨hungUp, [], rfl, hu, hv⟩
  exact (hback _ hdel).caller hbusy

end OneMinute.Communication
