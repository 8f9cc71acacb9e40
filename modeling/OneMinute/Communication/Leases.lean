/-
  OneMinute.Communication.Leases

  A live call has both its users to itself.

  The invariant (`Leased`) is on remaining lifetimes: as long as a call's hash
  is there, the busy keys of both users hold the call's id and expire later
  than the hash.  Invite sets 45 against 50 seconds; accept and heartbeat set 75
  against 80 and, since the keys are still there and hold the id, only renew
  them.  So a second invite of either user is refused until the hash is gone,
  and what is gone stays gone, for its id is never drawn again.
-/

import OneMinute.Communication.Calls

namespace OneMinute.Communication

open Discovery (UserID)

/-- `u` is the caller or the callee. -/
def Call.Has (c : Call) (u : UserID) : Prop := c.caller = u ∨ c.callee = u

instance (c : Call) (u : UserID) : Decidable (c.Has u) := inferInstanceAs (Decidable (_ ∨ _))

/-- `u`'s busy key holds the call's id and outlives the call's hash. -/
def CallStore.Holds (s : CallStore) (id : CallID) (u : UserID) : Prop :=
  s.busy.get u = some id ∧
    ∃ T t, s.calls.expiry id = some T ∧ s.busy.expiry u = some t ∧ T < t

structure Leased (w : CallWorld) : Prop where
  /-- A call is between two users. -/
  distinct : ∀ c ∈ w.invited, c.caller ≠ c.callee
  /-- An id is of one call. -/
  unique : ∀ c ∈ w.invited, ∀ c' ∈ w.invited, c.id = c'.id → c = c'
  /-- A hash has the data of its call, and a state. -/
  hash : ∀ key h, w.store.calls.get key = some h →
    ∃ c ∈ w.invited, c.id = key ∧ h.data = some c ∧ h.state ≠ none
  /-- What was read is the data of the call of that key. -/
  fetched : ∀ key c, (key, c) ∈ w.fetched → c ∈ w.invited ∧ c.id = key
  /-- The users of a live call hold it. -/
  lease : ∀ c ∈ w.invited, w.store.calls.get c.id ≠ none → ∀ u, c.Has u →
    w.store.Holds c.id u

/-! ## The stores the scripts leave -/

namespace CallStore

variable {s : CallStore} {key : CallID} {call : Call}

/-- After an accepted invite. -/
def reserved (s : CallStore) (call : Call) : CallStore :=
  { s with
    busy := (s.busy.put call.caller call.id (some (s.ttl 50))).put call.callee call.id
      (some (s.ttl 50))
    calls := (s.calls.modify call.id {} fun _ => ⟨some call, some .ringing⟩).expire call.id
      (s.ttl 45) }

theorem inviteScript_cases (s : CallStore) (call : Call) :
    s.inviteScript call = ⟨0, s⟩ ∨
      s.busy.get call.caller = none ∧ s.busy.get call.callee = none ∧
        s.inviteScript call = ⟨1, s.reserved call⟩ := by
  unfold inviteScript
  split
  · exact Or.inl rfl
  · next h =>
      rw [not_or, Option.not_isSome_iff_eq_none, Option.not_isSome_iff_eq_none] at h
      exact Or.inr ⟨h.1, h.2, rfl⟩

/-- `t` is `s` with the hash `h'` of one call and new lifetimes of its keys. -/
structure Renews (s t : CallStore) (c : Call) (h' : CallHash) : Prop where
  hash : ∀ x, t.calls.get x = if x = c.id then some h' else s.calls.get x
  lifetime : ∀ x, t.calls.expiry x = if x = c.id then some (s.ttl 75) else s.calls.expiry x
  busy : ∀ u, t.busy.get u = s.busy.get u
  leases : ∀ u, t.busy.expiry u = if c.Has u then some (s.ttl 80) else s.busy.expiry u

/-- Both keys of a live call renewed. -/
theorem expiry_both (ks : Keyspace UserID CallID) {c : Call} {id : CallID} (t : Nat)
    (hcaller : ks.get c.caller = some id) (hcallee : ks.get c.callee = some id) (u : UserID) :
    ((ks.expire c.caller t).expire c.callee t).expiry u =
      if c.Has u then some t else ks.expiry u := by
  rw [Keyspace.expiry_expire, Keyspace.get_expire, Keyspace.expiry_expire]
  by_cases h1 : u = c.callee
  · have hu : c.Has u := Or.inr h1.symm
    rw [if_pos h1, if_pos hu, h1, hcallee]
    rfl
  · rw [if_neg h1]
    by_cases h2 : u = c.caller
    · have hu : c.Has u := Or.inl h2.symm
      rw [if_pos h2, if_pos hu, h2, hcaller]
      rfl
    · have hu : ¬ c.Has u := fun h => h.elim (fun e => h2 e.symm) fun e => h1 e.symm
      rw [if_neg h2, if_neg hu]

end CallStore

namespace Leased

variable {w : CallWorld} {c : Call} {key : CallID}

theorem init : Leased .empty := by
  constructor <;> simp [CallWorld.empty, CallStore.empty]

/-- The call of a live hash. -/
theorem holds (hw : Leased w) (hc : c ∈ w.invited) {h : CallHash}
    (hh : w.store.calls.get c.id = some h) {u : UserID} (hu : c.Has u) :
    w.store.busy.get u = some c.id :=
  (hw.lease c hc (by rw [hh]; simp) u hu).1

theorem data (hw : Leased w) (hc : c ∈ w.invited) {h : CallHash}
    (hh : w.store.calls.get c.id = some h) : h.data = some c := by
  obtain ⟨c', hc', hid, hdata, _⟩ := hw.hash c.id h hh
  rw [hdata, hw.unique c' hc' c hc hid]

/-- No hash has the id of a call that was not invited. -/
theorem fresh (hw : Leased w) (hnew : ∀ c ∈ w.invited, c.id ≠ key) :
    w.store.calls.get key = none := by
  cases hh : w.store.calls.get key with
  | none => rfl
  | some h =>
      obtain ⟨c, hc, hid, _⟩ := hw.hash key h hh
      exact absurd hid (hnew c hc)

/-- The same store, and more on record. -/
theorem attempted (hw : Leased w) (hne : c.caller ≠ c.callee)
    (hnew : ∀ c' ∈ w.invited, c'.id ≠ c.id) :
    Leased { w with invited := c :: w.invited } where
  distinct := List.forall_mem_cons.mpr ⟨hne, hw.distinct⟩
  unique := by
    intro c₁ h₁ c₂ h₂ hid
    rcases List.mem_cons.mp h₁ with rfl | h₁
    · rcases List.mem_cons.mp h₂ with rfl | h₂
      · rfl
      · exact absurd hid.symm (hnew c₂ h₂)
    · rcases List.mem_cons.mp h₂ with h₂ | h₂
      · rw [h₂] at hid
        exact absurd hid (hnew c₁ h₁)
      · exact hw.unique c₁ h₁ c₂ h₂ hid
  hash := by
    intro x h hx
    obtain ⟨c', hc', hrest⟩ := hw.hash x h hx
    exact ⟨c', List.mem_cons_of_mem _ hc', hrest⟩
  fetched := by
    intro x c' hx
    obtain ⟨hc', hid⟩ := hw.fetched x c' hx
    exact ⟨List.mem_cons_of_mem _ hc', hid⟩
  lease := by
    intro c' hc' hlive u hu
    rcases List.mem_cons.mp hc' with rfl | hc'
    · exact absurd (hw.fresh hnew) hlive
    · exact hw.lease c' hc' hlive u hu

/-- An accepted invite: neither user was in a live call. -/
theorem reserved (hw : Leased w) (hne : c.caller ≠ c.callee)
    (hnew : ∀ c' ∈ w.invited, c'.id ≠ c.id) (hcaller : w.store.busy.get c.caller = none)
    (hcallee : w.store.busy.get c.callee = none) :
    Leased { w with store := w.store.reserved c, invited := c :: w.invited } := by
  have hold := hw.attempted hne hnew
  have hget : ∀ x, (w.store.reserved c).calls.get x =
      if x = c.id then some ⟨some c, some .ringing⟩ else w.store.calls.get x := by
    intro x
    simp only [CallStore.reserved, Keyspace.get_expire, Keyspace.get_modify]
  have hexp : ∀ x, (w.store.reserved c).calls.expiry x =
      if x = c.id then some (w.store.ttl 45) else w.store.calls.expiry x := by
    intro x
    simp only [CallStore.reserved, Keyspace.expiry_expire, Keyspace.get_modify,
      Keyspace.expiry_modify]
    split
    · rfl
    · rfl
  have hbusy : ∀ u, (w.store.reserved c).busy.get u =
      if c.Has u then some c.id else w.store.busy.get u := by
    intro u
    simp only [CallStore.reserved, Keyspace.get_put, Call.Has, eq_comm (a := u)]
    split_ifs <;> simp_all
  have hbexp : ∀ u, (w.store.reserved c).busy.expiry u =
      if c.Has u then some (w.store.ttl 50) else w.store.busy.expiry u := by
    intro u
    simp only [CallStore.reserved, Keyspace.expiry_put, Call.Has, eq_comm (a := u)]
    split_ifs <;> simp_all
  refine ⟨hold.distinct, hold.unique, ?_, hold.fetched, ?_⟩
  · intro x h hx
    rw [hget] at hx
    split at hx
    · next hxc =>
        cases hx
        exact ⟨c, List.mem_cons_self, hxc.symm, rfl, by simp⟩
    · exact hold.hash x h hx
  · intro c' hc' hlive u hu
    show (w.store.reserved c).busy.get u = _ ∧ _
    rw [hbusy, hexp, hbexp]
    rcases List.mem_cons.mp hc' with rfl | hc'
    · rw [if_pos hu, if_pos rfl, if_pos hu]
      refine ⟨rfl, _, _, rfl, rfl, ?_⟩
      unfold CallStore.ttl
      omega
    · have hid : c'.id ≠ c.id := hnew c' hc'
      rw [hget, if_neg hid] at hlive
      have hlease := hw.lease c' hc' hlive u hu
      -- a user of a live call is busy, so not one of the new call
      have hnot : ¬ c.Has u := by
        have hbusy := hlease.1
        rintro (rfl | rfl)
        · rw [hcaller] at hbusy
          cases hbusy
        · rw [hcallee] at hbusy
          cases hbusy
      rw [if_neg hnot, if_neg hid, if_neg hnot]
      exact hlease

/-- Accept and heartbeat: the keys of one live call get new lifetimes. -/
theorem renewed {t : CallStore} {h h' : CallHash} (hw : Leased w) (hc : c ∈ w.invited)
    (hh : w.store.calls.get c.id = some h) (ht : w.store.Renews t c h')
    (hdata : h'.data = h.data) (hstate : h'.state ≠ none) : Leased { w with store := t } := by
  refine ⟨hw.distinct, hw.unique, ?_, hw.fetched, ?_⟩
  · intro x h₁ hx
    have hx : t.calls.get x = some h₁ := hx
    rw [ht.hash] at hx
    split at hx
    · next hxc =>
        cases hx
        exact ⟨c, hc, hxc.symm, hdata.trans (hw.data hc hh), hstate⟩
    · exact hw.hash x h₁ hx
  · intro c' hc' hlive u hu
    have hlive : t.calls.get c'.id ≠ none := hlive
    show t.busy.get u = _ ∧ _
    rw [ht.busy, ht.lifetime, ht.leases]
    by_cases hid : c'.id = c.id
    · cases hw.unique c' hc' c hc hid
      rw [if_pos rfl, if_pos hu]
      refine ⟨hw.holds hc hh hu, _, _, rfl, rfl, ?_⟩
      unfold CallStore.ttl
      omega
    · rw [ht.hash, if_neg hid] at hlive
      have hlease := hw.lease c' hc' hlive u hu
      -- the two live calls have no user in common
      have hnot : ¬ c.Has u := by
        intro hu'
        have hboth := hw.holds hc hh hu'
        rw [hlease.1] at hboth
        exact hid (Option.some.inj hboth)
      rw [if_neg hid, if_neg hnot]
      exact hlease

theorem get_free (ks : Keyspace UserID CallID) (id : CallID) (v u : UserID)
    (hu : ks.get u ≠ some id) :
    (CallStore.free id ks v).get u = ks.get u ∧
      (CallStore.free id ks v).expiry u = ks.expiry u := by
  unfold CallStore.free
  split
  · next hv =>
      have huv : u ≠ v := fun e => hu (e ▸ hv)
      rw [Keyspace.get_del, if_neg huv, Keyspace.expiry_del, if_neg huv]
      exact ⟨rfl, rfl⟩
  · exact ⟨rfl, rfl⟩

/-- End and decline: the hash goes, and of the busy keys those that hold it. -/
theorem finished (hw : Leased w) (c : Call) :
    Leased { w with store := (w.store.endScript c.id c).store } := by
  have hget : ∀ x, (w.store.endScript c.id c).store.calls.get x =
      if x = c.id then none else w.store.calls.get x := Keyspace.get_del _ _
  refine ⟨hw.distinct, hw.unique, ?_, hw.fetched, ?_⟩
  · intro x h hx
    rw [hget] at hx
    split at hx
    · cases hx
    · exact hw.hash x h hx
  · intro c' hc' hlive u hu
    rw [hget] at hlive
    split at hlive
    · exact absurd rfl hlive
    · next hid =>
        obtain ⟨hbusy, hlife⟩ := hw.lease c' hc' hlive u hu
        have hother : w.store.busy.get u ≠ some c.id := by
          rw [hbusy]
          exact fun e => hid (Option.some.inj e)
        obtain ⟨h1, h1'⟩ := get_free w.store.busy c.id c.caller u hother
        obtain ⟨h2, h2'⟩ := get_free (CallStore.free c.id w.store.busy c.caller) c.id c.callee u
          (by rw [h1]; exact hother)
        refine ⟨h2.trans (h1.trans hbusy), ?_⟩
        show ∃ T t, (w.store.calls.del c.id).expiry c'.id = some T ∧
          (CallStore.free c.id (CallStore.free c.id w.store.busy c.caller) c.callee).expiry u =
            some t ∧ T < t
        rw [h2', h1', Keyspace.expiry_del, if_neg hid]
        exact hlife

/-- Time: while the hash is there, keys that outlive it are too. -/
theorem advanced (hw : Leased w) (d : Nat) : Leased { w with store := w.store.advance d } where
  distinct := hw.distinct
  unique := hw.unique
  hash := fun x h hx => hw.hash x h (Keyspace.get_of_get_lapse hx).1
  fetched := hw.fetched
  lease := by
    intro c hc hlive u hu
    obtain ⟨h, hh⟩ := Option.ne_none_iff_exists'.mp hlive
    obtain ⟨hh, halive⟩ := Keyspace.get_of_get_lapse hh
    obtain ⟨hbusy, T, t, hT, ht, hlt⟩ := hw.lease c hc (by rw [hh]; simp) u hu
    rw [hT] at halive
    have hlater := halive.mono (Nat.le_of_lt hlt)
    show (w.store.busy.lapse (w.store.clock + d)).get u = _ ∧
      ∃ T t, (w.store.calls.lapse (w.store.clock + d)).expiry c.id = some T ∧
        (w.store.busy.lapse (w.store.clock + d)).expiry u = some t ∧ T < t
    rw [Keyspace.get_lapse, Keyspace.expiry_lapse, Keyspace.expiry_lapse, hT, ht,
      if_pos hlater, if_pos halive, if_pos hlater]
    exact ⟨hbusy, T, t, rfl, rfl, hlt⟩

end Leased

/-! ## Every operation keeps the leases -/

section
variable {w : CallWorld} {c : Call} {h : CallHash}

theorem state_of_some {s : CallStore} {key : CallID} (hh : s.calls.get key = some h) :
    s.state key = h.state := by
  simp [CallStore.state, hh]

theorem accept_renews (hw : Leased w) (hc : c ∈ w.invited)
    (hh : w.store.calls.get c.id = some h) (hst : h.state = some .ringing) :
    (w.store.acceptScript c.id c).reply = 1 ∧
      w.store.Renews (w.store.acceptScript c.id c).store c { h with state := some .active } := by
  unfold CallStore.acceptScript
  rw [state_of_some hh, if_neg (not_not.mpr hst)]
  refine ⟨rfl, fun x => ?_, fun x => ?_, fun u => ?_, fun u => ?_⟩
  · simp only [Keyspace.get_expire, Keyspace.get_modify, hh, Option.getD_some]
  · simp only [Keyspace.expiry_expire, Keyspace.get_modify, Keyspace.expiry_modify]
    split
    · rfl
    · rfl
  · simp only [Keyspace.get_expire]
  · exact CallStore.expiry_both _ _ (hw.holds hc hh (Or.inl rfl)) (hw.holds hc hh (Or.inr rfl)) u

/-- A heartbeat finds both busy keys with the call's id: it sets no key anew. -/
theorem heartbeat_renews (hw : Leased w) (hc : c ∈ w.invited)
    (hh : w.store.calls.get c.id = some h) (hst : h.state = some .active) :
    w.store.Renews (w.store.heartbeatScript c.id c).store c h := by
  have hcaller := hw.holds hc hh (Or.inl rfl)
  have hcallee := hw.holds hc hh (Or.inr rfl)
  have hrenew : CallStore.renew c.id (w.store.ttl 80)
      (CallStore.renew c.id (w.store.ttl 80) w.store.busy c.caller) c.callee =
        (w.store.busy.expire c.caller (w.store.ttl 80)).expire c.callee (w.store.ttl 80) := by
    unfold CallStore.renew
    rw [if_pos hcaller, Keyspace.get_expire, if_pos hcallee]
  unfold CallStore.heartbeatScript
  rw [state_of_some hh, if_neg (not_not.mpr hst), hrenew]
  refine ⟨fun x => ?_, fun x => ?_, fun u => ?_, fun u => ?_⟩
  · rw [Keyspace.get_expire]
    split
    · next hx => rw [hx, hh]
    · rfl
  · rw [Keyspace.expiry_expire]
    split
    · next hx =>
        rw [hx, hh]
        rfl
    · rfl
  · rw [Keyspace.get_expire, Keyspace.get_expire]
  · exact CallStore.expiry_both _ _ hcaller hcallee u

/-- A state is that of a hash. -/
theorem exists_hash {s : CallStore} {key : CallID} {st : CallState}
    (hst : s.state key = some st) : ∃ h, s.calls.get key = some h ∧ h.state = some st :=
  Option.bind_eq_some_iff.mp hst

theorem leased_after {op : CallOp} (hw : Leased w) (hp : op.Permitted w) :
    Leased (w.after op) := by
  cases op with
  | invite call =>
      show Leased { w with
        store := (w.store.inviteScript call).store, invited := call :: w.invited }
      rcases w.store.inviteScript_cases call with hno | ⟨hcaller, hcallee, hyes⟩
      · rw [hno]
        exact hw.attempted hp.1 hp.2
      · rw [hyes]
        exact hw.reserved hp.1 hp.2 hcaller hcallee
  | fetch key =>
      refine ⟨hw.distinct, hw.unique, hw.hash, ?_, hw.lease⟩
      intro x c hx
      rcases List.mem_append.mp hx with hnew | hold
      · obtain ⟨e, he, hpair⟩ := Option.map_eq_some_iff.mp (Option.mem_toList.mp hnew)
        obtain ⟨h, hh, hdata⟩ := Option.bind_eq_some_iff.mp he
        cases hpair
        obtain ⟨c', hc', hid, hdata', _⟩ := hw.hash key h hh
        rw [hdata] at hdata'
        cases hdata'
        exact ⟨hc', hid⟩
      · exact hw.fetched x c hold
  | accept key call =>
      obtain ⟨hc, rfl⟩ := hw.fetched key call hp
      show Leased { w with store := (w.store.acceptScript call.id call).store }
      by_cases hst : w.store.state call.id = some .ringing
      · obtain ⟨h, hh, hring⟩ := exists_hash hst
        exact hw.renewed hc hh (accept_renews hw hc hh hring).2 rfl (by simp)
      · unfold CallStore.acceptScript
        rw [if_pos hst]
        exact hw
  | finish key call =>
      obtain ⟨_, rfl⟩ := hw.fetched key call hp
      exact hw.finished call
  | heartbeat key call =>
      obtain ⟨hc, rfl⟩ := hw.fetched key call hp
      show Leased { w with store := (w.store.heartbeatScript call.id call).store }
      by_cases hst : w.store.state call.id = some .active
      · obtain ⟨h, hh, hact⟩ := exists_hash hst
        exact hw.renewed hc hh (heartbeat_renews hw hc hh hact) rfl (by rw [hact]; simp)
      · unfold CallStore.heartbeatScript
        rw [if_pos hst]
        exact hw
  | tick d => exact hw.advanced d

end

theorem leased_of_run {as : List CallOp} {w : CallWorld} (hrun : callMachine.run as = some w) :
    Leased w := by
  refine Machine.run_invariant (P := Leased) Leased.init ?_ hrun
  intro w op w' hw hstep
  obtain ⟨hp, rfl⟩ := callStep_eq_some.mp hstep
  exact leased_after hw hp

/-! ## What is gone stays gone -/

/-- Where a hash comes from: it was there in the same state, or was accepted, or
    was just invited. -/
theorem callHash_after {w : CallWorld} {op : CallOp} {key : CallID} {h' : CallHash}
    (hget : (w.after op).store.calls.get key = some h') :
    (∃ h, w.store.calls.get key = some h ∧
      (h'.state = h.state ∨ h'.state = some .active)) ∨
      ∃ c, op = .invite c ∧ c.id = key := by
  cases op with
  | invite call =>
      have hget : (w.store.inviteScript call).store.calls.get key = some h' := hget
      rcases w.store.inviteScript_cases call with hno | ⟨_, _, hyes⟩
      · rw [hno] at hget
        exact Or.inl ⟨h', hget, Or.inl rfl⟩
      · rw [hyes] at hget
        simp only [CallStore.reserved, Keyspace.get_expire, Keyspace.get_modify] at hget
        split at hget
        · next hkey => exact Or.inr ⟨call, rfl, hkey.symm⟩
        · exact Or.inl ⟨h', hget, Or.inl rfl⟩
  | fetch x => exact Or.inl ⟨h', hget, Or.inl rfl⟩
  | accept x call =>
      have hget : (w.store.acceptScript x call).store.calls.get key = some h' := hget
      unfold CallStore.acceptScript at hget
      split at hget
      · exact Or.inl ⟨h', hget, Or.inl rfl⟩
      · next hst =>
          obtain ⟨h, hh, _⟩ := exists_hash (not_not.mp hst)
          simp only [Keyspace.get_expire, Keyspace.get_modify] at hget
          split at hget
          · next hkey =>
              cases hget
              exact Or.inl ⟨h, by rw [hkey]; exact hh, Or.inr rfl⟩
          · exact Or.inl ⟨h', hget, Or.inl rfl⟩
  | finish x call =>
      have hget : (w.store.calls.del x).get key = some h' := hget
      rw [Keyspace.get_del] at hget
      split at hget
      · cases hget
      · exact Or.inl ⟨h', hget, Or.inl rfl⟩
  | heartbeat x call =>
      have hget : (w.store.heartbeatScript x call).store.calls.get key = some h' := hget
      unfold CallStore.heartbeatScript at hget
      split at hget
      · exact Or.inl ⟨h', hget, Or.inl rfl⟩
      · rw [Keyspace.get_expire] at hget
        exact Or.inl ⟨h', hget, Or.inl rfl⟩
  | tick d => exact Or.inl ⟨h', (Keyspace.get_of_get_lapse hget).1, Or.inl rfl⟩

theorem invited_after (w : CallWorld) (op : CallOp) {c : Call} (hc : c ∈ w.invited) :
    c ∈ (w.after op).invited := by
  cases op with
  | invite call => exact List.mem_cons_of_mem _ hc
  | _ => exact hc

/-- What is so of the hash of an invited call, if there is one, and stays so when
    the call becomes active, stays so for good. -/
theorem settled_of_runFrom {Q : CallHash → Prop} {u w : CallWorld} {bs : List CallOp} {c : Call}
    (hQ : ∀ h h', Q h → h'.state = h.state ∨ h'.state = some .active → Q h')
    (hrun : callMachine.runFrom u bs = some w) (hc : c ∈ u.invited)
    (h0 : ∀ h, u.store.calls.get c.id = some h → Q h) :
    ∀ h, w.store.calls.get c.id = some h → Q h := by
  refine (Machine.runFrom_invariant
    (P := fun v => c ∈ v.invited ∧ ∀ h, v.store.calls.get c.id = some h → Q h)
    ?_ hrun ⟨hc, h0⟩).2
  rintro v op v' ⟨hv, hall⟩ hstep
  obtain ⟨hp, rfl⟩ := callStep_eq_some.mp hstep
  refine ⟨invited_after v op hv, fun h' hget => ?_⟩
  rcases callHash_after hget with ⟨h, hh, hstate⟩ | ⟨c', rfl, hid⟩
  · exact hQ h h' (hall h hh) hstate
  -- no invite draws the id again
  · exact absurd hid.symm (hp.2 c hv)

/-! ## Exclusivity -/

/-- In every run of the scripts: the users of a live call both hold it for longer
    than its hash lives; so nobody is in two live calls; once an accept of a call
    has succeeded, no later one does; and an invited call whose hash is not there
    never has one again. -/
theorem calls_exclusive {as : List CallOp} {w : CallWorld} (hrun : callMachine.run as = some w) :
    (∀ key h, w.store.calls.get key = some h →
      ∃ c, h.data = some c ∧ c.id = key ∧ w.store.Holds key c.caller ∧
        w.store.Holds key c.callee) ∧
    (∀ key key' h h' c c' u, w.store.calls.get key = some h → w.store.calls.get key' = some h' →
      h.data = some c → h'.data = some c' → c.Has u → c'.Has u → key = key') ∧
    (∀ key c, (CallOp.accept key c).Permitted w → (w.store.acceptScript key c).reply = 1 →
      ∀ bs w', callMachine.runFrom (w.after (.accept key c)) bs = some w' →
        ∀ c', (w'.store.acceptScript key c').reply = 0) ∧
    (∀ c ∈ w.invited, w.store.calls.get c.id = none →
      ∀ bs w', callMachine.runFrom w bs = some w' → w'.store.calls.get c.id = none) := by
  have hw := leased_of_run hrun
  have hlive : ∀ key h, w.store.calls.get key = some h →
      ∃ c, h.data = some c ∧ c.id = key ∧ ∀ u, c.Has u → w.store.Holds key u := by
    intro key h hh
    obtain ⟨c, hc, hid, hdata, _⟩ := hw.hash key h hh
    subst hid
    exact ⟨c, hdata, rfl, hw.lease c hc (by rw [hh]; simp)⟩
  refine ⟨fun key h hh => ?_, ?_, ?_, ?_⟩
  · obtain ⟨c, hdata, hid, hholds⟩ := hlive key h hh
    exact ⟨c, hdata, hid, hholds _ (Or.inl rfl), hholds _ (Or.inr rfl)⟩
  · intro key key' h h' c c' u hh hh' hdata hdata' hu hu'
    obtain ⟨_, hd, _, hholds⟩ := hlive key h hh
    obtain ⟨_, hd', _, hholds'⟩ := hlive key' h' hh'
    rw [hdata] at hd
    rw [hdata'] at hd'
    cases hd
    cases hd'
    -- one busy key cannot hold two ids
    have hone := (hholds u hu).1
    rw [(hholds' u hu').1] at hone
    exact (Option.some.inj hone).symm
  · intro key c hp hreply bs w' hrest c'
    obtain ⟨hc, rfl⟩ := hw.fetched key c hp
    have hactive : ∀ h, w'.store.calls.get c.id = some h → h.state = some .active := by
      refine settled_of_runFrom (Q := fun h => h.state = some .active)
        (fun h h' hh hor => hor.elim (fun e => e.trans hh) id) hrest hc fun h hh => ?_
      have hh : (w.store.acceptScript c.id c).store.calls.get c.id = some h := hh
      unfold CallStore.acceptScript at hh hreply
      split at hreply
      · cases hreply
      · next hst =>
          rw [if_neg hst] at hh
          simp only [Keyspace.get_expire, Keyspace.get_modify, if_true] at hh
          cases hh
          rfl
    unfold CallStore.acceptScript
    rw [if_pos]
    intro hring
    obtain ⟨h, hh, hst⟩ := exists_hash hring
    rw [hactive h hh] at hst
    cases hst
  · intro c hc hgone bs w' hrest
    by_contra hback
    obtain ⟨h, hh⟩ := Option.ne_none_iff_exists'.mp hback
    exact settled_of_runFrom (Q := fun _ => False) (fun _ _ hf _ => hf) hrest hc
      (fun h hh => by rw [hgone] at hh; cases hh) h hh

def annCallsBen : Call := ⟨"k1", "d1", "ann", "ben", "Ann", false⟩

/-- Ann calls Ben, who answers after ten seconds; Ben's client beats a minute
    later, and Cid calls Ben. -/
def answered : List CallOp :=
  [.invite annCallsBen, .tick 10000, .fetch "k1", .accept "k1" annCallsBen, .tick 60000,
   .heartbeat "k1" annCallsBen, .invite ⟨"k2", "d2", "cid", "ben", "Cid", true⟩, .tick 70000]

theorem calls_exclusive_answered :
    ∃ w, callMachine.run answered = some w ∧ w.store.Holds "k1" "ben" := by
  have hobs : (callMachine.run answered).map (fun w => w.store.calls.get "k1") =
      some (some ⟨some annCallsBen, some .active⟩) := by
    decide +kernel
  obtain ⟨w, hw, hobs⟩ := Option.map_eq_some_iff.mp hobs
  obtain ⟨c, hdata, _, _, hcallee⟩ := (calls_exclusive hw).1 "k1" _ hobs
  cases hdata
  exact ⟨w, hw, hcallee⟩

end OneMinute.Communication
