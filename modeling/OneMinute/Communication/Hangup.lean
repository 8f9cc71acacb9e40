/-
  OneMinute.Communication.Hangup

  What is still heard of a call that is over.

  A request that has read a call may act on it later, so after the end of a call
  events about it can still be published.  But they come only from requests that
  had read it before (`Silent`), for the hash is gone for good and nobody reads
  it again; and each of them publishes no more than it owed (`owedBy`).  And
  whatever is asked of a call whose parties may no longer talk to each other ends
  it.
-/

import OneMinute.Communication.Signals

namespace OneMinute.Communication

open Discovery (UserID UnixMilli)

section
variable {U : UUIDText} {db : Database} {as : List CallAction} {i : Nat} {s s' : CallPool}
  {x x' : Switchboard} {th th' : CallThread}

/-! ## After the end -/

/-- The call that a request has read, or reserved. -/
def CallThread.call : CallThread → Option Call
  | .invite _ stage =>
    match stage with
    | .insert _ call | .rollback call _ | .emit call => some call
    | .authorize | .allow _ _ | .name _ _ _ | .reserve _ _ | .done _ => none
  | .action _ stage =>
    match stage with
    | .peer _ call _ | .accept call _ | .finish call _ | .heartbeat call | .emit call _
    | .emitSelf call _ => some call
    | .fetch | .done _ => none

section
variable {d : CallSupply} {call : Call}

theorem call_dispatch {r : ActionRequest} {state : Option CallState} {c : Call} {b : ActionBody}
    (h : (CallThread.action r (r.dispatch state c b)).call = some call) : c = call := by
  have hdescribe : (CallThread.action r (r.describe state c b)).call = some call → c = call := by
    intro h
    unfold ActionRequest.describe at h
    split at h
    · cases h
    · split at h
      · cases h
      · split at h
        · cases h
        · exact Option.some.inj h
  unfold ActionRequest.dispatch at h
  split at h
  · split at h
    · cases h
    · exact Option.some.inj h
  · exact Option.some.inj h
  · exact Option.some.inj h
  · split at h
    · cases h
    · exact Option.some.inj h
  · exact hdescribe h
  · exact hdescribe h
  · split at h
    · cases h
    · split at h
      · cases h
      · exact Option.some.inj h
  · split at h
    · cases h
    · split at h
      · cases h
      · exact Option.some.inj h
  · cases h

/-- A call that a request has, it had before, or has read, or has reserved as a
    new one. -/
theorem call_turn (hturn : th.turn U i d x = some (x', th')) (h : th'.call = some call) :
    th.call = some call ∨
      (∃ key h, x.calls.store.calls.get key = some h ∧ h.data = some call) ∨
      ∀ c ∈ x.calls.invited, c.id ≠ call.id := by
  cases th with
  | invite r stage =>
      obtain ⟨⟨y, stage'⟩, hr, heq⟩ := Option.map_eq_some_iff.mp hturn
      cases heq
      cases stage with
      | authorize | name c p video =>
          rw [InviteRequest.step] at hr
          split at hr <;> cases hr <;> cases h
      | allow c p =>
          cases hr
          exfalso
          revert h
          show (CallThread.invite r (if _ then _ else _)).call = some call → False
          intro h
          split at h
          · cases h
          · split at h
            · cases h
            · split at h <;> cases h
      | reserve c call' =>
          obtain ⟨hpermitted, hr⟩ := Option.ite_none_right_eq_some.mp hr
          cases hr
          split at h
          · obtain rfl : call' = call := Option.some.inj h
            exact Or.inr (Or.inr hpermitted.2)
          · cases h
      | insert c call' =>
          cases hr
          left
          revert h
          show (CallThread.invite r (if _ then _ else _)).call = some call → _
          intro h
          split at h
          · exact h
          · exact h
      | rollback call' cancelled => cases hr; cases h
      | emit call' => cases hr; cases h
      | done status => cases hr
  | action r stage =>
      obtain ⟨⟨y, stage'⟩, hr, heq⟩ := Option.map_eq_some_iff.mp hturn
      cases heq
      cases stage with
      | fetch =>
          rw [ActionRequest.step] at hr
          split at hr
          · cases hr
            cases h
          · cases hr
            right; left
            split at h
            · next c state hget =>
                split at h
                · cases h
                · split at h
                  · cases h
                  · exact ⟨_, _, hget, h⟩
            · cases h
            · cases h
      | peer state c b =>
          cases hr
          exact Or.inl (congrArg some (call_dispatch h))
      | accept c b =>
          cases hr
          split at h
          · exact Or.inl h
          · cases h
      | finish c b =>
          cases hr
          exact Or.inl h
      | heartbeat c => cases hr; cases h
      | emit c b =>
          cases hr
          split at h
          · exact Or.inl h
          · cases h
      | emitSelf c type => cases hr; cases h
      | done status => cases hr

/-- What a request publishes is about its call. -/
theorem call_of_emission {channel : UserID} {e : CallEvent}
    (h : th.emission d = some (channel, e)) : th.call = some e.call := by
  cases th with
  | invite r stage =>
      cases stage with
      | emit call =>
          cases h
          rfl
      | authorize | allow | name | reserve | insert | rollback | done => cases h
  | action r stage =>
      cases stage with
      | emit call b | emitSelf call type =>
          cases h
          rfl
      | fetch | peer | accept | finish | heartbeat | done => cases h

end

/-! ## How much is still to be heard of a request -/

/-- The events that a request may still publish. -/
def CallThread.owed : CallThread → Nat
  | .invite _ stage =>
    match stage with
    | .rollback _ _ | .done _ => 0
    | .authorize | .allow _ _ | .name _ _ _ | .reserve _ _ | .insert _ _ | .emit _ => 1
  | .action _ stage =>
    match stage with
    | .fetch | .peer _ _ _ | .accept _ _ | .finish _ _ => 2
    -- a copy for the sender comes after it
    | .emit _ b => if isCopied b.type then 2 else 1
    | .emitSelf _ _ => 1
    | .heartbeat _ | .done _ => 0

theorem owed_invite_le (r : InviteRequest) (stage : InvitationStage) :
    (CallThread.invite r stage).owed ≤ 1 := by
  cases stage <;> simp [CallThread.owed]

theorem owed_action_le (r : ActionRequest) (stage : ActionStage) :
    (CallThread.action r stage).owed ≤ 2 := by
  cases stage with
  | emit call b =>
      show (if isCopied b.type then 2 else 1) ≤ 2
      split
      · exact le_rfl
      · exact Nat.le_succ 1
  | _ => simp [CallThread.owed]

/-- What a turn publishes is one of the events that its request owed. -/
theorem owed_turn {d : CallSupply} (hturn : th.turn U i d x = some (x', th')) :
    th'.owed + (if (th.emission d).isSome then 1 else 0) ≤ th.owed := by
  cases th with
  | invite r stage =>
      obtain ⟨⟨y, stage'⟩, hr, heq⟩ := Option.map_eq_some_iff.mp hturn
      cases heq
      cases stage with
      | authorize | allow c p | name c p video | reserve c call | insert c call =>
          exact owed_invite_le r stage'
      | rollback call cancelled | emit call =>
          cases hr
          exact le_rfl
      | done status => cases hr
  | action r stage =>
      obtain ⟨⟨y, stage'⟩, hr, heq⟩ := Option.map_eq_some_iff.mp hturn
      cases heq
      cases stage with
      | fetch | peer state call b | accept call b | finish call b => exact owed_action_le r stage'
      | heartbeat call | emitSelf call type =>
          cases hr
          exact le_rfl
      | emit call b =>
          cases hr
          show (CallThread.action r (if isCopied b.type then .emitSelf call b.type
            else .done 200)).owed + 1 ≤ if isCopied b.type then 2 else 1
          split
          · exact le_rfl
          · exact le_rfl
      | done status => cases hr

/-- The events of request `i` so far. -/
def Switchboard.aired (x : Switchboard) (i : Nat) : Nat :=
  x.published.countP fun p => decide (p.thread = i)

/-- The events that request `i` may still publish. -/
def owedBy (s : CallPool) (i : Nat) : Nat := (s.threads[i]?.map CallThread.owed).getD 0

/-- A step airs events of a request as far as it owed them. -/
theorem owedBy_step {a : CallAction} (hi : i < s.threads.length)
    (hstep : (switchboardMachine U db).step s a = some s') :
    i < s'.threads.length ∧
      s'.shared.aired i + owedBy s' i ≤ s.shared.aired i + owedBy s i := by
  cases a with
  | spawn q =>
      obtain rfl := Option.some.inj hstep
      refine ⟨?_, le_of_eq ?_⟩
      · show i < (s.threads ++ [q.start U]).length
        rw [List.length_append]
        exact hi.trans_le (Nat.le_add_right _ _)
      · show _ + ((s.threads ++ [q.start U])[i]?.map _).getD 0 = _
        rw [List.getElem?_append_left hi]
        rfl
  | env e =>
      obtain rfl := Option.some.inj hstep
      refine ⟨hi, le_of_eq ?_⟩
      show (e.exec s.shared).published.countP _ + _ = _
      rw [published_env]
      rfl
  | turn j d =>
      obtain ⟨th, x', th', hj, hturn, rfl⟩ := Threads.step_turn hstep
      have howed := owed_turn hturn
      refine ⟨(List.length_set ..).symm ▸ hi, ?_⟩
      show x'.published.countP _ + ((s.threads.set j th')[i]?.map _).getD 0 ≤
        s.shared.published.countP _ + (s.threads[i]?.map _).getD 0
      by_cases hji : j = i
      · subst hji
        rw [List.getElem?_set_self hi, hj, Option.map_some, Option.map_some, Option.getD_some,
          Option.getD_some]
        rcases published_turn hturn with hsame | ⟨channel, e, hemission, hcons⟩
        · rw [hsame]
          exact Nat.add_le_add_left ((Nat.le_add_right _ _).trans howed) _
        · rw [hcons, List.countP_cons, if_pos (decide_eq_true rfl)]
          rw [hemission, Option.isSome_some, if_pos rfl] at howed
          omega
      · rw [List.getElem?_set_ne hji]
        rcases published_turn hturn with hsame | ⟨channel, e, -, hcons⟩
        · rw [hsame]
        · rw [hcons, List.countP_cons, if_neg (by simpa using hji)]
          exact le_rfl

/-- In every continuation: what a request airs from now on is what it owes now. -/
theorem owedBy_runFrom {t : CallPool} {bs : List CallAction} (hi : i < s.threads.length)
    (hrest : (switchboardMachine U db).runFrom s bs = some t) :
    t.shared.aired i + owedBy t i ≤ s.shared.aired i + owedBy s i :=
  (Machine.runFrom_invariant
    (P := fun u => i < u.threads.length ∧
      u.shared.aired i + owedBy u i ≤ s.shared.aired i + owedBy s i)
    (fun _ _ _ h hstep => ⟨(owedBy_step h.1 hstep).1, (owedBy_step h.1 hstep).2.trans h.2⟩)
    hrest ⟨hi, le_rfl⟩).2

theorem owedBy_le_two (s : CallPool) (i : Nat) : owedBy s i ≤ 2 := by
  unfold owedBy
  cases s.threads[i]? with
  | none => exact Nat.zero_le 2
  | some th =>
      cases th with
      | invite r stage => exact (owed_invite_le r stage).trans (Nat.le_succ 1)
      | action r stage => exact owed_action_le r stage

section
variable {call : Call} {t : CallPool} {bs : List CallAction}

/-- The call was invited, and its hash is gone. -/
structure Over (call : Call) (s : CallPool) : Prop where
  invited : call ∈ s.shared.calls.invited
  gone : s.shared.calls.store.calls.get call.id = none

/-- Request `i` has the call. -/
def HasCall (s : CallPool) (i : Nat) (call : Call) : Prop :=
  ∃ th : CallThread, s.threads[i]? = some th ∧ th.call = some call

/-- From `s` to `t` no request and no key newly got the call, and what was published
    about it is of requests that had it. -/
structure Silent (call : Call) (s t : CallPool) : Prop where
  held : ∀ i, HasCall t i call → HasCall s i call
  published : ∀ p ∈ t.shared.published, p.event.call = call →
    p ∈ s.shared.published ∨ HasCall s p.thread call
  busy : ∀ u, t.shared.calls.store.busy.get u = some call.id →
    s.shared.calls.store.busy.get u = some call.id

theorem Silent.refl (call : Call) (s : CallPool) : Silent call s s where
  held := fun _ h => h
  published := fun _ hp _ => Or.inl hp
  busy := fun _ h => h

theorem Silent.trans {u : CallPool} (h₁ : Silent call s t) (h₂ : Silent call t u) :
    Silent call s u where
  held := fun i h => h₁.held i (h₂.held i h)
  published := by
    intro p hp hcall
    rcases h₂.published p hp hcall with hold | hhas
    · exact h₁.published p hold hcall
    · exact Or.inr (h₁.held _ hhas)
  busy := fun v h => h₁.busy v (h₂.busy v h)

/-- One step after the end. -/
theorem over_step {a : CallAction} (hrun : (switchboardMachine U db).run as = some s)
    (hover : Over call s) (hstep : (switchboardMachine U db).step s a = some s') :
    Over call s' ∧ Silent call s s' := by
  have hs := callSound_of_run hrun
  obtain ⟨hc, hgone⟩ := hover
  cases a with
  | spawn q =>
      obtain rfl := Option.some.inj hstep
      refine ⟨⟨hc, hgone⟩, ?_, fun p hp _ => Or.inl hp, fun _ h => h⟩
      rintro i ⟨th, hi, hcall⟩
      have hi : (s.threads ++ [q.start U])[i]? = some th := hi
      rw [List.getElem?_append] at hi
      split at hi
      · exact ⟨th, hi, hcall⟩
      · obtain ⟨_, rfl⟩ := List.getElem?_eq_some_iff.mp hi
        rw [List.getElem_singleton] at hcall
        exfalso
        cases q with
        | invite r => cases hcall
        | action r =>
            revert hcall
            show (CallThread.action r (if U.parses r.id then .fetch else .done 400)).call = _ → _
            split
            · exact nofun
            · exact nofun
  | env e =>
      obtain rfl := Option.some.inj hstep
      obtain ⟨accepts, hevolves, -⟩ := evolves_env s.shared e
      exact ⟨⟨hevolves.mem hc, hevolves.gone hc hgone⟩, fun i h => h,
        fun p hp _ => Or.inl (published_env s.shared e ▸ hp), hevolves.busy call hc hgone⟩
  | turn i d =>
      obtain ⟨th, x', th', hi, hturn, rfl, hturned⟩ := turned_of_step hs hrun hstep
      obtain ⟨accepts, hevolves, -⟩ := hturned.evolves
      refine ⟨⟨hevolves.mem hc, hevolves.gone hc hgone⟩, ?_,
        fun p hp hcall => ?_, hevolves.busy call hc hgone⟩
      · rintro j ⟨ou, hj, hcall⟩
        rcases Threads.getElem?_set_cases hj with ⟨rfl, rfl⟩ | ⟨-, hj⟩
        · rcases call_turn hturn hcall with hold | ⟨key, h, hh, hdata⟩ | hnew
          · exact ⟨th, hi, hold⟩
          -- a hash with the data of the call is the call's hash
          · obtain ⟨c, -, hid, hdata', -⟩ := hs.hash key h hh
            obtain rfl : call = c := Option.some.inj (hdata.symm.trans hdata')
            rw [hid, hh] at hgone
            cases hgone
          · exact absurd rfl (hnew call hc)
        · exact ⟨ou, hj, hcall⟩
      · have hp : p ∈ x'.published := hp
        rcases published_turn hturn with hsame | ⟨channel, e, hemission, hcons⟩
        · exact Or.inl (hsame ▸ hp)
        · rw [hcons] at hp
          rcases List.mem_cons.mp hp with rfl | hold
          · exact Or.inr ⟨th, hi, (call_of_emission hemission).trans (congrArg some hcall)⟩
          · exact Or.inl hold

theorem over_runFrom (hrun : (switchboardMachine U db).run as = some s) (hover : Over call s)
    (hrest : (switchboardMachine U db).runFrom s bs = some t) : Over call t ∧ Silent call s t := by
  induction bs using List.reverseRecOn generalizing t with
  | nil =>
      cases hrest
      exact ⟨hover, .refl call s⟩
  | append_singleton bs a ih =>
      obtain ⟨u, hu, hstep⟩ := Machine.runFrom_concat_eq_some.mp hrest
      obtain ⟨hover', hsilent⟩ := ih hu
      obtain ⟨hover'', hlast⟩ := over_step ((Machine.runFrom_append_iff hrun).mpr hu) hover' hstep
      exact ⟨hover'', hsilent.trans hlast⟩

/-- Every label of `bs` leaves thread `i` where it is. -/
def Idle (i : Nat) (bs : List CallAction) : Prop := ∀ d, .turn i d ∉ bs

theorem thread_stays {th : CallThread} (hi : s.threads[i]? = some th) (hidle : Idle i bs)
    (hrest : (switchboardMachine U db).runFrom s bs = some t) : t.threads[i]? = some th := by
  induction bs generalizing s with
  | nil =>
      cases hrest
      exact hi
  | cons a bs ih =>
      obtain ⟨u, hstep, hrest⟩ := Machine.runFrom_cons_eq_some.mp hrest
      refine ih ?_ (fun d hd => hidle d (List.mem_cons_of_mem _ hd)) hrest
      cases a with
      | spawn q =>
          obtain rfl := Option.some.inj hstep
          show (s.threads ++ [q.start U])[i]? = some th
          rw [List.getElem?_append_left (List.getElem?_eq_some_iff.mp hi).1]
          exact hi
      | env e =>
          obtain rfl := Option.some.inj hstep
          exact hi
      | turn j d =>
          obtain ⟨ou, x', th', hj, -, rfl⟩ := Threads.step_turn hstep
          have hji : j ≠ i := by
            rintro rfl
            exact hidle d List.mem_cons_self
          rw [List.getElem?_set_ne hji]
          exact hi

theorem step_action {r : ActionRequest} {stage : ActionStage} {d : CallSupply}
    (hi : s.threads[i]? = some (.action r stage))
    (hstep : (switchboardMachine U db).step s (.turn i d) = some s') :
    ∃ x' stage', r.step U i d s.shared stage = some (x', stage') ∧
      s' = ⟨x', s.threads.set i (.action r stage')⟩ := by
  obtain ⟨th, x', th', hi', hturn, rfl⟩ := Threads.step_turn hstep
  obtain rfl := Option.some.inj (hi.symm.trans hi')
  have hturn : CallThread.turn U i d s.shared (.action r stage) = some (x', th') := hturn
  obtain ⟨⟨y, stage'⟩, hr, heq⟩ := Option.map_eq_some_iff.mp hturn
  cases heq
  exact ⟨_, _, hr, rfl⟩

theorem get_free_self (ks : Keyspace UserID CallID) (id : CallID) (u : UserID) :
    (CallStore.free id ks u).get u ≠ some id := by
  unfold CallStore.free
  split
  · rw [Keyspace.get_del, if_pos rfl]
    exact Option.some_ne_none id |>.symm
  · next h => exact h

/-- `end` and `decline`: hash and keys go at once. -/
theorem finish_over {r : ActionRequest} {b : ActionBody} {d : CallSupply}
    (hrun : (switchboardMachine U db).run as = some s)
    (hi : s.threads[i]? = some (.action r (.finish call b))) (heff : d.outcome.effective = true)
    (hstep : (switchboardMachine U db).step s (.turn i d) = some s') :
    Over call s' ∧ s'.shared.calls.store.busy.get call.caller ≠ some call.id ∧
      s'.shared.calls.store.busy.get call.callee ≠ some call.id := by
  obtain ⟨⟨hc, hid, -⟩, -⟩ := (callSound_of_run hrun).threads i _ hi
  obtain ⟨x', stage', hr, rfl⟩ := step_action hi hstep
  cases hr
  have hcalls : (s.shared.runScript d.outcome (.finish r.id call)).calls =
      s.shared.calls.after (.finish r.id call) := by
    unfold Switchboard.runScript
    rw [if_pos heff]
  refine ⟨⟨?_, ?_⟩, ?_, ?_⟩
  · show call ∈ (s.shared.runScript d.outcome (.finish r.id call)).calls.invited
    rw [hcalls]
    exact hc
  · show (s.shared.runScript d.outcome (.finish r.id call)).calls.store.calls.get call.id = none
    rw [hcalls, ← hid]
    exact (Keyspace.get_del _ _ _).trans (if_pos rfl)
  · show (s.shared.runScript d.outcome (.finish r.id call)).calls.store.busy.get _ ≠ _
    rw [hcalls]
    exact fun h => get_free_self _ _ _ (get_free_imp h)
  · show (s.shared.runScript d.outcome (.finish r.id call)).calls.store.busy.get _ ≠ _
    rw [hcalls]
    exact get_free_self _ _ _

/-! ## Main results -/

/-- When the hash of a call is gone, it stays gone, and only the requests that had
    read the call before still publish about it, each at most what it owed (an event
    and its copy): whoever asks for the call later finds nothing. -/
theorem silent_after_end (hrun : (switchboardMachine U db).run as = some s)
    (hc : call ∈ s.shared.calls.invited)
    (hgone : s.shared.calls.store.calls.get call.id = none)
    (hrest : (switchboardMachine U db).runFrom s bs = some t) :
    t.shared.calls.store.calls.get call.id = none ∧ Silent call s t ∧
      ∀ i, HasCall s i call →
        t.shared.aired i ≤ s.shared.aired i + owedBy s i ∧ owedBy s i ≤ 2 := by
  obtain ⟨hover, hsilent⟩ := over_runFrom hrun ⟨hc, hgone⟩ hrest
  refine ⟨hover.gone, hsilent, ?_⟩
  rintro i ⟨th, hi, -⟩
  have hlt := (List.getElem?_eq_some_iff.mp hi).1
  exact ⟨(Nat.le_add_right _ _).trans (owedBy_runFrom hlt hrest), owedBy_le_two s i⟩

/-- Whatever is asked of a call by a party whom the database does not admit to its
    connection any more (the connection has ended, there is a block, an account is
    not active) ends the call: once the script has run, whatever came between, the
    hash and both keys are gone for good, and nobody new hears of the call. -/
theorem unavailable_ends_call {s₁ s₂ s₃ : CallPool} {cs : List CallAction} {r : ActionRequest}
    {state : Option CallState} {b : ActionBody} {d d' : CallSupply}
    (hrun : (switchboardMachine U db).run as = some s)
    (hi : s.threads[i]? = some (.action r (.peer state call b)))
    (hpeer : s.shared.tables.peer U r.user call.connectionID = none)
    (hask : (switchboardMachine U db).step s (.turn i d) = some s₁)
    (hbetween : (switchboardMachine U db).runFrom s₁ bs = some s₂) (hidle : Idle i bs)
    (hend : (switchboardMachine U db).step s₂ (.turn i d') = some s₃)
    (heff : d'.outcome.effective = true)
    (hrest : (switchboardMachine U db).runFrom s₃ cs = some t) :
    t.shared.calls.store.calls.get call.id = none ∧
      t.shared.calls.store.busy.get call.caller ≠ some call.id ∧
      t.shared.calls.store.busy.get call.callee ≠ some call.id ∧ Silent call s₃ t := by
  have hi₁ : s₁.threads[i]? = some (.action r (.finish call { b with type := "end" })) := by
    obtain ⟨x', stage', hr, rfl⟩ := step_action hi hask
    cases hr
    rw [List.getElem?_set_self (List.getElem?_eq_some_iff.mp hi).1, hpeer, if_neg (by simp)]
    rfl
  have hrun₂ : (switchboardMachine U db).run (as ++ .turn i d :: bs) = some s₂ :=
    (Machine.runFrom_append_iff hrun).mpr
      (Machine.runFrom_cons_eq_some.mpr ⟨s₁, hask, hbetween⟩)
  have hrun₃ : (switchboardMachine U db).run (as ++ .turn i d :: bs ++ [.turn i d']) = some s₃ :=
    Machine.runFrom_concat_eq_some.mpr ⟨s₂, hrun₂, hend⟩
  obtain ⟨hover, hcaller, hcallee⟩ :=
    finish_over hrun₂ (thread_stays hi₁ hidle hbetween) heff hend
  obtain ⟨hover', hsilent⟩ := over_runFrom hrun₃ hover hrest
  exact ⟨hover'.gone, fun h => hcaller (hsilent.busy _ h), fun h => hcallee (hsilent.busy _ h),
    hsilent⟩

end

end

/-- Ann ends the call, and Ben's candidate is still on its way. -/
def lateCandidate : List CallAction :=
  talk ++ [asks "ben" "ice" (some ⟨.object [("candidate", .string "")], 16⟩)] ++ callTurns 3 2
    ++ [asks "ann" "end" none] ++ callTurns 4 3

theorem silent_after_end_lateCandidate :
    ∃ s t, (switchboardMachine canonicalUUIDs annNamed).run lateCandidate = some s ∧
      (switchboardMachine canonicalUUIDs annNamed).runFrom s (callTurns 3 1) = some t ∧
      t.shared.published.length = s.shared.published.length + 1 ∧ Silent annsCall s t ∧
      owedBy s 3 = 1 ∧ t.shared.aired 3 ≤ s.shared.aired 3 + 1 := by
  have hobs : ((switchboardMachine canonicalUUIDs annNamed).run lateCandidate).bind (fun s =>
      ((switchboardMachine canonicalUUIDs annNamed).runFrom s (callTurns 3 1)).map fun t =>
        (decide (annsCall ∈ s.shared.calls.invited ∧
            s.shared.calls.store.calls.get annsCall.id = none ∧
            t.shared.published.length = s.shared.published.length + 1 ∧
            s.threads[3]?.bind CallThread.call = some annsCall ∧ owedBy s 3 = 1))) =
      some true := by
    decide +kernel
  obtain ⟨s, hs, hobs⟩ := Option.bind_eq_some_iff.mp hobs
  obtain ⟨t, ht, hobs⟩ := Option.map_eq_some_iff.mp hobs
  obtain ⟨hc, hgone, hlength, hhas, howed⟩ := of_decide_eq_true hobs
  obtain ⟨-, hsilent, hbound⟩ := silent_after_end hs hc hgone ht
  exact ⟨s, t, hs, ht, hlength, hsilent, howed,
    howed ▸ (hbound 3 (Option.bind_eq_some_iff.mp hhas)).1⟩

/-- The user and the call of a request that is about to ask the database. -/
def CallThread.awaitsPeer : CallThread → Option (UserID × Call)
  | .action r (.peer _ call _) => some (r.user, call)
  | .action _ _ | .invite _ _ => none

theorem awaitsPeer_eq_some {th : CallThread} {u : UserID} {call : Call}
    (h : th.awaitsPeer = some (u, call)) :
    ∃ r state b, th = .action r (.peer state call b) ∧ r.user = u := by
  cases th with
  | invite r stage => cases h
  | action r stage =>
      cases stage with
      | peer state c b =>
          cases h
          exact ⟨r, state, b, rfl, rfl⟩
      | fetch | accept | finish | heartbeat | emit | emitSelf | done => cases h

/-- Ben blocks Ann, and her client's heartbeat has read the call. -/
def blockedBeat : List CallAction :=
  talk ++ [.env (.block "ben" "ann" 0 true [withBen]), asks "ann" "heartbeat" none]
    ++ callTurns 3 1

theorem unavailable_ends_call_blockedBeat :
    ∃ s s₁ s₃, (switchboardMachine canonicalUUIDs annNamed).run blockedBeat = some s ∧
      (switchboardMachine canonicalUUIDs annNamed).step s (.turn 3 {}) = some s₁ ∧
      (switchboardMachine canonicalUUIDs annNamed).step s₁ (.turn 3 {}) = some s₃ ∧
      s.shared.calls.store.calls.get drawnID ≠ none ∧
      s₃.shared.calls.store.calls.get drawnID = none ∧
      s₃.shared.calls.store.busy.get "ben" ≠ some drawnID := by
  have hobs : ((switchboardMachine canonicalUUIDs annNamed).run blockedBeat).map (fun s =>
      (s.threads[3]?.bind CallThread.awaitsPeer,
        decide (s.shared.calls.store.calls.get drawnID ≠ none ∧
          s.shared.tables.peer canonicalUUIDs "ann" withBen = none),
        ((switchboardMachine canonicalUUIDs annNamed).step s (.turn 3 {})).bind fun s₁ =>
          ((switchboardMachine canonicalUUIDs annNamed).step s₁ (.turn 3 {})).map fun _ => ())) =
      some (some ("ann", annsCall), true, some ()) := by
    decide +kernel
  obtain ⟨s, hs, hobs⟩ := Option.map_eq_some_iff.mp hobs
  simp only [Prod.mk.injEq, decide_eq_true_eq] at hobs
  obtain ⟨hawaits, ⟨hlive, hpeer⟩, hsteps⟩ := hobs
  obtain ⟨th, hi, hth⟩ := Option.bind_eq_some_iff.mp hawaits
  obtain ⟨r, state, b, rfl, hu⟩ := awaitsPeer_eq_some hth
  obtain ⟨s₁, hask, hsteps⟩ := Option.bind_eq_some_iff.mp hsteps
  obtain ⟨s₃, hend, -⟩ := Option.map_eq_some_iff.mp hsteps
  have hover := unavailable_ends_call hs hi (hu ▸ hpeer) hask (Machine.runFrom_nil _ _)
    (fun _ h => nomatch h) hend rfl (Machine.runFrom_nil _ _)
  exact ⟨s, s₁, s₃, hs, hask, hend, hlive, hover.1, hover.2.2.1⟩

end OneMinute.Communication
