/-
  OneMinute.Consent

  No device before Accept: the overlays of private calls against the server that
  connects them.

  Any number of tabs run beside the requests of `switchboardMachine`.  What an
  overlay has posted may reach the server as a request of its user, also late, twice
  or never; what was published to its user on its call may reach the overlay, in any
  order.  Whatever else is sent to the server, only an overlay sends `accept`.

  The argument follows an event back: an overlay opens a device because it was told
  that the call is accepted, or of an offer, which the server passes on only then; the
  acceptance was asked for by a request of the callee (`Asked`), which an overlay of
  theirs has posted, and that one was clicked (`devices_released`).

  Main result: `devices_consented`.
-/

import OneMinute.Communication.Signals
import OneMinute.Web.Captures

namespace OneMinute.Communication

open Discovery (UserID)

/-! ## What a request asks for -/

/-- The type of the action under way. -/
def ActionStage.type : ActionStage → Option String
  | .peer _ _ b | .accept _ b | .finish _ b | .emit _ b => some b.type
  | .emitSelf _ type => some type
  | .fetch | .heartbeat _ | .done _ => none

/-- The type of the action that a request is about to do. -/
def CallThread.type : CallThread → Option String
  | .invite _ _ => none
  | .action _ stage => stage.type

/-- The type of an event; an invitation has none. -/
def CallEvent.type : CallEvent → Option String
  | .invited _ => none
  | .action type _ _ _ | .copy type _ => some type

/-- `t` is in the body, or the end that the server makes of it. -/
def CallRequest.Asks (q : CallRequest) (t : String) : Prop :=
  t = "end" ∨ ∃ r b, q = .action r ∧ r.body = some b ∧ b.type = t

/-- Requests do, and publish, what their bodies ask for. -/
structure Asked (s : CallPool) : Prop where
  threads : ∀ (i : Nat) (th : CallThread), s.threads[i]? = some th →
    ∀ t, th.type = some t → th.request.Asks t
  published : ∀ p ∈ s.shared.published, ∀ t, p.event.type = some t →
    ∃ q, requestOf s.threads p.thread = some q ∧ q.Asks t

section
variable {U : UUIDText} {db : Database} {as : List CallAction} {s s' : CallPool}

theorem type_dispatch (r : ActionRequest) (state : Option CallState) (call : Call)
    (b : ActionBody) : (r.dispatch state call b).type = none ∨
      (r.dispatch state call b).type = some b.type := by
  unfold ActionRequest.dispatch
  split
  · split
    · exact Or.inl rfl
    · exact Or.inr rfl
  · exact Or.inr rfl
  · exact Or.inr rfl
  · split
    · exact Or.inl rfl
    · exact Or.inl rfl
  · exact type_describe r state call b
  · exact type_describe r state call b
  · split
    · exact Or.inl rfl
    · split
      · exact Or.inl rfl
      · exact Or.inr rfl
  · split
    · exact Or.inl rfl
    · split
      · exact Or.inl rfl
      · exact Or.inr rfl
  · exact Or.inl rfl
where
  type_describe (r : ActionRequest) (state : Option CallState) (call : Call) (b : ActionBody) :
      (r.describe state call b).type = none ∨ (r.describe state call b).type = some b.type := by
    unfold ActionRequest.describe
    split
    · exact Or.inl rfl
    · split
      · exact Or.inl rfl
      · split
        · exact Or.inl rfl
        · exact Or.inr rfl

theorem request_turn {i : Nat} {d : CallSupply} {x x' : Switchboard} {th th' : CallThread}
    (hturn : th.turn U i d x = some (x', th')) : th'.request = th.request := by
  cases th with
  | invite r stage | action r stage =>
      obtain ⟨_, -, heq⟩ := Option.map_eq_some_iff.mp hturn
      cases heq
      rfl

/-- What a stage emits is of its type. -/
theorem type_of_emission {d : CallSupply} {th : CallThread} {channel : UserID} {e : CallEvent}
    (h : th.emission d = some (channel, e)) : e.type = th.type := by
  cases th with
  | invite r stage =>
      cases stage with
      | emit call =>
          cases h
          rfl
      | authorize | allow | name | reserve | insert | rollback | done => cases h
  | action r stage =>
      cases stage with
      | emit call b | emitSelf call type =>
          cases h
          rfl
      | fetch | peer | accept | finish | heartbeat | done => cases h

/-- A turn goes on with what its request asks for. -/
theorem asks_turn {i : Nat} {d : CallSupply} {x x' : Switchboard} {th th' : CallThread}
    (hturn : th.turn U i d x = some (x', th'))
    (h : ∀ t, th.type = some t → th.request.Asks t) :
    ∀ t, th'.type = some t → th.request.Asks t := by
  intro t ht
  cases th with
  | invite r stage =>
      obtain ⟨_, -, heq⟩ := Option.map_eq_some_iff.mp hturn
      cases heq
      cases ht
  | action r stage =>
      obtain ⟨⟨y, stage'⟩, hr, heq⟩ := Option.map_eq_some_iff.mp hturn
      cases heq
      cases stage with
      | fetch =>
          rw [ActionRequest.step] at hr
          split at hr
          · cases hr
            cases ht
          · cases hr
            rw [CallThread.type] at ht
            -- the body is taken over as it is
            split at ht
            · split at ht
              · cases ht
              · split at ht
                · cases ht
                · next b hb => exact Or.inr ⟨r, b, rfl, hb, Option.some.inj ht⟩
            · cases ht
            · cases ht
      | peer state call b =>
          cases hr
          -- a party that is not admitted ends the call
          rcases type_dispatch r state call _ with hnone | hsome
          · rw [CallThread.type, hnone] at ht
            cases ht
          · rw [CallThread.type, hsome] at ht
            split at ht
            · exact h t ht
            · exact Or.inl (Option.some.inj ht).symm
      | accept call b | emit call b =>
          cases hr
          rw [CallThread.type] at ht
          split at ht
          · exact h t ht
          · cases ht
      | finish call b =>
          cases hr
          exact h t ht
      | heartbeat call | emitSelf call type =>
          cases hr
          cases ht
      | done status => cases hr

/-- A request stays that of its thread; only a spawn adds one. -/
theorem requestOf_step {a : CallAction} (hstep : (switchboard U).step s a = some s') {j : Nat}
    {q : CallRequest} : (requestOf s.threads j = some q → requestOf s'.threads j = some q) ∧
      (requestOf s'.threads j = some q → requestOf s.threads j = some q ∨ a = .spawn q) := by
  cases a with
  | spawn q' =>
      obtain rfl := Option.some.inj hstep
      refine ⟨requestOf_append, fun hq => ?_⟩
      obtain ⟨th, hth, hreq⟩ := Option.map_eq_some_iff.mp hq
      rcases getElem?_concat_eq_some hth with hth | ⟨-, rfl⟩
      · exact Or.inl (Option.map_eq_some_iff.mpr ⟨th, hth, hreq⟩)
      · right
        rw [← hreq]
        cases q' <;> rfl
  | turn i d =>
      obtain ⟨th, x', th', hi, hturn, rfl⟩ := Threads.step_turn hstep
      rw [requestOf_turn hi (request_turn hturn)]
      exact ⟨id, Or.inl⟩
  | env e =>
      obtain rfl := Option.some.inj hstep
      exact ⟨id, Or.inl⟩

theorem Asked.step {a : CallAction} (h : Asked s) (hstep : (switchboard U).step s a = some s') :
    Asked s' := by
  have hkept : ∀ {j q}, requestOf s.threads j = some q → requestOf s'.threads j = some q :=
    fun hq => (requestOf_step hstep).1 hq
  have hpublished : ∀ p ∈ s.shared.published, ∀ t, p.event.type = some t →
      ∃ q, requestOf s'.threads p.thread = some q ∧ q.Asks t := by
    intro p hp t ht
    obtain ⟨q, hq, hasks⟩ := h.published p hp t ht
    exact ⟨q, hkept hq, hasks⟩
  cases a with
  | spawn q =>
      obtain rfl := Option.some.inj hstep
      refine ⟨fun i th hi t ht => ?_, hpublished⟩
      rcases getElem?_concat_eq_some hi with hi | ⟨-, rfl⟩
      · exact h.threads i th hi t ht
      · cases q with
        | invite r => cases ht
        | action r =>
            have ht : (if U.parses r.id then ActionStage.fetch else .done 400).type = some t := ht
            split at ht <;> cases ht
  | turn i d =>
      obtain ⟨th, x', th', hi, hturn, rfl⟩ := Threads.step_turn hstep
      constructor
      · intro j ou hj t ht
        rcases Threads.getElem?_set_cases hj with ⟨rfl, rfl⟩ | ⟨-, hj⟩
        · rw [request_turn hturn]
          exact asks_turn hturn (h.threads i th hi) t ht
        · exact h.threads j ou hj t ht
      · intro p hp t ht
        rcases published_turn hturn with hsame | ⟨channel, e, hemission, hcons⟩
        · exact hpublished p (hsame ▸ hp) t ht
        · have hp : p ∈ x'.published := hp
          rw [hcons] at hp
          rcases List.mem_cons.mp hp with rfl | hp
          · refine ⟨th.request, hkept ?_,
              h.threads i th hi t ((type_of_emission hemission).symm.trans ht)⟩
            rw [requestOf, hi]
            rfl
          · exact hpublished p hp t ht
  | env e =>
      obtain rfl := Option.some.inj hstep
      exact ⟨h.threads, fun p hp => hpublished p (published_env s.shared e ▸ hp)⟩

theorem asked_of_run (hrun : (switchboardMachine U db).run as = some s) : Asked s :=
  Machine.run_invariant (P := Asked) ⟨(fun _ _ hi => by cases hi), fun _ hp => by cases hp⟩
    (fun _ _ _ hs hstep => hs.step hstep) hrun

/-- Calls and publications stay. -/
theorem keeps_step {a : CallAction} (hrun : (switchboardMachine U db).run as = some s)
    (hstep : (switchboardMachine U db).step s a = some s') :
    (∀ c ∈ s.shared.calls.invited, c ∈ s'.shared.calls.invited) ∧
      ∀ p ∈ s.shared.published, p ∈ s'.shared.published := by
  cases a with
  | spawn q =>
      obtain rfl := Option.some.inj hstep
      exact ⟨fun c hc => hc, fun p hp => hp⟩
  | turn i d =>
      obtain ⟨th, x', th', hi, hturn, rfl, hturned⟩ :=
        turned_of_step (callSound_of_run hrun) hrun hstep
      refine ⟨hturned.keeps.invited, fun p hp => ?_⟩
      show p ∈ x'.published
      rcases published_turn hturn with hsame | ⟨_, _, -, hcons⟩
      · rwa [hsame]
      · rw [hcons]
        exact List.mem_cons_of_mem _ hp
  | env e =>
      obtain rfl := Option.some.inj hstep
      obtain ⟨accepts, hevolves, -⟩ := evolves_env s.shared e
      refine ⟨fun c hc => hevolves.mem hc, fun p hp => ?_⟩
      show p ∈ (e.exec s.shared).published
      rwa [published_env]

/-- The callee of an answered call has asked to accept it. -/
theorem Answered.asked {call : Call} (hrun : (switchboardMachine U db).run as = some s)
    (h : Answered U db as call) : ∃ j r b, requestOf s.threads j = some (.action r) ∧
      r.body = some b ∧ b.type = "accept" ∧ r.user = call.callee ∧ r.id = call.id := by
  obtain ⟨j, r, u, d, v, b, ⟨pre, post, rfl, hpre, hstep⟩, hj, hcallee, -⟩ := h
  obtain ⟨hreads, htype, -⟩ := (callSound_of_run hpre).threads j _ hj
  obtain hend | ⟨r', b', hr, hbody, hasks⟩ := (asked_of_run hpre).threads j _ hj b.type rfl
  · rw [htype] at hend
    exact absurd hend (by decide)
  · cases hr
    -- the thread of that step still has its request
    have hlater : (switchboardMachine U db).runFrom u (.turn j d :: post) = some s :=
      (Machine.runFrom_append_iff hpre).mp hrun
    refine ⟨j, r, b', ?_, hbody, hasks.trans htype, hcallee, hreads.2.1.symm⟩
    refine Machine.runFrom_invariant (P := fun s => requestOf s.threads j = some (.action r))
      (fun _ _ _ hq hs => (requestOf_step hs).1 hq) hlater ?_
    rw [requestOf, hj]
    rfl

end

end OneMinute.Communication

namespace OneMinute

open Communication Web
open Discovery (UserID)

/-! ## Tabs and server -/

/-- A tab of a user, with the overlay of a call. -/
structure CallTab where
  user : UserID
  call : Communication.Call
  overlay : CallOverlay

/-- The server, with its requests, and the tabs. -/
structure CallScene where
  server : CallPool
  tabs : List CallTab

/-- What may happen next. -/
inductive CallMove where
  /-- A turn of a request, what happens around, or a request from elsewhere. -/
  | server (a : CallAction)
  /-- The reply to the invitation, or its event, opens an overlay. -/
  | opened (user : UserID) (call : Communication.Call)
  | tab (i : Nat) (input : CallInput)
  /-- A publication reaches a tab. -/
  | deliver (i j : Nat)
  /-- What an overlay has posted reaches the server, with the length of its payload. -/
  | request (i n size : Nat)

/-- A request that asks to accept. -/
def isAcceptance : CallAction → Bool
  | .spawn (.action r) => decide (r.body.map ActionBody.type = some "accept")
  | _ => false

/-- An event has reached the overlay. -/
def isReceived : CallInput → Bool
  | .received _ => true
  | _ => false

/-- `call.<type>` as the overlay of its call takes it. -/
def signal (type : String) (payload : Json) : Option CallSignal :=
  match type with
  | "accept" => some .accept
  | "end" => some .ended
  | "decline" => some .decline
  | "offer" => some (.offer payload)
  | "answer" => some (.answer payload)
  | "ice" => some (.ice payload)
  | "media" => some (.media payload)
  | _ => none

/-- The signal that an event brings to an overlay. -/
def signalOf : CallEvent → Option CallSignal
  | .invited _ => none
  | .action type _ payload _ => signal type payload
  | .copy type _ => signal type .null

namespace CallScene

/-- An input of the tab `i`. -/
def enter (s : CallScene) (i : Nat) (input : CallInput) : Option CallScene :=
  s.tabs[i]?.bind fun tab => (tab.overlay.step input).map fun overlay =>
    { s with tabs := s.tabs.set i { tab with overlay } }

/-- A turn of the server. -/
def serve (s : CallScene) (U : UUIDText) (a : CallAction) : Option CallScene :=
  ((switchboard U).step s.server a).map fun server => { s with server }

/-- One move.  Requests from elsewhere do not accept, and events come from what was
    published. -/
def step (U : UUIDText) (s : CallScene) : CallMove → Option CallScene
  | .server a => if isAcceptance a then none else s.serve U a
  | .opened user call =>
    if call ∈ s.server.shared.calls.invited ∧ call.Has user then
      some { s with
        tabs := s.tabs ++ [⟨user, call, .init (decide (user = call.caller)) call.video⟩] }
    else none
  | .tab i input => if isReceived input then none else s.enter i input
  | .deliver i j =>
    s.tabs[i]?.bind fun tab => s.server.shared.published[j]?.bind fun p =>
      if p.channel = tab.user ∧ p.event.call.id = tab.call.id then
        (signalOf p.event).bind fun e => s.enter i (.received e)
      else none
  | .request i n size =>
    s.tabs[i]?.bind fun tab => tab.overlay.posted[n]?.bind fun post =>
      s.serve U (.spawn (.action
        ⟨tab.user, tab.call.id, some ⟨post.1, some ⟨post.2, size⟩⟩⟩))

end CallScene

/-- All interleavings of tabs, server and whatever happens around. -/
def callScene (U : UUIDText) (db : Database) : Machine CallScene CallMove :=
  ⟨⟨(switchboardMachine U db).init, []⟩, CallScene.step U⟩

/-! ## What holds of every scene -/

/-- The signal was published on the call of the tab. -/
def CallTab.Told (tab : CallTab) (published : List Publication) (e : CallSignal) : Prop :=
  ∃ p ∈ published, p.event.call.id = tab.call.id ∧ signalOf p.event = some e

/-- A tab on a call of its user, whose overlay has heard only what was published. -/
def CallTab.Ok (x : Switchboard) (tab : CallTab) : Prop :=
  tab.call ∈ x.calls.invited ∧ tab.call.Has tab.user ∧
    CallOverlay.Ok ⟨false, false, decide (tab.user = tab.call.caller), tab.Told x.published⟩
      tab.overlay none

/-- Accept was clicked in a tab of `user` on the call `id`. -/
def CallScene.Clicked (s : CallScene) (user : UserID) (id : CallID) : Prop :=
  ∃ tab ∈ s.tabs, tab.user = user ∧ tab.call.id = id ∧ tab.overlay.clicked = true

/-- What every scene keeps: the server is in a state of its own runs, and whoever asks
    to accept has clicked. -/
structure CallScene.Ok (U : UUIDText) (db : Database) (s : CallScene) : Prop where
  server : ∃ as, (switchboardMachine U db).run as = some s.server
  tabs : ∀ tab ∈ s.tabs, tab.Ok s.server.shared
  clicked : ∀ j r b, requestOf s.server.threads j = some (.action r) → r.body = some b →
    b.type = "accept" → s.Clicked r.user r.id

section
variable {U : UUIDText} {db : Database} {s s' : CallScene}

theorem CallScene.Ok.serve {a : CallAction} (h : s.Ok U db)
    (hclicked : ∀ r b, a = .spawn (.action r) → r.body = some b → b.type = "accept" →
      s.Clicked r.user r.id) (hstep : s.serve U a = some s') : s'.Ok U db := by
  obtain ⟨server, hserver, rfl⟩ := Option.map_eq_some_iff.mp hstep
  obtain ⟨as, hrun⟩ := h.server
  obtain ⟨hinvited, hpublished⟩ := keeps_step hrun hserver
  refine ⟨⟨as ++ [a], Machine.runFrom_concat_eq_some.mpr ⟨_, hrun, hserver⟩⟩, ?_, ?_⟩
  · intro tab htab
    obtain ⟨hin, hhas, hok⟩ := h.tabs tab htab
    refine ⟨hinvited _ hin, hhas, { hok with told := fun e he => ?_ }⟩
    obtain ⟨p, hp, hrest⟩ := hok.told e he
    exact ⟨p, hpublished p hp, hrest⟩
  · intro j r b hj hb htype
    -- only a request that was just spawned is new
    rcases (requestOf_step hserver).2 hj with hold | hnew
    · exact h.clicked j r b hold hb htype
    · exact hclicked r b hnew hb htype

theorem CallScene.Ok.enter {i : Nat} {input : CallInput} (h : s.Ok U db)
    (htold : ∀ tab e, s.tabs[i]? = some tab → input = .received e →
      tab.Told s.server.shared.published e) (hstep : s.enter i input = some s') : s'.Ok U db := by
  obtain ⟨tab, hi, hstep⟩ := Option.bind_eq_some_iff.mp hstep
  obtain ⟨overlay, hover, rfl⟩ := Option.map_eq_some_iff.mp hstep
  obtain ⟨hin, hhas, hok⟩ := h.tabs tab (List.mem_of_getElem? hi)
  -- from here on, so that a click before this step still counts after it
  have hnext := hok.renew.step (fun e he => htold tab e hi he) hover
  refine ⟨h.server, fun tab' htab' => ?_, fun j r b hj hb htype => ?_⟩
  · rcases List.mem_or_eq_of_mem_set htab' with hold | rfl
    · exact h.tabs tab' hold
    · exact ⟨hin, hhas, { hnext with gone := nofun, stays := nofun }⟩
  -- Accept that was clicked stays so.
  · obtain ⟨tab', htab', huser, hid, hclicked⟩ := h.clicked j r b hj hb htype
    obtain ⟨k, hk⟩ := List.getElem?_of_mem htab'
    by_cases hik : i = k
    · subst hik
      obtain rfl := Option.some.inj (hi.symm.trans hk)
      refine ⟨{ tab with overlay }, ?_, huser, hid, hnext.stays hclicked⟩
      exact List.mem_of_getElem? (List.getElem?_set_self (List.getElem?_eq_some_iff.mp hi).1)
    · refine ⟨tab', ?_, huser, hid, hclicked⟩
      exact List.mem_of_getElem? ((List.getElem?_set_ne hik).trans hk)

theorem CallScene.Ok.step {m : CallMove} (h : s.Ok U db) (hstep : s.step U m = some s') :
    s'.Ok U db := by
  cases m with
  | server a =>
      rw [CallScene.step] at hstep
      split at hstep
      · cases hstep
      · next hnot =>
          refine h.serve (fun r b ha hb htype => absurd ?_ hnot) hstep
          rw [ha, isAcceptance, hb, Option.map_some, htype]
          rfl
  | opened user call =>
      obtain ⟨⟨hin, hhas⟩, heq⟩ := Option.ite_none_right_eq_some.mp hstep
      obtain rfl := Option.some.inj heq
      refine ⟨h.server, fun tab htab => ?_, fun j r b hj hb htype => ?_⟩
      · rcases List.mem_append.mp htab with hold | hnew
        · exact h.tabs tab hold
        · obtain rfl := List.mem_singleton.mp hnew
          exact ⟨hin, hhas, CallOverlay.ok_init _ _⟩
      · obtain ⟨tab, htab, hrest⟩ := h.clicked j r b hj hb htype
        exact ⟨tab, List.mem_append_left _ htab, hrest⟩
  | tab i input =>
      rw [CallScene.step] at hstep
      split at hstep
      · cases hstep
      · next hnot =>
          refine h.enter (fun tab e _ he => absurd ?_ hnot) hstep
          rw [he]
          rfl
  | deliver i j =>
      obtain ⟨tab, hi, hstep⟩ := Option.bind_eq_some_iff.mp hstep
      obtain ⟨p, hp, hstep⟩ := Option.bind_eq_some_iff.mp hstep
      obtain ⟨⟨-, hid⟩, hstep⟩ := Option.ite_none_right_eq_some.mp hstep
      obtain ⟨e, he, hstep⟩ := Option.bind_eq_some_iff.mp hstep
      refine h.enter (fun tab' e' hi' he' => ?_) hstep
      obtain rfl := Option.some.inj (hi.symm.trans hi')
      cases he'
      exact ⟨p, List.mem_of_getElem? hp, hid, he⟩
  | request i n size =>
      obtain ⟨tab, hi, hstep⟩ := Option.bind_eq_some_iff.mp hstep
      obtain ⟨⟨type, payload⟩, hn, hstep⟩ := Option.bind_eq_some_iff.mp hstep
      have htab := List.mem_of_getElem? hi
      refine h.serve (fun r b ha hb htype => ?_) hstep
      cases ha
      cases hb
      obtain rfl : type = "accept" := htype
      -- the overlay has posted it, so it was clicked
      exact ⟨tab, htab, rfl, rfl, (h.tabs tab htab).2.2.posted payload (List.mem_of_getElem? hn)⟩

theorem callScene_ok {ms : List CallMove} (hrun : (callScene U db).run ms = some s) :
    s.Ok U db := by
  refine Machine.run_invariant (P := CallScene.Ok U db) ?_ (fun _ _ _ hs => hs.step) hrun
  exact ⟨⟨[], rfl⟩, (fun _ hin => by cases hin), fun _ _ _ hj => by cases hj⟩

/-! ## Back to the click -/

/-- The type of the event that brings a signal. -/
def signalType : CallSignal → String
  | .accept => "accept"
  | .ended => "end"
  | .decline => "decline"
  | .offer _ => "offer"
  | .answer _ => "answer"
  | .ice _ => "ice"
  | .media _ => "media"

theorem type_of_signal {type : String} {payload : Json} {e : CallSignal}
    (h : signal type payload = some e) : type = signalType e := by
  unfold signal at h
  split at h <;> cases h <;> rfl

theorem type_of_signalOf {event : CallEvent} {e : CallSignal} (h : signalOf event = some e) :
    event.type = some (signalType e) := by
  cases event with
  | invited call => cases h
  | action type call payload now => exact congrArg some (type_of_signal h)
  | copy type call => exact congrArg some (type_of_signal h)

/-- The callee has asked to accept a call of which an acceptance or an offer was
    published. -/
theorem accept_requested {as : List CallAction} {pool : CallPool} {p : Publication}
    (hrun : (switchboardMachine U db).run as = some pool) (hp : p ∈ pool.shared.published)
    (htype : p.event.type = some "accept" ∨ p.event.type = some "offer") :
    ∃ j r b, requestOf pool.threads j = some (.action r) ∧ r.body = some b ∧
      b.type = "accept" ∧ r.user = p.event.call.callee ∧ r.id = p.event.call.id := by
  have hwarranted := (callSound_of_run hrun).published p hp
  have hasked : p.event.type = some "accept" → ∃ r b,
      requestOf pool.threads p.thread = some (.action r) ∧ r.body = some b ∧ b.type = "accept" := by
    intro haccept
    obtain ⟨q, hq, hend | ⟨r, b, rfl, hb, hasks⟩⟩ := (asked_of_run hrun).published p hp _ haccept
    · exact absurd hend (by decide)
    · exact ⟨r, b, hq, hb, hasks⟩
  obtain ⟨j, channel, event⟩ := p
  cases event with
  | invited call => rcases htype with h | h <;> cases h
  | action type call payload now =>
      obtain ⟨r, b, hq, hreads, -, hsame, -, hadmitted⟩ := hwarranted
      rcases htype with haccept | hoffer
      · obtain ⟨r', b', hq', hb', hasks⟩ := hasked haccept
        cases hq.symm.trans hq'
        have hcallee := hadmitted.callee (Or.inl (hsame.trans (Option.some.inj haccept)))
        exact ⟨j, r, b', hq, hb', hasks, hcallee, hreads.2.1.symm⟩
      -- an offer goes out only when the call was answered
      · refine (hadmitted.answered ?_).asked hrun
        rw [hsame.trans (Option.some.inj hoffer)]
        decide
  | copy type call =>
      obtain ⟨r, hq, hreads, -, hcopied, haccepted, -⟩ := hwarranted
      rcases htype with haccept | hoffer
      · obtain ⟨r', b', hq', hb', hasks⟩ := hasked haccept
        cases hq.symm.trans hq'
        exact ⟨j, r, b', hq, hb', hasks, (haccepted (Option.some.inj haccept)).callee,
          hreads.2.1.symm⟩
      · rw [Option.some.inj hoffer] at hcopied
        exact absurd hcopied (by decide)

/-- Devices are asked for in a tab: Accept was clicked in one of the callee. -/
theorem CallScene.Ok.clicked_of_started {tab : CallTab} (h : s.Ok U db) (htab : tab ∈ s.tabs)
    (hstarted : tab.overlay.started = true) : s.Clicked tab.call.callee tab.call.id := by
  obtain ⟨as, hrun⟩ := h.server
  have hs := callSound_of_run hrun
  obtain ⟨hin, hhas, hok⟩ := h.tabs tab htab
  have htold : ∀ e, e ∈ tab.overlay.heard → signalType e = "accept" ∨ signalType e = "offer" →
      s.Clicked tab.call.callee tab.call.id := by
    intro e he htype
    obtain ⟨p, hp, hid, hsignal⟩ := hok.told e (Or.inl he)
    have hevent := type_of_signalOf hsignal
    obtain ⟨j, r, b, hj, hb, haccept, hcallee, hr⟩ := accept_requested hrun hp
      (htype.imp (fun ht => hevent.trans (congrArg some ht)) fun ht =>
        hevent.trans (congrArg some ht))
    have hcall := hs.unique _ (hs.published p hp).party.1 _ hin hid
    rw [hcall] at hcallee hr
    exact hcallee ▸ hr ▸ h.clicked j r b hj hb haccept
  rcases hok.agreed hstarted with ⟨-, haccept | ⟨x, hoffer⟩⟩ | ⟨hincoming, hclicked | hfirst⟩
  · exact htold _ haccept (Or.inl rfl)
  · exact htold _ hoffer (Or.inr rfl)
  · have hnot : tab.user ≠ tab.call.caller :=
      of_decide_eq_false (hok.outgoing.symm.trans hincoming)
    exact ⟨tab, htab, (hhas.resolve_left fun he => hnot he.symm).symm, rfl, hclicked⟩
  · obtain ⟨pre, x, post, hheard, -⟩ := hfirst
    exact htold (.offer x) (by rw [hheard]; simp) (Or.inr rfl)

/-- However the tabs of both parties, the server and what happens around them
    interleave: a tab opens no device and asks for none before Accept was clicked, on
    this call, in a tab of its callee. -/
theorem devices_consented {ms : List CallMove} (hrun : (callScene U db).run ms = some s)
    {tab : CallTab} (htab : tab ∈ s.tabs)
    (hdevices : tab.overlay.devices ≠ [] ∨ tab.overlay.setup.isSome = true) :
    ∃ tab' ∈ s.tabs, tab'.user = tab.call.callee ∧ tab'.call = tab.call ∧
      tab'.overlay.clicked = true := by
  have h := callScene_ok hrun
  obtain ⟨as, hserver⟩ := h.server
  obtain ⟨hin, -, hok⟩ := h.tabs tab htab
  have hstarted : tab.overlay.started = true := by
    rcases hdevices with hopened | hasked
    · exact hok.devices hopened
    · obtain ⟨⟨stage, clicked⟩, hsetup⟩ := Option.isSome_iff_exists.mp hasked
      exact (hok.setup stage clicked hsetup).1
  obtain ⟨tab', htab', huser, hid, hclicked⟩ := h.clicked_of_started htab hstarted
  refine ⟨tab', htab', huser, ?_, hclicked⟩
  exact (callSound_of_run hserver).unique _ (h.tabs tab' htab').1 _ hin hid

end

/-- Ann calls Ben, who clicks Accept; Ann's tab hears of it and opens its microphone. -/
def answeredCall : List CallMove :=
  ringing.map .server ++ [.opened "ann" annsCall, .opened "ben" annsCall,
    .tab 1 .acceptClicked, .tab 1 (.setup true {}), .request 1 0 2]
    ++ (callTurns 1 4).map .server ++ [.deliver 0 0, .tab 0 (.turn {}), .tab 0 (.setup true {})]

theorem devices_consented_answeredCall :
    ∃ s tab, (callScene canonicalUUIDs annNamed).run answeredCall = some s ∧ tab ∈ s.tabs ∧
      tab.user = "ann" ∧ tab.overlay.devices ≠ [] ∧ ∃ tab' ∈ s.tabs, tab'.user = "ben" ∧
        tab'.overlay.clicked = true := by
  have hobs : ((callScene canonicalUUIDs annNamed).run answeredCall).bind (fun s =>
      s.tabs[0]?.map fun tab => (tab.user, tab.call, tab.overlay.devices)) =
        some ("ann", annsCall, [⟨.microphone, false, true⟩]) := by
    decide +kernel
  obtain ⟨s, hs, hobs⟩ := Option.bind_eq_some_iff.mp hobs
  obtain ⟨tab, htab, hobs⟩ := Option.map_eq_some_iff.mp hobs
  obtain ⟨huser, hrest⟩ := Prod.mk.inj hobs
  obtain ⟨hcall, hdevices⟩ := Prod.mk.inj hrest
  have hmem : tab ∈ s.tabs := List.mem_of_getElem? htab
  have hopened : tab.overlay.devices ≠ [] := by
    rw [hdevices]
    exact List.cons_ne_nil _ _
  obtain ⟨tab', htab', hcallee, -, hclicked⟩ := devices_consented hs hmem (Or.inl hopened)
  rw [hcall] at hcallee
  exact ⟨s, tab, hs, hmem, huser, hopened, tab', htab', hcallee, hclicked⟩

end OneMinute
