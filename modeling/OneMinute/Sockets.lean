/-
  OneMinute.Sockets

  What a socket leaves behind when it ends.

  Every way out of the socket handler runs one Disconnect.  It restarts the
  grace of a participant who was already on one, so a half-finished
  reconnection puts the deadline off (`grace_bounded_iff`); and it does nothing
  once the presence key has lapsed, which the read loop does not rule out
  (`noticed_iff`).
-/

import OneMinute.Discovery.Grace
import OneMinute.Discovery.Presence
import OneMinute.Runs

namespace OneMinute

open Discovery Process

/-! ## The reconnect grace -/

/-- The step is no Reconnect of `u` on `m` that returns true. -/
def StaysAway (m : MatchID) (u : UserID) (x : System) (a : Action) : Prop :=
  ∀ op ∈ x.effect a, ¬ op.Rejoins x.store m u

/-- The step is no Disconnect that takes effect for `u` in `m` and records an
    instant later than `D`. -/
def KeepsDeadline (m : MatchID) (u : UserID) (D : UnixMilli) (x : System) (a : Action) : Prop :=
  ∀ op ∈ x.effect a, ¬ op.PutsOff x.store m u D

instance (m : MatchID) (u : UserID) (x : System) (a : Action) : Decidable (StaysAway m u x a) :=
  inferInstanceAs (Decidable (∀ op ∈ x.effect a, ¬ op.Rejoins x.store m u))

instance (m : MatchID) (u : UserID) (D : UnixMilli) (x : System) (a : Action) :
    Decidable (KeepsDeadline m u D x a) :=
  inferInstanceAs (Decidable (∀ op ∈ x.effect a, ¬ op.PutsOff x.store m u D))

theorem graceUntil_step {x x' : System} {a : Action} {m : MatchID} {u : UserID} {D : UnixMilli}
    (h : x.Sound) (hm : m ∈ x.env.world.claims.map Claim.matchID)
    (hg : x.store.GraceUntil m u D) (haway : StaysAway m u x a) (hmv : Move x a x') :
    x'.store.GraceUntil m u D ↔ KeepsDeadline m u D x a := by
  rcases h.world hmv with ⟨hnone, hworld, _⟩ | ⟨op, hop, hp, hworld, _⟩
  · unfold System.store KeepsDeadline
    rw [hworld, hnone]
    exact iff_of_true hg fun op h => nomatch h
  · unfold System.store KeepsDeadline
    unfold StaysAway at haway
    rw [hworld, hop]
    rw [hop] at haway
    rw [graceUntil_after h.coherent hp hm hg (haway op rfl)]
    simp

/-- The bound on the grace of `u` in `m`: while the match is there its marker is
    an instant not later than `D`; a sweep at `D` or later whose batch has room
    selects it, and its script ends the match; and no Reconnect at `D` or later
    returns true. -/
def Graced (m : MatchID) (u : UserID) (D : UnixMilli) (s : Store) : Prop :=
  s.GraceUntil m u D ∧
    (∀ now, D ≤ now → s.matches_.get m ≠ none →
      ((s.disconnectDeadlines.entries.filter fun e => decide (e.2 ≤ now)).length ≤ sweepCount →
        (m, u) ∈ s.disconnectDeadlines.due markerBefore now sweepCount) ∧
      ((Op.disconnectExpiry m u now).exec s).reply = .ok 1) ∧
    ∀ c now, D ≤ now → ((Op.reconnect u c m now).exec s).reply ≠ .ok 1

theorem graced_of_graceUntil {s : Store} {claims : List Claim} {m : MatchID} {u : UserID}
    {D : UnixMilli} (hc : Coherent s claims) (hg : s.GraceUntil m u D) : Graced m u D s := by
  refine ⟨hg, fun now hnow hlive => ?_, fun c now => not_rejoined_of_graceUntil hc hg⟩
  obtain ⟨h, hh⟩ := Option.ne_none_iff_exists'.mp hlive
  obtain ⟨⟨t, ht, hdue⟩, hends⟩ := swept_of_graceUntil hc hg hh hnow
  exact ⟨SortedSet.mem_due ht hdue, hends⟩

/-- Once a Disconnect has recorded the deadline `D` for `u` in `m`, and until a
    Reconnect of `u` on `m` returns true, the grace is bounded by `D` in every
    state of the run exactly if no Disconnect of `u` that takes effect in `m`
    records a later instant. -/
theorem grace_bounded_iff {db : Database} {pre post : List Action} {y x : System} {m : MatchID}
    {u : UserID} {D : UnixMilli} (hpre : (systemMachine db).run pre = some y)
    (hpost : (systemMachine db).runFrom y post = some x)
    (hD : y.store.hget m (fun h => h.disconnected u) = some D) (hpos : 0 < D)
    (haway : (systemMachine db).Along (StaysAway m u) y post) :
    (∀ mid rest z, post = mid ++ rest → (systemMachine db).runFrom y mid = some z →
        Graced m u D z.store) ↔
      (systemMachine db).Along (KeepsDeadline m u D) y post := by
  have hy := sound_of_run hpre
  obtain ⟨h, hh, hmark⟩ := Option.bind_eq_some_iff.mp hD
  -- the marker is the deadline that was recorded
  have hstart : y.Sound ∧ m ∈ y.env.world.claims.map Claim.matchID ∧
      y.store.GraceUntil m u D := by
    refine ⟨hy, mem_claims_of_live hy.coherent hh, fun h' hh' => ?_⟩
    rw [hh] at hh'
    cases hh'
    exact ⟨D, hmark, hpos, le_rfl⟩
  have hiff := Machine.forall_iff_along (M := systemMachine db)
    (P := fun z => z.Sound ∧ m ∈ z.env.world.claims.map Claim.matchID ∧
      z.store.GraceUntil m u D) (C := KeepsDeadline m u D) (D := StaysAway m u) ?_ hpost haway
    hstart
  · rw [← hiff]
    constructor
    · intro hall mid rest z hsplit hmid
      have hz : (systemMachine db).run (pre ++ mid) = some z :=
        (Machine.runFrom_append_iff hpre).mpr hmid
      obtain ⟨ops, _, hops⟩ := store_runFrom hpre hmid
      exact ⟨sound_of_run hz, List.map_subset _ (claims_subset_of_runFrom hops) hstart.2.1,
        (hall mid rest z hsplit hmid).1⟩
    · intro hall mid rest z hsplit hmid
      obtain ⟨hz, _, hg⟩ := hall mid rest z hsplit hmid
      exact graced_of_graceUntil hz.coherent hg
  -- the step lemma, with a match that was claimed stays claimed
  · rintro z a z' ⟨hz, hm, hg⟩ haway' hstep
    have hmv := step_move hstep
    have hm' : m ∈ z'.env.world.claims.map Claim.matchID := by
      rcases hz.world hmv with ⟨_, hworld, _⟩ | ⟨op, _, _, hworld, _⟩
      · rw [hworld]
        exact hm
      · rw [hworld]
        exact mem_claims_after op hm
    rw [← graceUntil_step hz hm hg haway' hmv]
    exact ⟨fun h => h.2.2, fun h => ⟨hz.step hmv, hm', h⟩⟩

/-- Ben's socket ends in match `m1` at instant 0, so his deadline is 45000. -/
def dropped : List Action := matched ++ [.hangup 1] ++ turns 1 1 ""

/-- Ben's new socket opens, and nothing else happens. -/
theorem grace_bounded_iff_dropped :
    ∃ y x, (systemMachine twoUsers).run dropped = some y ∧
      (systemMachine twoUsers).runFrom y ([.accept ben "c3"] ++ turns 2 1 "") = some x ∧
      Graced "m1" "ben" 45000 x.store := by
  have hobs : ((systemMachine twoUsers).run dropped).map (fun y =>
      (y.store.hget "m1" (fun h => h.disconnected "ben"),
        ((systemMachine twoUsers).runFrom y ([.accept ben "c3"] ++ turns 2 1 "")).isSome,
        decide ((systemMachine twoUsers).Along (StaysAway "m1" "ben") y
          ([.accept ben "c3"] ++ turns 2 1 "") ∧
        (systemMachine twoUsers).Along (KeepsDeadline "m1" "ben" 45000) y
          ([.accept ben "c3"] ++ turns 2 1 "")))) = some (some 45000, true, true) := by
    decide +kernel
  obtain ⟨y, hy, hobs⟩ := Option.map_eq_some_iff.mp hobs
  simp only [Prod.mk.injEq, decide_eq_true_eq] at hobs
  obtain ⟨hD, hsome, haway, hkeeps⟩ := hobs
  obtain ⟨x, hx⟩ := Option.isSome_iff_exists.mp hsome
  have h := (grace_bounded_iff hy hx hD (by decide) haway).mpr hkeeps
  exact ⟨y, x, hy, hx, h _ [] x (List.append_nil _).symm hx⟩

/-- Ben's next socket gets no ICE configuration at instant 40000, and its
    Disconnect marks him again; then he connects once more. -/
def halfReturned : List Action :=
  [.tick 40000, .accept ben "c3", .turn 2 ⟨40000, ""⟩ .ok, .turn 2 ⟨40000, ""⟩ .failed,
    .turn 2 ⟨40000, ""⟩ .ok, .accept ben "c4", .turn 3 ⟨40000, ""⟩ .ok]

/-- The deadline is put off from 45000 to 85000 without a Reconnect: a sweep at
    45000 does not end the match, and a Reconnect at 45000 returns true. -/
theorem not_graced_halfReturned :
    ∃ y x, (systemMachine twoUsers).run dropped = some y ∧
      y.store.hget "m1" (fun h => h.disconnected "ben") = some 45000 ∧
      (systemMachine twoUsers).runFrom y halfReturned = some x ∧
      (systemMachine twoUsers).Along (StaysAway "m1" "ben") y halfReturned ∧
      x.store.hget "m1" (fun h => h.disconnected "ben") = some 85000 ∧
      ((Op.disconnectExpiry "m1" "ben" 45000).exec x.store).reply = .ok 0 ∧
      ((Op.reconnect "ben" "c4" "m1" 45000).exec x.store).reply = .ok 1 := by
  have hobs : ((systemMachine twoUsers).run dropped).map (fun y =>
      (y.store.hget "m1" (fun h => h.disconnected "ben"),
        decide ((systemMachine twoUsers).Along (StaysAway "m1" "ben") y halfReturned),
        ((systemMachine twoUsers).runFrom y halfReturned).map fun x =>
          (x.store.hget "m1" (fun h => h.disconnected "ben"),
            decide (((Op.disconnectExpiry "m1" "ben" 45000).exec x.store).reply = .ok 0 ∧
              ((Op.reconnect "ben" "c4" "m1" 45000).exec x.store).reply = .ok 1)))) =
        some (some 45000, true, some (some 85000, true)) := by
    decide +kernel
  obtain ⟨y, hy, hobs⟩ := Option.map_eq_some_iff.mp hobs
  simp only [Prod.mk.injEq, decide_eq_true_eq] at hobs
  obtain ⟨hD, haway, hobs⟩ := hobs
  obtain ⟨x, hx, hobs⟩ := Option.map_eq_some_iff.mp hobs
  simp only [Prod.mk.injEq, decide_eq_true_eq] at hobs
  exact ⟨y, x, hy, hD, hx, haway, hobs.1, hobs.2.1, hobs.2.2⟩

/-! ## The presence of the newest connection -/

/-- What is kept about presences: a newest connection is some session's, and
    while that session goes on, the presence key is held for it. -/
structure System.Present (x : System) : Prop where
  known : ∀ u c, newest x.history u = some c → (c, u) ∈ x.sessions.map Session.who
  held : ∀ s ∈ x.sessions, s.activity ≠ .gone →
    newest x.history s.user.id = some s.connection →
    x.store.HeldSince s.user.id s.connection s.refreshed

section
variable {x x' : System} {a : Action}

theorem who_subset (hmv : Move x a x') :
    x.sessions.map Session.who ⊆ x'.sessions.map Session.who := by
  rcases hmv.who with hsame | ⟨user, c, _, _, hadd⟩
  · rw [hsame]
    exact List.Subset.refl _
  · rw [hadd]
    exact List.subset_append_left _ _

theorem known_step (h : x.Sound) (hp : x.Present) (hmv : Move x a x') {u : UserID}
    {c : ConnectionID} (hnew : newest x'.history u = some c) :
    (c, u) ∈ x'.sessions.map Session.who := by
  rcases h.world hmv with ⟨_, _, hhist⟩ | ⟨op, hop, _, _, hhist⟩
  · rw [hhist] at hnew
    exact who_subset hmv (hp.known u c hnew)
  · rw [hhist, newest_concat] at hnew
    cases hcon : op.connects u with
    | none =>
        rw [hcon, Option.none_or] at hnew
        exact who_subset hmv (hp.known u c hnew)
    | some e =>
        rw [hcon] at hnew
        cases hnew
        -- the session that connects is there
        obtain ⟨v, rfl, rfl⟩ : ∃ v, op = .connect v c ∧ v = u := by
          cases op with
          | connect v e =>
              dsimp only [Op.connects] at hcon
              split at hcon
              · next hvu =>
                  cases hcon
                  exact ⟨v, rfl, hvu⟩
              · cases hcon
          | _ => cases hcon
        rcases System.effect_eq_some hop with ⟨d, _, e⟩ | ⟨fault, hm, _⟩
        · cases e
        · rcases h.makes hm with ⟨s, hs, hd | ⟨_, e⟩⟩ | ⟨t, _, hd⟩
          · obtain ⟨rfl, rfl⟩ := hd.1
            exact who_subset hmv (List.mem_map_of_mem hs)
          · cases e
          · exact hd.elim

/-- A presence that the step does not touch stays held. -/
theorem held_of_untouched (h : x.Sound) (hp : x.Present) (hmv : Move x a x') {s : Session}
    (hs : s ∈ x.sessions) (hact : s.activity ≠ .gone)
    (hno : ∀ op ∈ x.effect a, ¬ op.Touches s.user.id s.connection)
    (hnew : newest x'.history s.user.id = some s.connection) :
    x'.store.HeldSince s.user.id s.connection s.refreshed := by
  rcases h.world hmv with ⟨_, hworld, hhist⟩ | ⟨op, hop, _, hworld, hhist⟩
  · unfold System.store
    rw [hworld]
    rw [hhist] at hnew
    exact hp.held s hs hact hnew
  · have hno := hno op hop
    have hcon : op.connects s.user.id = none := by
      cases op with
      | connect v e => exact if_neg hno
      | _ => rfl
    rw [hhist, newest_concat, hcon, Option.none_or] at hnew
    unfold System.store
    rw [hworld]
    exact heldSince_exec h.coherent (hp.held s hs hact hnew) hno

theorem kept_or_replaced (h : x.Sound) {i : Nat} {s s' s₁ : Session}
    (hs : x.sessions[i]? = some s) (hs' : s' ∈ x.sessions.set i s₁) :
    s' = s₁ ∨ (s' ∈ x.sessions ∧ s'.connection ≠ s.connection) := by
  obtain ⟨j, hj⟩ := List.mem_iff_getElem?.mp hs'
  rw [List.getElem?_set] at hj
  split at hj
  · split at hj
    · cases hj
      exact Or.inl rfl
    · cases hj
  · next hij =>
      -- two sessions never share a connection
      refine Or.inr ⟨List.mem_of_getElem? hj, fun e => hij ?_⟩
      have hi : (x.sessions.map Session.connection)[i]? = some s.connection := by
        rw [List.getElem?_map, hs]
        rfl
      have hj' : (x.sessions.map Session.connection)[j]? = some s.connection := by
        rw [List.getElem?_map, hj, ← e]
        rfl
      have hlt : i < (x.sessions.map Session.connection).length :=
        (List.getElem?_eq_some_iff.mp hi).1
      exact (List.getElem?_inj hlt h.connections).mp (hi.trans hj'.symm)

/-- Another session's call does not touch the presence, unless it connects. -/
theorem untouched_of_other {u v : UserID} {c e : ConnectionID} {tr : List (Exchange api)}
    {op : Op} {l : List Op} (hall : Allowed v e tr (.store op)) (hce : c ≠ e)
    (hnew : newest (l ++ [op]) u = some c) : ¬ op.Touches u c := by
  rw [newest_concat] at hnew
  rcases hall with hd | ⟨now, hop⟩
  · cases op with
    | connect w f =>
        rintro rfl
        obtain ⟨_, rfl⟩ := hd.1
        simp only [Op.connects, if_pos, Option.some_or, Option.some.injEq] at hnew
        exact hce hnew.symm
    | heartbeat w f =>
        rintro ⟨_, rfl⟩
        exact hce hd.1.2
    | disconnect w f now => exact hd.1.elim
    | _ => exact id
  · cases hop
    rintro ⟨_, rfl⟩
    exact hce rfl

/-- A session's call that sets the TTL is for its own presence. -/
theorem touches_of_refreshes {t : Store} {u : UserID} {c : ConnectionID}
    {tr : List (Exchange api)} {call : Call} (hall : Allowed u c tr call)
    (hr : call.refreshes t = true) : ∃ op, call = .store op ∧ op.Touches u c := by
  cases call with
  | store op =>
      refine ⟨op, rfl, ?_⟩
      rcases hall with hd | ⟨_, e⟩
      · cases op with
        | connect v e => exact hd.1.1
        | heartbeat v e => exact hd.1
        | _ => cases hr
      · cases e
        cases hr
  | _ => cases hr

/-- A session's own Connect or heartbeat sets its presence now; a heartbeat that
    finds another presence changes nothing. -/
theorem held_of_own {t : Store} {u : UserID} {c : ConnectionID} {r : Nat}
    {tr : List (Exchange api)} {op : Op} (hall : Allowed u c tr (.store op))
    (htouch : op.Touches u c) (hdis : ∀ now, op ≠ .disconnect u c now)
    (hheld : op.connects u = none → t.HeldSince u c r) :
    (op.exec t).store.HeldSince u c
      (if (Call.store op).refreshes t = true then t.clock else r) := by
  rcases hall with hd | ⟨now, hop⟩
  · cases op with
    | connect v e =>
        obtain ⟨rfl, rfl⟩ := hd.1
        exact heldSince_connect
    | heartbeat v e =>
        obtain ⟨rfl, rfl⟩ := hd.1
        show (t.heartbeatScript v e).store.HeldSince v e _
        by_cases hp : t.presence.get v = some e
        · have hyes : (Call.store (.heartbeat v e)).refreshes t = true := by
            simp [Call.refreshes, heartbeatScript_of_presence hp, Store.answer]
          rw [if_pos hyes, heartbeatScript_of_presence hp]
          exact heldSince_heartbeat hp
        · have hsame : t.heartbeatScript v e = t.answer 0 := by
            unfold Store.heartbeatScript
            exact if_pos hp
          have hno : (Call.store (.heartbeat v e)).refreshes t ≠ true := by
            simp [Call.refreshes, hsame, Store.answer]
          rw [if_neg hno, hsame]
          exact hheld rfl
    | disconnect v e now => exact hd.1.elim
    | _ => exact htouch.elim
  · cases hop
    exact absurd rfl (hdis now)

/-- The session that makes a call: what it holds, and when it last set the TTL. -/
theorem held_of_turn (h : x.Sound) (hp : x.Present) {i : Nat} {d : Draw} {fault : Fault}
    {s : Session} {c : Draw → Call} {k : (d : Draw) → Option (c d).Reply → Proc Next}
    (hs : x.sessions[i]? = some s) (ha : s.activity = .running (.ask c k))
    (hmv : Move x (.turn i d fault) x')
    (hgone : k d (x.env.perform fault (c d)).2 ≠ .done .gone)
    (hnew : newest x'.history s.user.id = some s.connection) :
    x'.store.HeldSince s.user.id s.connection
      (if (decide (fault ≠ .failed) && (c d).refreshes x.store) = true then x.clock
        else s.refreshed) := by
  have hmem := List.mem_of_getElem? hs
  have hact : s.activity ≠ .gone := by
    rw [ha]
    exact fun e => nomatch e
  have hm : x.makes (.turn i d fault) = some (fault, c d) := makes_turn hs ha
  have hall := h.allowed hmem ha d
  by_cases htouch : ∃ op ∈ x.effect (.turn i d fault), op.Touches s.user.id s.connection
  · -- the call is a Connect or a heartbeat of this session, and it took effect
    obtain ⟨op, hop, htouch⟩ := htouch
    rcases System.effect_eq_some hop with ⟨_, e, _⟩ | ⟨fault', hm', hfault⟩
    · cases e
    rw [hm] at hm'
    injection hm' with hm'
    injection hm' with hf hcall
    subst hf
    have hstore : x'.store = (op.exec x.store).store := by
      rcases h.world hmv with ⟨hnone, _⟩ | ⟨op', hop', _, hworld, _⟩
      · rw [hnone] at hop
        cases hop
      · rw [hop] at hop'
        cases hop'
        unfold System.store
        rw [hworld]
        rfl
    rw [hcall] at hall
    rw [hstore, hcall, decide_eq_true hfault, Bool.true_and]
    refine held_of_own hall htouch (fun now e => hgone ?_) fun hcon => ?_
    · rw [e] at hcall
      exact gone_of_disconnect ((h.sessions s hmem).running _ ha) hcall _
    · refine hp.held s hmem hact ?_
      rw [hmv.history_of_makes hm, hcall, Call.ops, if_neg hfault, newest_concat, hcon,
        Option.none_or] at hnew
      exact hnew
  · have hno : ∀ op ∈ x.effect (.turn i d fault), ¬ op.Touches s.user.id s.connection :=
      fun op hop ht => htouch ⟨op, hop, ht⟩
    rw [if_neg]
    · exact held_of_untouched h hp hmv hmem hact hno hnew
    · intro hflag
      rw [Bool.and_eq_true, decide_eq_true_eq] at hflag
      obtain ⟨op, hcall, ht⟩ := touches_of_refreshes hall hflag.2
      refine hno op ?_ ht
      rw [System.effect_of_makes hm, hcall, Call.ops, if_neg hflag.1]
      rfl

/-- A task's call and the passage of time touch no presence. -/
theorem untouched_of_task {u : UserID} {c : ConnectionID} {tr : List (Exchange api)} {op : Op}
    (hd : TaskDisciplined tr (.store op)) : ¬ op.Touches u c := by
  cases op with
  | connect v e | heartbeat v e | disconnect v e now => exact hd.elim
  | _ => exact id

/-- A session that has not ended keeps its presence held at every step. -/
theorem held_step (h : x.Sound) (hp : x.Present) (hmv : Move x a x') {s' : Session}
    (hs' : s' ∈ x'.sessions) (hact' : s'.activity ≠ .gone)
    (hnew : newest x'.history s'.user.id = some s'.connection) :
    x'.store.HeldSince s'.user.id s'.connection s'.refreshed := by
  have hmove := hmv
  cases hmv with
  | accept user c hfresh =>
      rcases List.mem_append.mp hs' with hs | hs
      · exact hp.held s' hs hact' hnew
      · -- nobody has connected on the new connection yet
        rw [List.mem_singleton.mp hs, Session.start_user, Session.start_connection] at hnew
        have hknown := List.mem_map_of_mem (f := Prod.fst) (hp.known _ _ hnew)
        rw [List.map_map] at hknown
        exact absurd hknown hfresh
  | frame i f s since hs ha ht =>
      rcases kept_or_replaced h hs hs' with rfl | ⟨hkept, _⟩
      · rw [Session.start_user, Session.start_connection] at hnew ⊢
        rw [Session.start_refreshed]
        exact hp.held s (List.mem_of_getElem? hs) (by simp [ha]) hnew
      · exact hp.held s' hkept hact' hnew
  | hangup i s since hs ha =>
      rcases kept_or_replaced h hs hs' with rfl | ⟨hkept, _⟩
      · rw [Session.start_user, Session.start_connection] at hnew ⊢
        rw [Session.start_refreshed]
        exact hp.held s (List.mem_of_getElem? hs) (by simp [ha]) hnew
      · exact hp.held s' hkept hact' hnew
  | turn i d fault s c k hs ha hfresh =>
      rcases kept_or_replaced h hs hs' with rfl | ⟨hkept, hother⟩
      · -- the session that makes the call
        rw [Session.receive_user, Session.receive_connection] at hnew ⊢
        rw [Session.receive_refreshed]
        refine held_of_turn h hp hs ha hmove (fun hgone => hact' ?_) hnew
        rw [hgone]
        rfl
      · refine held_of_untouched h hp hmove hkept hact' (fun op hop => ?_) hnew
        rcases System.effect_eq_some hop with ⟨_, e, _⟩ | ⟨fault', hm, hfault⟩
        · cases e
        · have hall := h.allowed (List.mem_of_getElem? hs) ha d
          rw [makes_turn hs ha] at hm
          injection hm with hm
          injection hm with hf hcall
          rw [hcall] at hall
          refine untouched_of_other (l := x.history) hall hother ?_
          rw [← hnew, hmove.history_of_makes (makes_turn hs ha), hcall, hf, Call.ops,
            if_neg hfault]
  | spawn kind => exact hp.held s' hs' hact' hnew
  | taskTurn j d fault t c k ht hr hfresh =>
      refine held_of_untouched h hp hmove hs' hact' (fun op hop => ?_) hnew
      rcases System.effect_eq_some hop with ⟨_, e, _⟩ | ⟨fault', hm, hfault⟩
      · cases e
      · have hd := h.taskDisciplined (List.mem_of_getElem? ht) hr d
        rw [makes_taskTurn ht hr] at hm
        injection hm with hm
        injection hm with hf hcall
        rw [hcall] at hd
        exact untouched_of_task hd
  | tick d =>
      refine held_of_untouched h hp hmove hs' hact' (fun op hop => ?_) hnew
      cases hop
      exact id

theorem System.Present.step (hp : x.Present) (h : x.Sound) (hmv : Move x a x') : x'.Present :=
  ⟨fun _ _ => known_step h hp hmv, fun _ hs hact => held_step h hp hmv hs hact⟩

theorem present_of_run {db : Database} {as : List Action} {x : System}
    (hrun : (systemMachine db).run as = some x) : x.Present := by
  have hboth : x.Sound ∧ x.Present := by
    refine Machine.runFrom_invariant (M := systemMachine db) (P := fun x => x.Sound ∧ x.Present)
      ?_ hrun ⟨.init db, fun _ _ e => (nomatch e), fun _ hs => absurd hs List.not_mem_nil⟩
    rintro y a y' ⟨hy, hp⟩ hstep
    exact ⟨hy.step (step_move hstep), hp.step hy (step_move hstep)⟩
  exact hboth.2

end

/-- The deferred Disconnect of a user's newest connection leaves the user noticed
    exactly if it runs before the presence lapses, counted from the socket's
    last Connect or accepted heartbeat, or if there was nothing to notice. -/
theorem noticed_iff {db : Database} {as : List Action} {x x' : System} {i : Nat} {d : Draw}
    {fault : Fault} {s : Session} {now : UnixMilli} (hrun : (systemMachine db).run as = some x)
    (hs : x.sessions[i]? = some s)
    (hm : x.makes (.turn i d fault) =
      some (fault, .store (.disconnect s.user.id s.connection now)))
    (hfault : fault ≠ .failed) (hnew : newest x.history s.user.id = some s.connection)
    (hstep : x.step (.turn i d fault) = some x') :
    x'.store.Noticed s.user.id ↔
      x.clock ≤ s.refreshed + presenceSpan ∨ x.store.Noticed s.user.id := by
  have hx := sound_of_run hrun
  have heff : x.effect (.turn i d fault) = some (.disconnect s.user.id s.connection now) := by
    rw [System.effect_of_makes hm, Call.ops, if_neg hfault]
    rfl
  -- the Disconnect takes effect, with or without its reply
  have hworld : x'.env.world = x.env.world.after (.disconnect s.user.id s.connection now) := by
    rcases hx.world (step_move hstep) with ⟨hnone, _⟩ | ⟨op, hop, _, hworld, _⟩
    · rw [hnone] at heff
      cases heff
    · rw [heff] at hop
      cases hop
      exact hworld
  -- a session with a call to make has not ended
  have hact : s.activity ≠ .gone := by
    intro hgone
    simp only [System.makes, hs, hgone] at hm
    cases hm
  have hheld := (present_of_run hrun).held s (List.mem_of_getElem? hs) hact hnew
  unfold System.store
  rw [hworld]
  exact (noticed_disconnect hx.coherent).trans (or_congr_left hheld.get)

/-- Ben's socket ends 40 s after it connected, not a moment too late. -/
theorem noticed_iff_justInTime :
    ∃ x x' s, (systemMachine twoUsers).run (matched ++ [.tick 40000, .hangup 1]) = some x ∧
      x.sessions[1]? = some s ∧ x.step (.turn 1 ⟨40000, ""⟩ .ok) = some x' ∧
      x'.store.Noticed "ben" := by
  have hobs : ((systemMachine twoUsers).run (matched ++ [.tick 40000, .hangup 1])).map (fun x =>
      (x.sessions[1]?.map fun s => (s.user.id, s.connection, s.refreshed),
        decide (x.makes (.turn 1 ⟨40000, ""⟩ .ok) =
            some (.ok, .store (.disconnect "ben" "c2" 40000)) ∧
          newest x.history "ben" = some "c2" ∧ x.clock = 40000),
        (x.step (.turn 1 ⟨40000, ""⟩ .ok)).isSome)) =
      some (some ("ben", "c2", 0), true, true) := by
    decide +kernel
  obtain ⟨x, hx, hobs⟩ := Option.map_eq_some_iff.mp hobs
  simp only [Prod.mk.injEq, decide_eq_true_eq] at hobs
  obtain ⟨hs, ⟨hm, hnew, hclock⟩, hstep⟩ := hobs
  obtain ⟨s, hs, hwho⟩ := Option.map_eq_some_iff.mp hs
  simp only [Prod.mk.injEq] at hwho
  obtain ⟨hu, hc, hr⟩ := hwho
  obtain ⟨x', hx'⟩ := Option.isSome_iff_exists.mp hstep
  have h := noticed_iff hx hs (by rw [hu, hc]; exact hm) (by decide) (by rw [hu, hc]; exact hnew)
    hx'
  rw [hu, hclock, hr] at h
  exact ⟨x, x', s, hx, hs, hx', h.mpr (Or.inl (by decide))⟩

/-- Ben's last frame is a signal at instant 10000, and his socket is given up
    35 s later, 45 s after it connected. -/
def unheard : List Action :=
  matched ++ [.tick 10000, .frame 1 (.webrtc ⟨"webrtc.ice", "r", "m1", ""⟩)] ++ turns 1 1 ""
    ++ [.tick 35000, .hangup 1]

/-- The Disconnect finds no presence, so Ben's match goes on without a deadline. -/
theorem not_noticed_unheard :
    ∃ x x' s, (systemMachine twoUsers).run unheard = some x ∧ x.sessions[1]? = some s ∧
      (s.user.id = "ben" ∧ newest x.history "ben" = some s.connection) ∧
      x.makes (.turn 1 ⟨45000, ""⟩ .ok) =
        some (.ok, .store (.disconnect "ben" s.connection 45000)) ∧
      x.step (.turn 1 ⟨45000, ""⟩ .ok) = some x' ∧
      x'.store.userMatch.get "ben" = some "m1" ∧ ¬ x'.store.Noticed "ben" := by
  have hobs : ((systemMachine twoUsers).run unheard).map (fun x =>
      (x.sessions[1]?.map fun s => (s.user.id, s.connection),
        decide (x.makes (.turn 1 ⟨45000, ""⟩ .ok) =
            some (.ok, .store (.disconnect "ben" "c2" 45000)) ∧
          newest x.history "ben" = some "c2"),
        (x.step (.turn 1 ⟨45000, ""⟩ .ok)).map fun x' =>
          decide (x'.store.userMatch.get "ben" = some "m1" ∧
            x'.store.disconnectDeadlines.score ("m1", "ben") = none))) =
      some (some ("ben", "c2"), true, some true) := by
    decide +kernel
  obtain ⟨x, hx, hobs⟩ := Option.map_eq_some_iff.mp hobs
  simp only [Prod.mk.injEq, decide_eq_true_eq] at hobs
  obtain ⟨hs, ⟨hm, hnew⟩, hstep⟩ := hobs
  obtain ⟨s, hs, hwho⟩ := Option.map_eq_some_iff.mp hs
  simp only [Prod.mk.injEq] at hwho
  obtain ⟨hu, hc⟩ := hwho
  obtain ⟨x', hx', hobs⟩ := Option.map_eq_some_iff.mp hstep
  obtain ⟨hptr, hmark⟩ := of_decide_eq_true hobs
  refine ⟨x, x', s, hx, hs, ⟨hu, hnew.trans (congrArg some hc.symm)⟩, hc ▸ hm, hx', hptr, ?_⟩
  rintro ⟨_, hfree | ⟨m, hm, hmarked⟩⟩
  · rw [hptr] at hfree
    cases hfree
  · rw [hptr] at hm
    cases hm
    exact hmarked hmark

end OneMinute
