/-
  OneMinute.Discovery.Bookkeeping

  The encounter bookkeeping: each live match and the two pointers to it
  (`Linked`), and the two deadline indexes (`Indexed`).

  Both need that expiry does not tear a match apart.  `PointersKept` is that
  condition on the passage of time: while a match hash stays, the pointers of
  its participants stay.  Without it a silent participant's pointer lapses
  while the other's heartbeats keep the hash, and a rematch makes the user a
  participant of two live matches.
-/

import OneMinute.Discovery.Change

namespace OneMinute.Discovery

/-! ## Linked matches -/

/-- Both participants of a live match point to it. -/
def Store.Linked (s : Store) : Prop :=
  ∀ m h u, s.matches_.get m = some h → h.Has u → s.userMatch.get u = some m

/-- No user is a participant of two live matches. -/
def Store.Exclusive (s : Store) : Prop :=
  ∀ m m' h h' u, s.matches_.get m = some h → s.matches_.get m' = some h' →
    h.Has u → h'.Has u → m = m'

/-- A step of time keeps the two pointers of every claimed match whose hash it
    keeps. -/
def PointersKept (w : World) : Op → Prop
  | .tick d =>
    ∀ k ∈ w.claims, ∀ u ∈ [k.userA, k.userB],
      ((w.store.advance d).matches_.get k.matchID).isSome →
        w.store.userMatch.get u = some k.matchID →
          (w.store.advance d).userMatch.get u = some k.matchID
  | _ => True

instance (w : World) : (op : Op) → Decidable (PointersKept w op)
  | .tick d =>
    inferInstanceAs (Decidable (∀ k ∈ w.claims, ∀ u ∈ [k.userA, k.userB],
      ((w.store.advance d).matches_.get k.matchID).isSome →
        w.store.userMatch.get u = some k.matchID →
          (w.store.advance d).userMatch.get u = some k.matchID))
  | .connect .. | .heartbeat .. | .enqueue .. | .leaveQueue .. | .cleanupQueued ..
  | .claim .. | .reconnect .. | .signal .. | .extend .. | .connectVote ..
  | .publishConnection .. | .endMatch .. | .endForUser .. | .disconnect .. | .expire ..
  | .disconnectExpiry .. => isTrue trivial

theorem Store.Linked.exclusive {s : Store} (hl : s.Linked) : s.Exclusive := by
  intro m m' h h' u hh hh' hu hu'
  have h1 := hl m h u hh hu
  rw [hl m' h' u hh' hu'] at h1
  exact (Option.some.inj h1).symm

/-- The participants of a match have no pointer to another one. -/
theorem Store.Linked.ne_of_pointer {s : Store} {m x : MatchID} {h : MatchHash} {u a b : UserID}
    (hl : s.Linked) (hh : s.matches_.get m = some h) (ha : h.a = some a) (hb : h.b = some b)
    (hu : s.userMatch.get u = some x) (hxm : x ≠ m) : u ≠ a ∧ u ≠ b := by
  constructor
  · rintro rfl
    rw [hl m h u hh (Or.inl ha)] at hu
    exact hxm (Option.some.inj hu).symm
  · rintro rfl
    rw [hl m h u hh (Or.inr hb)] at hu
    exact hxm (Option.some.inj hu).symm

/-- A permitted operation keeps matches linked, if time keeps the pointers. -/
theorem linked_after {w : World} {op : Op} (hc : Coherent w.store w.claims)
    (hp : op.Permitted w) (hk : PointersKept w op) (hl : w.store.Linked) :
    (w.after op).store.Linked := by
  have hchange := exec_change hc op
  show (op.exec w.store).store.Linked
  generalize op.exec w.store = o at hchange ⊢
  cases hchange with
  | kept _ _ hum hma _ _ _ _ _ =>
      intro m h u hh hu
      rw [hma] at hh
      rw [hum]
      exact hl m h u hh hu
  | written _ _ m h f n hw hh _ hum hma _ _ _ =>
      intro x h' u hx hu
      rw [hma] at hx
      rw [hum]
      split at hx
      · next hxm =>
          cases hx
          rw [hxm]
          exact hl m h u hh ((hw.has u).mp hu)
      · exact hl x h' u hx hu
  | claimed k hA hB =>
      intro x h' u hx hu
      rw [hc.get_claimed hp.2] at hx
      rw [Store.get_userMatch_claimed]
      split at hx
      · next hxm =>
          cases hx
          -- the new match: both pointers were just set
          rw [if_pos ((MatchHash.has_iff (MatchHash.records_new k)).mp hu).symm, hxm]
      · -- an older match: neither user of the claim had a pointer
        have hold := hl x h' u hx hu
        have huA : u ≠ k.userA := by
          rintro rfl
          rw [hA] at hold
          cases hold
        have huB : u ≠ k.userB := by
          rintro rfl
          rw [hB] at hold
          cases hold
        rw [if_neg (not_or.mpr ⟨huB, huA⟩)]
        exact hold
  | closed _ m h a b _ _ hh ha hb =>
      intro x h' u hx hu
      simp only [Store.ended, Store.closed, Keyspace.get_del] at hx ⊢
      split at hx
      · cases hx
      · next hxm =>
          have hold := hl x h' u hx hu
          obtain ⟨hua, hub⟩ := hl.ne_of_pointer hh ha hb hold hxm
          rw [if_neg hub, if_neg hua]
          exact hold
  | lapsed d =>
      intro x h' u hx hu
      have hx : (w.store.advance d).matches_.get x = some h' := hx
      show (w.store.advance d).userMatch.get u = some x
      have hx' := (Keyspace.get_of_get_lapse hx).1
      obtain ⟨k, hkm, hkx, hr⟩ := hc.records x h' hx'
      -- time keeps the pointers, by the condition on the step
      refine hkx ▸ hk k hkm u ?_ ?_ ?_
      · simpa using (MatchHash.has_iff hr).mp hu
      · rw [hkx, hx]
        rfl
      · rw [hkx]
        exact hl x h' u hx' hu

theorem linked_of_run {as : List Op} {w : World} (hrun : storeMachine.run as = some w)
    (hk : storeMachine.Along PointersKept storeMachine.init as) : w.store.Linked := by
  refine (Machine.runFrom_invariant_along
    (P := fun w => Coherent w.store w.claims ∧ w.store.Linked) ?_ hrun hk ?_).2
  · rintro w op w' ⟨hc, hl⟩ hC hstep
    obtain ⟨hp, rfl⟩ := step_eq_some.mp hstep
    exact ⟨coherent_after hc hp, linked_after hc hp hC hl⟩
  · refine ⟨Coherent.init, ?_⟩
    intro m h u hh
    cases hh

/-! ## Exclusivity over timed runs -/

/-- If `op` ends a match, it deletes no pointer to another match. -/
def EndsOwn (w : World) (op : Op) : Prop :=
  ∀ m, op.ends = some m → (op.exec w.store).reply = .ok 1 →
    ∀ u x, w.store.userMatch.get u = some x → x ≠ m →
      (w.after op).store.userMatch.get u = some x

theorem Store.Linked.endsOwn {w : World} (hc : Coherent w.store w.claims)
    (hl : w.store.Linked) (op : Op) : EndsOwn w op := by
  intro m hends _ u x hu hxm
  have hchange := exec_change hc op
  show (op.exec w.store).store.userMatch.get u = some x
  generalize op.exec w.store = o at hchange ⊢
  cases hchange with
  | kept _ _ hum _ _ _ _ _ _ => rw [hum, hu]
  | written _ _ _ _ _ _ _ _ _ hum _ _ _ _ => rw [hum, hu]
  | claimed k _ _ => cases hends
  | closed _ m' h a b _ hends' hh ha hb =>
      rw [hends] at hends'
      cases hends'
      obtain ⟨hua, hub⟩ := hl.ne_of_pointer hh ha hb hu hxm
      simp only [Store.ended, Store.closed, Keyspace.get_del]
      rw [if_neg hub, if_neg hua, hu]
  | lapsed d => cases hends

/-- Over any timed run whose steps of time keep the pointers of the matches
    they keep, no user is a participant of two live matches, and no script that
    ends a match deletes a pointer to another one. -/
theorem exclusive_of_pointersKept {as : List Op} {w : World}
    (hrun : storeMachine.run as = some w)
    (hk : storeMachine.Along PointersKept storeMachine.init as) :
    w.store.Exclusive ∧ ∀ op, EndsOwn w op := by
  have hl := linked_of_run hrun hk
  exact ⟨hl.exclusive, hl.endsOwn (coherent_of_run hrun)⟩

/-- Ann and Ben both stay heard for a while, then Ben leaves. -/
def heardRun : List Op :=
  meeting ++
    [.tick 30000, .heartbeat "ann" "c1", .heartbeat "ben" "c2", .tick 30000,
     .heartbeat "ann" "c1"]

theorem exclusive_of_pointersKept_heardRun :
    ∃ w, storeMachine.run heardRun = some w ∧
      w.store.Exclusive ∧ ∀ op, EndsOwn w op := by
  have hsome : (storeMachine.run heardRun).isSome = true := by decide +kernel
  obtain ⟨w, hw⟩ := Option.isSome_iff_exists.mp hsome
  exact ⟨w, hw, exclusive_of_pointersKept hw (by decide +kernel)⟩

/-- Ben falls silent in an extended match that Ann's heartbeats keep, comes
    back after his pointer lapsed and is matched with Cat. -/
def silentRun : List Op :=
  meeting ++
  [.extend "ann" "c1" "m1" 1000, .extend "ben" "c2" "m1" 2000] ++
  (List.replicate 10 [Op.tick 30000, .heartbeat "ann" "c1"]).flatten ++
  [.tick 1000,
   .connect "ben" "c3", .enqueue "ben" "c3" somePreferences 301000,
   .connect "cat" "c4", .enqueue "cat" "c4" somePreferences 301000,
   .claim (claimOf "cat" "ben" "c4" "c3" "m2" 301000)]

/-- Ben is then in `m1` and in `m2`, and Ann's leaving `m1` deletes his pointer
    to `m2`. -/
theorem not_exclusive_silentRun :
    ∃ w, storeMachine.run silentRun = some w ∧ ¬ w.store.Exclusive ∧
      ¬ EndsOwn w (.endMatch "ann" "c1" "m1" .left) := by
  have hobs : (storeMachine.run silentRun).map (fun w =>
      (w.store.hget "m1" MatchHash.b, w.store.hget "m2" MatchHash.b,
        w.store.userMatch.get "ben",
        decide (((Op.endMatch "ann" "c1" "m1" .left).exec w.store).reply = .ok 1),
        (w.after (.endMatch "ann" "c1" "m1" .left)).store.userMatch.get "ben")) =
      some (some "ben", some "ben", some "m2", true, none) := by
    decide +kernel
  obtain ⟨w, hw, hobs⟩ := Option.map_eq_some_iff.mp hobs
  simp only [Prod.mk.injEq, decide_eq_true_eq] at hobs
  obtain ⟨h1, h2, hptr, hreply, hgone⟩ := hobs
  refine ⟨w, hw, ?_, ?_⟩
  · intro hex
    obtain ⟨g1, hg1, hb1⟩ := Option.bind_eq_some_iff.mp h1
    obtain ⟨g2, hg2, hb2⟩ := Option.bind_eq_some_iff.mp h2
    exact absurd (hex "m1" "m2" g1 g2 "ben" hg1 hg2 (Or.inr hb1) (Or.inr hb2)) (by decide)
  · intro hown
    have hkept := hown "m1" rfl hreply "ben" "m2" hptr (by decide)
    rw [hgone] at hkept
    cases hkept

/-! ## Indexed matches

The rest concerns runs in which no key lapses at all.
-/

/-- A step of time on which no key expires. -/
def NoLapse (w : World) (op : Op) : Prop :=
  ∀ d, op = .tick d →
    (∀ u, Keyspace.Alive (w.store.clock + d) (w.store.presence.expiry u)) ∧
    (∀ u, Keyspace.Alive (w.store.clock + d) (w.store.userMatch.expiry u)) ∧
    (∀ m, Keyspace.Alive (w.store.clock + d) (w.store.matches_.expiry m)) ∧
    (∀ p, Keyspace.Alive (w.store.clock + d) (w.store.recent.expiry p))

/-- Index members belong to live matches. -/
structure Store.Indexed (s : Store) : Prop where
  deadline : ∀ m, s.deadlines.score m ≠ none → s.matches_.get m ≠ none
  marker : ∀ m u, s.disconnectDeadlines.score (m, u) ≠ none → s.matches_.get m ≠ none

theorem NoLapse.pointersKept {w : World} {op : Op} (hn : NoLapse w op) : PointersKept w op := by
  cases op with
  | tick d =>
      intro k _ u _ _ hu
      show (w.store.userMatch.lapse (w.store.clock + d)).get u = some k.matchID
      rw [Keyspace.get_lapse, if_pos ((hn d rfl).2.1 u)]
      exact hu
  | _ => trivial

/-- Operations other than `tick` cannot lapse a key. -/
theorem noLapse_of_not_tick {w : World} {op : Op} (hop : ∀ d, op ≠ .tick d) : NoLapse w op :=
  fun d e => absurd e (hop d)

theorem indexed_after {w : World} {op : Op} (hc : Coherent w.store w.claims)
    (hp : op.Permitted w) (hn : NoLapse w op) (hi : w.store.Indexed) :
    (w.after op).store.Indexed := by
  have hchange := exec_change hc op
  show (op.exec w.store).store.Indexed
  generalize op.exec w.store = o at hchange ⊢
  cases hchange with
  | kept _ _ _ hma hdl hdd _ _ _ =>
      refine ⟨fun m hm => ?_, fun m u hm => ?_⟩
      · rw [hma]
        exact hi.deadline m (hdl m hm)
      · rw [hma]
        exact hi.marker m u (hdd _ hm)
  | written _ _ m h f _ _ hh _ _ hma hdl hdd _ =>
      -- a write removes no hash
      have hlive : ∀ x, w.store.matches_.get x ≠ none → o.store.matches_.get x ≠ none := by
        intro x hx
        rw [hma]
        split
        · simp
        · exact hx
      refine ⟨fun x hx => hlive x (hi.deadline x (hdl x hx)), fun x u hx => ?_⟩
      rcases hdd x u hx with hold | rfl
      · exact hlive x (hi.marker x u hold)
      · exact hlive x (by rw [hh]; simp)
  | claimed k hA hB =>
      have hget := hc.get_claimed hp.2
      refine ⟨fun x hx => ?_, fun x u hx => ?_⟩
      · rw [hget]
        split
        · simp
        · next hxm =>
            refine hi.deadline x ?_
            have hx : (w.store.claimed k).deadlines.score x ≠ none := hx
            rwa [Store.score_deadlines_claimed, if_neg hxm] at hx
      · rw [hget]
        split
        · simp
        · exact hi.marker x u hx
  | closed _ m h a b _ _ hh ha hb =>
      refine ⟨fun x hx => ?_, fun x u hx => ?_⟩
      · simp only [Store.ended, Store.closed, SortedSet.score_zrem] at hx
        split at hx
        · exact absurd rfl hx
        · next hxm =>
            simp only [Store.ended, Store.closed, Keyspace.get_del, if_neg hxm]
            exact hi.deadline x hx
      · simp only [Store.ended, Store.closed] at hx
        have hold := zrem_shrinks _ _ _ (zrem_shrinks _ _ _ hx)
        have hxm : x ≠ m := by
          -- the members of `m` are those of its two participants
          rintro rfl
          simp only [SortedSet.score_zrem] at hx
          rcases (hc.marker_has hh hold).eq_or_eq ha hb with rfl | rfl
          · simp at hx
          · simp at hx
        simp only [Store.ended, Store.closed, Keyspace.get_del, if_neg hxm]
        exact hi.marker x u hold
  | lapsed d =>
      have hkeep : ∀ x, (w.store.advance d).matches_.get x = w.store.matches_.get x := by
        intro x
        show (w.store.matches_.lapse (w.store.clock + d)).get x = _
        rw [Keyspace.get_lapse, if_pos ((hn d rfl).2.2.1 x)]
      refine ⟨fun x hx => ?_, fun x u hx => ?_⟩
      · show (w.store.advance d).matches_.get x ≠ none
        rw [hkeep]
        exact hi.deadline x hx
      · show (w.store.advance d).matches_.get x ≠ none
        rw [hkeep]
        exact hi.marker x u hx

theorem indexed_of_run {as : List Op} {w : World} (hrun : storeMachine.run as = some w)
    (hn : storeMachine.Along NoLapse storeMachine.init as) : w.store.Indexed := by
  refine (Machine.runFrom_invariant_along
    (P := fun w => Coherent w.store w.claims ∧ w.store.Indexed) ?_ hrun hn ?_).2
  · rintro w op w' ⟨hc, hi⟩ hC hstep
    obtain ⟨hp, rfl⟩ := step_eq_some.mp hstep
    exact ⟨coherent_after hc hp, indexed_after hc hp hC hi⟩
  · exact ⟨Coherent.init, fun m hm => absurd rfl hm, fun m u hm => absurd rfl hm⟩

/-! ## The bookkeeping of a store -/

/-- A match of two users is live exactly when both point to it. -/
def MatchIndex (s : Store) : Prop :=
  ∀ m a b, a ≠ b →
    ((∃ h, s.matches_.get m = some h ∧ h.Between a b) ↔
      s.userMatch.get a = some m ∧ s.userMatch.get b = some m)

/-- `deadlines` holds exactly the live active matches, at their `expiresAt`. -/
def DeadlineIndex (s : Store) : Prop :=
  ∀ m t, s.deadlines.score m = some t ↔
    ∃ h, s.matches_.get m = some h ∧ h.state = some .active ∧ h.expiresAt = some t

/-- A participant of the live match `m` has the disconnect marker `t`. -/
def Marked (s : Store) (m : MatchID) (u : UserID) (t : UnixMilli) : Prop :=
  ∃ h, s.matches_.get m = some h ∧ h.Has u ∧ h.disconnected u = some t

/-- `disconnect-deadlines` holds exactly the markers of live matches. -/
def DisconnectIndex (s : Store) : Prop :=
  ∀ m u t, s.disconnectDeadlines.score (m, u) = some t ↔ Marked s m u t

/-- The same up to markers of value 0, which the sweep takes for absent. -/
def DisconnectIndexNonzero (s : Store) : Prop :=
  ∀ m u t, (s.disconnectDeadlines.score (m, u) = some t → Marked s m u t) ∧
    (t ≠ 0 → Marked s m u t → s.disconnectDeadlines.score (m, u) = some t)

section
variable {s : Store} {claims : List Claim}

theorem matchIndex_of_linked (hc : Coherent s claims) (hl : s.Linked) : MatchIndex s := by
  intro m a b hab
  constructor
  · rintro ⟨h, hh, hbet⟩
    exact ⟨hl m h a hh hbet.has, hl m h b hh hbet.symm.has⟩
  · rintro ⟨hma, hmb⟩
    obtain ⟨h, hh, ha⟩ := hc.pointer a m hma
    obtain ⟨h', hh', hb⟩ := hc.pointer b m hmb
    rw [hh] at hh'
    cases hh'
    refine ⟨h, hh, hab, ?_⟩
    obtain ⟨k, _, _, hr⟩ := hc.records m h hh
    rw [MatchHash.has_iff hr] at ha hb
    rw [hr.a, hr.b]
    grind

theorem deadlineIndex_of_indexed (hc : Coherent s claims) (hi : s.Indexed) :
    DeadlineIndex s := by
  intro m t
  constructor
  · intro ht
    have hsome : s.deadlines.score m ≠ none := by rw [ht]; simp
    obtain ⟨h, hh⟩ := Option.ne_none_iff_exists'.mp (hi.deadline m hsome)
    -- score and field are both the expiry of the claim
    obtain ⟨k, hk, hkm, hkt⟩ := hc.deadline_known m t ht
    refine ⟨h, hh, hc.deadline_active m h hsome hh, ?_⟩
    rw [(hc.records_unique hk hkm hh).expiresAt, hkt]
  · rintro ⟨h, hh, hst, hexp⟩
    obtain ⟨t', ht'⟩ := Option.ne_none_iff_exists'.mp (hc.active_deadline m h hh hst)
    obtain ⟨k, hk, hkm, hkt⟩ := hc.deadline_known m t' ht'
    rw [(hc.records_unique hk hkm hh).expiresAt, ← hkt] at hexp
    rw [ht', hexp]

theorem disconnectIndex_of_indexed (hc : Coherent s claims) (hi : s.Indexed) :
    DisconnectIndexNonzero s := by
  intro m u t
  constructor
  · intro ht
    have hsome : s.disconnectDeadlines.score (m, u) ≠ none := by rw [ht]; simp
    obtain ⟨h, hh⟩ := Option.ne_none_iff_exists'.mp (hi.marker m u hsome)
    exact ⟨h, hh, hc.marker_has hh hsome, hc.marker m u t h ht hh⟩
  · rintro hne ⟨h, hh, _, hd⟩
    exact hc.indexed m u t h hh hd hne

end

/-- In every run in which no key lapses: a match is live exactly when both
    participants point to it, no user is in two, `deadlines` holds exactly the
    active ones, and `disconnect-deadlines` exactly the markers other than 0,
    a member of it being a marker in any case. -/
theorem bookkeeping_of_noLapse {as : List Op} {w : World}
    (hrun : storeMachine.run as = some w)
    (hn : storeMachine.Along NoLapse storeMachine.init as) :
    MatchIndex w.store ∧ w.store.Exclusive ∧ DeadlineIndex w.store ∧
      DisconnectIndexNonzero w.store := by
  have hc := coherent_of_run hrun
  have hl := linked_of_run hrun (hn.mono fun _ _ => NoLapse.pointersKept)
  have hi := indexed_of_run hrun hn
  exact ⟨matchIndex_of_linked hc hl, hl.exclusive, deadlineIndex_of_indexed hc hi,
    disconnectIndex_of_indexed hc hi⟩

def Op.isTick : Op → Bool
  | .tick _ => true
  | _ => false

/-- A run without `tick` lapses no key. -/
theorem along_noLapse {as : List Op}
    (h : storeMachine.Along (fun _ op => op.isTick = false) storeMachine.init as) :
    storeMachine.Along NoLapse storeMachine.init as :=
  h.mono fun _ _ hop => noLapse_of_not_tick fun d e => by rw [e] at hop; cases hop

/-- Ben disconnects at an ordinary instant. -/
def markedRun : List Op := meeting ++ [.disconnect "ben" "c2" 5000]

theorem bookkeeping_of_noLapse_markedRun :
    ∃ w, storeMachine.run markedRun = some w ∧ MatchIndex w.store ∧ w.store.Exclusive ∧
      DeadlineIndex w.store ∧ DisconnectIndexNonzero w.store := by
  have hsome : (storeMachine.run markedRun).isSome = true := by decide +kernel
  obtain ⟨w, hw⟩ := Option.isSome_iff_exists.mp hsome
  exact ⟨w, hw, bookkeeping_of_noLapse hw (along_noLapse (by decide +kernel))⟩

/-- Ben disconnects 45 seconds before the Unix epoch, so his marker is 0, and a
    sweep runs at the epoch. -/
def epochRun : List Op :=
  meeting ++ [.disconnect "ben" "c2" (-45000), .disconnectExpiry "m1" "ben" 0]

/-- The sweep then drops the member and leaves the marker and the match. -/
theorem not_disconnectIndex_epochRun :
    ∃ w, storeMachine.run epochRun = some w ∧
      storeMachine.Along NoLapse storeMachine.init epochRun ∧ ¬ DisconnectIndex w.store := by
  have hobs : (storeMachine.run epochRun).map (fun w =>
      (w.store.disconnectDeadlines.score ("m1", "ben"), w.store.hget "m1" MatchHash.b,
        w.store.hget "m1" fun h => h.disconnected "ben")) =
      some (none, some "ben", some 0) := by
    decide +kernel
  obtain ⟨w, hw, hobs⟩ := Option.map_eq_some_iff.mp hobs
  simp only [Prod.mk.injEq] at hobs
  obtain ⟨hnone, hb, hd⟩ := hobs
  refine ⟨w, hw, along_noLapse (by decide +kernel), ?_⟩
  intro hidx
  obtain ⟨h, hh, hd⟩ := Option.bind_eq_some_iff.mp hd
  obtain ⟨h', hh', hb⟩ := Option.bind_eq_some_iff.mp hb
  rw [hh] at hh'
  cases hh'
  rw [(hidx "m1" "ben" 0).mpr ⟨h, hh, Or.inr hb, hd⟩] at hnone
  cases hnone

end OneMinute.Discovery
