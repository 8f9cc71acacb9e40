/-
  OneMinute.Discovery.Queue

  The waiting users: the sorted set `queue` and the hash `preferences`.

  `QueueChange` says what an operation does to an entry: nothing, a new one by
  Enqueue, its removal by one of three scripts with the guard each of them has,
  or a claim.  From it: the two keys have the same users (`Store.Waiting`),
  nobody waits who is in a match, and an entry whose connection is still the
  user's presence goes only by that connection or into a match.
-/

import OneMinute.Discovery.Change

namespace OneMinute.Discovery

/-- The two keys agree, and a waiting user has no match. -/
structure Store.Waiting (s : Store) : Prop where
  agree : ∀ u, s.queue.score u = none ↔ s.preferences u = none
  free : ∀ u, s.preferences u ≠ none → s.userMatch.get u = none

/-- What an operation does to the queue, and that no other pointer appears. -/
inductive QueueChange (s : Store) : Op → Outcome → Prop where
  | kept (op : Op) (o : Outcome) (hq : o.store.queue = s.queue)
      (hp : o.store.preferences = s.preferences)
      (hum : ∀ u, s.userMatch.get u = none → o.store.userMatch.get u = none) :
      QueueChange s op o
  | joined (u : UserID) (c : ConnectionID) (p : Preferences) (now : UnixMilli)
      (hpres : s.presence.get u = some c) (hfree : s.userMatch.get u = none) :
      QueueChange s (.enqueue u c p now) ((s.enqueued u c p now).answer 1)
  | removed (op : Op) (o : Outcome) (u : UserID) (hq : o.store.queue = s.queue.zrem u)
      (hp : ∀ x, o.store.preferences x = if x = u then none else s.preferences x)
      (hum : o.store.userMatch = s.userMatch)
      (hwhy : (∃ c, s.presence.get u = some c ∧
          (op = .leaveQueue u c ∨ ∃ now, op = .disconnect u c now)) ∨
        ∃ encoded, s.preferences u = some encoded ∧
          s.presence.get u ≠ some encoded.connectionID) :
      QueueChange s op o
  | claimed (k : Claim) (o : Outcome) (ho : o.store = s.claimed k) (hreply : o.reply = .ok 1) :
      QueueChange s (.claim k) o

theorem Effect.queueChange {s : Store} {op : Op} {o : Outcome} (he : Effect s op o) :
    QueueChange s op o := by
  cases he with
  | enqueue u c p now hp hm => exact .joined u c p now hp hm
  | leaveQueue u c hp =>
      exact .removed _ _ u rfl (fun _ => rfl) rfl (Or.inl ⟨c, hp, Or.inl rfl⟩)
  | cleanupQueued u encoded he hp =>
      exact .removed _ _ u rfl (fun _ => rfl) rfl (Or.inr ⟨encoded, he, hp⟩)
  | disconnectFree u c now hp hfree =>
      exact .removed _ _ u rfl (fun _ => rfl) rfl (Or.inl ⟨c, hp, Or.inr ⟨now, rfl⟩⟩)
  | disconnect u c now m h p hp hm hh hb =>
      exact .removed _ _ u rfl (fun _ => rfl) rfl (Or.inl ⟨c, hp, Or.inr ⟨now, rfl⟩⟩)
  | claim k => exact .claimed k _ rfl rfl
  | heartbeat u c hp =>
      unfold Store.refreshed
      split
      · exact .kept _ _ rfl rfl fun _ h => h
      · exact .kept _ _ rfl rfl fun _ h => (Keyspace.get_expire _ _ _ _).trans h
  | tick d =>
      refine .kept _ _ rfl rfl fun u h => ?_
      show (s.userMatch.lapse _).get u = none
      rw [Keyspace.get_lapse, h, ite_self]
  | endMatch | endForUser | expire | disconnectExpiry =>
      -- the end of a match takes pointers away
      refine .kept _ _ rfl rfl fun u h => ?_
      simp only [Store.ended, Store.closed, Keyspace.get_del, h, ite_self]
  | _ => exact .kept _ _ rfl rfl fun _ h => h

namespace Store.Waiting

variable {s : Store}

theorem init : Store.empty.Waiting :=
  ⟨fun _ => ⟨fun _ => rfl, fun _ => rfl⟩, fun _ h => absurd rfl h⟩

/-- Removing one entry takes it out of both keys. -/
theorem removed {t : Store} (hw : s.Waiting) (u : UserID) (hq : t.queue = s.queue.zrem u)
    (hp : ∀ x, t.preferences x = if x = u then none else s.preferences x)
    (hum : t.userMatch = s.userMatch) : t.Waiting where
  agree := by
    intro x
    rw [hq, hp, SortedSet.score_zrem]
    by_cases hx : x = u
    · simp [hx]
    · rw [if_neg hx, if_neg hx]
      exact hw.agree x
  free := by
    intro x hx
    rw [hp] at hx
    rw [hum]
    split at hx
    · exact absurd rfl hx
    · exact hw.free x hx

theorem joined {u : UserID} {c : ConnectionID} {p : Preferences} {now : UnixMilli}
    (hw : s.Waiting) (hfree : s.userMatch.get u = none) : (s.enqueued u c p now).Waiting where
  agree := by
    intro x
    show (s.queue.zadd u now).score x = none ↔
      (if x = u then some ⟨c, p⟩ else s.preferences x) = none
    rw [SortedSet.score_zadd]
    by_cases hx : x = u
    · simp [hx]
    · rw [if_neg hx, if_neg hx]
      exact hw.agree x
  free := by
    intro x hx
    show s.userMatch.get x = none
    by_cases hxu : x = u
    · rw [hxu]
      exact hfree
    · exact hw.free x (by simpa [Store.enqueued, hxu] using hx)

/-- Both users of a claim leave the queue, and nobody else gets a pointer. -/
theorem claimed (hw : s.Waiting) (k : Claim) : (s.claimed k).Waiting := by
  have hboth : ((s.dequeue k.userA).dequeue k.userB).Waiting :=
    (hw.removed (t := s.dequeue k.userA) k.userA rfl (fun _ => rfl) rfl).removed k.userB rfl
      (fun _ => rfl) rfl
  refine ⟨hboth.agree, fun x hx => ?_⟩
  have hne : ¬ (x = k.userB ∨ x = k.userA) := by
    rintro (rfl | rfl)
    · simp [Store.claimed, Store.dequeue] at hx
    · simp [Store.claimed, Store.dequeue] at hx
  rw [Store.get_userMatch_claimed, if_neg hne]
  exact hboth.free x hx

theorem change {op : Op} {o : Outcome} (hw : s.Waiting) (hchange : QueueChange s op o) :
    o.store.Waiting := by
  cases hchange with
  | kept _ _ hq hp hum =>
      constructor
      · intro u
        rw [hq, hp]
        exact hw.agree u
      · intro u hu
        rw [hp] at hu
        exact hum u (hw.free u hu)
  | joined u c p now hpres hfree => exact hw.joined hfree
  | removed _ _ u hq hp hum hwhy => exact hw.removed u hq hp hum
  | claimed k _ ho _ =>
      rw [ho]
      exact hw.claimed k

end Store.Waiting

theorem waiting_of_run {as : List Op} {w : World} (hrun : storeMachine.run as = some w) :
    w.store.Waiting := by
  refine (Machine.run_invariant
    (P := fun v => Coherent v.store v.claims ∧ v.store.Waiting)
    ⟨Coherent.init, .init⟩ ?_ hrun).2
  rintro v op v' ⟨hc, hw⟩ hstep
  obtain ⟨hp, rfl⟩ := step_eq_some.mp hstep
  exact ⟨coherent_after hc hp, hw.change (exec_effect hc.seated op).queueChange⟩

theorem enqueue_accepted {s : Store} {u : UserID} {c : ConnectionID} {p : Preferences}
    {now : UnixMilli} (h : (s.enqueueScript u c p now).reply = .ok 1) :
    s.enqueueScript u c p now = (s.enqueued u c p now).answer 1 ∧ s.presence.get u = some c := by
  unfold Store.enqueueScript at h ⊢
  split at h
  · cases h
  · next hok =>
      rw [if_neg hok]
      rw [not_or, not_not] at hok
      exact ⟨rfl, hok.1⟩

/-- An entry was there before, or an Enqueue has just written it. -/
theorem entry_before {s : Store} {op : Op} {o : Outcome} {v : UserID} {state : QueuedState}
    (hchange : QueueChange s op o) (h : o.store.preferences v = some state) :
    s.preferences v = some state ∨
      ∃ now, op = .enqueue v state.connectionID state.preferences now ∧ o.reply = .ok 1 ∧
        s.presence.get v = some state.connectionID := by
  cases hchange with
  | kept _ _ _ hp _ =>
      rw [hp] at h
      exact Or.inl h
  | joined u c p now hpres _ =>
      have h : (if v = u then some ⟨c, p⟩ else s.preferences v) = some state := h
      split at h
      · next hvu =>
          cases h
          rw [hvu]
          exact Or.inr ⟨now, rfl, rfl, hpres⟩
      · exact Or.inl h
  | removed _ _ u _ hp _ _ =>
      rw [hp] at h
      split at h
      · cases h
      · exact Or.inl h
  | claimed k _ ho _ =>
      rw [ho] at h
      have h : (if v = k.userB then none else
          if v = k.userA then none else s.preferences v) = some state := h
      split at h
      · cases h
      · split at h
        · cases h
        · exact Or.inl h

/-- An entry whose connection is the user's presence stays, except by what that
    connection does and by a claim of the user. -/
theorem entry_after {s : Store} {op : Op} {o : Outcome} {u : UserID} {c : ConnectionID}
    {p : Preferences} (hchange : QueueChange s op o) (he : s.preferences u = some ⟨c, p⟩)
    (hpres : s.presence.get u = some c) :
    o.store.preferences u = some ⟨c, p⟩ ∨
      (∃ p' now, op = .enqueue u c p' now ∧ o.store.preferences u = some ⟨c, p'⟩) ∨
      op = .leaveQueue u c ∨ (∃ now, op = .disconnect u c now) ∨
      ∃ k, op = .claim k ∧ o.reply = .ok 1 ∧ (k.userA = u ∨ k.userB = u) := by
  cases hchange with
  | kept _ _ _ hp _ =>
      rw [hp]
      exact Or.inl he
  | joined v e p' now hpres' _ =>
      by_cases hv : u = v
      · -- the user joins again, on the same presence
        rw [← hv, hpres] at hpres'
        cases hpres'
        exact Or.inr (Or.inl ⟨p', now, by rw [hv], by simp [Store.answer, Store.enqueued, hv]⟩)
      · refine Or.inl ?_
        simpa [Store.answer, Store.enqueued, hv] using he
  | removed _ _ v _ hp _ hwhy =>
      by_cases hv : u = v
      · subst hv
        rcases hwhy with ⟨e, hpres', hop⟩ | ⟨encoded, he', hne⟩
        · rw [hpres] at hpres'
          cases hpres'
          exact hop.elim (fun h => Or.inr (Or.inr (Or.inl h)))
            fun h => Or.inr (Or.inr (Or.inr (Or.inl h)))
        -- the cleanup found another presence
        · rw [he] at he'
          cases he'
          exact absurd hpres hne
      · rw [hp, if_neg hv]
        exact Or.inl he
  | claimed k _ ho hreply =>
      by_cases hk : k.userA = u ∨ k.userB = u
      · exact Or.inr (Or.inr (Or.inr (Or.inr ⟨k, rfl, hreply, hk⟩)))
      · rw [not_or] at hk
        rw [ho]
        refine Or.inl ?_
        simpa [Store.claimed, Store.dequeue, Ne.symm hk.1, Ne.symm hk.2] using he

/-! ## Integrity -/

/-- In every run: the members of `queue` are the users with a `preferences`
    field; none of them has a user-match pointer; and at every step, an entry of
    connection `c` while `c` is the user's presence stays an entry of `c`, unless
    `c` itself leaves the queue or disconnects, or a claim of the user succeeds.
    No Candidates scan, whatever it has read, takes it out. -/
theorem queue_integrity {as : List Op} {w : World} (hrun : storeMachine.run as = some w) :
    (∀ u, w.store.queue.score u ≠ none ↔ w.store.preferences u ≠ none) ∧
    (∀ u, w.store.queue.score u ≠ none → w.store.userMatch.get u = none) ∧
    ∀ op w', storeMachine.step w op = some w' → ∀ u c p,
      w.store.preferences u = some ⟨c, p⟩ → w.store.presence.get u = some c →
        (w'.store.queue.score u ≠ none ∧
          (w'.store.preferences u = some ⟨c, p⟩ ∨
            ∃ p' now, op = .enqueue u c p' now ∧ w'.store.preferences u = some ⟨c, p'⟩)) ∨
        op = .leaveQueue u c ∨ (∃ now, op = .disconnect u c now) ∨
        ∃ k, op = .claim k ∧ (op.exec w.store).reply = .ok 1 ∧ (k.userA = u ∨ k.userB = u) := by
  have hw := waiting_of_run hrun
  refine ⟨fun u => not_congr (hw.agree u), fun u hu => hw.free u (mt (hw.agree u).mpr hu), ?_⟩
  intro op w' hstep u c p he hpres
  have hw' : w'.store.Waiting :=
    waiting_of_run (Machine.runFrom_concat_eq_some.mpr ⟨w, hrun, hstep⟩)
  obtain ⟨_, rfl⟩ := step_eq_some.mp hstep
  have hchange := (exec_effect (coherent_of_run hrun).seated op).queueChange
  rcases entry_after hchange he hpres with hsame | ⟨p', now, hop, hnew⟩ | hrest
  · have hsame : (w.after op).store.preferences u = some ⟨c, p⟩ := hsame
    exact Or.inl ⟨mt (hw'.agree u).mp (by rw [hsame]; simp), Or.inl hsame⟩
  · have hnew : (w.after op).store.preferences u = some ⟨c, p'⟩ := hnew
    exact Or.inl ⟨mt (hw'.agree u).mp (by rw [hnew]; simp), Or.inr ⟨p', now, hop, hnew⟩⟩
  · exact Or.inr hrest

/-- Ann queued on `c1`, came back on `c3` and queued again. -/
def requeued : List Op :=
  [.connect "ann" "c1", .enqueue "ann" "c1" somePreferences 0,
   .connect "ann" "c3", .enqueue "ann" "c3" somePreferences 5]

/-- A scan that read Ann's first entry does not drop the second. -/
theorem queue_integrity_requeued :
    ∃ w, storeMachine.run requeued = some w ∧
      (w.after (.cleanupQueued "ann" ⟨"c1", somePreferences⟩)).store.queue.score "ann" ≠ none := by
  have hobs : (storeMachine.run requeued).map (fun w =>
      decide (w.store.preferences "ann" = some ⟨"c3", somePreferences⟩ ∧
        w.store.presence.get "ann" = some "c3")) = some true := by
    decide +kernel
  obtain ⟨w, hw, hobs⟩ := Option.map_eq_some_iff.mp hobs
  obtain ⟨he, hp⟩ := of_decide_eq_true hobs
  refine ⟨w, hw, ?_⟩
  have hstep : storeMachine.step w (.cleanupQueued "ann" ⟨"c1", somePreferences⟩) = some _ :=
    step_eq_some.mpr ⟨trivial, rfl⟩
  rcases (queue_integrity hw).2.2 _ _ hstep "ann" "c3" _ he hp with
    ⟨hstays, _⟩ | hop | ⟨_, hop⟩ | ⟨_, hop, _⟩
  · exact hstays
  all_goals cases hop

end OneMinute.Discovery
