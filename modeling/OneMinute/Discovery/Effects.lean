/-
  OneMinute.Discovery.Effects

  What an operation can do.  `Effect s op o` lists, one constructor per branch
  of the scripts, the guards that hold in `s` and the outcome `o`;
  `exec_effect` shows that every operation does one of these, as long as every
  match hash names two distinct participants (`Seated`, which the runs keep).
  Nothing downstream unfolds a script again.
-/

import OneMinute.Discovery.Operations

namespace OneMinute.Discovery

namespace MatchHash

/-- `u` is a participant. -/
def Has (h : MatchHash) (u : UserID) : Prop := h.a = some u ∨ h.b = some u

/-- `u` and `p` are the two participants, in either order. -/
def Between (h : MatchHash) (u p : UserID) : Prop :=
  u ≠ p ∧ ((h.a = some u ∧ h.b = some p) ∨ (h.a = some p ∧ h.b = some u))

theorem Between.has {h : MatchHash} {u p : UserID} (hb : h.Between u p) : h.Has u := by
  rcases hb.2 with ⟨h1, _⟩ | ⟨_, h2⟩
  · exact Or.inl h1
  · exact Or.inr h2

/-- A participant is one of the two that the hash names. -/
theorem Has.eq_or_eq {h : MatchHash} {u a b : UserID} (hu : h.Has u) (ha : h.a = some a)
    (hb : h.b = some b) : u = a ∨ u = b := by
  rcases hu with e | e
  · rw [ha] at e
    exact Or.inl (Option.some.inj e).symm
  · rw [hb] at e
    exact Or.inr (Option.some.inj e).symm

theorem Between.symm {h : MatchHash} {u p : UserID} (hb : h.Between u p) : h.Between p u :=
  ⟨hb.1.symm, hb.2.symm⟩

end MatchHash

namespace Store

/-- Every match hash names two distinct participants. -/
def Seated (s : Store) : Prop :=
  ∀ m h, s.matches_.get m = some h → ∃ a b, a ≠ b ∧ h.a = some a ∧ h.b = some b

/-! ## The stores the scripts leave -/

/-- After an accepted heartbeat. -/
def refreshed (s : Store) (u : UserID) : Store :=
  match s.userMatch.get u with
  | none => { s with presence := s.presence.expire u (s.ttl presenceTTL) }
  | some m =>
    { s with
      presence := s.presence.expire u (s.ttl presenceTTL)
      userMatch := s.userMatch.expire u (s.ttl matchTTL)
      matches_ := s.matches_.expire m (s.ttl matchTTL) }

/-- After an accepted enqueue. -/
def enqueued (s : Store) (u : UserID) (c : ConnectionID) (p : Preferences)
    (now : UnixMilli) : Store :=
  { s with
    preferences := fun x => if x = u then some ⟨c, p⟩ else s.preferences x
    queue := s.queue.zadd u now }

/-- After a successful claim. -/
def claimed (s : Store) (k : Claim) : Store :=
  let q := (s.dequeue k.userA).dequeue k.userB
  let t := s.ttl matchTTL
  { q with
    matches_ := (q.matches_.modify k.matchID {} k.hash).expire k.matchID t
    userMatch := (q.userMatch.put k.userA k.matchID (some t)).put k.userB k.matchID (some t)
    recent := q.recent.put (recentKey k.userA k.userB) () (some (s.ttl recentTTL))
    deadlines := q.deadlines.zadd k.matchID (k.now + encounterLength) }

/-- After a successful reconnect. -/
def unmarked (s : Store) (m : MatchID) (u : UserID) : Store :=
  { s.hset m (MatchHash.setDisconnected u none) with
    disconnectDeadlines := s.disconnectDeadlines.zrem (m, u) }

/-- After the second Extend vote. -/
def extended (s : Store) (m : MatchID) (u : UserID) (now : UnixMilli) : Store :=
  { s.hset m (MatchHash.setExtended now ∘ MatchHash.setExtend u) with
    deadlines := s.deadlines.zrem m }

/-- After the end of `m` between `a` and `b`. -/
def closed (s : Store) (m : MatchID) (a b : UserID) : Store :=
  { s with
    userMatch := (s.userMatch.del a).del b
    deadlines := s.deadlines.zrem m
    disconnectDeadlines := (s.disconnectDeadlines.zrem (m, a)).zrem (m, b)
    matches_ := s.matches_.del m }

/-- After an effective disconnect, before the match is looked up. -/
def departed (s : Store) (u : UserID) : Store :=
  { s with presence := s.presence.del u }.dequeue u

/-- After an effective disconnect of a participant. -/
def marked (s : Store) (m : MatchID) (u : UserID) (deadline : UnixMilli) : Store :=
  { (s.departed u).hset m (MatchHash.setDisconnected u (some deadline)) with
    disconnectDeadlines := s.disconnectDeadlines.zadd (m, u) deadline }

/-- The outcome of the end of `m` between `a` and `b`. -/
def ended (s : Store) (m : MatchID) (a b : UserID) (reason : EndReason) : Outcome :=
  ⟨.ok 1, s.closed m a b, [(a, .matchEnded m reason), (b, .matchEnded m reason)]⟩

section
variable (s : Store) (k : Claim)

/-! The keys after a claim. -/

theorem get_matches_claimed (x : MatchID) : (s.claimed k).matches_.get x =
    if x = k.matchID then some (k.hash ((s.matches_.get k.matchID).getD {}))
    else s.matches_.get x := by
  simp only [claimed, dequeue, Keyspace.get_expire, Keyspace.get_modify]

theorem expiry_matches_claimed (x : MatchID) : (s.claimed k).matches_.expiry x =
    if x = k.matchID then some (s.ttl matchTTL) else s.matches_.expiry x := by
  simp only [claimed, dequeue, Keyspace.expiry_expire, Keyspace.get_modify,
    Keyspace.expiry_modify]
  split
  · rfl
  · rfl

theorem get_userMatch_claimed (v : UserID) : (s.claimed k).userMatch.get v =
    if v = k.userB ∨ v = k.userA then some k.matchID else s.userMatch.get v := by
  simp only [claimed, dequeue, Keyspace.get_put, ite_or]

theorem expiry_userMatch_claimed (v : UserID) : (s.claimed k).userMatch.expiry v =
    if v = k.userB ∨ v = k.userA then some (s.ttl matchTTL) else s.userMatch.expiry v := by
  simp only [claimed, dequeue, Keyspace.expiry_put, ite_or]

theorem score_deadlines_claimed (x : MatchID) : (s.claimed k).deadlines.score x =
    if x = k.matchID then some (k.now + encounterLength) else s.deadlines.score x := by
  simp only [claimed, dequeue, SortedSet.score_zadd]

end

end Store

/-! ## The branches -/

inductive Effect (s : Store) : Op → Outcome → Prop where
  | refused (op : Op) (n : Int) (hn : n ≤ 0) : Effect s op (s.answer n)
  | connect (u : UserID) (c : ConnectionID) :
      Effect s (.connect u c)
        ({ s with presence := s.presence.put u c (some (s.ttl presenceTTL)) }.answer 1)
  | heartbeat (u : UserID) (c : ConnectionID) (hp : s.presence.get u = some c) :
      Effect s (.heartbeat u c) ((s.refreshed u).answer 1)
  | enqueue (u : UserID) (c : ConnectionID) (p : Preferences) (now : UnixMilli)
      (hp : s.presence.get u = some c) (hm : s.userMatch.get u = none) :
      Effect s (.enqueue u c p now) ((s.enqueued u c p now).answer 1)
  | leaveQueue (u : UserID) (c : ConnectionID) (hp : s.presence.get u = some c) :
      Effect s (.leaveQueue u c) ((s.dequeue u).answer 1)
  | cleanupQueued (u : UserID) (encoded : QueuedState) (he : s.preferences u = some encoded)
      (hp : s.presence.get u ≠ some encoded.connectionID) :
      Effect s (.cleanupQueued u encoded) ((s.dequeue u).answer 1)
  | claim (k : Claim) (hpA : s.presence.get k.userA = some k.connectionA)
      (hpB : s.presence.get k.userB = some k.connectionB)
      (hmA : s.userMatch.get k.userA = none) (hmB : s.userMatch.get k.userB = none)
      (hqA : s.queue.score k.userA ≠ none) (hqB : s.queue.score k.userB ≠ none)
      (hr : s.recent.get (Store.recentKey k.userA k.userB) = none ∨ k.allowRecent = true) :
      Effect s (.claim k)
        ⟨.ok 1, s.claimed k,
          [(k.userA, .matchFound k.matchID k.eventA), (k.userB, .matchFound k.matchID k.eventB)]⟩
  | reconnect (u : UserID) (c : ConnectionID) (m : MatchID) (now : UnixMilli) (h : MatchHash)
      (p : UserID) (hp : s.presence.get u = some c) (hm : s.userMatch.get u = some m)
      (hh : s.matches_.get m = some h) (hb : h.Between u p)
      (hd : ¬ (0 < (h.disconnected u).getD 0 ∧ (h.disconnected u).getD 0 ≤ now)) :
      Effect s (.reconnect u c m now) ⟨.ok 1, s.unmarked m u, [(p, .peerReconnected m)]⟩
  | signal (u : UserID) (c : ConnectionID) (env : Envelope) (h : MatchHash) (p : UserID)
      (hp : s.presence.get u = some c) (hm : s.userMatch.get u = some env.matchID)
      (hh : s.matches_.get env.matchID = some h) (hb : h.Between u p)
      (hpeer : s.presence.get p ≠ none) :
      Effect s (.signal u c env) ⟨.ok 1, s, [(p, .signal env)]⟩
  | alreadyExtended (u : UserID) (c : ConnectionID) (m : MatchID) (now : UnixMilli)
      (h : MatchHash) (hp : s.presence.get u = some c) (hm : s.userMatch.get u = some m)
      (hh : s.matches_.get m = some h) (hu : h.Has u) (hst : h.state = some .extended) :
      Effect s (.extend u c m now) (s.answer 2)
  | extendVote (u : UserID) (c : ConnectionID) (m : MatchID) (now : UnixMilli) (h : MatchHash)
      (p : UserID) (hp : s.presence.get u = some c) (hm : s.userMatch.get u = some m)
      (hh : s.matches_.get m = some h) (hb : h.Between u p) (hst : h.state = some .active)
      (hnow : now < h.expiresAt.getD 0) (hv : h.extend p = false) :
      Effect s (.extend u c m now) ((s.hset m (MatchHash.setExtend u)).answer 1)
  | extendBoth (u : UserID) (c : ConnectionID) (m : MatchID) (now : UnixMilli) (h : MatchHash)
      (a b : UserID) (hp : s.presence.get u = some c) (hm : s.userMatch.get u = some m)
      (hh : s.matches_.get m = some h) (ha : h.a = some a) (hb : h.b = some b)
      (hu : u = a ∨ u = b) (hst : h.state = some .active)
      (hnow : now < h.expiresAt.getD 0) (hv : ∀ p, h.Between u p → h.extend p = true) :
      Effect s (.extend u c m now)
        ⟨.ok 2, s.extended m u now, [(a, .matchExtended m now), (b, .matchExtended m now)]⟩
  | alreadyPersisted (u : UserID) (c : ConnectionID) (m : MatchID) (now : UnixMilli)
      (h : MatchHash) (hp : s.presence.get u = some c) (hm : s.userMatch.get u = some m)
      (hh : s.matches_.get m = some h) (hu : h.Has u)
      (hst : h.state = some .extended ∨ h.state = some .active ∧ now < h.expiresAt.getD 0)
      (hv : h.connectPersisted = true) :
      Effect s (.connectVote u c m now) (s.answer 3)
  | connectVote (u : UserID) (c : ConnectionID) (m : MatchID) (now : UnixMilli) (h : MatchHash)
      (p : UserID) (hp : s.presence.get u = some c) (hm : s.userMatch.get u = some m)
      (hh : s.matches_.get m = some h) (hb : h.Between u p)
      (hst : h.state = some .extended ∨ h.state = some .active ∧ now < h.expiresAt.getD 0)
      (hv : h.connectPersisted = false) :
      Effect s (.connectVote u c m now)
        ((s.hset m (MatchHash.setConnect u)).answer (if h.connect p then 2 else 1))
  | publishConnection (m : MatchID) (connectionID : String) (h : MatchHash) (a b : UserID)
      (hh : s.matches_.get m = some h) (ha : h.a = some a) (hb : h.b = some b)
      (hva : h.connect a = true) (hvb : h.connect b = true) (hv : h.connectPersisted = false) :
      Effect s (.publishConnection m connectionID)
        ⟨.ok 1, s.hset m (MatchHash.setPersisted connectionID),
          [(a, .connectionCreated m connectionID), (b, .connectionCreated m connectionID)]⟩
  | endMatch (u : UserID) (c : ConnectionID) (m : MatchID) (reason : EndReason) (h : MatchHash)
      (a b : UserID) (hp : s.presence.get u = some c) (hm : s.userMatch.get u = some m)
      (hh : s.matches_.get m = some h) (ha : h.a = some a) (hb : h.b = some b)
      (hu : u = a ∨ u = b) :
      Effect s (.endMatch u c m reason) (s.ended m a b reason)
  | endForUser (u : UserID) (m : MatchID) (reason : EndReason) (h : MatchHash)
      (a b : UserID) (hm : s.userMatch.get u = some m)
      (hh : s.matches_.get m = some h) (ha : h.a = some a) (hb : h.b = some b)
      (hu : u = a ∨ u = b) :
      Effect s (.endForUser u m reason) (s.ended m a b reason)
  | disconnectFree (u : UserID) (c : ConnectionID) (now : UnixMilli)
      (hp : s.presence.get u = some c)
      (hfree : ∀ m h, s.userMatch.get u = some m → s.matches_.get m = some h → ¬ h.Has u) :
      Effect s (.disconnect u c now) ((s.departed u).answer 1)
  | disconnect (u : UserID) (c : ConnectionID) (now : UnixMilli) (m : MatchID) (h : MatchHash)
      (p : UserID) (hp : s.presence.get u = some c) (hm : s.userMatch.get u = some m)
      (hh : s.matches_.get m = some h) (hb : h.Between u p) :
      Effect s (.disconnect u c now)
        ⟨.ok 1, s.marked m u (now + reconnectGrace),
          [(p, .peerDisconnected m (now + reconnectGrace))]⟩
  | expire (m : MatchID) (now : UnixMilli) (h : MatchHash) (a b : UserID)
      (hd : s.deadlines.score m ≠ none) (hh : s.matches_.get m = some h)
      (ha : h.a = some a) (hb : h.b = some b) (hst : h.state = some .active)
      (hnow : h.expiresAt.getD 0 ≤ now) :
      Effect s (.expire m now) (s.ended m a b .expired)
  | expireStale (m : MatchID) (now : UnixMilli) (hd : s.deadlines.score m ≠ none)
      (hh : s.matches_.get m = none) :
      Effect s (.expire m now) ({ s with deadlines := s.deadlines.zrem m }.answer 0)
  | disconnectExpiry (m : MatchID) (u : UserID) (now : UnixMilli) (h : MatchHash) (a b : UserID)
      (t : UnixMilli) (hd : s.disconnectDeadlines.score (m, u) = some t) (ht : t ≤ now)
      (hh : s.matches_.get m = some h) (ha : h.a = some a) (hb : h.b = some b)
      (hne : (h.disconnected u).getD 0 ≠ 0) (hnow : (h.disconnected u).getD 0 ≤ now) :
      Effect s (.disconnectExpiry m u now) (s.ended m a b .peerDisconnected)
  | disconnectExpiryStale (m : MatchID) (u : UserID) (now t : UnixMilli)
      (hd : s.disconnectDeadlines.score (m, u) = some t) (ht : t ≤ now)
      (hstale : ∀ h, s.matches_.get m = some h →
        (h.disconnected u).getD 0 = 0 ∨ now < (h.disconnected u).getD 0) :
      Effect s (.disconnectExpiry m u now)
        ({ s with disconnectDeadlines := s.disconnectDeadlines.zrem (m, u) }.answer 0)
  | tick (d : Nat) : Effect s (.tick d) ((s.advance d).answer 1)

/-! ## Every operation takes one of the branches -/

section
variable {s : Store} {u : UserID} {c : ConnectionID} {m : MatchID} {now : UnixMilli}

theorem hget_of_some {α : Type} {h : MatchHash} (hh : s.matches_.get m = some h)
    (field : MatchHash → Option α) : s.hget m field = field h := by
  simp [Store.hget, hh]

theorem hget_of_none {α : Type} (hh : s.matches_.get m = none)
    (field : MatchHash → Option α) : s.hget m field = none := by
  simp [Store.hget, hh]

theorem hset_hset (s : Store) (m : MatchID) (f g : MatchHash → MatchHash) :
    (s.hset m f).hset m g = s.hset m (g ∘ f) := by
  simp only [Store.hset, Keyspace.modify_modify]

/-- A field read after a write into the hash. -/
theorem hget_hset {α : Type} {h : MatchHash} (hh : s.matches_.get m = some h)
    (f : MatchHash → MatchHash) (field : MatchHash → Option α) :
    (s.hset m f).hget m field = field (f h) := by
  simp [Store.hget, Store.hset, Keyspace.get_modify, hh]

theorem other_cases {h : MatchHash} {a b : UserID} (hne : a ≠ b) (ha : h.a = some a)
    (hb : h.b = some b) :
    (Store.other u h.a h.b = none ∧ ¬ h.Has u) ∨
      ∃ p, Store.other u h.a h.b = some (some p) ∧ h.Between u p := by
  unfold Store.other MatchHash.Has MatchHash.Between
  by_cases hua : u = a
  · exact Or.inr ⟨b, by simp [ha, hb, hua], by rw [hua]; exact hne, Or.inl ⟨by rw [ha, hua], hb⟩⟩
  · by_cases hub : u = b
    · refine Or.inr ⟨a, by simp [ha, hb, hub, hne.symm], ?_, Or.inr ⟨ha, by rw [hb, hub]⟩⟩
      rw [hub]
      exact hne.symm
    · have hua' : ¬ a = u := fun e => hua e.symm
      have hub' : ¬ b = u := fun e => hub e.symm
      exact Or.inl ⟨by simp [ha, hb, hua, hub], by simp [ha, hb, hua', hub']⟩

/-- The scripts' check that the caller is a participant. -/
theorem participant_of_not {h : MatchHash} {a b : UserID} (ha : h.a = some a)
    (hb : h.b = some b) (hnot : ¬ (some u ≠ h.a ∧ some u ≠ h.b)) : u = a ∨ u = b := by
  rw [ha, hb] at hnot
  by_contra hcon
  exact hnot ⟨fun e => hcon (Or.inl (Option.some.inj e)),
    fun e => hcon (Or.inr (Option.some.inj e))⟩

/-- The peer the vote scripts pick. -/
theorem between_peer {h : MatchHash} {a b : UserID} (hne : a ≠ b) (ha : h.a = some a)
    (hb : h.b = some b) (hu : u = a ∨ u = b) :
    ∃ p, (if some u = h.b then h.a else h.b) = some p ∧ h.Between u p := by
  rcases hu with rfl | rfl
  · refine ⟨b, ?_, hne, Or.inl ⟨ha, hb⟩⟩
    rw [hb, if_neg (fun e => hne (Option.some.inj e))]
  · refine ⟨a, ?_, hne.symm, Or.inr ⟨ha, hb⟩⟩
    rw [hb, if_pos rfl, ha]

/-- The end of a match, once both participants are read. -/
theorem finish_eq {h : MatchHash} {a b : UserID} (hh : s.matches_.get m = some h)
    (ha : h.a = some a) (hb : h.b = some b) (reason : EndReason) :
    s.finish m reason = s.ended m a b reason := by
  simp only [Store.finish, hget_of_some hh, ha, hb]
  rfl

/-- A heartbeat on the user's presence. -/
theorem heartbeatScript_of_presence (hp : s.presence.get u = some c) :
    s.heartbeatScript u c = (s.refreshed u).answer 1 := by
  unfold Store.heartbeatScript Store.refreshed
  rw [if_neg (not_not.mpr hp)]
  dsimp only
  cases s.userMatch.get u <;> rfl

theorem heartbeat_effect : Effect s (.heartbeat u c) (s.heartbeatScript u c) := by
  by_cases hp : s.presence.get u = some c
  · rw [heartbeatScript_of_presence hp]
    exact .heartbeat u c hp
  · unfold Store.heartbeatScript
    rw [if_pos hp]
    exact .refused _ _ le_rfl

theorem enqueue_effect (p : Preferences) :
    Effect s (.enqueue u c p now) (s.enqueueScript u c p now) := by
  unfold Store.enqueueScript
  split
  · exact .refused _ _ le_rfl
  · next hg =>
      rw [not_or, not_not, Option.not_isSome_iff_eq_none] at hg
      exact .enqueue u c p now hg.1 hg.2

theorem leaveQueue_effect : Effect s (.leaveQueue u c) (s.leaveQueueScript u c) := by
  unfold Store.leaveQueueScript
  split
  · exact .refused _ _ le_rfl
  · next hp => exact .leaveQueue u c (not_not.mp hp)

theorem cleanupQueued_effect (encoded : QueuedState) :
    Effect s (.cleanupQueued u encoded) (s.cleanupQueuedScript u encoded) := by
  unfold Store.cleanupQueuedScript
  split
  · exact .refused _ _ le_rfl
  · next he =>
      split
      · exact .refused _ _ le_rfl
      · next hp => exact .cleanupQueued u encoded (not_not.mp he) hp

theorem claim_effect (k : Claim) : Effect s (.claim k) (s.claimScript k) := by
  unfold Store.claimScript
  split
  · exact .refused _ _ le_rfl
  · next hp =>
      split
      · exact .refused _ _ le_rfl
      · next hm =>
          split
          · exact .refused _ _ le_rfl
          · next hq =>
              split
              · exact .refused _ _ le_rfl
              · next hr =>
                  rw [not_or, not_not, not_not] at hp
                  rw [not_or, Option.not_isSome_iff_eq_none, Option.not_isSome_iff_eq_none] at hm
                  rw [not_or] at hq
                  rw [not_and_or, Option.not_isSome_iff_eq_none, Bool.not_eq_false] at hr
                  exact .claim k hp.1 hp.2 hm.1 hm.2 hq.1 hq.2 hr

theorem reconnect_effect (hs : s.Seated) :
    Effect s (.reconnect u c m now) (s.reconnectScript u c m now) := by
  unfold Store.reconnectScript
  split
  · exact .refused _ _ le_rfl
  · next hg =>
      rw [not_or, not_not, not_not] at hg
      cases hh : s.matches_.get m with
      | none =>
          rw [hget_of_none hh, hget_of_none hh]
          exact .refused _ _ le_rfl
      | some h =>
          obtain ⟨a, b, hne, ha, hb⟩ := hs m h hh
          rw [hget_of_some hh, hget_of_some hh, hget_of_some hh]
          rcases other_cases (u := u) hne ha hb with ⟨ho, _⟩ | ⟨p, ho, hbet⟩
          -- not a participant
          · rw [ho]
            exact .refused _ _ le_rfl
          · simp only [ho]
            split
            · exact .refused _ _ le_rfl
            · next hd => exact .reconnect u c m now h p hg.1 hg.2 hh hbet hd

theorem signal_effect (hs : s.Seated) (env : Envelope) :
    Effect s (.signal u c env) (s.signalScript u c env) := by
  unfold Store.signalScript
  split
  · exact .refused _ _ le_rfl
  · next hg =>
      rw [not_or, not_not, not_not] at hg
      cases hh : s.matches_.get env.matchID with
      | none =>
          rw [hget_of_none hh, hget_of_none hh]
          exact .refused _ _ le_rfl
      | some h =>
          obtain ⟨a, b, hne, ha, hb⟩ := hs _ h hh
          rw [hget_of_some hh, hget_of_some hh]
          rcases other_cases (u := u) hne ha hb with ⟨ho, _⟩ | ⟨p, ho, hbet⟩
          · rw [ho]
            exact .refused _ _ le_rfl
          · simp only [ho]
            split
            · exact .refused _ _ le_rfl
            · next hpeer =>
                exact .signal u c env h p hg.1 hg.2 hh hbet
                  (fun e => hpeer (by rw [e]; rfl))

theorem extend_effect (hs : s.Seated) :
    Effect s (.extend u c m now) (s.extendScript u c m now) := by
  unfold Store.extendScript
  split
  · exact .refused _ _ le_rfl
  · next hg =>
      rw [not_or, not_not, not_not] at hg
      cases hh : s.matches_.get m with
      | none =>
          simp only [hget_of_none hh]
          exact .refused _ _ le_rfl
      | some h =>
          obtain ⟨a, b, hne, ha, hb⟩ := hs m h hh
          simp only [hget_of_some hh]
          split
          · exact .refused _ _ le_rfl
          · next hpart =>
              have hu := participant_of_not ha hb hpart
              obtain ⟨p, hpeer, hbet⟩ := between_peer hne ha hb hu
              split
              · next hst => exact .alreadyExtended u c m now h hg.1 hg.2 hh hbet.has hst
              · split
                · exact .refused _ _ (by decide)
                · next hact =>
                    rw [not_or, not_not, not_le] at hact
                    have hvote : (s.hset m (MatchHash.setExtend u)).hget m
                        (fun h => some (h.extend p)) = some (h.extend p) := by
                      rw [hget_hset hh]
                      simp [MatchHash.setExtend, hbet.1.symm]
                    simp only [hpeer, hvote]
                    split
                    -- the peer has not voted
                    · next hv =>
                        exact .extendVote u c m now h p hg.1 hg.2 hh hbet hact.1 hact.2
                          (by simpa using hv)
                    · next hv =>
                        -- the peer is the only other participant
                        have hall : ∀ q, h.Between u q → h.extend q = true := by
                          intro q hq
                          have : q = p := by
                            have h1 := hq.2
                            have h2 := hbet.2
                            rw [ha, hb] at h1 h2
                            grind
                          rw [this]
                          simpa using hv
                        rw [ha, hb, hset_hset]
                        exact .extendBoth u c m now h a b hg.1 hg.2 hh ha hb hu hact.1 hact.2 hall

theorem connectVote_effect (hs : s.Seated) :
    Effect s (.connectVote u c m now) (s.connectScript u c m now) := by
  unfold Store.connectScript
  split
  · exact .refused _ _ le_rfl
  · next hg =>
      rw [not_or, not_not, not_not] at hg
      cases hh : s.matches_.get m with
      | none =>
          simp only [hget_of_none hh]
          exact .refused _ _ le_rfl
      | some h =>
          obtain ⟨a, b, hne, ha, hb⟩ := hs m h hh
          simp only [hget_of_some hh]
          split
          · exact .refused _ _ le_rfl
          · next hpart =>
              have hu := participant_of_not ha hb hpart
              obtain ⟨p, hpeer, hbet⟩ := between_peer hne ha hb hu
              split
              · exact .refused _ _ (by decide)
              · next hst =>
                  rw [not_and_or, not_not, not_or, not_not, not_le] at hst
                  split
                  · next hv =>
                      exact .alreadyPersisted u c m now h hg.1 hg.2 hh hbet.has hst
                        (by simpa using hv)
                  · next hv =>
                      have hvote : (s.hset m (MatchHash.setConnect u)).hget m
                          (fun h => some (h.connect p)) = some (h.connect p) := by
                        rw [hget_hset hh]
                        simp [MatchHash.setConnect, hbet.1.symm]
                      have he := Effect.connectVote u c m now h p hg.1 hg.2 hh hbet hst
                        (by simpa using hv)
                      simp only [hpeer, hvote]
                      -- the answer says whether the peer had voted
                      cases hcp : h.connect p with
                      | false => simpa [hcp] using he
                      | true => simpa [hcp] using he

theorem publishConnection_effect (connectionID : String) :
    Effect s (.publishConnection m connectionID) (s.publishConnectionScript m connectionID) := by
  unfold Store.publishConnectionScript
  cases hh : s.matches_.get m with
  | none =>
      simp only [hget_of_none hh]
      exact .refused _ _ le_rfl
  | some h =>
      simp only [hget_of_some hh]
      split
      · next a b ha hb =>
          split
          · exact .refused _ _ le_rfl
          · next hv =>
              rw [not_or, not_not, not_not] at hv
              split
              · exact .refused _ _ le_rfl
              · next hp =>
                  exact .publishConnection m connectionID h a b hh ha hb
                    (Option.some.inj hv.1) (Option.some.inj hv.2) (by simpa using hp)
      · exact .refused _ _ le_rfl

theorem endMatch_effect (hs : s.Seated) (reason : EndReason) :
    Effect s (.endMatch u c m reason) (s.endScript u c m reason) := by
  unfold Store.endScript
  split
  · exact .refused _ _ le_rfl
  · next hg =>
      rw [not_or, not_not, not_not] at hg
      cases hh : s.matches_.get m with
      | none =>
          rw [hget_of_none hh, hget_of_none hh]
          exact .refused _ _ le_rfl
      | some h =>
          obtain ⟨a, b, _, ha, hb⟩ := hs m h hh
          rw [hget_of_some hh, hget_of_some hh]
          split
          · exact .refused _ _ le_rfl
          · next hpart =>
              rw [finish_eq hh ha hb]
              exact .endMatch u c m reason h a b hg.1 hg.2 hh ha hb
                (participant_of_not ha hb hpart)

theorem endForUser_effect (hs : s.Seated) (reason : EndReason) :
    Effect s (.endForUser u m reason) (s.endForUserScript u m reason) := by
  unfold Store.endForUserScript
  split
  · exact .refused _ _ le_rfl
  · next hm =>
      cases hh : s.matches_.get m with
      | none =>
          rw [hget_of_none hh, hget_of_none hh]
          exact .refused _ _ le_rfl
      | some h =>
          obtain ⟨a, b, _, ha, hb⟩ := hs m h hh
          rw [hget_of_some hh, hget_of_some hh]
          split
          · exact .refused _ _ le_rfl
          · next hpart =>
              rw [finish_eq hh ha hb]
              exact .endForUser u m reason h a b (not_not.mp hm) hh ha hb
                (participant_of_not ha hb hpart)

theorem disconnect_effect (hs : s.Seated) :
    Effect s (.disconnect u c now) (s.disconnectScript u c (now + reconnectGrace)) := by
  unfold Store.disconnectScript
  split
  · exact .refused _ _ le_rfl
  · next hp =>
      have hp := not_not.mp hp
      have hdep : ({ s with presence := s.presence.del u } : Store).dequeue u = s.departed u := rfl
      have hptr : (s.departed u).userMatch.get u = s.userMatch.get u := rfl
      have hfield : ∀ (m : MatchID) (f : MatchHash → Option UserID),
          (s.departed u).hget m f = s.hget m f := fun _ _ => rfl
      -- the match is looked up after the presence and the queue entry went
      simp only [hdep, hptr, hfield]
      cases hm : s.userMatch.get u with
      | none => exact .disconnectFree u c now hp fun m h hm' => by rw [hm] at hm'; cases hm'
      | some m =>
          cases hh : s.matches_.get m with
          | none =>
              -- a pointer without a hash is no match
              simp only [hget_of_none hh]
              refine .disconnectFree u c now hp ?_
              intro m' h hm' hh'
              rw [hm] at hm'
              cases hm'
              rw [hh] at hh'
              cases hh'
          | some h =>
              obtain ⟨a, b, hne, ha, hb⟩ := hs m h hh
              simp only [hget_of_some hh]
              rcases other_cases (u := u) hne ha hb with ⟨ho, hfree⟩ | ⟨p, ho, hbet⟩
              · simp only [ho]
                refine .disconnectFree u c now hp ?_
                intro m' h' hm' hh'
                rw [hm] at hm'
                cases hm'
                rw [hh] at hh'
                cases hh'
                exact hfree
              · simp only [ho]
                exact .disconnect u c now m h p hp hm hh hbet

/-- A Disconnect on the user's presence answers 1. -/
theorem disconnect_reply (hp : s.presence.get u = some c) :
    ((Op.disconnect u c now).exec s).reply = .ok 1 := by
  show (s.disconnectScript u c (now + reconnectGrace)).reply = _
  unfold Store.disconnectScript
  rw [if_neg (not_not.mpr hp)]
  dsimp only
  split
  · rfl
  · split <;> rfl

theorem expire_effect (hs : s.Seated) : Effect s (.expire m now) (s.expireScript m now) := by
  unfold Store.expireScript
  split
  · exact .refused _ _ le_rfl
  · next hd =>
      cases hh : s.matches_.get m with
      -- the member outlived the hash
      | none => exact .expireStale m now hd hh
      | some h =>
          obtain ⟨a, b, _, ha, hb⟩ := hs m h hh
          simp only [Option.isNone_some, Bool.false_eq_true, if_false, hget_of_some hh]
          split
          · exact .refused _ _ le_rfl
          · next hst =>
              rw [not_or, not_not, not_lt] at hst
              rw [finish_eq hh ha hb]
              exact .expire m now h a b hd hh ha hb hst.1 hst.2

theorem disconnectExpiry_effect (hs : s.Seated) :
    Effect s (.disconnectExpiry m u now) (s.disconnectExpiryScript m u now) := by
  unfold Store.disconnectExpiryScript
  split
  · exact .refused _ _ le_rfl
  · next t hd =>
      split
      · exact .refused _ _ le_rfl
      · next ht =>
          rw [not_lt] at ht
          cases hh : s.matches_.get m with
          | none =>
              simp only [hget_of_none hh]
              refine .disconnectExpiryStale m u now t hd ht fun h hh' => ?_
              rw [hh] at hh'
              cases hh'
          | some h =>
              obtain ⟨a, b, _, ha, hb⟩ := hs m h hh
              simp only [hget_of_some hh]
              split
              · next hstale =>
                  refine .disconnectExpiryStale m u now t hd ht ?_
                  intro h' hh'
                  rw [hh] at hh'
                  cases hh'
                  exact hstale
              · next hstale =>
                  rw [not_or, not_lt] at hstale
                  rw [finish_eq hh ha hb]
                  exact .disconnectExpiry m u now h a b t hd ht hh ha hb hstale.1 hstale.2

end

/-- Every operation takes one of the branches. -/
theorem exec_effect {s : Store} (hs : s.Seated) (op : Op) : Effect s op (op.exec s) := by
  cases op with
  | connect u c => exact .connect u c
  | heartbeat u c => exact heartbeat_effect
  | enqueue u c p now => exact enqueue_effect p
  | leaveQueue u c => exact leaveQueue_effect
  | cleanupQueued u encoded => exact cleanupQueued_effect encoded
  | claim k => exact claim_effect k
  | reconnect u c m now => exact reconnect_effect hs
  | signal u c env => exact signal_effect hs env
  | extend u c m now => exact extend_effect hs
  | connectVote u c m now => exact connectVote_effect hs
  | publishConnection m connectionID => exact publishConnection_effect connectionID
  | endMatch u c m reason => exact endMatch_effect hs reason
  | endForUser u m reason => exact endForUser_effect hs reason
  | disconnect u c now => exact disconnect_effect hs
  | expire m now => exact expire_effect hs
  | disconnectExpiry m u now => exact disconnectExpiry_effect hs
  | tick d => exact .tick d

end OneMinute.Discovery
