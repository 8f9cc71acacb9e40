/-
  OneMinute.Discovery.Coherence

  The invariant of the discovery keys under every operation and any passage of
  time (`Coherent`): each match hash is the record of one claim, a user-match
  pointer leads to a live hash of that user and does not outlive it, and the
  two deadline indexes agree with the hashes that are still there.

  The key facts about expiry are `outlives` and `bounded`: claim and heartbeat
  set a pointer and its hash to the same instant, and a later heartbeat of the
  other participant moves the hash at least as far as any pointer.
-/

import OneMinute.Discovery.Effects

namespace OneMinute.Discovery

/-! ## A hash as the record of a claim -/

/-- `h` is a hash of claim `k`: its identity fields are the claim's, it has a
    state, its votes and markers belong to participants, and it is extended
    only with both votes in. -/
structure MatchHash.Records (h : MatchHash) (k : Claim) : Prop where
  a : h.a = some k.userA
  b : h.b = some k.userB
  startedAt : h.startedAt = some k.now
  expiresAt : h.expiresAt = some (k.now + encounterLength)
  intent : h.intent = some k.intent
  sharedInterests : h.sharedInterests = some k.sharedInterests
  state : h.state ≠ none
  extend : ∀ u, h.extend u = true → h.Has u
  connect : ∀ u, h.connect u = true → h.Has u
  disconnected : ∀ u, h.disconnected u ≠ none → h.Has u
  both : h.state = some .extended → ∀ u, h.Has u → h.extend u = true

namespace MatchHash

theorem has_iff {h : MatchHash} {k : Claim} (hr : h.Records k) {u : UserID} :
    h.Has u ↔ u = k.userA ∨ u = k.userB := by
  unfold Has
  rw [hr.a, hr.b]
  simp only [Option.some.injEq, eq_comm]

theorem records_new (k : Claim) : (k.hash {}).Records k := by
  constructor <;> simp [Claim.hash]

theorem Records.setExtend {h : MatchHash} {k : Claim} {u : UserID} (hr : h.Records k)
    (hu : h.Has u) : (setExtend u h).Records k :=
  { hr with
    extend := by
      intro x hx
      by_cases hxu : x = u
      · rw [hxu]
        exact hu
      · exact hr.extend x (by simpa [MatchHash.setExtend, hxu] using hx)
    both := by
      intro hst x hx
      by_cases hxu : x = u
      · simp [MatchHash.setExtend, hxu]
      · simpa [MatchHash.setExtend, hxu] using hr.both hst x hx }

theorem Records.setExtended {h : MatchHash} {k : Claim} {now : UnixMilli} (hr : h.Records k)
    (hall : ∀ u, h.Has u → h.extend u = true) : (setExtended now h).Records k :=
  { hr with
    state := by simp [MatchHash.setExtended]
    both := fun _ u hu => hall u hu }

theorem Records.setConnect {h : MatchHash} {k : Claim} {u : UserID} (hr : h.Records k)
    (hu : h.Has u) : (setConnect u h).Records k :=
  { hr with
    connect := by
      intro x hx
      by_cases hxu : x = u
      · rw [hxu]
        exact hu
      · exact hr.connect x (by simpa [MatchHash.setConnect, hxu] using hx) }

theorem Records.setPersisted {h : MatchHash} {k : Claim} {connectionID : String}
    (hr : h.Records k) : (setPersisted connectionID h).Records k :=
  { hr with }

theorem Records.setDisconnected {h : MatchHash} {k : Claim} {u : UserID}
    {deadline : Option UnixMilli} (hr : h.Records k) (hu : h.Has u) :
    (setDisconnected u deadline h).Records k :=
  { hr with
    disconnected := by
      intro x hx
      by_cases hxu : x = u
      · rw [hxu]
        exact hu
      · exact hr.disconnected x (by simpa [MatchHash.setDisconnected, hxu] using hx) }

end MatchHash

/-! ## The invariant -/

structure Coherent (s : Store) (claims : List Claim) : Prop where
  /-- A claim is for two users. -/
  distinct : ∀ k ∈ claims, k.userA ≠ k.userB
  /-- A match id names one claim. -/
  unique : ∀ k ∈ claims, ∀ k' ∈ claims, k.matchID = k'.matchID → k = k'
  /-- A hash is the record of its claim. -/
  records : ∀ m h, s.matches_.get m = some h → ∃ k ∈ claims, k.matchID = m ∧ h.Records k
  /-- A pointer leads to a hash of which the user is a participant. -/
  pointer : ∀ u m, s.userMatch.get u = some m → ∃ h, s.matches_.get m = some h ∧ h.Has u
  /-- A hash has an expiry, and no pointer to it has a later one. -/
  outlives : ∀ u m, s.userMatch.get u = some m →
    ∃ t T, s.userMatch.expiry u = some t ∧ s.matches_.expiry m = some T ∧ t ≤ T
  /-- A pointer expires within the match TTL. -/
  bounded : ∀ u t, s.userMatch.expiry u = some t → t ≤ s.ttl matchTTL
  /-- A member of `deadlines` belongs to a claim, with its expiry as score. -/
  deadline_known : ∀ m t, s.deadlines.score m = some t →
    ∃ k ∈ claims, k.matchID = m ∧ t = k.now + encounterLength
  /-- While its hash is there, a member of `deadlines` is active. -/
  deadline_active : ∀ m h, s.deadlines.score m ≠ none → s.matches_.get m = some h →
    h.state = some .active
  /-- An active hash is in `deadlines`. -/
  active_deadline : ∀ m h, s.matches_.get m = some h → h.state = some .active →
    s.deadlines.score m ≠ none
  /-- A member of `disconnect-deadlines` belongs to a claim. -/
  marker_known : ∀ m u, s.disconnectDeadlines.score (m, u) ≠ none →
    ∃ k ∈ claims, k.matchID = m
  /-- While its hash is there, a member's score is the hash's marker. -/
  marker : ∀ m u t h, s.disconnectDeadlines.score (m, u) = some t →
    s.matches_.get m = some h → h.disconnected u = some t
  /-- A marker other than 0 is in `disconnect-deadlines`: the sweep takes the
      value 0 for a missing field and drops the member alone. -/
  indexed : ∀ m u t h, s.matches_.get m = some h → h.disconnected u = some t → t ≠ 0 →
    s.disconnectDeadlines.score (m, u) = some t

namespace Coherent

variable {s : Store} {claims : List Claim} {m : MatchID} {u : UserID} {h : MatchHash}

theorem seated (hc : Coherent s claims) : s.Seated := by
  intro m h hh
  obtain ⟨k, hk, _, hr⟩ := hc.records m h hh
  exact ⟨k.userA, k.userB, hc.distinct k hk, hr.a, hr.b⟩

theorem ne {a b : UserID} (hc : Coherent s claims) (hh : s.matches_.get m = some h)
    (ha : h.a = some a) (hb : h.b = some b) : a ≠ b := by
  obtain ⟨a', b', hne, ha', hb'⟩ := hc.seated m h hh
  rw [ha] at ha'
  rw [hb] at hb'
  rw [Option.some.inj ha', Option.some.inj hb']
  exact hne

theorem init : Coherent .empty [] := by
  constructor <;> simp [Store.empty, Keyspace.expiry, Keyspace.empty, Keyspace.get]

/-- The invariant reads five keys; whatever leaves them alone keeps it. -/
theorem congr {t : Store} (hc : Coherent s claims) (hclock : s.clock ≤ t.clock)
    (hum : t.userMatch = s.userMatch) (hma : t.matches_ = s.matches_)
    (hdl : t.deadlines = s.deadlines) (hdd : t.disconnectDeadlines = s.disconnectDeadlines) :
    Coherent t claims where
  distinct := hc.distinct
  unique := hc.unique
  records := by rw [hma]; exact hc.records
  pointer := by rw [hum, hma]; exact hc.pointer
  outlives := by rw [hum, hma]; exact hc.outlives
  bounded := by
    intro u e he
    rw [hum] at he
    have := hc.bounded u e he
    unfold Store.ttl at this ⊢
    omega
  deadline_known := by rw [hdl]; exact hc.deadline_known
  deadline_active := by rw [hdl, hma]; exact hc.deadline_active
  active_deadline := by rw [hdl, hma]; exact hc.active_deadline
  marker_known := by rw [hdd]; exact hc.marker_known
  marker := by rw [hdd, hma]; exact hc.marker
  indexed := by rw [hdd, hma]; exact hc.indexed

/-- Two hashes of one match id record the same claim. -/
theorem records_unique (hc : Coherent s claims) {k : Claim} (hk : k ∈ claims)
    (hm : k.matchID = m) (hh : s.matches_.get m = some h) : h.Records k := by
  obtain ⟨k', hk', hm', hr⟩ := hc.records m h hh
  rw [hc.unique k hk k' hk' (hm.trans hm'.symm)]
  exact hr

/-- A marker member names a participant. -/
theorem marker_has (hc : Coherent s claims) (hh : s.matches_.get m = some h)
    (hd : s.disconnectDeadlines.score (m, u) ≠ none) : h.Has u := by
  obtain ⟨t, ht⟩ := Option.ne_none_iff_exists'.mp hd
  obtain ⟨k, _, _, hr⟩ := hc.records m h hh
  exact hr.disconnected u (by rw [hc.marker m u t h ht hh]; simp)

end Coherent

/-- What a read sees after a write into one live hash. -/
theorem get_hset {s : Store} {m : MatchID} {h : MatchHash} (hh : s.matches_.get m = some h)
    (f : MatchHash → MatchHash) (x : MatchID) :
    (s.hset m f).matches_.get x = if x = m then some (f h) else s.matches_.get x := by
  simp [Store.hset, Keyspace.get_modify, hh]

theorem expiry_hset (s : Store) (m : MatchID) (f : MatchHash → MatchHash) (x : MatchID) :
    (s.hset m f).matches_.expiry x = s.matches_.expiry x := by
  simp [Store.hset]

namespace Coherent

variable {s : Store} {claims : List Claim} {m : MatchID} {u : UserID} {h : MatchHash}

/-- A write into one live hash together with its two indexes: the record is
    kept, and for the match written to, the indexes agree with the new hash. -/
theorem rewrite (hc : Coherent s claims) (hh : s.matches_.get m = some h)
    (f : MatchHash → MatchHash) (dl : SortedSet MatchID) (dd : SortedSet (MatchID × UserID))
    (hrec : ∀ k, h.Records k → (f h).Records k)
    (hdl : ∀ x, x ≠ m → dl.score x = s.deadlines.score x)
    (hdlm : ∀ t, dl.score m = some t → s.deadlines.score m = some t)
    (hact : dl.score m ≠ none ↔ (f h).state = some .active)
    (hdd : ∀ x v, x ≠ m → dd.score (x, v) = s.disconnectDeadlines.score (x, v))
    (hmark : ∀ v t, dd.score (m, v) = some t → (f h).disconnected v = some t)
    (hidx : ∀ v t, (f h).disconnected v = some t → t ≠ 0 → dd.score (m, v) = some t) :
    Coherent { s.hset m f with deadlines := dl, disconnectDeadlines := dd } claims := by
  have hget := get_hset hh f
  have hexp := expiry_hset s m f
  obtain ⟨k, hk, hkm, hr⟩ := hc.records m h hh
  -- both hashes are records of one claim, so they have one pair of participants
  have hhas : ∀ u, (f h).Has u ↔ h.Has u := fun u => by
    rw [MatchHash.has_iff (hrec k hr), MatchHash.has_iff hr]
  -- away from `m` every field is that of the old store
  constructor
  case distinct => exact hc.distinct
  case unique => exact hc.unique
  case records =>
    intro x h' hx
    rw [hget] at hx
    split at hx
    · next hxm =>
        cases hx
        exact ⟨k, hk, hkm.trans hxm.symm, hrec k hr⟩
    · exact hc.records x h' hx
  case pointer =>
    intro u x hu
    obtain ⟨h', hx, hu'⟩ := hc.pointer u x hu
    by_cases hxm : x = m
    · refine ⟨f h, by rw [hget, if_pos hxm], (hhas u).mpr ?_⟩
      rw [hxm, hh] at hx
      cases hx
      exact hu'
    · exact ⟨h', by rw [hget, if_neg hxm]; exact hx, hu'⟩
  case outlives =>
    intro u x hu
    rw [hexp]
    exact hc.outlives u x hu
  case bounded => exact hc.bounded
  case deadline_known =>
    intro x t hx
    by_cases hxm : x = m
    · rw [hxm] at hx ⊢
      exact hc.deadline_known m t (hdlm t hx)
    · exact hc.deadline_known x t ((hdl x hxm).symm.trans hx)
  case deadline_active =>
    intro x h' hx hget'
    rw [hget] at hget'
    split at hget'
    · next hxm =>
        cases hget'
        exact hact.mp (by rw [← hxm]; exact hx)
    · next hxm => exact hc.deadline_active x h' (by rw [← hdl x hxm]; exact hx) hget'
  case active_deadline =>
    intro x h' hx hst
    rw [hget] at hx
    split at hx
    · next hxm =>
        cases hx
        rw [hxm]
        exact hact.mpr hst
    · next hxm =>
        rw [hdl x hxm]
        exact hc.active_deadline x h' hx hst
  case marker_known =>
    intro x v hx
    by_cases hxm : x = m
    · exact ⟨k, hk, hkm.trans hxm.symm⟩
    · exact hc.marker_known x v (by rw [← hdd x v hxm]; exact hx)
  case marker =>
    intro x v t h' hx hget'
    rw [hget] at hget'
    split at hget'
    · next hxm =>
        cases hget'
        exact hmark v t (by rw [← hxm]; exact hx)
    · next hxm => exact hc.marker x v t h' ((hdd x v hxm).symm.trans hx) hget'
  case indexed =>
    intro x v t h' hx hv hne
    rw [hget] at hx
    split at hx
    · next hxm =>
        cases hx
        rw [hxm]
        exact hidx v t hv hne
    · next hxm =>
        rw [hdd x v hxm]
        exact hc.indexed x v t h' hx hv hne

/-- A write that keeps the record, the state and the markers. -/
theorem hset (hc : Coherent s claims) (hh : s.matches_.get m = some h)
    (f : MatchHash → MatchHash) (hrec : ∀ k, h.Records k → (f h).Records k)
    (hst : (f h).state = h.state) (hdis : (f h).disconnected = h.disconnected) :
    Coherent (s.hset m f) claims :=
  hc.rewrite hh f s.deadlines s.disconnectDeadlines hrec (fun _ _ => rfl) (fun _ ht => ht)
    (by
      rw [hst]
      exact ⟨fun hd => hc.deadline_active m h hd hh, fun hst' => hc.active_deadline m h hh hst'⟩)
    (fun _ _ _ => rfl)
    (fun v t hv => by rw [hdis]; exact hc.marker m v t h hv hh)
    (fun v t hv hne => by rw [hdis] at hv; exact hc.indexed m v t h hh hv hne)

/-- The second Extend vote. -/
theorem extended {p : UserID} {now : UnixMilli} (hc : Coherent s claims)
    (hh : s.matches_.get m = some h) (hb : h.Between u p) (hv : h.extend p = true) :
    Coherent (s.extended m u now) claims := by
  refine hc.rewrite hh _ _ s.disconnectDeadlines ?_ ?_ ?_ ?_ (fun _ _ _ => rfl)
    (fun v t hv => hc.marker m v t h hv hh) (fun v t hv hne => hc.indexed m v t h hh hv hne)
  · intro k hr
    refine (hr.setExtend hb.has).setExtended ?_
    intro x hx
    by_cases hxu : x = u
    · simp [MatchHash.setExtend, hxu]
    -- the other participant is `p`, who voted before
    · have hxp : x = p := by
        have h1 := (MatchHash.has_iff hr).mp hx
        have h2 := hb.2
        rw [hr.a, hr.b] at h2
        grind
      simp [MatchHash.setExtend, hxp, hv]
  · intro x hx
    rw [SortedSet.score_zrem, if_neg hx]
  · intro t ht
    rw [SortedSet.score_zrem, if_pos rfl] at ht
    cases ht
  · simp [SortedSet.score_zrem, MatchHash.setExtended]

/-- A write of one participant's marker together with its index entry. -/
theorem remark {dd : SortedSet (MatchID × UserID)} {deadline : Option UnixMilli}
    (hc : Coherent s claims) (hh : s.matches_.get m = some h) (hu : h.Has u)
    (hself : dd.score (m, u) = deadline)
    (hother : ∀ x, x ≠ (m, u) → dd.score x = s.disconnectDeadlines.score x) :
    Coherent { s.hset m (MatchHash.setDisconnected u deadline) with
      disconnectDeadlines := dd } claims := by
  refine hc.rewrite hh _ s.deadlines dd (fun k hr => hr.setDisconnected hu) (fun _ _ => rfl)
    (fun _ ht => ht)
    ⟨fun hd => hc.deadline_active m h hd hh, fun hst => hc.active_deadline m h hh hst⟩
    (fun x v hx => hother (x, v) fun e => hx (congrArg Prod.fst e)) ?_ ?_
  · intro v t hv
    by_cases hvu : v = u
    · rw [hvu, hself] at hv
      simp [MatchHash.setDisconnected, hvu, hv]
    · rw [hother (m, v) fun e => hvu (congrArg Prod.snd e)] at hv
      simpa [MatchHash.setDisconnected, hvu] using hc.marker m v t h hv hh
  · intro v t hv hne
    by_cases hvu : v = u
    · rw [hvu, hself]
      simpa [MatchHash.setDisconnected, hvu] using hv
    · rw [hother (m, v) fun e => hvu (congrArg Prod.snd e)]
      exact hc.indexed m v t h hh (by simpa [MatchHash.setDisconnected, hvu] using hv) hne

theorem unmarked (hc : Coherent s claims) (hh : s.matches_.get m = some h) (hu : h.Has u) :
    Coherent (s.unmarked m u) claims :=
  hc.remark hh hu (by rw [SortedSet.score_zrem, if_pos rfl])
    (fun x hx => by rw [SortedSet.score_zrem, if_neg hx])

theorem departed (hc : Coherent s claims) : Coherent (s.departed u) claims :=
  hc.congr le_rfl rfl rfl rfl rfl

theorem marked {deadline : UnixMilli} (hc : Coherent s claims)
    (hh : s.matches_.get m = some h) (hu : h.Has u) :
    Coherent (s.marked m u deadline) claims :=
  (hc.departed (u := u)).remark hh hu (by rw [SortedSet.score_zadd, if_pos rfl])
    (fun x hx => by rw [SortedSet.score_zadd, if_neg hx]; rfl)

/-- A stale member of `deadlines` goes: its hash is no longer there. -/
theorem dropDeadline (hc : Coherent s claims) (hh : s.matches_.get m = none) :
    Coherent { s with deadlines := s.deadlines.zrem m } claims :=
  { hc with
    deadline_known := by
      intro x t hx
      rw [SortedSet.score_zrem] at hx
      split at hx
      · cases hx
      · exact hc.deadline_known x t hx
    deadline_active := by
      intro x h' hx hget
      rw [SortedSet.score_zrem] at hx
      split at hx
      · exact absurd rfl hx
      · exact hc.deadline_active x h' hx hget
    active_deadline := by
      intro x h' hget hst
      have hxm : x ≠ m := by
        rintro rfl
        rw [hh] at hget
        cases hget
      rw [SortedSet.score_zrem, if_neg hxm]
      exact hc.active_deadline x h' hget hst }

/-- The sweep drops a member of `disconnect-deadlines` alone when the hash has
    no marker or the marker 0; a later marker cannot be, as it is the score. -/
theorem dropMarker {t now : UnixMilli} (hc : Coherent s claims)
    (hd : s.disconnectDeadlines.score (m, u) = some t) (ht : t ≤ now)
    (hstale : ∀ h, s.matches_.get m = some h →
      (h.disconnected u).getD 0 = 0 ∨ now < (h.disconnected u).getD 0) :
    Coherent { s with disconnectDeadlines := s.disconnectDeadlines.zrem (m, u) } claims :=
  { hc with
    marker_known := by
      intro x v hx
      rw [SortedSet.score_zrem] at hx
      split at hx
      · exact absurd rfl hx
      · exact hc.marker_known x v hx
    marker := by
      intro x v e h' hx hget
      rw [SortedSet.score_zrem] at hx
      split at hx
      · cases hx
      · exact hc.marker x v e h' hx hget
    indexed := by
      intro x v e h' hget hv hne
      rw [SortedSet.score_zrem]
      split
      · next hxv =>
          cases hxv
          -- the dropped member: its score would be the marker, which is stale
          have hmark := hc.marker m u t h' hd hget
          have hst := hstale h' hget
          rw [hv] at hmark hst
          cases hmark
          rcases hst with h0 | hlt
          · exact absurd h0 hne
          · exact absurd ht (not_le.mpr hlt)
      · exact hc.indexed x v e h' hget hv hne }

/-- The end of a match. -/
theorem closed {a b : UserID} (hc : Coherent s claims) (hh : s.matches_.get m = some h)
    (ha : h.a = some a) (hb : h.b = some b) : Coherent (s.closed m a b) claims := by
  have hget : ∀ x h', (s.closed m a b).matches_.get x = some h' →
      x ≠ m ∧ s.matches_.get x = some h' := by
    intro x h' hx
    rw [Store.closed, Keyspace.get_del] at hx
    split at hx
    · cases hx
    · next hxm => exact ⟨hxm, hx⟩
  have hptr : ∀ v x, (s.closed m a b).userMatch.get v = some x →
      v ≠ a ∧ v ≠ b ∧ x ≠ m ∧ s.userMatch.get v = some x := by
    intro v x hv
    rw [Store.closed, Keyspace.get_del, Keyspace.get_del] at hv
    split at hv
    · cases hv
    · next hvb =>
        split at hv
        · cases hv
        · next hva =>
            refine ⟨hva, hvb, ?_, hv⟩
            -- a pointer to `m` is of a participant, and both are deleted
            rintro rfl
            obtain ⟨h', hh', hv'⟩ := hc.pointer v x hv
            rw [hh] at hh'
            cases hh'
            exact (hv'.eq_or_eq ha hb).elim hva hvb
  have hdd : ∀ x v t, (s.closed m a b).disconnectDeadlines.score (x, v) = some t →
      s.disconnectDeadlines.score (x, v) = some t := by
    intro x v t hx
    rw [Store.closed, SortedSet.score_zrem, SortedSet.score_zrem] at hx
    split at hx
    · cases hx
    · split at hx
      · cases hx
      · exact hx
  have hdl : ∀ x t, (s.closed m a b).deadlines.score x = some t →
      x ≠ m ∧ s.deadlines.score x = some t := by
    intro x t hx
    rw [Store.closed, SortedSet.score_zrem] at hx
    split at hx
    · cases hx
    · next hxm => exact ⟨hxm, hx⟩
  constructor
  case distinct => exact hc.distinct
  case unique => exact hc.unique
  case records => exact fun x h' hx => hc.records x h' (hget x h' hx).2
  case pointer =>
    intro v x hv
    obtain ⟨_, _, hxm, hv'⟩ := hptr v x hv
    obtain ⟨h', hx, hhas⟩ := hc.pointer v x hv'
    exact ⟨h', by rw [Store.closed, Keyspace.get_del, if_neg hxm]; exact hx, hhas⟩
  case outlives =>
    intro v x hv
    obtain ⟨hva, hvb, hxm, hv'⟩ := hptr v x hv
    simp only [Store.closed, Keyspace.expiry_del, if_neg hva, if_neg hvb, if_neg hxm]
    exact hc.outlives v x hv'
  case bounded =>
    intro v t hv
    simp only [Store.closed, Keyspace.expiry_del] at hv
    split at hv
    · cases hv
    · split at hv
      · cases hv
      · exact hc.bounded v t hv
  case deadline_known => exact fun x t hx => hc.deadline_known x t (hdl x t hx).2
  case deadline_active =>
    intro x h' hx hx'
    obtain ⟨t, ht⟩ := Option.ne_none_iff_exists'.mp hx
    exact hc.deadline_active x h' (by rw [(hdl x t ht).2]; simp) (hget x h' hx').2
  case active_deadline =>
    intro x h' hx hst
    obtain ⟨hxm, hx'⟩ := hget x h' hx
    rw [Store.closed, SortedSet.score_zrem, if_neg hxm]
    exact hc.active_deadline x h' hx' hst
  case marker_known =>
    intro x v hx
    obtain ⟨t, ht⟩ := Option.ne_none_iff_exists'.mp hx
    exact hc.marker_known x v (by rw [hdd x v t ht]; simp)
  case marker => exact fun x v t h' hx hx' => hc.marker x v t h' (hdd x v t hx) (hget x h' hx').2
  case indexed =>
    intro x v t h' hx hv hne
    obtain ⟨hxm, hx'⟩ := hget x h' hx
    have hpair : ∀ y : UserID, (x, v) ≠ (m, y) := fun y e => hxm (congrArg Prod.fst e)
    rw [Store.closed, SortedSet.score_zrem, if_neg (hpair b), SortedSet.score_zrem,
      if_neg (hpair a)]
    exact hc.indexed x v t h' hx' hv hne

/-- No hash of a fresh id is there. -/
theorem fresh (hc : Coherent s claims) (hnew : ∀ k ∈ claims, k.matchID ≠ m) :
    s.matches_.get m = none := by
  cases hh : s.matches_.get m with
  | none => rfl
  | some h =>
      obtain ⟨k, hk, hkm, _⟩ := hc.records m h hh
      exact absurd hkm (hnew k hk)

/-- What is in the hashes after a claim of a fresh id. -/
theorem get_claimed (hc : Coherent s claims) {k : Claim}
    (hnew : ∀ k' ∈ claims, k'.matchID ≠ k.matchID) (x : MatchID) :
    (s.claimed k).matches_.get x =
      if x = k.matchID then some (k.hash {}) else s.matches_.get x := by
  rw [Store.get_matches_claimed, hc.fresh hnew]
  rfl

/-- A successful claim. -/
theorem claimed (hc : Coherent s claims) {k : Claim} (hne : k.userA ≠ k.userB)
    (hnew : ∀ k' ∈ claims, k'.matchID ≠ k.matchID) :
    Coherent (s.claimed k) (k :: claims) := by
  have hget := hc.get_claimed hnew
  -- no pointer names the fresh id
  have hold : ∀ v x, s.userMatch.get v = some x → x ≠ k.matchID := by
    rintro v x hv rfl
    obtain ⟨h', hx, _⟩ := hc.pointer v k.matchID hv
    rw [hc.fresh hnew] at hx
    cases hx
  have hum := Store.get_userMatch_claimed s k
  have hexp := Store.expiry_userMatch_claimed s k
  have hlast := Store.expiry_matches_claimed s k
  have hdl := Store.score_deadlines_claimed s k
  constructor
  case distinct =>
    intro k' hk'
    rcases List.mem_cons.mp hk' with rfl | hk'
    · exact hne
    · exact hc.distinct k' hk'
  case unique =>
    intro k₁ h₁ k₂ h₂ e
    rcases List.mem_cons.mp h₁ with rfl | h₁
    · rcases List.mem_cons.mp h₂ with rfl | h₂
      · rfl
      · exact absurd e.symm (hnew k₂ h₂)
    · rcases List.mem_cons.mp h₂ with h₂ | h₂
      · rw [h₂] at e
        exact absurd e (hnew k₁ h₁)
      · exact hc.unique k₁ h₁ k₂ h₂ e
  case records =>
    intro x h' hx
    rw [hget] at hx
    split at hx
    · next hxm =>
        cases hx
        exact ⟨k, List.mem_cons_self, hxm.symm, MatchHash.records_new k⟩
    · obtain ⟨k', hk', hkm, hr⟩ := hc.records x h' hx
      exact ⟨k', List.mem_cons_of_mem _ hk', hkm, hr⟩
  case pointer =>
    intro v x hv
    rw [hum] at hv
    split at hv
    · next hvk =>
        cases hv
        refine ⟨k.hash {}, by rw [hget, if_pos rfl], ?_⟩
        exact (MatchHash.has_iff (MatchHash.records_new k)).mpr hvk.symm
    · obtain ⟨h', hx, hhas⟩ := hc.pointer v x hv
      exact ⟨h', by rw [hget, if_neg (hold v x hv)]; exact hx, hhas⟩
  case outlives =>
    intro v x hv
    rw [hum] at hv
    rw [hexp, hlast]
    split at hv
    · next hvk =>
        cases hv
        rw [if_pos hvk, if_pos rfl]
        exact ⟨_, _, rfl, rfl, le_rfl⟩
    · next hvk =>
        rw [if_neg hvk, if_neg (hold v x hv)]
        exact hc.outlives v x hv
  case bounded =>
    intro v t hv
    rw [hexp] at hv
    split at hv
    · cases hv
      exact le_rfl
    · exact hc.bounded v t hv
  case deadline_known =>
    intro x t hx
    rw [hdl] at hx
    split at hx
    · next hxm =>
        cases hx
        exact ⟨k, List.mem_cons_self, hxm.symm, rfl⟩
    · obtain ⟨k', hk', hkm, ht⟩ := hc.deadline_known x t hx
      exact ⟨k', List.mem_cons_of_mem _ hk', hkm, ht⟩
  case deadline_active =>
    intro x h' hx hx'
    rw [hget] at hx'
    rw [hdl] at hx
    split at hx'
    · cases hx'
      rfl
    · next hxm => exact hc.deadline_active x h' (by rwa [if_neg hxm] at hx) hx'
  case active_deadline =>
    intro x h' hx hst
    rw [hget] at hx
    rw [hdl]
    split at hx
    · next hxm =>
        rw [if_pos hxm]
        simp
    · next hxm =>
        rw [if_neg hxm]
        exact hc.active_deadline x h' hx hst
  case marker_known =>
    intro x v hx
    obtain ⟨k', hk', hkm⟩ := hc.marker_known x v hx
    exact ⟨k', List.mem_cons_of_mem _ hk', hkm⟩
  case marker =>
    intro x v t h' hx hx'
    rw [hget] at hx'
    split at hx'
    · next hxm =>
        -- a marker of the fresh id would belong to an earlier claim
        obtain ⟨k', hk', hkm⟩ := hc.marker_known x v (fun e => by
          have hx : s.disconnectDeadlines.score (x, v) = some t := hx
          rw [e] at hx
          cases hx)
        exact absurd (hkm.trans hxm) (hnew k' hk')
    · exact hc.marker x v t h' hx hx'
  case indexed =>
    intro x v t h' hx hv hne
    rw [hget] at hx
    split at hx
    · cases hx
      cases hv
    · exact hc.indexed x v t h' hx hv hne

/-- An accepted heartbeat moves a pointer and its hash to the same instant. -/
theorem refreshed (hc : Coherent s claims) : Coherent (s.refreshed u) claims := by
  unfold Store.refreshed
  cases hu : s.userMatch.get u with
  | none => exact hc.congr le_rfl rfl rfl rfl rfl
  | some m =>
      refine
        { hc with
          records := ?_, pointer := ?_, outlives := ?_, bounded := ?_, deadline_active := ?_
          active_deadline := ?_, marker := ?_, indexed := ?_ }
      · simpa only [Keyspace.get_expire] using hc.records
      · simpa only [Keyspace.get_expire] using hc.pointer
      · intro v x hv
        simp only [Keyspace.get_expire] at hv
        obtain ⟨t, T, ht, hT, hle⟩ := hc.outlives v x hv
        obtain ⟨h, hx, _⟩ := hc.pointer v x hv
        have hb := hc.bounded v t ht
        simp only [Keyspace.expiry_expire, hv, hx, Option.map_some, ht, hT]
        -- three cases: the sender, the peer on the same hash, anybody else
        by_cases hvu : v = u
        · rw [hvu, hu] at hv
          cases hv
          exact ⟨_, _, if_pos hvu, if_pos rfl, le_rfl⟩
        · rw [if_neg hvu]
          by_cases hxm : x = m
          · exact ⟨_, _, rfl, if_pos hxm, hb⟩
          · exact ⟨_, _, rfl, if_neg hxm, hle⟩
      · intro v t hv
        simp only [Keyspace.expiry_expire] at hv
        split at hv
        · obtain ⟨_, _, e⟩ := Option.map_eq_some_iff.mp hv
          rw [← e]
          exact le_rfl
        · exact hc.bounded v t hv
      · simpa only [Keyspace.get_expire] using hc.deadline_active
      · simpa only [Keyspace.get_expire] using hc.active_deadline
      · simpa only [Keyspace.get_expire] using hc.marker
      · simpa only [Keyspace.get_expire] using hc.indexed

/-- The passage of time: a pointer's hash is still there, since it expires no
    earlier. -/
theorem advance (hc : Coherent s claims) (d : Nat) : Coherent (s.advance d) claims where
  distinct := hc.distinct
  unique := hc.unique
  records := fun x h' hx => hc.records x h' (Keyspace.get_of_get_lapse hx).1
  pointer := by
    intro v x hv
    obtain ⟨hv, halive⟩ := Keyspace.get_of_get_lapse hv
    obtain ⟨t, T, ht, hT, hle⟩ := hc.outlives v x hv
    obtain ⟨h, hx, hhas⟩ := hc.pointer v x hv
    -- the pointer is alive, so the hash, which goes later, is too
    rw [ht] at halive
    refine ⟨h, ?_, hhas⟩
    show (s.matches_.lapse (s.clock + d)).get x = some h
    rw [Keyspace.get_lapse, hT, if_pos (halive.mono hle)]
    exact hx
  outlives := by
    intro v x hv
    obtain ⟨hv, halive⟩ := Keyspace.get_of_get_lapse hv
    obtain ⟨t, T, ht, hT, hle⟩ := hc.outlives v x hv
    rw [ht] at halive
    refine ⟨t, T, ?_, ?_, hle⟩
    · show (s.userMatch.lapse (s.clock + d)).expiry v = some t
      rw [Keyspace.expiry_lapse, ht, if_pos halive]
    · show (s.matches_.lapse (s.clock + d)).expiry x = some T
      rw [Keyspace.expiry_lapse, hT, if_pos (halive.mono hle)]
  bounded := by
    intro v t hv
    have hv : (s.userMatch.lapse (s.clock + d)).expiry v = some t := hv
    rw [Keyspace.expiry_lapse] at hv
    split at hv
    · have hb := hc.bounded v t hv
      simp only [Store.ttl, Store.advance] at hb ⊢
      omega
    · cases hv
  deadline_known := hc.deadline_known
  deadline_active := fun x h' hx hx' =>
    hc.deadline_active x h' hx (Keyspace.get_of_get_lapse hx').1
  active_deadline := fun x h' hx => hc.active_deadline x h' (Keyspace.get_of_get_lapse hx).1
  marker_known := hc.marker_known
  marker := fun x v t h' hx hx' => hc.marker x v t h' hx (Keyspace.get_of_get_lapse hx').1
  indexed := fun x v t h' hx => hc.indexed x v t h' (Keyspace.get_of_get_lapse hx).1

end Coherent

/-! ## Runs -/

/-- Every permitted operation keeps the invariant. -/
theorem coherent_after {w : World} {op : Op} (hc : Coherent w.store w.claims)
    (hp : op.Permitted w) : Coherent (w.after op).store (w.after op).claims := by
  have he := exec_effect hc.seated op
  unfold World.after
  generalize op.exec w.store = o at he
  show Coherent o.store (op.claimed o ++ w.claims)
  cases he with
  | refused _ n hn =>
      rw [claimed_refused op w.store hn]
      exact hc
  | connect u c => exact hc.congr le_rfl rfl rfl rfl rfl
  | heartbeat u c hpres => exact hc.refreshed
  | enqueue u c p now hpres hm => exact hc.congr le_rfl rfl rfl rfl rfl
  | leaveQueue u c hpres => exact hc.congr le_rfl rfl rfl rfl rfl
  | cleanupQueued u encoded he hpres => exact hc.congr le_rfl rfl rfl rfl rfl
  | claim k => exact hc.claimed hp.1 hp.2
  | reconnect u c m now h p hpres hm hh hb hd => exact hc.unmarked hh hb.has
  | signal u c env h p hpres hm hh hb hpeer => exact hc
  | alreadyExtended u c m now h hpres hm hh hu hst => exact hc
  | extendVote u c m now h p hpres hm hh hb hst hnow hv =>
      exact hc.hset hh _ (fun k hr => hr.setExtend hb.has) rfl rfl
  | extendBoth u c m now h a b hpres hm hh ha hb hu hst hnow hv =>
      obtain ⟨p, _, hbet⟩ := between_peer (hc.ne hh ha hb) ha hb hu
      exact hc.extended hh hbet (hv p hbet)
  | alreadyPersisted u c m now h hpres hm hh hu hst hv => exact hc
  | connectVote u c m now h p hpres hm hh hb hst hv =>
      exact hc.hset hh _ (fun k hr => hr.setConnect hb.has) rfl rfl
  | publishConnection m connectionID h a b hh ha hb hva hvb hv =>
      exact hc.hset hh _ (fun k hr => hr.setPersisted) rfl rfl
  | endMatch u c m reason h a b hpres hm hh ha hb hu => exact hc.closed hh ha hb
  | endForUser u m reason h a b hm hh ha hb hu => exact hc.closed hh ha hb
  | disconnectFree u c now hpres hfree => exact hc.departed
  | disconnect u c now m h p hpres hm hh hb => exact hc.marked hh hb.has
  | expire m now h a b hd hh ha hb hst hnow => exact hc.closed hh ha hb
  | expireStale m now hd hh => exact hc.dropDeadline hh
  | disconnectExpiry m u now h a b t hd ht hh ha hb hne hnow => exact hc.closed hh ha hb
  | disconnectExpiryStale m u now t hd ht hstale => exact hc.dropMarker hd ht hstale
  | tick d => exact hc.advance d

/-- Every reachable store is coherent. -/
theorem coherent_of_run {as : List Op} {w : World} (hrun : storeMachine.run as = some w) :
    Coherent w.store w.claims := by
  refine Machine.run_invariant (P := fun w => Coherent w.store w.claims) Coherent.init ?_ hrun
  intro w op w' hc hstep
  obtain ⟨hp, rfl⟩ := step_eq_some.mp hstep
  exact coherent_after hc hp

end OneMinute.Discovery
