/-
  OneMinute.Discovery.Grace

  The deadline of a participant whose socket ended.

  A Disconnect records `now` plus the grace in the match hash and in
  `disconnect-deadlines`, whatever stood there before.  `GraceUntil` is what the
  bound asks of a store; `graceUntil_after` shows that the operations keep it
  exactly as long as no Disconnect puts the deadline off.
-/

import OneMinute.Discovery.Change

namespace OneMinute.Discovery

/-- While the hash of `m` is there, it records for `u` an instant not later than
    `D`. -/
def Store.GraceUntil (s : Store) (m : MatchID) (u : UserID) (D : UnixMilli) : Prop :=
  ∀ h, s.matches_.get m = some h → ∃ t, h.disconnected u = some t ∧ 0 < t ∧ t ≤ D

/-- A Disconnect of `u` that takes effect in `m` and records an instant that is
    later than `D`, or none. -/
def Op.PutsOff (s : Store) (m : MatchID) (u : UserID) (D : UnixMilli) : Op → Prop
  | .disconnect v c now =>
    v = u ∧ s.presence.get u = some c ∧ s.userMatch.get u = some m ∧
      ¬ (0 < now + reconnectGrace ∧ now + reconnectGrace ≤ D)
  | _ => False

instance (s : Store) (m : MatchID) (u : UserID) (D : UnixMilli) :
    (op : Op) → Decidable (op.PutsOff s m u D)
  | .disconnect v c now =>
    inferInstanceAs (Decidable (v = u ∧ s.presence.get u = some c ∧ s.userMatch.get u = some m ∧
      ¬ (0 < now + reconnectGrace ∧ now + reconnectGrace ≤ D)))
  | .connect .. | .heartbeat .. | .enqueue .. | .leaveQueue .. | .cleanupQueued .. | .claim _
  | .reconnect .. | .signal .. | .extend .. | .connectVote .. | .publishConnection ..
  | .endMatch .. | .endForUser .. | .expire .. | .disconnectExpiry .. | .tick _ => isFalse id

/-- A Reconnect of `u` on `m` that returns true. -/
def Op.Rejoins (s : Store) (m : MatchID) (u : UserID) : Op → Prop
  | .reconnect v c x now => v = u ∧ x = m ∧ ((Op.reconnect v c x now).exec s).reply = .ok 1
  | _ => False

instance (s : Store) (m : MatchID) (u : UserID) : (op : Op) → Decidable (op.Rejoins s m u)
  | .reconnect v c x now =>
    inferInstanceAs (Decidable (v = u ∧ x = m ∧
      ((Op.reconnect v c x now).exec s).reply = .ok 1))
  | .connect .. | .heartbeat .. | .enqueue .. | .leaveQueue .. | .cleanupQueued .. | .claim _
  | .disconnect .. | .signal .. | .extend .. | .connectVote .. | .publishConnection ..
  | .endMatch .. | .endForUser .. | .expire .. | .disconnectExpiry .. | .tick _ => isFalse id

section
variable {w : World} {m : MatchID} {u : UserID} {D : UnixMilli}

/-- What a Disconnect does to the hash of `m`: it takes effect in the match of
    the user's pointer, on the user's presence. -/
theorem get_disconnect {s : Store} {claims : List Claim} (hc : Coherent s claims) (v : UserID)
    (c : ConnectionID) (now : UnixMilli) :
    ((Op.disconnect v c now).exec s).store.matches_.get m =
      if s.presence.get v = some c ∧ s.userMatch.get v = some m then
        (s.matches_.get m).map (MatchHash.setDisconnected v (some (now + reconnectGrace)))
      else s.matches_.get m := by
  have heff := exec_effect hc.seated (.disconnect v c now)
  have hreply : s.presence.get v = some c →
      ((Op.disconnect v c now).exec s).reply = .ok 1 := disconnect_reply
  generalize (Op.disconnect v c now).exec s = o at heff hreply ⊢
  cases heff with
  | refused _ n hn =>
      rw [if_neg]
      · rfl
      · rintro ⟨hp, _⟩
        cases hreply hp
        exact absurd hn (by decide)
  | disconnectFree _ _ _ hp hfree =>
      rw [if_neg]
      · rfl
      · rintro ⟨_, hm⟩
        obtain ⟨h, hh, hhas⟩ := hc.pointer v m hm
        exact hfree m h hm hh hhas
  | disconnect _ _ _ m' h p hp hm hh hb =>
      refine (get_hset (s := s.departed v) hh _ m).trans ?_
      by_cases hmm : m = m'
      · rw [if_pos hmm, if_pos ⟨hp, by rw [hmm]; exact hm⟩, hmm, hh]
        rfl
      · rw [if_neg hmm, if_neg]
        · rfl
        · rintro ⟨_, hm'⟩
          rw [hm] at hm'
          exact hmm (Option.some.inj hm').symm

/-- No other operation changes the marker, except a Reconnect of the user. -/
theorem marker_kept {op : Op} {h' : MatchHash} (hc : Coherent w.store w.claims)
    (hp : op.Permitted w) (hm : m ∈ w.claims.map Claim.matchID)
    (hdis : ∀ v c now, op ≠ .disconnect v c now) (hrej : ¬ op.Rejoins w.store m u)
    (hh' : (w.after op).store.matches_.get m = some h') :
    ∃ h, w.store.matches_.get m = some h ∧ h'.disconnected u = h.disconnected u := by
  rcases hash_after hc hp hh' with hold | ⟨h, f, n, hh, hw, hreply, rfl⟩ | ⟨k, rfl, hkm, _⟩
  · exact ⟨h', hold, rfl⟩
  · refine ⟨h, hh, ?_⟩
    cases hw with
    | mark v c now p hb => exact absurd rfl (hdis v c now)
    | unmark v c now p hb hd =>
        -- a Reconnect of the peer takes the peer's own marker
        have huv : ¬ u = v := by
          rintro rfl
          exact hrej ⟨rfl, rfl, hreply⟩
        simp [MatchHash.setDisconnected, huv]
    | _ => rfl
  · exact absurd hkm (ne_of_claim hp hm)

/-- Until the user rejoins, an operation keeps the bound exactly if it does not
    put the deadline off. -/
theorem graceUntil_after {op : Op} (hc : Coherent w.store w.claims) (hp : op.Permitted w)
    (hm : m ∈ w.claims.map Claim.matchID) (hg : w.store.GraceUntil m u D)
    (hrej : ¬ op.Rejoins w.store m u) :
    (w.after op).store.GraceUntil m u D ↔ ¬ op.PutsOff w.store m u D := by
  by_cases hdis : ∃ v c now, op = .disconnect v c now
  · obtain ⟨v, c, now, rfl⟩ := hdis
    have hget := get_disconnect (m := m) hc v c now
    constructor
    -- the new marker is the instant that the Disconnect recorded
    · rintro hg' ⟨rfl, hpres, hptr, hlate⟩
      obtain ⟨h, hh, _⟩ := hc.pointer v m hptr
      rw [if_pos ⟨hpres, hptr⟩, hh] at hget
      obtain ⟨t, ht, hpos, hle⟩ := hg' _ hget
      simp only [MatchHash.setDisconnected, if_pos, Option.some.injEq] at ht
      exact hlate (ht ▸ ⟨hpos, hle⟩)
    · intro hoff h' hh'
      have hh' : ((Op.disconnect v c now).exec w.store).store.matches_.get m = some h' := hh'
      rw [hget] at hh'
      split at hh'
      · next heff =>
          obtain ⟨h, hh, rfl⟩ := Option.map_eq_some_iff.mp hh'
          by_cases huv : u = v
          · refine ⟨now + reconnectGrace, by simp [MatchHash.setDisconnected, huv], ?_⟩
            by_contra hlate
            rw [← huv] at heff
            exact hoff ⟨huv.symm, heff.1, heff.2, hlate⟩
          -- the peer's Disconnect leaves the user's marker
          · obtain ⟨t, ht, hpos, hle⟩ := hg h hh
            exact ⟨t, by simpa [MatchHash.setDisconnected, huv] using ht, hpos, hle⟩
      · exact hg h' hh'
  · have hdis : ∀ v c now, op ≠ .disconnect v c now := fun v c now e => hdis ⟨v, c, now, e⟩
    refine iff_of_true ?_ ?_
    · intro h' hh'
      obtain ⟨h, hh, hsame⟩ := marker_kept hc hp hm hdis hrej hh'
      rw [hsame]
      exact hg h hh
    · cases op with
      | disconnect v c now => exact absurd rfl (hdis v c now)
      | _ => exact id

/-! ## What the bound gives -/

/-- Sweep's range selects the marker, and its script ends the match. -/
theorem swept_of_graceUntil {s : Store} {claims : List Claim} {h : MatchHash} {now : UnixMilli}
    (hc : Coherent s claims) (hg : s.GraceUntil m u D) (hh : s.matches_.get m = some h)
    (hnow : D ≤ now) :
    (∃ t, s.disconnectDeadlines.score (m, u) = some t ∧ t ≤ now) ∧
      ((Op.disconnectExpiry m u now).exec s).reply = .ok 1 := by
  obtain ⟨t, ht, hpos, hle⟩ := hg h hh
  have hne : t ≠ 0 := ne_of_gt hpos
  have hdue : t ≤ now := hle.trans hnow
  have hscore := hc.indexed m u t h hh ht hne
  refine ⟨⟨t, hscore, hdue⟩, ?_⟩
  obtain ⟨a, b, _, ha, hb⟩ := hc.seated m h hh
  show (s.disconnectExpiryScript m u now).reply = _
  unfold Store.disconnectExpiryScript
  simp only [hscore, hget_of_some hh, ht, Option.getD_some]
  rw [if_neg (not_lt.mpr hdue), if_neg (not_or.mpr ⟨hne, not_lt.mpr hdue⟩), finish_eq hh ha hb]
  rfl

/-- No Reconnect at or after the bound returns true. -/
theorem not_rejoined_of_graceUntil {s : Store} {claims : List Claim} {c : ConnectionID}
    {now : UnixMilli} (hc : Coherent s claims) (hg : s.GraceUntil m u D) (hnow : D ≤ now) :
    ((Op.reconnect u c m now).exec s).reply ≠ .ok 1 := by
  intro hreply
  have heff := exec_effect hc.seated (.reconnect u c m now)
  generalize (Op.reconnect u c m now).exec s = o at heff hreply
  cases heff with
  | refused _ n hn =>
      cases hreply
      exact absurd hn (by decide)
  | reconnect _ _ _ _ h p hp hm hh hb hd =>
      obtain ⟨t, ht, hpos, hle⟩ := hg h hh
      rw [ht, Option.getD_some] at hd
      exact hd ⟨hpos, hle.trans hnow⟩

end

end OneMinute.Discovery
