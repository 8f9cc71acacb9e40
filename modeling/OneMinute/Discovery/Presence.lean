/-
  OneMinute.Discovery.Presence

  A user's presence key and the Disconnect that needs it.

  The key holds the user's newest connection and lapses `presenceTTL` after that
  connection's last Connect or heartbeat (`HeldSince`); nothing but that
  connection's own operations and a later Connect touches it.  A Disconnect that
  finds it clears the queue entry and marks the match; one that does not,
  changes nothing (`noticed_disconnect`).
-/

import OneMinute.Discovery.Change

namespace OneMinute.Discovery

/-- The TTL of a presence key, in milliseconds. -/
def presenceSpan : Nat := 1000 * presenceTTL

/-- `c` is `u`'s presence, set at `r`, until it lapses. -/
structure Store.HeldSince (s : Store) (u : UserID) (c : ConnectionID) (r : Nat) : Prop where
  held : s.clock ≤ r + presenceSpan →
    s.presence.get u = some c ∧ s.presence.expiry u = some (r + presenceSpan)
  lapsed : r + presenceSpan < s.clock → s.presence.get u = none

/-- The operation is for `u`'s presence `c`, or replaces it. -/
def Op.Touches (u : UserID) (c : ConnectionID) : Op → Prop
  | .connect v _ => v = u
  | .heartbeat v e => v = u ∧ e = c
  | .disconnect v e _ => v = u ∧ e = c
  | _ => False

section
variable {s : Store} {u : UserID} {c : ConnectionID} {r : Nat}

theorem Store.HeldSince.get (h : s.HeldSince u c r) :
    s.presence.get u = some c ↔ s.clock ≤ r + presenceSpan := by
  constructor
  · intro hget
    by_contra hlate
    rw [h.lapsed (by omega)] at hget
    cases hget
  · exact fun hle => (h.held hle).1

/-- Whoever holds the key, nobody else does. -/
theorem Store.HeldSince.ne (h : s.HeldSince u c r) {e : ConnectionID} (he : e ≠ c) :
    s.presence.get u ≠ some e := by
  intro hget
  by_cases hle : s.clock ≤ r + presenceSpan
  · rw [(h.held hle).1] at hget
    exact he (Option.some.inj hget).symm
  · rw [h.lapsed (by omega)] at hget
    cases hget

/-- The invariant reads the clock and the user's key. -/
theorem Store.HeldSince.congr {t : Store} (h : s.HeldSince u c r) (hclock : t.clock = s.clock)
    (hget : t.presence.get u = s.presence.get u)
    (hexp : t.presence.expiry u = s.presence.expiry u) : t.HeldSince u c r where
  held := by
    rw [hclock, hget, hexp]
    exact h.held
  lapsed := by
    rw [hclock, hget]
    exact h.lapsed

theorem heldSince_advance (h : s.HeldSince u c r) (d : Nat) : (s.advance d).HeldSince u c r where
  held := by
    intro hle
    have hle : s.clock + d ≤ r + presenceSpan := hle
    obtain ⟨hget, hexp⟩ := h.held (by omega)
    have halive : Keyspace.Alive (s.clock + d) (s.presence.expiry u) := by
      rw [hexp]
      intro e he
      cases he
      exact hle
    show (s.presence.lapse (s.clock + d)).get u = _ ∧ (s.presence.lapse (s.clock + d)).expiry u = _
    rw [Keyspace.get_lapse, Keyspace.expiry_lapse, if_pos halive, if_pos halive]
    exact ⟨hget, hexp⟩
  lapsed := by
    intro hlt
    have hlt : r + presenceSpan < s.clock + d := hlt
    show (s.presence.lapse (s.clock + d)).get u = none
    rw [Keyspace.get_lapse]
    -- it lapses now, or had lapsed before
    by_cases hle : s.clock ≤ r + presenceSpan
    · rw [if_neg]
      intro halive
      rw [(h.held hle).2] at halive
      have := halive _ rfl
      omega
    · rw [h.lapsed (by omega), ite_self]

/-- Connect sets the key, now. -/
theorem heldSince_connect : ((Op.connect u c).exec s).store.HeldSince u c s.clock where
  held := by
    intro _
    show (s.presence.put u c (some (s.ttl presenceTTL))).get u = _ ∧
      (s.presence.put u c (some (s.ttl presenceTTL))).expiry u = _
    rw [Keyspace.get_put, Keyspace.expiry_put, if_pos rfl, if_pos rfl]
    exact ⟨rfl, rfl⟩
  lapsed := by
    intro hlt
    have hlt : s.clock + presenceSpan < s.clock := hlt
    omega

/-- An accepted heartbeat sets its TTL again, now. -/
theorem heldSince_heartbeat (hp : s.presence.get u = some c) :
    (s.refreshed u).HeldSince u c s.clock := by
  have hpres : (s.refreshed u).presence = s.presence.expire u (s.ttl presenceTTL) := by
    unfold Store.refreshed
    split <;> rfl
  have hclock : (s.refreshed u).clock = s.clock := by
    unfold Store.refreshed
    split <;> rfl
  constructor
  · intro _
    rw [hpres, Keyspace.get_expire, Keyspace.expiry_expire, if_pos rfl, hp]
    exact ⟨rfl, rfl⟩
  · intro hlt
    rw [hclock] at hlt
    omega

/-- The key of one user is no concern of the others. -/
theorem heldSince_exec {claims : List Claim} {op : Op} (hc : Coherent s claims)
    (h : s.HeldSince u c r) (hno : ¬ op.Touches u c) : (op.exec s).store.HeldSince u c r := by
  have hother : ∀ {v e}, s.presence.get v = some e → ¬ (v = u ∧ e = c) → ¬ u = v := by
    rintro v e hp hve rfl
    by_cases hec : e = c
    · exact hve ⟨rfl, hec⟩
    · exact h.ne hec hp
  have heff := exec_effect hc.seated op
  generalize op.exec s = o at heff ⊢
  cases heff with
  | connect v e =>
      have huv : ¬ u = v := fun e => hno e.symm
      refine h.congr rfl ?_ ?_
      · exact (Keyspace.get_put _ _ _ _ _).trans (if_neg huv)
      · exact (Keyspace.expiry_put _ _ _ _ _).trans (if_neg huv)
  | heartbeat v e hp =>
      have huv := hother hp hno
      unfold Store.refreshed
      split
      · refine h.congr rfl (Keyspace.get_expire _ _ _ _) ?_
        exact (Keyspace.expiry_expire _ _ _ _).trans (if_neg huv)
      · refine h.congr rfl (Keyspace.get_expire _ _ _ _) ?_
        exact (Keyspace.expiry_expire _ _ _ _).trans (if_neg huv)
  | disconnectFree v e now hp hfree =>
      have huv := hother hp hno
      refine h.congr rfl ?_ ?_
      · exact (Keyspace.get_del _ _ _).trans (if_neg huv)
      · exact (Keyspace.expiry_del _ _ _).trans (if_neg huv)
  | disconnect v e now m h' p hp hm hh hb =>
      have huv := hother hp hno
      refine h.congr rfl ?_ ?_
      · exact (Keyspace.get_del _ _ _).trans (if_neg huv)
      · exact (Keyspace.expiry_del _ _ _).trans (if_neg huv)
  | tick d => exact heldSince_advance h d
  | _ => exact h.congr rfl rfl rfl

end

/-! ## The newest connection -/

/-- The connection that the operation makes `u`'s newest. -/
def Op.connects (u : UserID) : Op → Option ConnectionID
  | .connect v c => if v = u then some c else none
  | _ => none

/-- The connection of `u`'s latest Connect. -/
def newest (ops : List Op) (u : UserID) : Option ConnectionID :=
  ops.reverse.findSome? (Op.connects u)

theorem newest_concat (ops : List Op) (op : Op) (u : UserID) :
    newest (ops ++ [op]) u = (op.connects u).or (newest ops u) := by
  unfold newest
  rw [List.reverse_append, List.reverse_singleton, List.singleton_append, List.findSome?_cons]
  cases op.connects u <;> rfl

/-! ## A vanished participant -/

section
variable {s : Store} {u : UserID} {c : ConnectionID}

/-- The user has no queue entry, and no match or a deadline in it. -/
def Store.Noticed (s : Store) (u : UserID) : Prop :=
  s.queue.score u = none ∧
    (s.userMatch.get u = none ∨
      ∃ m, s.userMatch.get u = some m ∧ s.disconnectDeadlines.score (m, u) ≠ none)

/-- A Disconnect notices the user exactly if it finds the presence of its own
    connection, or there was nothing to notice. -/
theorem noticed_disconnect {claims : List Claim} {now : UnixMilli} (hc : Coherent s claims) :
    ((Op.disconnect u c now).exec s).store.Noticed u ↔
      s.presence.get u = some c ∨ s.Noticed u := by
  by_cases hp : s.presence.get u = some c
  · refine iff_of_true ?_ (Or.inl hp)
    have heff := exec_effect hc.seated (.disconnect u c now)
    have hreply : ((Op.disconnect u c now).exec s).reply = .ok 1 := disconnect_reply hp
    generalize (Op.disconnect u c now).exec s = o at heff hreply ⊢
    have hqueue : (s.departed u).queue.score u = none := by
      show (s.queue.zrem u).score u = none
      rw [SortedSet.score_zrem, if_pos rfl]
    cases heff with
    | refused _ n hn =>
        cases hreply
        exact absurd hn (by decide)
    | disconnectFree _ _ _ _ hfree =>
        -- a pointer would lead to a hash of which the user is a participant
        refine ⟨hqueue, Or.inl ?_⟩
        show s.userMatch.get u = none
        cases hm : s.userMatch.get u with
        | none => rfl
        | some m =>
            obtain ⟨h, hh, hhas⟩ := hc.pointer u m hm
            exact absurd hhas (hfree m h hm hh)
    | disconnect _ _ _ m h p _ hm hh hb =>
        refine ⟨hqueue, Or.inr ⟨m, hm, ?_⟩⟩
        show (s.disconnectDeadlines.zadd (m, u) _).score (m, u) ≠ none
        rw [SortedSet.score_zadd, if_pos rfl]
        exact Option.some_ne_none _
  -- the script stops at its first line
  · have hsame : (Op.disconnect u c now).exec s = s.answer 0 := by
      show s.disconnectScript u c (now + reconnectGrace) = _
      unfold Store.disconnectScript
      exact if_pos hp
    rw [hsame]
    exact ⟨Or.inr, fun h => h.resolve_left hp⟩

end

end OneMinute.Discovery
