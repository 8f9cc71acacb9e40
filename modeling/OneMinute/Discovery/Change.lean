/-
  OneMinute.Discovery.Change

  The operations seen from the match bookkeeping.  `Effect` has a constructor
  for each branch of the scripts; what concerns match hashes, pointers and the
  two deadline indexes is one of five kinds of change (`Change`), one of them a
  write into a live hash (`Write`).  `Effect.change` sorts the branches into
  these.
-/

import OneMinute.Discovery.Coherence

namespace OneMinute.Discovery

/-- The writes into the live hash `h` of `m`, with the guards they passed and
    the answer. -/
inductive Write (m : MatchID) (h : MatchHash) : Op → (MatchHash → MatchHash) → Int → Prop where
  | extendVote (u : UserID) (c : ConnectionID) (now : UnixMilli) (p : UserID)
      (hb : h.Between u p) (hst : h.state = some .active) (hnow : now < h.expiresAt.getD 0)
      (hv : h.extend p = false) :
      Write m h (.extend u c m now) (MatchHash.setExtend u) 1
  | extendBoth (u : UserID) (c : ConnectionID) (now : UnixMilli) (hu : h.Has u)
      (hst : h.state = some .active) (hnow : now < h.expiresAt.getD 0)
      (hv : ∀ p, h.Between u p → h.extend p = true) :
      Write m h (.extend u c m now) (MatchHash.setExtended now ∘ MatchHash.setExtend u) 2
  | connectVote (u : UserID) (c : ConnectionID) (now : UnixMilli) (p : UserID)
      (hb : h.Between u p)
      (hst : h.state = some .extended ∨ h.state = some .active ∧ now < h.expiresAt.getD 0)
      (hv : h.connectPersisted = false) :
      Write m h (.connectVote u c m now) (MatchHash.setConnect u) (if h.connect p then 2 else 1)
  | publish (connectionID : String) (a b : UserID) (ha : h.a = some a) (hb : h.b = some b)
      (hva : h.connect a = true) (hvb : h.connect b = true) (hv : h.connectPersisted = false) :
      Write m h (.publishConnection m connectionID) (MatchHash.setPersisted connectionID) 1
  | mark (u : UserID) (c : ConnectionID) (now : UnixMilli) (p : UserID) (hb : h.Between u p) :
      Write m h (.disconnect u c now)
        (MatchHash.setDisconnected u (some (now + reconnectGrace))) 1
  | unmark (u : UserID) (c : ConnectionID) (now : UnixMilli) (p : UserID) (hb : h.Between u p)
      (hd : ¬ (0 < (h.disconnected u).getD 0 ∧ (h.disconnected u).getD 0 ≤ now)) :
      Write m h (.reconnect u c m now) (MatchHash.setDisconnected u none) 1

namespace Write

variable {m : MatchID} {h : MatchHash} {op : Op} {f : MatchHash → MatchHash} {n : Int}

/-- No write changes the participants. -/
theorem has (hw : Write m h op f n) (u : UserID) : (f h).Has u ↔ h.Has u := by
  cases hw <;> exact Iff.rfl

/-- A write keeps the state or extends an active match. -/
theorem state (hw : Write m h op f n) :
    (f h).state = h.state ∨ h.state = some .active ∧ (f h).state = some .extended := by
  cases hw with
  | extendBoth u c now hu hst hnow hv => exact Or.inr ⟨hst, rfl⟩
  | _ => exact Or.inl rfl

/-- An Extend vote is recorded by its own Extend, in time. -/
theorem extend_recorded {u : UserID} (hw : Write m h op f n) (h0 : h.extend u = false)
    (h1 : (f h).extend u = true) :
    ∃ c now, op = .extend u c m now ∧ h.state = some .active ∧ now < h.expiresAt.getD 0 ∧
      (n = 1 ∨ n = 2) := by
  cases hw with
  | extendVote v c now p hb hst hnow hv =>
      by_cases huv : u = v
      · exact ⟨c, now, by rw [huv], hst, hnow, Or.inl rfl⟩
      · simp [MatchHash.setExtend, huv, h0] at h1
  | extendBoth v c now hu hst hnow hv =>
      by_cases huv : u = v
      · exact ⟨c, now, by rw [huv], hst, hnow, Or.inr rfl⟩
      · simp [MatchHash.setExtended, MatchHash.setExtend, huv, h0] at h1
  | _ =>
      have h1 : h.extend u = true := h1
      rw [h0] at h1
      cases h1

/-- A Connect vote is recorded by its own ConnectVote, while the match is
    extended or active and in time. -/
theorem connect_recorded {u : UserID} (hw : Write m h op f n) (h0 : h.connect u = false)
    (h1 : (f h).connect u = true) :
    ∃ c now, op = .connectVote u c m now ∧
      (h.state = some .extended ∨ h.state = some .active ∧ now < h.expiresAt.getD 0) ∧
      (n = 1 ∨ n = 2) := by
  cases hw with
  | connectVote v c now p hb hst hv =>
      by_cases huv : u = v
      · refine ⟨c, now, by rw [huv], hst, ?_⟩
        cases h.connect p
        · exact Or.inl rfl
        · exact Or.inr rfl
      · simp [MatchHash.setConnect, huv, h0] at h1
  | _ =>
      have h1 : h.connect u = true := h1
      rw [h0] at h1
      cases h1

end Write

/-- What an operation does to the bookkeeping.  Index members only go away,
    except by a claim and by a marker written into a hash that is there. -/
inductive Change (s : Store) : Op → Outcome → Prop where
  | kept (op : Op) (o : Outcome) (hum : ∀ u, o.store.userMatch.get u = s.userMatch.get u)
      (hma : ∀ m, o.store.matches_.get m = s.matches_.get m)
      (hdl : ∀ m, o.store.deadlines.score m ≠ none → s.deadlines.score m ≠ none)
      (hdd : ∀ x, o.store.disconnectDeadlines.score x ≠ none →
        s.disconnectDeadlines.score x ≠ none)
      (hpub : ∀ e ∈ o.published, ∃ env, e.2 = .signal env ∧
        s.matches_.get env.matchID ≠ none)
      (hcl : op.claimed o = [])
      (hrep : ∀ m, op.ends = some m → o.reply ≠ .ok 1) :
      Change s op o
  | written (op : Op) (o : Outcome) (m : MatchID) (h : MatchHash)
      (f : MatchHash → MatchHash) (n : Int) (hw : Write m h op f n)
      (hh : s.matches_.get m = some h) (hreply : o.reply = .ok n)
      (hum : ∀ u, o.store.userMatch.get u = s.userMatch.get u)
      (hma : ∀ x, o.store.matches_.get x = if x = m then some (f h) else s.matches_.get x)
      (hdl : ∀ m, o.store.deadlines.score m ≠ none → s.deadlines.score m ≠ none)
      (hdd : ∀ x u, o.store.disconnectDeadlines.score (x, u) ≠ none →
        s.disconnectDeadlines.score (x, u) ≠ none ∨ x = m)
      (hpub : ∀ e ∈ o.published, e.2.matchID = m ∧ ∀ x r, e.2 ≠ .matchEnded x r) :
      Change s op o
  | claimed (k : Claim) (hA : s.userMatch.get k.userA = none)
      (hB : s.userMatch.get k.userB = none) :
      Change s (.claim k)
        ⟨.ok 1, s.claimed k,
          [(k.userA, .matchFound k.matchID k.eventA), (k.userB, .matchFound k.matchID k.eventB)]⟩
  | closed (op : Op) (m : MatchID) (h : MatchHash) (a b : UserID) (reason : EndReason)
      (hends : op.ends = some m) (hh : s.matches_.get m = some h) (ha : h.a = some a)
      (hb : h.b = some b) : Change s op (s.ended m a b reason)
  | lapsed (d : Nat) : Change s (.tick d) ((s.advance d).answer 1)

theorem zrem_shrinks {α : Type} [DecidableEq α] (z : SortedSet α) (x y : α)
    (h : (z.zrem x).score y ≠ none) : z.score y ≠ none := by
  rw [SortedSet.score_zrem] at h
  split at h
  · exact absurd rfl h
  · exact h

section
variable {s : Store} {op : Op}

/-- An answer with the same bookkeeping. -/
theorem Change.answered {t : Store} {n : Int}
    (hum : ∀ u, t.userMatch.get u = s.userMatch.get u)
    (hma : ∀ m, t.matches_.get m = s.matches_.get m)
    (hdl : ∀ m, t.deadlines.score m ≠ none → s.deadlines.score m ≠ none)
    (hdd : ∀ x, t.disconnectDeadlines.score x ≠ none → s.disconnectDeadlines.score x ≠ none)
    (hn : n ≤ 0 ∨ op.ends = none ∧ op.names = none) : Change s op (t.answer n) := by
  refine .kept op _ hum hma hdl hdd (fun e he => nomatch he) ?_ ?_
  · rcases hn with hn | ⟨_, hnames⟩
    · exact claimed_refused op t hn
    -- a claim names its match
    · cases op with
      | claim k => cases hnames
      | _ => rfl
  · intro m hm e
    cases e
    rcases hn with hn | ⟨hn, _⟩
    · exact absurd hn (by decide)
    · rw [hn] at hm
      cases hm

/-- A write into one hash with the indexes kept. -/
theorem Change.hset {m : MatchID} {h : MatchHash} {f : MatchHash → MatchHash} {n : Int}
    (hh : s.matches_.get m = some h) (hw : Write m h op f n) (pub : List (UserID × Event))
    (hpub : ∀ e ∈ pub, e.2.matchID = m ∧ ∀ x r, e.2 ≠ .matchEnded x r) :
    Change s op ⟨.ok n, s.hset m f, pub⟩ :=
  .written op _ m h f n hw hh rfl (fun _ => rfl) (get_hset hh f) (fun _ hx => hx)
    (fun _ _ hx => Or.inl hx) hpub

end

theorem Effect.change {s : Store} {op : Op} {o : Outcome} (he : Effect s op o) :
    Change s op o := by
  cases he with
  | refused _ n hn =>
      exact .answered (fun _ => rfl) (fun _ => rfl) (fun _ h => h) (fun _ h => h) (Or.inl hn)
  | connect u c | enqueue u c p now hp hm | leaveQueue u c hp | cleanupQueued u encoded he hp
  | disconnectFree u c now hp hfree =>
      exact .answered (fun _ => rfl) (fun _ => rfl) (fun _ h => h) (fun _ h => h)
        (Or.inr ⟨rfl, rfl⟩)
  | alreadyExtended u c m now h hp hm hh hu hst
  | alreadyPersisted u c m now h hp hm hh hu hst hv =>
      exact .kept _ _ (fun _ => rfl) (fun _ => rfl) (fun _ h => h) (fun _ h => h)
        (fun _ he => nomatch he) rfl (fun _ hm => nomatch hm)
  | heartbeat u c hp =>
      unfold Store.refreshed
      split
      · exact .answered (fun _ => rfl) (fun _ => rfl) (fun _ h => h) (fun _ h => h)
          (Or.inr ⟨rfl, rfl⟩)
      · exact .answered (fun _ => Keyspace.get_expire _ _ _ _)
          (fun _ => Keyspace.get_expire _ _ _ _) (fun _ h => h) (fun _ h => h)
          (Or.inr ⟨rfl, rfl⟩)
  | claim k hpA hpB hmA hmB hqA hqB hr => exact .claimed k hmA hmB
  | reconnect u c m now h p hp hm hh hb hd =>
      -- a Reconnect only takes the marker away
      exact .written _ _ m h _ 1 (.unmark u c now p hb hd) hh rfl (fun _ => rfl)
        (get_hset hh _) (fun _ hx => hx) (fun x v hx => Or.inl (zrem_shrinks _ _ _ hx))
        (by simp [Event.matchID])
  | signal u c env h p hp hm hh hb hpeer =>
      refine .kept _ _ (fun _ => rfl) (fun _ => rfl) (fun _ h => h) (fun _ h => h) ?_ rfl
        (fun _ hm => nomatch hm)
      intro e he
      rw [List.mem_singleton.mp he]
      exact ⟨env, rfl, by rw [hh]; simp⟩
  | extendVote u c m now h p hp hm hh hb hst hnow hv =>
      exact .hset hh (.extendVote u c now p hb hst hnow hv) [] (fun e he => nomatch he)
  | extendBoth u c m now h a b hp hm hh ha hb hu hst hnow hv =>
      have hhas : h.Has u := by
        rcases hu with rfl | rfl
        · exact Or.inl ha
        · exact Or.inr hb
      exact .written _ _ m h _ 2 (.extendBoth u c now hhas hst hnow hv) hh rfl (fun _ => rfl)
        (get_hset hh _) (fun x hx => zrem_shrinks _ _ _ hx) (fun x v hx => Or.inl hx)
        (by simp [Event.matchID])
  | connectVote u c m now h p hp hm hh hb hst hv =>
      exact .hset hh (.connectVote u c now p hb hst hv) [] (fun e he => nomatch he)
  | publishConnection m connectionID h a b hh ha hb hva hvb hv =>
      exact .hset hh (.publish connectionID a b ha hb hva hvb hv) _ (by simp [Event.matchID])
  | endMatch u c m reason h a b hp hm hh ha hb hu =>
      exact .closed _ m h a b reason rfl hh ha hb
  | endForUser u m reason h a b hm hh ha hb hu =>
      exact .closed _ m h a b reason rfl hh ha hb
  | disconnect u c now m h p hp hm hh hb =>
      refine .written _ _ m h _ 1 (.mark u c now p hb) hh rfl (fun _ => rfl)
        (get_hset (s := s.departed u) hh _) (fun _ hx => hx) ?_ (by simp [Event.matchID])
      intro x v hx
      -- the new member is of the match that was written to
      simp only [Store.marked, SortedSet.score_zadd] at hx
      split at hx
      · next e => exact Or.inr (congrArg Prod.fst e)
      · exact Or.inl hx
  | expire m now h a b hd hh ha hb hst hnow => exact .closed _ m h a b _ rfl hh ha hb
  | expireStale m now hd hh =>
      exact .answered (fun _ => rfl) (fun _ => rfl) (fun x hx => zrem_shrinks _ _ _ hx)
        (fun _ h => h) (Or.inl le_rfl)
  | disconnectExpiry m u now h a b t hd ht hh ha hb hne hnow =>
      exact .closed _ m h a b _ rfl hh ha hb
  | disconnectExpiryStale m u now t hd ht hstale =>
      exact .answered (fun _ => rfl) (fun _ => rfl) (fun _ h => h)
        (fun x hx => zrem_shrinks _ _ _ hx) (Or.inl le_rfl)
  | tick d => exact .lapsed d

/-- The change an operation makes in a coherent store. -/
theorem exec_change {s : Store} {claims : List Claim} (hc : Coherent s claims) (op : Op) :
    Change s op (op.exec s) :=
  (exec_effect hc.seated op).change

/-- A claim takes an id that no match of the run has had. -/
theorem ne_of_claim {w : World} {k : Claim} {m : MatchID} (hp : (Op.claim k).Permitted w)
    (hm : m ∈ w.claims.map Claim.matchID) : m ≠ k.matchID := by
  obtain ⟨k', hk', hkm⟩ := List.mem_map.mp hm
  exact fun e => hp.2 k' hk' (hkm.trans e)

/-- A hash that is there after an operation was there before, or is the result
    of a write into one that was, or is that of a claim. -/
theorem hash_after {w : World} {op : Op} {m : MatchID} {h' : MatchHash}
    (hc : Coherent w.store w.claims) (hp : op.Permitted w)
    (hget : (w.after op).store.matches_.get m = some h') :
    w.store.matches_.get m = some h' ∨
      (∃ h f n, w.store.matches_.get m = some h ∧ Write m h op f n ∧
        (op.exec w.store).reply = .ok n ∧ h' = f h) ∨
      ∃ k, op = .claim k ∧ m = k.matchID ∧ h' = k.hash {} := by
  have hchange := exec_change hc op
  have hget : (op.exec w.store).store.matches_.get m = some h' := hget
  generalize op.exec w.store = o at hchange hget ⊢
  cases hchange with
  | kept _ _ _ hma _ _ _ _ _ =>
      rw [hma] at hget
      exact Or.inl hget
  | written _ _ x h f n hw hh hreply _ hma _ _ _ =>
      rw [hma] at hget
      split at hget
      · next hxm =>
          cases hget
          rw [← hxm] at hh hw
          exact Or.inr (Or.inl ⟨h, f, n, hh, hw, hreply, rfl⟩)
      · exact Or.inl hget
  | claimed k _ _ =>
      have hget : (w.store.claimed k).matches_.get m = some h' := hget
      rw [hc.get_claimed hp.2] at hget
      split at hget
      · next hkm =>
          cases hget
          exact Or.inr (Or.inr ⟨k, rfl, hkm, rfl⟩)
      · exact Or.inl hget
  | closed _ x h a b _ _ _ _ _ =>
      -- the end of a match only removes its hash
      have hget : (w.store.closed x a b).matches_.get m = some h' := hget
      rw [Store.closed, Keyspace.get_del] at hget
      split at hget
      · cases hget
      · exact Or.inl hget
  | lapsed d => exact Or.inl (Keyspace.get_of_get_lapse hget).1

end OneMinute.Discovery
