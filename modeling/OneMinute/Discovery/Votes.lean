/-
  OneMinute.Discovery.Votes

  Connect votes and the one publication of their result.

  A vote in a live hash was recorded by its own ConnectVote while the match was
  extended or in time (`connectVoted_of_vote`), so a ConnectVote that answers 2
  finds the other one recorded before it (`both_voted`).  `connectPersisted` is
  set by the publication and never taken back, so `connection.created` is
  published once (`creations_of_run`).
-/

import OneMinute.Discovery.Ending

namespace OneMinute.Discovery

/-! ## Who voted, and when -/

/-- In the run `as`, `u` had a ConnectVote on `m` accepted while the match was
    extended, or active at an instant before its `expiresAt`. -/
def ConnectVoted (as : List Op) (m : MatchID) (u : UserID) : Prop :=
  ∃ v c now h, storeMachine.Taken as v (.connectVote u c m now)
      (v.after (.connectVote u c m now)) ∧
    v.store.matches_.get m = some h ∧
    (h.state = some .extended ∨
      h.state = some .active ∧ ∃ t, h.expiresAt = some t ∧ now < t) ∧
    (((Op.connectVote u c m now).exec v.store).reply = .ok 1 ∨
      ((Op.connectVote u c m now).exec v.store).reply = .ok 2)

theorem ConnectVoted.append {as : List Op} {m : MatchID} {u : UserID}
    (h : ConnectVoted as m u) (bs : List Op) : ConnectVoted (as ++ bs) m u := by
  obtain ⟨v, c, now, h', htaken, hrest⟩ := h
  exact ⟨v, c, now, h', htaken.append bs, hrest⟩

/-- The guard of ConnectVote, with the `expiresAt` that every hash has. -/
theorem inTime_of_guard {s : Store} {claims : List Claim} {m : MatchID} {h : MatchHash}
    {now : UnixMilli} (hc : Coherent s claims) (hh : s.matches_.get m = some h)
    (hst : h.state = some .extended ∨ h.state = some .active ∧ now < h.expiresAt.getD 0) :
    h.state = some .extended ∨
      h.state = some .active ∧ ∃ t, h.expiresAt = some t ∧ now < t := by
  obtain ⟨k, _, _, hr⟩ := hc.records m h hh
  rw [hr.expiresAt] at hst ⊢
  exact hst.imp_right fun ⟨ha, hnow⟩ => ⟨ha, _, rfl, hnow⟩

/-- A recorded Connect vote was accepted in time. -/
theorem connectVoted_of_vote {as : List Op} {w : World} {m : MatchID} {h : MatchHash}
    {u : UserID} (hrun : storeMachine.run as = some w) (hh : w.store.matches_.get m = some h)
    (hv : h.connect u = true) : ConnectVoted as m u := by
  obtain ⟨v, op, h0, f, n, htaken, hget, hw, hreply, hno, hyes, _⟩ :=
    write_of_hash (g := fun h => h.connect u = true) hrun hh hv
      (fun k e => by simp [Claim.hash] at e)
  obtain ⟨c, now, rfl, hst, hn⟩ := hw.connect_recorded (by simpa using hno) hyes
  obtain ⟨pre, post, hsplit, hpre, hstep⟩ := htaken
  refine ⟨v, c, now, h0, ⟨pre, post, hsplit, hpre, hstep⟩, hget,
    inTime_of_guard (coherent_of_run hpre) hget hst, ?_⟩
  rcases hn with rfl | rfl
  · exact Or.inl hreply
  · exact Or.inr hreply

/-- A ConnectVote that answers 2 completes the votes of the two participants. -/
theorem both_voted {as : List Op} {w : World} {u : UserID} {c : ConnectionID} {m : MatchID}
    {now : UnixMilli} (hrun : storeMachine.run as = some w)
    (hreply : ((Op.connectVote u c m now).exec w.store).reply = .ok 2) :
    ∃ k ∈ w.claims, k.matchID = m ∧
      ConnectVoted (as ++ [.connectVote u c m now]) m k.userA ∧
      ConnectVoted (as ++ [.connectVote u c m now]) m k.userB := by
  have hc := coherent_of_run hrun
  have hstep : storeMachine.step w (.connectVote u c m now) =
      some (w.after (.connectVote u c m now)) := step_eq_some.mpr ⟨trivial, rfl⟩
  have heff := exec_effect hc.seated (.connectVote u c m now)
  generalize ho : (Op.connectVote u c m now).exec w.store = o at heff hreply
  cases heff with
  | refused _ n hn =>
      cases hreply
      exact absurd hn (by decide)
  | alreadyPersisted => cases hreply
  | connectVote _ _ _ _ h p hp hm hh hb hst hv =>
      -- the answer 2 means that the peer had voted
      have hpeer : h.connect p = true := by
        by_contra hno
        simp [Store.answer, hno] at hreply
      have hself : ConnectVoted (as ++ [.connectVote u c m now]) m u := by
        refine ⟨w, c, now, h, Machine.taken_concat hrun hstep, hh, inTime_of_guard hc hh hst, ?_⟩
        rw [ho]
        exact Or.inr hreply
      have hother := (connectVoted_of_vote hrun hh hpeer).append [.connectVote u c m now]
      obtain ⟨k, hk, hkm, hr⟩ := hc.records m h hh
      refine ⟨k, hk, hkm, ?_⟩
      -- which of the two is userA
      have hpair := hb.2
      rw [hr.a, hr.b] at hpair
      rcases hpair with ⟨ha, hb'⟩ | ⟨ha, hb'⟩
      · rw [Option.some.inj ha, Option.some.inj hb']
        exact ⟨hself, hother⟩
      · rw [Option.some.inj ha, Option.some.inj hb']
        exact ⟨hother, hself⟩

/-- What was read of a match is the claim's. -/
structure MatchState.Records (st : MatchState) (k : Claim) : Prop where
  id : st.id = k.matchID
  userA : st.userA = k.userA
  userB : st.userB = k.userB
  intent : st.intent = k.intent
  sharedInterests : st.sharedInterests = k.sharedInterests
  startedAt : st.startedAt = k.now
  expiresAt : st.expiresAt = k.now + encounterLength

theorem matchState_of_records {s : Store} {h : MatchHash} {k : Claim}
    (hh : s.matches_.get k.matchID = some h) (hr : h.Records k) :
    ∃ st, s.matchState k.matchID = .ok (some st) ∧ st.Records k := by
  unfold Store.matchState
  simp only [hget_of_some hh, hr.a, hr.b, hr.sharedInterests, hr.intent, hr.startedAt,
    hr.expiresAt]
  exact ⟨_, rfl, rfl, rfl, rfl, rfl, rfl, rfl, rfl⟩

/-- What CurrentMatch reads from a hash is its claim's. -/
theorem matchState_eq_some {s : Store} {claims : List Claim} {m : MatchID} {st : MatchState}
    (hc : Coherent s claims) (h : s.matchState m = .ok (some st)) :
    st.id = m ∧ ∃ k ∈ claims, st.Records k := by
  cases hh : s.matches_.get m with
  | none =>
      unfold Store.matchState at h
      rw [hget_of_none hh] at h
      cases h
  | some x =>
      obtain ⟨k, hk, rfl, hr⟩ := hc.records m x hh
      obtain ⟨st', hst', hrec⟩ := matchState_of_records hh hr
      rw [h] at hst'
      cases hst'
      exact ⟨hrec.id, k, hk, hrec⟩

/-! ## At most one `connection.created` -/

/-- The event reports a connection of `m`. -/
def Event.createsFor (m : MatchID) : Event → Bool
  | .connectionCreated x _ => x == m
  | _ => false

/-- How often `connection.created` for `m` was published to `u`. -/
def creations (log : List (UserID × Event)) (m : MatchID) (u : UserID) : Nat :=
  told log (Event.createsFor m) u

/-- `connectPersisted` is never taken back. -/
theorem Write.persisted_kept {m : MatchID} {h : MatchHash} {op : Op}
    {f : MatchHash → MatchHash} {n : Int} (hw : Write m h op f n)
    (h0 : h.connectPersisted = true) : (f h).connectPersisted = true := by
  cases hw with
  | publish => rfl
  | _ => exact h0

/-- If the hash of `m` is there, its connection was published. -/
def Store.Persisted (s : Store) (m : MatchID) : Prop :=
  ∀ h, s.matches_.get m = some h → h.connectPersisted = true

theorem persisted_after {w : World} {op : Op} {m : MatchID} (hc : Coherent w.store w.claims)
    (hp : op.Permitted w) (hm : m ∈ w.claims.map Claim.matchID) (hper : w.store.Persisted m) :
    (w.after op).store.Persisted m := by
  intro h' hget
  rcases hash_after hc hp hget with hold | ⟨h, f, n, hh, hw, _, rfl⟩ | ⟨k, rfl, hkm, _⟩
  · exact hper h' hold
  · exact hw.persisted_kept (hper h hh)
  · exact absurd hkm (ne_of_claim hp hm)

/-- Only PublishConnection publishes `connection.created`, to a participant. -/
theorem created_published {s : Store} {claims : List Claim} {op : Op} {u : UserID} {m : MatchID}
    {id : String} (hc : Coherent s claims)
    (he : (u, .connectionCreated m id) ∈ (op.exec s).published) :
    op = .publishConnection m id ∧ ∃ k ∈ claims, k.matchID = m ∧ (u = k.userA ∨ u = k.userB) := by
  have heff := exec_effect hc.seated op
  generalize op.exec s = o at he heff
  cases heff with
  | publishConnection x connectionID h a b hh ha hb hva hvb hv =>
      obtain ⟨k, hk, hkm, hr⟩ := hc.records x h hh
      rw [hr.a] at ha
      rw [hr.b] at hb
      cases ha
      cases hb
      simp only [List.mem_cons, Prod.mk.injEq, Event.connectionCreated.injEq, List.not_mem_nil,
        or_false] at he
      rcases he with ⟨rfl, rfl, rfl⟩ | ⟨rfl, rfl, rfl⟩
      · exact ⟨rfl, k, hk, hkm, Or.inl rfl⟩
      · exact ⟨rfl, k, hk, hkm, Or.inr rfl⟩
  | _ => simp [Store.answer, Store.ended] at he

/-- An operation publishes the connection of a match at most once to a user,
    and only when it was not published before. -/
theorem creations_exec {w : World} (op : Op) (m : MatchID) (u : UserID)
    (hc : Coherent w.store w.claims) :
    creations (op.exec w.store).published m u = 0 ∨
      (creations (op.exec w.store).published m u ≤ 1 ∧ ¬ w.store.Persisted m ∧
        m ∈ w.claims.map Claim.matchID ∧ (w.after op).store.Persisted m) := by
  by_cases hno : ∀ e ∈ (op.exec w.store).published, e.2.createsFor m = false
  · exact Or.inl (told_eq_zero hno)
  · right
    simp only [not_forall, Bool.not_eq_false] at hno
    obtain ⟨⟨v, e⟩, he, hcreates⟩ := hno
    obtain ⟨id, rfl⟩ : ∃ id, e = .connectionCreated m id := by
      unfold Event.createsFor at hcreates
      split at hcreates
      · next x id he => exact ⟨id, by rw [← eq_of_beq hcreates]; exact he⟩
      · cases hcreates
    obtain ⟨rfl, k, hk, hkm, _⟩ := created_published hc he
    have heff := exec_effect hc.seated (.publishConnection m id)
    show _ ∧ _ ∧ _ ∧ ((Op.publishConnection m id).exec w.store).store.Persisted m
    generalize (Op.publishConnection m id).exec w.store = o at he heff ⊢
    cases heff with
    | refused _ n hn => cases he
    | publishConnection _ _ h a b hh ha hb hva hvb hv =>
        have hmem : m ∈ w.claims.map Claim.matchID := List.mem_map.mpr ⟨k, hk, hkm⟩
        refine ⟨told_pair (hc.ne hh ha hb) _ _ _ _, fun hper => ?_, hmem, ?_⟩
        -- a published connection is not published again
        · rw [hper h hh] at hv
          cases hv
        · intro h' hget
          rw [get_hset hh, if_pos rfl] at hget
          cases hget
          rfl

/-- In every run, `connection.created` for a match was published at most once to
    each user. -/
theorem creations_of_run {as : List Op} {w : World} (hrun : storeMachine.run as = some w)
    (m : MatchID) (u : UserID) : creations w.published m u ≤ 1 := by
  refine (told_of_run
    (D := fun v => v.store.Persisted m ∧ m ∈ v.claims.map Claim.matchID) ?_ ?_ hrun).1
  · rintro v op hc hp ⟨hper, hm⟩
    exact ⟨persisted_after hc hp hm hper, mem_claims_after op hm⟩
  · intro v op hc hp
    rcases creations_exec op m u hc with h0 | ⟨h1, hnot, hm, hper⟩
    · exact Or.inl h0
    · exact Or.inr ⟨h1, fun hD => hnot hD.1, hper, mem_claims_after op hm⟩

end OneMinute.Discovery
