/-
  OneMinute.Discovery.Ending

  A match ends once and for good.  The four scripts that end a match leave no
  trace of it (`Forgotten`); no operation brings a claimed id back, so every
  later operation that names it is refused, nothing is published about it, and
  `match.ended` reaches each participant at most once.
-/

import OneMinute.Discovery.Lifecycle

namespace OneMinute.Discovery

/-- No hash, pointer or index member refers to `m`. -/
structure Store.Forgotten (s : Store) (m : MatchID) : Prop where
  hash : s.matches_.get m = none
  pointer : ∀ u, s.userMatch.get u ≠ some m
  deadline : s.deadlines.score m = none
  marker : ∀ u, s.disconnectDeadlines.score (m, u) = none

/-! ## What ends a match leaves no trace of it -/

theorem forgotten_closed {s : Store} {claims : List Claim} {m : MatchID} {h : MatchHash}
    {a b : UserID} (hc : Coherent s claims) (hh : s.matches_.get m = some h)
    (ha : h.a = some a) (hb : h.b = some b) : (s.closed m a b).Forgotten m := by
  constructor
  case hash => rw [Store.closed, Keyspace.get_del, if_pos rfl]
  case pointer =>
    intro u hu
    simp only [Store.closed, Keyspace.get_del] at hu
    split at hu
    · cases hu
    · next hub =>
        split at hu
        · cases hu
        · next hua =>
            -- only a participant can point to `m`
            obtain ⟨h', hh', hhas⟩ := hc.pointer u m hu
            rw [hh] at hh'
            cases hh'
            exact (hhas.eq_or_eq ha hb).elim hua hub
  case deadline => rw [Store.closed, SortedSet.score_zrem, if_pos rfl]
  case marker =>
    intro u
    by_contra hsome
    simp only [Store.closed] at hsome
    have hold := zrem_shrinks _ _ _ (zrem_shrinks _ _ _ hsome)
    rcases (hc.marker_has hh hold).eq_or_eq ha hb with rfl | rfl
    · simp [SortedSet.score_zrem] at hsome
    · simp [SortedSet.score_zrem] at hsome

/-- If an operation ends a match with answer 1, nothing refers to it. -/
theorem forgotten_of_ends {w : World} {op : Op} {m : MatchID} (hc : Coherent w.store w.claims)
    (hends : op.ends = some m) (hreply : (op.exec w.store).reply = .ok 1) :
    (w.after op).store.Forgotten m ∧ m ∈ w.claims.map Claim.matchID := by
  have hchange := exec_change hc op
  show (op.exec w.store).store.Forgotten m ∧ _
  generalize op.exec w.store = o at hchange hreply ⊢
  cases hchange with
  | kept _ _ _ _ _ _ _ _ hrep => exact absurd hreply (hrep m hends)
  | written _ _ _ _ _ _ hw _ _ _ _ _ _ _ => cases hw <;> cases hends
  | claimed k _ _ => cases hends
  | closed _ x h a b _ hends' hh ha hb =>
      rw [hends] at hends'
      cases hends'
      exact ⟨forgotten_closed hc hh ha hb, mem_claims_of_live hc hh⟩
  | lapsed d => cases hends

/-! ## Nothing brings it back -/

theorem forgotten_after {w : World} {op : Op} {m : MatchID} (hc : Coherent w.store w.claims)
    (hp : op.Permitted w) (hm : m ∈ w.claims.map Claim.matchID) (hf : w.store.Forgotten m) :
    (w.after op).store.Forgotten m := by
  have hchange := exec_change hc op
  show (op.exec w.store).store.Forgotten m
  generalize op.exec w.store = o at hchange ⊢
  have hnone : ∀ {α : Type} {x : Option α}, ¬ x ≠ none → x = none := fun h => not_not.mp h
  cases hchange with
  | kept _ _ hum hma hdl hdd _ _ _ =>
      exact ⟨by rw [hma, hf.hash], fun u => by rw [hum]; exact hf.pointer u,
        hnone fun h => hdl m h hf.deadline, fun u => hnone fun h => hdd _ h (hf.marker u)⟩
  | written _ _ x h f n _ hh _ hum hma hdl hdd _ =>
      -- a write finds its hash, and `m` has none
      have hxm : m ≠ x := by
        rintro rfl
        rw [hf.hash] at hh
        cases hh
      refine ⟨by rw [hma, if_neg hxm, hf.hash], fun u => by rw [hum]; exact hf.pointer u,
        hnone fun h => hdl m h hf.deadline, fun u => hnone fun h => ?_⟩
      rcases hdd m u h with hold | e
      · exact hold (hf.marker u)
      · exact hxm e
  | claimed k _ _ =>
      have hkm : m ≠ k.matchID := ne_of_claim hp hm
      refine ⟨?_, ?_, ?_, hf.marker⟩
      · show (w.store.claimed k).matches_.get m = none
        rw [hc.get_claimed hp.2, if_neg hkm, hf.hash]
      · intro u hu
        have hu : (w.store.claimed k).userMatch.get u = some m := hu
        rw [Store.get_userMatch_claimed] at hu
        split at hu
        · exact hkm (Option.some.inj hu).symm
        · exact hf.pointer u hu
      · show (w.store.claimed k).deadlines.score m = none
        rw [Store.score_deadlines_claimed, if_neg hkm]
        exact hf.deadline
  | closed _ x h a b _ _ _ _ _ =>
      refine ⟨?_, ?_, ?_, ?_⟩
      · simp only [Store.ended, Store.closed, Keyspace.get_del, hf.hash, ite_self]
      · intro u hu
        simp only [Store.ended, Store.closed, Keyspace.get_del] at hu
        split at hu
        · cases hu
        · split at hu
          · cases hu
          · exact hf.pointer u hu
      · simp only [Store.ended, Store.closed, SortedSet.score_zrem, hf.deadline, ite_self]
      · intro u
        simp only [Store.ended, Store.closed, SortedSet.score_zrem, hf.marker u, ite_self]
  | lapsed d =>
      refine ⟨?_, fun u hu => hf.pointer u (Keyspace.get_of_get_lapse hu).1, hf.deadline,
        hf.marker⟩
      show (w.store.matches_.lapse (w.store.clock + d)).get m = none
      rw [Keyspace.get_lapse, hf.hash, ite_self]

/-- The claims of a run stay. -/
theorem mem_claims_after {w : World} {m : MatchID} (op : Op)
    (hm : m ∈ w.claims.map Claim.matchID) : m ∈ (w.after op).claims.map Claim.matchID := by
  show m ∈ (op.claimed (op.exec w.store) ++ w.claims).map Claim.matchID
  rw [List.map_append]
  exact List.mem_append_right _ hm

theorem forgotten_of_runFrom {u w : World} {bs : List Op} {m : MatchID}
    (hc : Coherent u.store u.claims) (hm : m ∈ u.claims.map Claim.matchID)
    (hf : u.store.Forgotten m) (hrun : storeMachine.runFrom u bs = some w) :
    w.store.Forgotten m ∧ m ∈ w.claims.map Claim.matchID := by
  refine (Machine.runFrom_invariant
    (P := fun v => Coherent v.store v.claims ∧ v.store.Forgotten m ∧
      m ∈ v.claims.map Claim.matchID) ?_ hrun ⟨hc, hf, hm⟩).2
  rintro v op v' ⟨hcv, hfv, hmv⟩ hstep
  obtain ⟨hp, rfl⟩ := step_eq_some.mp hstep
  exact ⟨coherent_after hcv hp, forgotten_after hcv hp hmv hfv, mem_claims_after op hmv⟩

/-- What names a forgotten match is refused. -/
theorem refused_of_forgotten {w : World} {op : Op} {m : MatchID}
    (hc : Coherent w.store w.claims) (hp : op.Permitted w)
    (hm : m ∈ w.claims.map Claim.matchID) (hf : w.store.Forgotten m)
    (hnames : op.names = some m) : ∃ n ≤ 0, op.exec w.store = w.store.answer n := by
  have heff := exec_effect hc.seated op
  have hhash := hf.hash
  generalize op.exec w.store = o at heff ⊢
  cases heff with
  | refused _ n hn => exact ⟨n, hn, rfl⟩
  | claim k =>
      cases hnames
      exact absurd rfl (ne_of_claim hp hm)
  | expireStale x now hd _ =>
      cases hnames
      exact absurd hf.deadline hd
  | disconnectExpiryStale x u now t hd _ _ =>
      cases hnames
      rw [hf.marker u] at hd
      cases hd
  | connect | heartbeat | enqueue | leaveQueue | cleanupQueued | disconnectFree | disconnect
  | tick => cases hnames
  | _ =>
      -- the other branches found the hash of the match they name
      cases hnames
      simp_all

/-- Events are about live matches and about the match being claimed. -/
theorem published_about {s : Store} {claims : List Claim} {op : Op} {e : UserID × Event}
    (hc : Coherent s claims) (he : e ∈ (op.exec s).published) :
    s.matches_.get e.2.matchID ≠ none ∨ op.names = some e.2.matchID ∧ ∃ k, op = .claim k := by
  have hchange := exec_change hc op
  generalize op.exec s = o at he hchange
  cases hchange with
  | kept _ _ _ _ _ _ hpub _ _ =>
      obtain ⟨env, henv, hlive⟩ := hpub e he
      left
      rw [henv]
      exact hlive
  | written _ _ x h f n _ hh _ _ _ _ _ hpub =>
      left
      rw [(hpub e he).1, hh]
      simp
  | claimed k _ _ =>
      right
      simp only [List.mem_cons, List.not_mem_nil, or_false] at he
      rcases he with rfl | rfl
      · exact ⟨rfl, k, rfl⟩
      · exact ⟨rfl, k, rfl⟩
  | closed _ x h a b reason _ hh _ _ =>
      left
      simp only [Store.ended, List.mem_cons, List.not_mem_nil, or_false] at he
      rcases he with rfl | rfl
      · simp [Event.matchID, hh]
      · simp [Event.matchID, hh]
  | lapsed d => cases he

/-! ## How often a user is told -/

/-- How many of the events published to `u` are of the kind `p`. -/
def told (log : List (UserID × Event)) (p : Event → Bool) (u : UserID) : Nat :=
  log.countP fun e => e.1 == u && p e.2

theorem told_append (l₁ l₂ : List (UserID × Event)) (p : Event → Bool) (u : UserID) :
    told (l₁ ++ l₂) p u = told l₁ p u + told l₂ p u :=
  List.countP_append

theorem told_eq_zero {log : List (UserID × Event)} {p : Event → Bool} {u : UserID}
    (h : ∀ e ∈ log, p e.2 = false) : told log p u = 0 := by
  rw [told, List.countP_eq_zero]
  intro e he
  simp [h e he]

/-- One event to each of two users tells each of them once. -/
theorem told_pair {a b : UserID} (hne : a ≠ b) (e f : Event) (p : Event → Bool) (u : UserID) :
    told [(a, e), (b, f)] p u ≤ 1 := by
  by_cases hau : a = u
  · have hbu : b ≠ u := fun e => hne (hau.trans e.symm)
    have hle : told [(a, e), (b, f)] p u = if p e = true then 1 else 0 := by
      simp [told, List.countP_cons, hau, hbu]
    rw [hle]
    split <;> omega
  · have hle : told [(a, e), (b, f)] p u = if b = u ∧ p f = true then 1 else 0 := by
      simp [told, List.countP_cons, hau]
    rw [hle]
    split <;> omega

/-- Events of a kind that needs `D` to be false and makes it true for good are
    published at most once to each user. -/
theorem told_of_run {p : Event → Bool} {u : UserID} {D : World → Prop}
    (hkeep : ∀ (w : World) (op : Op), Coherent w.store w.claims → op.Permitted w → D w →
      D (w.after op))
    (hexec : ∀ (w : World) (op : Op), Coherent w.store w.claims → op.Permitted w →
      told (op.exec w.store).published p u = 0 ∨
        (told (op.exec w.store).published p u ≤ 1 ∧ ¬ D w ∧ D (w.after op)))
    {as : List Op} {w : World} (hrun : storeMachine.run as = some w) :
    told w.published p u ≤ 1 ∧ (told w.published p u ≠ 0 → D w) := by
  refine (Machine.run_invariant
    (P := fun v => Coherent v.store v.claims ∧ told v.published p u ≤ 1 ∧
      (told v.published p u ≠ 0 → D v))
    ⟨Coherent.init, Nat.zero_le _, fun h => absurd rfl h⟩ ?_ hrun).2
  rintro v op v' ⟨hc, hle, hdone⟩ hstep
  obtain ⟨hp, rfl⟩ := step_eq_some.mp hstep
  have hcount : told (v.after op).published p u =
      told v.published p u + told (op.exec v.store).published p u := told_append _ _ _ _
  refine ⟨coherent_after hc hp, ?_⟩
  rw [hcount]
  rcases hexec v op hc hp with h0 | ⟨h1, hnot, hD⟩
  · rw [h0, Nat.add_zero]
    exact ⟨hle, fun hne => hkeep v op hc hp (hdone hne)⟩
  · have hfirst : told v.published p u = 0 := by
      by_contra hne
      exact hnot (hdone hne)
    rw [hfirst, Nat.zero_add]
    exact ⟨h1, fun _ => hD⟩

/-! ## At most one `match.ended` -/

/-- The event ends `m`. -/
def Event.endsMatch (m : MatchID) : Event → Bool
  | .matchEnded x _ => x == m
  | _ => false

/-- How often `match.ended` for `m` was published to `u`. -/
def endings (log : List (UserID × Event)) (m : MatchID) (u : UserID) : Nat :=
  told log (Event.endsMatch m) u

/-- An operation publishes the end of a match only when the match is live, and
    then at most once to a user. -/
theorem endings_exec {w : World} (op : Op) (m : MatchID) (u : UserID)
    (hc : Coherent w.store w.claims) :
    endings (op.exec w.store).published m u = 0 ∨
      (endings (op.exec w.store).published m u ≤ 1 ∧ w.store.matches_.get m ≠ none ∧
        (w.after op).store.Forgotten m) := by
  have hchange := exec_change hc op
  show _ ∨ _ ∧ _ ∧ (op.exec w.store).store.Forgotten m
  generalize op.exec w.store = o at hchange ⊢
  cases hchange with
  | kept _ _ _ _ _ _ hpub _ _ =>
      refine Or.inl (told_eq_zero fun e he => ?_)
      obtain ⟨env, henv, _⟩ := hpub e he
      rw [henv]
      rfl
  | written _ _ x h f n _ _ _ _ _ _ _ hpub =>
      refine Or.inl (told_eq_zero fun e he => ?_)
      -- a write publishes no end
      have hno := (hpub e he).2
      cases hev : e.2 with
      | matchEnded y r => exact absurd hev (hno y r)
      | _ => rfl
  | claimed k _ _ =>
      refine Or.inl (told_eq_zero fun e he => ?_)
      simp only [List.mem_cons, List.not_mem_nil, or_false] at he
      rcases he with rfl | rfl <;> rfl
  | closed _ x h a b reason _ hh ha hb =>
      by_cases hxm : m = x
      · refine Or.inr ⟨told_pair (hc.ne hh ha hb) _ _ _ _, ?_, ?_⟩
        · rw [hxm, hh]
          simp
        · rw [hxm]
          exact forgotten_closed hc hh ha hb
      · refine Or.inl (told_eq_zero fun e he => ?_)
        have hmx : ¬ x = m := fun e => hxm e.symm
        simp only [Store.ended, List.mem_cons, List.not_mem_nil, or_false] at he
        rcases he with rfl | rfl <;> simp [Event.endsMatch, hmx]
  | lapsed d => exact Or.inl rfl

/-- In every run, `match.ended` was published at most once to each user, and a
    match for which it was is forgotten. -/
theorem endings_of_run {as : List Op} {w : World} (hrun : storeMachine.run as = some w)
    (m : MatchID) (u : UserID) :
    endings w.published m u ≤ 1 ∧ (endings w.published m u ≠ 0 →
      w.store.Forgotten m ∧ m ∈ w.claims.map Claim.matchID) := by
  refine told_of_run (D := fun v => v.store.Forgotten m ∧ m ∈ v.claims.map Claim.matchID)
    ?_ ?_ hrun
  · rintro v op hc hp ⟨hf, hm⟩
    exact ⟨forgotten_after hc hp hm hf, mem_claims_after op hm⟩
  · intro v op hc hp
    rcases endings_exec op m u hc with h0 | ⟨h1, hlive, hf⟩
    · exact Or.inl h0
    · refine Or.inr ⟨h1, fun hD => hlive hD.1.hash, hf, ?_⟩
      obtain ⟨h, hh⟩ := Option.ne_none_iff_exists'.mp hlive
      exact mem_claims_after op (mem_claims_of_live hc hh)

/-! ## Ended for good -/

/-- In every run `match.ended` for a match is published at most once to each
    user; and once one of the four scripts answers 1 for `m`, then after any
    continuation nothing refers to `m`, what names it is refused, and nothing
    more is published about it. -/
theorem ended_for_good {as : List Op} {w : World} (hrun : storeMachine.run as = some w) :
    (∀ m u, endings w.published m u ≤ 1) ∧
    ∀ (op : Op) m, op.Permitted w → op.ends = some m → (op.exec w.store).reply = .ok 1 →
      ∀ bs w', storeMachine.runFrom (w.after op) bs = some w' →
        w'.store.Forgotten m ∧
        ∀ op' : Op, op'.Permitted w' →
          (op'.names = some m → ∃ n ≤ 0, op'.exec w'.store = w'.store.answer n) ∧
          ∀ e ∈ (op'.exec w'.store).published, e.2.matchID ≠ m := by
  refine ⟨fun m u => (endings_of_run hrun m u).1, ?_⟩
  intro op m hp hends hreply bs w' hrest
  have hc := coherent_of_run hrun
  have hstep : storeMachine.step w op = some (w.after op) := step_eq_some.mpr ⟨hp, rfl⟩
  have hc' : Coherent w'.store w'.claims :=
    coherent_of_run (Machine.runFrom_append_eq_some.mpr
      ⟨w, hrun, Machine.runFrom_cons_eq_some.mpr ⟨_, hstep, hrest⟩⟩)
  obtain ⟨hf, hm⟩ := forgotten_of_ends hc hends hreply
  obtain ⟨hf', hmem⟩ :=
    forgotten_of_runFrom (coherent_after hc hp) (mem_claims_after op hm) hf hrest
  refine ⟨hf', fun op' hp' => ⟨refused_of_forgotten hc' hp' hmem hf', ?_⟩⟩
  -- a new event about `m` would be that of a claim of its id
  intro e he heq
  rcases published_about hc' he with hlive | ⟨hnames, k, rfl⟩
  · exact hlive (heq ▸ hf'.hash)
  · rw [heq] at hnames
    cases hnames
    exact ne_of_claim hp' hmem rfl

/-- Ann leaves the match she met Ben in; a sweep comes later. -/
theorem ended_for_good_meeting :
    ∃ w w', storeMachine.run meeting = some w ∧
      storeMachine.runFrom (w.after (.endMatch "ann" "c1" "m1" .left)) [.expire "m1" 60000] =
        some w' ∧ w'.store.Forgotten "m1" := by
  have hobs : (storeMachine.run meeting).map (fun w =>
      (decide ((Op.endMatch "ann" "c1" "m1" .left).Permitted w ∧
        ((Op.endMatch "ann" "c1" "m1" .left).exec w.store).reply = .ok 1),
      (storeMachine.runFrom (w.after (.endMatch "ann" "c1" "m1" .left))
        [.expire "m1" 60000]).isSome)) = some (true, true) := by
    decide +kernel
  obtain ⟨w, hw, hobs⟩ := Option.map_eq_some_iff.mp hobs
  simp only [Prod.mk.injEq, decide_eq_true_eq] at hobs
  obtain ⟨⟨hp, hreply⟩, hsome⟩ := hobs
  obtain ⟨w', hw'⟩ := Option.isSome_iff_exists.mp hsome
  exact ⟨w, w', hw, hw', ((ended_for_good hw).2 _ "m1" hp rfl hreply _ w' hw').1⟩

/-! ## No dead match -/

/-- A user who points to a match can end it, and is free after that. -/
theorem endMatch_of_pointer {s : Store} {claims : List Claim} {u : UserID} {c : ConnectionID}
    {m : MatchID} (hc : Coherent s claims) (hp : s.presence.get u = some c)
    (hm : s.userMatch.get u = some m) (reason : EndReason) :
    ((Op.endMatch u c m reason).exec s).reply = .ok 1 ∧
      ((Op.endMatch u c m reason).exec s).store.presence.get u = some c ∧
      ((Op.endMatch u c m reason).exec s).store.userMatch.get u = none := by
  obtain ⟨h, hh, hu⟩ := hc.pointer u m hm
  obtain ⟨a, b, _, ha, hb⟩ := hc.seated m h hh
  have hexec : (Op.endMatch u c m reason).exec s = s.ended m a b reason := by
    show s.endScript u c m reason = _
    unfold Store.endScript
    rw [hget_of_some hh, hget_of_some hh, if_neg (by simp [hp, hm]), if_neg ?_,
      finish_eq hh ha hb]
    -- the pointer is that of a participant
    rintro ⟨h1, h2⟩
    exact hu.elim (fun e => h1 e.symm) (fun e => h2 e.symm)
  rw [hexec]
  refine ⟨rfl, hp, ?_⟩
  show ((s.userMatch.del a).del b).get u = none
  rw [Keyspace.get_del, Keyspace.get_del]
  rcases hu.eq_or_eq ha hb with rfl | rfl
  · rw [if_pos rfl, ite_self]
  · rw [if_pos rfl]

/-- A user whose presence is the connection and who has no match can queue. -/
theorem enqueue_reply {s : Store} {u : UserID} {c : ConnectionID}
    (hp : s.presence.get u = some c) (hm : s.userMatch.get u = none) (p : Preferences)
    (now : UnixMilli) : ((Op.enqueue u c p now).exec s).reply = .ok 1 := by
  show (s.enqueueScript u c p now).reply = _
  unfold Store.enqueueScript
  rw [if_neg (by simp [hp, hm])]
  rfl

/-- In every run: a user-match pointer leads to a hash of which the user is a
    participant, so on the user's presence EndMatch answers 1, and so does the
    Enqueue right after it. -/
theorem no_dead_match {as : List Op} {w : World} {u : UserID} {m : MatchID}
    (hrun : storeMachine.run as = some w) (hm : w.store.userMatch.get u = some m) :
    (∃ h, w.store.matches_.get m = some h ∧ (h.a = some u ∨ h.b = some u)) ∧
    ∀ c, w.store.presence.get u = some c → ∀ reason p now,
      ((Op.endMatch u c m reason).exec w.store).reply = .ok 1 ∧
      ((Op.enqueue u c p now).exec (w.after (.endMatch u c m reason)).store).reply = .ok 1 := by
  have hc := coherent_of_run hrun
  refine ⟨hc.pointer u m hm, ?_⟩
  intro c hp reason p now
  obtain ⟨hreply, hpres, hfree⟩ := endMatch_of_pointer hc hp hm reason
  exact ⟨hreply, enqueue_reply hpres hfree p now⟩

/-- Ann, in the match she met Ben in. -/
theorem no_dead_match_meeting :
    ∃ w, storeMachine.run meeting = some w ∧
      ((Op.endMatch "ann" "c1" "m1" .skipped).exec w.store).reply = .ok 1 := by
  have hobs : (storeMachine.run meeting).map (fun w =>
      decide (w.store.userMatch.get "ann" = some "m1" ∧
        w.store.presence.get "ann" = some "c1")) = some true := by
    decide +kernel
  obtain ⟨w, hw, hobs⟩ := Option.map_eq_some_iff.mp hobs
  obtain ⟨hm, hp⟩ := of_decide_eq_true hobs
  exact ⟨w, hw, ((no_dead_match hw hm).2 "c1" hp .skipped somePreferences 0).1⟩

end OneMinute.Discovery
