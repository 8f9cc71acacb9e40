/-
  OneMinute.Discovery.Privacy

  One-sided votes are private.

  A run in which the votes of one participant are left out is compared with the
  run itself through `withhold`, which clears that participant's votes in the
  hash of one match.  As long as the peer has no vote of the kind, every other
  operation commutes with `withhold` (`exec_withhold`) and a vote that is left
  out is not seen through it (`withhold_vote`); so the shorter run ends in the
  longer run's store seen through `withhold`, with the same replies and the same
  events on the way.
-/

import OneMinute.Discovery.Ending

namespace OneMinute.Discovery

/-- The two kinds of vote. -/
inductive Ballot where
  | extend
  | connect
deriving DecidableEq, Repr

/-- The operation is `u`'s vote of this kind on `m`. -/
def Op.casts (kind : Ballot) (u : UserID) (m : MatchID) : Op → Bool
  | .extend v _ x _ => decide (kind = .extend ∧ v = u ∧ x = m)
  | .connectVote v _ x _ => decide (kind = .connect ∧ v = u ∧ x = m)
  | _ => false

namespace MatchHash

/-- `u`'s vote of this kind. -/
def vote (kind : Ballot) (u : UserID) (h : MatchHash) : Bool :=
  match kind with
  | .extend => h.extend u
  | .connect => h.connect u

/-- The hash without `u`'s vote of this kind. -/
def withhold (kind : Ballot) (u : UserID) (h : MatchHash) : MatchHash :=
  { h with
    extend := fun x => if kind = .extend ∧ x = u then false else h.extend x
    connect := fun x => if kind = .connect ∧ x = u then false else h.connect x }

theorem withhold_new (kind : Ballot) (u : UserID) : withhold kind u {} = {} := by
  simp [withhold]

theorem withhold_extend {kind : Ballot} {u x : UserID} (h : MatchHash)
    (hne : ¬ (kind = .extend ∧ x = u)) : (h.withhold kind u).extend x = h.extend x :=
  if_neg hne

theorem withhold_connect {kind : Ballot} {u x : UserID} (h : MatchHash)
    (hne : ¬ (kind = .connect ∧ x = u)) : (h.withhold kind u).connect x = h.connect x :=
  if_neg hne

/-- Another vote commutes with leaving out this one. -/
theorem setExtend_withhold {kind : Ballot} {u v : UserID} (h : MatchHash)
    (hne : ¬ (kind = .extend ∧ v = u)) :
    setExtend v (h.withhold kind u) = (setExtend v h).withhold kind u := by
  unfold setExtend withhold
  congr 1
  funext x
  by_cases hx : x = v
  · subst hx
    simp [hne]
  · simp [hx]

theorem setConnect_withhold {kind : Ballot} {u v : UserID} (h : MatchHash)
    (hne : ¬ (kind = .connect ∧ v = u)) :
    setConnect v (h.withhold kind u) = (setConnect v h).withhold kind u := by
  unfold setConnect withhold
  congr 1
  funext x
  by_cases hx : x = v
  · subst hx
    simp [hne]
  · simp [hx]

/-- The vote itself is not seen. -/
theorem withhold_setExtend (u : UserID) (h : MatchHash) :
    (setExtend u h).withhold .extend u = h.withhold .extend u := by
  unfold setExtend withhold
  congr 1
  funext x
  by_cases hx : x = u <;> simp [hx]

theorem withhold_setConnect (u : UserID) (h : MatchHash) :
    (setConnect u h).withhold .connect u = h.withhold .connect u := by
  unfold setConnect withhold
  congr 1
  funext x
  by_cases hx : x = u <;> simp [hx]

end MatchHash

/-! ## A store seen without the votes -/

variable {kind : Ballot} {A B : UserID} {m : MatchID}

/-- The store without `u`'s vote of this kind on `m`. -/
def Store.withhold (kind : Ballot) (u : UserID) (m : MatchID) (s : Store) : Store :=
  { s with matches_ := s.matches_.mapAt m (MatchHash.withhold kind u) }

def Outcome.withhold (kind : Ballot) (u : UserID) (m : MatchID) (o : Outcome) : Outcome :=
  { o with store := o.store.withhold kind u m }

def World.withhold (kind : Ballot) (u : UserID) (m : MatchID) (w : World) : World :=
  { w with store := w.store.withhold kind u m }

section
variable {s : Store}

@[simp] theorem withhold_userMatch : (s.withhold kind B m).userMatch = s.userMatch := rfl
@[simp] theorem withhold_disconnectDeadlines :
    (s.withhold kind B m).disconnectDeadlines = s.disconnectDeadlines := rfl

theorem get_withhold (x : MatchID) :
    (s.withhold kind B m).matches_.get x =
      if x = m then (s.matches_.get m).map (MatchHash.withhold kind B) else s.matches_.get x :=
  Keyspace.get_mapAt _ _ _ _

theorem isNone_withhold (x : MatchID) :
    ((s.withhold kind B m).matches_.get x).isNone = (s.matches_.get x).isNone := by
  rw [get_withhold]
  split
  · next h => rw [h, Option.isNone_map]
  · rfl

/-- A field that says nothing of the vote, or is of another match. -/
theorem hget_withhold {α : Type} (x : MatchID) (field : MatchHash → Option α)
    (hf : x = m → ∀ h, field (h.withhold kind B) = field h) :
    (s.withhold kind B m).hget x field = s.hget x field := by
  unfold Store.hget
  rw [get_withhold]
  split
  · next h =>
      rw [h]
      cases s.matches_.get m with
      | none => rfl
      | some v => exact hf h v
  · rfl

@[simp] theorem hget_withhold_a (x : MatchID) :
    (s.withhold kind B m).hget x MatchHash.a = s.hget x MatchHash.a :=
  hget_withhold x _ fun _ _ => rfl

@[simp] theorem hget_withhold_b (x : MatchID) :
    (s.withhold kind B m).hget x MatchHash.b = s.hget x MatchHash.b :=
  hget_withhold x _ fun _ _ => rfl

@[simp] theorem hget_withhold_state (x : MatchID) :
    (s.withhold kind B m).hget x MatchHash.state = s.hget x MatchHash.state :=
  hget_withhold x _ fun _ _ => rfl

@[simp] theorem hget_withhold_expiresAt (x : MatchID) :
    (s.withhold kind B m).hget x MatchHash.expiresAt = s.hget x MatchHash.expiresAt :=
  hget_withhold x _ fun _ _ => rfl

@[simp] theorem hget_withhold_persisted (x : MatchID) :
    (s.withhold kind B m).hget x (fun h => some h.connectPersisted) =
      s.hget x fun h => some h.connectPersisted :=
  hget_withhold x _ fun _ _ => rfl

@[simp] theorem hget_withhold_disconnected (x : MatchID) (u : UserID) :
    (s.withhold kind B m).hget x (fun h => h.disconnected u) =
      s.hget x fun h => h.disconnected u :=
  hget_withhold x _ fun _ _ => rfl

/-- A write that commutes with leaving out the vote, or is into another match. -/
theorem hset_withhold (x : MatchID) (f : MatchHash → MatchHash)
    (hf : x = m → ∀ h, f (h.withhold kind B) = (f h).withhold kind B) :
    (s.withhold kind B m).hset x f = (s.hset x f).withhold kind B m := by
  unfold Store.hset Store.withhold
  rw [Keyspace.mapAt_modify _ _ _ _ (MatchHash.withhold_new kind B) hf]

/-! ## The scripts that look at no vote -/

/-- Two scripts that branch on the same guard. -/
theorem ite_withhold {p q : Prop} [Decidable p] [Decidable q] {o₁ o₂ o₁' o₂' : Outcome}
    (hpq : q ↔ p) (h₁ : p → o₁' = o₁.withhold kind B m) (h₂ : ¬ p → o₂' = o₂.withhold kind B m) :
    (if q then o₁' else o₂') = (if p then o₁ else o₂).withhold kind B m := by
  by_cases hp : p
  · rw [if_pos hp, if_pos (hpq.mpr hp)]
    exact h₁ hp
  · rw [if_neg hp, if_neg (mt hpq.mp hp)]
    exact h₂ hp

theorem finish_withhold (x : MatchID) (reason : EndReason) :
    (s.withhold kind B m).finish x reason = (s.finish x reason).withhold kind B m := by
  unfold Store.finish
  simp only [hget_withhold_a, hget_withhold_b]
  cases s.hget x MatchHash.a with
  | none => rfl
  | some a =>
      cases s.hget x MatchHash.b with
      | none => rfl
      | some b =>
          unfold Outcome.withhold Store.withhold
          dsimp only
          rw [Keyspace.mapAt_del]

theorem heartbeat_withhold (u : UserID) (c : ConnectionID) :
    (s.withhold kind B m).heartbeatScript u c =
      (s.heartbeatScript u c).withhold kind B m := by
  unfold Store.heartbeatScript
  refine ite_withhold Iff.rfl (fun _ => rfl) fun _ => ?_
  dsimp only [withhold_userMatch]
  cases s.userMatch.get u with
  | none => rfl
  | some x =>
      -- the TTL of the hash is set, whatever is in it
      exact congrArg (fun ks => Store.answer { s with
        presence := s.presence.expire u (s.ttl presenceTTL)
        userMatch := s.userMatch.expire u (s.ttl matchTTL)
        matches_ := ks } 1) (Keyspace.mapAt_expire _ _ _ _ _)

theorem reconnect_withhold (u : UserID) (c : ConnectionID) (x : MatchID) (now : UnixMilli) :
    (s.withhold kind B m).reconnectScript u c x now =
      (s.reconnectScript u c x now).withhold kind B m := by
  unfold Store.reconnectScript
  refine ite_withhold Iff.rfl (fun _ => rfl) fun _ => ?_
  rw [hset_withhold x (MatchHash.setDisconnected u none) fun _ _ => rfl, hget_withhold_a,
    hget_withhold_b, hget_withhold_disconnected]
  cases Store.other u (s.hget x MatchHash.a) (s.hget x MatchHash.b) with
  | none => rfl
  | some peer => exact ite_withhold Iff.rfl (fun _ => rfl) fun _ => rfl

theorem claimed_withhold (k : Claim) :
    (s.withhold kind B m).claimed k = (s.claimed k).withhold kind B m := by
  -- a claim writes no vote
  have hwrite := Keyspace.mapAt_modify s.matches_ m k.matchID (MatchHash.withhold kind B)
    (g := k.hash) (MatchHash.withhold_new kind B) fun _ _ => rfl
  unfold Store.claimed Store.withhold Store.dequeue
  dsimp only
  rw [hwrite, Keyspace.mapAt_expire]
  rfl

theorem claim_withhold (k : Claim) :
    (s.withhold kind B m).claimScript k = (s.claimScript k).withhold kind B m := by
  unfold Store.claimScript
  refine ite_withhold Iff.rfl (fun _ => rfl) fun _ => ?_
  refine ite_withhold Iff.rfl (fun _ => rfl) fun _ => ?_
  refine ite_withhold Iff.rfl (fun _ => rfl) fun _ => ?_
  refine ite_withhold Iff.rfl (fun _ => rfl) fun _ => ?_
  exact congrArg (fun t => Outcome.mk (.ok 1) t
    [(k.userA, .matchFound k.matchID k.eventA), (k.userB, .matchFound k.matchID k.eventB)])
    (claimed_withhold k)

theorem signal_withhold (u : UserID) (c : ConnectionID) (env : Envelope) :
    (s.withhold kind B m).signalScript u c env =
      (s.signalScript u c env).withhold kind B m := by
  unfold Store.signalScript
  refine ite_withhold Iff.rfl (fun _ => rfl) fun _ => ?_
  rw [hget_withhold_a, hget_withhold_b]
  cases Store.other u (s.hget env.matchID MatchHash.a) (s.hget env.matchID MatchHash.b) with
  | none => rfl
  | some peer =>
      cases peer with
      | none => rfl
      | some peer => exact ite_withhold Iff.rfl (fun _ => rfl) fun _ => rfl

theorem end_withhold (u : UserID) (c : ConnectionID) (x : MatchID) (reason : EndReason) :
    (s.withhold kind B m).endScript u c x reason =
      (s.endScript u c x reason).withhold kind B m := by
  unfold Store.endScript
  rw [hget_withhold_a, hget_withhold_b, finish_withhold]
  refine ite_withhold Iff.rfl (fun _ => rfl) fun _ => ?_
  exact ite_withhold Iff.rfl (fun _ => rfl) fun _ => rfl

theorem endForUser_withhold (u : UserID) (x : MatchID) (reason : EndReason) :
    (s.withhold kind B m).endForUserScript u x reason =
      (s.endForUserScript u x reason).withhold kind B m := by
  unfold Store.endForUserScript
  rw [hget_withhold_a, hget_withhold_b, finish_withhold]
  refine ite_withhold Iff.rfl (fun _ => rfl) fun _ => ?_
  exact ite_withhold Iff.rfl (fun _ => rfl) fun _ => rfl

theorem disconnect_withhold (u : UserID) (c : ConnectionID) (deadline : UnixMilli) :
    (s.withhold kind B m).disconnectScript u c deadline =
      (s.disconnectScript u c deadline).withhold kind B m := by
  have hdep : ({ s.withhold kind B m with
      presence := (s.withhold kind B m).presence.del u } : Store).dequeue u =
        (s.departed u).withhold kind B m := rfl
  have hdep' : ({ s with presence := s.presence.del u } : Store).dequeue u = s.departed u := rfl
  unfold Store.disconnectScript
  refine ite_withhold Iff.rfl (fun _ => rfl) fun _ => ?_
  dsimp only
  rw [hdep, hdep', withhold_userMatch]
  cases (s.departed u).userMatch.get u with
  | none => rfl
  | some x =>
      dsimp only
      rw [hset_withhold x (MatchHash.setDisconnected u (some deadline)) fun _ _ => rfl,
        hget_withhold_a, hget_withhold_b]
      cases Store.other u ((s.departed u).hget x MatchHash.a)
          ((s.departed u).hget x MatchHash.b) with
      | none => rfl
      | some peer => rfl

theorem expire_withhold (x : MatchID) (now : UnixMilli) :
    (s.withhold kind B m).expireScript x now = (s.expireScript x now).withhold kind B m := by
  unfold Store.expireScript
  rw [isNone_withhold, hget_withhold_state, hget_withhold_expiresAt, finish_withhold]
  refine ite_withhold Iff.rfl (fun _ => rfl) fun _ => ?_
  refine ite_withhold Iff.rfl (fun _ => rfl) fun _ => ?_
  exact ite_withhold Iff.rfl (fun _ => rfl) fun _ => rfl

theorem disconnectExpiry_withhold (x : MatchID) (u : UserID) (now : UnixMilli) :
    (s.withhold kind B m).disconnectExpiryScript x u now =
      (s.disconnectExpiryScript x u now).withhold kind B m := by
  unfold Store.disconnectExpiryScript
  rw [hget_withhold_disconnected, finish_withhold, withhold_disconnectDeadlines]
  cases s.disconnectDeadlines.score (x, u) with
  | none => rfl
  | some score =>
      refine ite_withhold Iff.rfl (fun _ => rfl) fun _ => ?_
      exact ite_withhold Iff.rfl (fun _ => rfl) fun _ => rfl

/-- The snapshot has no field for a vote. -/
theorem matchState_withhold (x : MatchID) :
    (s.withhold kind B m).matchState x = s.matchState x := by
  unfold Store.matchState
  rw [hget_withhold_a, hget_withhold_b, hget_withhold_state, hget_withhold_expiresAt,
    hget_withhold x MatchHash.sharedInterests fun _ _ => rfl,
    hget_withhold x MatchHash.intent fun _ _ => rfl,
    hget_withhold x MatchHash.connectionID fun _ _ => rfl,
    hget_withhold x MatchHash.startedAt fun _ _ => rfl]

theorem currentMatch_withhold (u : UserID) :
    (s.withhold kind B m).currentMatch u = s.currentMatch u := by
  unfold Store.currentMatch
  rw [withhold_userMatch]
  cases s.userMatch.get u with
  | none => rfl
  | some x => exact matchState_withhold x

/-! ## The scripts that look at votes -/

/-- The operation looks at the votes of this kind on `m`. -/
def Op.reads (kind : Ballot) (m : MatchID) : Op → Prop
  | .extend _ _ x _ => kind = .extend ∧ x = m
  | .connectVote _ _ x _ => kind = .connect ∧ x = m
  | .publishConnection x _ => kind = .connect ∧ x = m
  | _ => False

/-- The script refused: it answered 0 or less. -/
def Outcome.Refused (o : Outcome) : Prop := ∃ n ≤ 0, o.reply = .ok n

theorem not_refused {o : Outcome} {n : Int} (hreply : o.reply = .ok n) (hn : 0 < n) :
    ¬ o.Refused := by
  rintro ⟨n', hn', hreply'⟩
  rw [hreply] at hreply'
  cases hreply'
  omega

theorem extend_withhold {u : UserID} {c : ConnectionID} {x : MatchID} {now : UnixMilli}
    (h : kind = .extend ∧ x = m → (s.extendScript u c x now).Refused) :
    (s.withhold kind B m).extendScript u c x now =
      (s.extendScript u c x now).withhold kind B m := by
  unfold Store.extendScript at h ⊢
  refine ite_withhold Iff.rfl (fun _ => rfl) fun hg => ?_
  rw [if_neg hg] at h
  dsimp only at h ⊢
  rw [hget_withhold_a, hget_withhold_b, hget_withhold_state, hget_withhold_expiresAt]
  refine ite_withhold Iff.rfl (fun _ => rfl) fun hpart => ?_
  refine ite_withhold Iff.rfl (fun _ => rfl) fun hext => ?_
  refine ite_withhold Iff.rfl (fun _ => rfl) fun hact => ?_
  rw [if_neg hpart, if_neg hext, if_neg hact] at h
  by_cases hread : kind = .extend ∧ x = m
  -- past its guards the script does not refuse
  · exfalso
    have h := h hread
    split at h
    · obtain ⟨_, _, e⟩ := h
      cases e
    · split at h
      · exact not_refused rfl (by decide) h
      · exact not_refused rfl (by decide) h
  -- its votes are of the other kind, or on another match
  · have hset : (s.withhold kind B m).hset x (MatchHash.setExtend u) =
        (s.hset x (MatchHash.setExtend u)).withhold kind B m :=
      hset_withhold x _ fun hx h =>
        MatchHash.setExtend_withhold h fun hk => hread ⟨hk.1, hx⟩
    rw [hset]
    split
    · rfl
    · next p hp =>
        rw [hget_withhold x (fun h => some (h.extend p)) fun hx h => congrArg some
            (MatchHash.withhold_extend h fun hk => hread ⟨hk.1, hx⟩),
          hset_withhold x (MatchHash.setExtended now) fun _ _ => rfl]
        exact ite_withhold Iff.rfl (fun _ => rfl) fun _ => rfl

theorem connectVote_withhold {u : UserID} {c : ConnectionID} {x : MatchID} {now : UnixMilli}
    (h : kind = .connect ∧ x = m → (s.connectScript u c x now).Refused) :
    (s.withhold kind B m).connectScript u c x now =
      (s.connectScript u c x now).withhold kind B m := by
  unfold Store.connectScript at h ⊢
  refine ite_withhold Iff.rfl (fun _ => rfl) fun hg => ?_
  rw [if_neg hg] at h
  dsimp only at h ⊢
  rw [hget_withhold_a, hget_withhold_b, hget_withhold_state, hget_withhold_expiresAt,
    hget_withhold_persisted]
  refine ite_withhold Iff.rfl (fun _ => rfl) fun hpart => ?_
  refine ite_withhold Iff.rfl (fun _ => rfl) fun hst => ?_
  refine ite_withhold Iff.rfl (fun _ => rfl) fun hpers => ?_
  rw [if_neg hpart, if_neg hst, if_neg hpers] at h
  by_cases hread : kind = .connect ∧ x = m
  · exfalso
    have h := h hread
    split at h
    · obtain ⟨_, _, e⟩ := h
      cases e
    · split at h
      · exact not_refused rfl (by decide) h
      · exact not_refused rfl (by decide) h
  · have hset : (s.withhold kind B m).hset x (MatchHash.setConnect u) =
        (s.hset x (MatchHash.setConnect u)).withhold kind B m :=
      hset_withhold x _ fun hx h =>
        MatchHash.setConnect_withhold h fun hk => hread ⟨hk.1, hx⟩
    rw [hset]
    split
    · rfl
    · next p hp =>
        rw [hget_withhold x (fun h => some (h.connect p)) fun hx h => congrArg some
          (MatchHash.withhold_connect h fun hk => hread ⟨hk.1, hx⟩)]
        exact ite_withhold Iff.rfl (fun _ => rfl) fun _ => rfl

/-- A vote that is seen without others was there with them. -/
theorem connect_of_withhold {x : MatchID} {p : UserID}
    (h : (s.withhold kind B m).hget x (fun h => some (h.connect p)) = some true) :
    s.hget x (fun h => some (h.connect p)) = some true := by
  unfold Store.hget at h ⊢
  rw [get_withhold] at h
  split at h
  · next hx =>
      rw [hx]
      cases hh : s.matches_.get m with
      | none =>
          rw [hh] at h
          cases h
      | some v =>
          rw [hh] at h
          simp only [Option.map_some, Option.bind_some, Option.some.injEq] at h ⊢
          by_contra hno
          simp [MatchHash.withhold, hno] at h
  · exact h

theorem publishConnection_withhold {x : MatchID} {connectionID : String}
    (h : kind = .connect ∧ x = m → (s.publishConnectionScript x connectionID).Refused) :
    (s.withhold kind B m).publishConnectionScript x connectionID =
      (s.publishConnectionScript x connectionID).withhold kind B m := by
  unfold Store.publishConnectionScript at h ⊢
  rw [hget_withhold_a, hget_withhold_b, hget_withhold_persisted]
  split
  · next a b ha hb =>
      by_cases hread : kind = .connect ∧ x = m
      · have h := h hread
        rw [ha, hb] at h
        dsimp only at h
        by_cases hpers : s.hget x (fun h => some h.connectPersisted) = some true
        · rw [if_pos hpers, if_pos hpers, ite_self, ite_self]
          rfl
        · rw [if_neg hpers] at h ⊢
          have hnot : s.hget x (fun h => some (h.connect a)) ≠ some true ∨
              s.hget x (fun h => some (h.connect b)) ≠ some true := by
            by_contra hboth
            rw [if_neg hboth] at h
            exact not_refused rfl (by decide) h
          -- a vote that is not there is not there without others
          rw [if_pos hnot, if_pos (hnot.imp (mt connect_of_withhold) (mt connect_of_withhold))]
          rfl
      · have hvote : ∀ p, (s.withhold kind B m).hget x (fun h => some (h.connect p)) =
            s.hget x fun h => some (h.connect p) := fun p =>
          hget_withhold x _ fun hx h => congrArg some
            (MatchHash.withhold_connect h fun hk => hread ⟨hk.1, hx⟩)
        rw [hvote, hvote, hset_withhold x (MatchHash.setPersisted connectionID) fun _ _ => rfl]
        refine ite_withhold Iff.rfl (fun _ => rfl) fun _ => ?_
        exact ite_withhold Iff.rfl (fun _ => rfl) fun _ => rfl
  · rfl

/-- An operation that refuses if it looks at the votes at all does without them
    what it does with them. -/
theorem exec_withhold {op : Op} (h : op.reads kind m → (op.exec s).Refused) :
    op.exec (s.withhold kind B m) = (op.exec s).withhold kind B m := by
  cases op with
  | heartbeat u c => exact heartbeat_withhold u c
  | claim k => exact claim_withhold k
  | reconnect u c x now => exact reconnect_withhold u c x now
  | signal u c env => exact signal_withhold u c env
  | extend u c x now => exact extend_withhold h
  | connectVote u c x now => exact connectVote_withhold h
  | publishConnection x connectionID => exact publishConnection_withhold h
  | endMatch u c x reason => exact end_withhold u c x reason
  | endForUser u x reason => exact endForUser_withhold u x reason
  | disconnect u c now => exact disconnect_withhold u c _
  | expire x now => exact expire_withhold x now
  | disconnectExpiry x u now => exact disconnectExpiry_withhold x u now
  | enqueue u c p now => exact ite_withhold Iff.rfl (fun _ => rfl) fun _ => rfl
  | leaveQueue u c => exact ite_withhold Iff.rfl (fun _ => rfl) fun _ => rfl
  | cleanupQueued u encoded =>
      refine ite_withhold Iff.rfl (fun _ => rfl) fun _ => ?_
      exact ite_withhold Iff.rfl (fun _ => rfl) fun _ => rfl
  | connect u c => rfl
  | tick d =>
      exact congrArg (fun ks => Store.answer { (s.advance d) with matches_ := ks } 1)
        (Keyspace.mapAt_lapse _ _ _ _)

end

/-! ## While the peer has not voted -/

/-- Match `m`, if it was claimed, is between `A` and `B`, and `A` has no vote of
    this kind on it. -/
structure World.OneSided (kind : Ballot) (A B : UserID) (m : MatchID) (w : World) : Prop where
  coherent : Coherent w.store w.claims
  pair : ∀ k ∈ w.claims, k.matchID = m →
    (k.userA = A ∧ k.userB = B) ∨ (k.userA = B ∧ k.userB = A)
  noVote : ∀ h, w.store.matches_.get m = some h → h.vote kind A = false

section
variable {w : World} {op : Op}

theorem World.OneSided.has_iff {h : MatchHash} {u : UserID} (hw : w.OneSided kind A B m)
    (hh : w.store.matches_.get m = some h) : h.Has u ↔ u = A ∨ u = B := by
  obtain ⟨k, hk, hkm, hr⟩ := hw.coherent.records m h hh
  rw [MatchHash.has_iff hr]
  rcases hw.pair k hk hkm with ⟨ha, hb⟩ | ⟨ha, hb⟩
  · rw [ha, hb]
  · rw [ha, hb]
    exact or_comm

/-- The peer of `B` is `A`. -/
theorem World.OneSided.between {h : MatchHash} (hw : w.OneSided kind A B m)
    (hh : w.store.matches_.get m = some h) : h.Between B A := by
  obtain ⟨k, hk, hkm, hr⟩ := hw.coherent.records m h hh
  have hne := hw.coherent.distinct k hk
  unfold MatchHash.Between
  rw [hr.a, hr.b]
  rcases hw.pair k hk hkm with ⟨ha, hb⟩ | ⟨ha, hb⟩
  · rw [ha, hb] at hne ⊢
    exact ⟨hne.symm, Or.inr ⟨rfl, rfl⟩⟩
  · rw [ha, hb] at hne ⊢
    exact ⟨hne, Or.inl ⟨rfl, rfl⟩⟩

/-- An operation that looks at the votes, and is not `B`'s, is refused: it is
    that of no participant, or `A`'s, or wants both votes. -/
theorem refused_of_reads (hw : w.OneSided kind A B m)
    (hA : op.casts kind A m = true → ∀ n, (op.exec w.store).reply = .ok n → n ≤ 0)
    (hB : op.casts kind B m = false) (hreads : op.reads kind m) : (op.exec w.store).Refused := by
  have heff := exec_effect hw.coherent.seated op
  generalize op.exec w.store = o at heff hA ⊢
  -- whoever is accepted is a participant, and neither `A` nor `B`
  have hvoter : ∀ {u : UserID} {h : MatchHash} {n : Int}, w.store.matches_.get m = some h →
      h.Has u → (op.casts kind u m = true) → o.reply = .ok n → 0 < n → False := by
    intro u h n hh hu hcasts hreply hn
    rcases (hw.has_iff hh).mp hu with rfl | rfl
    · have := hA hcasts n hreply
      omega
    · rw [hB] at hcasts
      cases hcasts
  cases heff with
  | refused _ n hn => exact ⟨n, hn, rfl⟩
  | alreadyExtended u c x now h hp hm hh hu hst =>
      obtain ⟨rfl, rfl⟩ := hreads
      exact (hvoter hh hu (by simp [Op.casts]) rfl (by decide)).elim
  | extendVote u c x now h p hp hm hh hb hst hnow hv =>
      obtain ⟨rfl, rfl⟩ := hreads
      exact (hvoter hh hb.has (by simp [Op.casts]) rfl (by decide)).elim
  | extendBoth u c x now h a b hp hm hh ha hb hu hst hnow hv =>
      obtain ⟨rfl, rfl⟩ := hreads
      have hhas : h.Has u := hu.elim (fun e => Or.inl (e ▸ ha)) fun e => Or.inr (e ▸ hb)
      exact (hvoter hh hhas (by simp [Op.casts]) rfl (by decide)).elim
  | alreadyPersisted u c x now h hp hm hh hu hst hv =>
      obtain ⟨rfl, rfl⟩ := hreads
      exact (hvoter hh hu (by simp [Op.casts]) rfl (by decide)).elim
  | connectVote u c x now h p hp hm hh hb hst hv =>
      obtain ⟨rfl, rfl⟩ := hreads
      exact (hvoter hh hb.has (by simp [Op.casts]) rfl (by split <;> decide)).elim
  | publishConnection x connectionID h a b hh ha hb hva hvb hv =>
      obtain ⟨rfl, rfl⟩ := hreads
      -- one of the two is `A`, who has not voted
      have hno : h.connect A = false := hw.noVote h hh
      rcases ((hw.has_iff hh).mpr (Or.inl rfl)).eq_or_eq ha hb with rfl | rfl
      · rw [hva] at hno
        cases hno
      · rw [hvb] at hno
        cases hno
  | _ => cases hreads

/-- A vote of `B` is not seen, publishes nothing and claims nothing. -/
theorem withhold_vote (hw : w.OneSided kind A B m) (hB : op.casts kind B m = true) :
    (w.after op).withhold kind B m = w.withhold kind B m := by
  have hstore : (op.exec w.store).store.withhold kind B m = w.store.withhold kind B m ∧
      (op.exec w.store).published = [] := by
    have heff := exec_effect hw.coherent.seated op
    generalize op.exec w.store = o at heff ⊢
    -- only the vote of `B` is written
    have hwrite : ∀ {h : MatchHash} {f : MatchHash → MatchHash},
        w.store.matches_.get m = some h → (f h).withhold kind B = h.withhold kind B →
          (w.store.hset m f).withhold kind B m = w.store.withhold kind B m := by
      intro h f hh hf
      unfold Store.withhold Store.hset
      dsimp only
      rw [Keyspace.modify_mapAt _ _ _ hh hf]
    cases heff with
    | refused | alreadyExtended | alreadyPersisted => exact ⟨rfl, rfl⟩
    | extendVote u c x now h p hp hm hh hb hst hnow hv =>
        obtain ⟨rfl, rfl, rfl⟩ := of_decide_eq_true hB
        exact ⟨hwrite hh (MatchHash.withhold_setExtend u h), rfl⟩
    | extendBoth u c x now h a b hp hm hh ha hb hu hst hnow hv =>
        obtain ⟨rfl, rfl, rfl⟩ := of_decide_eq_true hB
        -- `A` would have voted
        have hyes := hv A (hw.between hh)
        have hno : h.extend A = false := hw.noVote h hh
        rw [hno] at hyes
        cases hyes
    | connectVote u c x now h p hp hm hh hb hst hv =>
        obtain ⟨rfl, rfl, rfl⟩ := of_decide_eq_true hB
        exact ⟨hwrite hh (MatchHash.withhold_setConnect u h), rfl⟩
    | _ => cases hB
  have hclaimed : op.claimed (op.exec w.store) = [] := by
    cases op with
    | extend | connectVote => rfl
    | _ => cases hB
  unfold World.after World.withhold
  rw [hclaimed, hstore.1, hstore.2, List.append_nil]
  rfl

/-- Any other operation does the same without the vote. -/
theorem withhold_after (hw : w.OneSided kind A B m)
    (hA : op.casts kind A m = true → ∀ n, (op.exec w.store).reply = .ok n → n ≤ 0)
    (hB : op.casts kind B m = false) :
    (w.withhold kind B m).after op = (w.after op).withhold kind B m := by
  have hexec := exec_withhold (B := B) (refused_of_reads hw hA hB)
  have hclaimed : op.claimed ((op.exec w.store).withhold kind B m) =
      op.claimed (op.exec w.store) := by
    cases op <;> rfl
  unfold World.after World.withhold
  dsimp only
  rw [hexec, hclaimed]
  rfl

theorem oneSided_after (hw : w.OneSided kind A B m) (hp : op.Permitted w)
    (hpair : ∀ k ∈ (w.after op).claims, k.matchID = m →
      (k.userA = A ∧ k.userB = B) ∨ (k.userA = B ∧ k.userB = A))
    (hA : op.casts kind A m = true → ∀ n, (op.exec w.store).reply = .ok n → n ≤ 0) :
    (w.after op).OneSided kind A B m := by
  refine ⟨coherent_after hw.coherent hp, hpair, fun h' hget => ?_⟩
  rcases hash_after hw.coherent hp hget with hold | ⟨h, f, n, hh, hwr, hreply, rfl⟩ | ⟨k, _, _, rfl⟩
  · exact hw.noVote h' hold
  · have hno := hw.noVote h hh
    by_contra hyes
    rw [Bool.not_eq_false] at hyes
    -- the vote was recorded by an accepted vote of `A`
    cases kind with
    | extend =>
        obtain ⟨c, now, rfl, _, _, hn⟩ := hwr.extend_recorded hno hyes
        have := hA (by simp [Op.casts]) n hreply
        omega
    | connect =>
        obtain ⟨c, now, rfl, _, hn⟩ := hwr.connect_recorded hno hyes
        have := hA (by simp [Op.casts]) n hreply
        omega
  · cases kind <;> rfl

end

/-! ## Two runs -/

/-- Leave `B`'s votes of one kind on a match of `A` and `B` out of a run.  As long
    as every vote of `A` of that kind on it is refused, that is again a run, the
    same events are published in it, CurrentMatch reads the same (at one instant,
    or the hash on its own), and every operation other than those votes, of `A` or
    anybody else, gets the same reply.  Every prefix of the run meets the same
    conditions, so this is so at every point of it. -/
theorem votes_private {as : List Op} {w : World} (hrun : storeMachine.run as = some w)
    (hpair : ∀ k ∈ w.claims, k.matchID = m →
      (k.userA = A ∧ k.userB = B) ∨ (k.userA = B ∧ k.userB = A))
    (hA : storeMachine.Along (fun v op => op.casts kind A m = true →
      ∀ n, (op.exec v.store).reply = .ok n → n ≤ 0) .empty as) :
    ∃ w', storeMachine.run (as.filter fun op => !op.casts kind B m) = some w' ∧
      w'.published = w.published ∧
      (∀ u, w'.store.currentMatch u = w.store.currentMatch u) ∧
      (∀ x, w'.store.matchState x = w.store.matchState x) ∧
      ∀ op : Op, op.casts kind A m = false → op.casts kind B m = false →
        (op.exec w'.store).reply = (op.exec w.store).reply := by
  -- the shorter run ends in the longer one's world without the votes
  have hsim : w.OneSided kind A B m ∧
      storeMachine.run (as.filter fun op => !op.casts kind B m) = some (w.withhold kind B m) := by
    revert hpair hA
    refine Machine.run_induction
      (P := fun as w => (∀ k ∈ w.claims, k.matchID = m →
          (k.userA = A ∧ k.userB = B) ∨ (k.userA = B ∧ k.userB = A)) →
        storeMachine.Along (fun v op => op.casts kind A m = true →
          ∀ n, (op.exec v.store).reply = .ok n → n ≤ 0) .empty as →
        w.OneSided kind A B m ∧ storeMachine.run (as.filter fun op => !op.casts kind B m) =
          some (w.withhold kind B m)) ?_ ?_ hrun
    · refine fun hpair _ => ⟨⟨Coherent.init, hpair, fun h hh => nomatch hh⟩, ?_⟩
      have hnone : (Keyspace.empty : Keyspace MatchID MatchHash).mapAt m
          (MatchHash.withhold kind B) = .empty := by
        funext x
        exact ite_self _
      show some World.empty = some (World.withhold kind B m World.empty)
      unfold World.withhold Store.withhold World.empty Store.empty
      rw [hnone]
    · intro as v op v' hv ih hstep hpair hA
      obtain ⟨hp, rfl⟩ := step_eq_some.mp hstep
      obtain ⟨hone, hshort⟩ := ih (fun k hk => hpair k (List.mem_append_right _ hk))
        hA.of_append
      have hnot := hA as op [] v rfl hv
      refine ⟨oneSided_after hone hp hpair hnot, ?_⟩
      rw [List.filter_append]
      cases hB : op.casts kind B m with
      | true =>
          rw [List.filter_cons_of_neg (by simp [hB]), List.filter_nil, List.append_nil,
            withhold_vote hone hB]
          exact hshort
      | false =>
          rw [List.filter_cons_of_pos (by simp [hB]), List.filter_nil]
          refine Machine.runFrom_concat_eq_some.mpr ⟨_, hshort, ?_⟩
          -- the callers' guarantee is about the claims, which are the same
          have hp' : op.Permitted (v.withhold kind B m) := by
            cases op <;> exact hp
          exact step_eq_some.mpr ⟨hp', (withhold_after hone hnot hB).symm⟩
  obtain ⟨hone, hshort⟩ := hsim
  refine ⟨_, hshort, rfl, currentMatch_withhold, matchState_withhold,
    fun op hnotA hnotB => ?_⟩
  have hexec := exec_withhold (B := B) (refused_of_reads hone
    (fun h => by rw [hnotA] at h; cases h) hnotB)
  show (op.exec (w.store.withhold kind B m)).reply = _
  rw [hexec]
  rfl

/-- Ben votes to extend his match with Ann, who then votes to connect. -/
def oneSided : List Op :=
  meeting ++ [.extend "ben" "c2" "m1" 10, .connectVote "ann" "c1" "m1" 20]

/-- Ann cannot tell Ben's vote from none. -/
theorem votes_private_oneSided :
    ∃ w w', storeMachine.run oneSided = some w ∧
      storeMachine.run (meeting ++ [.connectVote "ann" "c1" "m1" 20]) = some w' ∧
      w'.published = w.published ∧
      (w'.store.endScript "ann" "c1" "m1" .left).reply =
        (w.store.endScript "ann" "c1" "m1" .left).reply := by
  have hobs : (storeMachine.run oneSided).map (fun w =>
      decide (w.claims.map (fun k => (k.userA, k.userB)) = [("ann", "ben")])) = some true := by
    decide +kernel
  obtain ⟨w, hw, hobs⟩ := Option.map_eq_some_iff.mp hobs
  have hclaims := of_decide_eq_true hobs
  have hpair : ∀ k ∈ w.claims, k.matchID = "m1" →
      (k.userA = "ann" ∧ k.userB = "ben") ∨ (k.userA = "ben" ∧ k.userB = "ann") := by
    intro k hk _
    have hmem := List.mem_map_of_mem (f := fun k : Claim => (k.userA, k.userB)) hk
    rw [hclaims, List.mem_singleton] at hmem
    exact Or.inl (Prod.mk.inj hmem)
  have hnever : ∀ op ∈ oneSided, op.casts .extend "ann" "m1" = false := by decide
  have hA : storeMachine.Along (fun v op => op.casts .extend "ann" "m1" = true →
      ∀ n, (op.exec v.store).reply = .ok n → n ≤ 0) .empty oneSided := by
    intro pre op post v hsplit _ hcasts
    rw [hnever op (by rw [hsplit]; simp)] at hcasts
    cases hcasts
  obtain ⟨w', hw', hpub, _, _, hreply⟩ := votes_private hw hpair hA
  exact ⟨w, w', hw, hw', hpub, hreply (.endMatch "ann" "c1" "m1" .left) rfl rfl⟩

end OneMinute.Discovery
