/-
  OneMinute.Discovery.Lifecycle

  The life of one match id under any interleaving of the operations and any
  passage of time.

  `Phase` is the abstract life: unclaimed, active, extended, over, and never
  back.  `phase_next` shows that every operation moves every match along it,
  and `write_of_hash` finds, for anything a live hash says, the write that put
  it there.  From these: who extended a match and when (`extend_decided`), and
  that an ended match is ended for good (`ended_for_good`).
-/

import OneMinute.Discovery.Change

namespace OneMinute.Discovery

/-! ## The abstract life of a match -/

inductive Phase where
  | unclaimed
  | active
  | extended
  | over
deriving DecidableEq, Repr

namespace Phase

/-- One step of a life. -/
inductive Next : Phase → Phase → Prop where
  | stay (p : Phase) : Next p p
  | claim : Next .unclaimed .active
  | extend : Next .active .extended
  | finishActive : Next .active .over
  | finishExtended : Next .extended .over

def rank : Phase → Nat
  | .unclaimed => 0
  | .active => 1
  | .extended => 2
  | .over => 3

theorem Next.rank_le {p q : Phase} (h : Next p q) : p.rank ≤ q.rank := by
  cases h with
  | stay => exact le_rfl
  | _ => decide

end Phase

/-- The phase of a live match. -/
def MatchHash.phase (h : MatchHash) : Phase :=
  if h.state = some .extended then .extended else .active

/-- A match whose hash is gone is over if it was ever claimed. -/
def Store.phase (s : Store) (claims : List Claim) (m : MatchID) : Phase :=
  match s.matches_.get m with
  | some h => h.phase
  | none => if m ∈ claims.map Claim.matchID then .over else .unclaimed

theorem MatchHash.phase_ne_over (h : MatchHash) : h.phase ≠ .over := by
  unfold MatchHash.phase
  split <;> decide

theorem MatchHash.phase_eq_extended {h : MatchHash} :
    h.phase = .extended ↔ h.state = some .extended := by
  unfold MatchHash.phase
  split
  · next he => simp [he]
  · next he => simp [he]

/-- The end of a live match is a step of its life. -/
theorem MatchHash.phase_finish (h : MatchHash) : Phase.Next h.phase .over := by
  unfold MatchHash.phase
  split
  · exact .finishExtended
  · exact .finishActive

section
variable {s : Store} {claims : List Claim} {m : MatchID} {h : MatchHash}

theorem phase_of_live (hh : s.matches_.get m = some h) : s.phase claims m = h.phase := by
  simp [Store.phase, hh]

theorem phase_of_gone (hh : s.matches_.get m = none) :
    s.phase claims m = if m ∈ claims.map Claim.matchID then .over else .unclaimed := by
  simp [Store.phase, hh]

/-- A match is over exactly when it was claimed and its hash is gone. -/
theorem phase_eq_over :
    s.phase claims m = .over ↔ s.matches_.get m = none ∧ m ∈ claims.map Claim.matchID := by
  cases hh : s.matches_.get m with
  | some h =>
      rw [phase_of_live hh]
      simp [h.phase_ne_over]
  | none =>
      rw [phase_of_gone hh]
      split <;> simp_all

theorem mem_claims_of_live (hc : Coherent s claims) (hh : s.matches_.get m = some h) :
    m ∈ claims.map Claim.matchID := by
  obtain ⟨k, hk, hkm, _⟩ := hc.records m h hh
  exact List.mem_map.mpr ⟨k, hk, hkm⟩

/-- What keeps the hash and the claims of `m` keeps its phase. -/
theorem phase_stay {t : Store} {claims' : List Claim}
    (hget : t.matches_.get m = s.matches_.get m)
    (hcl : m ∈ claims'.map Claim.matchID ↔ m ∈ claims.map Claim.matchID) :
    Phase.Next (s.phase claims m) (t.phase claims' m) := by
  have hsame : t.phase claims' m = s.phase claims m := by
    unfold Store.phase
    rw [hget]
    simp only [hcl]
  rw [hsame]
  exact .stay _

/-- What removes the hash of `m` finishes it. -/
theorem phase_drop {t : Store} (hc : Coherent s claims) (hh : s.matches_.get m = some h)
    (hget : t.matches_.get m = none) : Phase.Next (s.phase claims m) (t.phase claims m) := by
  rw [phase_of_live hh, phase_eq_over.mpr ⟨hget, mem_claims_of_live hc hh⟩]
  exact h.phase_finish

end

theorem claimed_eq_nil_of_ends {op : Op} {o : Outcome} {m : MatchID} (h : op.ends = some m) :
    op.claimed o = [] := by
  cases op <;> first | rfl | cases h

theorem Write.claimed_eq_nil {m : MatchID} {h : MatchHash} {op : Op}
    {f : MatchHash → MatchHash} {n : Int} (hw : Write m h op f n) (o : Outcome) :
    op.claimed o = [] := by
  cases hw <;> rfl

theorem Write.phase_next {m : MatchID} {h : MatchHash} {op : Op}
    {f : MatchHash → MatchHash} {n : Int} (hw : Write m h op f n) :
    Phase.Next h.phase (f h).phase := by
  rcases hw.state with hst | ⟨ha, he⟩
  · unfold MatchHash.phase
    rw [hst]
    exact .stay _
  · rw [MatchHash.phase_eq_extended.mpr he]
    unfold MatchHash.phase
    rw [ha]
    exact .extend

/-- Every permitted operation moves every match along its life. -/
theorem phase_next {w : World} {op : Op} (hc : Coherent w.store w.claims)
    (hp : op.Permitted w) (m : MatchID) :
    Phase.Next (w.store.phase w.claims m) ((w.after op).store.phase (w.after op).claims m) := by
  have hchange := exec_change hc op
  unfold World.after
  generalize op.exec w.store = o at hchange
  show Phase.Next _ (o.store.phase (op.claimed o ++ w.claims) m)
  cases hchange with
  | kept _ _ _ hma _ _ _ hcl _ =>
      rw [hcl]
      exact phase_stay (hma m) Iff.rfl
  | written _ _ x h f n hw hh _ _ hma _ _ _ =>
      rw [hw.claimed_eq_nil]
      by_cases hxm : m = x
      -- the match that was written to
      · rw [← hxm] at hh
        rw [phase_of_live hh, phase_of_live (by rw [hma, if_pos hxm])]
        exact hw.phase_next
      · exact phase_stay (by rw [hma, if_neg hxm]) Iff.rfl
  | claimed k _ _ =>
      have hget := hc.get_claimed hp.2 m
      by_cases hkm : m = k.matchID
      · have hnew : m ∉ w.claims.map Claim.matchID := by
          intro hmem
          obtain ⟨k', hk', hkm'⟩ := List.mem_map.mp hmem
          exact hp.2 k' hk' (hkm'.trans hkm)
        have hnone : w.store.matches_.get m = none := by
          rw [hkm]
          exact hc.fresh hp.2
        rw [if_pos hkm] at hget
        rw [phase_of_gone hnone, if_neg hnew, phase_of_live hget]
        exact .claim
      · rw [if_neg hkm] at hget
        exact phase_stay hget (by simp [Op.claimed, hkm])
  | closed _ x h a b _ hends hh _ _ =>
      rw [claimed_eq_nil_of_ends hends]
      show Phase.Next _ ((w.store.closed x a b).phase w.claims m)
      by_cases hxm : m = x
      · rw [← hxm] at hh
        exact phase_drop hc hh (by rw [Store.closed, Keyspace.get_del, if_pos hxm])
      · exact phase_stay (by rw [Store.closed, Keyspace.get_del, if_neg hxm]) Iff.rfl
  | lapsed d =>
      show Phase.Next _ ((w.store.advance d).phase w.claims m)
      cases hget : (w.store.advance d).matches_.get m with
      -- time may lapse the hash, which ends the match as well
      | some h => exact phase_stay (by rw [hget, (Keyspace.get_of_get_lapse hget).1]) Iff.rfl
      | none =>
          cases hh : w.store.matches_.get m with
          | none => exact phase_stay (hget.trans hh.symm) Iff.rfl
          | some h => exact phase_drop hc hh hget

/-- A match never goes back in its life. -/
theorem phase_le_of_runFrom {u w : World} {bs : List Op} (hc : Coherent u.store u.claims)
    (hrun : storeMachine.runFrom u bs = some w) (m : MatchID) :
    (u.store.phase u.claims m).rank ≤ (w.store.phase w.claims m).rank := by
  refine (Machine.runFrom_invariant
    (P := fun v => Coherent v.store v.claims ∧
      (u.store.phase u.claims m).rank ≤ (v.store.phase v.claims m).rank)
    ?_ hrun ⟨hc, le_rfl⟩).2
  rintro v op v' ⟨hcv, hle⟩ hstep
  obtain ⟨hp, rfl⟩ := step_eq_some.mp hstep
  exact ⟨coherent_after hcv hp, hle.trans (phase_next hcv hp m).rank_le⟩

/-- An extended match stays extended until it is over. -/
theorem extended_of_runFrom {u w : World} {bs : List Op} {m : MatchID} {h h' : MatchHash}
    (hc : Coherent u.store u.claims) (hrun : storeMachine.runFrom u bs = some w)
    (hh : u.store.matches_.get m = some h) (hst : h.state = some .extended)
    (hh' : w.store.matches_.get m = some h') : h'.state = some .extended := by
  have hle := phase_le_of_runFrom hc hrun m
  rw [phase_of_live hh, phase_of_live hh', MatchHash.phase_eq_extended.mpr hst] at hle
  rw [← MatchHash.phase_eq_extended]
  unfold MatchHash.phase at hle ⊢
  split
  · rfl
  -- an active hash later on would be a step back
  · next hne =>
      rw [if_neg hne] at hle
      exact absurd hle (by decide)

/-! ## Where the content of a hash comes from -/

theorem claims_subset_of_runFrom {u w : World} {bs : List Op}
    (hrun : storeMachine.runFrom u bs = some w) : u.claims ⊆ w.claims := by
  refine Machine.runFrom_invariant (P := fun v => u.claims ⊆ v.claims) ?_ hrun
    (List.Subset.refl _)
  intro v op v' hsub hstep
  obtain ⟨_, rfl⟩ := step_eq_some.mp hstep
  exact List.Subset.trans hsub (List.subset_append_right _ _)

/-- Two hashes of one match in one run have the same identity. -/
theorem expiresAt_of_runFrom {u w : World} {bs : List Op} {m : MatchID} {h h' : MatchHash}
    (hcu : Coherent u.store u.claims) (hcw : Coherent w.store w.claims)
    (hrun : storeMachine.runFrom u bs = some w)
    (hh : u.store.matches_.get m = some h) (hh' : w.store.matches_.get m = some h') :
    h.expiresAt = h'.expiresAt ∧ ∀ x, h.Has x ↔ h'.Has x := by
  obtain ⟨k, hk, hkm, hr⟩ := hcu.records m h hh
  have hr' := hcw.records_unique (claims_subset_of_runFrom hrun hk) hkm hh'
  refine ⟨by rw [hr.expiresAt, hr'.expiresAt], fun x => ?_⟩
  rw [MatchHash.has_iff hr, MatchHash.has_iff hr']

/-- What a live hash says and a new hash does not was written into it by one
    operation of the run. -/
theorem write_of_hash {as : List Op} {w : World} {m : MatchID} {h : MatchHash}
    {g : MatchHash → Prop} (hrun : storeMachine.run as = some w)
    (hh : w.store.matches_.get m = some h) (hg : g h) (hnew : ∀ k : Claim, ¬ g (k.hash {})) :
    ∃ v op h0 f n, storeMachine.Taken as v op (v.after op) ∧
      v.store.matches_.get m = some h0 ∧ Write m h0 op f n ∧
      (op.exec v.store).reply = .ok n ∧ ¬ g h0 ∧ g (f h0) ∧
      h0.expiresAt = h.expiresAt ∧ ∀ x, h0.Has x ↔ h.Has x := by
  -- the step at which the hash of `m` came to say `g`
  let P : World → Prop := fun v => ∃ h', v.store.matches_.get m = some h' ∧ g h'
  have h0 : ¬ P storeMachine.init := by
    rintro ⟨h', hh', _⟩
    cases hh'
  obtain ⟨pre, op, post, v, v', hsplit, hpre, hstep, hpost, hnot, hnow⟩ :=
    Machine.exists_change (P := P) hrun h0 ⟨h, hh, hg⟩
  have hcv := coherent_of_run hpre
  obtain ⟨hp, rfl⟩ := step_eq_some.mp hstep
  have htaken : storeMachine.Taken as v op (v.after op) := ⟨pre, post, hsplit, hpre, hstep⟩
  have hlater : storeMachine.runFrom v (op :: post) = some w :=
    Machine.runFrom_cons_eq_some.mpr ⟨_, hstep, hpost⟩
  obtain ⟨h', hget, hg'⟩ := hnow
  rcases hash_after hcv hp hget with hold | ⟨hx, f, n, hhx, hw, hreply, rfl⟩ | ⟨k, rfl, _, rfl⟩
  · exact absurd ⟨h', hold, hg'⟩ hnot
  · have hsame := expiresAt_of_runFrom hcv (coherent_of_run hrun) hlater hhx hh
    exact ⟨v, op, hx, f, n, htaken, hhx, hw, hreply, fun hgx => hnot ⟨hx, hhx, hgx⟩, hg',
      hsame.1, hsame.2⟩
  · exact absurd hg' (hnew k)

/-! ## Extension against expiry -/

/-- In the run `as`, `u` had an Extend of `m` accepted while the match was
    active, at an instant before its `expiresAt` `t`. -/
def ExtendAccepted (as : List Op) (m : MatchID) (u : UserID) (t : UnixMilli) : Prop :=
  ∃ v c now h, storeMachine.Taken as v (.extend u c m now) (v.after (.extend u c m now)) ∧
    v.store.matches_.get m = some h ∧ h.state = some .active ∧ h.expiresAt = some t ∧ now < t ∧
    (((Op.extend u c m now).exec v.store).reply = .ok 1 ∨
      ((Op.extend u c m now).exec v.store).reply = .ok 2)

/-- A recorded Extend vote was accepted in time. -/
theorem extendAccepted_of_vote {as : List Op} {w : World} {m : MatchID} {h : MatchHash}
    {u : UserID} (hrun : storeMachine.run as = some w) (hh : w.store.matches_.get m = some h)
    (hv : h.extend u = true) : ∃ t, h.expiresAt = some t ∧ ExtendAccepted as m u t := by
  obtain ⟨v, op, h0, f, n, htaken, hget, hw, hreply, hno, hyes, hexp, _⟩ :=
    write_of_hash (g := fun h => h.extend u = true) hrun hh hv
      (fun k e => by simp [Claim.hash] at e)
  obtain ⟨c, now, rfl, hst, hnow, hn⟩ := hw.extend_recorded (by simpa using hno) hyes
  obtain ⟨k, _, _, hr⟩ := (coherent_of_run hrun).records m h hh
  refine ⟨k.now + encounterLength, hr.expiresAt, v, c, now, h0, htaken, hget, hst, ?_, ?_, ?_⟩
  · rw [hexp, hr.expiresAt]
  · rw [hexp, hr.expiresAt] at hnow
    exact hnow
  · rcases hn with rfl | rfl
    · exact Or.inl hreply
    · exact Or.inr hreply

/-- An Extend at or after `expiresAt` on a match that is not extended is
    refused. -/
theorem extend_refused {s : Store} {claims : List Claim} {u : UserID} {c : ConnectionID}
    {m : MatchID} {now : UnixMilli} {h : MatchHash} (hc : Coherent s claims)
    (hh : s.matches_.get m = some h) (hst : h.state ≠ some .extended)
    (hlate : h.expiresAt.getD 0 ≤ now) :
    ∃ n ≤ 0, (Op.extend u c m now).exec s = s.answer n := by
  have he := exec_effect hc.seated (.extend u c m now)
  generalize (Op.extend u c m now).exec s = o at he ⊢
  cases he with
  | refused _ n hn => exact ⟨n, hn, rfl⟩
  | alreadyExtended _ _ _ _ h' _ _ hh' _ hst' =>
      rw [hh] at hh'
      cases hh'
      exact absurd hst' hst
  | extendVote _ _ _ _ h' _ _ _ hh' _ _ hnow _ =>
      rw [hh] at hh'
      cases hh'
      exact absurd hnow (not_lt.mpr hlate)
  | extendBoth _ _ _ _ h' _ _ _ _ hh' _ _ _ _ hnow _ =>
      rw [hh] at hh'
      cases hh'
      exact absurd hnow (not_lt.mpr hlate)

/-- Only the sweep ends a match for `expired`, and only an active one that is
    due. -/
theorem expired_published {w : World} {op : Op} {u : UserID} {m : MatchID}
    (hc : Coherent w.store w.claims) (hp : op.Permitted w)
    (he : (u, .matchEnded m .expired) ∈ (op.exec w.store).published) :
    ∃ now h t, op = .expire m now ∧ w.store.matches_.get m = some h ∧
      h.state = some .active ∧ h.expiresAt = some t ∧ t ≤ now := by
  have heff := exec_effect hc.seated op
  generalize op.exec w.store = o at he heff
  cases heff with
  | expire x now h a b hd hh ha hb hst hnow =>
      have hxm : x = m := by
        simp only [Store.ended, List.mem_cons, Prod.mk.injEq, Event.matchEnded.injEq,
          List.not_mem_nil, or_false] at he
        rcases he with ⟨_, e, _⟩ | ⟨_, e, _⟩ <;> exact e.symm
      obtain ⟨k, _, _, hr⟩ := hc.records x h hh
      rw [hr.expiresAt] at hnow
      exact ⟨now, h, _, by rw [hxm], by rw [← hxm]; exact hh, hst, hr.expiresAt, hnow⟩
  | endMatch v c x reason h a b _ _ _ _ _ _ =>
      have hreason : reason = .expired := by
        simp only [Store.ended, List.mem_cons, Prod.mk.injEq, Event.matchEnded.injEq,
          List.not_mem_nil, or_false] at he
        rcases he with ⟨_, _, e⟩ | ⟨_, _, e⟩ <;> exact e.symm
      -- a participant ends it for `left` or `skipped`
      rcases hp with hp | hp <;> rw [hp] at hreason <;> cases hreason
  | endForUser v x reason h a b _ _ _ _ _ =>
      have hreason : reason = .expired := by
        simp only [Store.ended, List.mem_cons, Prod.mk.injEq, Event.matchEnded.injEq,
          List.not_mem_nil, or_false] at he
        rcases he with ⟨_, _, e⟩ | ⟨_, _, e⟩ <;> exact e.symm
      -- a block ends it for `blocked`
      rw [(show reason = .blocked from hp)] at hreason
      cases hreason
  | _ => simp [Store.answer, Store.ended] at he

/-- Extension against expiry, over every run: an extended match had an Extend
    of each participant accepted before its `expiresAt`; a late Extend of a
    match that is not extended does nothing; an extended match stays so until
    it is over and never ends for `expired`; and a match that ends for
    `expired` was active and due by the sweep's clock. -/
theorem extend_decided {as : List Op} {w : World} (hrun : storeMachine.run as = some w) :
    (∀ m h u, w.store.matches_.get m = some h → h.state = some .extended → h.Has u →
      ∃ t, h.expiresAt = some t ∧ ExtendAccepted as m u t) ∧
    (∀ u c m now h, w.store.matches_.get m = some h → h.state ≠ some .extended →
      h.expiresAt.getD 0 ≤ now → ∃ n ≤ 0, (Op.extend u c m now).exec w.store = w.store.answer n) ∧
    (∀ m h bs w', w.store.matches_.get m = some h → h.state = some .extended →
      storeMachine.runFrom w bs = some w' →
        (∀ h', w'.store.matches_.get m = some h' → h'.state = some .extended) ∧
        ∀ op : Op, op.Permitted w' →
          ∀ u, (u, Event.matchEnded m .expired) ∉ (op.exec w'.store).published) ∧
    (∀ op : Op, op.Permitted w →
      ∀ u m, (u, Event.matchEnded m .expired) ∈ (op.exec w.store).published →
        ∃ now h t, op = .expire m now ∧ w.store.matches_.get m = some h ∧
          h.state = some .active ∧ h.expiresAt = some t ∧ t ≤ now) := by
  have hc := coherent_of_run hrun
  refine ⟨?_, ?_, ?_, ?_⟩
  · intro m h u hh hst hu
    obtain ⟨k, _, _, hr⟩ := hc.records m h hh
    exact extendAccepted_of_vote hrun hh (hr.both hst u hu)
  · intro u c m now h hh hst hlate
    exact extend_refused hc hh hst hlate
  · intro m h bs w' hh hst hrest
    refine ⟨fun h' hh' => extended_of_runFrom hc hrest hh hst hh', ?_⟩
    intro op hp u he
    have hc' := coherent_of_run (Machine.runFrom_append_eq_some.mpr ⟨w, hrun, hrest⟩)
    obtain ⟨now, h', t, _, hh', hact, _, _⟩ := expired_published hc' hp he
    rw [extended_of_runFrom hc hrest hh hst hh'] at hact
    cases hact
  · intro op hp u m he
    exact expired_published hc hp he

/-- Both extend, Ben in the last millisecond. -/
def extendedRun : List Op :=
  meeting ++ [.extend "ann" "c1" "m1" 1000, .extend "ben" "c2" "m1" 59999]

theorem extend_decided_extendedRun :
    ∃ w h, storeMachine.run extendedRun = some w ∧ w.store.matches_.get "m1" = some h ∧
      h.state = some .extended ∧ ∃ t, h.expiresAt = some t ∧
        ExtendAccepted extendedRun "m1" "ben" t := by
  have hobs : (storeMachine.run extendedRun).map (fun w =>
      (w.store.hget "m1" MatchHash.state, w.store.hget "m1" MatchHash.b)) =
      some (some .extended, some "ben") := by
    decide +kernel
  obtain ⟨w, hw, hobs⟩ := Option.map_eq_some_iff.mp hobs
  simp only [Prod.mk.injEq] at hobs
  obtain ⟨h, hh, hst⟩ := Option.bind_eq_some_iff.mp hobs.1
  have hb : h.b = some "ben" := by
    have hb := hobs.2
    rwa [Store.hget, hh, Option.bind_some] at hb
  exact ⟨w, h, hw, hh, hst, (extend_decided hw).1 "m1" h "ben" hh hst (Or.inr hb)⟩

end OneMinute.Discovery
