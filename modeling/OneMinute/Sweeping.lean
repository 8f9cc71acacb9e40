/-
  OneMinute.Sweeping

  What `Sweep` does when nothing happens between its calls.

  The scripts for its two batches run to their ends from any reachable store
  (`sweep_alone`): a member whose hash is there is active and past its time, since
  score and hash agree (`Coherent`), so every branch that is taken removes the
  member.  The two indexes only shrink (`Sweeps`), so each sweep takes a whole
  batch off what is due, and nothing is starved.
-/

import OneMinute.Lib.Draining
import OneMinute.Discovery.Bookkeeping
import OneMinute.Discovery.Ending
import OneMinute.Matchmaking

namespace OneMinute.Discovery

open SortedSet

/-! ## What a sweep may do -/

/-- Past its active deadline, or past a participant's disconnect deadline. -/
def MatchHash.Past (now : UnixMilli) (h : MatchHash) : Prop :=
  (h.state = some .active ∧ ∃ t, h.expiresAt = some t ∧ t ≤ now) ∨
    ∃ u t, h.Has u ∧ h.disconnected u = some t ∧ t ≤ now

/-- Nothing refers to `m` any more, and the participants of `h` were told. -/
structure Ended (w : World) (m : MatchID) (h : MatchHash) : Prop where
  forgotten : w.store.Forgotten m
  told : ∀ u, h.Has u → ∃ reason, (u, Event.matchEnded m reason) ∈ w.published

/-- The match `m` has the same hash, expiry and deadline in `w'`, and the same
    pointers, but for those of users who are also in another match past its time. -/
structure Spared (now : UnixMilli) (w w' : World) (m : MatchID) (h : MatchHash) : Prop where
  hash : w'.store.matches_.get m = some h
  expiry : w'.store.matches_.expiry m = w.store.matches_.expiry m
  deadline : w'.store.deadlines.score m = w.store.deadlines.score m
  pointer : ∀ u, w.store.userMatch.get u = some m → w'.store.userMatch.get u = some m ∨
    ∃ m' h', m' ≠ m ∧ w.store.matches_.get m' = some h' ∧ h'.Past now ∧ h'.Has u

/-- From `w` to `w'` keys and index members only go, and each match is spared,
    with its markers other than 0, or was past its time and has ended. -/
structure Sweeps (now : UnixMilli) (w w' : World) : Prop where
  deadlines : Shrinks w.store.deadlines w'.store.deadlines
  markers : Shrinks w.store.disconnectDeadlines w'.store.disconnectDeadlines
  hash : ∀ m h, w'.store.matches_.get m = some h → w.store.matches_.get m = some h
  pointer : ∀ u m, w'.store.userMatch.get u = some m → w.store.userMatch.get u = some m
  published : w.published ⊆ w'.published
  live : ∀ m h, w.store.matches_.get m = some h →
    (Spared now w w' m h ∧
      ∀ u, w'.store.disconnectDeadlines.score (m, u) = w.store.disconnectDeadlines.score (m, u) ∨
        w.store.disconnectDeadlines.score (m, u) = some 0 ∧ 0 ≤ now) ∨
    h.Past now ∧ Ended w' m h

namespace Sweeps

variable {now : UnixMilli} {w w' w'' : World} {m : MatchID} {h : MatchHash}

theorem score_none {α : Type} [DecidableEq α] {z z' : SortedSet α} {x : α}
    (hz : Shrinks z z') (hx : z.score x = none) : z'.score x = none := by
  by_contra hsome
  obtain ⟨s, hs⟩ := Option.ne_none_iff_exists'.mp hsome
  rw [hz.score hs] at hx
  cases hx

/-- What has ended stays so. -/
theorem ended (hs : Sweeps now w w') (he : Ended w m h) : Ended w' m h where
  forgotten :=
    { hash := by
        by_contra hsome
        obtain ⟨h', hh'⟩ := Option.ne_none_iff_exists'.mp hsome
        have hgone := he.forgotten.hash
        rw [hs.hash m h' hh'] at hgone
        cases hgone
      pointer := fun u hu => he.forgotten.pointer u (hs.pointer u m hu)
      deadline := score_none hs.deadlines he.forgotten.deadline
      marker := fun u => score_none hs.markers (he.forgotten.marker u) }
  told := by
    intro u hu
    obtain ⟨reason, hr⟩ := he.told u hu
    exact ⟨reason, hs.published hr⟩

/-- Only index members go, and none of a live match but a marker 0. -/
theorem of_dropped (hum : w'.store.userMatch = w.store.userMatch)
    (hma : w'.store.matches_ = w.store.matches_) (hpublished : w.published ⊆ w'.published)
    (hdl : Shrinks w.store.deadlines w'.store.deadlines)
    (hdd : Shrinks w.store.disconnectDeadlines w'.store.disconnectDeadlines)
    (hdeadline : ∀ m h, w.store.matches_.get m = some h →
      w'.store.deadlines.score m = w.store.deadlines.score m)
    (hmarker : ∀ m h u, w.store.matches_.get m = some h →
      w'.store.disconnectDeadlines.score (m, u) = w.store.disconnectDeadlines.score (m, u) ∨
        w.store.disconnectDeadlines.score (m, u) = some 0 ∧ 0 ≤ now) : Sweeps now w w' where
  deadlines := hdl
  markers := hdd
  hash := by rw [hma]; exact fun _ _ h => h
  pointer := by rw [hum]; exact fun _ _ h => h
  published := hpublished
  live := by
    intro m h hh
    refine Or.inl ⟨⟨?_, ?_, hdeadline m h hh, fun u hu => Or.inl ?_⟩, fun u => hmarker m h u hh⟩
    · rw [hma]
      exact hh
    · rw [hma]
    · rw [hum]
      exact hu

theorem refl (w : World) : Sweeps now w w :=
  of_dropped rfl rfl (List.Subset.refl _) (.refl _) (.refl _) (fun _ _ _ => rfl)
    fun _ _ _ _ => Or.inl rfl

theorem trans (hs : Sweeps now w w') (hs' : Sweeps now w' w'') : Sweeps now w w'' where
  deadlines := hs.deadlines.trans hs'.deadlines
  markers := hs.markers.trans hs'.markers
  hash := fun m h hh => hs.hash m h (hs'.hash m h hh)
  pointer := fun u m hu => hs.pointer u m (hs'.pointer u m hu)
  published := fun _ he => hs'.published (hs.published he)
  live := by
    intro m h hh
    rcases hs.live m h hh with ⟨hspared, hmarkers⟩ | ⟨hpast, hended⟩
    · rcases hs'.live m h hspared.hash with ⟨hspared', hmarkers'⟩ | hended
      · refine Or.inl ⟨⟨hspared'.hash, hspared'.expiry.trans hspared.expiry,
          hspared'.deadline.trans hspared.deadline, fun u hu => ?_⟩, fun u => ?_⟩
        · rcases hspared.pointer u hu with hu' | hother
          · refine (hspared'.pointer u hu').imp_right ?_
            rintro ⟨m', h', hne, hh', hrest⟩
            exact ⟨m', h', hne, hs.hash m' h' hh', hrest⟩
          · exact Or.inr hother
        · rcases hmarkers u with heq | hzero
          · rw [← heq]
            exact hmarkers' u
          · exact Or.inr hzero
      · exact Or.inr hended
    · exact Or.inr ⟨hpast, hs'.ended hended⟩

/-- A live match past its time that lost its deadline has ended. -/
theorem ended_of_deadline (hs : Sweeps now w w') (hh : w.store.matches_.get m = some h)
    (hm : w.store.deadlines.score m ≠ none) (hgone : w'.store.deadlines.score m = none) :
    Ended w' m h := by
  rcases hs.live m h hh with ⟨hspared, -⟩ | ⟨-, hended⟩
  · rw [hspared.deadline] at hgone
    exact absurd hgone hm
  · exact hended

/-- So has one that lost a marker other than 0. -/
theorem ended_of_marker {u : UserID} {t : UnixMilli} (hs : Sweeps now w w')
    (hh : w.store.matches_.get m = some h)
    (ht : w.store.disconnectDeadlines.score (m, u) = some t) (hne : t ≠ 0)
    (hgone : w'.store.disconnectDeadlines.score (m, u) = none) : Ended w' m h := by
  rcases hs.live m h hh with ⟨-, hmarkers⟩ | ⟨-, hended⟩
  · rcases hmarkers u with heq | ⟨hzero, -⟩
    · rw [hgone, ht] at heq
      cases heq
    · rw [ht] at hzero
      exact absurd (Option.some.inj hzero) hne
  · exact hended

end Sweeps

/-! ## The two scripts -/

theorem Effect.reply_ok {s : Store} {op : Op} {o : Outcome} (he : Effect s op o) :
    ∃ n, o.reply = .ok n := by
  cases he <;> exact ⟨_, rfl⟩

section
variable {w : World} {now : UnixMilli} {m : MatchID} {u : UserID}

/-- A script that ends a match past its time. -/
theorem sweeps_ended {op : Op} {h : MatchHash} {a b : UserID} {reason : EndReason}
    (hc : Coherent w.store w.claims) (hop : op.exec w.store = w.store.ended m a b reason)
    (hh : w.store.matches_.get m = some h) (ha : h.a = some a) (hb : h.b = some b)
    (hpast : h.Past now) : Sweeps now w (w.after op) := by
  have hstore : (w.after op).store = w.store.closed m a b := congrArg Outcome.store hop
  have hpublished : (w.after op).published =
      w.published ++ [(a, .matchEnded m reason), (b, .matchEnded m reason)] := by
    show w.published ++ (op.exec w.store).published = _
    rw [hop]
    rfl
  constructor
  case deadlines =>
    rw [hstore]
    exact .zrem _ _
  case markers =>
    rw [hstore]
    exact (Shrinks.zrem _ _).trans (.zrem _ _)
  case hash =>
    intro x h' hx
    rw [hstore, Store.closed, Keyspace.get_del] at hx
    split at hx
    · cases hx
    · exact hx
  case pointer =>
    intro v x hx
    rw [hstore] at hx
    simp only [Store.closed, Keyspace.get_del] at hx
    split at hx
    · cases hx
    · split at hx
      · cases hx
      · exact hx
  case published =>
    rw [hpublished]
    exact List.subset_append_left _ _
  case live =>
    intro x h' hx
    by_cases hxm : x = m
    · subst hxm
      obtain rfl : h = h' := Option.some.inj (hh.symm.trans hx)
      refine Or.inr ⟨hpast, ?_, fun v hv => ⟨reason, ?_⟩⟩
      · rw [hstore]
        exact forgotten_closed hc hh ha hb
      · rw [hpublished]
        rcases hv.eq_or_eq ha hb with rfl | rfl <;> simp
    · -- another match: only pointers of the two participants go
      have hpair : ∀ v y : UserID, (x, v) ≠ (m, y) := fun v y e => hxm (congrArg Prod.fst e)
      refine Or.inl ⟨⟨?_, ?_, ?_, fun v hv => ?_⟩, fun v => Or.inl ?_⟩
      · rw [hstore, Store.closed, Keyspace.get_del, if_neg hxm]
        exact hx
      · rw [hstore, Store.closed, Keyspace.expiry_del, if_neg hxm]
      · rw [hstore, Store.closed, SortedSet.score_zrem, if_neg hxm]
      · by_cases hhas : h.Has v
        · exact Or.inr ⟨m, h, Ne.symm hxm, hh, hpast, hhas⟩
        · have hva : v ≠ a := fun e => hhas (Or.inl (e ▸ ha))
          have hvb : v ≠ b := fun e => hhas (Or.inr (e ▸ hb))
          rw [hstore]
          simp only [Store.closed, Keyspace.get_del, if_neg hva, if_neg hvb]
          exact Or.inl hv
      · rw [hstore]
        simp only [Store.closed, SortedSet.score_zrem, if_neg (hpair v _)]

theorem published_after (w : World) (op : Op) : w.published ⊆ (w.after op).published :=
  List.subset_append_left _ _

/-- A script that leaves the store as it is. -/
theorem sweeps_refused {op : Op} (hop : op.exec w.store = w.store.answer 0) :
    Sweeps now w (w.after op) := by
  have hstore : (w.after op).store = w.store := congrArg Outcome.store hop
  refine .of_dropped ?_ ?_ (published_after w op) ?_ ?_ ?_ ?_ <;> rw [hstore]
  · exact .refl _
  · exact .refl _
  · exact fun _ _ _ => rfl
  · exact fun _ _ _ _ => Or.inl rfl

/-- `expireScript` on a member whose hash has lapsed. -/
theorem expireScript_stale (hd : w.store.deadlines.score m ≠ none)
    (hh : w.store.matches_.get m = none) :
    w.store.expireScript m now =
      ({ w.store with deadlines := w.store.deadlines.zrem m } : Store).answer 0 := by
  unfold Store.expireScript
  rw [if_neg hd, if_pos (by rw [hh]; rfl)]

/-- `expireScript` on a live active match in the past. -/
theorem expireScript_live {h : MatchHash} {a b : UserID} {t : UnixMilli}
    (hd : w.store.deadlines.score m ≠ none) (hh : w.store.matches_.get m = some h)
    (ha : h.a = some a) (hb : h.b = some b) (hst : h.state = some .active)
    (hexp : h.expiresAt = some t) (ht : t ≤ now) :
    w.store.expireScript m now = w.store.ended m a b .expired := by
  unfold Store.expireScript
  rw [if_neg hd, if_neg (by rw [hh]; simp), hget_of_some hh, hget_of_some hh, hst, hexp,
    if_neg (by simpa using ht), finish_eq hh ha hb]

/-- What the first script does to a member that is due. -/
theorem sweeps_expire (hc : Coherent w.store w.claims)
    (hdue : ∀ t, w.store.deadlines.score m = some t → t ≤ now) :
    Sweeps now w (w.after (.expire m now)) ∧
      (w.after (.expire m now)).store.deadlines.score m = none := by
  cases hd : w.store.deadlines.score m with
  | none =>
      have hexec : (Op.expire m now).exec w.store = w.store.answer 0 := if_pos hd
      refine ⟨sweeps_refused hexec, ?_⟩
      show ((Op.expire m now).exec w.store).store.deadlines.score m = none
      rw [hexec]
      exact hd
  | some t =>
      have hsome : w.store.deadlines.score m ≠ none := by rw [hd]; simp
      cases hh : w.store.matches_.get m with
      | none =>
          have hstore : (w.after (.expire m now)).store =
              { w.store with deadlines := w.store.deadlines.zrem m } :=
            congrArg Outcome.store (expireScript_stale hsome hh)
          refine ⟨.of_dropped ?_ ?_ (published_after w _) ?_ ?_ ?_ ?_, ?_⟩ <;> rw [hstore]
          · exact .zrem _ _
          · exact .refl _
          · intro x h hx
            have hxm : x ≠ m := by
              rintro rfl
              rw [hh] at hx
              cases hx
            rw [SortedSet.score_zrem, if_neg hxm]
          · exact fun _ _ _ _ => Or.inl rfl
          · rw [SortedSet.score_zrem, if_pos rfl]
      | some h =>
          -- score and field are both the expiry of the claim
          obtain ⟨k, hk, hkm, hkt⟩ := hc.deadline_known m t hd
          have hexp : h.expiresAt = some t := by
            rw [(hc.records_unique hk hkm hh).expiresAt, hkt]
          have hst := hc.deadline_active m h hsome hh
          obtain ⟨a, b, -, ha, hb⟩ := hc.seated m h hh
          have hexec := expireScript_live hsome hh ha hb hst hexp (hdue t hd)
          refine ⟨sweeps_ended hc hexec hh ha hb (Or.inl ⟨hst, t, hexp, hdue t hd⟩), ?_⟩
          show ((Op.expire m now).exec w.store).store.deadlines.score m = none
          rw [show (Op.expire m now).exec w.store = _ from hexec]
          exact (forgotten_closed hc hh ha hb).deadline

/-- `disconnectExpiryScript` on a due member without a due marker in a hash. -/
theorem disconnectExpiryScript_stale {t : UnixMilli}
    (hd : w.store.disconnectDeadlines.score (m, u) = some t) (ht : t ≤ now)
    (hstale : (w.store.hget m fun h => h.disconnected u).getD 0 = 0) :
    w.store.disconnectExpiryScript m u now =
      ({ w.store with
        disconnectDeadlines := w.store.disconnectDeadlines.zrem (m, u) } : Store).answer 0 := by
  unfold Store.disconnectExpiryScript
  rw [hd]
  show (if now < t then _ else _) = _
  rw [if_neg (not_lt.mpr ht)]
  exact if_pos (Or.inl hstale)

/-- `disconnectExpiryScript` on a live match with a marker in the past. -/
theorem disconnectExpiryScript_live {h : MatchHash} {a b : UserID} {t : UnixMilli}
    (hd : w.store.disconnectDeadlines.score (m, u) = some t) (ht : t ≤ now)
    (hh : w.store.matches_.get m = some h) (ha : h.a = some a) (hb : h.b = some b)
    (hmark : h.disconnected u = some t) (hne : t ≠ 0) :
    w.store.disconnectExpiryScript m u now = w.store.ended m a b .peerDisconnected := by
  unfold Store.disconnectExpiryScript
  rw [hd]
  show (if now < t then _ else _) = _
  rw [if_neg (not_lt.mpr ht), hget_of_some hh, hmark]
  refine (if_neg ?_).trans (finish_eq hh ha hb _)
  rintro (h0 | hlt)
  · exact hne h0
  · exact absurd ht (not_le.mpr hlt)

/-- A member without a due marker in a hash is dropped. -/
theorem sweeps_staleMarker (hc : Coherent w.store w.claims) {t : UnixMilli}
    (hd : w.store.disconnectDeadlines.score (m, u) = some t) (ht : t ≤ now)
    (hstale : (w.store.hget m fun h => h.disconnected u).getD 0 = 0) :
    Sweeps now w (w.after (.disconnectExpiry m u now)) ∧
      (w.after (.disconnectExpiry m u now)).store.disconnectDeadlines.score (m, u) = none := by
  have hstore : (w.after (.disconnectExpiry m u now)).store =
      { w.store with disconnectDeadlines := w.store.disconnectDeadlines.zrem (m, u) } :=
    congrArg Outcome.store (disconnectExpiryScript_stale hd ht hstale)
  refine ⟨.of_dropped ?_ ?_ (published_after w _) ?_ ?_ ?_ ?_, ?_⟩ <;> rw [hstore]
  · exact .refl _
  · exact .zrem _ _
  · exact fun _ _ _ => rfl
  · intro x h v hx
    rw [SortedSet.score_zrem]
    split
    · next hxv =>
        -- the dropped member of a live match: its marker is 0
        obtain ⟨rfl, rfl⟩ := Prod.mk.inj hxv
        have hmark := hc.marker x v t h hd hx
        rw [hget_of_some hx, hmark] at hstale
        obtain rfl : t = 0 := hstale
        exact Or.inr ⟨hd, ht⟩
    · exact Or.inl rfl
  · rw [SortedSet.score_zrem, if_pos rfl]

/-- A member with a due marker in a hash ends its match. -/
theorem sweeps_dueMarker (hc : Coherent w.store w.claims) {t : UnixMilli} {h : MatchHash}
    (hd : w.store.disconnectDeadlines.score (m, u) = some t) (ht : t ≤ now)
    (hh : w.store.matches_.get m = some h) (hmark : h.disconnected u = some t) (hne : t ≠ 0) :
    Sweeps now w (w.after (.disconnectExpiry m u now)) ∧
      (w.after (.disconnectExpiry m u now)).store.disconnectDeadlines.score (m, u) = none := by
  have hsome : w.store.disconnectDeadlines.score (m, u) ≠ none := by rw [hd]; simp
  obtain ⟨a, b, -, ha, hb⟩ := hc.seated m h hh
  have hexec := disconnectExpiryScript_live hd ht hh ha hb hmark hne
  have hhas := hc.marker_has hh hsome
  refine ⟨sweeps_ended hc hexec hh ha hb (Or.inr ⟨u, t, hhas, hmark, ht⟩), ?_⟩
  show ((Op.disconnectExpiry m u now).exec w.store).store.disconnectDeadlines.score _ = none
  rw [show (Op.disconnectExpiry m u now).exec w.store = _ from hexec]
  exact (forgotten_closed hc hh ha hb).marker u

/-- What the second script does to a member that is due. -/
theorem sweeps_disconnectExpiry (hc : Coherent w.store w.claims)
    (hdue : ∀ t, w.store.disconnectDeadlines.score (m, u) = some t → t ≤ now) :
    Sweeps now w (w.after (.disconnectExpiry m u now)) ∧
      (w.after (.disconnectExpiry m u now)).store.disconnectDeadlines.score (m, u) = none := by
  cases hd : w.store.disconnectDeadlines.score (m, u) with
  | none =>
      have hexec : (Op.disconnectExpiry m u now).exec w.store = w.store.answer 0 := by
        show w.store.disconnectExpiryScript m u now = _
        unfold Store.disconnectExpiryScript
        rw [hd]
      refine ⟨sweeps_refused hexec, ?_⟩
      show ((Op.disconnectExpiry m u now).exec w.store).store.disconnectDeadlines.score _ = none
      rw [hexec]
      exact hd
  | some t =>
      have ht := hdue t hd
      by_cases hstale : (w.store.hget m fun h => h.disconnected u).getD 0 = 0
      · exact sweeps_staleMarker hc hd ht hstale
      · cases hh : w.store.matches_.get m with
        | none => exact absurd (by rw [hget_of_none hh]; rfl) hstale
        | some h =>
            have hmark := hc.marker m u t h hd hh
            rw [hget_of_some hh, hmark] at hstale
            exact sweeps_dueMarker hc hd ht hh hmark hstale

/-! ## The two loops -/

/-- The world after the scripts of `op` for the members `xs`. -/
def World.scripts {α : Type} (op : α → Op) (w : World) (xs : List α) : World :=
  xs.foldl (fun w x => w.after (op x)) w

/-- A loop over due members removes them all, if each script removes its own. -/
theorem sweeps_scripts {α : Type} {op : α → Op} (score : World → α → Option Int) {xs : List α}
    (hpermitted : ∀ w x, (op x).Permitted w)
    (honly : ∀ w w' x t, Sweeps now w w' → score w' x = some t → score w x = some t)
    (hstep : ∀ w x, Coherent w.store w.claims → (∀ t, score w x = some t → t ≤ now) →
      Sweeps now w (w.after (op x)) ∧ score (w.after (op x)) x = none)
    (hc : Coherent w.store w.claims) (hdue : ∀ x ∈ xs, ∀ t, score w x = some t → t ≤ now) :
    Coherent (w.scripts op xs).store (w.scripts op xs).claims ∧
      Sweeps now w (w.scripts op xs) ∧ ∀ x ∈ xs, score (w.scripts op xs) x = none := by
  induction xs generalizing w with
  | nil => exact ⟨hc, .refl w, fun x hx => nomatch hx⟩
  | cons x xs ih =>
      obtain ⟨hfirst, hgone⟩ := hstep w x hc (hdue x List.mem_cons_self)
      have hc' := coherent_after hc (hpermitted w x)
      obtain ⟨hcoherent, hrest, hall⟩ := ih hc' fun y hy t ht =>
        hdue y (List.mem_cons_of_mem _ hy) t (honly _ _ y t hfirst ht)
      refine ⟨hcoherent, hfirst.trans hrest, fun y hy => ?_⟩
      rcases List.mem_cons.mp hy with rfl | hy
      · by_contra hsome
        obtain ⟨t, ht⟩ := Option.ne_none_iff_exists'.mp hsome
        rw [honly _ _ y t hrest ht] at hgone
        cases hgone
      · exact hall y hy

/-- The scripts of a sweep raise no error. -/
theorem toOption_exec (hc : Coherent w.store w.claims) (op : Op) :
    ∃ n, (op.exec w.store).reply.toOption = some n := by
  obtain ⟨n, hn⟩ := (exec_effect hc.seated op).reply_ok
  exact ⟨n, by rw [hn]; rfl⟩

theorem sweepDeadlines_alone {e e' : Env} {ms : List MatchID} {r : Bool}
    (hc : Coherent e.world.store e.world.claims)
    (h : Undisturbed e (sweepDeadlines now ms) e' r) :
    r = true ∧ e' = ⟨e.world.scripts (fun m => .expire m now) ms, e.db⟩ := by
  induction ms generalizing e with
  | nil =>
      obtain ⟨rfl, rfl⟩ := undisturbed_return.mp h
      exact ⟨rfl, rfl⟩
  | cons m ms ih =>
      obtain ⟨d, h⟩ := h.of_script
      obtain ⟨n, hn⟩ := toOption_exec hc (.expire m now)
      rw [hn] at h
      have hc' : Coherent (e.world.after (.expire m now)).store
          (e.world.after (.expire m now)).claims := coherent_after hc trivial
      exact ih hc' h

theorem sweepDisconnects_alone {e e' : Env} {xs : List (MatchID × UserID)} {r : Bool}
    (hc : Coherent e.world.store e.world.claims)
    (h : Undisturbed e (sweepDisconnects now xs) e' r) :
    r = true ∧ e' = ⟨e.world.scripts (fun x => .disconnectExpiry x.1 x.2 now) xs, e.db⟩ := by
  induction xs generalizing e with
  | nil =>
      obtain ⟨rfl, rfl⟩ := undisturbed_return.mp h
      exact ⟨rfl, rfl⟩
  | cons x xs ih =>
      obtain ⟨d, h⟩ := h.of_script
      obtain ⟨n, hn⟩ := toOption_exec hc (.disconnectExpiry x.1 x.2 now)
      rw [hn] at h
      have hc' : Coherent (e.world.after (.disconnectExpiry x.1 x.2 now)).store
          (e.world.after (.disconnectExpiry x.1 x.2 now)).claims := coherent_after hc trivial
      exact ih hc' h

/-! ## A sweep -/

/-- The world after the first batch. -/
def World.expired (w : World) (now : UnixMilli) : World :=
  w.scripts (fun m => .expire m now) (w.store.deadlines.due userBefore now sweepCount)

/-- The world after both. -/
def World.swept (w : World) (now : UnixMilli) : World :=
  (w.expired now).scripts (fun x => .disconnectExpiry x.1 x.2 now)
    ((w.expired now).store.disconnectDeadlines.due markerBefore now sweepCount)

theorem due_of_mem_due {α : Type} [DecidableEq α] {before : α → α → Bool} {z : SortedSet α}
    {count : Nat} : ∀ x ∈ z.due before now count, ∀ t, z.score x = some t → t ≤ now := by
  intro x hx t ht
  obtain ⟨s, hs, hle⟩ := score_of_mem_due hx
  rw [hs] at ht
  exact Option.some.inj ht ▸ hle

theorem sweeps_expired (now : UnixMilli) (hc : Coherent w.store w.claims) :
    Coherent (w.expired now).store (w.expired now).claims ∧ Sweeps now w (w.expired now) ∧
      ∀ m ∈ w.store.deadlines.due userBefore now sweepCount,
        (w.expired now).store.deadlines.score m = none :=
  sweeps_scripts (fun w m => w.store.deadlines.score m) (fun _ _ => trivial)
    (fun _ _ _ _ hs => hs.deadlines.score) (fun _ _ hc => sweeps_expire hc) hc due_of_mem_due

theorem sweeps_swept (now : UnixMilli) (hc : Coherent w.store w.claims) :
    Coherent (w.swept now).store (w.swept now).claims ∧ Sweeps now (w.expired now) (w.swept now) ∧
      ∀ x ∈ (w.expired now).store.disconnectDeadlines.due markerBefore now sweepCount,
        (w.swept now).store.disconnectDeadlines.score x = none :=
  sweeps_scripts (fun w x => w.store.disconnectDeadlines.score x) (fun _ _ => trivial)
    (fun _ _ _ _ hs => hs.markers.score) (fun _ _ hc => sweeps_disconnectExpiry hc)
    (sweeps_expired now hc).1 due_of_mem_due

/-- A sweep with nothing between its calls runs both batches to their ends. -/
theorem sweep_alone {e e' : Env} {r : Bool} (hc : Coherent e.world.store e.world.claims)
    (h : Undisturbed e (sweep now) e' r) : r = true ∧ e' = ⟨e.world.swept now, e.db⟩ := by
  have h := h.of_call
  obtain ⟨e₁, b, h₁, h⟩ := undisturbed_bind.mp h
  obtain ⟨rfl, rfl⟩ := sweepDeadlines_alone hc h₁
  have h := h.of_call
  exact sweepDisconnects_alone (sweeps_expired now hc).1 h

theorem answerable_sweepDeadlines (now : UnixMilli) (ms : List MatchID) :
    Answerable (sweepDeadlines now ms) := by
  induction ms with
  | nil => trivial
  | cons m ms ih =>
      refine ⟨fun e => ⟨⟨0, ""⟩, rfl⟩, fun _ r => ?_⟩
      match r with
      | none => trivial
      | some _ => exact ih

theorem answerable_sweepDisconnects (now : UnixMilli) (xs : List (MatchID × UserID)) :
    Answerable (sweepDisconnects now xs) := by
  induction xs with
  | nil => trivial
  | cons x xs ih =>
      refine ⟨fun e => ⟨⟨0, ""⟩, rfl⟩, fun _ r => ?_⟩
      match r with
      | none => trivial
      | some _ => exact ih

theorem answerable_sweep (now : UnixMilli) : Answerable (sweep now) := by
  refine answerable_call_bind (fun _ => rfl) fun matches_ => ?_
  match matches_ with
  | none => trivial
  | some matches_ =>
      refine (answerable_sweepDeadlines now matches_).bind fun b => ?_
      match b with
      | false => trivial
      | true =>
          refine answerable_call_bind (fun _ => rfl) fun disconnected => ?_
          match disconnected with
          | none => trivial
          | some disconnected => exact answerable_sweepDisconnects now disconnected

/-! ## The order of the markers -/

theorem rankOrder_of_string {α : Type} (key : α → String) :
    RankOrder fun x y : α => decide (key x < key y) where
  asymm := by
    intro x y h
    exact decide_eq_false (String.lt_asymm (of_decide_eq_true h))
  trans := by
    intro x y z hxy hyz
    have hyx := String.not_lt.mp (of_decide_eq_false hxy)
    have hzy := String.not_lt.mp (of_decide_eq_false hyz)
    exact decide_eq_false (String.not_lt.mpr (String.le_trans hzy hyx))

theorem rankOrder_markerBefore : RankOrder markerBefore := by
  unfold markerBefore
  exact rankOrder_of_string fun x : MatchID × UserID => x.1 ++ ":" ++ x.2

/-- The second batch covers the members that were due before the first. -/
theorem markers_gone (hc : Coherent w.store w.claims) :
    ∀ x ∈ w.store.disconnectDeadlines.due markerBefore now sweepCount,
      (w.swept now).store.disconnectDeadlines.score x = none := by
  intro x hx
  obtain ⟨-, hfirst, -⟩ := sweeps_expired now hc
  obtain ⟨-, hsecond, hgone⟩ := sweeps_swept now hc
  cases hscore : (w.expired now).store.disconnectDeadlines.score x with
  | none => exact Sweeps.score_none hsecond.markers hscore
  | some t =>
      refine hgone x (hfirst.markers.mem_due rankOrder_markerBefore hx ?_)
      rw [hscore]
      simp

/-- The first batch stays removed. -/
theorem deadlines_gone (hc : Coherent w.store w.claims) :
    ∀ m ∈ w.store.deadlines.due userBefore now sweepCount,
      (w.swept now).store.deadlines.score m = none := by
  intro m hm
  obtain ⟨-, -, hgone⟩ := sweeps_expired now hc
  obtain ⟨-, hsecond, -⟩ := sweeps_swept now hc
  exact Sweeps.score_none hsecond.deadlines (hgone m hm)

theorem sweeps_sweep (now : UnixMilli) (hc : Coherent w.store w.claims) :
    Sweeps now w (w.swept now) :=
  (sweeps_expired now hc).2.1.trans (sweeps_swept now hc).2.1

end

/-! ## Progress -/

/-- What a sweep at `now` achieves between `w` and `w'`. -/
structure Swept (now : UnixMilli) (w w' : World) : Prop where
  /-- The lowest due members of `deadlines` are gone, and their live matches ended. -/
  deadlines : ∃ ms, w.store.deadlines.IsLowest now sweepCount ms ∧ ∀ m ∈ ms,
    w'.store.deadlines.score m = none ∧
      ∀ h, w.store.matches_.get m = some h → Ended w' m h
  /-- The lowest due members of `disconnect-deadlines` are gone, and their live
      matches ended, if the deadline is not 0. -/
  markers : ∃ xs, w.store.disconnectDeadlines.IsLowest now sweepCount xs ∧ ∀ x ∈ xs,
    w'.store.disconnectDeadlines.score x = none ∧
      ∀ h, w.store.matches_.get x.1 = some h →
        w.store.disconnectDeadlines.score x ≠ some 0 → Ended w' x.1 h
  /-- A live match that is not past its time is left as it is. -/
  others : ∀ m h, w.store.matches_.get m = some h → ¬ h.Past now → Spared now w w' m h ∧
    ∀ u, w'.store.disconnectDeadlines.score (m, u) = w.store.disconnectDeadlines.score (m, u)

theorem swept_of_coherent {w : World} {now : UnixMilli} (hc : Coherent w.store w.claims) :
    Swept now w (w.swept now) := by
  have hs := sweeps_sweep now hc
  constructor
  case deadlines =>
    refine ⟨_, isLowest_due userBefore, fun m hm => ?_⟩
    have hgone := deadlines_gone hc m hm
    obtain ⟨t, ht, -⟩ := score_of_mem_due hm
    exact ⟨hgone, fun h hh => hs.ended_of_deadline hh (by rw [ht]; simp) hgone⟩
  case markers =>
    refine ⟨_, isLowest_due markerBefore, fun x hx => ?_⟩
    have hgone := markers_gone hc x hx
    obtain ⟨t, ht, -⟩ := score_of_mem_due hx
    refine ⟨hgone, fun h hh hne => hs.ended_of_marker hh ht (fun h0 => hne ?_) hgone⟩
    rw [ht, h0]
  case others =>
    intro m h hh hpast
    rcases hs.live m h hh with ⟨hspared, hmarkers⟩ | ⟨hpast', -⟩
    · refine ⟨hspared, fun u => ?_⟩
      rcases hmarkers u with heq | ⟨hzero, hnow⟩
      · exact heq
      · -- a marker 0 is past its time
        have hhas := hc.marker_has hh (by rw [hzero]; simp)
        exact absurd (Or.inr ⟨u, 0, hhas, hc.marker m u 0 h hzero hh, hnow⟩) hpast
    · exact absurd hpast' hpast

/-- Sweeps one after another, each at its instant after some time has passed. -/
inductive SweepRun : Env → List (Nat × UnixMilli) → Env → Prop where
  | nil (e : Env) : SweepRun e [] e
  | cons {e e₁ e' : Env} {d : Nat} {now : UnixMilli} {rest : List (Nat × UnixMilli)} {r : Bool}
      (h : Undisturbed ⟨e.world.after (.tick d), e.db⟩ (sweep now) e₁ r)
      (hrest : SweepRun e₁ rest e') : SweepRun e ((d, now) :: rest) e'

theorem exists_sweepRun (sweeps : List (Nat × UnixMilli)) (e : Env) :
    ∃ e', SweepRun e sweeps e' := by
  induction sweeps generalizing e with
  | nil => exact ⟨e, .nil e⟩
  | cons x rest ih =>
      obtain ⟨e₁, r, h⟩ :=
        (answerable_sweep x.2).exists_alone ⟨e.world.after (.tick x.1), e.db⟩
      obtain ⟨e', hrest⟩ := ih e₁
      exact ⟨e', .cons h hrest⟩

theorem deadlines_after_tick (w : World) (d : Nat) :
    (w.after (.tick d)).store.deadlines = w.store.deadlines := rfl

theorem markers_after_tick (w : World) (d : Nat) :
    (w.after (.tick d)).store.disconnectDeadlines = w.store.disconnectDeadlines := rfl

/-- Each sweep takes a batch off both indexes. -/
theorem dueCount_of_sweepRun {e e' : Env} {sweeps : List (Nat × UnixMilli)} {now : UnixMilli}
    (hc : Coherent e.world.store e.world.claims) (hrun : SweepRun e sweeps e')
    (hnow : ∀ x ∈ sweeps, now ≤ x.2) :
    e'.world.store.deadlines.dueCount now ≤
        e.world.store.deadlines.dueCount now - sweepCount * sweeps.length ∧
      e'.world.store.disconnectDeadlines.dueCount now ≤
        e.world.store.disconnectDeadlines.dueCount now - sweepCount * sweeps.length := by
  induction hrun with
  | nil e => simp
  | @cons e e₁ e' d t rest r h hrest ih =>
      have hc' : Coherent (e.world.after (.tick d)).store (e.world.after (.tick d)).claims :=
        coherent_after hc trivial
      obtain ⟨-, rfl⟩ := sweep_alone hc' h
      have ht : now ≤ t := hnow (d, t) List.mem_cons_self
      have hs := sweeps_sweep t hc'
      have hdl := dueCount_drained hs.deadlines ht (deadlines_gone hc')
      have hdd := dueCount_drained hs.markers ht (markers_gone hc')
      rw [deadlines_after_tick] at hdl
      rw [markers_after_tick] at hdd
      obtain ⟨hdl', hdd'⟩ := ih (sweeps_swept t hc').1 fun x hx =>
        hnow x (List.mem_cons_of_mem _ hx)
      dsimp only at hdl hdd hdl' hdd'
      rw [List.length_cons, Nat.mul_succ]
      constructor
      · exact hdl'.trans (by omega)
      · exact hdd'.trans (by omega)

/-- From every reachable state, a sweep with nothing between its calls ends
    without an error, removes the lowest due members of both indexes, ends the
    live matches among them (up to a disconnect deadline of 0) and spares the
    others; and once as many sweeps have run as the due members of an index fill
    batches, none of these is left, however much time passed between them. -/
theorem sweep_progresses {as : List Op} {w : World} (hrun : storeMachine.run as = some w)
    (db : Database) (now : UnixMilli) :
    (∃ e r, Undisturbed ⟨w, db⟩ (sweep now) e r) ∧
    (∀ e r, Undisturbed ⟨w, db⟩ (sweep now) e r → r = true ∧ e.db = db ∧ Swept now w e.world) ∧
    ∀ sweeps : List (Nat × UnixMilli), (∀ x ∈ sweeps, now ≤ x.2) →
      (∃ e, SweepRun ⟨w, db⟩ sweeps e) ∧ ∀ e, SweepRun ⟨w, db⟩ sweeps e →
        ((w.store.deadlines.dueCount now + 99) / 100 ≤ sweeps.length →
          ∀ m t, e.world.store.deadlines.score m = some t → now < t) ∧
        ((w.store.disconnectDeadlines.dueCount now + 99) / 100 ≤ sweeps.length →
          ∀ x t, e.world.store.disconnectDeadlines.score x = some t → now < t) := by
  have hc := coherent_of_run hrun
  refine ⟨(answerable_sweep now).exists_alone _, fun e r h => ?_, fun sweeps hnow => ?_⟩
  · obtain ⟨rfl, rfl⟩ := sweep_alone (e := ⟨w, db⟩) hc h
    exact ⟨rfl, rfl, swept_of_coherent hc⟩
  · refine ⟨exists_sweepRun sweeps _, fun e h => ?_⟩
    obtain ⟨hdl, hdd⟩ := dueCount_of_sweepRun (e := ⟨w, db⟩) hc h hnow
    have hcount : sweepCount = 100 := rfl
    simp only [hcount] at hdl hdd
    constructor
    · intro hk
      exact dueCount_eq_zero.mp (by omega)
    · intro hk
      exact dueCount_eq_zero.mp (by omega)

/-- Ben is gone and the encounter is over, so the one match is due in both
    indexes; one sweep leaves neither. -/
theorem sweep_progresses_markedRun :
    ∃ w e, storeMachine.run markedRun = some w ∧ SweepRun ⟨w, twoUsers⟩ [(1000, 60000)] e ∧
      (∀ m t, e.world.store.deadlines.score m = some t → 60000 < t) ∧
      ∀ x t, e.world.store.disconnectDeadlines.score x = some t → 60000 < t := by
  have hobs : (storeMachine.run markedRun).map (fun w =>
      (w.store.deadlines.dueCount 60000, w.store.disconnectDeadlines.dueCount 60000)) =
      some (1, 1) := by
    decide +kernel
  obtain ⟨w, hw, hobs⟩ := Option.map_eq_some_iff.mp hobs
  obtain ⟨hdl, hdd⟩ := Prod.mk.inj hobs
  obtain ⟨-, -, hsweeps⟩ := sweep_progresses hw twoUsers 60000
  obtain ⟨⟨e, he⟩, hall⟩ := hsweeps [(1000, 60000)] (by simp)
  obtain ⟨h1, h2⟩ := hall e he
  exact ⟨w, e, hw, he, h1 (by rw [hdl]; decide), h2 (by rw [hdd]; decide)⟩

/-- Ben disconnects 45 seconds before the Unix epoch, so his deadline is 0. -/
def zeroRun : List Op := meeting ++ [.disconnect "ben" "c2" (-45000)]

/-- The sweep at the epoch drops the member and does not end the match. -/
theorem not_ended_zeroRun :
    ∃ w h e, storeMachine.run zeroRun = some w ∧ w.store.matches_.get "m1" = some h ∧
      ("m1", "ben") ∈ w.store.disconnectDeadlines.due markerBefore 0 sweepCount ∧
      Undisturbed ⟨w, twoUsers⟩ (sweep 0) e true ∧ ¬ Ended e.world "m1" h := by
  have hobs : (storeMachine.run zeroRun).map (fun w =>
      ((w.store.matches_.get "m1").isSome,
        decide (("m1", "ben") ∈ w.store.disconnectDeadlines.due markerBefore 0 sweepCount),
        ((w.swept 0).store.matches_.get "m1").isSome)) = some (true, true, true) := by
    decide +kernel
  obtain ⟨w, hw, hobs⟩ := Option.map_eq_some_iff.mp hobs
  simp only [Prod.mk.injEq, decide_eq_true_eq] at hobs
  obtain ⟨hlive, hdue, hkept⟩ := hobs
  obtain ⟨h, hh⟩ := Option.isSome_iff_exists.mp hlive
  obtain ⟨e, r, he⟩ := (answerable_sweep 0).exists_alone ⟨w, twoUsers⟩
  obtain ⟨rfl, rfl⟩ := sweep_alone (e := ⟨w, twoUsers⟩) (coherent_of_run hw) he
  refine ⟨w, h, _, hw, hh, hdue, he, fun hended => ?_⟩
  rw [hended.forgotten.hash] at hkept
  cases hkept

end OneMinute.Discovery
