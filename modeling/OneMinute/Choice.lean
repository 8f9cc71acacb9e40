/-
  OneMinute.Choice

  Whom `tryMatch` chooses, when nothing happens between its calls and all of them
  go through.

  The candidates are sorted stably by shared interests and join time, and searched
  twice, first for a peer who is not recent.  So the one found is first by
  recency, then by shared interests, then by join time, and then by position in
  the queue (`Best`); it is claimed at once, since nobody else can have taken it.
-/

import OneMinute.Lib.Selection
import OneMinute.Matchmaking

namespace OneMinute.Discovery

/-! ## The order -/

/-- The number of shared interests. -/
def sharedCount (p : Preferences) (q : QueuedUser) : Nat :=
  (sharedInterests p.interests q.preferences.interests).length

/-- `a` is a better partner than `b` for `u` with the preferences `p`: not recent
    before recent, then with more shared interests, then longer in the queue. -/
def Better (s : Store) (u : UserID) (p : Preferences) (a b : QueuedUser) : Prop :=
  (s.isRecent u a.id = false ∧ s.isRecent u b.id = true) ∨
    (s.isRecent u a.id = s.isRecent u b.id ∧
      (sharedCount p b < sharedCount p a ∨
        (sharedCount p a = sharedCount p b ∧ a.joinedAt < b.joinedAt)))

instance (s : Store) (u : UserID) (p : Preferences) (a b : QueuedUser) :
    Decidable (Better s u p a b) :=
  inferInstanceAs (Decidable ((_ ∧ _) ∨ (_ ∧ (_ ∨ (_ ∧ _)))))

/-- An entry of the queue, of another than `u`, whose connection is its user's
    presence. -/
def Store.entry (s : Store) (u : UserID) (item : UserID × Int) : Option QueuedUser :=
  (s.preferences item.1).bind fun state =>
    if item.1 ≠ u ∧ s.presence.get item.1 = some state.connectionID then
      some ⟨item.1, state.connectionID, state.preferences, item.2⟩
    else none

/-- Those among the first hundred by (score, member). -/
def Store.present (s : Store) (u : UserID) : List QueuedUser :=
  (s.queue.range userBefore 100).filterMap (s.entry u)

/-- `q` is the best of those in `l` who suit, and of equals the first. -/
def Best (s : Store) (db : Database) (u : UserID) (p : Preferences) (l : List QueuedUser)
    (q : QueuedUser) : Prop :=
  ∃ pre post, l = pre ++ q :: post ∧ Suits db u p q ∧
    (∀ x ∈ pre, Suits db u p x → Better s u p q x) ∧
    ∀ x ∈ post, Suits db u p x → ¬ Better s u p x q

/-- `u` and `v` hold the pointers of an active match between them. -/
def Store.Together (s : Store) (u v : UserID) : Prop :=
  ∃ m h, s.userMatch.get u = some m ∧ s.userMatch.get v = some m ∧
    s.matches_.get m = some h ∧ h.a = some u ∧ h.b = some v ∧ h.state = some .active

section
variable {s : Store} {e e' : Env} {u v : UserID} {p : Preferences} {q : QueuedUser}
  {l : List QueuedUser}

theorem ranksLess_iff (a b : QueuedUser) : ranksLess p a b = true ↔
    sharedCount p b < sharedCount p a ∨
      (sharedCount p a = sharedCount p b ∧ a.joinedAt < b.joinedAt) := by
  show (if sharedCount p a = sharedCount p b then decide (a.joinedAt < b.joinedAt)
    else decide (sharedCount p b < sharedCount p a)) = true ↔ _
  split
  · next heq => simp [heq]
  · next hne => simp [hne]

theorem ranksLess_eq_false_iff (a b : QueuedUser) : ranksLess p a b = false ↔
    ¬ (sharedCount p b < sharedCount p a ∨
      (sharedCount p a = sharedCount p b ∧ a.joinedAt < b.joinedAt)) := by
  rw [← ranksLess_iff, Bool.not_eq_true]

instance : Std.Total fun a b : QueuedUser => ranksLess p b a = false where
  total := by
    intro a b
    rw [ranksLess_eq_false_iff, ranksLess_eq_false_iff]
    grind

instance : IsTrans QueuedUser fun a b => ranksLess p b a = false where
  trans := by
    intro a b c
    rw [ranksLess_eq_false_iff, ranksLess_eq_false_iff, ranksLess_eq_false_iff]
    grind

/-! ## The passes -/

/-- The first of a pass is the best, if those who are not for it are recent and
    it is the first pass. -/
theorem best_of_isFirst {second : Bool}
    (h : Selection.IsFirst (fun a b => ranksLess p b a = false) (forPass e u p second) l q)
    (hothers : ∀ x ∈ l, Suits e.db u p x → e.world.store.isRecent u x.id ≠ second →
      second = false) : Best e.world.store e.db u p l q := by
  obtain ⟨pre, post, rfl, hq, hpre, hpost⟩ := h
  obtain ⟨hsuits, hrecent⟩ := forPass_eq_true.mp hq
  have hfirst : ∀ x ∈ pre ++ q :: post, Suits e.db u p x →
      e.world.store.isRecent u x.id ≠ second →
        e.world.store.isRecent u q.id = false ∧ e.world.store.isRecent u x.id = true := by
    intro x hx hxs hne
    obtain rfl := hothers x hx hxs hne
    exact ⟨hrecent, Bool.of_not_eq_false hne⟩
  refine ⟨pre, post, rfl, hsuits, fun x hx hxs => ?_, fun x hx hxs hbetter => ?_⟩
  · by_cases hsame : e.world.store.isRecent u x.id = second
    · have hless := hpre x hx (forPass_eq_true.mpr ⟨hxs, hsame⟩)
      rw [Bool.not_eq_false, ranksLess_iff] at hless
      exact Or.inr ⟨hrecent.trans hsame.symm, hless⟩
    · exact Or.inl (hfirst x (List.mem_append_left _ hx) hxs hsame)
  · by_cases hsame : e.world.store.isRecent u x.id = second
    · have hless := hpost x hx (forPass_eq_true.mpr ⟨hxs, hsame⟩)
      rcases hbetter with ⟨hx', hq'⟩ | ⟨-, hbetter⟩
      · rw [hsame, ← hrecent, hq'] at hx'
        cases hx'
      · exact (ranksLess_eq_false_iff x q).mp hless hbetter
    · obtain ⟨hq', hx'⟩ := hfirst x (List.mem_append_right _ (List.mem_cons_of_mem _ hx)) hxs hsame
      rcases hbetter with ⟨hx'', -⟩ | ⟨heq, -⟩
      · rw [hx'] at hx''
        cases hx''
      · rw [hx', hq'] at heq
        cases heq

theorem best_of_pick (h : pick e u p = some q) :
    Best e.world.store e.db u p (e.world.store.window u) q := by
  rcases Option.or_eq_some_iff.mp h with h | ⟨hnone, h⟩
  · exact best_of_isFirst (Selection.find?_insertionSort h) fun _ _ _ _ => rfl
  · refine best_of_isFirst (Selection.find?_insertionSort h) fun x hx hxs hne => ?_
    -- the first pass was for this one
    have hfalse := Bool.eq_false_of_not_eq_true hne
    exact absurd (forPass_eq_true.mpr ⟨hxs, hfalse⟩)
      (List.find?_eq_none.mp hnone x (mem_sortCandidates.mpr hx))

/-- Without empty connection ids, the candidates are the entries with a presence. -/
theorem window_eq_present (h : ∀ x c, s.presence.get x = some c → c ≠ "") :
    s.window u = s.present u := by
  refine List.filterMap_congr fun item _ => ?_
  unfold Store.candidate Store.entry
  split
  · next hnone => rw [hnone, Option.bind_none]
  · next state hstate =>
      rw [hstate, Option.bind_some]
      refine if_congr (and_congr_right fun _ => and_iff_right_of_imp fun hp => ?_) rfl rfl
      exact h _ _ hp

theorem Meets.together (h : Meets e u v e') : e'.world.store.Together u v := by
  obtain ⟨k, rfl, rfl, -, -, hstore⟩ := h
  rw [hstore]
  refine ⟨k.matchID, k.hash ((e.world.store.matches_.get k.matchID).getD {}), ?_, ?_, ?_, rfl, rfl,
    rfl⟩
  · rw [Store.get_userMatch_claimed, if_pos (Or.inr rfl)]
  · rw [Store.get_userMatch_claimed, if_pos (Or.inl rfl)]
  · rw [Store.get_matches_claimed, if_pos rfl]

end

/-! ## After an Enqueue -/

/-- In every store that a run reaches, with every active user having a profile
    and no connection id empty: when an accepted Enqueue of `user` and then
    `tryMatch` run undisturbed, `tryMatch` ends, and whenever it ends it has
    dropped some stale entries of the window and then claimed the best of the
    present ones who suit, or done nothing else if there is none. -/
theorem tryMatch_picks_best {as : List Op} {w₀ w : World} {db : Database} {user : Profile}
    {c : ConnectionID} {p : Preferences} {now : UnixMilli} (hrun : storeMachine.run as = some w₀)
    (hids : ∀ x i, Op.connect x i ∈ as → i ≠ "")
    (hprofiles : ∀ x, db.users x = some .active → db.profiles x ≠ none)
    (hjoin : ((Op.enqueue user.id c p now).exec w₀.store).reply = .ok 1)
    (hw : w = w₀.after (.enqueue user.id c p now)) :
    (∃ e r, Undisturbed ⟨w, db⟩ (tryMatch user c p) e r) ∧
    ∀ e r, Undisturbed ⟨w, db⟩ (tryMatch user c p) e r → r = some () ∧
      ∃ t, w.store.Drops user.id (w.store.queue.range userBefore 100) t ∧
        ((∃ q, Best w.store db user.id p (w.store.present user.id) q ∧
            Meets (withStore ⟨w, db⟩ t) user.id q.id e ∧ e.world.store.Together user.id q.id) ∨
          ((∀ q ∈ w.store.present user.id, ¬ Suits db user.id p q) ∧
            e = withStore ⟨w, db⟩ t)) := by
  refine ⟨(answerable_tryMatch user c p).exists_alone _, fun e r h => ?_⟩
  have hrun' : storeMachine.run (as ++ [.enqueue user.id c p now]) = some w :=
    Machine.runFrom_concat_eq_some.mpr ⟨w₀, hrun, step_eq_some.mpr ⟨trivial, hw⟩⟩
  obtain ⟨hu, hp⟩ := queued_after_enqueue hjoin hw
  have hpresent : w.store.window user.id = w.store.present user.id :=
    window_eq_present fun x i hx => connectionID_ne_empty hrun' hids hx
  obtain ⟨hr, t, hdrops, hend⟩ :=
    tryMatch_alone (e := ⟨w, db⟩) (waiting_of_run hrun') hprofiles hu hp h
  refine ⟨hr, t, hdrops, ?_⟩
  rcases hend with ⟨q, hpick, hmeets⟩ | ⟨hnone, he⟩
  · have hbest : Best w.store db user.id p (w.store.window user.id) q :=
      best_of_pick (e := ⟨w, db⟩) hpick
    rw [hpresent] at hbest
    exact Or.inl ⟨q, hbest, hmeets, hmeets.together⟩
  · refine Or.inr ⟨fun q hq => ?_, he⟩
    rw [← hpresent] at hq
    exact not_suits_of_pick (e := ⟨w, db⟩) hnone hq

def musician : Preferences := ⟨"new_friends", ["en"], ["music"]⟩

/-- Ann queues, then Cid, who likes music, and Ben is connected. -/
def twoWait : List Op :=
  [.connect "ann" "c1", .enqueue "ann" "c1" somePreferences 0, .connect "cid" "c3",
    .enqueue "cid" "c3" musician 1, .connect "ben" "c2"]

def annWaits : QueuedUser := ⟨"ann", "c1", somePreferences, 0⟩

def cidWaits : QueuedUser := ⟨"cid", "c3", musician, 1⟩

/-- Ben, who likes music too, meets Cid. -/
theorem tryMatch_picks_best_cid : ∃ w,
    storeMachine.run (twoWait ++ [.enqueue "ben" "c2" musician 2]) = some w ∧
      ∃ e r, Undisturbed ⟨w, everyone⟩ (tryMatch ben "c2" musician) e r ∧
        e.world.store.Together "ben" "cid" := by
  have hobs : (storeMachine.run twoWait).map (fun w₀ =>
      let op : Op := .enqueue "ben" "c2" musician 2
      let w := w₀.after op
      ((op.exec w₀.store).reply.toOption, decide (w.store.present "ben" = [annWaits, cidWaits] ∧
        Better w.store "ben" musician cidWaits annWaits))) = some (some 1, true) := by
    decide +kernel
  obtain ⟨w₀, hw₀, hobs⟩ := Option.map_eq_some_iff.mp hobs
  obtain ⟨hjoin, hobs⟩ := Prod.mk.inj hobs
  obtain ⟨hpresent, hbetter⟩ := of_decide_eq_true hobs
  have hjoin : ((Op.enqueue ben.id "c2" musician 2).exec w₀.store).reply = .ok 1 :=
    reply_of_toOption hjoin
  have hsuits : Suits everyone ben.id musician cidWaits := by decide +kernel
  have hids : ∀ x i, Op.connect x i ∈ twoWait → i ≠ "" := by
    intro x i hmem
    simp only [twoWait, List.mem_cons, List.not_mem_nil, or_false, reduceCtorEq, false_or] at hmem
    rcases hmem with h | h | h
    all_goals
      cases h
      decide
  have hprofiles : ∀ x, everyone.users x = some .active → everyone.profiles x ≠ none :=
    fun _ _ => Option.some_ne_none _
  obtain ⟨⟨e, r, h⟩, hall⟩ := tryMatch_picks_best hw₀ hids hprofiles hjoin rfl
  refine ⟨_, Machine.runFrom_concat_eq_some.mpr ⟨w₀, hw₀, step_eq_some.mpr ⟨trivial, rfl⟩⟩,
    e, r, h, ?_⟩
  obtain ⟨-, t, -, ⟨q, ⟨pre, post, hl, -, -, hpost⟩, -, htogether⟩ | ⟨hnone, -⟩⟩ := hall e r h
  · have hl : [annWaits, cidWaits] = pre ++ q :: post := hpresent.symm.trans hl
    rcases pre with - | ⟨x, pre⟩
    · -- Ann is first in the queue, but Cid is better
      obtain ⟨rfl, rfl⟩ := List.cons.inj hl
      exact absurd hbetter (hpost cidWaits (List.mem_singleton_self _) hsuits)
    · obtain ⟨-, hl⟩ := List.cons.inj hl
      rcases pre with - | ⟨y, pre⟩
      · obtain ⟨rfl, -⟩ := List.cons.inj hl
        exact htogether
      · simp at hl
  · exact absurd hsuits (hnone cidWaits (hpresent ▸ List.mem_cons_of_mem _ List.mem_cons_self))

end OneMinute.Discovery
