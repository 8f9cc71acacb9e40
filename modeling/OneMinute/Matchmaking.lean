/-
  OneMinute.Matchmaking

  The matchmaking of one `queue.join`, undisturbed: what `tryMatch` does when
  nothing else happens between its calls and all of them go through.

  Candidates looks at the first hundred entries of the queue.  It finds those
  whose connection is their user's presence, whatever it drops on the way
  (`scan_alone`); each of these can be claimed, so a pass over them ends with a
  claim unless no candidate is for this pass (`tryPass_alone`).  Hence nobody
  compatible within the window is left waiting; an entry behind a hundred others
  is not seen at all.
-/

import Mathlib.Data.Fintype.EquivFin
import OneMinute.Discovery.Queue
import OneMinute.System

namespace OneMinute

open Discovery

/-! ## Undisturbed programs -/

/-- From `e`, with all calls going through and nothing between them, `p` ends in
    `e'` with `a`; the drawn match ids are new. -/
def Undisturbed {α : Type} (e : Env) (p : Proc α) (e' : Env) (a : α) : Prop :=
  Process.Alone Env.exec (fun e c => Call.fresh e.world c = true) e p e' a

/-- Every call of the program can be made. -/
abbrev Answerable {α : Type} (p : Proc α) : Prop :=
  Process.Answerable (fun (e : Env) c => Call.fresh e.world c = true) p

section
variable {α : Type} {e e' : Env} {a : α}

theorem Undisturbed.of_call {c : Call} {f : Option c.Reply → Proc α}
    (h : Undisturbed e (ask c >>= f) e' a) :
    Undisturbed (e.exec c).1 (f (e.exec c).2) e' a :=
  Process.Alone.of_call (I := api) h

theorem Undisturbed.of_script {op : Draw → Op} {f : Option Int → Proc α}
    (h : Undisturbed e (script op >>= f) e' a) :
    ∃ d, Undisturbed ⟨e.world.after (op d), e.db⟩
      (f ((op d).exec e.world.store).reply.toOption) e' a := by
  obtain ⟨d, _, h⟩ := Process.alone_ask.mp h
  exact ⟨d, h⟩

theorem undisturbed_bind {β : Type} {p : Proc β} {f : β → Proc α} :
    Undisturbed e (p >>= f) e' a ↔ ∃ e₁ b, Undisturbed e p e₁ b ∧ Undisturbed e₁ (f b) e' a :=
  Process.alone_bind

theorem undisturbed_return {b : α} : Undisturbed e (return b) e' a ↔ e' = e ∧ a = b :=
  Process.alone_done

theorem answerable_call_bind {c : Call} {f : Option c.Reply → Proc α}
    (hc : ∀ w, c.fresh w = true) (hf : ∀ r, Answerable (f r)) : Answerable (ask c >>= f) :=
  ⟨fun e => ⟨⟨0, ""⟩, hc e.world⟩, fun _ r => hf r⟩

end

/-- `randomID` can give an id that no claim has had. -/
theorem exists_fresh (w : World) : ∃ id, ∀ k ∈ w.claims, k.matchID ≠ id := by
  obtain ⟨id, hid⟩ := Infinite.exists_notMem_finset (w.claims.map Claim.matchID).toFinset
  refine ⟨id, fun k hk he => hid ?_⟩
  rw [List.mem_toFinset, ← he]
  exact List.mem_map_of_mem hk

/-! ## Candidates -/

namespace Discovery

/-- The candidate that an entry of the queue gives `u`: its connection is the
    user's presence. -/
def Store.candidate (s : Store) (u : UserID) (item : UserID × Int) : Option QueuedUser :=
  match s.preferences item.1 with
  | none => none
  | some state =>
    if item.1 ≠ u ∧ state.connectionID ≠ ""
        ∧ s.presence.get item.1 = some state.connectionID then
      some ⟨item.1, state.connectionID, state.preferences, item.2⟩
    else none

/-- `t` is `s` without some of the entries `items`, of others than `u`, whose
    connection is not their user's presence. -/
structure Store.Drops (s : Store) (u : UserID) (items : List (UserID × Int)) (t : Store) :
    Prop where
  rest : t = { s with queue := t.queue, preferences := t.preferences }
  entry : ∀ x, (t.preferences x = s.preferences x ∧ t.queue.score x = s.queue.score x) ∨
    (x ≠ u ∧ x ∈ items.map Prod.fst ∧ t.preferences x = none ∧ t.queue.score x = none ∧
      ∃ state, s.preferences x = some state ∧ s.presence.get x ≠ some state.connectionID)

section
variable {s t : Store} {u id : UserID} {score : Int} {state : QueuedState}

theorem Store.candidate_of_live (score : Int) (hstate : s.preferences id = some state)
    (hne : id ≠ u) (hid : state.connectionID ≠ "")
    (hp : s.presence.get id = some state.connectionID) :
    s.candidate u (id, score) = some ⟨id, state.connectionID, state.preferences, score⟩ := by
  unfold Store.candidate
  rw [hstate]
  exact if_pos ⟨hne, hid, hp⟩

theorem Store.candidate_of_stale (hstate : s.preferences id = some state)
    (h : id = u ∨ state.connectionID = "" ∨
      s.presence.get id ≠ some state.connectionID) :
    s.candidate u (id, score) = none := by
  unfold Store.candidate
  rw [hstate]
  refine if_neg fun hlive => ?_
  rcases h with h | h | h
  · exact hlive.1 h
  · exact hlive.2.1 h
  · exact h hlive.2.2

theorem Store.candidate_of_none (hstate : s.preferences id = none) :
    s.candidate u (id, score) = none := by
  unfold Store.candidate
  rw [hstate]

theorem Store.candidate_self (s : Store) (score : Int) : s.candidate u (u, score) = none := by
  cases hstate : s.preferences u with
  | none => exact Store.candidate_of_none hstate
  | some state => exact Store.candidate_of_stale hstate (Or.inl rfl)

/-- What a candidate says about the store it was found in. -/
theorem Store.live_of_candidate {item : UserID × Int} {q : QueuedUser}
    (h : s.candidate u item = some q) :
    q.id = item.1 ∧ q.id ≠ u ∧ s.preferences q.id = some ⟨q.connectionID, q.preferences⟩ ∧
      s.presence.get q.id = some q.connectionID := by
  unfold Store.candidate at h
  split at h
  · cases h
  · next state hstate =>
      split at h
      · next hlive =>
          cases h
          exact ⟨rfl, hlive.1, hstate, hlive.2.2⟩
      · cases h

namespace Store.Drops

variable {items items' : List (UserID × Int)}

theorem refl (s : Store) (u : UserID) (items : List (UserID × Int)) : s.Drops u items s :=
  ⟨rfl, fun _ => Or.inl ⟨rfl, rfl⟩⟩

theorem presence (h : s.Drops u items t) : t.presence = s.presence := by
  rw [h.rest]

theorem userMatch (h : s.Drops u items t) : t.userMatch = s.userMatch := by
  rw [h.rest]

theorem recent (h : s.Drops u items t) : t.recent = s.recent := by
  rw [h.rest]

theorem mono (h : s.Drops u items t) (hsub : ∀ x ∈ items, x ∈ items') : s.Drops u items' t where
  rest := h.rest
  entry := by
    intro x
    refine (h.entry x).imp_right fun ⟨hne, hx, hgone⟩ => ⟨hne, ?_, hgone⟩
    obtain ⟨item, hitem, rfl⟩ := List.mem_map.mp hx
    exact List.mem_map_of_mem (hsub item hitem)

theorem trans {r : Store} (hst : s.Drops u items t) (htr : t.Drops u items r) :
    s.Drops u items r where
  rest := by
    rw [htr.rest, hst.rest]
  entry := by
    intro x
    rcases htr.entry x with ⟨hp, hq⟩ | ⟨hne, hx, hgone, hscore, state, hstate, hstale⟩
    · rw [hp, hq]
      exact hst.entry x
    · refine Or.inr ⟨hne, hx, hgone, hscore, ?_⟩
      rcases hst.entry x with ⟨hp, _⟩ | ⟨_, _, _, _, hwhy⟩
      · exact ⟨state, hp ▸ hstate, hst.presence ▸ hstale⟩
      · exact hwhy

/-- The cleanup of an entry that is not live. -/
theorem cleanup (hne : id ≠ u) (hstate : s.preferences id = some state)
    (hstale : s.presence.get id ≠ some state.connectionID) :
    s.Drops u [(id, score)] (s.cleanupQueuedScript id state).store := by
  have hscript : s.cleanupQueuedScript id state = (s.dequeue id).answer 1 := by
    unfold Store.cleanupQueuedScript
    rw [if_neg (not_not.mpr hstate), if_neg hstale]
  rw [hscript]
  refine ⟨rfl, fun x => ?_⟩
  by_cases hx : x = id
  · subst hx
    refine Or.inr ⟨hne, List.mem_singleton_self _, if_pos rfl, ?_, state, hstate, hstale⟩
    show (s.queue.zrem x).score x = none
    rw [SortedSet.score_zrem, if_pos rfl]
  · refine Or.inl ⟨if_neg hx, ?_⟩
    show (s.queue.zrem id).score x = s.queue.score x
    rw [SortedSet.score_zrem, if_neg hx]

/-- The candidates are still the same. -/
theorem candidate (h : s.Drops u items t) (item : UserID × Int) :
    t.candidate u item = s.candidate u item := by
  obtain ⟨id, score⟩ := item
  rcases h.entry id with ⟨hp, _⟩ | ⟨_, _, hgone, _, state, hstate, hstale⟩
  · unfold Store.candidate
    rw [hp, h.presence]
  · rw [Store.candidate_of_none hgone, Store.candidate_of_stale hstate (Or.inr (Or.inr hstale))]

/-- A live entry is still there. -/
theorem live (h : s.Drops u items t) (hstate : s.preferences id = some state)
    (hp : s.presence.get id = some state.connectionID) :
    t.preferences id = some state ∧ t.queue.score id = s.queue.score id := by
  rcases h.entry id with ⟨hp', hq⟩ | ⟨_, _, _, _, other, hother, hstale⟩
  · exact ⟨hp'.trans hstate, hq⟩
  · rw [hstate] at hother
    cases hother
    exact absurd hp hstale

end Store.Drops

end

/-- The same environment with another store. -/
def withStore (e : Env) (t : Store) : Env := ⟨{ e.world with store := t }, e.db⟩

theorem after_cleanupQueued (w : World) (u : UserID) (state : QueuedState) :
    w.after (.cleanupQueued u state) =
      { w with store := (w.store.cleanupQueuedScript u state).store } := by
  have hpublished : (w.store.cleanupQueuedScript u state).published = [] := by
    unfold Store.cleanupQueuedScript
    split
    · rfl
    · split
      · rfl
      · rfl
  show World.mk _ ([] ++ w.claims)
    (w.published ++ (w.store.cleanupQueuedScript u state).published) = _
  rw [hpublished, List.append_nil]
  rfl

/-- The loop of Candidates finds the candidates among the entries it is given. -/
theorem scan_alone {u : UserID} {items : List (UserID × Int)} {e e' : Env}
    {found : List QueuedUser} (h : Undisturbed e (scan u items) e' found) :
    ∃ t, e.world.store.Drops u items t ∧ e' = withStore e t ∧
      found = items.filterMap (e.world.store.candidate u) := by
  induction items generalizing e found with
  | nil =>
      obtain ⟨rfl, rfl⟩ := undisturbed_return.mp h
      exact ⟨_, .refl _ _ _, rfl, rfl⟩
  | cons item rest ih =>
      obtain ⟨id, score⟩ := item
      -- an entry that gives no candidate
      have hskip : ∀ t₁, e.world.store.Drops u [(id, score)] t₁ →
          e.world.store.candidate u (id, score) = none →
          Undisturbed (withStore e t₁) (scan u rest) e' found →
          ∃ t, e.world.store.Drops u ((id, score) :: rest) t ∧ e' = withStore e t ∧
            found = ((id, score) :: rest).filterMap (e.world.store.candidate u) := by
        intro t₁ hdrops hnone h₁
        obtain ⟨t, hdrops', he', rfl⟩ := ih h₁
        refine ⟨t, (hdrops.mono ?_).trans (hdrops'.mono ?_), he', ?_⟩
        · exact fun x hx => List.mem_singleton.mp hx ▸ List.mem_cons_self
        · exact fun x hx => List.mem_cons_of_mem _ hx
        · rw [List.filterMap_cons_none hnone]
          exact List.filterMap_congr fun x _ => hdrops.candidate x
      unfold scan at h
      split at h
      · next hid =>
          subst hid
          exact hskip _ (.refl _ _ _) (e.world.store.candidate_self score) h
      · next hid =>
          have h := h.of_call
          dsimp only [Env.exec] at h
          cases hstate : e.world.store.preferences id with
          | none =>
              rw [hstate] at h
              exact hskip _ (.refl _ _ _) (Store.candidate_of_none hstate) h
          | some state =>
              rw [hstate] at h
              dsimp only at h
              split at h
              · next hempty =>
                  exact hskip _ (.refl _ _ _)
                    (Store.candidate_of_stale hstate (Or.inr (Or.inl hempty))) h
              · next hempty =>
                  have h := h.of_call
                  dsimp only [Env.exec] at h
                  by_cases hp : e.world.store.presence.get id = some state.connectionID
                  · simp only [hp, ne_eq, not_true_eq_false, if_false] at h
                    obtain ⟨e₁, result, h₁, h₂⟩ := undisturbed_bind.mp h
                    obtain ⟨rfl, rfl⟩ := undisturbed_return.mp h₂
                    obtain ⟨t, hdrops, he', rfl⟩ := ih h₁
                    refine ⟨t, hdrops.mono fun x hx => List.mem_cons_of_mem _ hx, he', ?_⟩
                    rw [List.filterMap_cons_some
                      (Store.candidate_of_live score hstate hid hempty hp)]
                  · simp only [ne_eq, Option.some.injEq, hp, not_false_eq_true, if_true] at h
                    obtain ⟨d, h⟩ := h.of_script
                    rw [after_cleanupQueued] at h
                    exact hskip _ (.cleanup hid hstate hp)
                      (Store.candidate_of_stale hstate (Or.inr (Or.inr hp))) h

/-! ## The two passes -/

/-- `u` holds the pointer of a match that has `u`. -/
def Store.Matched (s : Store) (u : UserID) : Prop :=
  ∃ m h, s.userMatch.get u = some m ∧ s.matches_.get m = some h ∧ h.Has u

/-- The user could be one side of a claim on this connection. -/
structure Store.Claimable (s : Store) (u : UserID) (c : ConnectionID) : Prop where
  present : s.presence.get u = some c
  free : s.userMatch.get u = none
  queued : s.queue.score u ≠ none

/-- The candidate is one that `u` with preferences `p` may meet. -/
def Suits (db : Database) (u : UserID) (p : Preferences) (q : QueuedUser) : Prop :=
  compatible p q.preferences = true ∧ db.eligiblePair u q.id = true

instance (db : Database) (u : UserID) (p : Preferences) (q : QueuedUser) :
    Decidable (Suits db u p q) :=
  inferInstanceAs (Decidable (_ ∧ _))

/-- A claim of two such users succeeds, of a recent pair when it may. -/
theorem claimScript_accepts {s : Store} {k : Claim} (hA : s.Claimable k.userA k.connectionA)
    (hB : s.Claimable k.userB k.connectionB)
    (hrecent : (s.recent.get (Store.recentKey k.userA k.userB)).isSome = k.allowRecent) :
    (s.claimScript k).reply = .ok 1 ∧ (s.claimScript k).store = s.claimed k := by
  unfold Store.claimScript
  rw [if_neg (by simp [hA.present, hB.present]), if_neg (by simp [hA.free, hB.free]),
    if_neg (by simp [hA.queued, hB.queued]), if_neg (by simp [hrecent])]
  exact ⟨rfl, rfl⟩

theorem matched_claimed (s : Store) (k : Claim) : (s.claimed k).Matched k.userA := by
  refine ⟨k.matchID, k.hash ((s.matches_.get k.matchID).getD {}), ?_, ?_, Or.inl rfl⟩
  · rw [Store.get_userMatch_claimed, if_pos (Or.inr rfl)]
  · rw [Store.get_matches_claimed, if_pos rfl]

/-- From `e` to `e'` a claim matches `u` with `v`. -/
def Meets (e : Env) (u v : UserID) (e' : Env) : Prop :=
  ∃ k : Claim, k.userA = u ∧ k.userB = v ∧ (e.world.store.claimScript k).reply = .ok 1 ∧
    e' = ⟨e.world.after (.claim k), e.db⟩ ∧ e'.world.store = e.world.store.claimed k

/-- The two have a recent key. -/
def Store.isRecent (s : Store) (u v : UserID) : Bool := (s.recent.get (Store.recentKey u v)).isSome

/-- What a pass looks for among the candidates. -/
def forPass (e : Env) (u : UserID) (p : Preferences) (second : Bool) (q : QueuedUser) : Bool :=
  decide (Suits e.db u p q) && decide (e.world.store.isRecent u q.id = second)

section
variable {e e' : Env} {user : Profile} {c : ConnectionID} {p : Preferences}

theorem Meets.matched {u v : UserID} (h : Meets e u v e') : e'.world.store.Matched u := by
  obtain ⟨k, rfl, -, -, -, hstore⟩ := h
  rw [hstore]
  exact matched_claimed _ _

theorem forPass_eq_true {second : Bool} {q : QueuedUser} {u : UserID} :
    forPass e u p second q = true ↔
      Suits e.db u p q ∧ e.world.store.isRecent u q.id = second := by
  unfold forPass
  rw [Bool.and_eq_true, decide_eq_true_eq, decide_eq_true_eq]

/-- A candidate that is eligible and for this pass is claimed. -/
theorem claimCandidate_alone {candidate : QueuedUser} {second : Bool} {r : Option Bool}
    (hprofiles : ∀ x, e.db.users x = some .active → e.db.profiles x ≠ none)
    (hu : e.world.store.Claimable user.id c)
    (hq : e.world.store.Claimable candidate.id candidate.connectionID)
    (hrecent : e.world.store.isRecent user.id candidate.id = second)
    (h : Undisturbed e (claimCandidate user c p candidate second) e' r) :
    (r = some true ∧ e.db.eligiblePair user.id candidate.id = true ∧
        Meets e user.id candidate.id e') ∨
      (r = some false ∧ e.db.eligiblePair user.id candidate.id = false ∧ e' = e) := by
  unfold claimCandidate at h
  have h := h.of_call
  dsimp only [Env.exec] at h
  cases helig : e.db.eligiblePair user.id candidate.id with
  | false =>
      rw [helig] at h
      obtain ⟨rfl, rfl⟩ := undisturbed_return.mp h
      exact Or.inr ⟨rfl, rfl, rfl⟩
  | true =>
      rw [helig] at h
      have h := h.of_call
      dsimp only [Env.exec] at h
      -- an eligible user is active, so has a profile
      have hactive : e.db.users candidate.id = some .active := by
        simp only [Database.eligiblePair, Bool.and_eq_true, decide_eq_true_eq] at helig
        exact helig.1.2
      obtain ⟨profile, hprofile⟩ := Option.ne_none_iff_exists'.mp (hprofiles _ hactive)
      have hfound : e.db.profile candidate.id = .ok profile := by
        unfold Database.profile
        rw [hactive, hprofile]
      rw [hfound] at h
      obtain ⟨d, h⟩ := h.of_script
      obtain ⟨hreply, hstore⟩ := claimScript_accepts
        (k := newClaim user c p candidate profile second d.id d.now) hu hq hrecent
      have hreply' : (Op.exec e.world.store
          (.claim (newClaim user c p candidate profile second d.id d.now))).reply = .ok 1 := hreply
      rw [hreply'] at h
      obtain ⟨rfl, rfl⟩ := undisturbed_return.mp h
      exact Or.inl ⟨rfl, rfl, _, rfl, rfl, hreply, rfl, hstore⟩

/-- A pass claims the first candidate that it is for, or there is none and nothing
    happens. -/
theorem tryPass_alone {second : Bool} {l : List QueuedUser} {r : Option Bool}
    (hprofiles : ∀ x, e.db.users x = some .active → e.db.profiles x ≠ none)
    (hu : e.world.store.Claimable user.id c)
    (hl : ∀ q ∈ l, e.world.store.Claimable q.id q.connectionID)
    (h : Undisturbed e (tryPass user c p second l) e' r) :
    (∃ q, l.find? (forPass e user.id p second) = some q ∧ r = some true ∧
        Meets e user.id q.id e') ∨
      (l.find? (forPass e user.id p second) = none ∧ r = some false ∧ e' = e) := by
  induction l with
  | nil =>
      obtain ⟨rfl, rfl⟩ := undisturbed_return.mp h
      exact Or.inr ⟨rfl, rfl, rfl⟩
  | cons q rest ih =>
      have ih := ih fun x hx => hl x (List.mem_cons_of_mem _ hx)
      -- a candidate that is left out
      have hskip : ¬ forPass e user.id p second q = true →
          Undisturbed e (tryPass user c p second rest) e' r →
          (∃ x, (q :: rest).find? (forPass e user.id p second) = some x ∧ r = some true ∧
              Meets e user.id x.id e') ∨
            ((q :: rest).find? (forPass e user.id p second) = none ∧ r = some false ∧
              e' = e) := by
        intro hout hrest
        rw [List.find?_cons_of_neg hout]
        exact ih hrest
      unfold tryPass at h
      split at h
      · next hincompatible =>
          refine hskip (fun hpass => ?_) h
          rw [(forPass_eq_true.mp hpass).1.1] at hincompatible
          cases hincompatible
      · next hcompatible =>
          have hcompatible := Bool.of_not_eq_false hcompatible
          have h := h.of_call
          dsimp only [Env.exec] at h
          by_cases hrecent : e.world.store.isRecent user.id q.id = second
          · have hasked : (e.world.store.recent.get (Store.recentKey user.id q.id)).isSome =
                second := hrecent
            simp only [hasked, ne_eq, not_true_eq_false, if_false] at h
            obtain ⟨e₁, claimed, h₁, h₂⟩ := undisturbed_bind.mp h
            rcases claimCandidate_alone hprofiles hu (hl q List.mem_cons_self) hrecent h₁ with
              ⟨rfl, heligible, hmeets⟩ | ⟨rfl, hineligible, rfl⟩
            · obtain ⟨rfl, rfl⟩ := undisturbed_return.mp h₂
              refine Or.inl ⟨q, ?_, rfl, hmeets⟩
              exact List.find?_cons_of_pos (forPass_eq_true.mpr ⟨⟨hcompatible, heligible⟩, hrecent⟩)
            · refine hskip (fun hpass => ?_) h₂
              rw [(forPass_eq_true.mp hpass).1.2] at hineligible
              cases hineligible
          · have hasked : ¬ (e.world.store.recent.get (Store.recentKey user.id q.id)).isSome =
                second := hrecent
            simp only [ne_eq, Option.some.injEq, hasked, not_false_eq_true, if_true] at h
            exact hskip (fun hpass => hrecent (forPass_eq_true.mp hpass).2) h

end

/-! ## The whole of tryMatch -/

/-- A pass can always be made: only its claims draw anything. -/
theorem answerable_tryPass (user : Profile) (c : ConnectionID) (p : Preferences) (second : Bool)
    (l : List QueuedUser) : Answerable (tryPass user c p second l) := by
  induction l with
  | nil => trivial
  | cons q rest ih =>
      unfold tryPass
      split
      · exact ih
      · refine answerable_call_bind (fun _ => rfl) fun recent => ?_
        split
        · exact ih
        · apply Process.Answerable.bind
          · refine answerable_call_bind (fun _ => rfl) fun eligible => ?_
            match eligible with
            | none => trivial
            | some false => trivial
            | some true =>
                refine answerable_call_bind (fun _ => rfl) fun profile => ?_
                match profile with
                | none => trivial
                | some profile =>
                    refine ⟨fun e => ?_, fun _ _ => trivial⟩
                    obtain ⟨id, hid⟩ := exists_fresh e.world
                    exact ⟨⟨0, id⟩, decide_eq_true hid⟩
          · intro claimed
            match claimed with
            | none => trivial
            | some true => trivial
            | some false => exact ih

theorem answerable_scan (u : UserID) (items : List (UserID × Int)) :
    Answerable (scan u items) := by
  induction items with
  | nil => trivial
  | cons item rest ih =>
      unfold scan
      split
      · exact ih
      · refine answerable_call_bind (fun _ => rfl) fun r => ?_
        match r with
        | none => exact ih
        | some none => exact ih
        | some (some state) =>
            dsimp only
            split
            · exact ih
            · refine answerable_call_bind (fun _ => rfl) fun active => ?_
              split
              · exact ⟨fun e => ⟨⟨0, ""⟩, rfl⟩, fun _ _ => ih⟩
              · exact ih.bind fun _ => trivial

theorem answerable_tryMatch (user : Profile) (c : ConnectionID) (p : Preferences) :
    Answerable (tryMatch user c p) := by
  refine Process.Answerable.bind ?_ fun found => ?_
  · refine answerable_call_bind (fun _ => rfl) fun items => ?_
    match items with
    | none => trivial
    | some items => exact (answerable_scan _ _).bind fun _ => trivial
  · match found with
    | none => trivial
    | some found =>
        refine (answerable_tryPass _ _ _ _ _).bind fun claimed => ?_
        match claimed with
        | none => trivial
        | some true => trivial
        | some false => exact (answerable_tryPass _ _ _ _ _).bind fun _ => trivial

/-- The candidates among the first hundred entries, in the order of the queue. -/
def Store.window (s : Store) (u : UserID) : List QueuedUser :=
  (s.queue.range userBefore 100).filterMap (s.candidate u)

/-- Candidates, on the first hundred entries. -/
theorem candidates_alone {u : UserID} {e e' : Env} {r : Option (List QueuedUser)}
    (h : Undisturbed e (candidates u) e' r) :
    ∃ t, e.world.store.Drops u (e.world.store.queue.range userBefore 100) t ∧
      e' = withStore e t ∧ r = some (e.world.store.window u) := by
  have h := h.of_call
  obtain ⟨e₁, found, h₁, h₂⟩ := undisturbed_bind.mp h
  obtain ⟨rfl, rfl⟩ := undisturbed_return.mp h₂
  obtain ⟨t, hdrops, rfl, rfl⟩ := scan_alone h₁
  exact ⟨t, hdrops, rfl, rfl⟩

/-- A user who waits is claimable on the connection of the entry. -/
theorem Store.Waiting.claimable {s : Store} {u : UserID} {c : ConnectionID} {p : Preferences}
    (hw : s.Waiting) (hstate : s.preferences u = some ⟨c, p⟩) (hp : s.presence.get u = some c) :
    s.Claimable u c where
  present := hp
  free := hw.free u (by simp [hstate])
  queued := mt (hw.agree u).mp (by simp [hstate])

theorem Store.Drops.claimable {s t : Store} {u v : UserID} {items : List (UserID × Int)}
    {c : ConnectionID} {p : Preferences} (h : s.Drops v items t) (hw : s.Waiting)
    (hstate : s.preferences u = some ⟨c, p⟩) (hp : s.presence.get u = some c) :
    t.Claimable u c where
  present := h.presence ▸ hp
  free := h.userMatch ▸ (hw.claimable hstate hp).free
  queued := (h.live hstate hp).2 ▸ (hw.claimable hstate hp).queued

/-- What the two passes over the sorted candidates find. -/
def pick (e : Env) (u : UserID) (p : Preferences) : Option QueuedUser :=
  let sorted := sortCandidates p (e.world.store.window u)
  (sorted.find? (forPass e u p false)).or (sorted.find? (forPass e u p true))

section
variable {e : Env} {u : UserID} {p : Preferences} {q : QueuedUser}

theorem mem_sortCandidates {l : List QueuedUser} : q ∈ sortCandidates p l ↔ q ∈ l :=
  List.mem_insertionSort _

theorem suits_of_pick (h : pick e u p = some q) :
    q ∈ e.world.store.window u ∧ Suits e.db u p q := by
  rcases Option.or_eq_some_iff.mp h with h | ⟨-, h⟩
  all_goals exact ⟨mem_sortCandidates.mp (List.mem_of_find?_eq_some h),
    (forPass_eq_true.mp (List.find?_some h)).1⟩

/-- One of the passes is for a candidate that suits. -/
theorem not_suits_of_pick (h : pick e u p = none) (hq : q ∈ e.world.store.window u) :
    ¬ Suits e.db u p q := by
  obtain ⟨hfirst, hsecond⟩ := Option.or_eq_none_iff.mp h
  have hq := mem_sortCandidates (p := p).mpr hq
  intro hsuits
  cases hrecent : e.world.store.isRecent u q.id with
  | false => exact List.find?_eq_none.mp hfirst q hq (forPass_eq_true.mpr ⟨hsuits, hrecent⟩)
  | true => exact List.find?_eq_none.mp hsecond q hq (forPass_eq_true.mpr ⟨hsuits, hrecent⟩)

end

/-- `tryMatch` of a queued user claims what the passes find, and else only drops
    stale entries. -/
theorem tryMatch_alone {e e' : Env} {user : Profile} {c : ConnectionID} {p p' : Preferences}
    {r : Option Unit} (hw : e.world.store.Waiting)
    (hprofiles : ∀ x, e.db.users x = some .active → e.db.profiles x ≠ none)
    (hstate : e.world.store.preferences user.id = some ⟨c, p'⟩)
    (hp : e.world.store.presence.get user.id = some c)
    (hmatch : Undisturbed e (tryMatch user c p) e' r) :
    r = some () ∧
      ∃ t, e.world.store.Drops user.id (e.world.store.queue.range userBefore 100) t ∧
        ((∃ q, pick e user.id p = some q ∧ Meets (withStore e t) user.id q.id e') ∨
          (pick e user.id p = none ∧ e' = withStore e t)) := by
  obtain ⟨e₁, found, h₁, hpasses⟩ := undisturbed_bind.mp hmatch
  obtain ⟨t, hdrops, rfl, rfl⟩ := candidates_alone h₁
  have hu : t.Claimable user.id c := hdrops.claimable hw hstate hp
  have hl : ∀ q ∈ sortCandidates p (e.world.store.window user.id),
      t.Claimable q.id q.connectionID := by
    intro q hq
    obtain ⟨item, _, hcand⟩ := List.mem_filterMap.mp ((List.mem_insertionSort _).mp hq)
    obtain ⟨_, _, hqstate, hqp⟩ := Store.live_of_candidate hcand
    exact hdrops.claimable hw hqstate hqp
  -- the cleanups change no recent key
  have hpass : ∀ second, forPass (withStore e t) user.id p second =
      forPass e user.id p second := by
    intro second
    funext q
    unfold forPass Store.isRecent withStore
    rw [hdrops.recent]
  obtain ⟨e₂, first, h₂, hrest⟩ := undisturbed_bind.mp hpasses
  rcases tryPass_alone (e := withStore e t) hprofiles hu hl h₂ with
    ⟨q, hq, rfl, hmeets⟩ | ⟨hfirst, rfl, rfl⟩
  · obtain ⟨rfl, rfl⟩ := undisturbed_return.mp hrest
    rw [hpass] at hq
    exact ⟨rfl, t, hdrops, Or.inl ⟨q, by rw [pick, hq, Option.some_or], hmeets⟩⟩
  · obtain ⟨e₃, second, h₃, hdone⟩ := undisturbed_bind.mp hrest
    obtain ⟨rfl, rfl⟩ := undisturbed_return.mp hdone
    rw [hpass] at hfirst
    rcases tryPass_alone (e := withStore e t) hprofiles hu hl h₃ with
      ⟨q, hq, rfl, hmeets⟩ | ⟨hsecond, rfl, rfl⟩
    · rw [hpass] at hq
      exact ⟨rfl, t, hdrops, Or.inl ⟨q, by rw [pick, hfirst, Option.none_or, hq], hmeets⟩⟩
    · rw [hpass] at hsecond
      exact ⟨rfl, t, hdrops, Or.inr ⟨by rw [pick, hfirst, Option.none_or, hsecond], rfl⟩⟩

/-! ## Nobody compatible within the window waits -/

/-- Only its Connect makes a connection a user's presence. -/
theorem presence_after {s : Store} {op : Op} {o : Outcome} {u : UserID} {c : ConnectionID}
    (he : Effect s op o) (h : o.store.presence.get u = some c) :
    s.presence.get u = some c ∨ op = .connect u c := by
  cases he with
  | connect v e =>
      by_cases huv : u = v
      · subst huv
        have h : (s.presence.put u e (some (s.ttl presenceTTL))).get u = some c := h
        rw [Keyspace.get_put, if_pos rfl] at h
        cases h
        exact Or.inr rfl
      · refine Or.inl ?_
        simpa [Store.answer, Keyspace.get_put, huv] using h
  | heartbeat v e hp =>
      refine Or.inl ?_
      unfold Store.refreshed at h
      split at h
      all_goals simpa [Store.answer] using h
  | tick d => exact Or.inl (Keyspace.get_of_get_lapse h).1
  | disconnectFree v | disconnect v =>
      have h : (s.presence.del v).get u = some c := h
      rw [Keyspace.get_del] at h
      split at h
      · cases h
      · exact Or.inl h
  | _ => exact Or.inl h

theorem connect_of_presence {as : List Op} {w : World} {u : UserID} {c : ConnectionID}
    (hrun : storeMachine.run as = some w) (h : w.store.presence.get u = some c) :
    Op.connect u c ∈ as := by
  revert h
  refine Machine.run_induction
    (P := fun as v => v.store.presence.get u = some c → Op.connect u c ∈ as) ?_ ?_ hrun
  · intro h
    cases h
  · intro as v op v' hrun hmem hstep h
    obtain ⟨_, rfl⟩ := step_eq_some.mp hstep
    rcases presence_after (exec_effect (coherent_of_run hrun).seated op) h with hold | rfl
    · exact List.mem_append_left _ (hmem hold)
    · exact List.mem_append_right _ List.mem_cons_self

/-- An accepted Enqueue is the user's entry. -/
theorem queued_after_enqueue {w₀ w : World} {u : UserID} {c : ConnectionID} {p : Preferences}
    {now : UnixMilli} (hjoin : ((Op.enqueue u c p now).exec w₀.store).reply = .ok 1)
    (hw : w = w₀.after (.enqueue u c p now)) :
    w.store.preferences u = some ⟨c, p⟩ ∧ w.store.presence.get u = some c := by
  obtain ⟨hscript, hp⟩ := enqueue_accepted hjoin
  rw [hw]
  show (w₀.store.enqueueScript u c p now).store.preferences u = _ ∧
    (w₀.store.enqueueScript u c p now).store.presence.get u = _
  rw [hscript]
  exact ⟨if_pos rfl, hp⟩

theorem connectionID_ne_empty {as : List Op} {w : World} {u x : UserID} {c i : ConnectionID}
    {p : Preferences} {now : UnixMilli}
    (hrun : storeMachine.run (as ++ [.enqueue u c p now]) = some w)
    (hids : ∀ x i, Op.connect x i ∈ as → i ≠ "") (hx : w.store.presence.get x = some i) :
    i ≠ "" := by
  have hconnect := connect_of_presence hrun hx
  rw [List.mem_append, List.mem_singleton] at hconnect
  rcases hconnect with hmem | hop
  · exact hids x i hmem
  · cases hop

/-- In every store that a run reaches, with every active user having a profile
    and no connection id empty: when an accepted Enqueue of `user` and then
    `tryMatch` run undisturbed, and one of the first hundred entries is of some
    other `v` whose presence is the entry's connection, whose preferences are
    compatible and for whom EligiblePair holds, then `tryMatch` does end, and
    whenever it ends the user is in a match. -/
theorem nobody_left_waiting {as : List Op} {w₀ w : World} {db : Database} {user : Profile}
    {c : ConnectionID} {p : Preferences} {now : UnixMilli} {v : UserID} {t : Int}
    {state : QueuedState}
    (hrun : storeMachine.run as = some w₀) (hids : ∀ x i, Op.connect x i ∈ as → i ≠ "")
    (hprofiles : ∀ x, db.users x = some .active → db.profiles x ≠ none)
    (hjoin : ((Op.enqueue user.id c p now).exec w₀.store).reply = .ok 1)
    (hw : w = w₀.after (.enqueue user.id c p now))
    (hfront : (v, t) ∈ w.store.queue.range userBefore 100) (hne : v ≠ user.id)
    (hstate : w.store.preferences v = some state)
    (hpresent : w.store.presence.get v = some state.connectionID)
    (hcompatible : compatible p state.preferences = true)
    (heligible : db.eligiblePair user.id v = true) :
    (∃ e r, Undisturbed ⟨w, db⟩ (tryMatch user c p) e r) ∧
    ∀ e r, Undisturbed ⟨w, db⟩ (tryMatch user c p) e r →
      r = some () ∧ e.world.store.Matched user.id := by
  refine ⟨(answerable_tryMatch user c p).exists_alone _, fun e r h => ?_⟩
  have hrun' : storeMachine.run (as ++ [.enqueue user.id c p now]) = some w :=
    Machine.runFrom_concat_eq_some.mpr ⟨w₀, hrun, step_eq_some.mpr ⟨trivial, hw⟩⟩
  obtain ⟨hu, hp⟩ := queued_after_enqueue hjoin hw
  have hid : state.connectionID ≠ "" := connectionID_ne_empty hrun' hids hpresent
  obtain ⟨hr, _, _, ⟨q, _, hmeets⟩ | ⟨hnone, _⟩⟩ :=
    tryMatch_alone (e := ⟨w, db⟩) (waiting_of_run hrun') hprofiles hu hp h
  · exact ⟨hr, hmeets.matched⟩
  · have hcand := Store.candidate_of_live (s := w.store) t hstate hne hid hpresent
    exact absurd ⟨hcompatible, heligible⟩
      (not_suits_of_pick hnone (List.mem_filterMap.mpr ⟨(v, t), hfront, hcand⟩))

theorem reply_of_toOption {r : Except LuaError Int} {n : Int} (h : r.toOption = some n) :
    r = .ok n := by
  cases r with
  | error e => cases h
  | ok k => rw [Option.some.inj h]

/-- Ann queues on `c1`, and Ben is connected on `c2`. -/
def annQueues : List Op :=
  [.connect "ann" "c1", .enqueue "ann" "c1" somePreferences 0, .connect "ben" "c2"]

/-- Ben's `tryMatch` ends with a match. -/
theorem nobody_left_waiting_ben : ∃ w,
    (storeMachine.run (annQueues ++ [.enqueue "ben" "c2" somePreferences 5])) = some w ∧
      ∃ e r, Undisturbed ⟨w, twoUsers⟩ (tryMatch ben "c2" somePreferences) e r ∧
        e.world.store.Matched "ben" := by
  have hobs : (storeMachine.run annQueues).map (fun w₀ =>
      let op : Op := .enqueue "ben" "c2" somePreferences 5
      let w := w₀.after op
      decide ((op.exec w₀.store).reply.toOption = some 1 ∧
        ("ann", 0) ∈ w.store.queue.range userBefore 100 ∧
        w.store.preferences "ann" = some ⟨"c1", somePreferences⟩ ∧
        w.store.presence.get "ann" = some "c1")) = some true := by
    decide +kernel
  obtain ⟨w₀, hw₀, hobs⟩ := Option.map_eq_some_iff.mp hobs
  obtain ⟨hjoin, hfront, hstate, hpresent⟩ := of_decide_eq_true hobs
  have hjoin : ((Op.enqueue ben.id "c2" somePreferences 5).exec w₀.store).reply = .ok 1 := by
    exact reply_of_toOption hjoin
  have hids : ∀ x i, Op.connect x i ∈ annQueues → i ≠ "" := by
    intro x i hmem
    simp only [annQueues, List.mem_cons, List.not_mem_nil, or_false, reduceCtorEq, false_or] at hmem
    rcases hmem with h | h
    all_goals
      cases h
      decide
  have hprofiles : ∀ x, twoUsers.users x = some .active → twoUsers.profiles x ≠ none := by
    intro x hx
    simp only [twoUsers] at hx ⊢
    split at hx
    · next h =>
        rcases h with rfl | rfl
        all_goals decide
    · cases hx
  obtain ⟨⟨e, r, h⟩, hall⟩ := nobody_left_waiting hw₀ hids hprofiles hjoin rfl hfront
    (by decide) hstate hpresent (by decide) (by decide)
  exact ⟨_, Machine.runFrom_concat_eq_some.mpr ⟨w₀, hw₀, step_eq_some.mpr ⟨trivial, rfl⟩⟩,
    e, r, h, (hall e r h).2⟩

/-! ## Behind the window -/

/-- All users are active and have a profile, and nothing else is stored. -/
def everyone : Database :=
  { twoUsers with
    users := fun _ => some .active
    profiles := fun u => some ⟨u, u, ""⟩ }

def french : Preferences := ⟨"new_friends", ["fr"], []⟩

/-- The `n`-th guest, who speaks French only. -/
def guest (n : Nat) : UserID := String.ofList (List.replicate (n + 1) 'x')

/-- `n` guests queue, all at instant 0. -/
def crowd : Nat → List Op
  | 0 => []
  | n + 1 => crowd n ++ [.connect (guest n) (guest n), .enqueue (guest n) (guest n) french 0]

/-- Ann queues after a hundred guests, and Ben is connected. -/
def behindCrowd : List Op :=
  crowd 100 ++ [.connect "ann" "c1", .enqueue "ann" "c1" somePreferences 1, .connect "ben" "c2"]

theorem guest_injective {i j : Nat} (h : guest i = guest j) : i = j := by
  have hlen := congrArg (fun x : String => x.toList.length) h
  simpa [guest] using hlen

theorem guest_ne {u : UserID} (hu : u.toList.head? ≠ some 'x') (i : Nat) : guest i ≠ u := by
  rintro rfl
  apply hu
  simp [guest, List.replicate_succ]

theorem connect_behindCrowd {x : UserID} {i : ConnectionID} (h : Op.connect x i ∈ behindCrowd) :
    i ≠ "" := by
  have hguests : ∀ n, Op.connect x i ∈ crowd n → i ≠ "" := by
    intro n
    induction n with
    | zero => exact fun h => nomatch h
    | succ n ih =>
        intro h
        rcases List.mem_append.mp h with h | h
        · exact ih h
        · simp only [List.mem_cons, List.not_mem_nil, Op.connect.injEq, reduceCtorEq,
            or_false] at h
          rw [h.2]
          exact guest_ne (by decide) n
  rcases List.mem_append.mp h with h | h
  · exact hguests 100 h
  · simp only [List.mem_cons, List.not_mem_nil, Op.connect.injEq, reduceCtorEq, or_false,
      false_or] at h
    rcases h with ⟨_, rfl⟩ | ⟨_, rfl⟩
    all_goals decide

/-- Nothing but `n` guests in the queue. -/
structure Crowded (n : Nat) (s : Store) : Prop where
  guests : ∀ e ∈ s.queue.entries, e.2 = 0 ∧ ∃ i < n, e.1 = guest i
  length : s.queue.entries.length = n
  speak : ∀ x state, s.preferences x = some state → state.preferences = french
  free : ∀ x, s.userMatch.get x = none

/-- The store after a free user connects and queues. -/
def Store.arrived (s : Store) (u : UserID) (c : ConnectionID) (p : Preferences)
    (now : UnixMilli) : Store :=
  ((Op.connect u c).exec s).store.enqueued u c p now

theorem preferences_arrived (s : Store) (u : UserID) (c : ConnectionID) (p : Preferences)
    (now : UnixMilli) (x : UserID) :
    (s.arrived u c p now).preferences x = if x = u then some ⟨c, p⟩ else s.preferences x :=
  rfl

theorem presence_arrived (s : Store) (u : UserID) (c : ConnectionID) (p : Preferences)
    (now : UnixMilli) (x : UserID) :
    (s.arrived u c p now).presence.get x = if x = u then some c else s.presence.get x :=
  Keyspace.get_put _ _ _ _ _

theorem entries_arrived {s : Store} {u : UserID} {c : ConnectionID} {p : Preferences}
    {now : UnixMilli} (h : ∀ e ∈ s.queue.entries, e.1 ≠ u) :
    (s.arrived u c p now).queue.entries = (u, now) :: s.queue.entries :=
  SortedSet.entries_zadd_new now h

theorem enqueue_arrived {s : Store} {u : UserID} {c : ConnectionID} {p : Preferences}
    {now : UnixMilli} (hfree : s.userMatch.get u = none) :
    (Op.enqueue u c p now).exec ((Op.connect u c).exec s).store =
      (s.arrived u c p now).answer 1 := by
  have hp : ((Op.connect u c).exec s).store.presence.get u = some c := by
    show (s.presence.put u c (some (s.ttl presenceTTL))).get u = some c
    rw [Keyspace.get_put, if_pos rfl]
  have hm : ((Op.connect u c).exec s).store.userMatch.get u = none := hfree
  show Store.enqueueScript _ u c p now = _
  unfold Store.enqueueScript
  rw [if_neg (by simp [hp, hm])]
  rfl

theorem Crowded.succ {n : Nat} {s : Store} (h : Crowded n s) :
    Crowded (n + 1) (s.arrived (guest n) (guest n) french 0) := by
  have hentries : (s.arrived (guest n) (guest n) french 0).queue.entries =
      (guest n, 0) :: s.queue.entries := by
    apply entries_arrived
    intro e he heq
    obtain ⟨_, i, hi, hguest⟩ := h.guests e he
    have := guest_injective (hguest.symm.trans heq)
    omega
  constructor
  · rw [hentries]
    refine List.forall_mem_cons.mpr ⟨⟨rfl, n, Nat.lt_succ_self n, rfl⟩, fun e he => ?_⟩
    obtain ⟨hzero, i, hi, hguest⟩ := h.guests e he
    exact ⟨hzero, i, Nat.lt_succ_of_lt hi, hguest⟩
  · rw [hentries, List.length_cons, h.length]
  · intro x state hx
    rw [preferences_arrived] at hx
    split at hx
    · cases hx
      rfl
    · exact h.speak x state hx
  · exact h.free

theorem crowded_of_crowd (n : Nat) :
    ∃ w, storeMachine.run (crowd n) = some w ∧ Crowded n w.store := by
  induction n with
  | zero =>
      exact ⟨.empty, rfl, (fun e he => nomatch he), rfl, (fun x state hx => nomatch hx),
        fun _ => rfl⟩
  | succ n ih =>
      obtain ⟨w, hrun, h⟩ := ih
      refine ⟨(w.after (.connect (guest n) (guest n))).after
        (.enqueue (guest n) (guest n) french 0), ?_, ?_⟩
      · exact Machine.runFrom_append_eq_some.mpr ⟨w, hrun, rfl⟩
      · show Crowded (n + 1) ((Op.enqueue _ _ _ _).exec (Op.exec w.store _).store).store
        rw [enqueue_arrived (h.free _)]
        exact h.succ

/-- The store when Ann and then Ben have queued behind a crowd. -/
theorem window_behind {s : Store} (h : Crowded 100 s) :
    let t := (s.arrived "ann" "c1" somePreferences 1).arrived "ben" "c2" somePreferences 2
    t.queue.score "ann" = some 1 ∧
      ∀ item ∈ t.queue.range userBefore 100, ∀ q, t.candidate "ben" item = some q →
        q.preferences = french := by
  have hann : (s.arrived "ann" "c1" somePreferences 1).queue.entries =
      ("ann", 1) :: s.queue.entries := by
    apply entries_arrived
    intro e he heq
    obtain ⟨_, i, _, hguest⟩ := h.guests e he
    exact guest_ne (by decide) i (hguest.symm.trans heq)
  have hben : ((s.arrived "ann" "c1" somePreferences 1).arrived "ben" "c2"
      somePreferences 2).queue.entries = ("ben", 2) :: ("ann", 1) :: s.queue.entries := by
    rw [← hann]
    apply entries_arrived
    rw [hann]
    refine List.forall_mem_cons.mpr ⟨by decide, fun e he heq => ?_⟩
    obtain ⟨_, i, _, hguest⟩ := h.guests e he
    exact guest_ne (by decide) i (hguest.symm.trans heq)
  refine ⟨?_, fun item hitem q hcand => ?_⟩
  · rw [← SortedSet.mem_entries_iff, hben]
    exact List.mem_cons_of_mem _ List.mem_cons_self
  · have hfull : 100 ≤ (((s.arrived "ann" "c1" somePreferences 1).arrived "ben" "c2"
        somePreferences 2).queue.entries.filter fun e => decide (e.2 < 1)).length := by
      rw [hben, List.filter_cons_of_neg (by decide), List.filter_cons_of_neg (by decide),
        List.filter_eq_self.mpr fun e he => by simp [(h.guests e he).1], h.length]
    have hlow := SortedSet.range_below hfull item hitem
    have hmem := SortedSet.mem_of_mem_range hitem
    rw [hben] at hmem
    obtain ⟨hq, hne, hstate, _⟩ := Store.live_of_candidate hcand
    rcases List.mem_cons.mp hmem with rfl | hmem
    · exact absurd hlow (by decide)
    · rcases List.mem_cons.mp hmem with rfl | hmem
      · exact absurd hlow (by decide)
      -- a guest
      · obtain ⟨_, i, _, hguest⟩ := h.guests item hmem
        have hann' : q.id ≠ "ann" := by
          rw [hq, hguest]
          exact guest_ne (by decide) i
        rw [preferences_arrived, if_neg hne, preferences_arrived, if_neg hann'] at hstate
        exact h.speak _ _ hstate

/-- Ann and then Ben join behind the crowd. -/
theorem joined_behindCrowd : ∃ s w₀, Crowded 100 s ∧ storeMachine.run behindCrowd = some w₀ ∧
    (Op.enqueue "ben" "c2" somePreferences 2).exec w₀.store =
      ((s.arrived "ann" "c1" somePreferences 1).arrived "ben" "c2" somePreferences 2).answer 1 := by
  obtain ⟨w, hrun, hcrowd⟩ := crowded_of_crowd 100
  have hann : (Op.enqueue "ann" "c1" somePreferences 1).exec
      ((Op.connect "ann" "c1").exec w.store).store =
        (w.store.arrived "ann" "c1" somePreferences 1).answer 1 :=
    enqueue_arrived (hcrowd.free "ann")
  refine ⟨w.store, _, hcrowd, Machine.runFrom_append_eq_some.mpr ⟨w, hrun, rfl⟩, ?_⟩
  show (Op.exec (Op.exec (Op.exec (Op.exec w.store _).store _).store _).store _) = _
  rw [hann]
  exact enqueue_arrived (hcrowd.free "ben")

/-- With Ann behind a hundred guests whom Ben cannot meet, everything else is as
    `nobody_left_waiting` asks: she is queued on her presence, compatible and
    eligible.  Ben's `tryMatch` ends without a match. -/
theorem unseen_behind_crowd : ∃ w₀ w, storeMachine.run behindCrowd = some w₀ ∧
    (∀ x i, Op.connect x i ∈ behindCrowd → i ≠ "") ∧
    (∀ x, everyone.users x = some .active → everyone.profiles x ≠ none) ∧
    ((Op.enqueue "ben" "c2" somePreferences 2).exec w₀.store).reply = .ok 1 ∧
    w = w₀.after (.enqueue "ben" "c2" somePreferences 2) ∧
    w.store.queue.score "ann" = some 1 ∧
    w.store.preferences "ann" = some ⟨"c1", somePreferences⟩ ∧
    w.store.presence.get "ann" = some "c1" ∧
    compatible somePreferences somePreferences = true ∧
    everyone.eligiblePair "ben" "ann" = true ∧
    ∃ e, Undisturbed ⟨w, everyone⟩ (tryMatch ben "c2" somePreferences) e (some ()) ∧
      e.world.store.userMatch.get "ben" = none := by
  obtain ⟨s, w₀, hcrowd, hw₀, hjoin⟩ := joined_behindCrowd
  obtain ⟨hscore, hwindow⟩ := window_behind hcrowd
  obtain ⟨w₁, hafter⟩ : ∃ w₁, w₁ = w₀.after (.enqueue "ben" "c2" somePreferences 2) := ⟨_, rfl⟩
  have hrun₁ :
      storeMachine.run (behindCrowd ++ [.enqueue "ben" "c2" somePreferences 2]) = some w₁ :=
    Machine.runFrom_concat_eq_some.mpr ⟨w₀, hw₀, step_eq_some.mpr ⟨trivial, hafter⟩⟩
  have hw₁ : w₁.store =
      (s.arrived "ann" "c1" somePreferences 1).arrived "ben" "c2" somePreferences 2 := by
    rw [hafter]
    exact congrArg Outcome.store hjoin
  have hstate (x : UserID) :
      w₁.store.preferences x = if x = "ben" then some ⟨"c2", somePreferences⟩
        else if x = "ann" then some ⟨"c1", somePreferences⟩ else s.preferences x := by
    rw [hw₁, preferences_arrived, preferences_arrived]
  have hpresent (x : UserID) : w₁.store.presence.get x = if x = "ben" then some "c2"
      else if x = "ann" then some "c1" else s.presence.get x := by
    rw [hw₁, presence_arrived, presence_arrived]
  obtain ⟨e, r, hdone⟩ :=
    (answerable_tryMatch ben "c2" somePreferences).exists_alone ⟨w₁, everyone⟩
  have hprofiles : ∀ x, everyone.users x = some .active → everyone.profiles x ≠ none :=
    fun x _ => Option.some_ne_none _
  obtain ⟨rfl, t, hdrops, hend⟩ := tryMatch_alone (e := ⟨w₁, everyone⟩) (waiting_of_run hrun₁)
    hprofiles (hstate "ben") (hpresent "ben") hdone
  refine ⟨w₀, w₁, hw₀, fun _ _ => connect_behindCrowd, hprofiles, congrArg Outcome.reply hjoin,
    hafter, ?_, hstate "ann", hpresent "ann", by decide, by decide, e, hdone, ?_⟩
  · rw [hw₁]
    exact hscore
  · rcases hend with ⟨q, hpick, _⟩ | ⟨_, rfl⟩
    · obtain ⟨hmem, hsuits⟩ := suits_of_pick hpick
      obtain ⟨item, hitem, hcand⟩ := List.mem_filterMap.mp hmem
      dsimp only at hitem hcand
      rw [hw₁] at hitem hcand
      have hfrench := hwindow item hitem q hcand
      have hcompatible := hsuits.1
      rw [hfrench] at hcompatible
      exact absurd hcompatible (by decide)
    · show t.userMatch.get "ben" = none
      rw [hdrops.userMatch, hw₁]
      exact hcrowd.free "ben"

end Discovery

end OneMinute
