/-
  OneMinute.Parting

  Which matches a block ends, undisturbed.

  The block handler is authorized by the current match or by a connection, and
  then ends the match that the body names, if it names one.  Neither looks at
  what the other is about: with a connection alone the match of the two goes on,
  and with both ids the caller's match with somebody else can be ended.

    * `block_undisturbed`           — what the handler does, by its answer;
    * `NamesEncounter`              — the body names the match of the two;
    * `block_ends_encounter_iff`    — exactly then it ends what it concerns.
-/

import OneMinute.Discovery.Effects
import OneMinute.Matchmaking

namespace OneMinute

open Discovery

/-! ## Matches -/

namespace Discovery

/-- `m` is a live match between `u` and `v`. -/
def Store.Joins (s : Store) (m : MatchID) (u v : UserID) : Prop :=
  ∃ h ∈ s.matches_.get m, h.Between u v

/-- The live match `m` of `u` and `v` is in `s'` as it is in `s`. -/
structure Store.Untouched (s s' : Store) (m : MatchID) (u v : UserID) : Prop where
  hash : s'.matches_.get m = s.matches_.get m
  expiry : s'.matches_.expiry m = s.matches_.expiry m
  pointers : ∀ x, x = u ∨ x = v → (s'.userMatch.get x = some m ↔ s.userMatch.get x = some m)
  deadline : s'.deadlines.score m = s.deadlines.score m
  disconnects : ∀ x, s'.disconnectDeadlines.score (m, x) = s.disconnectDeadlines.score (m, x)

section
variable {s : Store} {m x : MatchID} {u v w : UserID}

theorem Store.Untouched.refl (s : Store) (m : MatchID) (u v : UserID) : s.Untouched s m u v :=
  ⟨rfl, rfl, fun _ _ => Iff.rfl, rfl, fun _ => rfl⟩

/-- The participant opposite `u` is determined. -/
theorem MatchHash.Between.unique {h : MatchHash} (hv : h.Between u v) (hw : h.Between u w) :
    v = w := by
  obtain ⟨huv, ⟨ha, hb⟩ | ⟨ha, hb⟩⟩ := hv <;> obtain ⟨huw, ⟨ha', hb'⟩ | ⟨ha', hb'⟩⟩ := hw
  · rw [hb] at hb'
    exact Option.some.inj hb'
  · rw [ha] at ha'
    exact absurd (Option.some.inj ha') huw
  · rw [ha] at ha'
    exact absurd (Option.some.inj ha').symm huv
  · rw [ha] at ha'
    exact Option.some.inj ha'

theorem Store.Joins.unique (hv : s.Joins m u v) (hw : s.Joins m u w) : v = w := by
  obtain ⟨h, hh, hv⟩ := hv
  obtain ⟨h', hh', hw⟩ := hw
  rw [Option.mem_def.mp hh] at hh'
  cases hh'
  exact hv.unique hw

/-- The match between `u` and `v` is over once it is finished. -/
theorem Store.finish_joins (h : s.Joins m u v) (reason : EndReason) :
    ∃ a b, (s.finish m reason).store = s.closed m a b ∧ (a = u ∧ b = v ∨ a = v ∧ b = u) := by
  obtain ⟨h, hh, _, hab⟩ := h
  rcases hab with ⟨ha, hb⟩ | ⟨ha, hb⟩
  · exact ⟨u, v, by rw [finish_eq hh ha hb]; rfl, Or.inl ⟨rfl, rfl⟩⟩
  · exact ⟨v, u, by rw [finish_eq hh ha hb]; rfl, Or.inr ⟨rfl, rfl⟩⟩

/-- Finishing a match leaves the other hashes and their entries alone. -/
theorem Store.finish_other (hx : x ≠ m) (reason : EndReason) :
    (s.finish m reason).store.matches_.get x = s.matches_.get x ∧
      (s.finish m reason).store.matches_.expiry x = s.matches_.expiry x ∧
      (s.finish m reason).store.deadlines.score x = s.deadlines.score x ∧
      ∀ y, (s.finish m reason).store.disconnectDeadlines.score (x, y) =
        s.disconnectDeadlines.score (x, y) := by
  have hpair : ∀ y z : UserID, ¬ ((x, y) = (m, z)) := fun y z e => hx (Prod.mk.inj e).1
  unfold Store.finish
  cases s.hget m MatchHash.a <;> cases s.hget m MatchHash.b <;>
    simp [Keyspace.get_del, Keyspace.expiry_del, SortedSet.score_zrem, hx, hpair]

/-- A finished match joins nobody. -/
theorem Store.not_joins_finish (reason : EndReason) :
    ¬ (s.finish m reason).store.Joins m u v := by
  rintro ⟨h, hh, hbetween⟩
  have hkept : s.Joins m u v := by
    refine ⟨h, ?_, hbetween⟩
    unfold Store.finish at hh
    cases ha : s.hget m MatchHash.a <;> cases hb : s.hget m MatchHash.b <;>
      simp [ha, hb, Keyspace.get_del] at hh ⊢ <;> exact hh
  obtain ⟨a, b, hclosed, _⟩ := Store.finish_joins hkept reason
  rw [hclosed] at hh
  simp [Store.closed, Keyspace.get_del] at hh

/-- It drops the pointers of the two participants. -/
theorem Store.finish_userMatch (reason : EndReason) (y : UserID) :
    (s.finish m reason).store.userMatch.get y =
      if s.hget m MatchHash.a = some y ∨ s.hget m MatchHash.b = some y then none
      else s.userMatch.get y := by
  unfold Store.finish
  cases ha : s.hget m MatchHash.a with
  | none =>
      cases hb : s.hget m MatchHash.b with
      | none => simp
      | some b => simp [Keyspace.get_del, eq_comm]
  | some a =>
      cases hb : s.hget m MatchHash.b with
      | none => simp [Keyspace.get_del, eq_comm]
      | some b =>
          simp only [Keyspace.get_del, Option.some.injEq, eq_comm (a := y)]
          by_cases hya : a = y <;> by_cases hyb : b = y <;> simp [hya, hyb]

end

end Discovery

/-! ## The handler -/

namespace Social

section
variable {e e' : Env} {u : UserID} {body : BlockBody} {status : Nat}

/-- The body names the current match of `u` and its other participant. -/
def BlockBody.InMatch (body : BlockBody) (e : Env) (u : UserID) : Prop :=
  body.matchID ≠ "" ∧ ∃ m, e.world.store.currentMatch u = .ok (some m) ∧ m.id = body.matchID ∧
    peer m u = body.targetUserID

/-- The body names an active connection of `u` and its other participant. -/
def BlockBody.Connected (body : BlockBody) (e : Env) (u : UserID) : Prop :=
  body.connectionID ≠ "" ∧
    e.db.connectionPeer u body.connectionID = some (some body.targetUserID)

/-- The request is valid and authorized, and the block can be inserted. -/
structure BlockBody.Admitted (body : BlockBody) (e : Env) (u : UserID) : Prop where
  target : body.targetUserID ≠ "" ∧ body.targetUserID ≠ u
  context : body.InMatch e u ∨ body.Connected e u
  known : e.db.knows u body.targetUserID = true

/-- The matches after an admitted block. -/
def BlockBody.world (body : BlockBody) (e : Env) (u : UserID) : World :=
  if body.matchID = "" then e.world else e.world.after (.endForUser u body.matchID .blocked)

theorem undisturbed_currentMatch {r : Option (Option MatchState)}
    (h : Undisturbed e (currentMatch u) e' r) :
    e' = e ∧ r = (e.world.store.currentMatch u).toOption := by
  have h := h.of_call
  simp only [Env.exec] at h
  unfold Store.currentMatch
  cases hm : e.world.store.userMatch.get u with
  | none =>
      rw [hm] at h
      exact undisturbed_return.mp h
  | some m =>
      rw [hm] at h
      have h := h.of_call
      simp only [Env.exec] at h
      cases hstate : e.world.store.matchState m with
      | error err =>
          rw [hstate] at h
          obtain ⟨rfl, rfl⟩ := undisturbed_return.mp h
          exact ⟨rfl, by simp only [hstate]; rfl⟩
      | ok found =>
          rw [hstate] at h
          obtain ⟨rfl, rfl⟩ := undisturbed_return.mp h
          exact ⟨rfl, by simp only [hstate]; rfl⟩

theorem undisturbed_inMatchWith {b : Bool} (h : Undisturbed e (inMatchWith u body) e' b) :
    e' = e ∧ (b = true ↔ body.InMatch e u) := by
  unfold inMatchWith at h
  split at h
  · next hempty =>
      obtain ⟨rfl, rfl⟩ := undisturbed_return.mp h
      exact ⟨rfl, iff_of_false (by decide) fun hin => hin.1 hempty⟩
  · next hne =>
      obtain ⟨e₁, r, hread, h⟩ := undisturbed_bind.mp h
      obtain ⟨rfl, rfl⟩ := undisturbed_currentMatch hread
      unfold BlockBody.InMatch
      cases hcurrent : e₁.world.store.currentMatch u with
      | error err =>
          rw [hcurrent] at h
          obtain ⟨rfl, rfl⟩ := undisturbed_return.mp h
          exact ⟨rfl, iff_of_false (by decide) fun ⟨_, _, hm, _⟩ => nomatch hm⟩
      | ok found =>
          rw [hcurrent] at h
          cases found with
          | none =>
              obtain ⟨rfl, rfl⟩ := undisturbed_return.mp h
              exact ⟨rfl, iff_of_false (by decide) fun ⟨_, _, hm, _⟩ => nomatch hm⟩
          | some m =>
              obtain ⟨rfl, rfl⟩ := undisturbed_return.mp h
              refine ⟨rfl, ?_⟩
              rw [Bool.and_eq_true, decide_eq_true_eq, decide_eq_true_eq]
              constructor
              · rintro ⟨hid, hpeer⟩
                exact ⟨hne, m, rfl, hid, hpeer⟩
              · rintro ⟨_, _, hm, hid, hpeer⟩
                cases hm
                exact ⟨hid, hpeer⟩

theorem undisturbed_connectedTo {b : Bool} (h : Undisturbed e (connectedTo u body) e' b) :
    e' = e ∧ (b = true ↔ body.Connected e u) := by
  unfold connectedTo at h
  unfold BlockBody.Connected
  split at h
  · next hempty =>
      obtain ⟨rfl, rfl⟩ := undisturbed_return.mp h
      exact ⟨rfl, iff_of_false (by decide) fun hin => hin.1 hempty⟩
  · next hne =>
      have h := h.of_call
      simp only [Env.exec] at h
      cases hpeer : e.db.connectionPeer u body.connectionID with
      | none =>
          rw [hpeer] at h
          obtain ⟨rfl, rfl⟩ := undisturbed_return.mp h
          exact ⟨rfl, iff_of_false (by decide) fun ⟨_, ht⟩ => nomatch ht⟩
      | some found =>
          rw [hpeer] at h
          cases found with
          | none =>
              obtain ⟨rfl, rfl⟩ := undisturbed_return.mp h
              exact ⟨rfl, iff_of_false (by decide) fun ⟨_, ht⟩ => nomatch ht⟩
          | some target =>
              obtain ⟨rfl, rfl⟩ := undisturbed_return.mp h
              refine ⟨rfl, ?_⟩
              rw [decide_eq_true_eq, Option.some.injEq, Option.some.injEq]
              exact (and_iff_right hne).symm

/-- Block inserts for two users that there are. -/
theorem block_cases (db : Database) {target : UserID} (hne : target ≠ u) (now : UnixMilli) :
    (db.knows u target = true ∧ ∃ db', db.block u target now = .ok db') ∨
      (db.knows u target = false ∧ ∃ err, db.block u target now = .error err) := by
  unfold Database.block BlockTable.insert
  cases hknown : db.knows u target with
  | false => exact Or.inr ⟨rfl, .foreignKey, rfl⟩
  | true =>
      refine Or.inl ⟨rfl, ?_⟩
      rw [dif_neg (Ne.symm hne)]
      split <;> exact ⟨_, rfl⟩

theorem undisturbed_carryOut (hne : body.targetUserID ≠ u)
    (h : Undisturbed e (carryOut u body) e' status) :
    (e.db.knows u body.targetUserID = true ∧ status = 204 ∧ e'.world = body.world e u ∧
      ∃ now, e.db.block u body.targetUserID now = .ok e'.db) ∨
      (e.db.knows u body.targetUserID = false ∧ status = 500 ∧ e' = e) := by
  obtain ⟨d, _, h⟩ := Process.alone_ask.mp h
  simp only [Env.exec] at h
  rcases block_cases e.db hne d.now with ⟨hknown, db', hblock⟩ | ⟨hunknown, err, hblock⟩
  · rw [hblock] at h
    refine Or.inl ⟨hknown, ?_⟩
    unfold BlockBody.world
    by_cases hempty : body.matchID = ""
    · rw [if_pos hempty]
      change Undisturbed _ (if body.matchID = "" then _ else _) _ _ at h
      rw [if_pos hempty] at h
      obtain ⟨rfl, rfl⟩ := undisturbed_return.mp h
      exact ⟨rfl, rfl, d.now, hblock⟩
    · rw [if_neg hempty]
      change Undisturbed _ (if body.matchID = "" then _ else _) _ _ at h
      rw [if_neg hempty] at h
      obtain ⟨_, h⟩ := h.of_script
      obtain ⟨rfl, rfl⟩ := undisturbed_return.mp h
      exact ⟨rfl, rfl, d.now, hblock⟩
  · rw [hblock] at h
    obtain ⟨rfl, rfl⟩ := undisturbed_return.mp h
    exact Or.inr ⟨hunknown, rfl, rfl⟩

/-- The handler, its checks in a row. -/
theorem block_eq (u : UserID) (body : BlockBody) : block u body =
    if body.targetUserID = "" ∨ body.targetUserID = u then return 400
    else inMatchWith u body >>= fun inMatch =>
      (if inMatch then pure true else connectedTo u body) >>= fun authorized =>
        if authorized = false then return 403 else carryOut u body := by
  unfold block
  refine if_congr Iff.rfl rfl (congrArg _ (funext fun inMatch => ?_))
  cases inMatch <;> rfl

/-- An admitted block is carried out and answered 204; any other answer is an
    error that changes nothing. -/
theorem block_undisturbed (h : Undisturbed e (block u body) e' status) :
    (body.Admitted e u ∧ status = 204 ∧ e'.world = body.world e u ∧
      ∃ now, e.db.block u body.targetUserID now = .ok e'.db) ∨
      (¬ body.Admitted e u ∧ status ≠ 204 ∧ e' = e) := by
  rw [block_eq] at h
  split at h
  · next hinvalid =>
      obtain ⟨rfl, rfl⟩ := undisturbed_return.mp h
      refine Or.inr ⟨fun hadmitted => ?_, by decide, rfl⟩
      exact hinvalid.elim hadmitted.target.1 hadmitted.target.2
  · next hvalid =>
      rw [not_or] at hvalid
      obtain ⟨e₁, inMatch, hmatch, hrest⟩ := undisturbed_bind.mp h
      obtain ⟨e₂, authorized, hcontext, hend⟩ := undisturbed_bind.mp hrest
      obtain ⟨rfl, hinMatch⟩ := undisturbed_inMatchWith hmatch
      have hauthorized : e₂ = e₁ ∧
          (authorized = true ↔ body.InMatch e₁ u ∨ body.Connected e₁ u) := by
        cases inMatch with
        | true =>
            obtain ⟨rfl, rfl⟩ := undisturbed_return.mp hcontext
            exact ⟨rfl, iff_of_true rfl (Or.inl (hinMatch.mp rfl))⟩
        | false =>
            obtain ⟨rfl, hconnected⟩ := undisturbed_connectedTo hcontext
            refine ⟨rfl, hconnected.trans (or_iff_right fun hin => ?_).symm⟩
            exact absurd (hinMatch.mpr hin) (by decide)
      obtain ⟨rfl, hauthorized⟩ := hauthorized
      split at hend
      · next hfalse =>
          obtain ⟨rfl, rfl⟩ := undisturbed_return.mp hend
          refine Or.inr ⟨fun hadmitted => ?_, by decide, rfl⟩
          rw [hauthorized.mpr hadmitted.context] at hfalse
          cases hfalse
      · next htrue =>
          rw [Bool.not_eq_false] at htrue
          rcases undisturbed_carryOut hvalid.2 hend with ⟨hknown, hdone⟩ | ⟨hunknown, rfl, rfl⟩
          · exact Or.inl ⟨⟨hvalid, hauthorized.mp htrue, hknown⟩, hdone⟩
          · refine Or.inr ⟨fun hadmitted => ?_, by decide, rfl⟩
            rw [hadmitted.known] at hunknown
            cases hunknown

/-- All its calls can be made. -/
theorem answerable_block (u : UserID) (body : BlockBody) : Answerable (block u body) := by
  have hdone : ∀ n : Nat, Answerable (return n : Proc Nat) := fun _ => trivial
  have hmatch : Answerable (inMatchWith u body) := by
    unfold inMatchWith
    split
    · trivial
    · refine Process.Answerable.bind ?_ fun r => ?_
      · refine answerable_call_bind (fun _ => rfl) fun r => ?_
        split
        · trivial
        · trivial
        · refine answerable_call_bind (fun _ => rfl) fun r => ?_
          split <;> trivial
      · split <;> trivial
  have hconnected : Answerable (connectedTo u body) := by
    unfold connectedTo
    split
    · trivial
    · refine answerable_call_bind (fun _ => rfl) fun r => ?_
      split <;> trivial
  rw [block_eq]
  split
  · trivial
  · refine hmatch.bind fun inMatch => Process.Answerable.bind ?_ fun authorized => ?_
    · split
      · trivial
      · exact hconnected
    · split
      · trivial
      · refine ⟨fun e => ⟨⟨0, ""⟩, rfl⟩, fun x r => ?_⟩
        cases r with
        | none => trivial
        | some done =>
            change Answerable (if body.matchID = "" then _ else _)
            split
            · trivial
            · exact ⟨fun e => ⟨⟨0, ""⟩, rfl⟩, fun _ _ => trivial⟩

end

/-! ## What a block ends -/

/-- A block ends exactly the encounter that it concerns: an error changes
    nothing; afterwards the two share no live match, and what `u` has with
    others stays. -/
structure EndsEncounter (u : UserID) (body : BlockBody) (e e' : Env) (status : Nat) : Prop where
  refused : status ≠ 204 → e' = e
  parted : status = 204 → ∀ m, ¬ e'.world.store.Joins m u body.targetUserID
  others : status = 204 → ∀ m v, v ≠ body.targetUserID → e.world.store.Joins m u v →
    e.world.store.Untouched e'.world.store m u v

/-- Every live match of the two is the current one of `u`, and named by the body;
    if the body names the current match of `u`, then it is with the target. -/
structure BlockBody.NamesEncounter (body : BlockBody) (e : Env) (u : UserID) : Prop where
  shared : ∀ m, e.world.store.Joins m u body.targetUserID →
    body.matchID = m ∧ m ≠ "" ∧ e.world.store.userMatch.get u = some m
  named : body.matchID ≠ "" → e.world.store.userMatch.get u = some body.matchID →
    ∀ v, e.world.store.Joins body.matchID u v → v = body.targetUserID

section
variable {s : Store} {u v t : UserID} {m x : MatchID} {e e' : Env} {body : BlockBody}
  {status : Nat}

/-- The script of an admitted block. -/
theorem endForUserScript_store (s : Store) (u : UserID) (m : MatchID) :
    (s.endForUserScript u m .blocked).store = s ∨
      s.userMatch.get u = some m ∧
        (s.hget m MatchHash.a = some u ∨ s.hget m MatchHash.b = some u) ∧
        (s.endForUserScript u m .blocked).store = (s.finish m .blocked).store := by
  unfold Store.endForUserScript
  split
  · exact Or.inl rfl
  · next hm =>
      split
      · exact Or.inl rfl
      · next hpart =>
          refine Or.inr ⟨not_not.mp hm, ?_, rfl⟩
          by_contra hnot
          rw [not_or] at hnot
          exact hpart ⟨Ne.symm hnot.1, Ne.symm hnot.2⟩

/-- It ends the current match of a participant. -/
theorem endForUserScript_of_joins (hm : s.userMatch.get u = some m) (h : s.Joins m u v) :
    (s.endForUserScript u m .blocked).store = (s.finish m .blocked).store := by
  obtain ⟨hash, hhash, hbetween⟩ := h
  unfold Store.endForUserScript
  rw [if_neg (not_not.mpr hm), hget_of_some hhash, hget_of_some hhash, if_neg]
  rintro ⟨ha, hb⟩
  rcases hbetween.has with h | h
  · exact ha h.symm
  · exact hb h.symm

/-- Ending a match leaves the others alone, unless they have its other
    participant's pointer. -/
theorem untouched_finish (hx : x ≠ m) (hm : s.userMatch.get u = some m)
    (hv : ∀ w, s.Joins m u w → w ≠ v) (h : s.Joins x u v)
    (hpart : s.hget m MatchHash.a = some u ∨ s.hget m MatchHash.b = some u) :
    s.Untouched (s.finish m .blocked).store x u v := by
  obtain ⟨hhash, hexpiry, hdeadline, hdisconnects⟩ := Store.finish_other (s := s) hx .blocked
  refine ⟨hhash, hexpiry, ?_, hdeadline, hdisconnects⟩
  rintro y (rfl | rfl)
  · -- the pointer of `u` named the match that ended
    rw [Store.finish_userMatch, if_pos hpart, hm]
    exact iff_of_false (by simp) fun e => hx (Option.some.inj e).symm
  · rw [Store.finish_userMatch, if_neg]
    have hne : u ≠ y := by
      obtain ⟨_, _, hne, _⟩ := h
      exact hne
    intro hy
    obtain ⟨hash, hhash⟩ : ∃ hash, s.matches_.get m = some hash := by
      cases hget : s.matches_.get m with
      | none => simp [hget_of_none hget] at hy
      | some hash => exact ⟨hash, rfl⟩
    rw [hget_of_some hhash, hget_of_some hhash] at hy hpart
    refine hv y ⟨hash, hhash, hne, ?_⟩ rfl
    rcases hpart with ha | hb <;> rcases hy with ha' | hb'
    · exact absurd (Option.some.inj (ha.symm.trans ha')) hne
    · exact Or.inl ⟨ha, hb'⟩
    · exact Or.inr ⟨ha', hb⟩
    · exact absurd (Option.some.inj (hb.symm.trans hb')) hne

/-- A live match after an admitted block was there before, and is not the one
    that was ended. -/
theorem joins_of_endForUser (h : (s.endForUserScript u m .blocked).store.Joins x u v) :
    s.Joins x u v ∧ (s.userMatch.get u = some m → x ≠ m) := by
  rcases endForUserScript_store s u m with hsame | ⟨_, _, hfinish⟩
  · rw [hsame] at h
    refine ⟨h, ?_⟩
    rintro hm rfl
    have hfinish := endForUserScript_of_joins hm h
    rw [hsame] at hfinish
    rw [hfinish] at h
    exact Store.not_joins_finish .blocked h
  · rw [hfinish] at h
    have hx : x ≠ m := by
      rintro rfl
      exact Store.not_joins_finish .blocked h
    obtain ⟨hash, hhash, hbetween⟩ := h
    rw [(Store.finish_other hx .blocked).1] at hhash
    exact ⟨⟨hash, hhash, hbetween⟩, fun _ => hx⟩

/-- The store after an admitted block. -/
theorem store_world (body : BlockBody) (e : Env) (u : UserID) : (body.world e u).store =
    if body.matchID = "" then e.world.store
    else (e.world.store.endForUserScript u body.matchID .blocked).store := by
  unfold BlockBody.world
  split <;> rfl

/-- A block that ends what it concerns names it. -/
theorem namesEncounter_of_ends (hstore : e'.world.store = (body.world e u).store)
    (hends : EndsEncounter u body e e' 204) : body.NamesEncounter e u := by
  rw [store_world] at hstore
  constructor
  · intro m hjoins
    have hparted := hends.parted rfl m
    rw [hstore] at hparted
    split at hparted
    · exact absurd hjoins hparted
    · next hne =>
        rcases endForUserScript_store e.world.store u body.matchID with
          hsame | ⟨hm, _, hfinish⟩
        · rw [hsame] at hparted
          exact absurd hjoins hparted
        · rw [hfinish] at hparted
          have hid : m = body.matchID := by
            by_contra hother
            obtain ⟨hash, hhash, hbetween⟩ := hjoins
            refine hparted ⟨hash, ?_, hbetween⟩
            rw [(Store.finish_other hother .blocked).1]
            exact hhash
          rw [hid]
          exact ⟨rfl, hne, hm⟩
  · intro hne hm v hjoins
    by_contra hv
    have huntouched := hends.others rfl body.matchID v hv hjoins
    rw [hstore, if_neg hne, endForUserScript_of_joins hm hjoins] at huntouched
    obtain ⟨hash, hhash, hbetween⟩ := hjoins
    refine Store.not_joins_finish (s := e.world.store) (m := body.matchID) .blocked
      ⟨hash, ?_, hbetween⟩
    rw [huntouched.hash]
    exact hhash

/-- An admitted block that names what it concerns ends it. -/
theorem endsEncounter_of_names (hstore : e'.world.store = (body.world e u).store)
    (hnames : body.NamesEncounter e u) : EndsEncounter u body e e' 204 := by
  rw [store_world] at hstore
  refine ⟨fun hne => absurd rfl hne, fun _ m hjoins => ?_, fun _ m v hv hjoins => ?_⟩
  · rw [hstore] at hjoins
    split at hjoins
    · next hempty =>
        obtain ⟨hid, hne, _⟩ := hnames.shared m hjoins
        exact hne (hid ▸ hempty)
    · obtain ⟨hbefore, hother⟩ := joins_of_endForUser hjoins
      obtain ⟨hid, _, hm⟩ := hnames.shared m hbefore
      exact hother (hid ▸ hm) hid.symm
  · rw [hstore]
    split
    · exact .refl _ m u v
    · next hne =>
        rcases endForUserScript_store e.world.store u body.matchID with
          hsame | ⟨hm, hpart, hfinish⟩
        · rw [hsame]
          exact .refl _ m u v
        · have htarget : ∀ w, e.world.store.Joins body.matchID u w →
              w = body.targetUserID := hnames.named hne hm
          rw [hfinish]
          refine untouched_finish ?_ hm (fun w hw => ?_) hjoins hpart
          · rintro rfl
            exact hv (htarget v hjoins)
          · rw [htarget w hw]
            exact Ne.symm hv

/-- An admitted block ends what it concerns exactly if it names it. -/
theorem endsEncounter_iff (h : Undisturbed e (block u body) e' status) :
    EndsEncounter u body e e' status ↔ (body.Admitted e u → body.NamesEncounter e u) := by
  rcases block_undisturbed h with ⟨hadmitted, rfl, hworld, _⟩ | ⟨hrefused, hstatus, rfl⟩
  · have hstore := congrArg World.store hworld
    constructor
    · exact fun hends _ => namesEncounter_of_ends hstore hends
    · exact fun hnames => endsEncounter_of_names hstore (hnames hadmitted)
  · refine iff_of_true ⟨fun _ => rfl, fun h => absurd h hstatus, fun h => absurd h hstatus⟩ ?_
    exact fun hadmitted => absurd hadmitted hrefused

end

/-- Every block, from any state, comes to an answer, and it ends exactly the
    encounter that it concerns if and only if it is not admitted or its body
    names that encounter. -/
theorem block_ends_encounter_iff (e : Env) (u : UserID) (body : BlockBody) :
    (∃ e' status, Undisturbed e (block u body) e' status) ∧
      ∀ e' status, Undisturbed e (block u body) e' status →
        (EndsEncounter u body e e' status ↔ (body.Admitted e u → body.NamesEncounter e u)) :=
  ⟨(answerable_block u body).exists_alone e, fun _ _ => endsEncounter_iff⟩

/-- Ann and Ben are connected, and in the match of their votes.  Ann blocks Ben
    by the connection, whose id she writes in capitals; the match goes on. -/
theorem not_block_ends_encounter : ∃ x e' status,
    (systemMachine twoUsers).run (bothVoted ++ turns 1 2 friendship) = some x ∧
      Undisturbed x.env (block "ann" ⟨"ben", "", friendshipUpper⟩) e' status ∧ status = 204 ∧
      e'.world.store.Joins "m1" "ann" "ben" ∧
      ¬ EndsEncounter "ann" ⟨"ben", "", friendshipUpper⟩ x.env e' status := by
  have hobs : ((systemMachine twoUsers).run (bothVoted ++ turns 1 2 friendship)).map (fun x =>
      ((x.env.world.store.matches_.get "m1").map fun h => (h.a, h.b),
        x.env.db.connectionPeer "ann" friendshipUpper, x.env.db.knows "ann" "ben")) =
        some (some (some "ben", some "ann"), some (some "ben"), true) := by
    decide +kernel
  obtain ⟨x, hx, hobs⟩ := Option.map_eq_some_iff.mp hobs
  simp only [Prod.mk.injEq] at hobs
  obtain ⟨hmatch, hpeer, hknown⟩ := hobs
  obtain ⟨h, hh, hab⟩ := Option.map_eq_some_iff.mp hmatch
  have hjoins : x.env.world.store.Joins "m1" "ann" "ben" := by
    obtain ⟨ha, hb⟩ := Prod.mk.inj hab
    exact ⟨h, hh, by decide, Or.inr ⟨ha, hb⟩⟩
  have hadmitted : BlockBody.Admitted ⟨"ben", "", friendshipUpper⟩ x.env "ann" :=
    ⟨⟨by decide, by decide⟩, Or.inr ⟨by decide, hpeer⟩, hknown⟩
  obtain ⟨e', status, hblock⟩ :=
    (answerable_block "ann" ⟨"ben", "", friendshipUpper⟩).exists_alone x.env
  rcases block_undisturbed hblock with ⟨_, hstatus, hworld, _⟩ | ⟨hrefused, _⟩
  · have hafter : e'.world.store.Joins "m1" "ann" "ben" := by
      rw [hworld, store_world]
      exact hjoins
    exact ⟨x, e', status, hx, hblock, hstatus, hafter, fun hends => hends.parted hstatus _ hafter⟩
  · exact absurd hadmitted hrefused

end Social

end OneMinute
