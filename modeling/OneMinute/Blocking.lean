/-
  OneMinute.Blocking

  Blocks against connections and against matches.

  A block ends the pair's connections in its own transaction, but neither
  PersistConnection nor the claim looks at blocks.  So a connection that is
  persisted after the block stands beside it (`unblocked_iff`), and a pair that
  was eligible before the block is matched after it (`claims_unblocked`).
-/

import OneMinute.Runs

namespace OneMinute

open Discovery

/-! ## Blocks and connections -/

/-- The step is no PersistConnection that inserts a row for a blocked pair. -/
def SparesBlocked (x : System) (a : Action) : Prop :=
  match x.makes a with
  | some (fault, .persistConnection m endedAt id) =>
    fault = .failed ∨ ¬ (x.env.db.blocked m.userA m.userB ∧ x.env.db.Inserts m endedAt id)
  | _ => True

instance (x : System) (a : Action) : Decidable (SparesBlocked x a) := by
  unfold SparesBlocked
  split <;> infer_instance

theorem sparesBlocked_of_makes {x : System} {a : Action} {fault : Fault} {c : Call}
    (hm : x.makes a = some (fault, c))
    (hc : ∀ m endedAt id, c = .persistConnection m endedAt id → fault = .failed ∨
      ¬ (x.env.db.blocked m.userA m.userB ∧ x.env.db.Inserts m endedAt id)) :
    SparesBlocked x a := by
  unfold SparesBlocked
  split
  · next f m endedAt id hm' =>
      rw [hm] at hm'
      cases hm'
      exact hc m endedAt id rfl
  · trivial

/-- One transaction keeps blocks and active connections apart exactly if it
    inserts no row for a blocked pair. -/
theorem unblocked_exec {e : Env} {c : Call} (h : e.db.Unblocked) :
    (e.exec c).1.db.Unblocked ↔
      ∀ m endedAt id, c = .persistConnection m endedAt id →
        ¬ (e.db.blocked m.userA m.userB ∧ e.db.Inserts m endedAt id) := by
  constructor
  · rintro h' m endedAt id rfl ⟨hblocked, hinserts⟩
    obtain ⟨db', hok, hblocks, hrows⟩ := Database.persistConnection_of_inserts hinserts
    simp only [Env.exec, hok] at h'
    exact Database.not_unblocked_of_inserts hblocked hblocks hrows h'
  · intro hC
    have hcommit := exec_commit e c
    generalize (e.exec c).1.db = db' at hcommit
    cases hcommit with
    | none _ => exact h
    | persistConnection m endedAt id durableID _ hok =>
        exact h.persistConnection hok (hC m endedAt id rfl)
    | block u target now _ hok => exact h.block hok
    | unblock u target v _ => exact h.unblock u v
    | remove u connectionID c now _ => exact h.remove u c now

theorem unblocked_step {x x' : System} {a : Action} (h : x.env.db.Unblocked)
    (hstep : x.step a = some x') : x'.env.db.Unblocked ↔ SparesBlocked x a := by
  rcases (step_move hstep).env with ⟨henv, _, hm⟩ | ⟨fault, c, hm, _, henv, _⟩ | ⟨d, rfl, henv, _⟩
  · rw [henv]
    exact iff_of_true h (by simp [SparesBlocked, hm])
  · rw [henv]
    cases fault with
    | failed => exact iff_of_true h (sparesBlocked_of_makes hm fun _ _ _ _ => Or.inl rfl)
    | ok | lost =>
        -- with or without its reply, the transaction committed
        refine (unblocked_exec h).trans ⟨fun hC => ?_, fun hC m endedAt id hc => ?_⟩
        · exact sparesBlocked_of_makes hm fun m endedAt id hc => Or.inr (hC m endedAt id hc)
        · rw [hc] at hm
          unfold SparesBlocked at hC
          rw [hm] at hC
          exact hC.resolve_left (by decide)
  · rw [henv]
    exact iff_of_true h trivial

/-- From a database without blocks on active connections, a run reaches only
    such databases, and no Unblock makes a connection usable again, exactly if
    no PersistConnection inserts a row for a blocked pair. -/
theorem unblocked_iff {db : Database} {as : List Action} {x : System} (h0 : db.Unblocked)
    (hrun : (systemMachine db).run as = some x) :
    (∀ pre post y, as = pre ++ post → (systemMachine db).run pre = some y →
        y.env.db.Unblocked ∧
          ∀ u target r, (y.env.db.unblock u target).Usable r → y.env.db.Usable r) ↔
      (systemMachine db).Along SparesBlocked (.init db) as := by
  have hiff := Machine.forall_iff_along (M := systemMachine db)
    (P := fun y => y.env.db.Unblocked) (D := fun _ _ => True)
    (fun _ _ _ h _ hstep => unblocked_step h hstep) hrun (fun _ _ _ _ _ _ => trivial) h0
  constructor
  · intro h
    exact hiff.mp fun pre post y hsplit hpre => (h pre post y hsplit hpre).1
  · intro h pre post y hsplit hpre
    have hy : y.env.db.Unblocked := hiff.mpr h pre post y hsplit hpre
    exact ⟨hy, fun u target r => hy.usable_of_unblock⟩

/-- Ben's handler persists and publishes; then Ann blocks Ben over the match. -/
def blockedAfter : List Action :=
  bothVoted ++ turns 1 2 "r1" ++ [.spawn (.block "ann" ⟨"ben", "m1", ""⟩)] ++ taskTurns 0 4

theorem unblocked_iff_bothVoted :
    ∃ x, (systemMachine twoUsers).run blockedAfter = some x ∧ x.env.db.blocked "ann" "ben" ∧
      x.env.db.Unblocked := by
  have hobs : ((systemMachine twoUsers).run blockedAfter).map (fun x =>
      decide (x.env.db.blocked "ann" "ben")) = some true := by
    decide +kernel
  obtain ⟨x, hx, hobs⟩ := Option.map_eq_some_iff.mp hobs
  have h := (unblocked_iff (by decide) hx).mpr (by decide +kernel)
  exact ⟨x, hx, of_decide_eq_true hobs, (h _ [] x (List.append_nil _).symm hx).1⟩

/-- Ben's handler has read the match; Ann blocks Ben, and only then the handler
    persists. -/
def lateRow : List Action :=
  bothVoted ++ [.spawn (.block "ann" ⟨"ben", "m1", ""⟩)] ++ taskTurns 0 4 ++ turns 1 1 "r1"

/-- The row stands beside the block, and the Unblock makes it usable. -/
theorem not_unblocked_lateRow :
    ∃ x, (systemMachine twoUsers).run lateRow = some x ∧ ¬ x.env.db.Unblocked ∧
      ∃ r, (x.env.db.unblock "ann" "ben").Usable r ∧ ¬ x.env.db.Usable r := by
  have hobs : ((systemMachine twoUsers).run lateRow).map (fun x =>
      decide (¬ x.env.db.Unblocked ∧
        (x.env.db.unblock "ann" "ben").Usable ⟨"r1", "ann", "ben", "m1", 0, none⟩ ∧
        ¬ x.env.db.Usable ⟨"r1", "ann", "ben", "m1", 0, none⟩)) = some true := by
    decide +kernel
  obtain ⟨x, hx, hobs⟩ := Option.map_eq_some_iff.mp hobs
  obtain ⟨h1, h2, h3⟩ := of_decide_eq_true hobs
  exact ⟨x, hx, h1, _, h2, h3⟩

/-! ## Blocks and claims -/

/-- The claim that succeeds at this step. -/
def System.claims (x : System) (a : Action) : Option Claim :=
  match x.makes a with
  | some (fault, .store (.claim k)) =>
    if fault ≠ .failed ∧ ((Op.claim k).exec x.store).reply = .ok 1 then some k else none
  | _ => none

theorem makes_of_claims {x : System} {a : Action} {k : Claim} (h : x.claims a = some k) :
    ∃ fault, x.makes a = some (fault, .store (.claim k)) := by
  unfold System.claims at h
  split at h
  · next fault k' hm =>
      split at h
      · cases h
        exact ⟨fault, hm⟩
      · cases h
  · cases h

/-- The step commits no Block of a pair that some tryMatch has found eligible
    and not yet claimed. -/
def BlocksApart (x : System) (a : Action) : Prop :=
  match x.makes a with
  | some (fault, .block u target _) =>
    fault = .failed ∨ ∀ s ∈ x.sessions,
      checked s.trace ≠ some (u, target) ∧ checked s.trace ≠ some (target, u)
  | _ => True

instance (x : System) (a : Action) : Decidable (BlocksApart x a) := by
  unfold BlocksApart
  split <;> infer_instance

/-- A pair becomes checked by an EligiblePair that answers yes. -/
theorem checked_cons {e : Exchange api} {tr : List (Exchange api)} {a b : UserID}
    (h : checked (e :: tr) = some (a, b)) :
    e = ⟨.eligiblePair a b, some true⟩ ∨ checked tr = some (a, b) := by
  unfold checked at h
  split at h
  · cases h
  · next he =>
      cases he
      cases h
      exact Or.inl rfl
  · cases h
  · cases h
  · cases h
  · next he =>
      cases he
      exact Or.inr h

/-- No checked pair is blocked. -/
def System.Checked (x : System) : Prop :=
  ∀ s ∈ x.sessions, ∀ a b, checked s.trace = some (a, b) → ¬ x.env.db.blocked a b

/-- A checked pair stays unblocked when the step meets the condition. -/
theorem not_blocked_step {x x' : System} {act : Action} {s : Session} {a b : UserID}
    (hmv : Move x act x') (hC : BlocksApart x act) (hs : s ∈ x.sessions)
    (hch : checked s.trace = some (a, b)) (hfree : ¬ x.env.db.blocked a b) :
    ¬ x'.env.db.blocked a b := by
  rcases hmv.db with hdb | ⟨fault, c, hm, hfault, _, hcommit⟩
  · rw [hdb]
    exact hfree
  · generalize x'.env.db = db' at hcommit
    cases hcommit with
    | none _ => exact hfree
    | persistConnection m endedAt id durableID _ hok =>
        unfold Database.blocked
        rw [(Database.persistConnection_eq_ok hok).1]
        exact hfree
    | block u target now _ hok =>
        unfold BlocksApart at hC
        rw [hm] at hC
        obtain ⟨h1, h2⟩ := hC.resolve_left hfault s hs
        rw [hch] at h1 h2
        -- the new row is of another pair
        intro hblocked
        unfold Database.blocked at hblocked
        rw [(Database.block_eq_ok hok).1, (Database.block_eq_ok hok).1] at hblocked
        rcases hblocked with (e | hb) | (e | hb)
        · exact h1 (congrArg some e)
        · exact hfree (Or.inl hb)
        · cases e
          exact h2 rfl
        · exact hfree (Or.inr hb)
    | unblock u target v _ =>
        rintro (hb | hb)
        · exact hfree (Or.inl (List.mem_of_mem_filter hb))
        · exact hfree (Or.inr (List.mem_of_mem_filter hb))
    | remove u connectionID c now _ => exact hfree

/-- The invariant of the claim path. -/
theorem checked_step {x x' : System} {act : Action} (h : x.Checked) (hC : BlocksApart x act)
    (hmv : Move x act x') : x'.Checked := by
  intro s' hs' a b hch
  cases hmv.descends hs' with
  | kept _ _ hs => exact not_blocked_step hmv hC hs hch (h s' hs a b hch)
  | opened user c _ =>
      rw [Session.start_trace] at hch
      cases hch
  | started _ s since stage hs ha _ =>
      rw [Session.start_trace] at hch
      cases hch
  | received i d fault s c k hs ha hm =>
      rcases s.receive_trace _ _ _ _ with htr | htr
      · rw [htr] at hch
        rcases checked_cons hch with he | hold
        · -- the pair was found eligible at this very step
          have henv := hmv.env_of_makes hm
          injection he with hcall hreply
          rw [hcall] at henv hreply
          cases fault with
          | ok =>
              have hyes := eq_of_heq hreply
              rw [henv]
              simp only [Env.perform, Env.exec, Option.some.injEq, Database.eligiblePair,
                Bool.and_eq_true, Bool.not_eq_true', decide_eq_false_iff_not] at hyes ⊢
              exact hyes.2
          -- without a reply there is no answer to remember
          | failed | lost => cases eq_of_heq hreply
        -- the pair was checked before
        · exact not_blocked_step hmv hC hs hold (h s hs a b hold)
      · rw [htr] at hch
        cases hch

/-- In a run in which no Block of a pair commits between the pair's EligiblePair
    and its claim, every claim that succeeds is for a pair without a block. -/
theorem claims_unblocked {db : Database} {as : List Action} {x : System}
    (hrun : (systemMachine db).run as = some x)
    (hC : (systemMachine db).Along BlocksApart (.init db) as) :
    ∀ u a v k, (systemMachine db).Taken as u a v → u.claims a = some k →
      ¬ u.env.db.blocked k.userA k.userB := by
  rintro u a v k ⟨pre, post, rfl, hpre, hstep⟩ hclaim
  have hsound := sound_of_run hpre
  have hchecked : u.Checked := Machine.runFrom_invariant_along (M := systemMachine db)
    (fun _ _ _ h hC' hs => checked_step h hC' (step_move hs)) hpre hC.of_append
    (fun _ hs => absurd hs List.not_mem_nil)
  obtain ⟨fault, hm⟩ := makes_of_claims hclaim
  rcases hsound.makes hm with ⟨s, hs, hd | ⟨now, e⟩⟩ | ⟨t, _, hd⟩
  · exact hchecked s hs _ _ hd.2
  · cases e
  · exact hd.elim

/-- Ben's tryMatch up to its claim of Ann. -/
def aboutToClaim : List Action :=
  queued ++ [.frame 1 (.queueJoin somePreferences)] ++ turns 1 8 "m1"

theorem claims_unblocked_aboutToClaim :
    ∃ u k, (systemMachine twoUsers).run aboutToClaim = some u ∧
      u.claims (.turn 1 ⟨0, "m1"⟩ .ok) = some k ∧ ¬ u.env.db.blocked k.userA k.userB := by
  have hobs : ((systemMachine twoUsers).run aboutToClaim).map (fun u =>
      ((u.step (.turn 1 ⟨0, "m1"⟩ .ok)).isSome, (u.claims (.turn 1 ⟨0, "m1"⟩ .ok)).isSome)) =
        some (true, true) := by
    decide +kernel
  obtain ⟨u, hu, hobs⟩ := Option.map_eq_some_iff.mp hobs
  rw [Prod.mk.injEq] at hobs
  obtain ⟨v, hv⟩ := Option.isSome_iff_exists.mp hobs.1
  obtain ⟨k, hk⟩ := Option.isSome_iff_exists.mp hobs.2
  have hrun : (systemMachine twoUsers).run (aboutToClaim ++ [.turn 1 ⟨0, "m1"⟩ .ok]) = some v :=
    Machine.runFrom_concat_eq_some.mpr ⟨u, hu, hv⟩
  exact ⟨u, k, hu, hk,
    claims_unblocked hrun (by decide +kernel) u _ v k (Machine.taken_concat hu hv) hk⟩

/-- Ann and Ben have a connection. -/
def befriended : Database :=
  { twoUsers with
    connections :=
      ⟨[⟨friendship, "ann", "ben", "m0", 0, none⟩], List.nodup_singleton _, List.nodup_singleton _,
        List.nodup_singleton _, by decide⟩ }

/-- Ben's tryMatch finds the pair eligible, and Ann blocks Ben over their
    connection, whose id she writes in capitals. -/
def staleCandidate : List Action :=
  queued ++ [.frame 1 (.queueJoin somePreferences)] ++ turns 1 7 "m1"
    ++ [.spawn (.block "ann" ⟨"ben", "", friendshipUpper⟩)] ++ taskTurns 0 2 ++ turns 1 1 "m1"

/-- The claim of the blocked pair succeeds. -/
theorem blocked_claim_staleCandidate :
    ∃ u v k, (systemMachine befriended).run staleCandidate = some u ∧
      u.step (.turn 1 ⟨0, "m1"⟩ .ok) = some v ∧ u.claims (.turn 1 ⟨0, "m1"⟩ .ok) = some k ∧
      u.env.db.blocked k.userA k.userB := by
  have hobs : ((systemMachine befriended).run staleCandidate).map (fun u =>
      ((u.step (.turn 1 ⟨0, "m1"⟩ .ok)).isSome,
        (u.claims (.turn 1 ⟨0, "m1"⟩ .ok)).map fun k =>
          decide (u.env.db.blocked k.userA k.userB))) = some (true, some true) := by
    decide +kernel
  obtain ⟨u, hu, hobs⟩ := Option.map_eq_some_iff.mp hobs
  rw [Prod.mk.injEq] at hobs
  obtain ⟨v, hv⟩ := Option.isSome_iff_exists.mp hobs.1
  obtain ⟨k, hk, hblocked⟩ := Option.map_eq_some_iff.mp hobs.2
  exact ⟨u, v, k, hu, hv, hk, of_decide_eq_true hblocked⟩

end OneMinute
