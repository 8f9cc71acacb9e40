/-
  OneMinute.Communication.Quota

  POST moments one statement at a time, among other requests and the cleanup.

  The clock of a transaction is read at its BEGIN, before the lock on the
  author's row is there.  So a publisher may count with an older clock than one
  that committed before it, and counts more moments than are alive at that
  one's start, never fewer.  Its own commit then leaves at most three that
  expire after its own start (`AtMost.commit`), whatever the order of the starts.

    * `Stage`        — where a POST stands;
    * `Stage.Ok`     — what it knows there: the lock, and what it has counted;
    * `moment_quota` — the bound, in all schedules.
-/

import OneMinute.Calls
import OneMinute.Communication.Moments
import OneMinute.Lib.Locks
import OneMinute.Lib.Threads

namespace OneMinute.Communication.Publishing

open Discovery (UserID UnixMilli)

/-! ## POST moments -/

/-- What a transaction locks. -/
inductive Resource where
  /-- A row of `users`. -/
  | user (id : UserID)
  /-- An entry of the primary key of `moments`. -/
  | moment (id : String)
deriving DecidableEq, Repr

structure Request where
  user : UserID
  /-- `decode` accepted the body. -/
  decodes : Bool := true
  body : String
  tone : String
deriving DecidableEq, Repr

/-- The next statement of a POST; `startedAt` is the `now()` of its transaction. -/
inductive Stage where
  | begin
  | lock (startedAt : UnixMilli)
  | count (startedAt : UnixMilli)
  | insertMoment (startedAt : UnixMilli)
  | insertAudience (m : MomentRow)
  | commit (m : MomentRow)
  /-- The deferred Rollback, after the reply was chosen. -/
  | rollback (status : Nat)
  | done (status : Nat)
deriving DecidableEq, Repr

structure Shared where
  /-- What is committed, and the database's clock. -/
  tables : Moments
  locks : Locks Resource
  /-- The authors and starts of the transactions that have published, the last
      first. -/
  published : List (UserID × UnixMilli)

/-- How many moments of `u` expire after `t`. -/
def Shared.sharedAt (x : Shared) (u : UserID) (t : UnixMilli) : Nat := (x.tables.tick t).shared u

/-- A statement in the transaction; an error leads to the rollback. -/
def statement (fault : Fault) (x : Shared) (result : Option (Shared × Stage)) :
    Option (Shared × Stage) :=
  if fault = .ok then result else some (x, .rollback 500)

/-- The moment of a transaction and its audience appear together.  Nothing else
    here writes connections, so the audience that its INSERT found is the one
    found now. -/
def commitMoment (s : Moments) (m : MomentRow) : Moments :=
  if h : m.Checked ∧ m.id ∉ s.drawn then s.insert m h.1 h.2 else s

namespace Request

/-- The checks before the transaction. -/
def valid (r : Request) : Bool :=
  r.decodes && decide (1 ≤ (trimSpace r.body).length) && decide ((trimSpace r.body).length ≤ 600)
    && tones.contains r.tone

/-- The row that the INSERT proposes. -/
def row (r : Request) (x : Shared) (startedAt : UnixMilli) (id : String) : MomentRow :=
  (x.tables.tick startedAt).rowOf r.user r.body r.tone id

/-- The INSERT is refused: a text has no NUL, the author must exist, and the
    row is checked. -/
def refused (r : Request) (x : Shared) (m : MomentRow) : Bool :=
  (trimSpace r.body).toList.contains (Char.ofNat 0) || (x.tables.db.users r.user).isNone
    || !decide m.Checked

def start (r : Request) : Stage := if r.valid then .begin else .done 400

/-- One statement of the transaction `i`; `id` is what `gen_random_uuid` gives. -/
def step (r : Request) (i : Nat) (id : String) (fault : Fault) (x : Shared) :
    Stage → Option (Shared × Stage)
  | .begin => some (x, if fault = .ok then .lock x.tables.now else .done 500)
  | .lock startedAt =>
    statement fault x <|
      -- FOR UPDATE locks the rows that it returns
      if (x.tables.db.users r.user).isNone then some (x, .count startedAt)
      else
        (x.locks.acquire i (.user r.user)).map fun locks => ({ x with locks }, .count startedAt)
  | .count startedAt =>
    statement fault x <|
      some (x, if 3 ≤ x.sharedAt r.user startedAt then .rollback 409 else .insertMoment startedAt)
  | .insertMoment startedAt =>
    statement fault x <|
      if r.refused x (r.row x startedAt id) then some (x, .rollback 500)
      else
        (x.locks.acquire i (.moment id)).map fun locks =>
          ({ x with locks },
            if id ∈ x.tables.drawn then .rollback 500
            else .insertAudience (r.row x startedAt id))
  | .insertAudience m => statement fault x <| some (x, .commit m)
  | .commit m =>
    if fault = .failed then some (x, .rollback 500)
    else
      some (⟨commitMoment x.tables m, x.locks.release i, (m.userID, m.createdAt) :: x.published⟩,
        .done (if fault = .ok then 201 else 500))
  | .rollback status => some ({ x with locks := x.locks.release i }, .done status)
  | .done _ => none

end Request

/-! ## Runs -/

/-- A POST under way. -/
structure Publisher where
  request : Request
  stage : Stage
deriving DecidableEq, Repr

/-- Statements that commit by themselves, and the clock, which may be set back. -/
inductive Other where
  | delete (u : UserID) (text : String)
  | cleanup
  | tick (now : UnixMilli)
deriving DecidableEq, Repr

def Other.exec (U : UUIDText) (s : Moments) : Other → Moments
  | .delete u text => s.after (s.deleteMoment U u text)
  | .cleanup => s.cleanup
  | .tick now => s.tick now

/-- Concurrent requests for moments. -/
def publishers (U : UUIDText) : Threads Shared Publisher Request (String × Fault) Other where
  start r := ⟨r, r.start⟩
  turn i d x p := (p.request.step i d.1 d.2 x p.stage).map fun out => (out.1, ⟨p.request, out.2⟩)
  env e x := some { x with tables := e.exec U x.tables }

/-- All schedules of requests for moments, on tables. -/
def publishingMachine (U : UUIDText) (s : Moments) :
    Machine (Pool Shared Publisher) (Schedule Request (String × Fault) Other) :=
  (publishers U).machine ⟨s, .free, []⟩

/-! ## One statement -/

/-- The statements of the transaction `i`, with the facts that let them happen. -/
inductive Move (r : Request) (i : Nat) (x : Shared) : Stage → Shared → Stage → Prop where
  | refused : Move r i x .begin x (.done 500)
  | begin : Move r i x .begin x (.lock x.tables.now)
  /-- A statement fails, maybe after it took a lock. -/
  | fail (st : Stage) (status : Nat) (locks : Locks Resource) (htaken : x.locks.Taken locks i) :
      Move r i x st { x with locks } (.rollback status)
  | unknown (startedAt : UnixMilli) (hnone : (x.tables.db.users r.user).isNone = true) :
      Move r i x (.lock startedAt) x (.count startedAt)
  | lock (startedAt : UnixMilli) (locks : Locks Resource) (htaken : x.locks.Taken locks i)
      (hheld : locks (.user r.user) = some i) :
      Move r i x (.lock startedAt) { x with locks } (.count startedAt)
  | count (startedAt : UnixMilli) (hfree : x.sharedAt r.user startedAt < 3) :
      Move r i x (.count startedAt) x (.insertMoment startedAt)
  | insertMoment (startedAt : UnixMilli) (id : String) (locks : Locks Resource)
      (htaken : x.locks.Taken locks i) (hheld : locks (.moment id) = some i)
      (hauthor : (x.tables.db.users r.user).isSome = true)
      (hchecked : (r.row x startedAt id).Checked) (hnew : id ∉ x.tables.drawn) :
      Move r i x (.insertMoment startedAt) { x with locks }
        (.insertAudience (r.row x startedAt id))
  | insertAudience (m : MomentRow) : Move r i x (.insertAudience m) x (.commit m)
  | commit (m : MomentRow) (status : Nat) :
      Move r i x (.commit m)
        ⟨commitMoment x.tables m, x.locks.release i, (m.userID, m.createdAt) :: x.published⟩
        (.done status)
  | rollback (status : Nat) :
      Move r i x (.rollback status) { x with locks := x.locks.release i } (.done status)

section
variable {r : Request} {i j : Nat} {id : String} {fault : Fault} {x x' : Shared} {st st' : Stage}

theorem statement_eq_some {result : Option (Shared × Stage)}
    (h : statement fault x result = some (x', st')) :
    x' = x ∧ st' = .rollback 500 ∨ result = some (x', st') := by
  unfold statement at h
  split at h
  · exact Or.inr h
  · cases h
    exact Or.inl ⟨rfl, rfl⟩

theorem Move.undone (st : Stage) (status : Nat) : Move r i x st x (.rollback status) :=
  .fail st status x.locks (.refl _ i)

theorem step_move (h : r.step i id fault x st = some (x', st')) : Move r i x st x' st' := by
  cases st with
  | begin =>
      obtain ⟨rfl, rfl⟩ := Prod.mk.inj (Option.some.inj h)
      split
      · exact .begin
      · exact .refused
  | lock startedAt =>
      rcases statement_eq_some h with ⟨rfl, rfl⟩ | h
      · exact .undone _ _
      · split at h
        · next hnone =>
            cases h
            exact .unknown startedAt hnone
        · obtain ⟨locks, hlocks, h⟩ := Option.map_eq_some_iff.mp h
          cases h
          obtain ⟨htaken, hheld⟩ := Locks.acquire_eq_some hlocks
          exact .lock startedAt locks htaken hheld
  | count startedAt =>
      rcases statement_eq_some h with ⟨rfl, rfl⟩ | h
      · exact .undone _ _
      · obtain ⟨rfl, rfl⟩ := Prod.mk.inj (Option.some.inj h)
        split
        · exact .undone _ _
        · next hfree => exact .count startedAt (Nat.lt_of_not_le hfree)
  | insertMoment startedAt =>
      rcases statement_eq_some h with ⟨rfl, rfl⟩ | h
      · exact .undone _ _
      · split at h
        · cases h
          exact .undone _ _
        · next hrefused =>
            obtain ⟨locks, hlocks, h⟩ := Option.map_eq_some_iff.mp h
            cases h
            obtain ⟨htaken, hheld⟩ := Locks.acquire_eq_some hlocks
            split
            · exact .fail _ _ locks htaken
            · next hnew =>
                simp only [Request.refused, Bool.or_eq_true, Bool.not_eq_true',
                  decide_eq_false_iff_not, not_or, not_not, Bool.not_eq_true] at hrefused
                exact .insertMoment startedAt id locks htaken hheld
                  (Option.isNone_eq_false_iff.mp hrefused.1.2) hrefused.2 hnew
  | insertAudience m =>
      rcases statement_eq_some h with ⟨rfl, rfl⟩ | h
      · exact .undone _ _
      · cases h
        exact .insertAudience m
  | commit m =>
      simp only [Request.step] at h
      split at h
      · cases h
        exact .undone _ _
      · cases h
        exact .commit m _
  | rollback status =>
      cases h
      exact .rollback status
  | done status => cases h

end

/-! ## Counting -/

section
variable {s : Moments} {u : UserID} {t t' : UnixMilli}

/-- A moment of `u` that expires after `t`. -/
def alive (u : UserID) (t : UnixMilli) (m : MomentRow) : Bool :=
  decide (m.userID = u) && decide (t < m.expiresAt)

theorem shared_tick (s : Moments) (u : UserID) (t : UnixMilli) :
    (s.tick t).shared u = (s.rows.filter (alive u t)).length := rfl

/-- Fewer moments expire after a later time. -/
theorem shared_antitone (h : t ≤ t') : (s.tick t').shared u ≤ (s.tick t).shared u := by
  rw [shared_tick, shared_tick]
  refine (List.monotone_filter_right s.rows fun m hm => ?_).length_le
  simp only [alive, Bool.and_eq_true, decide_eq_true_eq] at hm ⊢
  exact ⟨hm.1, lt_of_le_of_lt h hm.2⟩

theorem shared_deleteWhere (p : MomentRow → Bool) :
    ((s.deleteWhere p).tick t).shared u ≤ (s.tick t).shared u := by
  rw [shared_tick, shared_tick]
  exact (List.filter_sublist.filter _).length_le

theorem rows_commitMoment {m : MomentRow} :
    (commitMoment s m).rows = s.rows ∨ (commitMoment s m).rows = s.rows ++ [m] := by
  unfold commitMoment
  split
  · exact Or.inr rfl
  · exact Or.inl rfl

theorem shared_commitMoment (m : MomentRow) :
    ((commitMoment s m).tick t).shared u ≤ (s.tick t).shared u + 1 := by
  rw [shared_tick, shared_tick]
  rcases rows_commitMoment (s := s) (m := m) with h | h
  · rw [h]
    exact Nat.le_succ _
  · rw [h, List.filter_append, List.length_append]
    exact Nat.add_le_add_left (List.length_filter_le _ [m]) _

/-- The moments of others do not count. -/
theorem shared_commitMoment_of_ne {m : MomentRow} (h : m.userID ≠ u) :
    ((commitMoment s m).tick t).shared u = (s.tick t).shared u := by
  rw [shared_tick, shared_tick]
  rcases rows_commitMoment (s := s) (m := m) with hrows | hrows
  · rw [hrows]
  · have hdead : alive u t m = false := by simp [alive, h]
    rw [hrows, List.filter_append, List.filter_cons_of_neg (by simp [hdead]), List.filter_nil,
      List.append_nil]

theorem shared_exec (U : UUIDText) (e : Other) :
    ((e.exec U s).tick t).shared u ≤ (s.tick t).shared u := by
  cases e with
  | delete v text =>
      simp only [Other.exec, Moments.deleteMoment]
      split
      · exact le_rfl
      · split
        · exact le_rfl
        · split
          · exact shared_deleteWhere _
          · exact le_rfl
  | cleanup => exact shared_deleteWhere _
  | tick now => exact le_rfl

end

/-! ## What a POST knows -/

/-- Whenever no publication of `u` started later, at most three moments of `u`
    expire later. -/
def AtMost (x : Shared) (u : UserID) : Prop :=
  ∀ t, (∀ p ∈ x.published, p.1 = u → p.2 ≤ t) → x.sharedAt u t ≤ 3

/-- Transaction `i` has the author's row. -/
def Holds (x : Shared) (i : Nat) (u : UserID) : Prop := x.locks (.user u) = some i

/-- Transaction `i` has counted fewer than three, and nobody else publishes. -/
def Counted (x : Shared) (i : Nat) (u : UserID) (t : UnixMilli) : Prop :=
  Holds x i u ∧ x.sharedAt u t < 3

/-- The transaction may commit the moment `m`. -/
structure MayCommit (x : Shared) (i : Nat) (u : UserID) (m : MomentRow) : Prop where
  author : m.userID = u
  counted : Counted x i u m.createdAt
  entry : x.locks (.moment m.id) = some i
  checked : m.Checked
  new : m.id ∉ x.tables.drawn

/-- What transaction `i` of `u` knows; an author without a row locks nothing. -/
def Stage.Ok (u : UserID) (x : Shared) (i : Nat) : Stage → Prop
  | .count _ => (x.tables.db.users u).isSome = true → Holds x i u
  | .insertMoment startedAt => (x.tables.db.users u).isSome = true → Counted x i u startedAt
  | .insertAudience m | .commit m => MayCommit x i u m
  | .begin | .lock _ | .rollback _ | .done _ => True

/-- Transaction `i` keeps its locks; with an author's row it knows that nobody
    else publishes for the author, with an index entry that the id stays new. -/
structure Spares (x x' : Shared) (i : Nat) : Prop where
  locks : ∀ k, x.locks k = some i → x'.locks k = some i
  users : x'.tables.db.users = x.tables.db.users
  counts : ∀ u, x.locks (.user u) = some i → ∀ t, x'.sharedAt u t ≤ x.sharedAt u t
  drawn : ∀ id, x.locks (.moment id) = some i → id ∉ x.tables.drawn → id ∉ x'.tables.drawn

section
variable {r : Request} {u : UserID} {i j : Nat} {x x' : Shared} {st st' ou : Stage}

theorem Holds.spares (h : Holds x i u) (hs : Spares x x' i) : Holds x' i u := hs.locks _ h

theorem Counted.spares {t : UnixMilli} (h : Counted x i u t) (hs : Spares x x' i) :
    Counted x' i u t :=
  ⟨h.1.spares hs, lt_of_le_of_lt (hs.counts u h.1 t) h.2⟩

theorem MayCommit.spares {m : MomentRow} (h : MayCommit x i u m) (hs : Spares x x' i) :
    MayCommit x' i u m where
  author := h.author
  counted := h.counted.spares hs
  entry := hs.locks _ h.entry
  checked := h.checked
  new := hs.drawn _ h.entry h.new

/-- What a transaction knows is not disturbed by the others. -/
theorem Stage.Ok.spares (h : st.Ok u x i) (hs : Spares x x' i) : st.Ok u x' i := by
  cases st with
  | count startedAt =>
      intro hu
      rw [hs.users] at hu
      exact (h hu).spares hs
  | insertMoment startedAt =>
      intro hu
      rw [hs.users] at hu
      exact (h hu).spares hs
  | insertAudience m => exact MayCommit.spares h hs
  | commit m => exact MayCommit.spares h hs
  | begin | lock _ | rollback _ | done _ => trivial

theorem Spares.refl (x : Shared) (i : Nat) : Spares x x i :=
  ⟨fun _ h => h, rfl, fun _ _ _ => le_rfl, fun _ _ h => h⟩

/-- A transaction that takes or gives back locks spares the others. -/
theorem spares_of_locks {locks : Locks Resource}
    (h : ∀ k, x.locks k = some i → locks k = some i) : Spares x { x with locks } i :=
  { Spares.refl x i with locks := h }

/-! ## The commit -/

theorem users_commitMoment (s : Moments) (m : MomentRow) :
    (commitMoment s m).db.users = s.db.users := by
  unfold commitMoment
  split <;> rfl

theorem drawn_commitMoment {s : Moments} {m : MomentRow} {id : String} (h : id ∉ s.drawn)
    (hne : id ≠ m.id) : id ∉ (commitMoment s m).drawn := by
  unfold commitMoment
  split
  · rw [show (s.insert m _ _).drawn = m.id :: s.drawn from rfl, List.mem_cons, not_or]
    exact ⟨hne, h⟩
  · exact h

/-- Whoever may commit keeps the bound: a later time is later than its start,
    where it counted fewer than three. -/
theorem AtMost.commit {m : MomentRow} (h : ∀ v, AtMost x v) (hm : MayCommit x i u m)
    (locks : Locks Resource) (v : UserID) :
    AtMost ⟨commitMoment x.tables m, locks, (m.userID, m.createdAt) :: x.published⟩ v := by
  intro t ht
  unfold Shared.sharedAt
  by_cases hv : m.userID = v
  · have hstart : m.createdAt ≤ t := ht _ List.mem_cons_self hv
    have hcounted : (x.tables.tick m.createdAt).shared v < 3 := by
      rw [← hv, hm.author]
      exact hm.counted.2
    calc ((commitMoment x.tables m).tick t).shared v
        ≤ (x.tables.tick t).shared v + 1 := shared_commitMoment m
      _ ≤ (x.tables.tick m.createdAt).shared v + 1 := Nat.succ_le_succ (shared_antitone hstart)
      _ ≤ 3 := hcounted
  · rw [shared_commitMoment_of_ne hv]
    exact h v t fun p hp => ht p (List.mem_cons_of_mem _ hp)

/-- A commit spares those who have another author's row. -/
theorem MayCommit.spares_other {m : MomentRow} (hm : MayCommit x i u m) (hij : i ≠ j)
    (published : List (UserID × UnixMilli)) :
    Spares x ⟨commitMoment x.tables m, x.locks.release i, published⟩ j where
  locks _ hk := Locks.release_eq_some.mpr ⟨hk, hij.symm⟩
  users := users_commitMoment _ _
  counts v hv t := by
    refine le_of_eq (shared_commitMoment_of_ne ?_)
    rintro rfl
    rw [hm.author, hm.counted.1] at hv
    exact hij (Option.some.inj hv)
  drawn id hid hnew := by
    refine drawn_commitMoment hnew ?_
    rintro rfl
    rw [hm.entry] at hid
    exact hij (Option.some.inj hid)

/-! ## Schedules -/

theorem Move.own (h : Move r i x st x' st') (hbound : ∀ v, AtMost x v) (hok : st.Ok r.user x i) :
    (∀ v, AtMost x' v) ∧ st'.Ok r.user x' i := by
  cases h with
  | refused | begin => exact ⟨hbound, trivial⟩
  | fail _ status locks htaken => exact ⟨hbound, trivial⟩
  | unknown startedAt hnone =>
      refine ⟨hbound, fun hsome => ?_⟩
      rw [Option.isNone_iff_eq_none.mp hnone] at hsome
      cases hsome
  | lock startedAt locks htaken hheld => exact ⟨hbound, fun _ => hheld⟩
  | count startedAt hfree => exact ⟨hbound, fun hu => ⟨hok hu, hfree⟩⟩
  | insertMoment startedAt id locks htaken hheld hauthor hchecked hnew =>
      obtain ⟨hlock, hcounted⟩ := hok hauthor
      exact ⟨hbound, rfl, ⟨htaken.kept _ i hlock, hcounted⟩, hheld, hchecked, hnew⟩
  | insertAudience m => exact ⟨hbound, hok⟩
  | commit m status => exact ⟨AtMost.commit hbound hok _, trivial⟩
  | rollback status => exact ⟨hbound, trivial⟩

theorem Move.other (h : Move r i x st x' st') (hok : st.Ok r.user x i) (hij : i ≠ j) :
    Spares x x' j := by
  cases h with
  | refused | begin | unknown | count | insertAudience => exact .refl x j
  | fail _ status locks htaken => exact spares_of_locks fun k hk => htaken.kept k j hk
  | lock startedAt locks htaken hheld => exact spares_of_locks fun k hk => htaken.kept k j hk
  | insertMoment startedAt id locks htaken hheld hauthor hchecked hnew =>
      exact spares_of_locks fun k hk => htaken.kept k j hk
  | commit m status => exact MayCommit.spares_other hok hij _
  | rollback status =>
      exact spares_of_locks fun k hk => Locks.release_eq_some.mpr ⟨hk, hij.symm⟩

theorem users_exec (U : UUIDText) (s : Moments) (e : Other) :
    (e.exec U s).db.users = s.db.users ∧ (e.exec U s).drawn = s.drawn := by
  cases e with
  | delete v text =>
      simp only [Other.exec, Moments.deleteMoment]
      split
      · exact ⟨rfl, rfl⟩
      · split
        · exact ⟨rfl, rfl⟩
        · split <;> exact ⟨rfl, rfl⟩
  | cleanup => exact ⟨rfl, rfl⟩
  | tick now => exact ⟨rfl, rfl⟩

/-- Deleting spares everybody. -/
theorem spares_exec (U : UUIDText) (e : Other) :
    Spares x { x with tables := e.exec U x.tables } i where
  locks _ h := h
  users := (users_exec U x.tables e).1
  counts _ _ _ := shared_exec U e
  drawn id _ hnew := by
    rw [(users_exec U x.tables e).2]
    exact hnew

theorem publishers_sound (U : UUIDText) :
    (publishers U).Sound (fun x => ∀ v, AtMost x v) fun x i p => p.stage.Ok p.request.user x i where
  start x i r _ := by
    change r.start.Ok r.user x i
    unfold Request.start
    split <;> trivial
  own hbound hok hturn := by
    obtain ⟨⟨x', st'⟩, hstep, e⟩ := Option.map_eq_some_iff.mp hturn
    cases e
    exact (step_move hstep).own hbound hok
  other hij _ hok hok' hturn := by
    obtain ⟨⟨x', st'⟩, hstep, e⟩ := Option.map_eq_some_iff.mp hturn
    cases e
    exact hok'.spares ((step_move hstep).other hok hij)
  env := by
    intro e x x' hbound henv
    obtain rfl := Option.some.inj henv
    refine ⟨fun v t ht => le_trans (shared_exec U e) (hbound v t ht), fun i p hok => ?_⟩
    exact hok.spares (spares_exec U e)

end

/-- The quota of moments, in all schedules of POSTs, DELETEs and cleanups on
    empty tables: at a time when every publication of `u` that has committed had
    started, at most three moments of `u` expire later. -/
theorem moment_quota {U : UUIDText} {s : Moments} {t : Pool Shared Publisher} {u : UserID}
    {as : List (Schedule Request (String × Fault) Other)} (hempty : s.rows = [])
    (hrun : (publishingMachine U s).run as = some t) (now : UnixMilli)
    (hnow : ∀ p ∈ t.shared.published, p.1 = u → p.2 ≤ now) :
    (t.shared.tables.rows.filter fun m =>
      decide (m.userID = u) && decide (now < m.expiresAt)).length ≤ 3 := by
  refine ((publishers_sound U).run hrun fun v now _ => ?_).1 u now hnow
  rw [Shared.sharedAt, shared_tick, hempty]
  exact Nat.zero_le 3

def noMoments : Moments where
  db := annsConnections
  rows := []
  audience := []
  drawn := []
  now := 10
  primaryKey := by decide
  checked := by decide
  drawnIDs := by decide
  audienceKey := by decide
  momentExists := by decide
  connectionExists := by decide

/-- The statements of request `i`, when they succeed. -/
def statements (i : Nat) (id : String) (n : Nat) :
    List (Schedule Request (String × Fault) Other) :=
  List.replicate n (.turn i (id, .ok))

/-- Ann's first POST starts before her second one and commits after it. -/
def overtaken : List (Schedule Request (String × Fault) Other) :=
  .spawn ⟨"ann", true, "One", "mint"⟩ :: statements 0 "m1" 1
    ++ .env (.tick 20) :: .spawn ⟨"ann", true, "Two", "sand"⟩ :: statements 1 "m2" 6
    ++ statements 0 "m1" 5
    ++ .spawn ⟨"ann", true, "Three", "lilac"⟩ :: statements 2 "m3" 6
    ++ .spawn ⟨"ann", true, "Four", "lilac"⟩ :: statements 3 "m4" 4

/-- Three are published, and the fourth is refused. -/
theorem moment_quota_overtaken : ∃ t,
    (publishingMachine canonicalUUIDs noMoments).run overtaken = some t ∧
      t.shared.published = [("ann", 20), ("ann", 10), ("ann", 20)] ∧
      t.threads[3]? = some ⟨⟨"ann", true, "Four", "lilac"⟩, .done 409⟩ ∧
      (t.shared.tables.rows.filter fun m =>
        decide (m.userID = "ann") && decide (20 < m.expiresAt)).length ≤ 3 := by
  have hobs : ((publishingMachine canonicalUUIDs noMoments).run overtaken).map (fun t =>
      (t.shared.published, t.threads[3]?)) =
        some ([("ann", 20), ("ann", 10), ("ann", 20)],
          some ⟨⟨"ann", true, "Four", "lilac"⟩, .done 409⟩) := by
    decide +kernel
  obtain ⟨t, hrun, hobs⟩ := Option.map_eq_some_iff.mp hobs
  obtain ⟨hpublished, hfourth⟩ := Prod.mk.inj hobs
  refine ⟨t, hrun, hpublished, hfourth, moment_quota rfl hrun 20 ?_⟩
  rw [hpublished]
  decide

end OneMinute.Communication.Publishing
