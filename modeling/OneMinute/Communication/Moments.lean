/-
  OneMinute.Communication.Moments

  Moments and their audience: POST, GET and DELETE of moments, the cleanup, and
  the social transactions that GET depends on.

  POST copies the ids of the author's connections into `moment_audience`; GET
  asks again, for each of them, whether it has ended and whether the two are
  blocked.  What makes the audience shrink only (`shows_antitone`):

    * no statement adds rows to the audience of a moment that is published;
    * an ended connection stays ended, and its successor has another id;
    * a connection of the audience is never active and blocked, because Block
      ends it in the same transaction (`Moments.Cleared`).
-/

import OneMinute.Communication.Messages

namespace OneMinute.Communication

open Discovery (UserID UnixMilli MatchState Profile sortPair)

/-! ## Tables -/

structure MomentRow where
  id : String
  userID : UserID
  body : String
  tone : String
  createdAt : UnixMilli
  expiresAt : UnixMilli
deriving DecidableEq, Repr

def tones : List String := ["mint", "lilac", "sand"]

/-- The CHECK constraints of `moments`. -/
def MomentRow.Checked (m : MomentRow) : Prop :=
  1 ≤ m.body.length ∧ m.body.length ≤ 600 ∧ m.tone ∈ tones

instance (m : MomentRow) : Decidable m.Checked := inferInstanceAs (Decidable (_ ∧ _ ∧ _))

/-- `moments` and `moment_audience` beside the tables of `Database`, and the
    database's clock. -/
structure Moments where
  db : Database
  rows : List MomentRow
  /-- `moment_audience`, as (moment, connection). -/
  audience : List (String × String)
  /-- The values that `gen_random_uuid` has given to moments. -/
  drawn : List String
  now : UnixMilli
  primaryKey : (rows.map MomentRow.id).Nodup
  checked : ∀ m ∈ rows, m.Checked
  drawnIDs : ∀ m ∈ rows, m.id ∈ drawn
  audienceKey : audience.Nodup
  momentExists : ∀ a ∈ audience, a.1 ∈ rows.map MomentRow.id
  connectionExists : ∀ a ∈ audience, a.2 ∈ db.connections.rows.map ConnectionRow.id

/-- An item of GET moments. -/
structure Moment where
  id : String
  userID : UserID
  name : String
  avatar : String
  body : String
  tone : String
  createdAt : UnixMilli
  expiresAt : UnixMilli
  connectionID : String
deriving DecidableEq, Repr

namespace Moments

/-! ## GET -/

/-- The lateral subquery: a connection of the audience that `v` can still use. -/
def access (s : Moments) (v : UserID) (m : String) : Option String :=
  (s.db.connections.rows.find? fun r =>
      s.audience.contains (m, r.id) && r.active
        && (decide (v = r.userLow) || decide (v = r.userHigh))
        && !decide (s.db.blocked r.userLow r.userHigh)).map ConnectionRow.id

/-- The columns of the query, for an author with the profile `p`. -/
def itemOf (s : Moments) (v : UserID) (m : MomentRow) (p : Profile) : Moment :=
  ⟨m.id, m.userID, p.displayName, p.avatarURL, m.body, m.tone, m.createdAt, m.expiresAt,
    (s.access v m.id).getD ""⟩

/-- The row of the query for a moment that its WHERE keeps. -/
def item (s : Moments) (v : UserID) (m : MomentRow) : Option Moment :=
  (s.db.profile m.userID).toOption.bind fun p =>
    if s.now < m.expiresAt ∧ (m.userID = v ∨ (s.access v m.id).isSome) then
      some (s.itemOf v m p)
    else none

/-- GET moments, without its LIMIT: ORDER BY created_at DESC. -/
def get (s : Moments) (v : UserID) : List Moment :=
  (s.rows.filterMap (s.item v)).insertionSort fun a b => b.createdAt ≤ a.createdAt

/-- GET moments shows `v` the moment `m`. -/
def Shows (s : Moments) (v : UserID) (m : String) : Prop := ∃ x ∈ s.get v, x.id = m

instance (s : Moments) (v : UserID) (m : String) : Decidable (s.Shows v m) :=
  inferInstanceAs (Decidable (∃ x ∈ s.get v, _))

/-! ## POST -/

/-- The SELECT of the INSERT INTO moment_audience. -/
def snapshot (s : Moments) (u : UserID) : List String :=
  (s.db.connections.rows.filter fun r =>
      (decide (u = r.userLow) || decide (u = r.userHigh)) && r.active
        && !decide (s.db.blocked r.userLow r.userHigh)).map ConnectionRow.id

/-- How many moments of `u` have not expired. -/
def shared (s : Moments) (u : UserID) : Nat :=
  (s.rows.filter fun m => decide (m.userID = u) && decide (s.now < m.expiresAt)).length

/-- The row that the INSERT proposes. -/
def rowOf (s : Moments) (u : UserID) (body tone id : String) : MomentRow :=
  ⟨id, u, trimSpace body, tone, s.now, s.now + 24 * 60 * 60 * 1000⟩

theorem snapshot_nodup (s : Moments) (u : UserID) : (s.snapshot u).Nodup :=
  s.db.connections.primaryKey.sublist (List.filter_sublist.map _)

/-- The two INSERTs, for a row with a new id. -/
def insert (s : Moments) (m : MomentRow) (hchecked : m.Checked) (hnew : m.id ∉ s.drawn) :
    Moments where
  db := s.db
  rows := s.rows ++ [m]
  audience := s.audience ++ (s.snapshot m.userID).map fun c => (m.id, c)
  drawn := m.id :: s.drawn
  now := s.now
  primaryKey := Tables.nodup_map_concat s.primaryKey fun b hb e => hnew (e ▸ s.drawnIDs b hb)
  checked := by
    intro b hb
    rcases List.mem_append.mp hb with hb | hb
    · exact s.checked b hb
    · rwa [List.mem_singleton.mp hb]
  drawnIDs := by
    intro b hb
    rcases List.mem_append.mp hb with hb | hb
    · exact List.mem_cons_of_mem _ (s.drawnIDs b hb)
    · rw [List.mem_singleton.mp hb]
      exact List.mem_cons_self
  audienceKey := by
    refine List.nodup_append.mpr ⟨s.audienceKey, ?_, ?_⟩
    · exact (s.snapshot_nodup m.userID).map (Prod.mk_right_injective m.id)
    · rintro a ha b hb rfl
      obtain ⟨c, _, rfl⟩ := List.mem_map.mp hb
      obtain ⟨r, hr, hid⟩ := List.mem_map.mp (s.momentExists _ ha)
      have hdrawn : r.id ∈ s.drawn := s.drawnIDs r hr
      rw [hid] at hdrawn
      exact hnew hdrawn
  momentExists := by
    intro a ha
    rw [List.map_append, List.mem_append]
    rcases List.mem_append.mp ha with ha | ha
    · exact Or.inl (s.momentExists a ha)
    · obtain ⟨c, _, rfl⟩ := List.mem_map.mp ha
      exact Or.inr (by simp)
  connectionExists := by
    intro a ha
    rcases List.mem_append.mp ha with ha | ha
    · exact s.connectionExists a ha
    · obtain ⟨c, hc, rfl⟩ := List.mem_map.mp ha
      obtain ⟨r, hr, rfl⟩ := List.mem_map.mp hc
      exact List.mem_map_of_mem (List.mem_of_mem_filter hr)

/-- POST moments, after the rate limit: the tables, or the status of the reply. -/
def publish (s : Moments) (u : UserID) (body tone id : String) : Except Nat Moments :=
  if hchecked : (s.rowOf u body tone id).Checked then
    if 3 ≤ s.shared u then .error 409
    -- a text has no NUL, and the author must exist
    else if (trimSpace body).toList.contains (Char.ofNat 0) || (s.db.users u).isNone then .error 500
    -- gen_random_uuid gives no value twice
    else if hnew : id ∈ s.drawn then .error 500
    else .ok (s.insert (s.rowOf u body tone id) hchecked hnew)
  else .error 400

/-! ## DELETE -/

/-- DELETE FROM moments WHERE `p`; the audience goes by ON DELETE CASCADE. -/
def deleteWhere (s : Moments) (p : MomentRow → Bool) : Moments where
  db := s.db
  rows := s.rows.filter fun m => !p m
  audience := s.audience.filter fun a => !(s.rows.any fun m => p m && decide (m.id = a.1))
  drawn := s.drawn
  now := s.now
  primaryKey := s.primaryKey.sublist (List.filter_sublist.map _)
  checked := fun m hm => s.checked m (List.mem_of_mem_filter hm)
  drawnIDs := fun m hm => s.drawnIDs m (List.mem_of_mem_filter hm)
  audienceKey := s.audienceKey.filter _
  momentExists := by
    intro a ha
    obtain ⟨ha, hkeep⟩ := List.mem_filter.mp ha
    obtain ⟨m, hm, hid⟩ := List.mem_map.mp (s.momentExists a ha)
    refine List.mem_map.mpr ⟨m, List.mem_filter.mpr ⟨hm, ?_⟩, hid⟩
    simp only [Bool.not_eq_true', List.any_eq_false, Bool.and_eq_true, decide_eq_true_eq,
      not_and] at hkeep
    rw [Bool.not_eq_true', ← Bool.not_eq_true]
    exact fun hp => hkeep m hm hp hid
  connectionExists := fun a ha => s.connectionExists a (List.mem_of_mem_filter ha)

/-- id = `id` AND user_id = `u`. -/
def owned (u : UserID) (id : String) (m : MomentRow) : Bool :=
  decide (m.id = id) && decide (m.userID = u)

/-- `deleteMoment`. -/
def deleteMoment (s : Moments) (U : UUIDText) (u : UserID) (text : String) : Except Nat Moments :=
  if U.parses text = false then .error 404
  else
    match U.cast text with
    | none => .error 500
    | some id =>
      if s.rows.any (owned u id) then .ok (s.deleteWhere (owned u id)) else .error 404

/-- The statement of `RunMomentCleanup`. -/
def cleanup (s : Moments) : Moments := s.deleteWhere fun m => decide (m.expiresAt ≤ s.now)

/-! ## The transactions of discovery and social -/

/-- A transaction on the other tables, which keeps the connections' ids. -/
def setDatabase (s : Moments) (db : Database) (h : s.db.connections.Extends db.connections) :
    Moments :=
  { s with
    db
    connectionExists := by
      intro a ha
      obtain ⟨r, hr, hid⟩ := List.mem_map.mp (s.connectionExists a ha)
      obtain ⟨r', hr', hid', _⟩ := h r hr
      exact List.mem_map.mpr ⟨r', hr', hid'.trans hid⟩ }

def persistConnection (s : Moments) (m : MatchState) (endedAt : UnixMilli) (id : String) :
    Moments :=
  match h : s.db.persistConnection m endedAt id with
  | .error _ => s
  | .ok (_, db) =>
    s.setDatabase db
      (ConnectionTable.connect_extends (Database.persistConnection_eq_ok h).2.2.2)

def remove (s : Moments) (u : UserID) (c : String) : Moments :=
  s.setDatabase (s.db.remove u c s.now).2 (ConnectionTable.endWhere_extends _ _ _)

def block (s : Moments) (u target : UserID) : Moments :=
  match h : s.db.block u target s.now with
  | .error _ => s
  | .ok db =>
    s.setDatabase db ((Database.block_eq_ok h).2 ▸ ConnectionTable.endWhere_extends _ _ _)

def unblock (s : Moments) (u target : UserID) : Moments :=
  s.setDatabase (s.db.unblock u target) (ConnectionTable.Extends.refl _)

def tick (s : Moments) (now : UnixMilli) : Moments := { s with now }

end Moments

/-! ## The machine -/

/-- One transaction, or the clock.  Ids that the database draws are labels. -/
inductive MomentOp where
  | publish (u : UserID) (body tone id : String)
  | delete (u : UserID) (text : String)
  | cleanup
  | persistConnection (m : MatchState) (endedAt : UnixMilli) (id : String)
  | remove (u : UserID) (c : String)
  | block (u target : UserID)
  | unblock (u target : UserID)
  | tick (now : UnixMilli)
deriving DecidableEq

/-- A request that is refused leaves the tables as they are. -/
def Moments.after (s : Moments) (result : Except Nat Moments) : Moments :=
  result.toOption.getD s

def Moments.step (U : UUIDText) (s : Moments) : MomentOp → Option Moments
  | .publish u body tone id => some (s.after (s.publish u body tone id))
  | .delete u text => some (s.after (s.deleteMoment U u text))
  | .cleanup => some s.cleanup
  | .persistConnection m endedAt id => some (s.persistConnection m endedAt id)
  | .remove u c => some (s.remove u c)
  | .block u target => some (s.block u target)
  | .unblock u target => some (s.unblock u target)
  | .tick now => if s.now ≤ now then some (s.tick now) else none

def momentMachine (U : UUIDText) (init : Moments) : Machine Moments MomentOp where
  init
  step := Moments.step U

/-! ## What GET shows -/

namespace Moments

variable {s s' : Moments} {m : String}

theorem access_eq_some {v : UserID} {c : String} (h : s.access v m = some c) :
    ∃ r ∈ s.db.connections.rows, r.id = c ∧ (m, r.id) ∈ s.audience ∧ r.active = true ∧
      (v = r.userLow ∨ v = r.userHigh) ∧ ¬ s.db.blocked r.userLow r.userHigh := by
  obtain ⟨r, hfind, hid⟩ := Option.map_eq_some_iff.mp h
  have hr := List.find?_some hfind
  simp only [Bool.and_eq_true, Bool.or_eq_true, decide_eq_true_eq, List.contains_iff_mem,
    Bool.not_eq_true', decide_eq_false_iff_not] at hr
  obtain ⟨⟨⟨haudience, hactive⟩, hv⟩, hfree⟩ := hr
  exact ⟨r, List.mem_of_find?_eq_some hfind, hid, haudience, hactive, hv, hfree⟩

theorem access_isSome {v : UserID} {r : ConnectionRow} (hr : r ∈ s.db.connections.rows)
    (haudience : (m, r.id) ∈ s.audience) (hactive : r.active = true)
    (hv : v = r.userLow ∨ v = r.userHigh) (hfree : ¬ s.db.blocked r.userLow r.userHigh) :
    (s.access v m).isSome = true := by
  rw [access, Option.isSome_map, List.find?_isSome]
  refine ⟨r, hr, ?_⟩
  simp only [Bool.and_eq_true, Bool.or_eq_true, decide_eq_true_eq, List.contains_iff_mem,
    Bool.not_eq_true', decide_eq_false_iff_not]
  exact ⟨⟨⟨haudience, hactive⟩, hv⟩, hfree⟩

/-- A moment is shown while it stands, to its author and to those with access. -/
theorem shows_iff {v : UserID} :
    s.Shows v m ↔ ∃ x ∈ s.rows, x.id = m ∧ (s.db.profile x.userID).toOption.isSome = true ∧
      s.now < x.expiresAt ∧ (x.userID = v ∨ (s.access v m).isSome = true) := by
  constructor
  · rintro ⟨y, hy, rfl⟩
    rw [get, List.mem_insertionSort, List.mem_filterMap] at hy
    obtain ⟨x, hx, hitem⟩ := hy
    obtain ⟨p, hp, hitem⟩ := Option.bind_eq_some_iff.mp hitem
    split at hitem
    · next hwhere =>
        cases hitem
        exact ⟨x, hx, rfl, by rw [hp]; rfl, hwhere⟩
    · cases hitem
  · rintro ⟨x, hx, rfl, hp, hwhere⟩
    obtain ⟨p, hp⟩ := Option.isSome_iff_exists.mp hp
    refine ⟨s.itemOf v x p, ?_, rfl⟩
    rw [get, List.mem_insertionSort, List.mem_filterMap]
    exact ⟨x, hx, by rw [item, hp, Option.bind_some, if_pos hwhere]⟩

/-! ## The audience of a published moment -/

/-- The moment has been published, and none of its audience's connections is
    active and blocked. -/
structure Cleared (s : Moments) (m : String) : Prop where
  published : m ∈ s.drawn
  apart : ∀ r ∈ s.db.connections.rows, (m, r.id) ∈ s.audience → r.active = true →
    ¬ s.db.blocked r.userLow r.userHigh

/-- Nothing of what `m` is shown by was added between `s` and `s'`. -/
structure Shrinks (m : String) (s s' : Moments) : Prop where
  later : s.now ≤ s'.now
  profiles : ∀ u, (s'.db.profile u).toOption = (s.db.profile u).toOption
  rows : ∀ x ∈ s'.rows, x.id = m → x ∈ s.rows
  audience : ∀ c, (m, c) ∈ s'.audience → (m, c) ∈ s.audience
  usable : ∀ r' ∈ s'.db.connections.rows, (m, r'.id) ∈ s'.audience → r'.active = true →
    ¬ s'.db.blocked r'.userLow r'.userHigh →
    ∃ r ∈ s.db.connections.rows, r.id = r'.id ∧ r.pair = r'.pair ∧ r.active = true ∧
      ¬ s.db.blocked r.userLow r.userHigh

theorem Shrinks.refl (m : String) (s : Moments) : Shrinks m s s where
  later := le_rfl
  profiles _ := rfl
  rows _ hx _ := hx
  audience _ h := h
  usable r hr _ hactive hfree := ⟨r, hr, rfl, rfl, hactive, hfree⟩

theorem Shrinks.trans {s'' : Moments} (h : Shrinks m s s') (h' : Shrinks m s' s'') :
    Shrinks m s s'' where
  later := le_trans h.later h'.later
  profiles u := (h'.profiles u).trans (h.profiles u)
  rows x hx hid := h.rows x (h'.rows x hx hid) hid
  audience c hc := h.audience c (h'.audience c hc)
  usable := by
    intro r'' hr'' haudience hactive hfree
    obtain ⟨r', hr', hid', hpair', hactive', hfree'⟩ := h'.usable r'' hr'' haudience hactive hfree
    have haudience' : (m, r'.id) ∈ s'.audience := by
      rw [hid']
      exact h'.audience _ haudience
    obtain ⟨r, hr, hid, hpair, hact, hfr⟩ := h.usable r' hr' haudience' hactive' hfree'
    exact ⟨r, hr, hid.trans hid', hpair.trans hpair', hact, hfr⟩

/-- Who is shown the moment later was shown it before. -/
theorem Shrinks.shows {v : UserID} (h : Shrinks m s s') (hshows : s'.Shows v m) :
    s.Shows v m := by
  obtain ⟨x, hx, hid, hprofile, hexpires, hsees⟩ := shows_iff.mp hshows
  refine shows_iff.mpr ⟨x, h.rows x hx hid, hid, ?_, lt_of_le_of_lt h.later hexpires, ?_⟩
  · rwa [← h.profiles]
  · refine hsees.imp_right fun haccess => ?_
    obtain ⟨c, hc⟩ := Option.isSome_iff_exists.mp haccess
    obtain ⟨r', hr', _, haudience, hactive, hv, hfree⟩ := access_eq_some hc
    obtain ⟨r, hr, hid', hpair, hact, hfr⟩ := h.usable r' hr' haudience hactive hfree
    obtain ⟨hlow, hhigh⟩ := Prod.mk.inj hpair
    refine access_isSome hr ?_ hact (by rwa [hlow, hhigh]) hfr
    rw [hid']
    exact h.audience _ haudience

/-! ## What one transaction does to it -/

theorem Cleared.insert (h : s.Cleared m) {x : MomentRow} (hchecked : x.Checked)
    (hnew : x.id ∉ s.drawn) :
    (s.insert x hchecked hnew).Cleared m ∧ Shrinks m s (s.insert x hchecked hnew) := by
  have hne : x.id ≠ m := fun e => hnew (e ▸ h.published)
  -- the new rows are of another moment
  have haudience : ∀ c, (m, c) ∈ (s.insert x hchecked hnew).audience → (m, c) ∈ s.audience := by
    intro c hc
    rcases List.mem_append.mp hc with hc | hc
    · exact hc
    · obtain ⟨c', _, e⟩ := List.mem_map.mp hc
      exact absurd (Prod.mk.inj e).1 hne
  constructor
  · exact ⟨List.mem_cons_of_mem _ h.published, fun r hr ha => h.apart r hr (haudience _ ha)⟩
  · refine ⟨le_rfl, fun _ => rfl, ?_, haudience, fun r hr _ hactive hfree =>
      ⟨r, hr, rfl, rfl, hactive, hfree⟩⟩
    intro y hy hid
    rcases List.mem_append.mp hy with hy | hy
    · exact hy
    · rw [List.mem_singleton.mp hy] at hid
      exact absurd hid hne

theorem Cleared.deleteWhere (h : s.Cleared m) (p : MomentRow → Bool) :
    (s.deleteWhere p).Cleared m ∧ Shrinks m s (s.deleteWhere p) := by
  constructor
  · exact ⟨h.published, fun r hr ha => h.apart r hr (List.mem_of_mem_filter ha)⟩
  · exact ⟨le_rfl, fun _ => rfl, fun y hy _ => List.mem_of_mem_filter hy,
      fun _ hc => List.mem_of_mem_filter hc, fun r hr _ hactive hfree =>
        ⟨r, hr, rfl, rfl, hactive, hfree⟩⟩

theorem Cleared.setDatabase (h : s.Cleared m) {db : Database}
    (hext : s.db.connections.Extends db.connections) (hapart : s.db.KeepsApart db)
    (husers : db.users = s.db.users) (hprofiles : db.profiles = s.db.profiles) :
    (s.setDatabase db hext).Cleared m ∧ Shrinks m s (s.setDatabase db hext) := by
  -- a connection of the audience is an old one, which ended or stays as it was
  have hold : ∀ r' ∈ db.connections.rows, (m, r'.id) ∈ s.audience →
      ∃ r ∈ s.db.connections.rows, r.id = r'.id ∧ r.pair = r'.pair ∧
        (r'.active = true → r.active = true) := by
    intro r' hr' haudience
    obtain ⟨r, hr, hid⟩ := List.mem_map.mp (s.connectionExists _ haudience)
    obtain ⟨r₁, hr₁, hid₁, _, hpair₁, hended⟩ := hext r hr
    have hsame : r₁ = r' := Database.row_unique hr₁ hr' (hid₁.trans hid)
    refine ⟨r, hr, hid, by rw [← hsame, hpair₁], fun hactive => ?_⟩
    by_contra hinactive
    rw [← hsame, hended (by simpa using hinactive)] at hactive
    exact hinactive hactive
  constructor
  · refine ⟨h.published, fun r' hr' haudience hactive hblocked => ?_⟩
    rcases hapart r' hr' hactive hblocked with hnew | ⟨r, hr, hid, hact, hb⟩
    · exact hnew (s.connectionExists _ haudience)
    · exact h.apart r hr (hid ▸ haudience) hact hb
  · refine ⟨le_rfl, fun u => ?_, fun _ hx _ => hx, fun _ hc => hc, ?_⟩
    · simp only [Moments.setDatabase, Database.profile, husers, hprofiles]
    · intro r' hr' haudience hactive _
      obtain ⟨r, hr, hid, hpair, hact⟩ := hold r' hr' haudience
      exact ⟨r, hr, hid, hpair, hact hactive, h.apart r hr (hid ▸ haudience) (hact hactive)⟩

/-- A step that respects the moment `m`. -/
def Respects (m : String) (s s' : Moments) : Prop := s'.Cleared m ∧ Shrinks m s s'

theorem Cleared.refl (h : s.Cleared m) : Respects m s s := ⟨h, Shrinks.refl m s⟩

theorem publish_eq_ok {u : UserID} {body tone id : String}
    (h : s.publish u body tone id = .ok s') :
    ∃ hchecked hnew, s' = s.insert (s.rowOf u body tone id) hchecked hnew := by
  unfold publish at h
  split at h
  · next hchecked =>
      split at h
      · cases h
      · split at h
        · cases h
        · split at h
          · cases h
          · next hnew =>
              cases h
              exact ⟨hchecked, hnew, rfl⟩
  · cases h

theorem Cleared.publish (h : s.Cleared m) (u : UserID) (body tone id : String) :
    Respects m s (s.after (s.publish u body tone id)) := by
  cases hp : s.publish u body tone id with
  | error status => exact h.refl
  | ok s' =>
      obtain ⟨hchecked, hnew, rfl⟩ := publish_eq_ok hp
      exact h.insert hchecked hnew

theorem Cleared.deleteMoment (h : s.Cleared m) (U : UUIDText) (u : UserID) (text : String) :
    Respects m s (s.after (s.deleteMoment U u text)) := by
  unfold Moments.deleteMoment
  split
  · exact h.refl
  · split
    · exact h.refl
    · split
      · exact h.deleteWhere _
      · exact h.refl

theorem Cleared.persistConnection (h : s.Cleared m) (x : MatchState) (endedAt : UnixMilli)
    (id : String) : Respects m s (s.persistConnection x endedAt id) := by
  unfold Moments.persistConnection
  split
  · exact h.refl
  · next durableID db hok =>
      obtain ⟨husers, hprofiles⟩ := Database.persistConnection_accounts hok
      exact h.setDatabase _ (Database.keepsApart_persistConnection hok) husers hprofiles

theorem Cleared.block (h : s.Cleared m) (u target : UserID) :
    Respects m s (s.block u target) := by
  unfold Moments.block
  split
  · exact h.refl
  · next db hok =>
      obtain ⟨husers, hprofiles⟩ := Database.block_accounts hok
      exact h.setDatabase _ (Database.keepsApart_block hok) husers hprofiles

theorem Cleared.tick (h : s.Cleared m) {now : UnixMilli} (hle : s.now ≤ now) :
    Respects m s (s.tick now) := by
  constructor
  · exact ⟨h.published, h.apart⟩
  · exact ⟨hle, fun _ => rfl, fun _ hx _ => hx, fun _ hc => hc, fun r hr _ hactive hfree =>
      ⟨r, hr, rfl, rfl, hactive, hfree⟩⟩

theorem Cleared.step {U : UUIDText} {a : MomentOp} (h : s.Cleared m)
    (hstep : s.step U a = some s') : Respects m s s' := by
  cases a with
  | publish u body tone id =>
      obtain rfl := Option.some.inj hstep
      exact h.publish u body tone id
  | delete u text =>
      obtain rfl := Option.some.inj hstep
      exact h.deleteMoment U u text
  | cleanup =>
      obtain rfl := Option.some.inj hstep
      exact h.deleteWhere _
  | persistConnection x endedAt id =>
      obtain rfl := Option.some.inj hstep
      exact h.persistConnection x endedAt id
  | remove u c =>
      obtain rfl := Option.some.inj hstep
      exact h.setDatabase _ (Database.keepsApart_remove s.db u c s.now) rfl rfl
  | block u target =>
      obtain rfl := Option.some.inj hstep
      exact h.block u target
  | unblock u target =>
      obtain rfl := Option.some.inj hstep
      exact h.setDatabase _ (Database.keepsApart_unblock s.db u target) rfl rfl
  | tick now =>
      obtain ⟨hle, hstep⟩ := Option.ite_none_right_eq_some.mp hstep
      obtain rfl := Option.some.inj hstep
      exact h.tick hle

/-- Whatever happens to a published moment, its audience shrinks. -/
theorem Cleared.run {U : UUIDText} {init : Moments} {as : List MomentOp} (h : s.Cleared m)
    (hrun : (momentMachine U init).runFrom s as = some s') : Respects m s s' :=
  Machine.runFrom_relates (P := fun t : Moments => t.Cleared m) (R := Shrinks m)
    (Shrinks.refl m) Shrinks.trans
    (fun _ _ _ hs hstep => hs.step hstep) hrun h

/-! ## Publication -/

/-- A new moment's audience are the author's connections, active and unblocked. -/
theorem audience_of_publish {u : UserID} {body tone id c : String}
    (h : s.publish u body tone id = .ok s') (hc : (id, c) ∈ s'.audience) :
    ∃ r ∈ s.db.connections.rows, r.id = c ∧ (u = r.userLow ∨ u = r.userHigh) ∧
      r.active = true ∧ ¬ s.db.blocked r.userLow r.userHigh := by
  obtain ⟨hchecked, hnew, rfl⟩ := publish_eq_ok h
  rcases List.mem_append.mp hc with hc | hc
  · obtain ⟨x, hx, hid⟩ := List.mem_map.mp (s.momentExists _ hc)
    have hdrawn : x.id ∈ s.drawn := s.drawnIDs x hx
    rw [hid] at hdrawn
    exact absurd hdrawn hnew
  · obtain ⟨c', hc', e⟩ := List.mem_map.mp hc
    obtain ⟨r, hr, hid⟩ := List.mem_map.mp hc'
    obtain ⟨hr, hwhere⟩ := List.mem_filter.mp hr
    simp only [Bool.and_eq_true, Bool.or_eq_true, decide_eq_true_eq, Bool.not_eq_true',
      decide_eq_false_iff_not] at hwhere
    exact ⟨r, hr, hid.trans (Prod.mk.inj e).2, hwhere.1.1, hwhere.1.2, hwhere.2⟩

theorem cleared_of_publish {u : UserID} {body tone id : String}
    (h : s.publish u body tone id = .ok s') : s'.Cleared id := by
  have haudience := fun c => audience_of_publish (c := c) h
  obtain ⟨hchecked, hnew, rfl⟩ := publish_eq_ok h
  refine ⟨List.mem_cons_self, fun r hr hmem _ => ?_⟩
  obtain ⟨r', hr', hid, _, _, hfree⟩ := haudience _ hmem
  rwa [← Database.row_unique hr' hr hid]

/-- A moment's audience only shrinks.  After its publication, a user other than
    the author to whom GET does not show it at one time is not shown it later;
    and whoever is shown it was then an active, unblocked connection of the
    author. -/
theorem moment_audience_shrinks {U : UUIDText} {init s s₁ s₂ s₃ : Moments} {u v : UserID}
    {body tone m : String} {as bs : List MomentOp}
    (hpublish : s.publish u body tone m = .ok s₁)
    (hrun : (momentMachine U init).runFrom s₁ as = some s₂)
    (hlater : (momentMachine U init).runFrom s₂ bs = some s₃) (hv : v ≠ u) :
    (¬ s₂.Shows v m → ¬ s₃.Shows v m) ∧
      (s₂.Shows v m → ∃ r, s.db.Usable r ∧ (r.pair = (u, v) ∨ r.pair = (v, u))) := by
  obtain ⟨hcleared, hshrinks⟩ := (cleared_of_publish hpublish).run hrun
  constructor
  · exact mt (hcleared.run hlater).2.shows
  · intro hshows
    -- who is shown it in `s₂` was shown it at publication
    obtain ⟨x, hx, hid, _, _, hsees⟩ := shows_iff.mp (hshrinks.shows hshows)
    have hauthor : x.userID = u := by
      obtain ⟨hchecked, hnew, rfl⟩ := publish_eq_ok hpublish
      rcases List.mem_append.mp hx with hx | hx
      · exact absurd (hid ▸ s.drawnIDs x hx) hnew
      · rw [List.mem_singleton.mp hx]
        rfl
    obtain ⟨c, hc⟩ := Option.isSome_iff_exists.mp
      (hsees.resolve_left fun e => hv (e.symm.trans hauthor))
    obtain ⟨r, hr, _, haudience, _, hends, _⟩ := access_eq_some hc
    obtain ⟨r', hr', hid', hu, hactive, hfree⟩ := audience_of_publish hpublish haudience
    have hdb : s₁.db = s.db := by
      obtain ⟨hchecked, hnew, rfl⟩ := publish_eq_ok hpublish
      rfl
    rw [hdb] at hr
    rw [Database.row_unique hr' hr hid'] at hu hactive hfree
    refine ⟨r, ⟨hr, hactive, hfree⟩, ?_⟩
    unfold ConnectionRow.pair
    rcases hu with rfl | rfl <;> rcases hends with rfl | rfl
    · exact absurd rfl hv
    · exact Or.inl rfl
    · exact Or.inr rfl
    · exact absurd rfl hv

/-- Ben has an old moment that Ann could see. -/
def annsMoments : Moments where
  db := { annsConnections with profiles := fun u => some ⟨u, u, ""⟩ }
  rows := [⟨"m0", "ben", "Hi", "sand", -90000000, -3600000⟩]
  audience := [("m0", withBen)]
  drawn := ["m0"]
  now := 0
  primaryKey := by decide
  checked := by decide +kernel
  drawnIDs := by decide
  audienceKey := by decide
  momentExists := by decide
  connectionExists := by decide

/-- Ann blocks Ben, unblocks him and meets him again. -/
def metAgain : List MomentOp :=
  [.unblock "ann" "ben",
    .persistConnection
      ⟨"m3", "ann", "ben", "new_friends", none, [], some .active, 2, 60002⟩ 3 "r3"]

/-- Ben is shown Ann's moment until she blocks him, and never again. -/
theorem moment_audience_shrinks_metAgain : ∃ s₁ s₂ s₃ s₄,
    annsMoments.publish "ann" " Hello " "mint" "m1" = .ok s₁ ∧
      (momentMachine canonicalUUIDs annsMoments).runFrom s₁ [.tick 1] = some s₂ ∧
      (momentMachine canonicalUUIDs annsMoments).runFrom s₂ [.block "ann" "ben"] = some s₃ ∧
      (momentMachine canonicalUUIDs annsMoments).runFrom s₃ metAgain = some s₄ ∧
      (∃ r, annsMoments.db.Usable r ∧ (r.pair = ("ann", "ben") ∨ r.pair = ("ben", "ann"))) ∧
      s₂.Shows "ben" "m1" ∧ s₄.db.peer "ben" "r3" = some "ann" ∧ ¬ s₄.Shows "ben" "m1" := by
  have hobs : ((annsMoments.publish "ann" " Hello " "mint" "m1").toOption.bind fun s₁ =>
      ((momentMachine canonicalUUIDs annsMoments).runFrom s₁ [.tick 1]).bind fun s₂ =>
        ((momentMachine canonicalUUIDs annsMoments).runFrom s₂ [.block "ann" "ben"]).bind
          fun s₃ => ((momentMachine canonicalUUIDs annsMoments).runFrom s₃ metAgain).map
            fun s₄ => decide (s₂.Shows "ben" "m1" ∧ ¬ s₃.Shows "ben" "m1" ∧
              s₄.db.peer "ben" "r3" = some "ann")) = some true := by
    decide +kernel
  obtain ⟨s₁, hpublish, hobs⟩ := Option.bind_eq_some_iff.mp hobs
  obtain ⟨s₂, h₂, hobs⟩ := Option.bind_eq_some_iff.mp hobs
  obtain ⟨s₃, h₃, hobs⟩ := Option.bind_eq_some_iff.mp hobs
  obtain ⟨s₄, h₄, hobs⟩ := Option.map_eq_some_iff.mp hobs
  obtain ⟨hshown, hhidden, hpeer⟩ := of_decide_eq_true hobs
  have hok : annsMoments.publish "ann" " Hello " "mint" "m1" = .ok s₁ := by
    cases hp : annsMoments.publish "ann" " Hello " "mint" "m1" with
    | error status =>
        rw [hp] at hpublish
        cases hpublish
    | ok s =>
        rw [hp] at hpublish
        exact congrArg _ (Option.some.inj hpublish)
  have hbefore := moment_audience_shrinks (v := "ben") hok h₂ h₃ (by decide)
  have hafter := moment_audience_shrinks (v := "ben") hok
    (Machine.runFrom_append_eq_some.mpr ⟨s₂, h₂, h₃⟩) h₄ (by decide)
  exact ⟨s₁, s₂, s₃, s₄, hok, h₂, h₃, h₄, hbefore.2 hshown, hshown, hpeer, hafter.1 hhidden⟩

end Moments

end OneMinute.Communication
