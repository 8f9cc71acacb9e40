/-
  OneMinute.Repository

  The PostgreSQL tables behind discovery and social, and the two Repository
  types on them.

  A table carries its constraints: primary keys, unique indexes and CHECKs are
  fields, so a table that breaks one cannot be built, and an INSERT that would
  break one is an error.  Each Repository method is one transaction, so a
  function of the database; an error leaves it as it was.
-/

import OneMinute.Discovery.Store

namespace OneMinute

open Discovery

inductive AccountStatus where
  | active
  | suspended
  | banned
  | deleted
deriving DecidableEq, Repr

/-- Why a statement failed. -/
inductive DbError where
  | check
  | foreignKey
  | unique
  | noRows
deriving DecidableEq, Repr

/-! ## Tables -/

/-- `blocks`, as (blocker, blocked). -/
structure BlockTable where
  rows : List (UserID × UserID)
  primaryKey : rows.Nodup
  distinct : ∀ r ∈ rows, r.1 ≠ r.2

inductive EncounterOutcome where
  | connected
  | reported
deriving DecidableEq, Repr

structure EncounterRow where
  id : MatchID
  userLow : UserID
  userHigh : UserID
  startedAt : UnixMilli
  endedAt : UnixMilli
  intent : String
  sharedInterests : List String
  outcome : EncounterOutcome
deriving DecidableEq, Repr

/-- The CHECK constraints of `encounters`. -/
def EncounterRow.Checked (r : EncounterRow) : Prop :=
  r.userLow < r.userHigh ∧ r.startedAt ≤ r.endedAt ∧
    1 ≤ r.intent.length ∧ r.intent.length ≤ 40

instance (r : EncounterRow) : Decidable r.Checked :=
  inferInstanceAs (Decidable (_ ∧ _ ∧ _ ∧ _))

structure EncounterTable where
  rows : List EncounterRow
  primaryKey : (rows.map EncounterRow.id).Nodup
  checked : ∀ r ∈ rows, r.Checked

structure ConnectionRow where
  id : String
  userLow : UserID
  userHigh : UserID
  encounterID : MatchID
  createdAt : UnixMilli
  endedAt : Option UnixMilli
deriving DecidableEq, Repr

def ConnectionRow.pair (r : ConnectionRow) : UserID × UserID := (r.userLow, r.userHigh)

def ConnectionRow.active (r : ConnectionRow) : Bool := r.endedAt.isNone

/-- `connections` with its primary key, the UNIQUE `encounter_id` and the
    partial unique index on the pair of an active row. -/
structure ConnectionTable where
  rows : List ConnectionRow
  primaryKey : (rows.map ConnectionRow.id).Nodup
  encounterOnce : (rows.map ConnectionRow.encounterID).Nodup
  activePair : ((rows.filter ConnectionRow.active).map ConnectionRow.pair).Nodup
  checked : ∀ r ∈ rows, r.userLow < r.userHigh

/-- Rows hold ids as the canonical texts of UUIDs; `cast` takes an argument of a
    statement to the text that its row would hold. -/
structure Database where
  users : UserID → Option AccountStatus
  profiles : UserID → Option Profile
  blocks : BlockTable
  encounters : EncounterTable
  connections : ConnectionTable
  /-- PostgreSQL's cast to UUID, which reads several spellings of one UUID; `none`
      is an error of the statement. -/
  cast : String → Option String

/-! ## Statements on one table -/

/-- INSERT INTO blocks .. ON CONFLICT DO NOTHING. -/
def BlockTable.insert (t : BlockTable) (a b : UserID) : Except DbError BlockTable :=
  if hne : a = b then .error .check
  -- ON CONFLICT DO NOTHING
  else if hmem : (a, b) ∈ t.rows then .ok t
  else
    .ok
      { rows := (a, b) :: t.rows
        primaryKey := List.nodup_cons.mpr ⟨hmem, t.primaryKey⟩
        distinct := List.forall_mem_cons.mpr ⟨hne, t.distinct⟩ }

def BlockTable.delete (t : BlockTable) (a b : UserID) : BlockTable where
  rows := t.rows.filter fun r => decide (r ≠ (a, b))
  primaryKey := t.primaryKey.filter _
  distinct := fun r hr => t.distinct r (List.mem_of_mem_filter hr)

/-- INSERT INTO encounters .. ON CONFLICT(id) DO UPDATE SET outcome; the CHECKs
    are on the proposed row, before the conflict is looked for. -/
def EncounterTable.upsert (t : EncounterTable) (r : EncounterRow) :
    Except DbError EncounterTable :=
  if hc : r.Checked then
    if hmem : r.id ∈ t.rows.map EncounterRow.id then
      .ok
        -- the row of the conflict keeps all but its outcome
        { rows := t.rows.map fun x => if x.id = r.id then { x with outcome := r.outcome } else x
          primaryKey := by
            rw [List.map_map]
            refine (List.map_congr_left fun x _ => ?_) ▸ t.primaryKey
            simp only [Function.comp]
            split <;> rfl
          checked := by
            intro x hx
            obtain ⟨y, hy, rfl⟩ := List.mem_map.mp hx
            split
            · exact t.checked y hy
            · exact t.checked y hy }
    else
      .ok
        { rows := r :: t.rows
          primaryKey := by
            rw [List.map_cons]
            exact List.nodup_cons.mpr ⟨hmem, t.primaryKey⟩
          checked := List.forall_mem_cons.mpr ⟨hc, t.checked⟩ }
  else .error .check

/-- The active row of a pair. -/
def ConnectionTable.activeRow (t : ConnectionTable) (pair : UserID × UserID) :
    Option ConnectionRow :=
  t.rows.find? fun r => r.active && decide (r.pair = pair)

theorem ConnectionTable.activeRow_eq_none {t : ConnectionTable} {pair : UserID × UserID} :
    t.activeRow pair = none ↔ ∀ r ∈ t.rows, r.active = true → r.pair ≠ pair := by
  simp [activeRow]

theorem ConnectionTable.activeRow_eq_some {t : ConnectionTable} {pair : UserID × UserID}
    {r : ConnectionRow} (h : t.activeRow pair = some r) :
    r ∈ t.rows ∧ r.active = true ∧ r.pair = pair := by
  have hp := List.find?_some h
  rw [Bool.and_eq_true, decide_eq_true_eq] at hp
  exact ⟨List.mem_of_find?_eq_some h, hp.1, hp.2⟩

/-- INSERT INTO connections .. ON CONFLICT(user_low,user_high) WHERE ended_at IS
    NULL DO UPDATE .. RETURNING id: the active row of the pair if there is one,
    else the new row unless its id or its encounter is taken. -/
def ConnectionTable.connect (t : ConnectionTable) (id : String) (pair : UserID × UserID)
    (encounterID : MatchID) (createdAt : UnixMilli) :
    Except DbError (String × ConnectionTable) :=
  if hc : pair.1 < pair.2 then
    match hact : t.activeRow pair with
    -- DO UPDATE SET encounter_id to the row's own, which changes nothing
    | some r => .ok (r.id, t)
    | none =>
      -- the conflict target is the pair; other unique keys are errors
      if hu : id ∈ t.rows.map ConnectionRow.id
          ∨ encounterID ∈ t.rows.map ConnectionRow.encounterID then .error .unique
      else
        .ok (id,
          { rows := ⟨id, pair.1, pair.2, encounterID, createdAt, none⟩ :: t.rows
            primaryKey := by
              rw [List.map_cons]
              exact List.nodup_cons.mpr ⟨fun h => hu (Or.inl h), t.primaryKey⟩
            encounterOnce := by
              rw [List.map_cons]
              exact List.nodup_cons.mpr ⟨fun h => hu (Or.inr h), t.encounterOnce⟩
            activePair := by
              rw [List.filter_cons_of_pos rfl, List.map_cons]
              refine List.nodup_cons.mpr ⟨fun h => ?_, t.activePair⟩
              obtain ⟨r, hr, hpair⟩ := List.mem_map.mp h
              obtain ⟨hmem, hactive⟩ := List.mem_filter.mp hr
              exact ConnectionTable.activeRow_eq_none.mp hact r hmem hactive hpair
            checked := List.forall_mem_cons.mpr ⟨hc, t.checked⟩ })
  else .error .check

/-- One row of an UPDATE connections SET ended_at=now() WHERE ended_at IS NULL
    AND `p`. -/
def ConnectionRow.endIf (p : ConnectionRow → Bool) (now : UnixMilli) (r : ConnectionRow) :
    ConnectionRow :=
  if r.active && p r then { r with endedAt := some now } else r

@[simp] theorem ConnectionRow.endIf_id (p : ConnectionRow → Bool) (now : UnixMilli)
    (r : ConnectionRow) : (r.endIf p now).id = r.id := by
  unfold endIf
  split <;> rfl

@[simp] theorem ConnectionRow.endIf_encounterID (p : ConnectionRow → Bool) (now : UnixMilli)
    (r : ConnectionRow) : (r.endIf p now).encounterID = r.encounterID := by
  unfold endIf
  split <;> rfl

@[simp] theorem ConnectionRow.endIf_userLow (p : ConnectionRow → Bool) (now : UnixMilli)
    (r : ConnectionRow) : (r.endIf p now).userLow = r.userLow := by
  unfold endIf
  split <;> rfl

@[simp] theorem ConnectionRow.endIf_userHigh (p : ConnectionRow → Bool) (now : UnixMilli)
    (r : ConnectionRow) : (r.endIf p now).userHigh = r.userHigh := by
  unfold endIf
  split <;> rfl

@[simp] theorem ConnectionRow.endIf_pair (p : ConnectionRow → Bool) (now : UnixMilli)
    (r : ConnectionRow) : (r.endIf p now).pair = r.pair := by
  simp [pair]

theorem ConnectionRow.endIf_active (p : ConnectionRow → Bool) (now : UnixMilli)
    (r : ConnectionRow) : (r.endIf p now).active = (r.active && !p r) := by
  unfold endIf
  split
  · next h =>
      rw [Bool.and_eq_true] at h
      simp [active, h.2]
  · next h =>
      rw [Bool.and_eq_true, not_and, Bool.not_eq_true] at h
      cases ha : r.active with
      | false => rfl
      | true => simp [h ha]

/-- An ended row keeps its instant. -/
theorem ConnectionRow.endIf_of_ended (p : ConnectionRow → Bool) (now : UnixMilli)
    {r : ConnectionRow} (h : r.active = false) : r.endIf p now = r := by
  simp [endIf, h]

/-- UPDATE connections SET ended_at=now() WHERE ended_at IS NULL AND `p`. -/
def ConnectionTable.endWhere (t : ConnectionTable) (p : ConnectionRow → Bool)
    (now : UnixMilli) : ConnectionTable where
  rows := t.rows.map (ConnectionRow.endIf p now)
  primaryKey := by
    rw [List.map_map]
    refine (List.map_congr_left fun x _ => ?_) ▸ t.primaryKey
    simp
  encounterOnce := by
    rw [List.map_map]
    refine (List.map_congr_left fun x _ => ?_) ▸ t.encounterOnce
    simp
  activePair := by
    rw [List.filter_map, List.map_map]
    have hsub : (t.rows.filter (ConnectionRow.active ∘ ConnectionRow.endIf p now)).Sublist
        (t.rows.filter ConnectionRow.active) := by
      refine List.monotone_filter_right _ fun r hr => ?_
      rw [Function.comp, ConnectionRow.endIf_active, Bool.and_eq_true] at hr
      exact hr.1
    have hmap : (t.rows.filter (ConnectionRow.active ∘ ConnectionRow.endIf p now)).map
        (ConnectionRow.pair ∘ ConnectionRow.endIf p now) =
        (t.rows.filter (ConnectionRow.active ∘ ConnectionRow.endIf p now)).map
          ConnectionRow.pair :=
      List.map_congr_left fun r _ => ConnectionRow.endIf_pair p now r
    rw [hmap]
    exact t.activePair.sublist (hsub.map _)
  checked := by
    intro r hr
    obtain ⟨x, hx, rfl⟩ := List.mem_map.mp hr
    rw [ConnectionRow.endIf_userLow, ConnectionRow.endIf_userHigh]
    exact t.checked x hx

/-! ## The Repository methods -/

namespace Database

/-- A blocks row between the two, in either direction. -/
def blocked (db : Database) (a b : UserID) : Prop :=
  (a, b) ∈ db.blocks.rows ∨ (b, a) ∈ db.blocks.rows

instance (db : Database) (a b : UserID) : Decidable (db.blocked a b) :=
  inferInstanceAs (Decidable (_ ∨ _))

/-- The foreign keys of a pair of users. -/
def knows (db : Database) (a b : UserID) : Bool := (db.users a).isSome && (db.users b).isSome

/-- `EligiblePair`: two users, both active, no block between them. -/
def eligiblePair (db : Database) (a b : UserID) : Bool :=
  decide (a ≠ b) && decide (db.users a = some .active) && decide (db.users b = some .active)
    && !decide (db.blocked a b)

/-- `discovery.Repository.Profile`. -/
def profile (db : Database) (u : UserID) : Except DbError Profile :=
  match db.users u, db.profiles u with
  | some .active, some p => .ok p
  | _, _ => .error .noRows

/-- The encounters row that PersistConnection inserts. -/
def encounterOf (m : MatchState) (endedAt : UnixMilli) : EncounterRow :=
  ⟨m.id, (sortPair m.userA m.userB).1, (sortPair m.userA m.userB).2, m.startedAt, endedAt,
    m.intent, m.sharedInterests, .connected⟩

/-- `PersistConnection`, with the instant it reads and the id the database
    draws for a new row. -/
def persistConnection (db : Database) (m : MatchState) (endedAt : UnixMilli) (id : String) :
    Except DbError (String × Database) := do
  let users := sortPair m.userA m.userB
  -- one transaction: an error leaves the database as it was
  if db.knows users.1 users.2 = false then throw .foreignKey
  let encounters ← db.encounters.upsert (encounterOf m endedAt)
  let (durableID, connections) ← db.connections.connect id users m.id endedAt
  return (durableID, { db with encounters, connections })

/-- `ConnectionPeer`, for any spelling of the id; `none` is its error. -/
def connectionPeer (db : Database) (u : UserID) (connectionID : String) :
    Option (Option UserID) :=
  (db.cast connectionID).map fun c =>
    (db.connections.rows.find? fun r =>
        decide (r.id = c) && r.active
          && (decide (u = r.userLow) || decide (u = r.userHigh))).map
      fun r => if r.userLow = u then r.userHigh else r.userLow

/-- `Remove`, after the cast of the id: whether a row was ended. -/
def remove (db : Database) (u : UserID) (connectionID : String) (now : UnixMilli) :
    Bool × Database :=
  let p (r : ConnectionRow) : Bool :=
    decide (r.id = connectionID) && (decide (u = r.userLow) || decide (u = r.userHigh))
  (db.connections.rows.any fun r => r.active && p r,
    { db with connections := db.connections.endWhere p now })

/-- `Block`.  Its target is the id of a participant as the code has read it, so
    the cast leaves it as it is. -/
def block (db : Database) (u target : UserID) (now : UnixMilli) : Except DbError Database := do
  if db.knows u target = false then throw .foreignKey
  let blocks ← db.blocks.insert u target
  return { db with
    blocks
    connections := db.connections.endWhere (fun r => decide (r.pair = sortPair u target)) now }

/-- `Unblock`, after the cast of the target. -/
def unblock (db : Database) (u target : UserID) : Database :=
  { db with blocks := db.blocks.delete u target }

end Database

/-! ## What a transaction does -/

/-- The sorted pair is the two ids in ascending order. -/
theorem sortPair_of_lt {a b low high : String} (hlt : low < high)
    (h : (low, high) = (a, b) ∨ (high, low) = (a, b)) : sortPair a b = (low, high) := by
  unfold sortPair
  rcases h with h | h
  · cases h
    rw [if_neg (not_lt_of_gt hlt)]
  · cases h
    rw [if_pos hlt]

theorem sortPair_mem (a b : String) :
    sortPair a b = (a, b) ∨ sortPair a b = (b, a) := by
  unfold sortPair
  split
  · exact Or.inr rfl
  · exact Or.inl rfl

namespace ConnectionTable

/-- Rows stay, with their id, encounter and pair; an ended row stays as it is. -/
def Extends (t t' : ConnectionTable) : Prop :=
  ∀ r ∈ t.rows, ∃ r' ∈ t'.rows, r'.id = r.id ∧ r'.encounterID = r.encounterID ∧
    r'.pair = r.pair ∧ (r.active = false → r' = r)

theorem Extends.refl (t : ConnectionTable) : t.Extends t :=
  fun r hr => ⟨r, hr, rfl, rfl, rfl, fun _ => rfl⟩

theorem Extends.trans {t₁ t₂ t₃ : ConnectionTable} (h₁ : t₁.Extends t₂) (h₂ : t₂.Extends t₃) :
    t₁.Extends t₃ := by
  intro r hr
  obtain ⟨r', hr', hid, henc, hpair, hend⟩ := h₁ r hr
  obtain ⟨r'', hr'', hid', henc', hpair', hend'⟩ := h₂ r' hr'
  refine ⟨r'', hr'', hid'.trans hid, henc'.trans henc, hpair'.trans hpair, fun ha => ?_⟩
  have hsame := hend ha
  rw [hend' (by rw [hsame]; exact ha), hsame]

theorem endWhere_extends (t : ConnectionTable) (p : ConnectionRow → Bool) (now : UnixMilli) :
    t.Extends (t.endWhere p now) := by
  intro r hr
  refine ⟨r.endIf p now, List.mem_map_of_mem hr, by simp, by simp, by simp, fun ha => ?_⟩
  exact ConnectionRow.endIf_of_ended p now ha

/-- What the insert of PersistConnection returns: the pair's active row, or a
    new one for an encounter that had none. -/
theorem connect_eq_ok {t t' : ConnectionTable} {id durableID : String}
    {pair : UserID × UserID} {encounterID : MatchID} {createdAt : UnixMilli}
    (h : t.connect id pair encounterID createdAt = .ok (durableID, t')) :
    (t' = t ∧ ∃ r ∈ t.rows, r.id = durableID ∧ r.active = true ∧ r.pair = pair) ∨
      (durableID = id ∧ t.activeRow pair = none ∧ id ∉ t.rows.map ConnectionRow.id ∧
        encounterID ∉ t.rows.map ConnectionRow.encounterID ∧
        t'.rows = ⟨id, pair.1, pair.2, encounterID, createdAt, none⟩ :: t.rows) := by
  unfold connect at h
  split at h
  · split at h
    -- the pair has an active row
    · next r hact =>
        cases h
        obtain ⟨hmem, hactive, hpair⟩ := activeRow_eq_some hact
        exact Or.inl ⟨rfl, r, hmem, rfl, hactive, hpair⟩
    · next hact =>
        split at h
        · cases h
        · next hu =>
            cases h
            rw [not_or] at hu
            exact Or.inr ⟨rfl, hact, hu.1, hu.2, rfl⟩
  · cases h

/-- A new row is inserted when no constraint is in its way. -/
theorem connect_of_new {t : ConnectionTable} {id : String} {pair : UserID × UserID}
    {encounterID : MatchID} {createdAt : UnixMilli} (hlt : pair.1 < pair.2)
    (hact : t.activeRow pair = none) (hid : id ∉ t.rows.map ConnectionRow.id)
    (henc : encounterID ∉ t.rows.map ConnectionRow.encounterID) :
    ∃ t', t.connect id pair encounterID createdAt = .ok (id, t') ∧
      t'.rows = ⟨id, pair.1, pair.2, encounterID, createdAt, none⟩ :: t.rows := by
  unfold connect
  rw [dif_pos hlt]
  split
  · next r hr =>
      rw [hact] at hr
      cases hr
  · rw [dif_neg (not_or.mpr ⟨hid, henc⟩)]
    exact ⟨_, rfl, rfl⟩

/-- The returned id is that of an active row of the pair. -/
theorem connect_active {t t' : ConnectionTable} {id durableID : String}
    {pair : UserID × UserID} {encounterID : MatchID} {createdAt : UnixMilli}
    (h : t.connect id pair encounterID createdAt = .ok (durableID, t')) :
    ∃ r ∈ t'.rows, r.id = durableID ∧ r.active = true ∧ r.pair = pair := by
  rcases connect_eq_ok h with ⟨hsame, hr⟩ | ⟨hid, _, _, _, hrows⟩
  · rw [hsame]
    exact hr
  · rw [hrows]
    exact ⟨_, List.mem_cons_self, hid.symm, rfl, rfl⟩

theorem connect_extends {t t' : ConnectionTable} {id durableID : String}
    {pair : UserID × UserID} {encounterID : MatchID} {createdAt : UnixMilli}
    (h : t.connect id pair encounterID createdAt = .ok (durableID, t')) : t.Extends t' := by
  rcases connect_eq_ok h with ⟨hsame, _⟩ | ⟨_, _, _, _, hrows⟩
  · rw [hsame]
    exact Extends.refl t
  · intro r hr
    refine ⟨r, ?_, rfl, rfl, rfl, fun _ => rfl⟩
    rw [hrows]
    exact List.mem_cons_of_mem _ hr

end ConnectionTable

namespace Database

variable {db db' : Database}

/-- PersistConnection writes no block and inserts with the sorted pair. -/
theorem persistConnection_eq_ok {m : MatchState} {endedAt : UnixMilli} {id durableID : String}
    (h : db.persistConnection m endedAt id = .ok (durableID, db')) :
    db'.blocks = db.blocks ∧ db.knows (sortPair m.userA m.userB).1 (sortPair m.userA m.userB).2 ∧
      (encounterOf m endedAt).Checked ∧
      db.connections.connect id (sortPair m.userA m.userB) m.id endedAt =
        .ok (durableID, db'.connections) := by
  unfold persistConnection at h
  simp only [bind, Except.bind] at h
  split at h
  · cases h
  · next hknows =>
      split at h
      · cases h
      · next encounters henc =>
          split at h
          · cases h
          · next v hv =>
              cases h
              refine ⟨rfl, by simpa using hknows, ?_, hv⟩
              unfold EncounterTable.upsert at henc
              split at henc
              · next hchecked => exact hchecked
              · cases henc

/-- PersistConnection inserts a new row: every constraint is met, the pair has
    no active row and the encounter has none at all. -/
def Inserts (db : Database) (m : MatchState) (endedAt : UnixMilli) (id : String) : Prop :=
  db.knows (sortPair m.userA m.userB).1 (sortPair m.userA m.userB).2 = true ∧
    (encounterOf m endedAt).Checked ∧
    db.connections.activeRow (sortPair m.userA m.userB) = none ∧
    id ∉ db.connections.rows.map ConnectionRow.id ∧
    m.id ∉ db.connections.rows.map ConnectionRow.encounterID

instance (db : Database) (m : MatchState) (endedAt : UnixMilli) (id : String) :
    Decidable (db.Inserts m endedAt id) :=
  inferInstanceAs (Decidable (_ ∧ _ ∧ _ ∧ _ ∧ _))

/-- The row it inserts. -/
def connectionOf (m : MatchState) (createdAt : UnixMilli) (id : String) : ConnectionRow :=
  ⟨id, (sortPair m.userA m.userB).1, (sortPair m.userA m.userB).2, m.id, createdAt, none⟩

/-- PersistConnection keeps the connections table or inserts one row. -/
theorem persistConnection_rows {m : MatchState} {endedAt : UnixMilli} {id durableID : String}
    (h : db.persistConnection m endedAt id = .ok (durableID, db')) :
    db'.connections = db.connections ∨
      db.Inserts m endedAt id ∧
        db'.connections.rows = connectionOf m endedAt id :: db.connections.rows := by
  obtain ⟨_, hknows, hchecked, hconn⟩ := persistConnection_eq_ok h
  rcases ConnectionTable.connect_eq_ok hconn with ⟨hsame, _⟩ | ⟨_, hnone, hid, hnew, hrows⟩
  · exact Or.inl hsame
  · exact Or.inr ⟨⟨hknows, hchecked, hnone, hid, hnew⟩, hrows⟩

theorem persistConnection_of_inserts {m : MatchState} {endedAt : UnixMilli} {id : String}
    (h : db.Inserts m endedAt id) :
    ∃ db', db.persistConnection m endedAt id = .ok (id, db') ∧ db'.blocks = db.blocks ∧
      db'.connections.rows = connectionOf m endedAt id :: db.connections.rows := by
  obtain ⟨hknows, hchecked, hnone, hid, hnew⟩ := h
  obtain ⟨encounters, henc⟩ : ∃ t, db.encounters.upsert (encounterOf m endedAt) = .ok t := by
    unfold EncounterTable.upsert
    rw [dif_pos hchecked]
    split <;> exact ⟨_, rfl⟩
  obtain ⟨connections, hconn, hrows⟩ :=
    ConnectionTable.connect_of_new hchecked.1 hnone hid hnew
  refine ⟨{ db with encounters, connections }, ?_, rfl, hrows⟩
  unfold persistConnection
  simp only [bind, Except.bind, hknows, henc, hconn]
  rfl

theorem block_eq_ok {u target : UserID} {now : UnixMilli}
    (h : db.block u target now = .ok db') :
    (∀ r, r ∈ db'.blocks.rows ↔ r = (u, target) ∨ r ∈ db.blocks.rows) ∧
      db'.connections =
        db.connections.endWhere (fun r => decide (r.pair = sortPair u target)) now := by
  unfold block at h
  simp only [bind, Except.bind] at h
  split at h
  · cases h
  · split at h
    · cases h
    · next blocks hb =>
        cases h
        refine ⟨?_, rfl⟩
        unfold BlockTable.insert at hb
        split at hb
        · cases hb
        · split at hb
          · next hmem =>
              cases hb
              intro r
              constructor
              · exact Or.inr
              · rintro (rfl | hr)
                · exact hmem
                · exact hr
          · cases hb
            intro r
            exact List.mem_cons

/-- PersistConnection and Block write no account. -/
theorem persistConnection_accounts {m : MatchState} {endedAt : UnixMilli} {id durableID : String}
    (h : db.persistConnection m endedAt id = .ok (durableID, db')) :
    db'.users = db.users ∧ db'.profiles = db.profiles := by
  unfold persistConnection at h
  simp only [bind, Except.bind] at h
  split at h
  · cases h
  · split at h
    · cases h
    · split at h
      · cases h
      · cases h
        exact ⟨rfl, rfl⟩

theorem block_accounts {u target : UserID} {now : UnixMilli}
    (h : db.block u target now = .ok db') :
    db'.users = db.users ∧ db'.profiles = db.profiles := by
  unfold block at h
  simp only [bind, Except.bind] at h
  split at h
  · cases h
  · split at h
    · cases h
    · cases h
      exact ⟨rfl, rfl⟩

/-! ## Blocking and connections -/

/-- No blocks row between the users of an active connection. -/
def Unblocked (db : Database) : Prop :=
  ∀ r ∈ db.connections.rows, r.active = true → ¬ db.blocked r.userLow r.userHigh

instance (db : Database) : Decidable db.Unblocked :=
  inferInstanceAs (Decidable (∀ r ∈ db.connections.rows, r.active = true → _))

/-- A block is between two users in either order. -/
theorem blocked_sortPair (db : Database) (a b : UserID) :
    db.blocked (sortPair a b).1 (sortPair a b).2 ↔ db.blocked a b := by
  rcases sortPair_mem a b with e | e
  · rw [e]
  · rw [e]
    exact or_comm

/-- A connection that the two users still see. -/
def Usable (db : Database) (r : ConnectionRow) : Prop :=
  r ∈ db.connections.rows ∧ r.active = true ∧ ¬ db.blocked r.userLow r.userHigh

instance (db : Database) (r : ConnectionRow) : Decidable (db.Usable r) :=
  inferInstanceAs (Decidable (_ ∧ _ ∧ _))

/-- Without blocks on active connections, an Unblock brings none back. -/
theorem Unblocked.usable_of_unblock (hdb : db.Unblocked) {u target : UserID}
    {r : ConnectionRow} (h : (db.unblock u target).Usable r) : db.Usable r :=
  ⟨h.1, h.2.1, hdb r h.1 h.2.1⟩

/-- An active row that is blocked after the transaction is new or was active
    and blocked before it. -/
def KeepsApart (db db' : Database) : Prop :=
  ∀ r' ∈ db'.connections.rows, r'.active = true → db'.blocked r'.userLow r'.userHigh →
    r'.id ∉ db.connections.rows.map ConnectionRow.id ∨
      ∃ r ∈ db.connections.rows, r.id = r'.id ∧ r.active = true ∧
        db.blocked r.userLow r.userHigh

/-- Block ends the pair's connections in the transaction of the block. -/
theorem keepsApart_block {u target : UserID} {now : UnixMilli}
    (h : db.block u target now = .ok db') : db.KeepsApart db' := by
  obtain ⟨hblocks, hconn⟩ := block_eq_ok h
  intro r' hr' hactive hblocked
  rw [hconn] at hr'
  obtain ⟨r, hr, rfl⟩ := List.mem_map.mp hr'
  rw [ConnectionRow.endIf_active, Bool.and_eq_true, Bool.not_eq_true', decide_eq_false_iff_not]
    at hactive
  unfold blocked at hblocked
  rw [ConnectionRow.endIf_userLow, ConnectionRow.endIf_userHigh, hblocks, hblocks] at hblocked
  refine Or.inr ⟨r, hr, by simp, hactive.1, ?_⟩
  -- an active row that is blocked now was blocked before, or is of this pair
  rcases hblocked with (e | hb) | (e | hb)
  · exact absurd (sortPair_of_lt (db.connections.checked r hr) (Or.inl e)).symm hactive.2
  · exact Or.inl hb
  · exact absurd (sortPair_of_lt (db.connections.checked r hr) (Or.inr e)).symm hactive.2
  · exact Or.inr hb

theorem keepsApart_unblock (db : Database) (u target : UserID) :
    db.KeepsApart (db.unblock u target) := by
  intro r hr hactive hblocked
  refine Or.inr ⟨r, hr, rfl, hactive, ?_⟩
  rcases hblocked with h | h
  · exact Or.inl (List.mem_of_mem_filter h)
  · exact Or.inr (List.mem_of_mem_filter h)

theorem keepsApart_remove (db : Database) (u : UserID) (connectionID : String)
    (now : UnixMilli) : db.KeepsApart (db.remove u connectionID now).2 := by
  intro r' hr' hactive hblocked
  obtain ⟨r, hr, rfl⟩ := List.mem_map.mp hr'
  rw [ConnectionRow.endIf_active, Bool.and_eq_true] at hactive
  rw [ConnectionRow.endIf_userLow, ConnectionRow.endIf_userHigh] at hblocked
  exact Or.inr ⟨r, hr, by simp, hactive.1, hblocked⟩

theorem keepsApart_persistConnection {m : MatchState} {endedAt : UnixMilli}
    {id durableID : String} (h : db.persistConnection m endedAt id = .ok (durableID, db')) :
    db.KeepsApart db' := by
  obtain ⟨hblocks, _⟩ := persistConnection_eq_ok h
  intro r hr hactive hblocked
  unfold blocked at hblocked
  rw [hblocks] at hblocked
  -- an old row, or the row inserted here
  rcases persistConnection_rows h with hsame | ⟨⟨_, _, _, hid, _⟩, hrows⟩
  · rw [hsame] at hr
    exact Or.inr ⟨r, hr, rfl, hactive, hblocked⟩
  · rw [hrows] at hr
    rcases List.mem_cons.mp hr with rfl | hr
    · exact Or.inl hid
    · exact Or.inr ⟨r, hr, rfl, hactive, hblocked⟩

/-- A transaction that inserts no connection keeps blocks off active ones. -/
theorem Unblocked.keepsApart (hdb : db.Unblocked) (h : db.KeepsApart db')
    (hold : ∀ r' ∈ db'.connections.rows, r'.id ∈ db.connections.rows.map ConnectionRow.id) :
    db'.Unblocked := by
  intro r' hr' hactive hblocked
  rcases h r' hr' hactive hblocked with hnew | ⟨r, hr, _, hact, hb⟩
  · exact hnew (hold r' hr')
  · exact hdb r hr hact hb

theorem id_mem_of_mem_endWhere {t : ConnectionTable} {p : ConnectionRow → Bool}
    {now : UnixMilli} {r' : ConnectionRow} (h : r' ∈ (t.endWhere p now).rows) :
    r'.id ∈ t.rows.map ConnectionRow.id := by
  obtain ⟨r, hr, rfl⟩ := List.mem_map.mp h
  rw [ConnectionRow.endIf_id]
  exact List.mem_map_of_mem hr

theorem Unblocked.block {u target : UserID} {now : UnixMilli} (hdb : db.Unblocked)
    (h : db.block u target now = .ok db') : db'.Unblocked := by
  refine hdb.keepsApart (keepsApart_block h) fun r' hr' => ?_
  rw [(block_eq_ok h).2] at hr'
  exact id_mem_of_mem_endWhere hr'

theorem Unblocked.unblock (hdb : db.Unblocked) (u target : UserID) :
    (db.unblock u target).Unblocked :=
  hdb.keepsApart (keepsApart_unblock db u target) fun _ hr' => List.mem_map_of_mem hr'

theorem Unblocked.remove (hdb : db.Unblocked) (u : UserID) (connectionID : String)
    (now : UnixMilli) : (db.remove u connectionID now).2.Unblocked :=
  hdb.keepsApart (keepsApart_remove db u connectionID now) fun _ hr' => id_mem_of_mem_endWhere hr'

/-- PersistConnection keeps it unless it inserts a row for a blocked pair. -/
theorem Unblocked.persistConnection {m : MatchState} {endedAt : UnixMilli}
    {id durableID : String} (hdb : db.Unblocked)
    (h : db.persistConnection m endedAt id = .ok (durableID, db'))
    (hfree : ¬ (db.blocked m.userA m.userB ∧ db.Inserts m endedAt id)) : db'.Unblocked := by
  obtain ⟨hblocks, _⟩ := persistConnection_eq_ok h
  intro r hr hactive hblocked
  unfold blocked at hblocked
  rw [hblocks] at hblocked
  -- an old row, or the row inserted here
  rcases persistConnection_rows h with hsame | ⟨hinserts, hrows⟩
  · rw [hsame] at hr
    exact hdb r hr hactive hblocked
  · rw [hrows] at hr
    rcases List.mem_cons.mp hr with rfl | hr
    · exact hfree ⟨(blocked_sortPair ..).mp hblocked, hinserts⟩
    · exact hdb r hr hactive hblocked

/-- A row inserted for a blocked pair breaks it. -/
theorem not_unblocked_of_inserts {m : MatchState} {endedAt : UnixMilli} {id : String}
    (hblocked : db.blocked m.userA m.userB)
    (hblocks : db'.blocks = db.blocks)
    (hrows : db'.connections.rows = connectionOf m endedAt id :: db.connections.rows) :
    ¬ db'.Unblocked := by
  intro hdb
  refine hdb (connectionOf m endedAt id) (hrows ▸ List.mem_cons_self) rfl ?_
  have h := (blocked_sortPair db m.userA m.userB).mpr hblocked
  unfold blocked at h ⊢
  rw [hblocks]
  exact h

end Database

end OneMinute
