/-
  OneMinute.Communication.Tables

  The PostgreSQL tables of the chat: messages, their notifications, the receipt
  cursors and the settings, beside the tables of `Database`.

  A statement is a function of the tables.  The rows of `messages` and
  `notifications` stand in the order in which they were committed; nothing
  deletes them.  Texts that name a row go through `uuid.Parse` in the handler
  and through the cast to UUID in the database, two parsers of other packages,
  which are parameters (`UUIDText`).
-/

import Mathlib.Data.List.Sort
import OneMinute.Repository

namespace OneMinute.Communication

open Discovery (UserID UnixMilli)

/-! ## Rows -/

structure Message where
  id : Nat
  connectionID : String
  senderID : UserID
  clientID : String
  body : String
  createdAt : UnixMilli
deriving DecidableEq, Repr

/-- The columns `kind` and `reference`. -/
inductive Reference where
  | message (id : Nat)
  | call (id : String)
  | connection (id : String)
deriving DecidableEq, Repr

structure Notification where
  userID : UserID
  connectionID : String
  about : Reference
  readAt : Option UnixMilli
deriving DecidableEq, Repr

/-- The cursors of a `message_receipts` row. -/
structure Receipt where
  deliveredID : Nat
  readID : Nat
deriving DecidableEq, Repr

structure Settings where
  theme : String
  notifications : Bool
  typing : Bool
  readReceipts : Bool
deriving DecidableEq, Repr

structure Tables where
  db : Database
  messages : List Message
  notifications : List Notification
  receipts : String → UserID → Option Receipt
  settings : UserID → Option Settings

/-! ## Texts -/

/-- The two parsers of UUID texts. -/
structure UUIDText where
  /-- `uuid.Parse` accepts the text. -/
  parses : String → Bool
  /-- The UUID that a statement's argument stands for; `none` is an error of the
      statement. -/
  cast : String → Option String

/-- `unicode.IsSpace`. -/
def isSpace (c : Char) : Bool :=
  (0x09 ≤ c.toNat && c.toNat ≤ 0x0d) || (0x2000 ≤ c.toNat && c.toNat ≤ 0x200a)
    || [0x20, 0x85, 0xa0, 0x1680, 0x2028, 0x2029, 0x202f, 0x205f, 0x3000].contains c.toNat

/-- `strings.TrimSpace`. -/
def trimSpace (s : String) : String :=
  String.ofList ((s.toList.dropWhile isSpace).reverse.dropWhile isSpace).reverse

end OneMinute.Communication

namespace OneMinute.Database

open Discovery (UserID UnixMilli)

/-! ## Connections -/

/-- No inactive user: an id without a row counts for none. -/
def allActive (db : Database) (a b : UserID) : Bool :=
  (db.users a).all (· == .active) && (db.users b).all (· == .active)

/-- The query of `peer`. -/
def peer (db : Database) (u : UserID) (c : String) : Option UserID :=
  (db.connections.rows.find? fun r =>
      decide (r.id = c) && r.active && (decide (u = r.userLow) || decide (u = r.userHigh))
        && !decide (db.blocked r.userLow r.userHigh) && db.allActive r.userLow r.userHigh).map
    fun r => if r.userLow = u then r.userHigh else r.userLow

/-- SELECT ended_at IS NULL FROM connections WHERE id = `c`. -/
def isActive (db : Database) (c : String) : Option Bool :=
  (db.connections.rows.find? fun r => decide (r.id = c)).map ConnectionRow.active

/-- `c` is a connection between `u` and `p`. -/
def Joins (db : Database) (c : String) (u p : UserID) : Prop :=
  ∃ r ∈ db.connections.rows, r.id = c ∧ (r.pair = (u, p) ∨ r.pair = (p, u))

/-- `c` is a connection that has not ended. -/
def Active (db : Database) (c : String) : Prop :=
  ∃ r ∈ db.connections.rows, r.id = c ∧ r.active = true

/-- `c` is a connection that has ended. -/
def Ended (db : Database) (c : String) : Prop :=
  ∃ r ∈ db.connections.rows, r.id = c ∧ r.active = false

instance (db : Database) (c : String) (u p : UserID) : Decidable (db.Joins c u p) :=
  inferInstanceAs (Decidable (∃ r ∈ db.connections.rows, _))

instance (db : Database) (c : String) : Decidable (db.Active c) :=
  inferInstanceAs (Decidable (∃ r ∈ db.connections.rows, _))

instance (db : Database) (c : String) : Decidable (db.Ended c) :=
  inferInstanceAs (Decidable (∃ r ∈ db.connections.rows, _))

variable {db db' : Database}

/-- The primary key: one row for each id. -/
theorem row_unique {r r' : ConnectionRow} (h : r ∈ db.connections.rows)
    (h' : r' ∈ db.connections.rows) (hid : r.id = r'.id) : r = r' :=
  List.inj_on_of_nodup_map db.connections.primaryKey h h' hid

theorem Active.not_ended {c : String} (h : db.Active c) : ¬ db.Ended c := by
  rintro ⟨r', hr', hid', hended⟩
  obtain ⟨r, hr, hid, hactive⟩ := h
  have hsame := row_unique hr hr' (hid.trans hid'.symm)
  rw [hsame, hended] at hactive
  cases hactive

/-- A connection has two ends, so the other one is determined. -/
theorem Joins.other_unique {c : String} {u p q : UserID} (hp : db.Joins c u p)
    (hq : db.Joins c u q) : p = q := by
  obtain ⟨r, hr, hid, hpair⟩ := hp
  obtain ⟨r', hr', hid', hpair'⟩ := hq
  have hsame := row_unique hr hr' (hid.trans hid'.symm)
  rw [← hsame] at hpair'
  have hlt := db.connections.checked r hr
  unfold ConnectionRow.pair at hpair hpair'
  rcases hpair with e | e <;> rcases hpair' with e' | e'
  · exact (Prod.mk.inj (e.symm.trans e')).2
  · obtain ⟨h₁, h₂⟩ := Prod.mk.inj (e.symm.trans e')
    cases e
    rw [h₂] at hlt
    exact absurd hlt (lt_irrefl _)
  · obtain ⟨h₁, h₂⟩ := Prod.mk.inj (e.symm.trans e')
    cases e
    rw [h₁] at hlt
    exact absurd hlt (lt_irrefl _)
  · exact (Prod.mk.inj (e.symm.trans e')).1

theorem peer_eq_some {u p : UserID} {c : String} (h : db.peer u c = some p) :
    db.Joins c u p ∧ db.Active c := by
  obtain ⟨r, hfind, hp⟩ := Option.map_eq_some_iff.mp h
  have hmem := List.mem_of_find?_eq_some hfind
  have hr := List.find?_some hfind
  simp only [Bool.and_eq_true, Bool.or_eq_true, decide_eq_true_eq] at hr
  obtain ⟨⟨⟨⟨hid, hactive⟩, hu⟩, _⟩, _⟩ := hr
  refine ⟨⟨r, hmem, hid, ?_⟩, r, hmem, hid, hactive⟩
  split at hp
  · next hlow => exact Or.inl (by rw [ConnectionRow.pair, hlow, hp])
  · next hlow =>
      have hhigh : u = r.userHigh := hu.resolve_left fun e => hlow e.symm
      exact Or.inr (by rw [ConnectionRow.pair, hp, hhigh])

theorem isActive_eq_true {c : String} : db.isActive c = some true ↔ db.Active c := by
  constructor
  · intro h
    obtain ⟨r, hfind, hactive⟩ := Option.map_eq_some_iff.mp h
    exact ⟨r, List.mem_of_find?_eq_some hfind, by simpa using List.find?_some hfind, hactive⟩
  · rintro ⟨r, hr, hid, hactive⟩
    obtain ⟨r', hfind⟩ :
        ∃ r', db.connections.rows.find? (fun x => decide (x.id = c)) = some r' := by
      rw [← Option.isSome_iff_exists, List.find?_isSome]
      exact ⟨r, hr, by simpa using hid⟩
    have hsame : r' = r := row_unique (List.mem_of_find?_eq_some hfind) hr
      ((by simpa using List.find?_some hfind : r'.id = c).trans hid.symm)
    rw [isActive, hfind, hsame]
    simp [hactive]

/-! ## What becomes of connections -/

theorem Joins.extends {c : String} {u p : UserID} (h : db.Joins c u p)
    (hext : db.connections.Extends db'.connections) : db'.Joins c u p := by
  obtain ⟨r, hr, hid, hpair⟩ := h
  obtain ⟨r', hr', hid', _, hpair', _⟩ := hext r hr
  exact ⟨r', hr', hid'.trans hid, by rwa [hpair']⟩

theorem Ended.extends {c : String} (h : db.Ended c)
    (hext : db.connections.Extends db'.connections) : db'.Ended c := by
  obtain ⟨r, hr, hid, hended⟩ := h
  obtain ⟨r', hr', hid', _, _, hkeep⟩ := hext r hr
  exact ⟨r', hr', hid'.trans hid, by rw [hkeep hended, hended]⟩

/-- An UPDATE that ends rows spares those that it does not match. -/
theorem Active.endWhere {c : String} {p : ConnectionRow → Bool} {now : UnixMilli}
    (h : db.Active c) (hconn : db'.connections = db.connections.endWhere p now)
    (hp : ∀ r ∈ db.connections.rows, r.id = c → p r = false) : db'.Active c := by
  obtain ⟨r, hr, hid, hactive⟩ := h
  refine ⟨r.endIf p now, ?_, by rw [ConnectionRow.endIf_id, hid], ?_⟩
  · rw [hconn]
    exact List.mem_map_of_mem hr
  · rw [ConnectionRow.endIf_active, hactive, hp r hr hid]
    rfl

theorem Active.persistConnection {c : String} {m : Discovery.MatchState} {endedAt : UnixMilli}
    {id durableID : String} (h : db.Active c)
    (hok : db.persistConnection m endedAt id = .ok (durableID, db')) : db'.Active c := by
  obtain ⟨r, hr, hid, hactive⟩ := h
  rcases persistConnection_rows hok with hsame | ⟨_, hrows⟩
  · exact ⟨r, by rwa [hsame], hid, hactive⟩
  · exact ⟨r, by rw [hrows]; exact List.mem_cons_of_mem _ hr, hid, hactive⟩

end OneMinute.Database

namespace OneMinute.Communication

open Discovery (UserID UnixMilli)

/-! ## Statements -/

/-- The unique index of `messages`. -/
def Message.key (m : Message) : UserID × String := (m.senderID, m.clientID)

/-- The unique index of `notifications`. -/
def Notification.key (n : Notification) : UserID × Reference := (n.userID, n.about)

/-- One row of an UPDATE notifications SET read_at=now() WHERE `p`. -/
def Notification.readIf (p : Notification → Bool) (now : UnixMilli) (n : Notification) :
    Notification :=
  if p n then { n with readAt := some now } else n

/-- kind='message' AND reference <= `id`. -/
def Reference.messageUpTo (id : Nat) : Reference → Bool
  | .message k => decide (k ≤ id)
  | .call _ | .connection _ => false

/-- The number of rows of GET messages. -/
def pageSize : Nat := 60

namespace Tables

/-- `peer`: the connection's id and its other participant. -/
def peer (t : Tables) (U : UUIDText) (u : UserID) (id : String) : Option (String × UserID) :=
  if U.parses id then
    (U.cast id).bind fun c => (t.db.peer u c).map fun p => (c, p)
  else none

/-- The row that an INSERT INTO messages conflicts with. -/
def find (t : Tables) (k : UserID × String) : Option Message :=
  t.messages.find? fun m => decide (m.key = k)

/-- There is a row that an INSERT INTO notifications conflicts with. -/
def notified (t : Tables) (k : UserID × Reference) : Bool :=
  t.notifications.any fun n => decide (n.key = k)

/-- The rows of a committed transaction. -/
def insert (t : Tables) (m : Option Message) (n : Option Notification) : Tables :=
  { t with
    messages := t.messages ++ m.toList
    notifications := t.notifications ++ n.toList }

/-- INSERT INTO notifications .. ON CONFLICT DO NOTHING. -/
def notify (t : Tables) (n : Notification) : Tables :=
  if t.notified n.key then t else t.insert none (some n)

/-- Such an UPDATE. -/
def markRead (t : Tables) (p : Notification → Bool) (now : UnixMilli) : Tables :=
  { t with notifications := t.notifications.map (Notification.readIf p now) }

/-- GET messages: ORDER BY id DESC LIMIT 60. -/
def page (t : Tables) (c : String) (before : Int) : List Message :=
  ((t.messages.filter fun m =>
      decide (m.connectionID = c) && (decide (before = 0) || decide ((m.id : Int) < before))
    ).insertionSort fun m m' => m'.id ≤ m.id).take pageSize

/-- The EXISTS of `receipt`. -/
def hasMessage (t : Tables) (id : Nat) (c : String) (sender : UserID) : Bool :=
  t.messages.any fun m =>
    decide (m.id = id) && decide (m.connectionID = c) && decide (m.senderID = sender)

/-- The stored cursors; a missing row counts as zeros. -/
def cursor (t : Tables) (c : String) (u : UserID) : Receipt := (t.receipts c u).getD ⟨0, 0⟩

def setReceipt (t : Tables) (c : String) (u : UserID) (x : Receipt) : Tables :=
  { t with receipts := fun c' u' => if c' = c ∧ u' = u then some x else t.receipts c' u' }

/-- The upsert of `receipt`, and whether it affected a row. -/
def upsertReceipt (t : Tables) (c : String) (u : UserID) (delivered read : Nat) :
    Bool × Tables :=
  match t.receipts c u with
  | none => (true, t.setReceipt c u ⟨delivered, read⟩)
  | some x =>
    if x.deliveredID < delivered ∨ x.readID < read then
      (true, t.setReceipt c u ⟨max x.deliveredID delivered, max x.readID read⟩)
    else (false, t)

/-- `getSettings`, when its query answers. -/
def getSettings (t : Tables) (u : UserID) : Settings :=
  (t.settings u).getD ⟨"system", true, true, true⟩

variable {t : Tables}

theorem mem_messages_insert {m m' : Message} {n : Option Notification} :
    m' ∈ (t.insert (some m) n).messages ↔ m' ∈ t.messages ∨ m' = m := by
  rw [insert, Option.toList_some, List.mem_append, List.mem_singleton]

theorem mem_notifications_insert {m : Option Message} {n n' : Notification} :
    n' ∈ (t.insert m (some n)).notifications ↔ n' ∈ t.notifications ∨ n' = n := by
  rw [insert, Option.toList_some, List.mem_append, List.mem_singleton]

/-- A row with a new key. -/
theorem nodup_map_concat {α β : Type} {key : α → β} {l : List α} {a : α}
    (h : (l.map key).Nodup) (hnew : ∀ b ∈ l, key b ≠ key a) : ((l ++ [a]).map key).Nodup := by
  rw [List.map_append, List.map_singleton]
  refine List.nodup_append.mpr ⟨h, List.nodup_singleton _, ?_⟩
  intro k hk k' hk'
  obtain ⟨b, hb, rfl⟩ := List.mem_map.mp hk
  rw [List.mem_singleton.mp hk']
  exact hnew b hb

end Tables

end OneMinute.Communication
