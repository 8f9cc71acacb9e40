/-
  OneMinute.Communication.Requests

  The chat's requests over one database: POST messages, POST receipt and the
  transaction of Block, each one statement at a time, and the statements that
  commit by themselves.

  A request stands at a stage, which holds what it has read and, inside its
  transaction, the rows that it has written and not committed.  What a
  transaction locks it holds to its end (`Resource`); a statement that needs a
  lock of another transaction is not enabled.  Waits that would only exclude
  schedules (foreign keys, a row that nothing updates) are left out.

  A call of the database may fail without effect or lose its reply.  Requests
  begin after authentication and the rate limit.
-/

import OneMinute.Calls
import OneMinute.Communication.Tables
import OneMinute.Lib.Locks
import OneMinute.Lib.Machine

namespace OneMinute.Communication

open Discovery (UserID UnixMilli MatchState sortPair)

/-! ## What requests share -/

/-- What a transaction locks. -/
inductive Resource where
  /-- A row of `connections`. -/
  | connection (id : String)
  /-- An entry of the unique index of `messages`: inserted, or locked by DO
      UPDATE. -/
  | message (key : UserID × String)
  /-- An entry of the unique index of `notifications`. -/
  | notification (key : UserID × Reference)
  /-- An entry of the primary key of `blocks`. -/
  | block (key : UserID × UserID)
deriving DecidableEq, Repr

/-- What is published to a user's channel. -/
inductive Event where
  | messageCreated (connectionID : String) (message : Message)
  | receipt (connectionID : String) (deliveredID readID : Nat)
deriving DecidableEq, Repr

structure Shared where
  /-- What is committed. -/
  tables : Tables
  /-- The last value drawn for `messages.id`. -/
  lastID : Nat
  locks : Locks Resource
  /-- What was handed to `emit`, the last first. -/
  emitted : List (UserID × Event)

/-- What the database supplies to a statement: its clock and, when an identity
    value is drawn, how many it skips. -/
structure Supply where
  now : UnixMilli := 0
  skip : Nat := 0
deriving DecidableEq, Repr

/-! ## POST messages -/

structure SendRequest where
  user : UserID
  /-- The connection in the path. -/
  id : String
  /-- `decode` accepted the body. -/
  decodes : Bool := true
  body : String
  clientID : String
deriving DecidableEq, Repr

/-- What a send answers: 200 with the row, or another status. -/
inductive Answer where
  | sent (m : Message)
  | refused (status : Nat)
deriving DecidableEq, Repr

/-- The next call of a send.  `c` is the connection, `p` its other participant;
    `fresh` says that the transaction inserted `m`. -/
inductive SendStage where
  | authorize
  | begin (c : String) (p : UserID)
  | lock (c : String) (p : UserID) (startedAt : UnixMilli)
  /-- INSERT INTO messages: the id is drawn before the index is asked. -/
  | nextID (c : String) (p : UserID) (startedAt : UnixMilli)
  | insertMessage (c : String) (p : UserID) (startedAt : UnixMilli) (clientID : String) (id : Nat)
  | insertNotification (c : String) (p : UserID) (m : Message) (fresh : Bool)
  | commit (c : String) (p : UserID) (m : Message) (fresh : Bool) (note : Option Notification)
  | emitPeer (p : UserID) (m : Message)
  | emitSelf (m : Message)
  /-- The deferred Rollback, after the reply was chosen. -/
  | rollback (status : Nat)
  | done (answer : Answer)
deriving DecidableEq, Repr

/-- A statement in a transaction.  An error leads to the rollback, which also
    undoes a statement whose reply was lost. -/
def inTransaction {σ : Type} (fault : Fault) (x : Shared) (rollback : σ)
    (result : Option (Shared × σ)) : Option (Shared × σ) :=
  if fault = .ok then result else some (x, rollback)

namespace SendRequest

/-- The checks before the transaction. -/
def valid (r : SendRequest) (U : UUIDText) : Bool :=
  r.decodes && U.parses r.clientID && decide (1 ≤ (trimSpace r.body).length)
    && decide ((trimSpace r.body).length ≤ 4000)

/-- The row that the INSERT proposes. -/
def message (r : SendRequest) (c : String) (startedAt : UnixMilli) (clientID : String)
    (id : Nat) : Message :=
  ⟨id, c, r.user, clientID, trimSpace r.body, startedAt⟩

/-- The arguments are a UUID and a text, which has no NUL. -/
def argument (r : SendRequest) (U : UUIDText) : Option String :=
  if (trimSpace r.body).toList.contains (Char.ofNat 0) then none else U.cast r.clientID

/-- One call of request `i`. -/
def step (r : SendRequest) (U : UUIDText) (i : Nat) (d : Supply) (fault : Fault) (x : Shared) :
    SendStage → Option (Shared × SendStage)
  | .authorize =>
    match if fault = .ok then x.tables.peer U r.user r.id else none with
    | none => some (x, .done (.refused 403))
    | some (c, p) => some (x, if r.valid U then .begin c p else .done (.refused 400))
  | .begin c p => some (x, if fault = .ok then .lock c p d.now else .done (.refused 500))
  | .lock c p startedAt =>
    inTransaction fault x (.rollback 403) <|
      (x.locks.acquire i (.connection c)).map fun locks =>
        -- the row as it is once the lock is there
        ({ x with locks },
          if x.tables.db.isActive c = some true then .nextID c p startedAt else .rollback 403)
  | .nextID c p startedAt =>
    inTransaction fault x (.rollback 409) <|
      match r.argument U with
      | none => some (x, .rollback 409)
      | some k =>
        let id := x.lastID + 1 + d.skip
        some ({ x with lastID := id }, .insertMessage c p startedAt k id)
  | .insertMessage c p startedAt k id =>
    inTransaction fault x (.rollback 409) <|
      (x.locks.acquire i (.message (r.user, k))).map fun locks =>
        ({ x with locks },
          match x.tables.find (r.user, k) with
          | none => .insertNotification c p (r.message c startedAt k id) true
          | some m =>
            -- the WHERE of DO UPDATE; without a row Scan fails
            if m.connectionID = c then .insertNotification c p m false else .rollback 409)
  | .insertNotification c p m fresh =>
    inTransaction fault x (.rollback 500) <|
      if x.tables.notified (p, .message m.id) then some (x, .commit c p m fresh none)
      else
        (x.locks.acquire i (.notification (p, .message m.id))).map fun locks =>
          ({ x with locks }, .commit c p m fresh (some ⟨p, c, .message m.id, none⟩))
  | .commit _ p m fresh note =>
    if fault = .failed then some (x, .rollback 500)
    else
      some ({ x with
          tables := x.tables.insert (if fresh then some m else none) note
          locks := x.locks.release i },
        if fault = .ok then .emitPeer p m else .done (.refused 500))
  | .emitPeer p m =>
    some ({ x with emitted := (p, .messageCreated r.id m) :: x.emitted }, .emitSelf m)
  | .emitSelf m =>
    some ({ x with emitted := (r.user, .messageCreated r.id m) :: x.emitted }, .done (.sent m))
  | .rollback status => some ({ x with locks := x.locks.release i }, .done (.refused status))
  | .done _ => none

end SendRequest

/-! ## POST receipt -/

structure ReceiptRequest where
  user : UserID
  /-- The connection in the path. -/
  id : String
  /-- `decode` accepted the body. -/
  decodes : Bool := true
  messageID : Int
  read : Bool
deriving DecidableEq, Repr

/-- The next call of a receipt; each commits by itself. -/
inductive ReceiptStage where
  | authorize
  /-- The EXISTS query. -/
  | check (c : String) (p : UserID)
  | settings (c : String) (p : UserID)
  | upsert (c : String) (p : UserID) (read : Nat)
  | markRead (c : String) (p : UserID) (read : Nat) (changed : Bool)
  | emit (p : UserID) (read : Nat)
  | done (status : Nat)
deriving DecidableEq, Repr

namespace ReceiptRequest

def valid (r : ReceiptRequest) : Bool := r.decodes && decide (1 ≤ r.messageID)

/-- The id of the message, when the request is valid. -/
def delivered (r : ReceiptRequest) : Nat := r.messageID.toNat

/-- After the upsert and the UPDATE: `if changed.RowsAffected() > 0`. -/
def finish (p : UserID) (read : Nat) (changed : Bool) : ReceiptStage :=
  if changed then .emit p read else .done 200

/-- The rows of the UPDATE of `notifications`. -/
def covers (r : ReceiptRequest) (c : String) (n : Notification) : Bool :=
  decide (n.userID = r.user) && decide (n.connectionID = c) && n.about.messageUpTo r.delivered

/-- One call of the request. -/
def step (r : ReceiptRequest) (U : UUIDText) (d : Supply) (fault : Fault) (x : Shared) :
    ReceiptStage → Option (Shared × ReceiptStage)
  | .authorize =>
    match if fault = .ok then x.tables.peer U r.user r.id else none with
    | none => some (x, .done 403)
    | some (c, p) => some (x, if r.valid then .check c p else .done 400)
  | .check c p =>
    -- an error leaves `valid` false
    some (x, if fault = .ok && x.tables.hasMessage r.delivered c p then
      if r.read then .settings c p else .upsert c p 0
    else .done 400)
  | .settings c p =>
    -- an error leaves the defaults
    some (x, .upsert c p
      (if fault ≠ .ok || (x.tables.getSettings r.user).readReceipts then r.delivered else 0))
  | .upsert c p read =>
    if fault = .failed then some (x, .done 500)
    else
      let (changed, tables) := x.tables.upsertReceipt c r.user r.delivered read
      some ({ x with tables },
        if fault ≠ .ok then .done 500
        else if r.read then .markRead c p read changed
        else finish p read changed)
  | .markRead c p read changed =>
    -- an error is ignored
    some (if fault = .failed then x
      else { x with tables := x.tables.markRead (r.covers c) d.now }, finish p read changed)
  | .emit p read =>
    some ({ x with emitted := (p, .receipt r.id r.delivered read) :: x.emitted }, .done 200)
  | .done _ => none

end ReceiptRequest

/-! ## Block -/

/-- The next statement of `Block`.  `fresh` says that the transaction inserted
    the block, `ids` are the rows that its UPDATE found. -/
inductive BlockStage where
  | begin
  | insertBlock (startedAt : UnixMilli)
  | findPair (startedAt : UnixMilli) (fresh : Bool)
  /-- The UPDATE locks what it found. -/
  | endPair (startedAt : UnixMilli) (fresh : Bool) (ids : List String)
  | commit (startedAt : UnixMilli) (fresh : Bool) (ids : List String)
  | rollback
  | done (ok : Bool)
deriving DecidableEq, Repr

/-- The commit of `Block`: the block and the ended rows appear together. -/
def commitBlock (db : Database) (u target : UserID) (startedAt : UnixMilli) (fresh : Bool)
    (ids : List String) : Database :=
  { db with
    blocks := if fresh then (db.blocks.insert u target).toOption.getD db.blocks else db.blocks
    connections := db.connections.endWhere (fun r => ids.contains r.id) startedAt }

/-- The ids of the pair's rows. -/
def pairIDs (db : Database) (u target : UserID) : List String :=
  (db.connections.rows.filter fun r => decide (r.pair = sortPair u target)).map ConnectionRow.id

/-- One statement of the transaction `i`. -/
def blockStep (u target : UserID) (i : Nat) (d : Supply) (fault : Fault) (x : Shared) :
    BlockStage → Option (Shared × BlockStage)
  | .begin => some (x, if fault = .ok then .insertBlock d.now else .done false)
  | .insertBlock startedAt =>
    inTransaction fault x .rollback <|
      if x.tables.db.knows u target = false ∨ u = target then some (x, .rollback)
      else if x.tables.db.blocks.rows.contains (u, target) then
        some (x, .findPair startedAt false)
      else
        (x.locks.acquire i (.block (u, target))).map fun locks =>
          ({ x with locks }, .findPair startedAt true)
  | .findPair startedAt fresh =>
    inTransaction fault x .rollback <|
      some (x, .endPair startedAt fresh (pairIDs x.tables.db u target))
  | .endPair startedAt fresh ids =>
    inTransaction fault x .rollback <|
      (x.locks.acquireAll i (ids.map Resource.connection)).map fun locks =>
        ({ x with locks }, .commit startedAt fresh ids)
  | .commit startedAt fresh ids =>
    if fault = .failed then some (x, .rollback)
    else
      some ({ x with
          tables := { x.tables with db := commitBlock x.tables.db u target startedAt fresh ids }
          locks := x.locks.release i },
        .done (fault = .ok))
  | .rollback => some ({ x with locks := x.locks.release i }, .done false)
  | .done _ => none

/-! ## Statements that commit by themselves -/

inductive Statement where
  | remove (u : UserID) (c : String)
  | unblock (u target : UserID)
  /-- PersistConnection, with the id drawn for a new row. -/
  | persistConnection (m : MatchState) (id : String)
  | setStatus (u : UserID) (status : AccountStatus)
  /-- PUT settings. -/
  | putSettings (u : UserID) (s : Settings)
  /-- POST notifications/read. -/
  | readNotifications (u : UserID)
  /-- The INSERT of `invite`. -/
  | notifyCall (u : UserID) (c : String) (callID : String)
deriving DecidableEq, Repr

/-- The trigger `notify_connection`, for one new row. -/
def notifyConnection (t : Tables) (r : ConnectionRow) : Tables :=
  (t.notify ⟨r.userLow, r.id, .connection r.id, none⟩).notify
    ⟨r.userHigh, r.id, .connection r.id, none⟩

def Statement.exec (now : UnixMilli) (t : Tables) : Statement → Tables
  | .remove u c => { t with db := (t.db.remove u c now).2 }
  | .unblock u target => { t with db := t.db.unblock u target }
  | .persistConnection m id =>
    match t.db.persistConnection m now id with
    | .error _ => t
    | .ok (_, db) =>
      let new := db.connections.rows.filter fun r =>
        !(t.db.connections.rows.map ConnectionRow.id).contains r.id
      new.foldl notifyConnection { t with db }
  | .setStatus u status =>
    { t with db := { t.db with
        users := fun v => if v = u then some status else t.db.users v } }
  | .putSettings u s =>
    { t with settings := fun v => if v = u then some s else t.settings v }
  | .readNotifications u =>
    t.markRead (fun n => decide (n.userID = u) && n.readAt.isNone) now
  | .notifyCall u c callID => t.notify ⟨u, c, .call callID, none⟩

/-- The row that the statement updates is locked. -/
def Statement.waits (x : Shared) (now : UnixMilli) : Statement → Bool
  | .remove u c => (x.tables.db.remove u c now).1 && (x.locks (.connection c)).isSome
  | .persistConnection m _ =>
    match x.tables.db.connections.activeRow (sortPair m.userA m.userB) with
    | some r => (x.locks (.connection r.id)).isSome
    | none => false
  | .unblock _ _ | .setStatus _ _ | .putSettings _ _ | .readNotifications _
  | .notifyCall _ _ _ => false

/-! ## Runs -/

inductive Request where
  | send (r : SendRequest)
  | receipt (r : ReceiptRequest)
  | block (u target : UserID)
deriving DecidableEq, Repr

inductive Thread where
  | send (r : SendRequest) (stage : SendStage)
  | receipt (r : ReceiptRequest) (stage : ReceiptStage)
  | block (u target : UserID) (stage : BlockStage)
deriving DecidableEq, Repr

def Request.start : Request → Thread
  | .send r => .send r .authorize
  | .receipt r => .receipt r .authorize
  | .block u target => .block u target .begin

def Thread.step (U : UUIDText) (i : Nat) (d : Supply) (fault : Fault) (x : Shared) :
    Thread → Option (Shared × Thread)
  | .send r stage => (r.step U i d fault x stage).map fun (x, stage) => (x, .send r stage)
  | .receipt r stage => (r.step U d fault x stage).map fun (x, stage) => (x, .receipt r stage)
  | .block u target stage =>
    (blockStep u target i d fault x stage).map fun (x, stage) => (x, .block u target stage)

structure Chat where
  shared : Shared
  /-- All requests so far; a transaction is named by its index. -/
  threads : List Thread

inductive Action where
  | spawn (q : Request)
  | turn (i : Nat) (d : Supply) (fault : Fault)
  | statement (q : Statement) (now : UnixMilli)
deriving DecidableEq, Repr

def Chat.step (U : UUIDText) (s : Chat) : Action → Option Chat
  | .spawn q => some { s with threads := s.threads ++ [q.start] }
  | .turn i d fault =>
    s.threads[i]?.bind fun th =>
      (th.step U i d fault s.shared).map fun (x, th) => ⟨x, s.threads.set i th⟩
  | .statement q now =>
    if q.waits s.shared now then none
    else some { s with shared := { s.shared with tables := q.exec now s.shared.tables } }

/-- No message yet. -/
def Chat.init (db : Database) : Chat :=
  ⟨⟨⟨db, [], [], fun _ _ => none, fun _ => none⟩, 0, .free, []⟩, []⟩

/-- All runs of chat requests on a database. -/
def chatMachine (U : UUIDText) (db : Database) : Machine Chat Action := ⟨.init db, Chat.step U⟩

end OneMinute.Communication
