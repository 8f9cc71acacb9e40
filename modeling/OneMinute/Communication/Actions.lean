/-
  OneMinute.Communication.Actions

  `invite` and `callAction` from their first query to their last event.

  Every call of Redis or of the database is a turn of its own; what a request
  has read and decoded is in its stage.  Between two turns other requests run,
  keys lapse, and connections end or are blocked.  A call may fail without
  effect or take effect and lose its reply (`Outcome`), and events are handed to
  PUBLISH, whose error the code ignores.

  Requests begin after authentication; `decode` has read the body, so a payload
  is a JSON document with the number of its bytes.
-/

import OneMinute.Communication.Invites
import OneMinute.Communication.Moves
import OneMinute.Discovery.Frames

namespace OneMinute.Communication

open Discovery (UserID UnixMilli)
open Discovery.Wire (readSession)
open Json (readField)

/-! ## Payloads -/

/-- A `json.RawMessage`: what it says, and its length. -/
structure RawMessage where
  value : Json
  size : Nat

/-- `json.Unmarshal` into a struct; keys that name no field are ignored, and nil
    is no JSON. -/
def unmarshal {α : Type} (read : List (String × Json) → Option α) (raw : Option RawMessage) :
    Option α :=
  raw.bind fun raw =>
    match raw.value with
    | .object members => read members
    -- null leaves the struct as it is
    | .null => read []
    | _ => none

/-- A Boolean field. -/
def setBool : Json → Bool → Option Bool
  | .null, old => some old
  | .bool b, _ => some b
  | _, _ => none

def candidateFields : List String := ["candidate"]

def readCandidate (members : List (String × Json)) : Option String :=
  readField candidateFields "candidate" Json.setString "" members

def mediaFields : List String := ["video", "audio"]

/-- Camera and microphone. -/
def readMedia (members : List (String × Json)) : Option (Bool × Bool) := do
  let video ← readField mediaFields "video" setBool false members
  let audio ← readField mediaFields "audio" setBool false members
  return (video, audio)

/-! ## Events -/

/-- What `emit` publishes about a call.  An action goes to the other party;
    `accept`, `end` and `decline` go to their sender too. -/
inductive CallEvent where
  | invited (call : Call)
  | action (type : String) (call : Call) (payload : Json) (at_ : UnixMilli)
  | copy (type : String) (call : Call)

/-- An event, with the request that published it and the channel. -/
structure Publication where
  thread : Nat
  channel : UserID
  event : CallEvent

/-- The calls, the tables and what was published, the last first. -/
structure Switchboard where
  calls : CallWorld
  tables : Tables
  published : List Publication

def Switchboard.init (db : Database) : Switchboard :=
  ⟨.empty, ⟨db, [], [], fun _ _ => none, fun _ => none⟩, []⟩

namespace Switchboard

/-- `emit`. -/
def publish (x : Switchboard) (outcome : Outcome) (i : Nat) (channel : UserID) (e : CallEvent) :
    Switchboard :=
  if outcome.effective then { x with published := ⟨i, channel, e⟩ :: x.published } else x

/-- A script, if it takes effect. -/
def runScript (x : Switchboard) (outcome : Outcome) (op : CallOp) : Switchboard :=
  if outcome.effective then { x with calls := x.calls.after op } else x

end Switchboard

/-- What a turn is supplied with: how its call goes, what `allow` answers, the
    id that `uuid.NewString` draws and the clock. -/
structure CallSupply where
  outcome : Outcome := .ok
  admitted : Bool := true
  id : CallID := ""
  now : UnixMilli := 0
deriving DecidableEq, Repr

/-! ## invite -/

structure InviteRequest where
  user : UserID
  /-- The connection in the path. -/
  id : String
  /-- The field `video`; `none` when `decode` refuses the body. -/
  body : Option Bool
deriving DecidableEq, Repr

/-- The next call of an invite; `c` is the connection, `p` its other end. -/
inductive InvitationStage where
  | authorize
  | allow (c : String) (p : UserID)
  | name (c : String) (p : UserID) (video : Bool)
  | reserve (c : String) (call : Call)
  | insert (c : String) (call : Call)
  | rollback (call : Call) (cancelled : Bool)
  | emit (call : Call)
  | done (status : Nat)
deriving DecidableEq, Repr

/-- One turn of the invite `i`. -/
def InviteRequest.step (r : InviteRequest) (U : UUIDText) (i : Nat) (d : CallSupply)
    (x : Switchboard) : InvitationStage → Option (Switchboard × InvitationStage)
  | .authorize =>
    match if d.outcome = .ok then x.tables.peer U r.user r.id else none with
    | none => some (x, .done 403)
    | some (c, p) => some (x, .allow c p)
  | .allow c p =>
    some (x,
      if d.outcome ≠ .ok then .done 503
      else if !d.admitted then .done 429
      else
        match r.body with
        | none => .done 400
        | some video => .name c p video)
  | .name c p video =>
    match if d.outcome = .ok then x.tables.db.profiles r.user else none with
    | none => some (x, .done 503)
    | some profile =>
      some (x, .reserve c ⟨d.id, r.id, r.user, p, profile.displayName, video⟩)
  | .reserve c call =>
    -- a drawn id is a new one
    if (CallOp.invite call).Permitted x.calls then
      some (x.runScript d.outcome (.invite call),
        if d.outcome = .ok ∧ (x.calls.store.inviteScript call).reply = 1 then .insert c call
        else .done 409)
    else none
  | .insert c call =>
    some (if d.outcome.effective then
        { x with tables := (Statement.notifyCall call.callee c call.id).exec d.now x.tables }
      else x,
      if d.outcome = .ok then .emit call
      else .rollback call (decide (d.outcome = .cancelled)))
  | .rollback call cancelled =>
    some (if rollbackEffective cancelled d.outcome then
        { x with calls := { x.calls with store := x.calls.store.rollback call } }
      else x, .done 500)
  | .emit call => some (x.publish d.outcome i call.callee (.invited call), .done 200)
  | .done _ => none

/-! ## callAction -/

/-- The body of an action. -/
structure ActionBody where
  type : String
  payload : Option RawMessage

structure ActionRequest where
  user : UserID
  /-- The call in the path. -/
  id : CallID
  /-- `none` when `decode` refuses the body. -/
  body : Option ActionBody

/-- The next call of an action, with the call that was read. -/
inductive ActionStage where
  /-- HGETALL. -/
  | fetch
  | peer (state : Option CallState) (call : Call) (b : ActionBody)
  | accept (call : Call) (b : ActionBody)
  | finish (call : Call) (b : ActionBody)
  | heartbeat (call : Call)
  | emit (call : Call) (b : ActionBody)
  | emitSelf (call : Call) (type : String)
  | done (status : Nat)

/-- The other party, to whom the action goes. -/
def Call.target (call : Call) (u : UserID) : UserID :=
  if u = call.callee then call.caller else call.callee

/-- The branch of session descriptions. -/
def ActionRequest.describe (r : ActionRequest) (state : Option CallState) (call : Call)
    (b : ActionBody) : ActionStage :=
  if state ≠ some .active ∨ (b.type = "offer" ∧ r.user ≠ call.caller)
      ∨ (b.type = "answer" ∧ r.user ≠ call.callee) then .done 403
  else
    match unmarshal readSession b.payload with
    | none => .done 400
    | some s =>
      if s.type ≠ b.type ∨ s.sdp.utf8ByteSize < 1 ∨ 60000 < s.sdp.utf8ByteSize then .done 400
      else .emit call b

/-- The switch up to its first call; `state` is what HGETALL returned. -/
def ActionRequest.dispatch (r : ActionRequest) (state : Option CallState) (call : Call)
    (b : ActionBody) : ActionStage :=
  match b.type with
  | "accept" => if r.user ≠ call.callee then .done 403 else .accept call b
  | "end" | "decline" => .finish call b
  | "heartbeat" => if state ≠ some .active then .done 409 else .heartbeat call
  | "offer" | "answer" => r.describe state call b
  | "ice" =>
    -- a state other than active is 400 here, not 403
    if state ≠ some .active ∨ 6000 < (b.payload.map RawMessage.size).getD 0 then .done 400
    else if (unmarshal readCandidate b.payload).isNone then .done 400
    else .emit call b
  | "media" =>
    if state ≠ some .active then .done 403
    else if (unmarshal readMedia b.payload).isNone then .done 400
    else .emit call b
  | _ => .done 400

/-- The types whose sender gets a copy. -/
def isCopied (type : String) : Bool := ["accept", "end", "decline"].contains type

/-- One turn of the action `i`. -/
def ActionRequest.step (r : ActionRequest) (U : UUIDText) (i : Nat) (d : CallSupply)
    (x : Switchboard) : ActionStage → Option (Switchboard × ActionStage)
  | .fetch =>
    if d.outcome ≠ .ok then some (x, .done 404)
    else
      some (x.runScript .ok (.fetch r.id),
        match x.calls.store.calls.get r.id with
        | some ⟨some call, state⟩ =>
          if call.caller ≠ r.user ∧ call.callee ≠ r.user then .done 404
          else
            match r.body with
            | none => .done 400
            | some b => .peer state call b
        | some ⟨none, _⟩ | none => .done 404)
  | .peer state call b =>
    -- whatever the peer may do no longer, ends the call
    some (x, r.dispatch state call
      (if d.outcome = .ok ∧ (x.tables.peer U r.user call.connectionID).isSome then b
      else { b with type := "end" }))
  | .accept call b =>
    some (x.runScript d.outcome (.accept r.id call),
      if d.outcome = .ok ∧ (x.calls.store.acceptScript r.id call).reply = 1 then .emit call b
      else .done 409)
  | .finish call b => some (x.runScript d.outcome (.finish r.id call), .emit call b)
  | .heartbeat call =>
    some (x.runScript d.outcome (.heartbeat r.id call),
      .done (if d.outcome = .ok then 200 else 503))
  | .emit call b =>
    some (x.publish d.outcome i (call.target r.user)
        (.action b.type call ((b.payload.map RawMessage.value).getD .null) d.now),
      if isCopied b.type then .emitSelf call b.type else .done 200)
  | .emitSelf call type =>
    some (x.publish d.outcome i r.user (.copy type call), .done 200)
  | .done _ => none

/-! ## Runs -/

inductive CallRequest where
  | invite (r : InviteRequest)
  | action (r : ActionRequest)

inductive CallThread where
  | invite (r : InviteRequest) (stage : InvitationStage)
  | action (r : ActionRequest) (stage : ActionStage)

def CallThread.request : CallThread → CallRequest
  | .invite r _ => .invite r
  | .action r _ => .action r

/-- What happens around the calls: time, statements of other requests, and
    blocks. -/
inductive CallEnv where
  | tick (d : Nat)
  | statement (q : Statement) (now : UnixMilli)
  | block (u target : UserID) (startedAt : UnixMilli) (fresh : Bool) (ids : List String)

/-- `uuid.Parse` of the path comes first. -/
def CallRequest.start (U : UUIDText) : CallRequest → CallThread
  | .invite r => .invite r .authorize
  | .action r => .action r (if U.parses r.id then .fetch else .done 400)

def CallThread.turn (U : UUIDText) (i : Nat) (d : CallSupply) (x : Switchboard) :
    CallThread → Option (Switchboard × CallThread)
  | .invite r stage => (r.step U i d x stage).map fun out => (out.1, .invite r out.2)
  | .action r stage => (r.step U i d x stage).map fun out => (out.1, .action r out.2)

def CallEnv.exec (x : Switchboard) : CallEnv → Switchboard
  | .tick d => { x with calls := x.calls.after (.tick d) }
  | .statement q now => { x with tables := q.exec now x.tables }
  | .block u target startedAt fresh ids =>
    { x with tables := { x.tables with
        db := commitBlock x.tables.db u target startedAt fresh ids } }

def switchboard (U : UUIDText) : Threads Switchboard CallThread CallRequest CallSupply CallEnv where
  start := CallRequest.start U
  turn := CallThread.turn U
  env := fun e x => some (e.exec x)

abbrev CallPool := Pool Switchboard CallThread

abbrev CallAction := Schedule CallRequest CallSupply CallEnv

/-- All schedules of invites and actions on a database. -/
def switchboardMachine (U : UUIDText) (db : Database) : Machine CallPool CallAction :=
  (switchboard U).machine (.init db)

end OneMinute.Communication
