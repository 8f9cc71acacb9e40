/-
  OneMinute.System

  The running system: any number of sockets, HTTP requests and sweeps on any
  number of servers, over one Redis store and one database.

  A thread is a process; the scheduler picks which one makes its next call,
  with which clock value and random id, and whether the call goes through, so
  a crash is a thread that is not scheduled again.  Sessions and tasks record
  the exchanges of their current program, and the system the store operations
  that took effect; both are there for the statements only.
-/

import OneMinute.Discovery.Handler
import OneMinute.Pairs
import OneMinute.Social.Handler

namespace OneMinute

open Discovery

/-! ## Threads -/

/-- The program a session is in. -/
inductive Stage where
  | opening
  | frame (f : Frame)
  | cleanup
deriving DecidableEq, Repr

def Stage.program (user : Profile) (c : ConnectionID) : Stage → Proc Next
  | .opening => Discovery.opening user c
  | .frame f => handle user c f
  | .cleanup => Discovery.cleanup user c

/-- Running a program, in `conn.Read` since an instant, or done. -/
inductive Activity where
  | running (p : Proc Next)
  | reading (since : Nat)
  | gone

/-- The instant since which the session is in `conn.Read`. -/
def Activity.readingSince : Activity → Option Nat
  | .reading since => some since
  | _ => none

theorem Activity.eq_reading {a : Activity} {t : Nat} (h : a.readingSince = some t) :
    a = .reading t := by
  cases a with
  | reading since =>
      cases h
      rfl
  | _ => cases h

structure Session where
  user : Profile
  connection : ConnectionID
  stage : Stage
  activity : Activity
  /-- The exchanges of the stage's program so far, latest first. -/
  trace : List (Exchange api) := []
  /-- What was written to the client. -/
  sent : List Event := []
  /-- When Connect or a heartbeat last set the presence TTL. -/
  refreshed : Nat := 0

/-- An HTTP request or one sweep. -/
inductive TaskKind where
  | block (u : UserID) (body : Social.BlockBody)
  | unblock (u target : UserID)
  | remove (u : UserID) (connectionID : String)
  | sweep (now : UnixMilli)
deriving DecidableEq, Repr

def TaskKind.program : TaskKind → Proc Unit
  | .block u body => do
    let _ ← Social.block u body
    return ()
  | .unblock u target => do
    let _ ← Social.unblock u target
    return ()
  | .remove u connectionID => do
    let _ ← Social.remove u connectionID
    return ()
  | .sweep now => do
    let _ ← Discovery.sweep now
    return ()

structure Task where
  kind : TaskKind
  rest : Proc Unit
  /-- The exchanges so far, latest first. -/
  trace : List (Exchange api) := []

structure System where
  env : Env
  sessions : List Session
  tasks : List Task
  /-- The store operations that took effect, oldest first. -/
  history : List Op

/-- `conn.Read` gives up after this time, in milliseconds. -/
def readTimeout : Nat := 35000

namespace Session

/-- Continue with `p`: its result leads to the read loop or to the cleanup. -/
def settle (s : Session) (clock : Nat) : Proc Next → Session
  | .done .read => { s with activity := .reading clock }
  | .done .stop =>
    { s with
      stage := .cleanup
      activity := .running (Stage.cleanup.program s.user s.connection)
      trace := [] }
  | .done .gone => { s with activity := .gone }
  | .ask c k => { s with activity := .running (.ask c k) }

/-- Begin a stage. -/
def start (s : Session) (clock : Nat) (stage : Stage) : Session :=
  { s with stage, trace := [] }.settle clock (stage.program s.user s.connection)

/-- Take note of an exchange and continue. -/
def receive (s : Session) (clock : Nat) (refresh : Bool) (e : Exchange api)
    (p : Proc Next) : Session :=
  { s with
    trace := e :: s.trace
    sent := match e.call with
      | .write ev => s.sent ++ [ev]
      | _ => s.sent
    refreshed := if refresh then clock else s.refreshed }.settle clock p

end Session

/-! ## Steps -/

inductive Action where
  /-- A socket is accepted and subscribed; its connection id is new. -/
  | accept (user : Profile) (c : ConnectionID)
  /-- A frame arrives in time. -/
  | frame (i : Nat) (f : Frame)
  /-- The read fails or times out, or the limiter refuses. -/
  | hangup (i : Nat)
  /-- A session's next call. -/
  | turn (i : Nat) (d : Draw) (fault : Fault)
  | spawn (kind : TaskKind)
  /-- A task's next call. -/
  | taskTurn (j : Nat) (d : Draw) (fault : Fault)
  | tick (d : Nat)

/-- `randomID` gives no claim the id of an earlier match. -/
def Call.fresh (w : World) : Call → Bool
  | .store (.claim k) => decide (∀ k' ∈ w.claims, k'.matchID ≠ k.matchID)
  | _ => true

/-- The call sets the presence TTL. -/
def Call.refreshes (s : Store) : Call → Bool
  | .store (.connect _ _) => true
  | .store (.heartbeat u c) => decide ((s.heartbeatScript u c).reply = .ok 1)
  | _ => false

/-- The store operation of a call that takes effect. -/
def Call.ops (fault : Fault) : Call → List Op
  | .store op => if fault = .failed then [] else [op]
  | _ => []

namespace System

def init (db : Database) : System := ⟨⟨.empty, db⟩, [], [], []⟩

abbrev store (x : System) : Store := x.env.world.store

abbrev clock (x : System) : Nat := x.env.world.store.clock

/-- The call that an action makes. -/
def makes (x : System) : Action → Option (Fault × Call)
  | .turn i d fault =>
    match x.sessions[i]? with
    | some s =>
      match s.activity with
      | .running (.ask c _) => some (fault, c d)
      | _ => none
    | none => none
  | .taskTurn j d fault =>
    match x.tasks[j]? with
    | some t =>
      match t.rest with
      | .ask c _ => some (fault, c d)
      | _ => none
    | none => none
  | _ => none

/-- The environment and the history after a call. -/
def after (x : System) (fault : Fault) (c : Call) : System :=
  { x with env := (x.env.perform fault c).1, history := x.history ++ c.ops fault }

def step (x : System) : Action → Option System
  | .accept user c =>
    -- `randomID` draws a connection id once
    if c ∈ x.sessions.map Session.connection then none
    else
      let s : Session := { user, connection := c, stage := .opening, activity := .gone }
      some { x with sessions := x.sessions ++ [s.start x.clock .opening] }
  | .frame i f =>
    match x.sessions[i]? with
    | some s =>
      match s.activity with
      | .reading since =>
        -- any frame that arrives in time, whatever it is
        if x.clock ≤ since + readTimeout then
          some { x with sessions := x.sessions.set i (s.start x.clock (.frame f)) }
        else none
      | _ => none
    | none => none
  | .hangup i =>
    match x.sessions[i]? with
    | some s =>
      match s.activity with
      | .reading _ => some { x with sessions := x.sessions.set i (s.start x.clock .cleanup) }
      | _ => none
    | none => none
  | .turn i d fault =>
    match x.sessions[i]? with
    | some s =>
      match s.activity with
      | .running (.ask c k) =>
        -- `randomID` gives no claim the id of an earlier match
        if (c d).fresh x.env.world then
          let r := (x.env.perform fault (c d)).2
          let refresh := decide (fault ≠ .failed) && (c d).refreshes x.store
          some { x.after fault (c d) with
            sessions := x.sessions.set i (s.receive x.clock refresh ⟨c d, r⟩ (k d r)) }
        else none
      | _ => none
    | none => none
  | .spawn kind => some { x with tasks := x.tasks ++ [{ kind, rest := kind.program }] }
  | .taskTurn j d fault =>
    match x.tasks[j]? with
    | some t =>
      match t.rest with
      | .ask c k =>
        if (c d).fresh x.env.world then
          let r := (x.env.perform fault (c d)).2
          some { x.after fault (c d) with
            tasks := x.tasks.set j { t with rest := k d r, trace := ⟨c d, r⟩ :: t.trace } }
        else none
      | _ => none
    | none => none
  | .tick d =>
    some { x with
      env := ⟨x.env.world.after (.tick d), x.env.db⟩
      history := x.history ++ [.tick d] }

end System

/-- All runs of the system from an empty store and the database `db`. -/
def systemMachine (db : Database) : Machine System Action := ⟨.init db, System.step⟩

/-! ## Two users

The runs that the concrete instances of the theorems start from. -/

def ann : Profile := ⟨"ann", "Ann", ""⟩

def ben : Profile := ⟨"ben", "Ben", ""⟩

/-- Two active users and nothing else. -/
def twoUsers : Database where
  users := fun u => if u = "ann" ∨ u = "ben" then some .active else none
  profiles := fun u => if u = "ann" then some ann else if u = "ben" then some ben else none
  blocks := ⟨[], List.nodup_nil, fun _ h => nomatch h⟩
  encounters := ⟨[], List.nodup_nil, fun _ h => nomatch h⟩
  connections := ⟨[], List.nodup_nil, List.nodup_nil, List.nodup_nil, fun _ h => nomatch h⟩
  cast := UUID.canonicalText

/-- The id of a connection of theirs, and its spelling in capitals. -/
def friendship : String := "00000000-0000-4000-8000-0000000000b1"

def friendshipUpper : String := "00000000-0000-4000-8000-0000000000B1"

/-- `n` calls of session `i` that go through. -/
def turns (i n : Nat) (id : String) : List Action := List.replicate n (.turn i ⟨0, id⟩ .ok)

def taskTurns (j n : Nat) : List Action := List.replicate n (.taskTurn j ⟨0, ""⟩ .ok)

/-- Both connect, and Ann queues. -/
def queued : List Action :=
  [.accept ann "c1"] ++ turns 0 4 "" ++ [.accept ben "c2"] ++ turns 1 4 ""
    ++ [.frame 0 (.queueJoin somePreferences)] ++ turns 0 3 ""

/-- Ben joins the queue and claims Ann for match `m1`. -/
def matched : List Action := queued ++ [.frame 1 (.queueJoin somePreferences)] ++ turns 1 9 "m1"

/-- Both vote to connect; Ben's handler has read the match. -/
def bothVoted : List Action :=
  matched ++ [.frame 0 (.connect "m1")] ++ turns 0 2 "" ++ [.frame 1 (.connect "m1")]
    ++ turns 1 3 ""

end OneMinute
