/-
  OneMinute.Communication.Calls

  Call signaling: the Redis keys `communication:call:<id>` and
  `communication:busy:<u>`, and the four scripts of `invite` and `callAction`.

  `callAction` first reads the call's hash and later runs a script with what it
  has read, so a run of the machine has the read as a step of its own (`fetch`);
  which calls were read is part of the state.  The id of a call is drawn by
  `uuid.NewString` and its two users are the ends of one connection.
-/

import OneMinute.Lib.Keyspace
import OneMinute.Lib.Machine
import OneMinute.Discovery.Protocol

namespace OneMinute.Communication

open Discovery (UserID)

abbrev CallID := String

/-- The value of the hash's `data` field. -/
structure Call where
  id : CallID
  connectionID : String
  caller : UserID
  callee : UserID
  name : String
  video : Bool
deriving DecidableEq, Repr

/-- The `state` field. -/
inductive CallState where
  | ringing
  | active
deriving DecidableEq, Repr

/-- A call hash; a field may be missing. -/
structure CallHash where
  data : Option Call := none
  state : Option CallState := none
deriving DecidableEq, Repr

structure CallStore where
  clock : Nat
  busy : Keyspace UserID CallID
  calls : Keyspace CallID CallHash

namespace CallStore

def empty : CallStore := ⟨0, .empty, .empty⟩

/-- The instant `seconds` from now. -/
def ttl (s : CallStore) (seconds : Nat) : Nat := s.clock + 1000 * seconds

/-- HGET state. -/
def state (s : CallStore) (id : CallID) : Option CallState :=
  (s.calls.get id).bind CallHash.state

/-! ## Scripts -/

/-- A script's answer and the store it left. -/
structure Answer where
  reply : Int
  store : CallStore

/-- The reservation of `invite`. -/
def inviteScript (s : CallStore) (call : Call) : Answer :=
  if (s.busy.get call.caller).isSome ∨ (s.busy.get call.callee).isSome then ⟨0, s⟩
  else
    ⟨1, { s with
      busy := (s.busy.put call.caller call.id (some (s.ttl 50))).put call.callee call.id
        (some (s.ttl 50))
      calls := (s.calls.modify call.id {} fun _ => ⟨some call, some .ringing⟩).expire call.id
        (s.ttl 45) }⟩

/-- `accept`; `key` is the id in the request's path. -/
def acceptScript (s : CallStore) (key : CallID) (call : Call) : Answer :=
  if s.state key ≠ some .ringing then ⟨0, s⟩
  else
    ⟨1, { s with
      calls := (s.calls.modify key {} fun h => { h with state := some .active }).expire key
        (s.ttl 75)
      -- whatever they hold
      busy := (s.busy.expire call.caller (s.ttl 80)).expire call.callee (s.ttl 80) }⟩

/-- `if GET==ARGV[1] then DEL`. -/
def free (id : CallID) (busy : Keyspace UserID CallID) (u : UserID) : Keyspace UserID CallID :=
  if busy.get u = some id then busy.del u else busy

/-- `end` and `decline`. -/
def endScript (s : CallStore) (key : CallID) (call : Call) : Answer :=
  ⟨1, { s with
    calls := s.calls.del key
    busy := free call.id (free call.id s.busy call.caller) call.callee }⟩

/-- `if GET==ARGV[1] then EXPIRE else SET .. NX`. -/
def renew (id : CallID) (t : Nat) (busy : Keyspace UserID CallID) (u : UserID) :
    Keyspace UserID CallID :=
  if busy.get u = some id then busy.expire u t
  else if (busy.get u).isNone then busy.put u id (some t)
  else busy

def heartbeatScript (s : CallStore) (key : CallID) (call : Call) : Answer :=
  if s.state key ≠ some .active then ⟨0, s⟩
  else
    ⟨1, { s with
      calls := s.calls.expire key (s.ttl 75)
      busy := renew call.id (s.ttl 80) (renew call.id (s.ttl 80) s.busy call.caller) call.callee }⟩

/-- Time passes. -/
def advance (s : CallStore) (d : Nat) : CallStore :=
  ⟨s.clock + d, s.busy.lapse (s.clock + d), s.calls.lapse (s.clock + d)⟩

end CallStore

/-! ## Runs -/

inductive CallOp where
  | invite (call : Call)
  /-- `HGETALL` in callAction. -/
  | fetch (key : CallID)
  | accept (key : CallID) (call : Call)
  /-- `end` or `decline`. -/
  | finish (key : CallID) (call : Call)
  | heartbeat (key : CallID) (call : Call)
  | tick (d : Nat)
deriving DecidableEq, Repr

/-- The store with the run's record of it. -/
structure CallWorld where
  store : CallStore
  /-- The calls whose reservation was attempted. -/
  invited : List Call
  /-- The calls that a request has read, with the key. -/
  fetched : List (CallID × Call)

def CallWorld.empty : CallWorld := ⟨.empty, [], []⟩

/-- The script behind an operation. -/
def CallOp.exec (s : CallStore) : CallOp → CallStore.Answer
  | .invite call => s.inviteScript call
  | .fetch _ => ⟨1, s⟩
  | .accept key call => s.acceptScript key call
  | .finish key call => s.endScript key call
  | .heartbeat key call => s.heartbeatScript key call
  | .tick d => ⟨1, s.advance d⟩

/-- An invite has a fresh id and two users; the other scripts run with a call
    that was read. -/
def CallOp.Permitted (w : CallWorld) : CallOp → Prop
  | .invite call => call.caller ≠ call.callee ∧ ∀ c ∈ w.invited, c.id ≠ call.id
  | .accept key call | .finish key call | .heartbeat key call => (key, call) ∈ w.fetched
  | .fetch _ | .tick _ => True

instance (w : CallWorld) : (op : CallOp) → Decidable (op.Permitted w)
  | .invite call =>
    inferInstanceAs (Decidable (call.caller ≠ call.callee ∧ ∀ c ∈ w.invited, c.id ≠ call.id))
  | .accept key call | .finish key call | .heartbeat key call =>
    inferInstanceAs (Decidable ((key, call) ∈ w.fetched))
  | .fetch _ | .tick _ => isTrue trivial

def CallWorld.after (w : CallWorld) (op : CallOp) : CallWorld where
  store := (op.exec w.store).store
  invited :=
    match op with
    | .invite call => call :: w.invited
    | _ => w.invited
  fetched :=
    match op with
    | .fetch key =>
      (((w.store.calls.get key).bind CallHash.data).map fun call => (key, call)).toList
        ++ w.fetched
    | _ => w.fetched

def CallWorld.step (w : CallWorld) (op : CallOp) : Option CallWorld :=
  if op.Permitted w then some (w.after op) else none

/-- All runs of the call scripts from the empty store. -/
def callMachine : Machine CallWorld CallOp := ⟨.empty, CallWorld.step⟩

theorem callStep_eq_some {w w' : CallWorld} {op : CallOp} :
    callMachine.step w op = some w' ↔ op.Permitted w ∧ w' = w.after op := by
  show CallWorld.step w op = some w' ↔ _
  unfold CallWorld.step
  split
  · next h => simp [h, eq_comm]
  · next h => simp [h]

end OneMinute.Communication
