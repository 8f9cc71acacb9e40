/-
  OneMinute.Calls

  The calls that handlers make.  Each is one atomic step elsewhere: a Redis
  command or script, a PostgreSQL transaction, a write to the client's socket,
  or the ICE provider.  Handlers are processes over these calls, so between any
  two of them anything else may happen.
-/

import OneMinute.Lib.Process
import OneMinute.Repository
import OneMinute.Discovery.Operations

namespace OneMinute

open Discovery

/-- What a server supplies when a call is made: its clock and a random id. -/
structure Draw where
  now : UnixMilli
  id : String

inductive Call where
  | store (op : Op)
  -- Redis reads
  | userMatch (u : UserID)
  | matchHash (m : MatchID)
  | queue (count : Nat)
  | queuedState (u : UserID)
  | presence (u : UserID)
  | recent (a b : UserID)
  | dueDeadlines (now : UnixMilli)
  | dueDisconnects (now : UnixMilli)
  -- PostgreSQL
  | eligiblePair (a b : UserID)
  | profile (u : UserID)
  | persistConnection (m : MatchState) (endedAt : UnixMilli) (id : String)
  | connectionPeer (u : UserID) (connectionID : String)
  | block (u target : UserID) (now : UnixMilli)
  | unblock (u target : UserID)
  | remove (u : UserID) (connectionID : String) (now : UnixMilli)
  -- outside
  | iceConfiguration (u : UserID)
  | write (e : Event)
deriving DecidableEq, Repr

/-- A missing key or field is a reply; the reply of `matchHash` is parsed as
    CurrentMatch parses it. -/
@[reducible] def Call.Reply : Call → Type
  | .store _ => Int
  | .userMatch _ => Option MatchID
  | .matchHash _ => Except DecodeError (Option MatchState)
  | .queue _ => List (UserID × Int)
  | .queuedState _ => Option QueuedState
  | .presence _ => Option ConnectionID
  | .recent _ _ => Bool
  | .dueDeadlines _ => List MatchID
  | .dueDisconnects _ => List (MatchID × UserID)
  | .eligiblePair _ _ => Bool
  | .profile _ => Profile
  | .persistConnection _ _ _ => String
  | .connectionPeer _ _ => Option UserID
  | .block _ _ _ => Unit
  | .unblock _ _ => Unit
  | .remove _ _ _ => Bool
  | .iceConfiguration _ => Unit
  | .write _ => Unit

@[reducible] def api : Interface := ⟨Draw, Call, Call.Reply⟩

instance : (c : Call) → DecidableEq c.Reply
  | .store _ | .userMatch _ | .matchHash _ | .queue _ | .queuedState _ | .presence _
  | .recent _ _ | .dueDeadlines _ | .dueDisconnects _ | .eligiblePair _ _ | .profile _
  | .persistConnection _ _ _ | .connectionPeer _ _ | .block _ _ _ | .unblock _ _
  | .remove _ _ _ | .iceConfiguration _ | .write _ => inferInstance

instance : DecidableEq (Exchange api)
  | ⟨c, r⟩, ⟨c', r'⟩ =>
    -- the replies can be compared once the calls agree
    if h : c = c' then
      match c', h, r' with
      | _, rfl, r' => decidable_of_iff (r = r') (by simp)
    else isFalse fun e => h (congrArg Exchange.call e)

abbrev Proc := Process api

/-- A call without a clock value or id. -/
abbrev ask (c : Call) : Proc (Option c.Reply) := Process.call (I := api) c

/-- A script whose arguments use the clock or a random id. -/
def script (op : Draw → Op) : Proc (Option Int) :=
  .ask (fun d => .store (op d)) fun _ r => .done r

/-- `_ = write(..)`: an error is ignored. -/
def tell (e : Event) : Proc Unit := .ask (fun _ => .write e) fun _ _ => .done ()

/-- PersistConnection, which reads the clock itself. -/
def persist (m : MatchState) : Proc (Option String) :=
  .ask (fun d => .persistConnection m d.now d.id) fun _ r => .done r

/-- `CurrentMatch`: an error, no match, or the match. -/
def currentMatch (u : UserID) : Proc (Option (Option MatchState)) := do
  match ← ask (.userMatch u) with
  | none => return none
  | some none => return some none
  | some (some m) =>
    -- GET and HGETALL are two calls; the match may end between them
    match ← ask (.matchHash m) with
    | none => return none
    | some (.error _) => return none
    | some (.ok found) => return some found

/-! ## Where two handlers' states meet -/

/-- The environment of all calls. -/
structure Env where
  world : World
  db : Database

/-- The order of `queue` members with equal scores. -/
def userBefore (a b : UserID) : Bool := decide (a < b)

/-- The order of `disconnect-deadlines` members with equal scores. -/
def markerBefore (x y : MatchID × UserID) : Bool :=
  decide (x.1 ++ ":" ++ x.2 < y.1 ++ ":" ++ y.2)

/-- The batch size of both ranges in Sweep. -/
def sweepCount : Nat := 100

/-- A call that goes through: the environment after it and its reply, which is
    missing when the call itself reports an error. -/
def Env.exec (e : Env) : (c : Call) → Env × Option c.Reply
  | .store op => (⟨e.world.after op, e.db⟩, (op.exec e.world.store).reply.toOption)
  | .userMatch u => (e, some (e.world.store.userMatch.get u))
  | .matchHash m => (e, some (e.world.store.matchState m))
  | .queue count => (e, some (e.world.store.queue.range userBefore count))
  | .queuedState u => (e, some (e.world.store.preferences u))
  | .presence u => (e, some (e.world.store.presence.get u))
  | .recent a b => (e, some (e.world.store.recent.get (Store.recentKey a b)).isSome)
  | .dueDeadlines now => (e, some (e.world.store.deadlines.due userBefore now sweepCount))
  | .dueDisconnects now =>
    (e, some (e.world.store.disconnectDeadlines.due markerBefore now sweepCount))
  | .eligiblePair a b => (e, some (e.db.eligiblePair a b))
  | .profile u => (e, (e.db.profile u).toOption)
  | .persistConnection m endedAt id =>
    match e.db.persistConnection m endedAt id with
    | .ok (durableID, db) => (⟨e.world, db⟩, some durableID)
    | .error _ => (e, none)
  | .connectionPeer u connectionID => (e, e.db.connectionPeer u connectionID)
  | .block u target now =>
    match e.db.block u target now with
    | .ok db => (⟨e.world, db⟩, some ())
    | .error _ => (e, none)
  | .unblock u target =>
    match e.db.cast target with
    | some v => (⟨e.world, e.db.unblock u v⟩, some ())
    | none => (e, none)
  | .remove u connectionID now =>
    match e.db.cast connectionID with
    | some c => (⟨e.world, (e.db.remove u c now).2⟩, some (e.db.remove u c now).1)
    | none => (e, none)
  | .iceConfiguration _ => (e, some ())
  | .write _ => (e, some ())

/-- What the scheduler makes of a call: it goes through, it fails without
    effect, or it takes effect and its reply is lost. -/
inductive Fault where
  | ok
  | failed
  | lost
deriving DecidableEq, Repr

def Env.perform (e : Env) (fault : Fault) (c : Call) : Env × Option c.Reply :=
  match fault with
  | .ok => e.exec c
  | .failed => (e, none)
  | .lost => ((e.exec c).1, none)

/-! ## Proof rules for the calls -/

section
variable {P : List (Exchange api) → Call → Prop} {tr : List (Exchange api)}

theorem always_call {c : Call} {Q : List (Exchange api) → Option c.Reply → Prop} (h : P tr c)
    (hQ : ∀ r, Q (⟨c, r⟩ :: tr) r) : Process.Always P tr (ask c) Q :=
  fun _ => ⟨h, hQ⟩

theorem always_script {op : Draw → Op} {Q : List (Exchange api) → Option Int → Prop}
    (h : ∀ d, P tr (.store (op d))) (hQ : ∀ d r, Q (⟨.store (op d), r⟩ :: tr) r) :
    Process.Always P tr (script op) Q :=
  fun d => ⟨h d, hQ d⟩

theorem always_tell {e : Event} {Q : List (Exchange api) → Unit → Prop} (h : P tr (.write e))
    (hQ : ∀ r, Q (⟨.write e, r⟩ :: tr) ()) : Process.Always P tr (tell e) Q :=
  fun _ => ⟨h, hQ⟩

theorem always_persist {m : MatchState} {Q : List (Exchange api) → Option String → Prop}
    (h : ∀ t i, P tr (.persistConnection m t i))
    (hQ : ∀ t i r, Q (⟨.persistConnection m t i, r⟩ :: tr) r) :
    Process.Always P tr (persist m) Q :=
  fun d => ⟨h d.now d.id, hQ d.now d.id⟩

/-- CurrentMatch finds a match only by reading a pointer and then the hash it
    names. -/
theorem always_currentMatch {u : UserID}
    {Q : List (Exchange api) → Option (Option MatchState) → Prop}
    (hptr : P tr (.userMatch u))
    (hhash : ∀ m, P (⟨.userMatch u, some (some m)⟩ :: tr) (.matchHash m))
    (hnone : ∀ r, (∀ m, r ≠ some (some m)) →
      Q (⟨.userMatch u, r⟩ :: tr) (r.map fun _ => none))
    (hread : ∀ m r, Q (⟨.matchHash m, r⟩ :: ⟨.userMatch u, some (some m)⟩ :: tr)
      (r.bind Except.toOption)) :
    Process.Always P tr (currentMatch u) Q := by
  refine Process.always_bind (always_call hptr fun r => ?_)
  match r with
  | none => exact hnone none fun m e => nomatch e
  | some none => exact hnone (some none) fun m e => nomatch e
  | some (some m) =>
      refine Process.always_bind (always_call (hhash m) fun r => ?_)
      match r with
      | none => exact hread m none
      | some (.error e) => exact hread m (some (.error e))
      | some (.ok found) => exact hread m (some (.ok found))

/-- CurrentMatch before a program that does not look at the exchanges. -/
theorem always_currentMatch_bind {α : Type} {u : UserID}
    {f : Option (Option MatchState) → Proc α} {Q : List (Exchange api) → α → Prop}
    (hptr : ∀ tr, P tr (.userMatch u)) (hhash : ∀ tr m, P tr (.matchHash m))
    (h : ∀ tr r, Process.Always P tr (f r) Q) : Process.Always P tr (currentMatch u >>= f) Q :=
  Process.always_bind (always_currentMatch (hptr _) (fun m => hhash _ m) (fun _ _ => h _ _)
    fun _ _ => h _ _)

end

end OneMinute
