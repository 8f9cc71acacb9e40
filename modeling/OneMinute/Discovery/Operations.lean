/-
  OneMinute.Discovery.Operations

  The Store operations as labels of one machine.  A run interleaves the
  operations of any users on any number of server replicas, since Redis runs
  one script at a time; `tick` is the passage of Redis time.

  The machine's state is the Redis store with two records of the run: the
  claims that succeeded and the log of published events.
-/

import OneMinute.Discovery.Store

namespace OneMinute.Discovery

inductive Op where
  | connect (u : UserID) (c : ConnectionID)
  | heartbeat (u : UserID) (c : ConnectionID)
  | enqueue (u : UserID) (c : ConnectionID) (p : Preferences) (now : UnixMilli)
  | leaveQueue (u : UserID) (c : ConnectionID)
  | cleanupQueued (u : UserID) (encoded : QueuedState)
  | claim (k : Claim)
  | reconnect (u : UserID) (c : ConnectionID) (m : MatchID) (now : UnixMilli)
  | signal (u : UserID) (c : ConnectionID) (env : Envelope)
  | extend (u : UserID) (c : ConnectionID) (m : MatchID) (now : UnixMilli)
  | connectVote (u : UserID) (c : ConnectionID) (m : MatchID) (now : UnixMilli)
  | publishConnection (m : MatchID) (connectionID : String)
  | endMatch (u : UserID) (c : ConnectionID) (m : MatchID) (reason : EndReason)
  | endForUser (u : UserID) (m : MatchID) (reason : EndReason)
  | disconnect (u : UserID) (c : ConnectionID) (now : UnixMilli)
  | expire (m : MatchID) (now : UnixMilli)
  | disconnectExpiry (m : MatchID) (u : UserID) (now : UnixMilli)
  | tick (d : Nat)
deriving DecidableEq, Repr

/-- The script behind an operation, with the arguments the Go method passes. -/
def Op.exec (s : Store) : Op → Outcome
  | .connect u c => s.connect u c
  | .heartbeat u c => s.heartbeatScript u c
  | .enqueue u c p now => s.enqueueScript u c p now
  | .leaveQueue u c => s.leaveQueueScript u c
  | .cleanupQueued u encoded => s.cleanupQueuedScript u encoded
  | .claim k => s.claimScript k
  | .reconnect u c m now => s.reconnectScript u c m now
  | .signal u c env => s.signalScript u c env
  | .extend u c m now => s.extendScript u c m now
  | .connectVote u c m now => s.connectScript u c m now
  | .publishConnection m connectionID => s.publishConnectionScript m connectionID
  | .endMatch u c m reason => s.endScript u c m reason
  | .endForUser u m reason => s.endForUserScript u m reason
  | .disconnect u c now => s.disconnectScript u c (now + reconnectGrace)
  | .expire m now => s.expireScript m now
  | .disconnectExpiry m u now => s.disconnectExpiryScript m u now
  | .tick d => (s.advance d).answer 1

/-- The match an operation names. -/
def Op.names : Op → Option MatchID
  | .claim k => some k.matchID
  | .reconnect _ _ m _ => some m
  | .signal _ _ env => some env.matchID
  | .extend _ _ m _ => some m
  | .connectVote _ _ m _ => some m
  | .publishConnection m _ => some m
  | .endMatch _ _ m _ => some m
  | .endForUser _ m _ => some m
  | .expire m _ => some m
  | .disconnectExpiry m _ _ => some m
  | _ => none

/-- The match an operation ends when it answers 1. -/
def Op.ends : Op → Option MatchID
  | .endMatch _ _ m _ => some m
  | .endForUser _ m _ => some m
  | .expire m _ => some m
  | .disconnectExpiry m _ _ => some m
  | _ => none

/-- The Redis store with the run's record of it. -/
structure World where
  store : Store
  /-- Claims that succeeded, latest first. -/
  claims : List Claim
  /-- Everything published, as (channel's user, event). -/
  published : List (UserID × Event)

def World.empty : World := ⟨.empty, [], []⟩

/-- What the callers guarantee: a claim is for two users and its id, drawn by
    `randomID`, is not that of an earlier match; the socket handler ends a match
    for `left` or `skipped`, the block handler for `blocked`. -/
def Op.Permitted (w : World) : Op → Prop
  | .claim k => k.userA ≠ k.userB ∧ ∀ k' ∈ w.claims, k'.matchID ≠ k.matchID
  | .endMatch _ _ _ reason => reason = .left ∨ reason = .skipped
  | .endForUser _ _ reason => reason = .blocked
  | _ => True

instance (w : World) : (op : Op) → Decidable (op.Permitted w)
  | .claim k =>
    inferInstanceAs
      (Decidable (k.userA ≠ k.userB ∧ ∀ k' ∈ w.claims, k'.matchID ≠ k.matchID))
  | .endMatch _ _ _ reason => inferInstanceAs (Decidable (reason = .left ∨ reason = .skipped))
  | .endForUser _ _ reason => inferInstanceAs (Decidable (reason = .blocked))
  | .connect .. | .heartbeat .. | .enqueue .. | .leaveQueue .. | .cleanupQueued ..
  | .reconnect .. | .signal .. | .extend .. | .connectVote .. | .publishConnection ..
  | .disconnect .. | .expire .. | .disconnectExpiry .. | .tick _ => isTrue trivial

/-- The claim an outcome of `op` records. -/
def Op.claimed (op : Op) (o : Outcome) : List Claim :=
  match op, o.reply with
  | .claim k, .ok 1 => [k]
  | _, _ => []

/-- A refused claim is not recorded. -/
theorem claimed_refused (op : Op) (s : Store) {n : Int} (hn : n ≤ 0) :
    op.claimed (s.answer n) = [] := by
  cases op with
  | claim k =>
      unfold Op.claimed
      split
      · next e =>
          cases e
          exact absurd hn (by decide)
      · rfl
  | _ => rfl

/-- The world after a permitted operation. -/
def World.after (w : World) (op : Op) : World where
  store := (op.exec w.store).store
  claims := op.claimed (op.exec w.store) ++ w.claims
  published := w.published ++ (op.exec w.store).published

def World.step (w : World) (op : Op) : Option World :=
  if op.Permitted w then some (w.after op) else none

/-- All runs of the Store operations from the empty store. -/
def storeMachine : Machine World Op := ⟨.empty, World.step⟩

theorem step_eq_some {w w' : World} {op : Op} :
    storeMachine.step w op = some w' ↔ op.Permitted w ∧ w' = w.after op := by
  show World.step w op = some w' ↔ _
  unfold World.step
  split
  · next h => simp [h, eq_comm]
  · next h => simp [h]

/-! ## A first encounter

The runs that the concrete instances of the theorems start from. -/

def somePreferences : Preferences := ⟨"new_friends", ["en"], []⟩

/-- The claim of `a` and `b` as match `m` at instant `now`. -/
def claimOf (a b : UserID) (ca cb : ConnectionID) (m : MatchID) (now : UnixMilli) : Claim :=
  let found (p : UserID) (offerer : Bool) : MatchFound :=
    ⟨⟨p, p, ""⟩, [], "new_friends", offerer, now, now + encounterLength⟩
  ⟨a, b, ca, cb, m, "new_friends", [], found b true, found a false, now, false⟩

/-- Ann and Ben connect, queue and meet in match `m1`. -/
def meeting : List Op :=
  [.connect "ann" "c1", .connect "ben" "c2",
   .enqueue "ann" "c1" somePreferences 0, .enqueue "ben" "c2" somePreferences 0,
   .claim (claimOf "ann" "ben" "c1" "c2" "m1" 0)]

end OneMinute.Discovery
