/-
  OneMinute.Discovery.Store

  The Redis state of discovery and the Lua scripts that change it.

  Keys are typed by their prefix: `presence:<u>`, `user-match:<u>`,
  `match:<m>`, `recent:<a>:<b>`, the sorted sets `queue`, `deadlines` and
  `disconnect-deadlines` (whose members `<m>:<u>` are pairs here, since a match
  id holds no colon) and the hash `preferences`.  Redis freezes its clock while
  a script runs, so a script is a function of the store; `clock` is the Redis
  time in milliseconds, which only `advance` moves.

  A script answers an integer, or stops with a Lua error when it concatenates
  a missing field; what it wrote before stays, as in Redis.  Instants are
  integers; the doubles of Redis and Lua are exact on milliseconds up to 2^53.
-/

import OneMinute.Lib.Keyspace
import OneMinute.Lib.SortedSet
import OneMinute.Discovery.Protocol

namespace OneMinute.Discovery

/-! ## Constants -/

/-- Seconds. -/
def presenceTTL : Nat := 40
/-- Seconds. -/
def matchTTL : Nat := 300
/-- Seconds. -/
def recentTTL : Nat := 900
/-- Milliseconds. -/
def encounterLength : UnixMilli := 60000
/-- Milliseconds. -/
def reconnectGrace : UnixMilli := 45000

/-! ## State -/

/-- The value of a `preferences` field: what Enqueue encoded for the user. -/
structure QueuedState where
  connectionID : ConnectionID
  preferences : Preferences
deriving DecidableEq, Repr

/-- A candidate as Candidates returns it. -/
structure QueuedUser where
  id : UserID
  connectionID : ConnectionID
  preferences : Preferences
  joinedAt : UnixMilli
deriving DecidableEq, Repr

/-- A match hash.  Every field may be missing; the families `extend:<u>`,
    `connect:<u>` and `disconnected:<u>` are functions of the user. -/
structure MatchHash where
  a : Option UserID := none
  b : Option UserID := none
  state : Option MatchStatus := none
  startedAt : Option UnixMilli := none
  expiresAt : Option UnixMilli := none
  extendedAt : Option UnixMilli := none
  intent : Option String := none
  sharedInterests : Option (List String) := none
  connectPersisted : Bool := false
  connectionID : Option String := none
  extend : UserID → Bool := fun _ => false
  connect : UserID → Bool := fun _ => false
  disconnected : UserID → Option UnixMilli := fun _ => none

/-- `MatchState`, what CurrentMatch reads from a hash. -/
structure MatchState where
  id : MatchID
  userA : UserID
  userB : UserID
  intent : String
  connectionID : Option String
  sharedInterests : List String
  state : Option MatchStatus
  startedAt : UnixMilli
  expiresAt : UnixMilli
deriving DecidableEq, Repr

structure Store where
  clock : Nat
  presence : Keyspace UserID ConnectionID
  userMatch : Keyspace UserID MatchID
  matches_ : Keyspace MatchID MatchHash
  recent : Keyspace (UserID × UserID) Unit
  queue : SortedSet UserID
  preferences : UserID → Option QueuedState
  deadlines : SortedSet MatchID
  disconnectDeadlines : SortedSet (MatchID × UserID)

/-- The empty store. -/
def Store.empty : Store where
  clock := 0
  presence := .empty
  userMatch := .empty
  matches_ := .empty
  recent := .empty
  queue := .empty
  preferences := fun _ => none
  deadlines := .empty
  disconnectDeadlines := .empty

inductive LuaError where
  | concatenateNil
deriving DecidableEq, Repr

/-- A stored field that does not parse. -/
inductive DecodeError where
  | sharedInterests
deriving DecidableEq, Repr

/-- What a script did: its answer, the store it left and what it published,
    as (channel's user, event). -/
structure Outcome where
  reply : Except LuaError Int
  store : Store
  published : List (UserID × Event) := []

namespace Store

/-- Answer `n` and change nothing. -/
def answer (s : Store) (n : Int) : Outcome := ⟨.ok n, s, []⟩

/-- The instant `seconds` from now. -/
def ttl (s : Store) (seconds : Nat) : Nat := s.clock + 1000 * seconds

/-- HGET of one field of `match:<m>`; a missing key reads as a missing field. -/
def hget {α : Type} (s : Store) (m : MatchID) (field : MatchHash → Option α) : Option α :=
  (s.matches_.get m).bind field

/-- A write into `match:<m>`. -/
def hset (s : Store) (m : MatchID) (f : MatchHash → MatchHash) : Store :=
  { s with matches_ := s.matches_.modify m {} f }

/-- ZREM and HDEL of a user's queue entry. -/
def dequeue (s : Store) (u : UserID) : Store :=
  { s with
    queue := s.queue.zrem u
    preferences := fun x => if x = u then none else s.preferences x }

/-- `recentKey`: the two ids in string order. -/
def recentKey (a b : UserID) : UserID × UserID := sortPair a b

/-- Time passes: every key whose expiry lies before the new instant is gone.
    Redis keeps a key through the very millisecond of its expiry. -/
def advance (s : Store) (d : Nat) : Store :=
  { s with
    clock := s.clock + d
    presence := s.presence.lapse (s.clock + d)
    userMatch := s.userMatch.lapse (s.clock + d)
    matches_ := s.matches_.lapse (s.clock + d)
    recent := s.recent.lapse (s.clock + d) }

end Store

/-! ## Updates of a match hash -/

namespace MatchHash

def setExtend (u : UserID) (h : MatchHash) : MatchHash :=
  { h with extend := fun x => if x = u then true else h.extend x }

def setExtended (now : UnixMilli) (h : MatchHash) : MatchHash :=
  { h with state := some .extended, extendedAt := some now }

def setConnect (u : UserID) (h : MatchHash) : MatchHash :=
  { h with connect := fun x => if x = u then true else h.connect x }

def setPersisted (connectionID : String) (h : MatchHash) : MatchHash :=
  { h with connectPersisted := true, connectionID := some connectionID }

def setDisconnected (u : UserID) (deadline : Option UnixMilli) (h : MatchHash) : MatchHash :=
  { h with disconnected := fun x => if x = u then deadline else h.disconnected x }

end MatchHash

/-- The arguments of `Claim`. -/
structure Claim where
  userA : UserID
  userB : UserID
  connectionA : ConnectionID
  connectionB : ConnectionID
  matchID : MatchID
  intent : String
  sharedInterests : List String
  eventA : MatchFound
  eventB : MatchFound
  now : UnixMilli
  allowRecent : Bool
deriving DecidableEq, Repr

/-- The hash claimScript writes. -/
def Claim.hash (k : Claim) (h : MatchHash) : MatchHash :=
  { h with
    a := some k.userA
    b := some k.userB
    state := some .active
    startedAt := some k.now
    expiresAt := some (k.now + encounterLength)
    intent := some k.intent
    sharedInterests := some k.sharedInterests }

/-! ## Scripts -/

namespace Store

/-- `Connect`: SET of the presence key. -/
def connect (s : Store) (u : UserID) (c : ConnectionID) : Outcome :=
  { s with presence := s.presence.put u c (some (s.ttl presenceTTL)) }.answer 1

def heartbeatScript (s : Store) (u : UserID) (c : ConnectionID) : Outcome :=
  if s.presence.get u ≠ some c then s.answer 0
  else
    let s := { s with presence := s.presence.expire u (s.ttl presenceTTL) }
    -- the pointer of the sender and the hash it names, not the pointer of the peer
    match s.userMatch.get u with
    | none => s.answer 1
    | some m =>
      { s with
        userMatch := s.userMatch.expire u (s.ttl matchTTL)
        matches_ := s.matches_.expire m (s.ttl matchTTL) }.answer 1

def enqueueScript (s : Store) (u : UserID) (c : ConnectionID) (p : Preferences)
    (now : UnixMilli) : Outcome :=
  if s.presence.get u ≠ some c ∨ (s.userMatch.get u).isSome then s.answer 0
  else
    -- joining again overwrites the preferences and the place in the queue
    { s with
      preferences := fun x => if x = u then some ⟨c, p⟩ else s.preferences x
      queue := s.queue.zadd u now }.answer 1

def leaveQueueScript (s : Store) (u : UserID) (c : ConnectionID) : Outcome :=
  if s.presence.get u ≠ some c then s.answer 0 else (s.dequeue u).answer 1

/-- The entry is dropped only if it is still the one that was read and its
    connection is not the user's presence. -/
def cleanupQueuedScript (s : Store) (u : UserID) (encoded : QueuedState) : Outcome :=
  if s.preferences u ≠ some encoded then s.answer 0
  else if s.presence.get u = some encoded.connectionID then s.answer 0
  else (s.dequeue u).answer 1

/-- The participant opposite `u`, when `u` is one: the scripts'
    `if ARGV[1]==a then other=b elseif ARGV[1]==b then other=a else return end`. -/
def other (u : UserID) (a b : Option UserID) : Option (Option UserID) :=
  if some u = a then some b else if some u = b then some a else none

def reconnectScript (s : Store) (u : UserID) (c : ConnectionID) (m : MatchID)
    (now : UnixMilli) : Outcome :=
  if s.presence.get u ≠ some c ∨ s.userMatch.get u ≠ some m then s.answer 0
  else
    match other u (s.hget m MatchHash.a) (s.hget m MatchHash.b) with
    | none => s.answer 0
    | some peer =>
      -- a missing marker reads as '0', and 0 is no deadline
      let deadline := (s.hget m fun h => h.disconnected u).getD 0
      if 0 < deadline ∧ deadline ≤ now then s.answer 0
      else
        { reply := .ok 1
          store :=
            { s.hset m (MatchHash.setDisconnected u none) with
              disconnectDeadlines := s.disconnectDeadlines.zrem (m, u) }
          published := (peer.map fun p => (p, Event.peerReconnected m)).toList }

def claimScript (s : Store) (k : Claim) : Outcome :=
  if s.presence.get k.userA ≠ some k.connectionA
      ∨ s.presence.get k.userB ≠ some k.connectionB then s.answer 0
  -- neither is in a match
  else if (s.userMatch.get k.userA).isSome ∨ (s.userMatch.get k.userB).isSome then s.answer 0
  -- both are still queued
  else if s.queue.score k.userA = none ∨ s.queue.score k.userB = none then s.answer 0
  -- a recent pair is for the second pass only
  else if (s.recent.get (recentKey k.userA k.userB)).isSome ∧ k.allowRecent = false then
    s.answer 0
  else
    let q := (s.dequeue k.userA).dequeue k.userB
    let t := s.ttl matchTTL
    { reply := .ok 1
      store :=
        { q with
          matches_ := (q.matches_.modify k.matchID {} k.hash).expire k.matchID t
          userMatch := (q.userMatch.put k.userA k.matchID (some t)).put k.userB k.matchID (some t)
          recent := q.recent.put (recentKey k.userA k.userB) () (some (s.ttl recentTTL))
          deadlines := q.deadlines.zadd k.matchID (k.now + encounterLength) }
      published :=
        [(k.userA, .matchFound k.matchID k.eventA), (k.userB, .matchFound k.matchID k.eventB)] }

def signalScript (s : Store) (u : UserID) (c : ConnectionID) (env : Envelope) : Outcome :=
  if s.presence.get u ≠ some c ∨ s.userMatch.get u ≠ some env.matchID then s.answer 0
  else
    match other u (s.hget env.matchID MatchHash.a) (s.hget env.matchID MatchHash.b) with
    | some (some peer) =>
      -- the peer is there, on whatever connection
      if (s.presence.get peer).isNone then s.answer 0
      else { reply := .ok 1, store := s, published := [(peer, .signal env)] }
    | _ => s.answer 0

/-- The common tail of the four scripts that end a match: both pointers and
    messages, the deadline entries and last the hash.  The member names of the
    second ZREM need both participants. -/
def finish (s : Store) (m : MatchID) (reason : EndReason) : Outcome :=
  let message := Event.matchEnded m reason
  -- `if a then` .. `if b then` around DEL and PUBLISH
  let drop (ks : Keyspace UserID MatchID) (p : Option UserID) :=
    match p with
    | some u => ks.del u
    | none => ks
  let tell (p : Option UserID) := (p.map fun u => (u, message)).toList
  let a := s.hget m MatchHash.a
  let b := s.hget m MatchHash.b
  let s1 :=
    { s with
      userMatch := drop (drop s.userMatch a) b
      deadlines := s.deadlines.zrem m }
  match a, b with
  | some a', some b' =>
    { reply := .ok 1
      store :=
        { s1 with
          disconnectDeadlines := (s1.disconnectDeadlines.zrem (m, a')).zrem (m, b')
          matches_ := s1.matches_.del m }
      published := tell a ++ tell b }
  | _, _ => { reply := .error .concatenateNil, store := s1, published := tell a ++ tell b }

def endScript (s : Store) (u : UserID) (c : ConnectionID) (m : MatchID)
    (reason : EndReason) : Outcome :=
  if s.presence.get u ≠ some c ∨ s.userMatch.get u ≠ some m then s.answer 0
  else if some u ≠ s.hget m MatchHash.a ∧ some u ≠ s.hget m MatchHash.b then s.answer 0
  else s.finish m reason

def endForUserScript (s : Store) (u : UserID) (m : MatchID) (reason : EndReason) : Outcome :=
  if s.userMatch.get u ≠ some m then s.answer 0
  else if some u ≠ s.hget m MatchHash.a ∧ some u ≠ s.hget m MatchHash.b then s.answer 0
  else s.finish m reason

def extendScript (s : Store) (u : UserID) (c : ConnectionID) (m : MatchID)
    (now : UnixMilli) : Outcome :=
  if s.presence.get u ≠ some c ∨ s.userMatch.get u ≠ some m then s.answer 0
  else
    let a := s.hget m MatchHash.a
    let b := s.hget m MatchHash.b
    if some u ≠ a ∧ some u ≠ b then s.answer 0
    -- an extended match answers before its time is looked at
    else if s.hget m MatchHash.state = some .extended then s.answer 2
    else if s.hget m MatchHash.state ≠ some .active
        ∨ (s.hget m MatchHash.expiresAt).getD 0 ≤ now then s.answer (-1)
    else
      let voted := s.hset m (MatchHash.setExtend u)
      match if some u = b then a else b with
      -- the vote stands when the missing peer stops the script
      | none => { reply := .error .concatenateNil, store := voted }
      | some peer =>
        if voted.hget m (fun h => some (h.extend peer)) ≠ some true then voted.answer 1
        else
          let message := Event.matchExtended m now
          { reply := .ok 2
            store :=
              { voted.hset m (MatchHash.setExtended now) with
                deadlines := voted.deadlines.zrem m }
            published := (a.map fun x => (x, message)).toList
              ++ (b.map fun x => (x, message)).toList }

def connectScript (s : Store) (u : UserID) (c : ConnectionID) (m : MatchID)
    (now : UnixMilli) : Outcome :=
  if s.presence.get u ≠ some c ∨ s.userMatch.get u ≠ some m then s.answer 0
  else
    let a := s.hget m MatchHash.a
    let b := s.hget m MatchHash.b
    if some u ≠ a ∧ some u ≠ b then s.answer 0
    -- extended, or active and in time
    else if s.hget m MatchHash.state ≠ some .extended
        ∧ (s.hget m MatchHash.state ≠ some .active
          ∨ (s.hget m MatchHash.expiresAt).getD 0 ≤ now) then s.answer (-1)
    -- published before: no vote is recorded
    else if s.hget m (fun h => some h.connectPersisted) = some true then s.answer 3
    else
      let voted := s.hset m (MatchHash.setConnect u)
      match if some u = b then a else b with
      | none => { reply := .error .concatenateNil, store := voted }
      | some peer =>
        if voted.hget m (fun h => some (h.connect peer)) ≠ some true then voted.answer 1
        else voted.answer 2

def publishConnectionScript (s : Store) (m : MatchID) (connectionID : String) : Outcome :=
  -- no presence is looked at: any server may publish
  match s.hget m MatchHash.a, s.hget m MatchHash.b with
  | some a, some b =>
    if s.hget m (fun h => some (h.connect a)) ≠ some true
        ∨ s.hget m (fun h => some (h.connect b)) ≠ some true then s.answer 0
    else if s.hget m (fun h => some h.connectPersisted) = some true then s.answer 0
    else
      { reply := .ok 1
        store := s.hset m (MatchHash.setPersisted connectionID)
        published :=
          [(a, .connectionCreated m connectionID), (b, .connectionCreated m connectionID)] }
  | _, _ => s.answer 0

/-- `deadline` is the caller's `now` plus the reconnect grace. -/
def disconnectScript (s : Store) (u : UserID) (c : ConnectionID) (deadline : UnixMilli) :
    Outcome :=
  if s.presence.get u ≠ some c then s.answer 0
  else
    -- these go whether or not there is a match
    let s := { s with presence := s.presence.del u }.dequeue u
    match s.userMatch.get u with
    | none => s.answer 1
    | some m =>
      match other u (s.hget m MatchHash.a) (s.hget m MatchHash.b) with
      | none => s.answer 1
      | some peer =>
        { reply := .ok 1
          store :=
            -- an earlier marker and its score are overwritten
            { s.hset m (MatchHash.setDisconnected u (some deadline)) with
              disconnectDeadlines := s.disconnectDeadlines.zadd (m, u) deadline }
          published := (peer.map fun p => (p, Event.peerDisconnected m deadline)).toList }

def expireScript (s : Store) (m : MatchID) (now : UnixMilli) : Outcome :=
  if s.deadlines.score m = none then s.answer 0
  else if (s.matches_.get m).isNone then
    -- the hash has lapsed; only the member is left
    { s with deadlines := s.deadlines.zrem m }.answer 0
  else if s.hget m MatchHash.state ≠ some .active
      ∨ now < (s.hget m MatchHash.expiresAt).getD 0 then s.answer 0
  else s.finish m .expired

def disconnectExpiryScript (s : Store) (m : MatchID) (u : UserID) (now : UnixMilli) :
    Outcome :=
  match s.disconnectDeadlines.score (m, u) with
  | none => s.answer 0
  | some score =>
    if now < score then s.answer 0
    else
      let deadline := (s.hget m fun h => h.disconnected u).getD 0
      if deadline = 0 ∨ now < deadline then
        -- back in time, or marked anew: only the member goes
        { s with disconnectDeadlines := s.disconnectDeadlines.zrem (m, u) }.answer 0
      else s.finish m .peerDisconnected

/-! ## Reads -/

/-- The part of CurrentMatch after the pointer was read: no match when a
    participant is missing (ids are never empty), an error when
    `sharedInterests` does not parse. -/
def matchState (s : Store) (m : MatchID) : Except DecodeError (Option MatchState) :=
  match s.hget m MatchHash.a, s.hget m MatchHash.b with
  | some a, some b =>
    match s.hget m MatchHash.sharedInterests with
    | none => .error .sharedInterests
    | some shared =>
      .ok <| some
        { id := m, userA := a, userB := b
          intent := (s.hget m MatchHash.intent).getD ""
          connectionID := s.hget m MatchHash.connectionID
          sharedInterests := shared
          state := s.hget m MatchHash.state
          startedAt := (s.hget m MatchHash.startedAt).getD 0
          expiresAt := (s.hget m MatchHash.expiresAt).getD 0 }
  | _, _ => .ok none

/-- CurrentMatch with both reads at one instant. -/
def currentMatch (s : Store) (u : UserID) : Except DecodeError (Option MatchState) :=
  match s.userMatch.get u with
  | none => .ok none
  | some m => s.matchState m

end Store

/-- `peer`: the participant opposite `u`. -/
def peer (m : MatchState) (u : UserID) : UserID := if m.userA = u then m.userB else m.userA

end OneMinute.Discovery
