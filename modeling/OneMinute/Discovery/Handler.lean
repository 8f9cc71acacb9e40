/-
  OneMinute.Discovery.Handler

  The socket handler: what it does from the accepted socket to the read loop
  (`opening`), for each frame (`handle`) and in its deferred cleanup
  (`cleanup`), and the matchmaking of `queue.join`.
-/

import Mathlib.Data.List.Sort
import OneMinute.Calls

namespace OneMinute.Discovery

/-! ## Preferences -/

def compatible (a b : Preferences) : Bool :=
  (decide (a.intent = b.intent)
      || (decide (a.intent = "surprise_me") && decide (b.intent ≠ "dating"))
      || (decide (b.intent = "surprise_me") && decide (a.intent ≠ "dating")))
    && a.languages.any fun first => b.languages.any fun second => decide (first = second)

def sharedInterests (a b : List String) : List String :=
  (b.filter fun value => decide (value ∈ a)).insertionSort (· ≤ ·)

def resolvedIntent (first second : String) : String :=
  if first = "surprise_me" then second else first

/-- The `less` of tryMatch's stable sort: more shared interests, then longer in
    the queue. -/
def ranksLess (p : Preferences) (a b : QueuedUser) : Bool :=
  let left := (sharedInterests p.interests a.preferences.interests).length
  let right := (sharedInterests p.interests b.preferences.interests).length
  if left = right then decide (a.joinedAt < b.joinedAt) else decide (right < left)

/-- `sort.SliceStable`: an element goes before another unless that one is less. -/
def sortCandidates (p : Preferences) (candidates : List QueuedUser) : List QueuedUser :=
  candidates.insertionSort fun a b => ranksLess p b a = false

/-! ## Matchmaking -/

/-- The loop of Candidates over the queue entries. -/
def scan (u : UserID) : List (UserID × Int) → Proc (List QueuedUser)
  | [] => return []
  | (id, score) :: rest =>
    if id = u then scan u rest
    else do
      match ← ask (.queuedState id) with
      | some (some state) =>
        if state.connectionID = "" then scan u rest
        else
          let activeConnection ← ask (.presence id)
          -- stale, or unreadable: the script looks again before it drops the entry
          if activeConnection ≠ some (some state.connectionID) then
            let _ ← script fun _ => .cleanupQueued id state
            scan u rest
          else
            let result ← scan u rest
            return ⟨id, state.connectionID, state.preferences, score⟩ :: result
      | _ => scan u rest

/-- `Candidates(.., 99)`. -/
def candidates (u : UserID) : Proc (Option (List QueuedUser)) := do
  -- ZRANGE 0 99
  match ← ask (.queue 100) with
  | none => return none
  | some items =>
    let result ← scan u items
    return some result

/-- The claim that `claimCandidate` makes with match id `id` at instant `now`. -/
def newClaim (user : Profile) (c : ConnectionID) (p : Preferences) (candidate : QueuedUser)
    (candidateProfile : Profile) (allowRecent : Bool) (id : MatchID) (now : UnixMilli) :
    Claim :=
  let shared := sharedInterests p.interests candidate.preferences.interests
  let intent := resolvedIntent p.intent candidate.preferences.intent
  { userA := user.id, userB := candidate.id
    connectionA := c, connectionB := candidate.connectionID
    matchID := id, intent, sharedInterests := shared
    eventA := ⟨candidateProfile, shared, intent, true, now, now + encounterLength⟩
    eventB := ⟨user, shared, intent, false, now, now + encounterLength⟩
    now, allowRecent }

def claimCandidate (user : Profile) (c : ConnectionID) (p : Preferences)
    (candidate : QueuedUser) (allowRecent : Bool) : Proc (Option Bool) := do
  match ← ask (.eligiblePair user.id candidate.id) with
  | none => return none
  | some false => return some false
  | some true =>
    match ← ask (.profile candidate.id) with
    | none => return none
    | some candidateProfile =>
      -- the script looks at no block
      let result ← script fun d =>
        .claim (newClaim user c p candidate candidateProfile allowRecent d.id d.now)
      return result.map fun n => decide (n = 1)

/-- One pass of tryMatch over the sorted candidates: the first pass leaves out
    recent peers, the second takes only them.  The answer says whether a claim
    succeeded. -/
def tryPass (user : Profile) (c : ConnectionID) (p : Preferences) (second : Bool) :
    List QueuedUser → Proc (Option Bool)
  | [] => return some false
  | candidate :: rest =>
    if compatible p candidate.preferences = false then tryPass user c p second rest
    else do
      let recent ← ask (.recent user.id candidate.id)
      -- an error of Recent skips the candidate in both passes
      if recent ≠ some second then tryPass user c p second rest
      else
        match ← claimCandidate user c p candidate second with
        | none => return none
        | some true => return some true
        | some false => tryPass user c p second rest

def tryMatch (user : Profile) (c : ConnectionID) (p : Preferences) : Proc (Option Unit) := do
  match ← candidates user.id with
  | none => return none
  | some found =>
    let sorted := sortCandidates p found
    match ← tryPass user c p false sorted with
    | none => return none
    | some true => return some ()
    | some false =>
      let claimed ← tryPass user c p true sorted
      return claimed.map fun _ => ()

/-! ## The socket -/

/-- A text frame that passes `decode`, or one that does not. -/
inductive Frame where
  | heartbeat
  | queueJoin (p : Preferences)
  | queueLeave
  | webrtc (env : Envelope)
  | leave (m : MatchID)
  | skip (m : MatchID)
  | extend (m : MatchID)
  | connect (m : MatchID)
  | invalid
deriving DecidableEq, Repr

/-- Where the handler goes next: to `conn.Read`, out through the deferred
    Disconnect, or out without it. -/
inductive Next where
  | read
  | stop
  | gone
deriving DecidableEq, Repr

/-- From the accepted socket to the read loop. -/
def opening (user : Profile) (c : ConnectionID) : Proc Next := do
  match ← script fun _ => .connect user.id c with
  -- Connect failed: out before the Disconnect is deferred
  | none => return .gone
  | some _ =>
    match ← ask (.iceConfiguration user.id) with
    | none => return .stop
    | some () =>
      match ← ask (.write (.connectionReady user.id)) with
      | none => return .stop
      | some () =>
        match ← currentMatch user.id with
        | none => return .stop
        | some none => return .read
        | some (some current) =>
          let profile ← ask (.profile (peer current user.id))
          let reconnected ← script fun d => .reconnect user.id c current.id d.now
          -- an error of Profile counts only here, after Reconnect has run
          match profile, reconnected with
          | some profile, some 1 =>
            let found : MatchFound :=
              ⟨profile, current.sharedInterests, current.intent,
                decide (current.userA = user.id), current.startedAt, current.expiresAt⟩
            match ← ask (.write (.matchRecovered current.id found current.state
              current.connectionID)) with
            | none => return .stop
            | some () => return .read
          | _, _ => return .stop

/-- After the second vote: read the match, persist, publish. -/
def persistVotes (u : UserID) (m : MatchID) : Proc Next := do
  match ← currentMatch u with
  | some (some current) =>
    if current.id ≠ m then return .read
    else
      match ← persist current with
      | none =>
        tell (.error m "connect_persistence_failed")
        return .read
      | some durableID =>
        let _ ← script fun _ => .publishConnection m durableID
        return .read
  -- an error or no match: on to the next frame
  | _ => return .read

/-- A vote on a match that has its connection: tell the client which. -/
def recallConnection (u : UserID) (m : MatchID) : Proc Next := do
  match ← currentMatch u with
  | some (some current) =>
    match current.connectionID with
    | some id =>
      if current.id = m ∧ id ≠ "" then
        tell (.connectionCreated m id)
        return .read
      else return .read
    | none => return .read
  | _ => return .read

/-- `match.connect`. -/
def matchConnect (u : UserID) (c : ConnectionID) (m : MatchID) : Proc Next := do
  match ← script fun d => .connectVote u c m d.now with
  | none =>
    tell (.error m "connect_unavailable")
    return .read
  | some result =>
    if result ≤ 0 then
      tell (.error m "connect_unavailable")
      return .read
    else if result = 1 then
      tell (.connectPending m)
      return .read
    else if result = 3 then recallConnection u m
    else if result = 2 then persistVotes u m
    else return .read

/-- `match.extend`. -/
def matchExtend (u : UserID) (c : ConnectionID) (m : MatchID) : Proc Next := do
  match ← script fun d => .extend u c m d.now with
  | none =>
    tell (.error m "lifecycle_error")
    return .read
  | some result =>
    if result ≤ 0 then
      tell (.error m "match_unavailable")
      return .read
    else if result = 1 then
      tell (.extendPending m)
      return .read
    else return .read

/-- `queue.join`. -/
def queueJoin (user : Profile) (c : ConnectionID) (p : Preferences) : Proc Next := do
  match ← script fun d => .enqueue user.id c p d.now with
  | some 1 =>
    match ← Process.ask (I := api) (fun d => .write (.queueJoined p d.now))
      (fun _ r => .done r) with
    | none => return .stop
    | some () =>
      match ← tryMatch user c p with
      | none =>
        tell (.error "" "matchmaking_unavailable")
        return .read
      | some () => return .read
  | _ =>
    -- an error of Enqueue, or the user is not available
    tell (.error "" "queue_unavailable")
    return .read

/-- One turn of the read loop. -/
def handle (user : Profile) (c : ConnectionID) : Frame → Proc Next
  | .heartbeat => do
    match ← script fun _ => .heartbeat user.id c with
    | some 1 => return .read
    -- an error, or the presence is another connection
    | _ => return .stop
  | .queueJoin p => queueJoin user c p
  | .queueLeave => do
    match ← script fun _ => .leaveQueue user.id c with
    | none => return .stop
    | some _ =>
      tell .queueLeft
      return .read
  | .webrtc env =>
    if env.matchID = "" then return .stop
    else do
      match ← script fun _ => .signal user.id c env with
      | some 1 => return .read
      | _ =>
        tell (.error env.matchID "peer_unavailable")
        return .read
  | .leave m =>
    if m = "" then return .stop
    else do
      let _ ← script fun _ => .endMatch user.id c m .left
      return .read
  | .skip m =>
    if m = "" then return .stop
    else do
      let _ ← script fun _ => .endMatch user.id c m .skipped
      return .read
  | .extend m => if m = "" then return .stop else matchExtend user.id c m
  | .connect m => if m = "" then return .stop else matchConnect user.id c m
  | .invalid => do
    tell (.error "" "invalid_event")
    return .stop

/-- The deferred Disconnect. -/
def cleanup (user : Profile) (c : ConnectionID) : Proc Next := do
  -- its result is ignored
  let _ ← script fun d => .disconnect user.id c d.now
  return .gone

/-! ## The sweep -/

def sweepDeadlines (now : UnixMilli) : List MatchID → Proc Bool
  | [] => return true
  | m :: rest => do
    match ← script fun _ => .expire m now with
    | none => return false
    | some _ => sweepDeadlines now rest

def sweepDisconnects (now : UnixMilli) : List (MatchID × UserID) → Proc Bool
  | [] => return true
  | (m, u) :: rest => do
    match ← script fun _ => .disconnectExpiry m u now with
    | none => return false
    | some _ => sweepDisconnects now rest

/-- `Sweep`: whether it ran to its end. -/
def sweep (now : UnixMilli) : Proc Bool := do
  match ← ask (.dueDeadlines now) with
  | none => return false
  | some matches_ =>
    if ← sweepDeadlines now matches_ then
      match ← ask (.dueDisconnects now) with
      | none => return false
      | some disconnected => sweepDisconnects now disconnected
    else return false

end OneMinute.Discovery
