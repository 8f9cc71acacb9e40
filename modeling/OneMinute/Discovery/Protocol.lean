/-
  OneMinute.Discovery.Protocol

  Identifiers, queue preferences and the events of the discovery socket.

  Ids are the strings the code passes around: UUID text from PostgreSQL for
  users, `randomID` text for connections and matches, and for a match id named
  by a client any string at all.  An event carries the fields of its JSON
  envelope that the code sets.
-/

import Mathlib.Data.String.Basic
import OneMinute.Lib.Machine

namespace OneMinute.Discovery

abbrev UserID := String
abbrev ConnectionID := String
abbrev MatchID := String

/-- Unix time in milliseconds, as `time.Time.UnixMilli` gives it. -/
abbrev UnixMilli := Int

/-- `sort.Strings` on two ids. -/
def sortPair (a b : String) : String × String := if b < a then (b, a) else (a, b)

structure Preferences where
  intent : String
  languages : List String
  interests : List String
deriving DecidableEq, Repr

/-- `repository.go`'s `Profile`: what the other participant is shown. -/
structure Profile where
  id : UserID
  displayName : String
  avatarURL : String
deriving DecidableEq, Repr

/-- A client frame of type `webrtc.*`, forwarded unchanged. -/
structure Envelope where
  type : String
  requestID : String
  matchID : MatchID
  payload : String
deriving DecidableEq, Repr

/-- The `state` field of a match hash. -/
inductive MatchStatus where
  | active
  | extended
deriving DecidableEq, Repr

/-- The `reason` of `match.ended`: two from the participants' frames, one from
    a block, two from the sweep. -/
inductive EndReason where
  | left
  | skipped
  | blocked
  | expired
  | peerDisconnected
deriving DecidableEq, Repr

/-- The payload of `match.found` at claim time. -/
structure MatchFound where
  peer : Profile
  sharedInterests : List String
  intent : String
  offerer : Bool
  startedAt : UnixMilli
  expiresAt : UnixMilli
deriving DecidableEq, Repr

/-- What is published to a user's channel or written to the user's socket. -/
inductive Event where
  -- published by the scripts
  | matchFound (matchID : MatchID) (payload : MatchFound)
  | peerReconnected (matchID : MatchID)
  | peerDisconnected (matchID : MatchID) (reconnectBy : UnixMilli)
  | signal (envelope : Envelope)
  | matchEnded (matchID : MatchID) (reason : EndReason)
  | matchExtended (matchID : MatchID) (extendedAt : UnixMilli)
  | connectionCreated (matchID : MatchID) (connectionID : String)
  -- written by the socket handler to its own client
  | connectionReady (user : UserID)
  | matchRecovered (matchID : MatchID) (payload : MatchFound) (state : Option MatchStatus)
      (connectionID : Option String)
  | queueJoined (preferences : Preferences) (joinedAt : UnixMilli)
  | queueLeft
  | extendPending (matchID : MatchID)
  | connectPending (matchID : MatchID)
  | error (matchID : MatchID) (code : String)
deriving DecidableEq, Repr

/-- The match an event is about: the envelope's `matchId`, empty for none. -/
def Event.matchID : Event → MatchID
  | .matchFound m _ => m
  | .peerReconnected m => m
  | .peerDisconnected m _ => m
  | .signal env => env.matchID
  | .matchEnded m _ => m
  | .matchExtended m _ => m
  | .connectionCreated m _ => m
  | .connectionReady _ => ""
  | .matchRecovered m _ _ _ => m
  | .queueJoined _ _ => ""
  | .queueLeft => ""
  | .extendPending m => m
  | .connectPending m => m
  | .error m _ => m

end OneMinute.Discovery
