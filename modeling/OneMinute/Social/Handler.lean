/-
  OneMinute.Social.Handler

  The block, unblock and remove handlers, after authentication.  Each answers
  an HTTP status.
-/

import OneMinute.Calls

namespace OneMinute.Social

open Discovery

/-- The body of `POST /v1/blocks`. -/
structure BlockBody where
  targetUserID : UserID
  matchID : MatchID := ""
  connectionID : String := ""
deriving DecidableEq, Repr

/-- `authorized` after the match check. -/
def inMatchWith (u : UserID) (body : BlockBody) : Proc Bool := do
  if body.matchID = "" then return false
  else
    match ← currentMatch u with
    | some (some m) =>
      return decide (m.id = body.matchID) && decide (peer m u = body.targetUserID)
    | _ => return false

/-- `authorized` after the connection check. -/
def connectedTo (u : UserID) (body : BlockBody) : Proc Bool := do
  if body.connectionID = "" then return false
  else
    match ← ask (.connectionPeer u body.connectionID) with
    | some (some target) => return decide (target = body.targetUserID)
    | _ => return false

/-- After authorization: `Block`, then `EndForUser` when a match is named. -/
def carryOut (u : UserID) (body : BlockBody) : Proc Nat := do
  match ← Process.ask (I := api) (fun d => .block u body.targetUserID d.now)
    (fun _ r => .done r) with
  | none => return 500
  | some () =>
    if body.matchID = "" then return 204
    else
      let _ ← script fun _ => .endForUser u body.matchID .blocked
      return 204

def block (u : UserID) (body : BlockBody) : Proc Nat := do
  if body.targetUserID = "" ∨ body.targetUserID = u then return 400
  else
    let inMatch ← inMatchWith u body
    let authorized ← if inMatch then pure true else connectedTo u body
    if authorized = false then return 403
    else carryOut u body

def unblock (u target : UserID) : Proc Nat := do
  match ← ask (.unblock u target) with
  | none => return 500
  | some () => return 204

def remove (u : UserID) (connectionID : String) : Proc Nat := do
  match ← Process.ask (I := api) (fun d => .remove u connectionID d.now) (fun _ r => .done r) with
  | none => return 500
  | some false => return 404
  | some true => return 204

end OneMinute.Social
