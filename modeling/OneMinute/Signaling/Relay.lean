/-
  OneMinute.Signaling.Relay

  The networking lab as a whole: the sessions of a room in their browsers, the
  connections of the server with their subscriptions, and the scripts on Redis.

  A frame of a session is read (`Link.read` counts them), published to the other
  connection, kept in its subscription, written to its socket and delivered.
  Each of these is a step, and anything may come in between; a subscription may
  lose messages, and a connection may end at any point.
-/

import OneMinute.Signaling.Lab
import OneMinute.Web.Negotiation

namespace OneMinute.Signaling

open Web (Envelope LabInput LabSession Signal labSession)

/-- How far `socket` has come. -/
inductive LabStage where
  /-- It waits for `room.join`. -/
  | accepted
  /-- It holds a slot, and has not sent `connection.ready`. -/
  | joined
  | serving
  /-- A heartbeat has renewed the presence, and the room is not checked yet. -/
  | beating
  /-- The loop has ended, and `leaveScript` comes next. -/
  | leaving
  | over
deriving DecidableEq, Repr

/-- What becomes of a call to Redis. -/
inductive Fate where
  | answered
  /-- It takes effect, and the reply is lost. -/
  | lost
  | failed
deriving DecidableEq, Repr

/-- A session with its connection to the server. -/
structure Link where
  session : LabSession
  /-- `connectionID`, which the server draws. -/
  conn : String
  stage : LabStage := .accepted
  read : Nat := 0
  /-- The messages of the subscription to `lab:conn:<conn>`. -/
  queue : List Envelope := []
  /-- What was written to the socket and is not delivered. -/
  down : List Envelope := []

structure Network where
  lab : LabWorld
  links : List Link

/-- The envelope of an event; a relayed one is the frame that was read. -/
def LabEvent.envelope (frame : Envelope) : LabEvent → Envelope
  | .found matchID offerer => ⟨matchID, .found offerer⟩
  | .ended matchID _ => ⟨matchID, .ended⟩
  | .relayed _ => frame

/-- What is published to a connection. -/
def inbox (conn : String) (frame : Envelope) (published : List (String × LabEvent)) :
    List Envelope :=
  published.filterMap fun e => if e.1 = conn then some (e.2.envelope frame) else none

namespace Link

/-- The subscription gets what is published. -/
def publish (frame : Envelope) (published : List (String × LabEvent)) (l : Link) : Link :=
  if l.stage = .over then l
  else { l with queue := l.queue ++ inbox l.conn frame published }

def write (l : Link) (e : Envelope) : Link := { l with down := l.down ++ [e] }

/-- The forwarder runs. -/
def forwards (l : Link) : Bool :=
  match l.stage with
  | .serving | .beating | .leaving => true
  | .accepted | .joined | .over => false

end Link

section
variable (room : String) (accepts : Envelope → Bool) (marshal : Envelope → String)

namespace Network

/-- A script, with the frame that it publishes, if it publishes one; `after` is
    what its reply does to link `i`. -/
def script (n : Network) (op : LabOp) (frame : Envelope) (i : Nat) (after : Nat → Link → Link) :
    Option Network :=
  if op.Permitted n.lab then
    let answer := op.exec room n.lab.store
    some ⟨n.lab.after room op,
      (n.links.map (Link.publish frame answer.published)).modify i (after answer.reply)⟩
  else none

/-- No frame: for the scripts that relay none. -/
def noFrame : Envelope := ⟨"", .error⟩

/-- The first frame is read. -/
def join (n : Network) (i : Nat) (l : Link) (fate : Fate) : Option Network :=
  l.session.sent[l.read]?.bind fun e =>
    let refuse (matchID : String) (l : Link) : Link :=
      { l.write ⟨matchID, .error⟩ with stage := .over, read := l.read + 1 }
    if accepts e = false ∨ e.signal ≠ .join room then
      some { n with links := n.links.modify i (refuse "") }
    else if fate = .failed then some { n with links := n.links.modify i (refuse room) }
    else
      n.script room (.join l.conn) noFrame i fun reply l =>
        if fate = .lost ∨ reply = 0 then refuse room l
        else { l with stage := .joined, read := l.read + 1 }

/-- The ICE configuration is sent, or not. -/
def configure (l : Link) (sent : Bool) : Link :=
  if sent then { l.write ⟨room, .ready⟩ with stage := .serving } else { l with stage := .leaving }

/-- The loop reads a frame. -/
def serve (n : Network) (i : Nat) (l : Link) (fate : Fate) : Option Network :=
  l.session.sent[l.read]?.bind fun e =>
    let leave (l : Link) : Link := { l with stage := .leaving, read := l.read + 1 }
    let reject (l : Link) : Link := leave (l.write ⟨room, .error⟩)
    if accepts e = false ∨ (e.matchID ≠ "" ∧ e.matchID ≠ room) then
      some { n with links := n.links.modify i reject }
    else
      match e.signal with
      | .heartbeat =>
        if fate = .failed then some { n with links := n.links.modify i leave }
        else
          n.script room (.heartbeat l.conn) noFrame i fun reply l =>
            if fate = .lost ∨ reply = 0 then leave l
            else { l with stage := .beating, read := l.read + 1 }
      | .leave => some { n with links := n.links.modify i leave }
      | .description _ | .ice _ =>
        if e.matchID ≠ room then some { n with links := n.links.modify i leave }
        else if fate = .failed then some { n with links := n.links.modify i reject }
        else
          n.script room (.signal l.conn (marshal e)) e i fun reply l =>
            if fate = .lost ∨ reply = 0 then reject l else { l with read := l.read + 1 }
      | .join _ | .ready | .found _ | .ended | .error =>
        some { n with links := n.links.modify i reject }

/-- The heartbeat checks that the room is there. -/
def check (n : Network) (fate : Fate) (l : Link) : Link :=
  if fate = .answered ∧ (n.lab.store.rooms.get room).isSome then { l with stage := .serving }
  else { l.write ⟨room, .ended⟩ with stage := .leaving }

/-- `leaveScript`, whose error is dropped. -/
def leave (n : Network) (i : Nat) (l : Link) (fate : Fate) : Option Network :=
  if fate = .failed then
    some { n with links := n.links.modify i fun l => { l with stage := .over } }
  else n.script room (.leave l.conn) noFrame i fun _ l => { l with stage := .over }

end Network

inductive LabAction where
  | create
  /-- Another session starts; the server will draw this id for it. -/
  | connect (conn : String)
  /-- What happens in a browser beside deliveries. -/
  | client (i : Nat) (input : LabInput)
  | deliver (i : Nat)
  | join (i : Nat) (fate : Fate)
  | configure (i : Nat) (sent : Bool)
  | serve (i : Nat) (fate : Fate)
  | check (i : Nat) (fate : Fate)
  | forward (i : Nat)
  /-- The subscription loses a message. -/
  | lose (i : Nat)
  /-- The loop ends by a timeout, the limiter, an error or a shutdown. -/
  | quit (i : Nat)
  | leave (i : Nat) (fate : Fate)
  | tick (d : Nat)
deriving DecidableEq, Repr

namespace Network

/-- A step of link `i` alone. -/
def atLink (n : Network) (i : Nat) (f : Link → Option Link) : Option Network :=
  n.links[i]?.bind fun l => (f l).map fun l' => { n with links := n.links.set i l' }

def step (n : Network) : LabAction → Option Network
  | .create => n.script room .create noFrame 0 fun _ => id
  | .connect conn =>
    if n.links.any fun l => decide (l.conn = conn) then none
    else some { n with links := n.links ++ [⟨{ room }, conn, .accepted, 0, [], []⟩] }
  | .client i input =>
    n.atLink i fun l =>
      if input.arrived = [] then (l.session.step input).map fun session => { l with session }
      else none
  | .deliver i =>
    n.atLink i fun l =>
      match l.down with
      | [] => none
      | e :: down =>
        (l.session.step (.received (some e))).map fun session => { l with session, down }
  | .join i fate =>
    n.links[i]?.bind fun l =>
      if l.stage = .accepted then n.join room accepts i l fate else none
  | .configure i sent =>
    n.atLink i fun l => if l.stage = .joined then some (configure room l sent) else none
  | .serve i fate =>
    n.links[i]?.bind fun l =>
      if l.stage = .serving then n.serve room accepts marshal i l fate else none
  | .check i fate =>
    n.atLink i fun l => if l.stage = .beating then some (n.check room fate l) else none
  | .forward i =>
    n.atLink i fun l =>
      match l.queue with
      | [] => none
      | e :: queue => if l.forwards then some { l.write e with queue } else none
  | .lose i =>
    n.atLink i fun l =>
      match l.queue with
      | [] => none
      | _ :: queue => some { l with queue }
  | .quit i =>
    n.atLink i fun l =>
      match l.stage with
      | .accepted => some { l with stage := .over }
      | .joined | .serving | .beating => some { l with stage := .leaving }
      | .leaving | .over => none
  | .leave i fate =>
    n.links[i]?.bind fun l => if l.stage = .leaving then n.leave room i l fate else none
  | .tick d => n.script room (.tick d) noFrame 0 fun _ => id

end Network

/-- All runs of the lab on one room, with any number of sessions. -/
def network : Machine Network LabAction :=
  ⟨⟨(labMachine room).init, []⟩, Network.step room accepts marshal⟩

end

end OneMinute.Signaling
