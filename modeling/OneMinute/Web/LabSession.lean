/-
  OneMinute.Web.LabSession

  The session of the networking lab in the browser, with its peer connection.

  Frames are handled one after the other: each `onmessage` appends to a chain of
  promises, and a handler that awaits the browser keeps the next one waiting
  (`waiting`).  Everything else (timers, candidates, the other events, `close`)
  comes in between.  An operation on a connection that is closed does not succeed.

  The session remembers what it heard, sent and made (the fields after `waiting`).
-/

import OneMinute.Lib.Machine

namespace OneMinute.Web

/-! ## Frames -/

inductive SdpType where
  | offer | answer
deriving DecidableEq, Repr

/-- A session description, without the candidates that the browser adds to it. -/
structure Description where
  type : SdpType
  sdp : String
deriving DecidableEq, Repr

/-- The JSON of an `RTCIceCandidateInit`. -/
abbrev Candidate := String

/-- The type and the payload of an envelope. -/
inductive Signal where
  | join (roomID : String)
  | heartbeat
  | leave
  | ready
  | found (offerer : Bool)
  /-- `webrtc.offer` or `webrtc.answer`. -/
  | description (d : Description)
  | ice (c : Candidate)
  | ended
  | error
deriving DecidableEq, Repr

structure Envelope where
  matchID : String
  signal : Signal
deriving DecidableEq, Repr

/-! ## The session -/

structure RTCPeerConnection where
  localDescription : Option Description := none
  remoteDescription : Option Description := none
  /-- What `addIceCandidate` has taken, in order. -/
  candidates : List Candidate := []
  closed : Bool := false
deriving DecidableEq, Repr

def RTCPeerConnection.close (p : RTCPeerConnection) : RTCPeerConnection := { p with closed := true }

/-- The capture of `acquireMedia`, in `this.capture` or stopped at once. -/
inductive Capture where
  | acquiring | live | stopped | refused
deriving DecidableEq, Repr

/-- The `readyState` of the socket. -/
inductive ReadyState where
  | connecting | open | closing | closed
deriving DecidableEq, Repr

structure Chat where
  /-- From this side. -/
  own : Bool
  text : String
deriving DecidableEq, Repr

structure LabView where
  phase : String := "idle"
  error : String := ""
  channelReady : Bool := false
  messages : List Chat := []
deriving DecidableEq, Repr

/-- What the handler of a frame awaits, with what it still has to do. -/
inductive Waiting where
  | createOffer
  | createAnswer
  | setLocalDescription (d : Description)
  | setRemoteDescription (d : Description)
  /-- A candidate of `pendingICE.splice(0)`, after the description of this type. -/
  | addPending (type : SdpType) (c : Candidate) (rest : List Candidate)
  | addIceCandidate (c : Candidate)
deriving DecidableEq, Repr

structure LabSession where
  room : String
  stopped : Bool := false
  capture : Capture := .acquiring
  socket : Option ReadyState := none
  peer : Option RTCPeerConnection := none
  /-- Whether the channel is open. -/
  channel : Option Bool := none
  pendingICE : List Candidate := []
  heartbeat : Bool := false
  /-- How many `inspect` timers run. -/
  stats : Nat := 0
  /-- With `this.messages` as its messages. -/
  view : LabView := { phase := "acquiring media" }
  /-- The frames whose handlers have not begun; `none` is no envelope. -/
  chain : List (Option Envelope) := []
  waiting : Option Waiting := none
  /-- The frames that were handled. -/
  heard : List (Option Envelope) := []
  sent : List Envelope := []
  /-- The candidates that `onicecandidate` has brought. -/
  gathered : List Candidate := []
  /-- The local descriptions that were set. -/
  made : List Description := []
  /-- The connections that `this.peer` held before. -/
  replaced : List RTCPeerConnection := []
deriving DecidableEq, Repr

/-- How what a handler awaits or calls in the browser turns out. -/
structure Settled where
  failed : Bool := false
  /-- The message of the error. -/
  text : String := ""
  /-- The description that was created. -/
  sdp : String := ""
deriving DecidableEq, Repr

/-- `length` of a string in JavaScript. -/
def utf16Length (text : String) : Nat :=
  text.toList.foldl (fun n c => n + if c.toNat < 65536 then 1 else 2) 0

/-- What `trim` removes. -/
def isTrimmed (c : Char) : Bool :=
  let n := c.toNat
  decide (9 ≤ n ∧ n ≤ 13) || decide (8192 ≤ n ∧ n ≤ 8202) ||
    [32, 160, 5760, 8232, 8233, 8239, 8287, 12288, 65279].contains n

namespace LabSession

def send (s : LabSession) (signal : Signal) : LabSession :=
  if s.stopped = false ∧ s.socket = some .open then
    { s with sent := s.sent ++ [⟨s.room, signal⟩] }
  else s

/-- `stop` of a capture that was acquired. -/
def stopCapture : Capture → Capture
  | .live => .stopped
  | capture => capture

def close (s : LabSession) : LabSession :=
  if s.stopped then s
  else
    let s := s.send .leave
    { s with
      stopped := true
      heartbeat := false
      stats := s.stats - 1
      socket := s.socket.map fun _ => .closed
      channel := s.channel.map fun _ => false
      peer := s.peer.map RTCPeerConnection.close
      capture := stopCapture s.capture
      pendingICE := []
      view := { phase := "ended" } }

def fail (s : LabSession) (error : String) : LabSession :=
  if s.stopped then s else { s.close with view := { phase := "error", error } }

/-- `acquireMedia` settles. -/
def acquired (s : LabSession) (connects : Bool) (d : Settled) : LabSession :=
  if d.failed then { s with capture := .refused }.fail d.text
  else if s.stopped then { s with capture := .stopped }
  else
    let s := { s with
      capture := .live
      view := { s.view with phase := "connecting signaling" } }
    -- the constructor of the socket may throw
    if connects then { s with socket := some .connecting, heartbeat := true } else s.fail d.text

/-! ## receive -/

/-- The rest of the loop over the candidates that were pending, and what follows. -/
def afterRemote (s : LabSession) (type : SdpType) : List Candidate → LabSession
  | c :: rest => { s with waiting := some (.addPending type c rest) }
  | [] => { s with waiting := if type = .offer then some .createAnswer else none }

/-- `receive`, up to what it awaits first. -/
def receive (s : LabSession) (e : Envelope) (d : Settled) : LabSession :=
  if e.matchID ≠ "" ∧ e.matchID ≠ s.room then s.fail "Unexpected room."
  else
    match e.signal with
    | .ready =>
      if d.failed then s.fail d.text
      else
        { s with
          replaced := s.replaced ++ s.peer.toList
          peer := some {}
          stats := s.stats + 1
          view := { s.view with phase := "waiting for peer" } }
    | .found offerer =>
      let s := { s with view := { s.view with phase := "negotiating" } }
      if offerer then
        match s.peer with
        | none => s.fail "Peer is not initialized."
        | some _ =>
          if d.failed then s.fail d.text
          else { s with channel := some false, waiting := some .createOffer }
      else s
    | .description desc =>
      match s.peer with
      | none => s.fail "Peer is not initialized."
      | some _ => { s with waiting := some (.setRemoteDescription desc) }
    | .ice c =>
      match s.peer with
      | none => s.fail "Peer is not initialized."
      | some p =>
        if p.remoteDescription.isSome then { s with waiting := some (.addIceCandidate c) }
        else if s.pendingICE.length < 128 then { s with pendingICE := s.pendingICE ++ [c] }
        else s.fail "Too many ICE candidates."
    | .ended =>
      { s.close with view :=
          { phase := "ended"
            error := "Your peer left or the room expired. Create a new room to reconnect." } }
    | .error =>
      s.fail "Room unavailable or signaling rejected. Create a new room and try again."
    | .join _ | .heartbeat | .leave => s

/-- The handler of a frame begins. -/
def handle (s : LabSession) (data : Option Envelope) (d : Settled) : LabSession :=
  if s.stopped then s
  else
    let s := { s with heard := s.heard ++ [data] }
    match data with
    | none => s.fail d.text
    | some e => s.receive e d

/-- What a handler awaited has succeeded, on the connection `p`. -/
def proceed (s : LabSession) (p : RTCPeerConnection) (d : Settled) : Waiting → LabSession
  | .createOffer => { s with waiting := some (.setLocalDescription ⟨.offer, d.sdp⟩) }
  | .createAnswer => { s with waiting := some (.setLocalDescription ⟨.answer, d.sdp⟩) }
  | .setLocalDescription desc =>
    { s with
      peer := some { p with localDescription := some desc }
      made := s.made ++ [desc] }.send (.description desc)
  | .setRemoteDescription desc =>
    { s with
      peer := some { p with remoteDescription := some desc }
      pendingICE := [] }.afterRemote desc.type s.pendingICE
  | .addPending type c rest =>
    { s with peer := some { p with candidates := p.candidates ++ [c] } }.afterRemote type rest
  | .addIceCandidate c => { s with peer := some { p with candidates := p.candidates ++ [c] } }

/-- What a handler awaited has settled. -/
def settle (s : LabSession) (w : Waiting) (d : Settled) : LabSession :=
  let s := { s with waiting := none }
  match s.peer with
  | none => s
  | some p => if d.failed ∨ p.closed = true then s.fail d.text else s.proceed p d w

/-- The next turn of the chain. -/
def turn (s : LabSession) (d : Settled) : Option LabSession :=
  match s.waiting, s.chain with
  | some w, _ => some (s.settle w d)
  | none, data :: rest => some ({ s with chain := rest }.handle data d)
  | none, [] => none

/-! ## Chat -/

def addMessage (s : LabSession) (chat : Chat) : LabSession :=
  let messages := s.view.messages ++ [chat]
  { s with view := { s.view with messages := messages.drop (messages.length - 50) } }

def chat (s : LabSession) (text : String) (bufferedAmount : Nat) : LabSession :=
  if text.toList.all isTrimmed ∨ 2000 < utf16Length text ∨ s.channel ≠ some true ∨
      65536 < bufferedAmount then s
  else s.addMessage ⟨true, text⟩

/-- A message of the peer, if it is text. -/
def chatReceived (s : LabSession) : Option String → LabSession
  | some text => if utf16Length text ≤ 2000 then s.addMessage ⟨false, text⟩ else s
  | none => s

/-- `onconnectionstatechange`. -/
def connectionState (s : LabSession) (state : String) : LabSession :=
  if s.stopped then s
  else
    let s := { s with view := { s.view with phase := state } }
    if state = "failed" then
      s.fail "ICE connection failed. Check TURN address and relay ports."
    else if state = "disconnected" then
      { s with view := { s.view with error :=
          "Connection interrupted. Leave and create a new room if it does not recover." } }
    else if state = "connected" then { s with view := { s.view with error := "" } }
    else s

end LabSession

/-! ## Runs -/

/-- What happens to a session. -/
inductive LabInput where
  | media (connects : Bool) (d : Settled)
  | opened
  | received (data : Option Envelope)
  | turn (d : Settled)
  | gathered (c : Candidate)
  | connectionState (state : String)
  /-- `ondatachannel`, of the connection or of one that it replaced. -/
  | channelFound
  /-- `onopen` of `this.channel`, or of a channel that was bound before it. -/
  | channelOpened (current : Bool)
  | channelClosed (current : Bool)
  | chat (text : String) (bufferedAmount : Nat)
  | chatReceived (data : Option String)
  | heartbeat
  /-- The socket is going down; its events come later. -/
  | closing
  /-- `onerror`, or `onclose`. -/
  | lost (error : Bool)
  | close
deriving DecidableEq, Repr

namespace LabSession

/-- Whether channels come, open and speak: `close` closes the connection and takes the
    handlers of its channel away, but connections that were replaced keep theirs, and
    no handler of a channel asks whether the session has stopped. -/
def bindsChannels (s : LabSession) : Bool := !s.stopped || !s.replaced.isEmpty

def step (s : LabSession) : LabInput → Option LabSession
  | .media connects d => if s.capture = .acquiring then some (s.acquired connects d) else none
  | .opened =>
    if s.socket = some .connecting then
      some ({ s with socket := some .open }.send (.join s.room))
    else none
  | .received data =>
    if s.socket = some .open then some { s with chain := s.chain ++ [data] } else none
  | .turn d => s.turn d
  | .gathered c =>
    if s.peer.isSome then some ({ s with gathered := s.gathered ++ [c] }.send (.ice c)) else none
  | .connectionState state => if s.peer.isSome then some (s.connectionState state) else none
  | .channelFound =>
    if s.peer.isSome ∧ s.bindsChannels then some { s with channel := some false } else none
  | .channelOpened current =>
    if s.channel.isSome ∧ s.bindsChannels then
      some { s with
        channel := if current then some true else s.channel
        view := { s.view with channelReady := true } }
    else none
  | .channelClosed current =>
    -- one that was bound before it goes down with its connection, also at the stop
    if s.channel.isSome ∧ (s.bindsChannels ∨ current = false) then
      some { s with
        channel := if current then some false else s.channel
        view := { s.view with channelReady := false } }
    else none
  | .chat text bufferedAmount => some (s.chat text bufferedAmount)
  | .chatReceived data =>
    if s.channel.isSome ∧ s.bindsChannels then some (s.chatReceived data) else none
  | .heartbeat => if s.heartbeat then some (s.send .heartbeat) else none
  | .closing => if s.socket = some .open then some { s with socket := some .closing } else none
  | .lost error =>
    if s.socket.isSome ∧ s.socket ≠ some .closed then
      some ({ s with socket := some .closed }.fail
        (if error then "Signaling connection failed."
        else "Signaling disconnected. Create a new room to retry."))
    else none
  | .close => some s.close

end LabSession

/-- All runs of a session from `start`, whatever the server and the browser do. -/
def labSession (room : String) : Machine LabSession LabInput := ⟨{ room }, LabSession.step⟩

end OneMinute.Web
