/-
  OneMinute.Web.CallOverlay

  The overlay of a private call in a browser tab.

  Events of the call are handled one after the other (`chain`, with what the
  handler awaits in `waiting`), but `setup`, which a handler or a click of Accept
  calls, the camera changes and the requests to the server go on beside them
  (`setup`, `changes`), and whatever is awaited may settle after the call has
  ended.

  A camera is on until its capture is stopped; stopping its track in the stream need
  not be enough, since `processCamera` may have drawn it on a canvas.  `strays` are
  the captures that no reference of the overlay leads to any more, `heard` the events
  handled, and `posted` the actions sent.

  `callCamera` is one awaited step, at whose end its capture is there.  In the source
  the camera is on before that, while `processCamera` awaits `play()`: this stretch,
  in which the call may end with the camera still on, is not in the model.
-/

import OneMinute.Lib.Json
import OneMinute.Lib.Machine

namespace OneMinute.Web

/-- An event of the call, `call.<type>`, with its payload. -/
inductive CallSignal where
  | accept
  | ended
  | decline
  | offer (payload : Json)
  | answer (payload : Json)
  | ice (payload : Json)
  | media (payload : Json)

inductive CallPhase where
  | ringing | connecting | active | ended
deriving DecidableEq, Repr

/-- What is shown, beside the elements and their layout. -/
structure CallView where
  phase : CallPhase := .ringing
  status : String
  videoOn : Bool
  muted : Bool := false
  remoteVideoOn : Bool
  facing : String := "user"

/-! ## Devices -/

inductive DeviceKind where
  | microphone | camera
deriving DecidableEq, Repr

/-- What `getUserMedia` or `callCamera` has opened. -/
structure Device where
  kind : DeviceKind
  /-- A button of the call has asked for it, not `setup`. -/
  byButton : Bool := false
  live : Bool := true
deriving DecidableEq, Repr

def Device.stop (d : Device) : Device := { d with live := false }

/-- The connection that `setup` creates. -/
structure CallPeer where
  localDescription : Option Json := none
  remoteDescription : Option Json := none
  candidates : List Json := []

/-! ## The overlay -/

/-- What `setup` awaits. -/
inductive SetupStage where
  | microphone
  | camera
  /-- `attachCallMedia` of the caller. -/
  | attach
  /-- It has failed, and says so to the server. -/
  | refused
deriving DecidableEq, Repr

/-- What the handler of an event awaits. -/
inductive Handling where
  /-- `setup`, before it answers this offer, or makes one. -/
  | setup (offer : Option Json)
  | createOffer
  | createAnswer
  | setLocalDescription (offer : Bool) (d : Json)
  /-- The request that sends a description. -/
  | send
  | setRemoteDescription (offer : Bool) (d : Json)
  /-- `attachCallMedia` of the callee. -/
  | attach
  /-- A candidate of `pending.splice(0)`, after a description of this kind. -/
  | addPending (offer : Bool) (c : Json) (rest : List Json)
  | addIceCandidate (c : Json)

/-- What goes on beside the handlers; devices are named by their place. -/
inductive Change where
  /-- The request `accept`. -/
  | accepting
  | beating
  /-- The request `media`, with what is shown when it fails. -/
  | telling (complaint : String)
  /-- `toggleVideo`: the sender gives its track back; `muted` as it was. -/
  | dropping (muted : Bool)
  | requesting (muted : Bool)
  | replacing (i : Nat) (muted : Bool)
  /-- `switchCamera`. -/
  | switching (facing : String)
  | handing (i : Nat) (facing : String)

/-- The capture in the hands of a change. -/
def Change.capture : Change → Option Nat
  | .replacing i _ | .handing i _ => some i
  | _ => none

structure CallOverlay where
  outgoing : Bool
  /-- `call.video` -/
  video : Bool
  view : CallView
  mounted : Bool := true
  dead : Bool := false
  started : Bool := false
  /-- `callPhase` is "connecting". -/
  connecting : Bool := false
  /-- All that were opened. -/
  devices : List Device := []
  /-- The devices whose tracks the stream has. -/
  stream : Option (List Nat) := none
  camera : Option Nat := none
  peer : Option CallPeer := none
  sender : Bool := false
  pending : List Json := []
  chain : List CallSignal := []
  waiting : Option Handling := none
  /-- `setup` under way, and whether a click has called it. -/
  setup : Option (SetupStage × Bool) := none
  changes : List Change := []
  strays : List Nat := []
  /-- Accept was clicked. -/
  clicked : Bool := false
  heard : List CallSignal := []
  posted : List (String × Json) := []

/-- How what is awaited turns out. -/
structure CallSettled where
  failed : Bool := false
  /-- The description that was created. -/
  value : Json := .null

namespace CallOverlay

def init (outgoing video : Bool) : CallOverlay where
  outgoing
  video
  view :=
    { status := if outgoing then "Calling..." else "Incoming call"
      videoOn := video
      remoteVideoOn := video }

/-- `action`, up to its reply. -/
def post (s : CallOverlay) (type : String) (payload : Json) : CallOverlay :=
  { s with posted := s.posted ++ [(type, payload)] }

def say (s : CallOverlay) (status : String) : CallOverlay :=
  { s with view := { s.view with status } }

def isKind (s : CallOverlay) (kind : DeviceKind) (i : Nat) : Bool :=
  (s.devices[i]?.map Device.kind) == some kind

/-- The captures that the changes hold. -/
def held (s : CallOverlay) : List Nat := s.changes.filterMap Change.capture

def stopWhere (s : CallOverlay) (p : Nat → Device → Bool) : CallOverlay :=
  { s with devices := s.devices.mapIdx fun i d => if p i d then d.stop else d }

def cleanup (s : CallOverlay) : CallOverlay :=
  { s.stopWhere fun i d => decide (s.camera = some i) ||
      (decide (d.kind = .microphone) && (s.stream.getD []).contains i) with
    dead := true
    camera := none
    peer := none
    strays := s.strays ++ s.held }

def finish (s : CallOverlay) (type : String) : CallOverlay := s.cleanup.post type (.object [])

/-- The call is over, and the overlay says so. -/
def endWith (s : CallOverlay) (status : String) : CallOverlay :=
  let s := s.cleanup
  { s with view := { s.view with phase := .ended, status } }

/-- A device has opened; `callCamera` and `getUserMedia` give it to their caller,
    who stops it at once when the call is over.  The camera counts from here on, not
    from the `getUserMedia` inside `callCamera`. -/
def opened (s : CallOverlay) (kind : DeviceKind) (byButton : Bool) : CallOverlay :=
  { s with devices := s.devices ++ [⟨kind, byButton, !s.dead⟩] }

def stopDevice (s : CallOverlay) (i : Nat) : CallOverlay := s.stopWhere fun j _ => decide (j = i)

/-! ## setup -/

/-- Where a handler goes on after `setup`. -/
def afterSetup (s : CallOverlay) (offer : Option Json) : CallOverlay :=
  match s.peer with
  | none => { s with waiting := none }
  | some _ =>
    match offer with
    | none => { s with waiting := some .createOffer }
    | some p => { s with waiting := some (.setRemoteDescription true p) }

def add (s : CallOverlay) (c : Change) : CallOverlay := { s with changes := s.changes ++ [c] }

/-- Where `accept` goes on. -/
def sendAccept (s : CallOverlay) : CallOverlay :=
  if s.dead then s else (s.post "accept" (.object [])).add .accepting

/-- `setup` returns. -/
def setupDone (s : CallOverlay) (clicked : Bool) : CallOverlay :=
  let s := { s with setup := none }
  if clicked then s.sendAccept
  else
    match s.waiting with
    | some (.setup offer) => s.afterSetup offer
    | _ => s

def refuse (s : CallOverlay) (clicked : Bool) : CallOverlay :=
  let s := s.say "Camera or microphone access failed. Check your permissions and try again."
  { s.post "end" (.object []) with setup := some (.refused, clicked) }

/-- The end of `setup`, whether or not the call is over. -/
def connect (s : CallOverlay) (clicked : Bool) : CallOverlay :=
  { s with
    connecting := true
    view := { s.view with phase := .connecting, status := "Connecting..." } }.setupDone clicked

/-- The connection is created; its constructor may throw. -/
def createPeer (s : CallOverlay) (clicked creates : Bool) : CallOverlay :=
  if creates = false then s.refuse clicked
  else if s.outgoing then { s with peer := some {}, setup := some (.attach, clicked) }
  else { s with peer := some {} }.connect clicked

/-- `camera.current = next`, whatever was there. -/
def takeCamera (s : CallOverlay) (i : Nat) : CallOverlay :=
  { s with
    camera := some i
    stream := s.stream.map (· ++ [i])
    strays := s.strays ++ s.camera.toList }

def settleSetup (s : CallOverlay) (stage : SetupStage) (clicked creates : Bool)
    (d : CallSettled) : CallOverlay :=
  match stage with
  | .microphone =>
    if d.failed then s.refuse clicked
    else
      let i := s.devices.length
      let s := s.opened .microphone false
      if s.dead then s.setupDone clicked
      else
        let s := { s with stream := some [i] }
        if s.video then { s with setup := some (.camera, clicked) }
        else s.createPeer clicked creates
  | .camera =>
    if d.failed then s.refuse clicked
    else
      let i := s.devices.length
      let s := s.opened .camera false
      if s.dead then s.setupDone clicked else (s.takeCamera i).createPeer clicked creates
  | .attach =>
    if d.failed then s.refuse clicked else { s with sender := true }.connect clicked
  | .refused => { s.cleanup with view := { s.view with phase := .ended } }.setupDone clicked

/-- `setup` is called by a handler; it runs once. -/
def callSetup (s : CallOverlay) (offer : Option Json) : CallOverlay :=
  if s.started then s.afterSetup offer
  else
    { s with
      started := true
      setup := some (.microphone, false)
      waiting := some (.setup offer) }

/-- `accept`. -/
def accept (s : CallOverlay) : CallOverlay :=
  let s := { s with clicked := true }
  if s.started then s.sendAccept
  else { s with started := true, setup := some (.microphone, true) }

/-! ## Events -/

/-- `payload.video` as a boolean, if the payload has members at all. -/
def videoOf : Json → Option Bool
  | .null => none
  | .object members => some (truthy (Json.lookup members "video"))
  | _ => some false
where
  truthy : Option Json → Bool
    | none | some .null | some (.bool false) | some (.int 0) => false
    | some (.string text) => text ≠ ""
    -- zero is spelled with zeros
    | some (.decimal literal) =>
      (literal.toList.takeWhile fun c => c ≠ 'e' ∧ c ≠ 'E').any fun c => '1' ≤ c ∧ c ≤ '9'
    | some _ => true

/-- A handler has failed. -/
def broken (s : CallOverlay) : CallOverlay :=
  (s.say "Could not connect this call. Please try again.").finish "end"

/-- The rest of the loop over the candidates that were pending, and what follows. -/
def afterPending (s : CallOverlay) (offer : Bool) : List Json → CallOverlay
  | c :: rest => { s with waiting := some (.addPending offer c rest) }
  | [] => { s with waiting := if offer then some .createAnswer else none }

/-- `pending.current.splice(0)` -/
def splice (s : CallOverlay) (offer : Bool) : CallOverlay :=
  { s with pending := [] }.afterPending offer s.pending

/-- The handler of an event begins. -/
def handle (s : CallOverlay) (e : CallSignal) : CallOverlay :=
  if s.dead then s
  else
    let s := { s with heard := s.heard ++ [e] }
    match e with
    | .accept =>
      if s.outgoing then s.callSetup none
      else if s.connecting then s
      else s.endWith "Answered on another tab or device."
    | .ended => s.endWith "Call ended"
    | .decline => s.endWith "Call declined"
    | .offer p => s.callSetup (some p)
    | .answer p =>
      match s.peer with
      | none => s
      | some _ => { s with waiting := some (.setRemoteDescription false p) }
    | .ice c =>
      if (s.peer.bind CallPeer.remoteDescription).isSome then
        { s with waiting := some (.addIceCandidate c) }
      else { s with pending := s.pending ++ [c] }
    | .media p =>
      match videoOf p with
      | none => s.broken
      | some on => { s with view := { s.view with remoteVideoOn := on } }

/-- What a handler awaited has succeeded, on the connection `p`. -/
def proceed (s : CallOverlay) (p : CallPeer) (d : CallSettled) : Handling → CallOverlay
  | .setup _ | .send => s
  | .createOffer => { s with waiting := some (.setLocalDescription true d.value) }
  | .createAnswer => { s with waiting := some (.setLocalDescription false d.value) }
  | .setLocalDescription offer desc =>
    { s with
      peer := some { p with localDescription := some desc }
      waiting := some .send }.post (if offer then "offer" else "answer") desc
  | .setRemoteDescription offer desc =>
    let s := { s with peer := some { p with remoteDescription := some desc } }
    if offer = false then s.splice false
    else if s.stream.isSome then { s with waiting := some .attach }
    else s
  | .attach => { s with sender := true }.splice true
  | .addPending offer c rest =>
    { s with peer := some { p with candidates := p.candidates ++ [c] } }.afterPending offer rest
  | .addIceCandidate c => { s with peer := some { p with candidates := p.candidates ++ [c] } }

/-- What a handler awaited has settled; a closed connection does nothing more. -/
def settle (s : CallOverlay) (w : Handling) (d : CallSettled) : CallOverlay :=
  let s := { s with waiting := none }
  match w with
  | .send => if d.failed then s.broken else s
  | w =>
    match s.peer with
    | none => s.broken
    | some p => if d.failed then s.broken else s.proceed p d w

/-- The next turn of the chain. -/
def turn (s : CallOverlay) (d : CallSettled) : Option CallOverlay :=
  match s.waiting, s.chain with
  | some (.setup _), _ => none
  | some w, _ => some (s.settle w d)
  | none, e :: rest => some ({ s with chain := rest }.handle e)
  | none, [] => none

/-! ## Camera changes and requests -/

def cameraComplaint : String := "Could not change the camera. Check device permissions."

/-- The tracks of a stream that are no video. -/
def withoutVideo (s : CallOverlay) : CallOverlay :=
  { s with stream := s.stream.map (·.filter fun i => !s.isKind .camera i) }

/-- `camera.current?.stop()`, and no camera. -/
def dropCamera (s : CallOverlay) : CallOverlay :=
  match s.camera with
  | none => s
  | some i => { s.stopDevice i with camera := none }

/-- `toggleVideo` has changed the camera and tells the peer. -/
def tell (s : CallOverlay) (on muted : Bool) : CallOverlay :=
  let s := s.post "media" (.object [("video", .bool on), ("audio", .bool !muted)])
  { s with view := { s.view with videoOn := on } }.add (.telling cameraComplaint)

def toggleVideo (s : CallOverlay) : CallOverlay :=
  if s.stream.isNone ∨ s.sender = false then s
  else s.add (if s.view.videoOn then .dropping s.view.muted else .requesting s.view.muted)

def switchCamera (s : CallOverlay) : CallOverlay :=
  if s.view.videoOn = false ∨ s.sender = false ∨ s.stream.isNone then s
  else s.add (.switching (if s.view.facing = "user" then "environment" else "user"))

/-- The button Mute. -/
def mute (s : CallOverlay) : CallOverlay :=
  let muted := s.view.muted
  let s := s.post "media" (.object [("video", .bool s.view.videoOn), ("audio", .bool muted)])
  { s with view := { s.view with muted := !muted } }.add
    (.telling "Could not update microphone status.")

/-- A change goes on with what it awaited. -/
def settleChange (s : CallOverlay) (c : Change) (d : CallSettled) : CallOverlay :=
  match c with
  | .accepting => if d.failed then s.endWith "This call has ended." else s
  | .beating => if d.failed then s.endWith "Call ended. Please call again." else s
  | .telling complaint => if d.failed then s.say complaint else s
  | .dropping muted =>
    if d.failed then s.say cameraComplaint
    else s.dropCamera.withoutVideo.tell false muted
  | .requesting muted =>
    if d.failed then s.say cameraComplaint
    else
      let i := s.devices.length
      let s := s.opened .camera true
      if s.dead then s else s.add (.replacing i muted)
  | .replacing i muted =>
    if d.failed then (s.stopDevice i).say cameraComplaint
    else (s.takeCamera i).tell true muted
  | .switching facing =>
    if d.failed then s.say "Could not switch cameras."
    else
      let i := s.devices.length
      let s := s.opened .camera true
      if s.dead then s else s.add (.handing i facing)
  | .handing i facing =>
    if d.failed then (s.stopDevice i).say "Could not switch cameras."
    else
      let s := s.dropCamera.withoutVideo.takeCamera i
      { s with view := { s.view with facing } }

end CallOverlay

/-! ## Runs -/

/-- What happens to an overlay. -/
inductive CallInput where
  | received (e : CallSignal)
  | transportClosed
  | turn (d : CallSettled)
  /-- `setup` goes on. -/
  | setup (creates : Bool) (d : CallSettled)
  /-- The change at this place goes on. -/
  | change (i : Nat) (d : CallSettled)
  | candidate (c : Json)
  | connectionState (state : String)
  | acceptClicked
  | endClicked
  | cancelled
  | toggleClicked
  | flipClicked
  | muteClicked
  | pageHidden
  | ringingTimeout
  | connectingTimeout (connected : Bool)
  | beat
  | unmount

namespace CallOverlay

/-- The buttons of a call that is neither ringing nor over. -/
def inCall (s : CallOverlay) : Bool :=
  s.mounted && decide (s.view.phase ≠ .ringing ∧ s.view.phase ≠ .ended)

def step (s : CallOverlay) : CallInput → Option CallOverlay
  | .received e => if s.mounted then some { s with chain := s.chain ++ [e] } else none
  | .transportClosed =>
    if s.mounted then
      some (s.endWith "Connection lost. Please call again when reconnected.")
    else none
  | .turn d => s.turn d
  | .setup creates d => s.setup.map fun stage => s.settleSetup stage.1 stage.2 creates d
  | .change i d =>
    s.changes[i]?.map fun c => { s with changes := s.changes.eraseIdx i }.settleChange c d
  | .candidate c =>
    if s.connecting ∧ s.peer.isSome then some (s.post "ice" c) else none
  | .connectionState state =>
    if s.connecting ∧ s.peer.isSome then
      some (if state = "connected" then
          { s with view := { s.view with phase := .active, status := "Connected" } }
        else if state = "failed" then (s.say "The connection was lost.").finish "end"
        else s)
    else none
  | .acceptClicked =>
    if s.mounted ∧ s.view.phase = .ringing ∧ s.outgoing = false then some s.accept else none
  | .endClicked =>
    if s.mounted then
      some (if s.view.phase = .ended then s
        else s.finish (if s.outgoing ∨ s.view.phase ≠ .ringing then "end" else "decline"))
    else none
  | .cancelled => if s.mounted then some (s.finish "end") else none
  | .toggleClicked => if s.inCall then some s.toggleVideo else none
  | .flipClicked => if s.inCall ∧ s.view.videoOn then some s.switchCamera else none
  | .muteClicked => if s.inCall then some s.mute else none
  | .pageHidden => if s.mounted then some (if s.dead then s else s.finish "end") else none
  | .ringingTimeout =>
    if s.mounted then
      some (if s.connecting = false ∧ s.dead = false then s.finish "end" else s)
    else none
  | .connectingTimeout connected =>
    if s.mounted then
      some (if ¬ (s.peer.isSome ∧ connected) ∧ s.connecting ∧ s.dead = false then
          (s.post "end" (.object [])).endWith "The call could not connect. Please try again."
        else s)
    else none
  | .beat =>
    if s.mounted then
      some (if s.connecting ∧ s.dead = false then
          (s.post "heartbeat" (.object [])).add .beating
        else s)
    else none
  | .unmount =>
    if s.mounted then
      let s := if s.dead then s else s.post "end" (.object [])
      some { s.cleanup with mounted := false }
    else none

end CallOverlay

/-- All runs of an overlay, whatever the server, the devices and the user do. -/
def callOverlay (outgoing video : Bool) : Machine CallOverlay CallInput :=
  ⟨.init outgoing video, CallOverlay.step⟩

end OneMinute.Web
