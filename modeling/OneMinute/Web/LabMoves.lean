/-
  OneMinute.Web.LabMoves

  What an input can do to a session of the lab.

  `step_move` says it once, guards included, and each invariant of the modules
  after this one is a case analysis of `LabMove`.  A session that fails or is
  closed is `halted`; so the errors of the handlers are one case.
-/

import OneMinute.Web.LabSession

namespace OneMinute.Web

/-! ## What frames carry -/

def candidateOf : Option Envelope → Option Candidate
  | some ⟨_, .ice c⟩ => some c
  | _ => none

def descriptionOf : Option Envelope → Option Description
  | some ⟨_, .description d⟩ => some d
  | _ => none

/-- `match.found`, with whether to offer. -/
def foundOf : Option Envelope → Option Bool
  | some ⟨_, .found offerer⟩ => some offerer
  | _ => none

def isReady : Option Envelope → Bool
  | some ⟨_, .ready⟩ => true
  | _ => false

namespace LabSession

/-- All connections, the last one last. -/
def connections (s : LabSession) : List RTCPeerConnection := s.replaced ++ s.peer.toList

/-- All candidates added, in order. -/
def added (s : LabSession) : List Candidate := s.connections.flatMap RTCPeerConnection.candidates

def remoteDescription (s : LabSession) : Option Description :=
  s.peer.bind RTCPeerConnection.remoteDescription

def localDescription (s : LabSession) : Option Description :=
  s.peer.bind RTCPeerConnection.localDescription

/-- The candidates that the handler under way still adds. -/
def inHand (s : LabSession) : List Candidate :=
  match s.waiting with
  | some (.addPending _ c rest) => c :: rest
  | some (.addIceCandidate c) => [c]
  | _ => []

end LabSession

/-- The chat is bounded. -/
def LabView.Bounded (view : LabView) : Prop :=
  view.messages.length ≤ 50 ∧ ∀ chat ∈ view.messages, utf16Length chat.text ≤ 2000

/-- What `close` leaves of the chat. -/
def LabView.Cleared (view : LabView) : Prop := view.messages = [] ∧ view.channelReady = false

/-! ## What an input can do -/

/-- What is sent so far, after an attempt to send this. -/
def Sends (s : LabSession) (signal : Signal) (sent : List Envelope) : Prop :=
  ¬ (s.stopped = false ∧ s.socket = some .open) ∧ sent = s.sent ∨
    s.stopped = false ∧ s.socket = some .open ∧ sent = s.sent ++ [⟨s.room, signal⟩]

/-- The session after `close`. -/
def LabSession.halted (s : LabSession) (view : LabView) (sent : List Envelope) : LabSession :=
  { s with
    stopped := true
    heartbeat := false
    stats := s.stats - 1
    socket := s.socket.map fun _ => .closed
    channel := s.channel.map fun _ => false
    peer := s.peer.map RTCPeerConnection.close
    capture := LabSession.stopCapture s.capture
    pendingICE := []
    view, sent }

/-- What `receive` makes of a frame, in a session that has not stopped. -/
inductive Reception (s : LabSession) : Option Envelope → LabSession → Prop where
  | stop {data : Option Envelope} (view : LabView) (sent : List Envelope)
      (hview : view.Cleared) (hsent : Sends s .leave sent) :
      Reception s data (s.halted view sent)
  | other {data : Option Envelope} (view : LabView) (hview : view.messages = s.view.messages)
      (h : candidateOf data = none) : Reception s data { s with view }
  | ready (matchID : String) (view : LabView) (hview : view.messages = s.view.messages) :
      Reception s (some ⟨matchID, .ready⟩)
      { s with
        replaced := s.connections
        peer := some {}
        stats := s.stats + 1
        view }
  | offering (matchID : String) (view : LabView) (hview : view.messages = s.view.messages)
      (hpeer : s.peer.isSome = true) : Reception s (some ⟨matchID, .found true⟩)
        { s with view, channel := some false, waiting := some .createOffer }
  | described (matchID : String) (d : Description) (hpeer : s.peer.isSome = true) :
      Reception s (some ⟨matchID, .description d⟩)
        { s with waiting := some (.setRemoteDescription d) }
  | adding (matchID : String) (c : Candidate) (h : s.remoteDescription.isSome = true) :
      Reception s (some ⟨matchID, .ice c⟩) { s with waiting := some (.addIceCandidate c) }
  | pending (matchID : String) (c : Candidate) (h : s.remoteDescription = none)
      (hlength : s.pendingICE.length < 128) :
      Reception s (some ⟨matchID, .ice c⟩) { s with pendingICE := s.pendingICE ++ [c] }

/-- What becomes of a session whose handler goes on. -/
inductive Settlement (s : LabSession) (w : Waiting) : LabSession → Prop where
  | dropped (h : s.stopped = true ∨ s.peer = none) : Settlement s w s
  | stop (view : LabView) (sent : List Envelope) (h : s.stopped = false)
      (hview : view.Cleared) (hsent : Sends s .leave sent) :
      Settlement s w (s.halted view sent)
  | proceed (p : RTCPeerConnection) (d : Settled) (hpeer : s.peer = some p)
      (hopen : p.closed = false) : Settlement s w (s.proceed p d w)

/-- What an input makes of a session, with the frames that came in. -/
inductive LabMove (s : LabSession) : List (Option Envelope) → LabSession → Prop where
  | shown (view : LabView) (channel : Option Bool)
      (hview : s.view.Bounded → view.Bounded)
      (h : s.stopped = false ∨ s.replaced ≠ [] ∨ s.channel = some true ∨
        (view = s.view ∨ view = { s.view with channelReady := false }) ∧ channel = s.channel) :
      LabMove s [] { s with view, channel }
  | late (capture : Capture) (h : s.stopped = true)
      (hcapture : capture ≠ .live ∧ capture ≠ .acquiring) : LabMove s [] { s with capture }
  | connected (view : LabView) (hview : view.messages = s.view.messages)
      (h : s.stopped = false) (hcapture : s.capture = .acquiring) :
      LabMove s [] { s with
        capture := .live, view, socket := some .connecting, heartbeat := true }
  | opened (sent : List Envelope) (h : s.socket = some .connecting)
      (hsent : Sends { s with socket := some .open } (.join s.room) sent) :
      LabMove s [] { s with socket := some .open, sent }
  | received (data : Option Envelope) (h : s.socket = some .open) :
      LabMove s [data] { s with chain := s.chain ++ [data] }
  | closing (h : s.socket = some .open) : LabMove s [] { s with socket := some .closing }
  | gone (h : s.stopped = true) (hsocket : s.socket ≠ none) :
      LabMove s [] { s with socket := some .closed }
  | gathered (c : Candidate) (sent : List Envelope) (hsent : Sends s (.ice c) sent) :
      LabMove s [] { s with gathered := s.gathered ++ [c], sent }
  | beat (sent : List Envelope) (hsent : Sends s .heartbeat sent) : LabMove s [] { s with sent }
  | skipped (data : Option Envelope) (rest : List (Option Envelope)) (h : s.stopped = true)
      (hchain : s.chain = data :: rest) : LabMove s [] { s with chain := rest }
  | heard (data : Option Envelope) (rest : List (Option Envelope)) {t : LabSession}
      (h : s.stopped = false) (hwaiting : s.waiting = none) (hchain : s.chain = data :: rest)
      (ht : Reception { s with chain := rest, heard := s.heard ++ [data] } data t) : LabMove s [] t
  | settled (w : Waiting) {t : LabSession} (hw : s.waiting = some w)
      (ht : Settlement { s with waiting := none } w t) : LabMove s [] t
  | stop (capture : Capture) (socket : Option ReadyState) (view : LabView) (sent : List Envelope)
      (h : s.stopped = false) (hcapture : capture = .acquiring → s.capture = .acquiring)
      (hsocket : socket = s.socket ∨ socket = some .closed ∧ s.socket ≠ none)
      (hview : view.Cleared) (hsent : Sends { s with capture, socket } .leave sent) :
      LabMove s [] ({ s with capture, socket }.halted view sent)

/-- The frames that an input brings. -/
def LabInput.arrived : LabInput → List (Option Envelope)
  | .received data => [data]
  | _ => []

section
variable {s s' : LabSession} {arrived : List (Option Envelope)}

namespace LabSession

theorem send_eq (s : LabSession) (signal : Signal) :
    ∃ sent, s.send signal = { s with sent } ∧ Sends s signal sent := by
  unfold send
  split
  · next h => exact ⟨_, rfl, Or.inr ⟨h.1, h.2, rfl⟩⟩
  · next h => exact ⟨s.sent, rfl, Or.inl ⟨h, rfl⟩⟩

theorem close_eq (h : s.stopped = false) :
    ∃ sent, s.close = s.halted { phase := "ended" } sent ∧ Sends s .leave sent := by
  obtain ⟨sent, heq, hsent⟩ := s.send_eq .leave
  refine ⟨sent, ?_, hsent⟩
  rw [close, if_neg (by rw [h]; exact Bool.false_ne_true), heq]
  rfl

/-- `close` and another view. -/
theorem close_view (h : s.stopped = false) (view : LabView) :
    ∃ sent, { s.close with view } = s.halted view sent ∧ Sends s .leave sent := by
  obtain ⟨sent, heq, hsent⟩ := close_eq h
  exact ⟨sent, by rw [heq]; rfl, hsent⟩

theorem fail_eq (h : s.stopped = false) (error : String) :
    ∃ view sent, s.fail error = s.halted view sent ∧ view.Cleared ∧
      Sends s .leave sent := by
  obtain ⟨sent, heq, hsent⟩ := close_view h { phase := "error", error }
  refine ⟨{ phase := "error", error }, sent, ?_, ⟨rfl, rfl⟩, hsent⟩
  rw [fail, if_neg (by rw [h]; exact Bool.false_ne_true)]
  exact heq

theorem fail_of_stopped (h : s.stopped = true) (error : String) : s.fail error = s := if_pos h

theorem receive_reception (h : s.stopped = false) (e : Envelope) (d : Settled) :
    Reception s (some e) (s.receive e d) := by
  have hfail : ∀ (view : LabView) (text : String),
      Reception s (some e) ({ s with view }.fail text) := by
    intro view text
    obtain ⟨view', sent, heq, hview, hsent⟩ := fail_eq (s := { s with view }) h text
    rw [heq]
    exact .stop view' sent hview hsent
  obtain ⟨matchID, signal⟩ := e
  unfold receive
  split
  · exact hfail s.view _
  · cases signal with
    | join roomID => exact .other s.view rfl rfl
    | heartbeat => exact .other s.view rfl rfl
    | leave => exact .other s.view rfl rfl
    | error => exact hfail s.view _
    | ended =>
        obtain ⟨sent, heq, hsent⟩ := close_view h
          { phase := "ended"
            error := "Your peer left or the room expired. Create a new room to reconnect." }
        show Reception s _ { s.close with view := _ }
        rw [heq]
        exact .stop _ sent ⟨rfl, rfl⟩ hsent
    | ready =>
        dsimp only
        split
        · exact hfail s.view _
        · exact .ready matchID _ rfl
    | found offerer =>
        dsimp only
        split
        · next hoffer =>
            subst hoffer
            split
            · exact hfail _ _
            · next p hp =>
                split
                · exact hfail _ _
                · exact .offering matchID _ rfl (by rw [show s.peer = some p from hp]; rfl)
        · exact .other _ rfl rfl
    | description desc =>
        dsimp only
        split
        · exact hfail s.view _
        · next p hp => exact .described matchID desc (by rw [hp]; rfl)
    | ice c =>
        dsimp only
        split
        · exact hfail s.view _
        · next p hp =>
            have hremote : s.remoteDescription = p.remoteDescription := by
              rw [remoteDescription, hp]
              rfl
            split
            · next hsome => exact .adding matchID c (by rw [hremote]; exact hsome)
            · next hnone =>
                split
                · next hlength =>
                    refine .pending matchID c ?_ hlength
                    rw [hremote]
                    exact Option.not_isSome_iff_eq_none.mp hnone
                · exact hfail s.view _

theorem settle_settlement (s : LabSession) (w : Waiting) (d : Settled) :
    Settlement { s with waiting := none } w (s.settle w d) := by
  unfold settle
  dsimp only
  split
  · next hp => exact .dropped (Or.inr hp)
  · next p hp =>
      split
      · rcases Bool.eq_false_or_eq_true s.stopped with hs | hs
        · rw [fail_of_stopped (s := { s with waiting := none }) hs]
          exact .dropped (Or.inl hs)
        · obtain ⟨view, sent, heq, hview, hsent⟩ :=
            fail_eq (s := { s with waiting := none }) hs d.text
          rw [heq]
          exact .stop view sent hs hview hsent
      · next hnot => exact .proceed p d hp (by simpa using (not_or.mp hnot).2)

/-- A session that has not stopped fails. -/
theorem fail_move (capture : Capture) (socket : Option ReadyState) (view : LabView)
    (h : s.stopped = false) (hcapture : capture = .acquiring → s.capture = .acquiring)
    (hsocket : socket = s.socket ∨ socket = some .closed ∧ s.socket ≠ none)
    (error : String) : LabMove s [] ({ s with capture, socket, view }.fail error) := by
  obtain ⟨view', sent, heq, hview, hsent⟩ := fail_eq (s := { s with capture, socket, view }) h error
  rw [heq]
  exact .stop capture socket view' sent h hcapture hsocket hview hsent

theorem bounded_addMessage {chat : Chat} (h : utf16Length chat.text ≤ 2000)
    (hs : s.view.Bounded) : (s.addMessage chat).view.Bounded := by
  obtain ⟨-, hall⟩ := hs
  constructor
  · show ((s.view.messages ++ [chat]).drop _).length ≤ 50
    rw [List.length_drop]
    omega
  · intro m hm
    rcases List.mem_append.mp (List.mem_of_mem_drop hm) with hm | hm
    · exact hall m hm
    · rw [List.mem_singleton.mp hm]
      exact h

/-- The case that nothing changes. -/
theorem move_refl (s : LabSession) : LabMove s [] s :=
  .shown s.view s.channel id (Or.inr (Or.inr (Or.inr ⟨Or.inl rfl, rfl⟩)))

/-- Channels are bound and heard. -/
theorem binds_move (h : s.bindsChannels = true) (view : LabView) (channel : Option Bool)
    (hview : s.view.Bounded → view.Bounded) : LabMove s [] { s with view, channel } := by
  refine .shown view channel hview ?_
  unfold bindsChannels at h
  rw [Bool.or_eq_true, Bool.not_eq_true', Bool.not_eq_true', List.isEmpty_eq_false_iff] at h
  exact h.imp_right Or.inl

theorem acquired_move (h : s.capture = .acquiring) (connects : Bool) (d : Settled) :
    LabMove s [] (s.acquired connects d) := by
  unfold acquired
  rcases Bool.eq_false_or_eq_true s.stopped with hs | hs
  · split
    · rw [fail_of_stopped (s := { s with capture := .refused }) hs]
      exact .late .refused hs (by decide)
    · exact .late .stopped hs (by decide)
  · split
    · exact fail_move .refused s.socket s.view hs (fun hc => by cases hc) (Or.inl rfl) d.text
    · rw [if_neg (Bool.eq_false_iff.mp hs)]
      dsimp only
      split
      · exact .connected _ rfl hs h
      · exact fail_move .live s.socket _ hs (fun hc => by cases hc) (Or.inl rfl) d.text

theorem connectionState_move (s : LabSession) (state : String) :
    LabMove s [] (s.connectionState state) := by
  unfold connectionState
  rcases Bool.eq_false_or_eq_true s.stopped with hs | hs
  · rw [if_pos hs]
    exact move_refl s
  · rw [if_neg (Bool.eq_false_iff.mp hs)]
    dsimp only
    split
    · exact fail_move s.capture s.socket _ hs id (Or.inl rfl) _
    · split
      · exact .shown _ s.channel id (Or.inl hs)
      · split
        · exact .shown _ s.channel id (Or.inl hs)
        · exact .shown _ s.channel id (Or.inl hs)

theorem turn_move {d : Settled} (h : s.turn d = some s') : LabMove s [] s' := by
  unfold turn at h
  split at h
  · next w hw =>
      obtain rfl := Option.some.inj h
      exact .settled w hw (settle_settlement s w d)
  · next data rest hw hchain =>
      obtain rfl := Option.some.inj h
      unfold handle
      rcases Bool.eq_false_or_eq_true s.stopped with hs | hs
      · rw [if_pos hs]
        exact .skipped data rest hs hchain
      · rw [if_neg (Bool.eq_false_iff.mp hs)]
        refine .heard data rest hs hw hchain ?_
        cases data with
        | none =>
            obtain ⟨view, sent, heq, hview, hsent⟩ := fail_eq
              (s := { s with chain := rest, heard := s.heard ++ [none] }) hs d.text
            dsimp only
            rw [heq]
            exact .stop view sent hview hsent
        | some e =>
            exact receive_reception (s := { s with chain := rest, heard := _ }) hs e d
  · cases h

theorem step_move {input : LabInput} (h : s.step input = some s') :
    LabMove s input.arrived s' := by
  cases input with
  | media connects d =>
      obtain ⟨hcapture, h⟩ := Option.ite_none_right_eq_some.mp h
      obtain rfl := Option.some.inj h
      exact acquired_move hcapture connects d
  | opened =>
      obtain ⟨hsocket, h⟩ := Option.ite_none_right_eq_some.mp h
      obtain rfl := Option.some.inj h
      obtain ⟨sent, heq, hsent⟩ := send_eq { s with socket := some .open } (.join s.room)
      rw [heq]
      exact .opened sent hsocket hsent
  | received data =>
      obtain ⟨hsocket, h⟩ := Option.ite_none_right_eq_some.mp h
      obtain rfl := Option.some.inj h
      exact .received data hsocket
  | turn d => exact turn_move h
  | gathered c =>
      obtain ⟨-, h⟩ := Option.ite_none_right_eq_some.mp h
      obtain rfl := Option.some.inj h
      obtain ⟨sent, heq, hsent⟩ := send_eq { s with gathered := s.gathered ++ [c] } (.ice c)
      rw [heq]
      exact .gathered c sent hsent
  | connectionState state =>
      obtain ⟨-, h⟩ := Option.ite_none_right_eq_some.mp h
      obtain rfl := Option.some.inj h
      exact connectionState_move s state
  | channelFound =>
      obtain ⟨hbinds, h⟩ := Option.ite_none_right_eq_some.mp h
      obtain rfl := Option.some.inj h
      exact binds_move hbinds.2 s.view _ id
  | channelOpened current =>
      obtain ⟨hbinds, h⟩ := Option.ite_none_right_eq_some.mp h
      obtain rfl := Option.some.inj h
      exact binds_move hbinds.2 _ _ id
  | channelClosed current =>
      obtain ⟨⟨-, hor⟩, h⟩ := Option.ite_none_right_eq_some.mp h
      obtain rfl := Option.some.inj h
      rcases hor with hbinds | rfl
      · exact binds_move hbinds _ _ id
      · exact .shown _ s.channel id (Or.inr (Or.inr (Or.inr ⟨Or.inr rfl, rfl⟩)))
  | chat text bufferedAmount =>
      obtain rfl := Option.some.inj h
      unfold LabSession.chat
      split
      · exact move_refl s
      · next hnot =>
          obtain ⟨-, hlong, hopen, -⟩ : _ ∧ ¬ 2000 < utf16Length text ∧ _ ∧ _ := by
            simpa only [not_or] using hnot
          exact .shown _ s.channel (bounded_addMessage (by dsimp only; omega))
            (Or.inr (Or.inr (Or.inl (not_not.mp hopen))))
  | chatReceived data =>
      obtain ⟨hbinds, h⟩ := Option.ite_none_right_eq_some.mp h
      obtain rfl := Option.some.inj h
      unfold LabSession.chatReceived
      split
      · split
        · next hlong => exact binds_move hbinds.2 _ s.channel (bounded_addMessage hlong)
        · exact move_refl s
      · exact move_refl s
  | heartbeat =>
      obtain ⟨-, h⟩ := Option.ite_none_right_eq_some.mp h
      obtain rfl := Option.some.inj h
      obtain ⟨sent, heq, hsent⟩ := send_eq s .heartbeat
      rw [heq]
      exact .beat sent hsent
  | closing =>
      obtain ⟨hsocket, h⟩ := Option.ite_none_right_eq_some.mp h
      obtain rfl := Option.some.inj h
      exact .closing hsocket
  | lost error =>
      obtain ⟨hlive, h⟩ := Option.ite_none_right_eq_some.mp h
      obtain rfl := Option.some.inj h
      rcases Bool.eq_false_or_eq_true s.stopped with hs | hs
      · rw [fail_of_stopped (s := { s with socket := some .closed }) hs]
        exact .gone hs (Option.isSome_iff_ne_none.mp hlive.1)
      · exact fail_move s.capture (some .closed) s.view hs id
          (Or.inr ⟨rfl, Option.isSome_iff_ne_none.mp hlive.1⟩) _
  | close =>
      obtain rfl := Option.some.inj h
      rcases Bool.eq_false_or_eq_true s.stopped with hs | hs
      · rw [close, if_pos hs]
        exact move_refl s
      · obtain ⟨sent, heq, hsent⟩ := close_eq hs
        rw [heq]
        exact .stop s.capture s.socket _ sent hs id (Or.inl rfl) ⟨rfl, rfl⟩ hsent

end LabSession

/-! ## Frames -/

theorem Sends.grows {signal : Signal} {sent : List Envelope} (h : Sends s signal sent) :
    s.sent <+: sent := by
  rcases h with ⟨-, rfl⟩ | ⟨-, -, rfl⟩
  · exact List.prefix_refl _
  · exact List.prefix_append _ _

theorem proceed_frames (p : RTCPeerConnection) (d : Settled) (w : Waiting) :
    (s.proceed p d w).heard = s.heard ∧ (s.proceed p d w).chain = s.chain ∧
      s.sent <+: (s.proceed p d w).sent := by
  have hafter : ∀ (t : LabSession) (type : SdpType) (l : List Candidate),
      (t.afterRemote type l).heard = t.heard ∧ (t.afterRemote type l).chain = t.chain ∧
        t.sent <+: (t.afterRemote type l).sent := by
    intro t type l
    cases l with
    | nil => exact ⟨rfl, rfl, List.prefix_refl _⟩
    | cons c rest => exact ⟨rfl, rfl, List.prefix_refl _⟩
  cases w with
  | createOffer => exact ⟨rfl, rfl, List.prefix_refl _⟩
  | createAnswer => exact ⟨rfl, rfl, List.prefix_refl _⟩
  | setLocalDescription desc =>
      obtain ⟨sent, heq, hsent⟩ := LabSession.send_eq { s with
        peer := some { p with localDescription := some desc }
        made := s.made ++ [desc] } (.description desc)
      rw [LabSession.proceed, heq]
      exact ⟨rfl, rfl, hsent.grows⟩
  | setRemoteDescription desc => exact hafter _ _ _
  | addPending type c rest => exact hafter _ _ _
  | addIceCandidate c => exact ⟨rfl, rfl, List.prefix_refl _⟩

/-- The frames heard and waiting come from those that came in, in their order. -/
theorem LabMove.frames (hm : LabMove s arrived s') :
    (s'.heard ++ s'.chain).Sublist (s.heard ++ s.chain ++ arrived) := by
  have hsame : (s.heard ++ s.chain).Sublist (s.heard ++ s.chain ++ []) :=
    List.sublist_append_left _ _
  cases hm with
  | shown view channel hview hor => exact hsame
  | late capture hs hcapture => exact hsame
  | connected view hview hs hcapture => exact hsame
  | opened sent hsocket hsent => exact hsame
  | received data hsocket => simp
  | closing hsocket => exact hsame
  | gone hs hsocket => exact hsame
  | gathered c sent hsent => exact hsame
  | beat sent hsent => exact hsame
  | skipped data rest hs hchain =>
      refine List.Sublist.trans ?_ hsame
      rw [hchain]
      exact (List.Sublist.refl _).append (List.sublist_cons_self data rest)
  | heard data rest hs hwaiting hchain ht =>
      have hmoved : s.heard ++ [data] ++ rest = s.heard ++ s.chain := by
        rw [hchain, List.append_assoc]
        rfl
      refine List.Sublist.trans ?_ hsame
      rw [← hmoved]
      cases ht <;> exact List.Sublist.refl _
  | settled w hw ht =>
      cases ht with
      | dropped hor => exact hsame
      | stop view sent hs hview hsent => exact hsame
      | proceed p d hpeer hopen =>
          obtain ⟨hheard, hchain, -⟩ := proceed_frames (s := { s with waiting := none }) p d w
          rw [hheard, hchain]
          exact hsame
  | stop capture socket view sent hs hcapture hsocket hview hsent => exact hsame

/-- What was sent stays sent. -/
theorem LabMove.sent (hm : LabMove s arrived s') : s.sent <+: s'.sent := by
  cases hm with
  | shown view channel hview hor => exact List.prefix_refl _
  | late capture hs hcapture => exact List.prefix_refl _
  | connected view hview hs hcapture => exact List.prefix_refl _
  | opened sent hsocket hsent => exact hsent.grows
  | received data hsocket => exact List.prefix_refl _
  | closing hsocket => exact List.prefix_refl _
  | gone hs hsocket => exact List.prefix_refl _
  | gathered c sent hsent => exact hsent.grows
  | beat sent hsent => exact hsent.grows
  | skipped data rest hs hchain => exact List.prefix_refl _
  | heard data rest hs hwaiting hchain ht =>
      cases ht with
      | stop view sent hview hsent => exact hsent.grows
      | other view hview hnone => exact List.prefix_refl _
      | ready matchID view hview => exact List.prefix_refl _
      | offering matchID view hview hpeer => exact List.prefix_refl _
      | described matchID d hpeer => exact List.prefix_refl _
      | adding matchID c hremote => exact List.prefix_refl _
      | pending matchID c hremote hlength => exact List.prefix_refl _
  | settled w hw ht =>
      cases ht with
      | dropped hor => exact List.prefix_refl _
      | stop view sent hs hview hsent => exact hsent.grows
      | proceed p d hpeer hopen =>
          exact (proceed_frames (s := { s with waiting := none }) p d w).2.2
  | stop capture socket view sent hs hcapture hsocket hview hsent => exact hsent.grows

end

end OneMinute.Web
