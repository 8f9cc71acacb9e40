/-
  OneMinute.Web.Leaving

  What a session of the lab holds and what it says, until it stops.

  With `close` it lets go of the capture, the socket, the timers and its
  connection (`Released`), and it has said `match.leave` last (`Speech`).  A
  connection that a second `connection.ready` replaced stays behind with its timer
  and its handlers, and what comes over it is shown also then.
-/

import OneMinute.Web.LabMoves

namespace OneMinute.Web

section
variable {s s' : LabSession} {arrived : List (Option Envelope)}

/-! ## Releasing -/

/-- What a session holds, and that it lets go of it with `close`. -/
structure Released (s : LabSession) : Prop where
  socket : s.stopped = true → s.socket = none ∨ s.socket = some .closed
  capture : s.stopped = true → s.capture ≠ .live
  heartbeat : s.stopped = true → s.heartbeat = false
  channel : s.stopped = true → s.replaced = [] → s.channel ≠ some true
  pending : s.stopped = true → s.pendingICE = []
  /-- The connection is closed then, and not before. -/
  closed : ∀ p, s.peer = some p → p.closed = s.stopped
  /-- Each connection has a timer, and `close` clears the last one. -/
  stats : s.stats = s.replaced.length + if s.stopped then 0 else s.peer.toList.length
  replaced : s.peer = none → s.replaced = []
  cleared : s.stopped = true → s.replaced = [] → s.view.Cleared
  bounded : s.view.Bounded

theorem Released.halted (h : Released s) (hs : s.stopped = false) {view : LabView}
    (hview : view.Cleared) (sent : List Envelope) : Released (s.halted view sent) where
  socket := by
    intro _
    show s.socket.map (fun _ => ReadyState.closed) = none ∨
      s.socket.map (fun _ => ReadyState.closed) = some .closed
    cases s.socket with
    | none => exact Or.inl rfl
    | some state => exact Or.inr rfl
  capture := by
    intro _
    show LabSession.stopCapture s.capture ≠ .live
    cases s.capture <;> decide
  heartbeat _ := rfl
  channel := by
    intro _ _
    show s.channel.map _ ≠ some true
    cases s.channel <;> simp
  pending _ := rfl
  closed := by
    intro p hp
    obtain ⟨q, -, rfl⟩ := Option.map_eq_some_iff.mp hp
    rfl
  stats := by
    show s.stats - 1 = s.replaced.length + 0
    have hstats := h.stats
    rw [hs, if_neg Bool.false_ne_true] at hstats
    cases hp : s.peer with
    | none =>
        rw [hp, h.replaced hp] at hstats
        rw [hstats, h.replaced hp]
        rfl
    | some p =>
        rw [hp] at hstats
        change s.stats = s.replaced.length + 1 at hstats
        omega
  replaced := fun hp => h.replaced (Option.map_eq_none_iff.mp hp)
  cleared _ _ := hview
  bounded := by
    rw [LabView.Bounded, show (s.halted view sent).view = view from rfl, hview.1]
    simp

theorem Released.reception (h : Released s) (hs : s.stopped = false) {data : Option Envelope}
    {t : LabSession} (ht : Reception s data t) : Released t := by
  have hnot : ∀ {P : Prop}, s.stopped = true → P := by
    intro P hstop
    rw [hs] at hstop
    cases hstop
  cases ht with
  | stop view sent hview hsent => exact h.halted hs hview sent
  | other view hview hnone =>
      have hbounded : view.Bounded := by
        rw [LabView.Bounded, hview]
        exact h.bounded
      exact { h with
        cleared := hnot
        bounded := hbounded }
  | ready matchID view hview =>
      have hbounded : view.Bounded := by
        rw [LabView.Bounded, hview]
        exact h.bounded
      refine { h with
        channel := hnot
        closed := ?_
        stats := ?_
        replaced := fun hp => by cases hp
        cleared := hnot
        bounded := hbounded }
      · intro p hp
        obtain rfl := Option.some.inj hp
        exact hs.symm
      · have hstats := h.stats
        rw [hs, if_neg Bool.false_ne_true] at hstats
        show s.stats + 1 = (s.replaced ++ s.peer.toList).length + if s.stopped then 0 else 1
        rw [hs, if_neg Bool.false_ne_true, List.length_append, hstats]
  | offering matchID view hview hpeer =>
      have hbounded : view.Bounded := by
        rw [LabView.Bounded, hview]
        exact h.bounded
      exact { h with
        channel := hnot
        cleared := hnot
        bounded := hbounded }
  | described matchID d hpeer => exact { h with }
  | adding matchID c hremote => exact { h with }
  | pending matchID c hremote hlength =>
      exact { h with pending := hnot }

/-- Another connection in the place of an open one. -/
theorem Released.peer {p q : RTCPeerConnection} (h : Released s) (hpeer : s.peer = some p)
    (hclosed : q.closed = p.closed) : Released { s with peer := some q } := by
  refine { h with
    closed := ?_
    stats := ?_
    replaced := fun hp => by cases hp }
  · intro r hr
    obtain rfl := Option.some.inj hr
    exact hclosed.trans (h.closed p hpeer)
  · have hstats := h.stats
    rw [hpeer] at hstats
    exact hstats

theorem Released.proceed {p : RTCPeerConnection} (h : Released s) (hpeer : s.peer = some p)
    (d : Settled) (w : Waiting) : Released (s.proceed p d w) := by
  have hafter : ∀ {t : LabSession} (type : SdpType) (l : List Candidate), Released t →
      Released (t.afterRemote type l) := by
    intro t type l ht
    cases l with
    | nil => exact { ht with }
    | cons c rest => exact { ht with }
  cases w with
  | createOffer => exact { h with }
  | createAnswer => exact { h with }
  | setLocalDescription desc =>
      obtain ⟨sent, heq, -⟩ := LabSession.send_eq { s with
        peer := some { p with localDescription := some desc }
        made := s.made ++ [desc] } (.description desc)
      rw [LabSession.proceed, heq]
      exact { h.peer (q := { p with localDescription := some desc }) hpeer rfl with }
  | setRemoteDescription desc =>
      refine hafter desc.type s.pendingICE ?_
      exact { h.peer (q := { p with remoteDescription := some desc }) hpeer rfl with
        pending := fun _ => rfl }
  | addPending type c rest =>
      exact hafter type rest (h.peer (q := { p with candidates := p.candidates ++ [c] }) hpeer rfl)
  | addIceCandidate c =>
      exact h.peer (q := { p with candidates := p.candidates ++ [c] }) hpeer rfl

theorem Released.move (h : Released s) (hm : LabMove s arrived s') : Released s' := by
  cases hm with
  | shown view channel hview hor =>
      refine { h with channel := ?_, cleared := ?_, bounded := hview h.bounded }
      · intro hstop hnil
        rcases hor with hs | hne | hopen | ⟨-, rfl⟩
        · rw [hs] at hstop
          cases hstop
        · exact absurd hnil hne
        · exact absurd hopen (h.channel hstop hnil)
        · exact h.channel hstop hnil
      · intro hstop hnil
        rcases hor with hs | hne | hopen | ⟨rfl | rfl, -⟩
        · rw [hs] at hstop
          cases hstop
        · exact absurd hnil hne
        · exact absurd hopen (h.channel hstop hnil)
        · exact h.cleared hstop hnil
        · exact ⟨(h.cleared hstop hnil).1, rfl⟩
  | late capture hs hcapture => exact { h with capture := fun _ => hcapture.1 }
  | connected view hview hs hcapture =>
      have hnot : ∀ {P : Prop}, s.stopped = true → P := by
        intro P hstop
        rw [hs] at hstop
        cases hstop
      have hbounded : view.Bounded := by
        rw [LabView.Bounded, hview]
        exact h.bounded
      exact { h with
        socket := hnot
        capture := hnot
        heartbeat := hnot
        cleared := hnot
        bounded := hbounded }
  | opened sent hsocket hsent =>
      refine { h with socket := ?_ }
      intro hstop
      rcases h.socket hstop with hnone | hclosed
      · rw [hnone] at hsocket
        cases hsocket
      · rw [hclosed] at hsocket
        cases hsocket
  | received data hsocket => exact { h with }
  | closing hsocket =>
      refine { h with socket := ?_ }
      intro hstop
      rcases h.socket hstop with hnone | hclosed
      · rw [hnone] at hsocket
        cases hsocket
      · rw [hclosed] at hsocket
        cases hsocket
  | gone hs hsocket => exact { h with socket := fun _ => Or.inr rfl }
  | gathered c sent hsent => exact { h with }
  | beat sent hsent => exact { h with }
  | skipped data rest hs hchain => exact { h with }
  | heard data rest hs hwaiting hchain ht =>
      exact Released.reception (s := { s with chain := rest, heard := s.heard ++ [data] })
        { h with } hs ht
  | settled w hw ht =>
      have h' : Released { s with waiting := none } := { h with }
      cases ht with
      | dropped hor => exact h'
      | stop view sent hs hview hsent => exact h'.halted hs hview sent
      | proceed p d hpeer hopen => exact h'.proceed hpeer d w
  | stop capture socket view sent hs hcapture hsocket hview hsent =>
      have hnot : ∀ {P : Prop}, s.stopped = true → P := by
        intro P hstop
        rw [hs] at hstop
        cases hstop
      have h' : Released { s with capture, socket } := { h with socket := hnot, capture := hnot }
      exact h'.halted hs hview sent

/-! ## What a session says -/

/-- What a session says between `room.join` and `match.leave`. -/
def Signal.isBusiness : Signal → Bool
  | .heartbeat | .description _ | .ice _ => true
  | .join _ | .leave | .ready | .found _ | .ended | .error => false

/-- It joins first and leaves last. -/
structure Speech (s : LabSession) : Prop where
  fresh : s.capture = .acquiring → s.socket = none
  silent : s.socket = none ∨ s.socket = some .connecting → s.sent = []
  spoken : s.stopped = false → s.socket = some .open → s.sent ≠ []
  phrase : s.sent = [] ∨ ∃ middle farewell,
    s.sent = ⟨s.room, .join s.room⟩ :: (middle ++ farewell) ∧
    (∀ e ∈ middle, e.matchID = s.room ∧ e.signal.isBusiness = true) ∧
    (farewell = [] ∨ s.stopped = true ∧ farewell = [⟨s.room, .leave⟩])

/-- A session that has not stopped has not said goodbye. -/
theorem Speech.middle (h : Speech s) (hs : s.stopped = false) (hsocket : s.socket = some .open) :
    ∃ middle, s.sent = ⟨s.room, .join s.room⟩ :: middle ∧
      ∀ e ∈ middle, e.matchID = s.room ∧ e.signal.isBusiness = true := by
  rcases h.phrase with hnil | ⟨middle, farewell, heq, hmiddle, hfarewell⟩
  · exact absurd hnil (h.spoken hs hsocket)
  · rcases hfarewell with rfl | ⟨hstop, -⟩
    · exact ⟨middle, by rw [heq, List.append_nil], hmiddle⟩
    · rw [hs] at hstop
      cases hstop

theorem Speech.send (h : Speech s) {signal : Signal} {sent : List Envelope}
    (hbusiness : signal.isBusiness = true) (hsent : Sends s signal sent) :
    Speech { s with sent } := by
  rcases hsent with ⟨-, rfl⟩ | ⟨hs, hsocket, rfl⟩
  · exact h
  · obtain ⟨middle, heq, hmiddle⟩ := h.middle hs hsocket
    have hne : s.sent ++ [Envelope.mk s.room signal] ≠ [] := by simp
    refine ⟨h.fresh, ?_, fun _ _ => hne, Or.inr ?_⟩
    · intro hor
      rw [show s.socket = some .open from hsocket] at hor
      simp at hor
    · refine ⟨middle ++ [⟨s.room, signal⟩], [], ?_, ?_, Or.inl rfl⟩
      · show s.sent ++ [_] = _
        rw [heq, List.append_nil]
        rfl
      · intro e he
        rcases List.mem_append.mp he with he | he
        · exact hmiddle e he
        · rw [List.mem_singleton.mp he]
          exact ⟨rfl, hbusiness⟩

theorem Speech.halted (h : Speech s) (hs : s.stopped = false) (view : LabView)
    {sent : List Envelope} (hsent : Sends s .leave sent) : Speech (s.halted view sent) := by
  refine ⟨?_, ?_, fun hstop => (by cases hstop), ?_⟩
  · intro hcapture
    refine Option.map_eq_none_iff.mpr (h.fresh ?_)
    change LabSession.stopCapture s.capture = .acquiring at hcapture
    cases hc : s.capture with
    | acquiring => rfl
    | live => rw [hc] at hcapture; cases hcapture
    | stopped => rw [hc] at hcapture; cases hcapture
    | refused => rw [hc] at hcapture; cases hcapture
  · intro hor
    have hnone : s.socket = none := by
      rcases hor with hnone | hconnecting
      · exact Option.map_eq_none_iff.mp hnone
      · obtain ⟨_, _, hstate⟩ := Option.map_eq_some_iff.mp hconnecting
        cases hstate
    rcases hsent with ⟨-, rfl⟩ | ⟨-, hopen, -⟩
    · exact h.silent (Or.inl hnone)
    · rw [hnone] at hopen
      cases hopen
  · show sent = [] ∨ _
    rcases hsent with ⟨-, rfl⟩ | ⟨-, hsocket, rfl⟩
    · rcases h.phrase with hnil | ⟨middle, farewell, heq, hmiddle, hfarewell⟩
      · exact Or.inl hnil
      · refine Or.inr ⟨middle, farewell, heq, hmiddle, hfarewell.imp_right ?_⟩
        exact fun hleft => ⟨rfl, hleft.2⟩
    · obtain ⟨middle, heq, hmiddle⟩ := h.middle hs hsocket
      refine Or.inr ⟨middle, [⟨s.room, .leave⟩], ?_, hmiddle, Or.inr ⟨rfl, rfl⟩⟩
      show s.sent ++ [_] = _
      rw [heq]
      rfl

theorem Speech.reception (h : Speech s) (hs : s.stopped = false) {data : Option Envelope}
    {t : LabSession} (ht : Reception s data t) : Speech t := by
  cases ht with
  | stop view sent hview hsent => exact h.halted hs view hsent
  | other view hview hnone => exact { h with }
  | ready matchID view hview => exact { h with }
  | offering matchID view hview hpeer => exact { h with }
  | described matchID d hpeer => exact { h with }
  | adding matchID c hremote => exact { h with }
  | pending matchID c hremote hlength => exact { h with }

theorem Speech.proceed (h : Speech s) (p : RTCPeerConnection) (d : Settled) (w : Waiting) :
    Speech (s.proceed p d w) := by
  have hafter : ∀ {t : LabSession} (type : SdpType) (l : List Candidate), Speech t →
      Speech (t.afterRemote type l) := by
    intro t type l ht
    cases l with
    | nil => exact { ht with }
    | cons c rest => exact { ht with }
  cases w with
  | createOffer => exact { h with }
  | createAnswer => exact { h with }
  | setLocalDescription desc =>
      obtain ⟨sent, heq, hsent⟩ := LabSession.send_eq { s with
        peer := some { p with localDescription := some desc }
        made := s.made ++ [desc] } (.description desc)
      have h' : Speech { s with
        peer := some { p with localDescription := some desc }
        made := s.made ++ [desc] } := { h with }
      rw [LabSession.proceed, heq]
      exact h'.send rfl hsent
  | setRemoteDescription desc => exact hafter desc.type s.pendingICE { h with }
  | addPending type c rest => exact hafter type rest { h with }
  | addIceCandidate c => exact { h with }

theorem Speech.move (h : Speech s) (hr : Released s) (hm : LabMove s arrived s') : Speech s' := by
  cases hm with
  | shown view channel hview hor => exact { h with }
  | late capture hs hcapture => exact { h with fresh := fun hc => absurd hc hcapture.2 }
  | connected view hview hs hcapture =>
      have hnil : s.sent = [] := h.silent (Or.inl (h.fresh hcapture))
      refine ⟨fun hc => (by cases hc), fun _ => hnil, fun _ hopen => (by cases hopen), Or.inl hnil⟩
  | opened sent hsocket hsent =>
      have hnil : s.sent = [] := h.silent (Or.inr hsocket)
      have hfresh : s.capture ≠ .acquiring := by
        intro hc
        rw [h.fresh hc] at hsocket
        cases hsocket
      have hs : s.stopped = false := by
        by_contra hstop
        rcases hr.socket (by simpa using hstop) with hnone | hclosed
        · rw [hnone] at hsocket
          cases hsocket
        · rw [hclosed] at hsocket
          cases hsocket
      have hjoin : sent = [⟨s.room, .join s.room⟩] := by
        rcases hsent with ⟨hnot, -⟩ | ⟨-, -, heq⟩
        · exact absurd ⟨hs, rfl⟩ hnot
        · rw [heq, hnil]
          rfl
      subst hjoin
      refine ⟨fun hc => absurd hc hfresh, fun hor => (by simp at hor),
        fun _ _ => List.cons_ne_nil _ _, Or.inr ⟨[], [], rfl, ?_, Or.inl rfl⟩⟩
      exact fun e he => absurd he List.not_mem_nil
  | received data hsocket => exact { h with }
  | closing hsocket =>
      have hfresh : s.capture ≠ .acquiring := by
        intro hc
        rw [h.fresh hc] at hsocket
        cases hsocket
      exact ⟨fun hc => absurd hc hfresh, fun hor => (by simp at hor),
        fun _ hopen => (by cases hopen), h.phrase⟩
  | gone hs hsocket =>
      exact ⟨fun hc => absurd (h.fresh hc) hsocket, fun hor => (by simp at hor),
        fun _ hopen => (by cases hopen), h.phrase⟩
  | gathered c sent hsent =>
      have h' : Speech { s with sent } := h.send rfl hsent
      exact { h' with }
  | beat sent hsent => exact h.send rfl hsent
  | skipped data rest hs hchain => exact { h with }
  | heard data rest hs hwaiting hchain ht =>
      exact Speech.reception (s := { s with chain := rest, heard := s.heard ++ [data] })
        { h with } hs ht
  | settled w hw ht =>
      have h' : Speech { s with waiting := none } := { h with }
      cases ht with
      | dropped hor => exact h'
      | stop view sent hs hview hsent => exact h'.halted hs view hsent
      | proceed p d hpeer hopen => exact h'.proceed p d w
  | stop capture socket view sent hs hcapture hsocket hview hsent =>
      refine Speech.halted (s := { s with capture, socket }) ?_ hs view hsent
      rcases hsocket with rfl | ⟨rfl, hne⟩
      · exact { h with fresh := fun hc => h.fresh (hcapture hc) }
      · exact ⟨fun hc => absurd (h.fresh (hcapture hc)) hne, fun hor => (by simp at hor),
          fun _ hopen => (by cases hopen), h.phrase⟩

/-! ## Every run -/

theorem released_init (room : String) : Released (labSession room).init where
  socket hs := by cases hs
  capture hs := by cases hs
  heartbeat hs := by cases hs
  channel hs := by cases hs
  pending hs := by cases hs
  closed p hp := by cases hp
  stats := rfl
  replaced _ := rfl
  cleared hs := by cases hs
  bounded := ⟨Nat.zero_le _, fun chat hchat => absurd hchat List.not_mem_nil⟩

theorem speech_init (room : String) : Speech (labSession room).init :=
  ⟨fun _ => rfl, fun _ => rfl, fun _ hopen => (by cases hopen), Or.inl rfl⟩

theorem released_run {room : String} {inputs : List LabInput}
    (hrun : (labSession room).run inputs = some s) : Released s :=
  Machine.runFrom_invariant (P := Released)
    (fun _ _ _ h hstep => h.move (LabSession.step_move hstep))
    hrun (released_init room)

theorem speech_run {room : String} {inputs : List LabInput}
    (hrun : (labSession room).run inputs = some s) : Speech s := by
  refine (Machine.runFrom_invariant (P := fun u => Released u ∧ Speech u) ?_ hrun
    ⟨released_init room, speech_init room⟩).2
  rintro u input v ⟨hr, h⟩ hstep
  have hm := LabSession.step_move hstep
  exact ⟨hr.move hm, h.move hr hm⟩

/-- After a stop nothing is said, heard or negotiated, and nothing is shown unless a
    connection was replaced. -/
theorem LabMove.stopped (hm : LabMove s arrived s') (hr : Released s) (hs : s.stopped = true) :
    s'.stopped = true ∧ s'.sent = s.sent ∧ s'.heard = s.heard ∧ s'.peer = s.peer ∧
      s'.replaced = s.replaced ∧ (s.replaced = [] → s'.view = s.view) := by
  have hnot : ∀ {P : Prop}, s.stopped = false → P := by
    intro P hopen
    rw [hs] at hopen
    cases hopen
  have hsilent : ∀ {signal : Signal} {sent : List Envelope}, Sends s signal sent →
      sent = s.sent := by
    rintro signal sent (⟨-, rfl⟩ | ⟨hopen, -, -⟩)
    · rfl
    · exact hnot hopen
  cases hm with
  | shown view channel hview hor =>
      refine ⟨hs, rfl, rfl, rfl, rfl, fun hnil => ?_⟩
      rcases hor with hopen | hne | hchannel | ⟨rfl | rfl, -⟩
      · exact hnot hopen
      · exact absurd hnil hne
      · exact absurd hchannel (hr.channel hs hnil)
      · rfl
      · rw [← (hr.cleared hs hnil).2]
  | late capture hs' hcapture => exact ⟨hs, rfl, rfl, rfl, rfl, fun _ => rfl⟩
  | connected view hview hopen hcapture => exact hnot hopen
  | opened sent hsocket hsent =>
      rcases hr.socket hs with hnone | hclosed
      · rw [hnone] at hsocket
        cases hsocket
      · rw [hclosed] at hsocket
        cases hsocket
  | received data hsocket => exact ⟨hs, rfl, rfl, rfl, rfl, fun _ => rfl⟩
  | closing hsocket => exact ⟨hs, rfl, rfl, rfl, rfl, fun _ => rfl⟩
  | gone hs' hsocket => exact ⟨hs, rfl, rfl, rfl, rfl, fun _ => rfl⟩
  | gathered c sent hsent => exact ⟨hs, hsilent hsent, rfl, rfl, rfl, fun _ => rfl⟩
  | beat sent hsent => exact ⟨hs, hsilent hsent, rfl, rfl, rfl, fun _ => rfl⟩
  | skipped data rest hs' hchain => exact ⟨hs, rfl, rfl, rfl, rfl, fun _ => rfl⟩
  | heard data rest hopen hwaiting hchain ht => exact hnot hopen
  | settled w hw ht =>
      cases ht with
      | dropped hor => exact ⟨hs, rfl, rfl, rfl, rfl, fun _ => rfl⟩
      | stop view sent hopen hview hsent => exact hnot hopen
      | proceed p d hpeer hopen => exact hnot ((hr.closed p hpeer).symm.trans hopen)
  | stop capture socket view sent hopen hcapture hsocket hview hsent => exact hnot hopen

/-- In every run, whatever the server sends and the browser answers: what a
    session has said is `room.join`, then heartbeats, descriptions and candidates,
    then at most one `match.leave`, which stops it; the chat keeps 50 messages of
    2000 units.  Once it has stopped, it stays so, says and hears nothing more, and
    holds no running capture, socket, timer of its own, pending candidate or open
    connection of its own, also when its capture comes late.  A connection that a
    further `connection.ready` replaced stays behind, with its timer and with its
    handlers; if there is none, the session shows nothing more and has no open
    channel. -/
theorem stopped_for_good {room : String} {inputs : List LabInput}
    (hrun : (labSession room).run inputs = some s) :
    (s.sent = [] ∨ ∃ middle farewell,
      s.sent = ⟨s.room, .join s.room⟩ :: (middle ++ farewell) ∧
      (∀ e ∈ middle, e.matchID = s.room ∧ e.signal.isBusiness = true) ∧
      (farewell = [] ∨ s.stopped = true ∧ farewell = [⟨s.room, .leave⟩])) ∧
    s.view.messages.length ≤ 50 ∧
    (∀ chat ∈ s.view.messages, utf16Length chat.text ≤ 2000) ∧
    (s.stopped = true → ∀ more t, (labSession room).runFrom s more = some t →
      t.stopped = true ∧ t.sent = s.sent ∧ t.heard = s.heard ∧
      (t.socket = none ∨ t.socket = some .closed) ∧ t.capture ≠ .live ∧ t.heartbeat = false ∧
      t.pendingICE = [] ∧ (∀ p, t.peer = some p → p.closed = true) ∧
      t.stats = t.replaced.length ∧ t.replaced = s.replaced ∧
      (s.replaced = [] → t.view = s.view ∧ t.channel ≠ some true)) := by
  have hbounded := (released_run hrun).bounded
  refine ⟨(speech_run hrun).phrase, hbounded.1, hbounded.2, fun hs more t hmore => ?_⟩
  have hr := released_run ((Machine.runFrom_append_iff hrun).mpr hmore)
  have hstay : t.stopped = true ∧ t.sent = s.sent ∧ t.heard = s.heard ∧ t.peer = s.peer ∧
      t.replaced = s.replaced ∧ (s.replaced = [] → t.view = s.view) := by
    refine (Machine.runFrom_invariant (P := fun u => Released u ∧ u.stopped = true ∧
      u.sent = s.sent ∧ u.heard = s.heard ∧ u.peer = s.peer ∧ u.replaced = s.replaced ∧
      (s.replaced = [] → u.view = s.view)) ?_ hmore
      ⟨released_run hrun, hs, rfl, rfl, rfl, rfl, fun _ => rfl⟩).2
    rintro u input v ⟨hu, hstop, hsent, hheard, hpeer, hreplaced, hview⟩ hstep
    have hm := LabSession.step_move hstep
    obtain ⟨hstop', hsent', hheard', hpeer', hreplaced', hview'⟩ := hm.stopped hu hstop
    exact ⟨hu.move hm, hstop', hsent'.trans hsent, hheard'.trans hheard, hpeer'.trans hpeer,
      hreplaced'.trans hreplaced,
      fun hnil => (hview' (hreplaced.trans hnil)).trans (hview hnil)⟩
  obtain ⟨hstop, hsent, hheard, -, hreplaced, hview⟩ := hstay
  have hstats := hr.stats
  rw [hstop, if_pos rfl, Nat.add_zero] at hstats
  exact ⟨hstop, hsent, hheard, hr.socket hstop, hr.capture hstop, hr.heartbeat hstop,
    hr.pending hstop, fun p hp => (hr.closed p hp).trans hstop, hstats, hreplaced,
    fun hnil => ⟨hview hnil, hr.channel hstop (hreplaced.trans hnil)⟩⟩

/-- A session that leaves with a frame not handled. -/
def shortVisit : List LabInput :=
  [.media true {}, .opened, .received (some ⟨"room", .ready⟩), .turn {}, .gathered "c",
    .heartbeat, .received (some ⟨"room", .found true⟩), .close]

theorem stopped_for_good_visit : ∃ s, (labSession "room").run shortVisit = some s ∧
    s.stopped = true ∧ s.sent.map Envelope.signal = [.join "room", .ice "c", .heartbeat, .leave] ∧
    s.replaced = [] ∧ ∀ more t, (labSession "room").runFrom s more = some t →
      t.sent = s.sent ∧ t.stats = 0 ∧ t.view = s.view := by
  have hobs : ((labSession "room").run shortVisit).map (fun s => (s.stopped,
      s.sent.map Envelope.signal, s.replaced)) =
        some (true, [.join "room", .ice "c", .heartbeat, .leave], []) := by
    decide +kernel
  obtain ⟨s, hs, hobs⟩ := Option.map_eq_some_iff.mp hobs
  obtain ⟨hstop, hsent, hreplaced⟩ : s.stopped = true ∧
      s.sent.map Envelope.signal = [.join "room", .ice "c", .heartbeat, .leave] ∧
      s.replaced = [] := by simpa using hobs
  refine ⟨s, hs, hstop, hsent, hreplaced, fun more t hmore => ?_⟩
  obtain ⟨-, hsame, -, -, -, -, -, -, hstats, hkept, hview⟩ :=
    (stopped_for_good hs).2.2.2 hstop more t hmore
  rw [hkept, hreplaced] at hstats
  exact ⟨hsame, hstats, (hview hreplaced).1⟩

/-- Over a connection that was replaced a channel comes after the stop, and its message
    is shown. -/
example : ((labSession "room").run
    [.media true {}, .opened, .received (some ⟨"room", .ready⟩), .turn {},
      .received (some ⟨"room", .ready⟩), .turn {}, .close, .channelFound, .channelOpened true,
      .chatReceived (some "Hi")]).map (fun s => (s.stopped, s.channel, s.view.messages)) =
    some (true, some true, [⟨false, "Hi"⟩]) := by
  decide +kernel

end

end OneMinute.Web
