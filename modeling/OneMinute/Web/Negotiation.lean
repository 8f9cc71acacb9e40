/-
  OneMinute.Web.Negotiation

  What a session of the lab makes of the frames that it hears, whoever sends
  them and whatever the browser answers.

  The candidates heard are those that were added, the ones in hand and the ones
  pending, in this order (`Candidates.kept`): as long as a handler adds pending
  candidates, no other handler runs.  Each local description was asked for by a
  frame of its own (`Descriptions`).
-/

import OneMinute.Web.Leaving

namespace OneMinute.Web

section
variable {s s' : LabSession} {arrived : List (Option Envelope)}

/-! ## Candidates -/

/-- The candidates heard, in the order in which they are added. -/
structure Candidates (s : LabSession) : Prop where
  prefix_heard : s.added <+: s.heard.filterMap candidateOf
  kept : s.stopped = false → s.added ++ s.inHand ++ s.pendingICE = s.heard.filterMap candidateOf
  /-- What is pending waits for a remote description, and for no other handler. -/
  idle : s.stopped = false → s.pendingICE ≠ [] → s.remoteDescription = none ∧ s.inHand = []
  length_pending : s.pendingICE.length ≤ 128
  /-- A connection has a remote description before it gets a candidate, and it is
      one of those heard. -/
  described : ∀ p ∈ s.connections, p.candidates ≠ [] → p.remoteDescription ≠ none
  heard : ∀ p ∈ s.connections, ∀ d, p.remoteDescription = some d →
    d ∈ s.heard.filterMap descriptionOf
  adding : s.inHand ≠ [] → s.remoteDescription ≠ none
  setting : ∀ d, s.waiting = some (.setRemoteDescription d) → d ∈ s.heard.filterMap descriptionOf

/-- What holds of the frames heard, holds when another one is heard and the
    session stops. -/
theorem Candidates.halted (h : Candidates s) (view : LabView) (sent : List Envelope)
    (chain : List (Option Envelope)) (more : List (Option Envelope)) :
    Candidates ({ s with chain, heard := s.heard ++ more }.halted view sent) := by
  have hconn : ∀ q, q ∈ ({ s with chain, heard := s.heard ++ more }.halted view sent).connections →
      ∃ p ∈ s.connections, q.candidates = p.candidates ∧
        q.remoteDescription = p.remoteDescription := by
    intro q hq
    rcases List.mem_append.mp hq with hq | hq
    · exact ⟨q, List.mem_append_left _ hq, rfl, rfl⟩
    · obtain ⟨p, hp, rfl⟩ := Option.map_eq_some_iff.mp (Option.mem_toList.mp hq)
      exact ⟨p, List.mem_append_right _ (Option.mem_toList.mpr hp), rfl, rfl⟩
  have hmem : ∀ d, d ∈ s.heard.filterMap descriptionOf →
      d ∈ (s.heard ++ more).filterMap descriptionOf := by
    intro d hd
    rw [List.filterMap_append]
    exact List.mem_append_left _ hd
  have hadded : ({ s with chain, heard := s.heard ++ more }.halted view sent).added = s.added := by
    show (s.replaced ++ (s.peer.map RTCPeerConnection.close).toList).flatMap _ =
      (s.replaced ++ s.peer.toList).flatMap _
    rw [List.flatMap_append, List.flatMap_append]
    cases s.peer <;> rfl
  constructor
  · rw [hadded]
    refine h.prefix_heard.trans ?_
    show _ <+: (s.heard ++ more).filterMap candidateOf
    rw [List.filterMap_append]
    exact List.prefix_append _ _
  · intro hs
    cases hs
  · intro hs
    cases hs
  · exact Nat.zero_le _
  · intro q hq hne
    obtain ⟨p, hp, hcand, hremote⟩ := hconn q hq
    rw [hremote]
    exact h.described p hp (hcand ▸ hne)
  · intro q hq d hd
    obtain ⟨p, hp, -, hremote⟩ := hconn q hq
    exact hmem d (h.heard p hp d (hremote ▸ hd))
  · intro hne
    have hremote := h.adding hne
    show (s.peer.map RTCPeerConnection.close).bind _ ≠ none
    rw [LabSession.remoteDescription] at hremote
    cases hp : s.peer with
    | none =>
        rw [hp] at hremote
        exact absurd rfl hremote
    | some p =>
        rw [hp] at hremote
        exact hremote
  · exact fun d hd => hmem d (h.setting d hd)

theorem inHand_of_none (h : s.waiting = none) : s.inHand = [] := by rw [LabSession.inHand, h]

theorem connections_eq {p : RTCPeerConnection} (hpeer : s.peer = some p) :
    s.connections = s.replaced ++ [p] := by
  rw [LabSession.connections, hpeer]
  rfl

theorem added_eq {p : RTCPeerConnection} (hpeer : s.peer = some p) :
    s.added = s.replaced.flatMap RTCPeerConnection.candidates ++ p.candidates := by
  rw [LabSession.added, connections_eq hpeer, List.flatMap_append, List.flatMap_singleton]

theorem remoteDescription_eq {p : RTCPeerConnection} (hpeer : s.peer = some p) :
    s.remoteDescription = p.remoteDescription := by
  rw [LabSession.remoteDescription, hpeer]
  rfl

/-- A session that has stopped waits for nothing. -/
theorem Candidates.unwait (h : Candidates s) (hs : s.stopped = true) :
    Candidates { s with waiting := none } :=
  { h with
    kept := fun hopen => by rw [hs] at hopen; cases hopen
    idle := fun hopen => by rw [hs] at hopen; cases hopen
    adding := fun hne => absurd rfl hne
    setting := fun d hd => by cases hd }

/-- A handler goes on to await something else. -/
theorem Candidates.await (h : Candidates s) {w : Option Waiting} (hempty : s.inHand = [])
    (hnext : { s with waiting := w }.inHand = [])
    (hset : ∀ d, w = some (.setRemoteDescription d) → d ∈ s.heard.filterMap descriptionOf) :
    Candidates { s with waiting := w } := by
  refine { h with
    kept := ?_
    idle := fun hs hne => ⟨(h.idle hs hne).1, hnext⟩
    adding := fun hne => absurd hnext hne
    setting := hset }
  intro hs
  have hkept := h.kept hs
  rw [hempty] at hkept
  rw [hnext]
  exact hkept

/-- A frame without a candidate. -/
theorem Candidates.hear (h : Candidates s) (chain : List (Option Envelope))
    {e : Option Envelope} (hnone : candidateOf e = none) :
    Candidates { s with chain, heard := s.heard ++ [e] } := by
  have hsame : (s.heard ++ [e]).filterMap candidateOf = s.heard.filterMap candidateOf := by
    rw [List.filterMap_append, List.filterMap_cons_none hnone, List.filterMap_nil,
      List.append_nil]
  have hmem : ∀ d, d ∈ s.heard.filterMap descriptionOf →
      d ∈ (s.heard ++ [e]).filterMap descriptionOf := by
    intro d hd
    rw [List.filterMap_append]
    exact List.mem_append_left _ hd
  exact { h with
    prefix_heard := h.prefix_heard.trans (hsame ▸ List.prefix_refl _)
    kept := fun hs => (h.kept hs).trans hsame.symm
    heard := fun p hp d hd => hmem d (h.heard p hp d hd)
    setting := fun d hd => hmem d (h.setting d hd) }

/-- A candidate that is added at once, or that waits. -/
theorem Candidates.hear_ice (h : Candidates s) (hs : s.stopped = false) (hw : s.waiting = none)
    (chain : List (Option Envelope)) (matchID : String) (c : Candidate)
    {waiting : Option Waiting} {pendingICE : List Candidate}
    (hor : s.remoteDescription.isSome = true ∧ waiting = some (.addIceCandidate c) ∧
        pendingICE = s.pendingICE ∨
      s.remoteDescription = none ∧ waiting = none ∧ pendingICE = s.pendingICE ++ [c] ∧
        s.pendingICE.length < 128) :
    Candidates { s with
      chain, waiting, pendingICE, heard := s.heard ++ [some (Envelope.mk matchID (.ice c))] } := by
  have hheard : (s.heard ++ [some (Envelope.mk matchID (.ice c))]).filterMap candidateOf =
      s.heard.filterMap candidateOf ++ [c] := by
    rw [List.filterMap_append]
    rfl
  have hdescs : (s.heard ++ [some (Envelope.mk matchID (.ice c))]).filterMap descriptionOf =
      s.heard.filterMap descriptionOf := by
    rw [List.filterMap_append]
    exact List.append_nil _
  have hkept := h.kept hs
  rw [inHand_of_none hw, List.append_nil] at hkept
  have hprefix : s.added <+:
      (s.heard ++ [some (Envelope.mk matchID (.ice c))]).filterMap candidateOf := by
    rw [hheard]
    exact h.prefix_heard.trans (List.prefix_append _ _)
  have hmem : ∀ p ∈ s.connections, ∀ d, p.remoteDescription = some d →
      d ∈ (s.heard ++ [some (Envelope.mk matchID (.ice c))]).filterMap descriptionOf := by
    intro p hp d hd
    rw [hdescs]
    exact h.heard p hp d hd
  rcases hor with ⟨hremote, rfl, rfl⟩ | ⟨hremote, rfl, rfl, hlength⟩
  · -- nothing is pending beside a remote description
    have hempty : s.pendingICE = [] := by
      by_contra hne
      rw [(h.idle hs hne).1] at hremote
      cases hremote
    refine { h with
      prefix_heard := hprefix
      kept := ?_
      idle := fun _ hne => absurd hempty hne
      heard := hmem
      adding := fun _ hnone => ?_
      setting := fun d hd => by cases hd }
    · intro _
      show s.added ++ [c] ++ s.pendingICE = _
      rw [hheard, ← hkept, hempty, List.append_nil, List.append_nil]
    · rw [show s.remoteDescription = none from hnone] at hremote
      cases hremote
  · refine { h with
      prefix_heard := hprefix
      kept := ?_
      idle := fun _ _ => ⟨hremote, rfl⟩
      length_pending := ?_
      heard := hmem
      adding := fun hne => absurd rfl hne
      setting := fun d hd => by cases hd }
    · intro _
      show s.added ++ [] ++ (s.pendingICE ++ [c]) = _
      rw [hheard, ← hkept, List.append_nil, List.append_assoc]
    · show (s.pendingICE ++ [c]).length ≤ 128
      rw [List.length_append, List.length_singleton]
      omega

/-- A new connection. -/
theorem Candidates.renew (h : Candidates s) (hw : s.waiting = none) (stats : Nat)
    (view : LabView) :
    Candidates { s with replaced := s.connections, peer := some {}, stats, view } := by
  have hconn : ∀ q ∈ s.connections ++ [({} : RTCPeerConnection)],
      q ∈ s.connections ∨ q = {} := fun q hq => by simpa using hq
  have hadded : (s.connections ++ [({} : RTCPeerConnection)]).flatMap
      RTCPeerConnection.candidates = s.added := by
    rw [List.flatMap_append]
    exact List.append_nil _
  constructor
  · show (s.connections ++ [({} : RTCPeerConnection)]).flatMap _ <+: _
    rw [hadded]
    exact h.prefix_heard
  · intro hs
    rw [← h.kept hs]
    exact congrArg (fun l => l ++ s.inHand ++ s.pendingICE) hadded
  · exact fun _ _ => ⟨rfl, inHand_of_none hw⟩
  · exact h.length_pending
  · intro q hq hne
    rcases hconn q hq with hq | rfl
    · exact h.described q hq hne
    · exact absurd rfl hne
  · intro q hq d hd
    rcases hconn q hq with hq | rfl
    · exact h.heard q hq d hd
    · cases hd
  · exact fun hne => absurd (inHand_of_none hw) hne
  · exact h.setting

theorem Candidates.reception (h : Candidates s) (hs : s.stopped = false) (hw : s.waiting = none)
    {rest : List (Option Envelope)} {data : Option Envelope} {t : LabSession}
    (ht : Reception { s with chain := rest, heard := s.heard ++ [data] } data t) :
    Candidates t := by
  cases ht with
  | stop view sent hview hsent => exact h.halted view sent rest [data]
  | other view hview hnone => exact { h.hear rest hnone with }
  | ready matchID view hview => exact (h.hear rest rfl).renew hw _ view
  | offering matchID view hview hpeer =>
      have h' := h.hear rest (e := some ⟨matchID, .found true⟩) rfl
      have hawait := h'.await (w := some .createOffer) (inHand_of_none hw) rfl
        (fun d hd => by cases hd)
      exact { hawait with }
  | described matchID d hpeer =>
      have h' := h.hear rest (e := some ⟨matchID, .description d⟩) rfl
      refine h'.await (w := some (.setRemoteDescription d)) (inHand_of_none hw) rfl ?_
      intro d' hd'
      cases hd'
      show d ∈ (s.heard ++ [some (Envelope.mk matchID (.description d))]).filterMap descriptionOf
      rw [List.filterMap_append]
      exact List.mem_append_right _ List.mem_cons_self
  | adding matchID c hremote =>
      exact h.hear_ice hs hw rest matchID c (Or.inl ⟨hremote, rfl, rfl⟩)
  | pending matchID c hremote hlength =>
      have h' := h.hear_ice hs hw rest matchID c (Or.inr ⟨hremote, rfl, rfl, hlength⟩)
      rw [← hw] at h'
      exact h'

/-- The connection in use takes another state, with the candidates `l` besides. -/
theorem Candidates.of_peer {p q : RTCPeerConnection} {w : Option Waiting}
    {pendingICE l : List Candidate} (h : Candidates s) (hpeer : s.peer = some p)
    (hcandidates : q.candidates = p.candidates ++ l)
    (hremote : q.remoteDescription = p.remoteDescription ∨ ∃ d, q.remoteDescription = some d ∧
      d ∈ s.heard.filterMap descriptionOf)
    (hmore : l = [] ∨ p.remoteDescription ≠ none)
    (hkept : l ++ { s with waiting := w }.inHand ++ pendingICE = s.inHand ++ s.pendingICE)
    (hpending : pendingICE = [] ∨
      pendingICE = s.pendingICE ∧ s.inHand = [] ∧ { s with waiting := w }.inHand = [] ∧
        q.remoteDescription = p.remoteDescription)
    (hadding : { s with waiting := w }.inHand ≠ [] → q.remoteDescription ≠ none)
    (hset : ∀ d, w = some (.setRemoteDescription d) →
      d ∈ s.heard.filterMap descriptionOf) (hs : s.stopped = false) :
    Candidates { s with peer := some q, waiting := w, pendingICE } := by
  have hnone : p.remoteDescription ≠ none → q.remoteDescription ≠ none := by
    intro hp
    rcases hremote with hsame | ⟨d, hd, -⟩
    · rw [hsame]
      exact hp
    · rw [hd]
      exact Option.some_ne_none d
  have hadded : { s with peer := some q, waiting := w, pendingICE }.added = s.added ++ l := by
    rw [added_eq (p := q) rfl, added_eq hpeer, hcandidates, List.append_assoc]
  have hall : { s with peer := some q, waiting := w, pendingICE }.added ++
      { s with waiting := w }.inHand ++ pendingICE = s.heard.filterMap candidateOf := by
    rw [hadded, ← h.kept hs, List.append_assoc s.added s.inHand, ← hkept]
    simp only [List.append_assoc]
  have hconn : ∀ r ∈ { s with peer := some q, waiting := w, pendingICE }.connections,
      r ∈ s.replaced ∨ r = q := fun r hr => by
    rw [connections_eq (p := q) rfl] at hr
    simpa using hr
  have hold : ∀ r ∈ s.replaced, r ∈ s.connections := fun r hr => List.mem_append_left _ hr
  have hp : p ∈ s.connections := by
    rw [connections_eq hpeer]
    exact List.mem_append_right _ List.mem_cons_self
  constructor
  · exact ⟨_, (List.append_assoc _ _ _).symm.trans hall⟩
  · exact fun _ => hall
  · intro _ hne
    rcases hpending with hnil | ⟨hsame, hempty, hnext, hsameRemote⟩
    · exact absurd hnil hne
    · refine ⟨?_, hnext⟩
      have hidle := (h.idle hs (hsame ▸ hne)).1
      rw [remoteDescription_eq hpeer] at hidle
      exact hsameRemote.trans hidle
  · rcases hpending with rfl | ⟨rfl, -, -, -⟩
    · exact Nat.zero_le _
    · exact h.length_pending
  · intro r hr hne
    rcases hconn r hr with hr | rfl
    · exact h.described r (hold r hr) hne
    · rcases hmore with rfl | hmore
      · rw [List.append_nil] at hcandidates
        exact hnone (h.described p hp (hcandidates ▸ hne))
      · exact hnone hmore
  · intro r hr d hd
    rcases hconn r hr with hr | rfl
    · exact h.heard r (hold r hr) d hd
    · rcases hremote with hsame | ⟨d', hd', hmem⟩
      · exact h.heard p hp d (hsame ▸ hd)
      · rw [hd'] at hd
        obtain rfl := Option.some.inj hd
        exact hmem
  · exact hadding
  · exact hset

/-- `afterRemote` only says what is awaited. -/
theorem afterRemote_eq (t : LabSession) (type : SdpType) (l : List Candidate) :
    ∃ waiting, t.afterRemote type l = { t with waiting } ∧ { t with waiting }.inHand = l ∧
      ∀ d, waiting ≠ some (.setRemoteDescription d) := by
  cases l with
  | nil =>
      cases type with
      | offer => exact ⟨some .createAnswer, rfl, rfl, nofun⟩
      | answer => exact ⟨none, rfl, rfl, nofun⟩
  | cons c rest => exact ⟨some (.addPending type c rest), rfl, rfl, nofun⟩

theorem Candidates.proceed {p : RTCPeerConnection} {w : Waiting} (h : Candidates s)
    (hs : s.stopped = false) (hw : s.waiting = some w) (hpeer : s.peer = some p) (d : Settled) :
    Candidates ({ s with waiting := none }.proceed p d w) := by
  cases w with
  | createOffer =>
      exact h.await (w := some (.setLocalDescription ⟨.offer, d.sdp⟩))
        (by rw [LabSession.inHand, hw]) rfl (fun d hd => by cases hd)
  | createAnswer =>
      exact h.await (w := some (.setLocalDescription ⟨.answer, d.sdp⟩))
        (by rw [LabSession.inHand, hw]) rfl (fun d hd => by cases hd)
  | setLocalDescription desc =>
      have hnil : s.inHand = [] := by rw [LabSession.inHand, hw]
      have h' : Candidates { s with
          peer := some { p with localDescription := some desc }, waiting := none } := by
        refine Candidates.of_peer (s := s) h (l := []) hpeer (List.append_nil _).symm (Or.inl rfl)
          (Or.inl rfl) ?_ (Or.inr ⟨rfl, hnil, rfl, rfl⟩) (fun hne => absurd rfl hne)
          (fun d hd => by cases hd) hs
        rw [hnil]
        rfl
      obtain ⟨sent, heq, -⟩ := LabSession.send_eq { s with
        waiting := none
        peer := some { p with localDescription := some desc }
        made := s.made ++ [desc] } (.description desc)
      rw [LabSession.proceed, heq]
      exact { h' with }
  | setRemoteDescription desc =>
      have hnil : s.inHand = [] := by rw [LabSession.inHand, hw]
      obtain ⟨waiting, heq, hnext, hset⟩ := afterRemote_eq { s with
        waiting := none
        peer := some { p with remoteDescription := some desc }
        pendingICE := [] } desc.type s.pendingICE
      rw [LabSession.proceed, heq]
      refine Candidates.of_peer (s := s) h (l := []) hpeer (List.append_nil _).symm
        (Or.inr ⟨desc, rfl, h.setting desc hw⟩) (Or.inl rfl) ?_ (Or.inl rfl)
        (fun _ => Option.some_ne_none desc) (fun d hd => absurd hd (hset d)) hs
      rw [hnil, List.append_nil]
      exact hnext
  | addPending type c rest =>
      have hin : s.inHand = c :: rest := by rw [LabSession.inHand, hw]
      have hremote : p.remoteDescription ≠ none := by
        rw [← remoteDescription_eq hpeer]
        exact h.adding (by rw [hin]; exact List.cons_ne_nil c rest)
      have hpending : s.pendingICE = [] := by
        by_contra hne
        rw [(h.idle hs hne).2] at hin
        cases hin
      obtain ⟨waiting, heq, hnext, hset⟩ := afterRemote_eq { s with
        waiting := none
        peer := some { p with candidates := p.candidates ++ [c] } } type rest
      rw [LabSession.proceed, heq]
      refine Candidates.of_peer (s := s) h (l := [c]) hpeer rfl (Or.inl rfl) (Or.inr hremote) ?_
        (Or.inl hpending) (fun _ => hremote) (fun d hd => absurd hd (hset d)) hs
      rw [hin]
      exact congrArg (fun l => [c] ++ l ++ s.pendingICE) hnext
  | addIceCandidate c =>
      have hin : s.inHand = [c] := by rw [LabSession.inHand, hw]
      have hremote : p.remoteDescription ≠ none := by
        rw [← remoteDescription_eq hpeer]
        exact h.adding (by rw [hin]; exact List.cons_ne_nil c [])
      have hpending : s.pendingICE = [] := by
        by_contra hne
        rw [(h.idle hs hne).2] at hin
        cases hin
      refine Candidates.of_peer (s := s) h (w := none) (l := [c]) hpeer rfl (Or.inl rfl)
        (Or.inr hremote) ?_ (Or.inl hpending) (fun _ => hremote) (fun d hd => by cases hd) hs
      rw [hin]
      rfl

theorem Candidates.move (h : Candidates s) (hr : Released s) (hm : LabMove s arrived s') :
    Candidates s' := by
  cases hm with
  | shown view channel hview hor => exact { h with }
  | late capture hs hcapture => exact { h with }
  | connected view hview hs hcapture => exact { h with }
  | opened sent hsocket hsent => exact { h with }
  | received data hsocket => exact { h with }
  | closing hsocket => exact { h with }
  | gone hs hsocket => exact { h with }
  | gathered c sent hsent => exact { h with }
  | beat sent hsent => exact { h with }
  | skipped data rest hs hchain => exact { h with }
  | heard data rest hs hwaiting hchain ht => exact h.reception hs hwaiting ht
  | settled w hw ht =>
      cases ht with
      | dropped hor =>
          rcases hor with hs | hp
          · exact h.unwait hs
          · -- without a connection there is nothing in hand
            have hempty : s.inHand = [] := by
              by_contra hne
              refine h.adding hne ?_
              rw [LabSession.remoteDescription, show s.peer = none from hp]
              rfl
            exact h.await (w := none) hempty rfl (fun d hd => by cases hd)
      | stop view sent hs hview hsent =>
          have h' := h.halted view sent s.chain []
          rw [List.append_nil] at h'
          exact h'.unwait rfl
      | proceed p d hpeer hopen =>
          exact h.proceed ((hr.closed p hpeer).symm.trans hopen) hw hpeer d
  | stop capture socket view sent hs hcapture hsocket hview hsent =>
      have h' : Candidates { s with capture, socket } := { h with }
      have h'' := h'.halted view sent s.chain []
      rw [List.append_nil] at h''
      exact h''

theorem candidates_init (room : String) : Candidates (labSession room).init where
  prefix_heard := List.prefix_refl _
  kept _ := rfl
  idle _ hne := absurd rfl hne
  length_pending := Nat.zero_le _
  described p hp := absurd hp List.not_mem_nil
  heard p hp := absurd hp List.not_mem_nil
  adding hne := absurd rfl hne
  setting d hd := by cases hd

theorem candidates_run {room : String} {inputs : List LabInput}
    (hrun : (labSession room).run inputs = some s) : Candidates s := by
  refine (Machine.runFrom_invariant (P := fun u => Released u ∧ Candidates u) ?_ hrun
    ⟨released_init room, candidates_init room⟩).2
  rintro u input v ⟨hr, h⟩ hstep
  have hm := LabSession.step_move hstep
  exact ⟨hr.move hm, h.move hr hm⟩

/-- In every run, whatever the server sends, the browser answers and comes in
    between: the candidates that were added, over all connections, are the first
    ones heard, in their order and each once; until the session stops, those
    heard are the ones added, the ones in hand and the ones pending, so none is
    lost; at most 128 wait; and no connection gets a candidate before it has a
    remote description, which is one of those heard. -/
theorem candidates_kept {room : String} {inputs : List LabInput}
    (hrun : (labSession room).run inputs = some s) :
    s.added <+: s.heard.filterMap candidateOf ∧
      (s.stopped = false →
        s.added ++ s.inHand ++ s.pendingICE = s.heard.filterMap candidateOf) ∧
      s.pendingICE.length ≤ 128 ∧
      ∀ p ∈ s.connections, p.candidates ≠ [] → ∃ d, p.remoteDescription = some d ∧
        d ∈ s.heard.filterMap descriptionOf := by
  have h := candidates_run hrun
  refine ⟨h.prefix_heard, h.kept, h.length_pending, fun p hp hne => ?_⟩
  obtain ⟨d, hd⟩ := Option.ne_none_iff_exists'.mp (h.described p hp hne)
  exact ⟨d, hd, h.heard p hp d hd⟩

/-- Two candidates come before the offer, and a third one while they are added. -/
def trickle : List LabInput :=
  [.media true {}, .opened, .received (some ⟨"room", .ready⟩), .turn {},
    .received (some ⟨"room", .ice "c1"⟩), .received (some ⟨"room", .ice "c2"⟩),
    .received (some ⟨"room", .description ⟨.offer, "o"⟩⟩), .turn {}, .turn {}, .turn {},
    .received (some ⟨"room", .ice "c3"⟩), .turn {}, .turn {}]

theorem candidates_kept_trickle : ∃ s, (labSession "room").run trickle = some s ∧
    s.stopped = false ∧ s.inHand = ["c2"] ∧ s.heard.filterMap candidateOf = ["c1", "c2"] ∧
    s.added ++ s.inHand ++ s.pendingICE = ["c1", "c2"] := by
  have hobs : ((labSession "room").run trickle).map (fun s => (s.stopped, s.inHand,
      s.heard.filterMap candidateOf)) = some (false, ["c2"], ["c1", "c2"]) := by
    decide +kernel
  obtain ⟨s, hs, hobs⟩ := Option.map_eq_some_iff.mp hobs
  obtain ⟨hopen, hhand, hheard⟩ : s.stopped = false ∧ s.inHand = ["c2"] ∧
      s.heard.filterMap candidateOf = ["c1", "c2"] := by simpa using hobs
  exact ⟨s, hs, hopen, hhand, hheard, ((candidates_kept hs).2.1 hopen).trans hheard⟩

/-! ## Descriptions -/

def SdpType.isOffer : SdpType → Bool
  | .offer => true
  | .answer => false

namespace LabSession

/-- The handler under way makes an offer. -/
def offering (s : LabSession) : Nat :=
  match s.waiting with
  | some .createOffer | some (.setLocalDescription ⟨.offer, _⟩) => 1
  | _ => 0

/-- The handler under way has an offer to answer. -/
def answering (s : LabSession) : Nat :=
  match s.waiting with
  | some (.setRemoteDescription ⟨.offer, _⟩) | some (.addPending .offer _ _) | some .createAnswer
  | some (.setLocalDescription ⟨.answer, _⟩) => 1
  | _ => 0

/-- It has set that offer. -/
def accepting (s : LabSession) : Bool :=
  match s.waiting with
  | some (.addPending .offer _ _) | some .createAnswer
  | some (.setLocalDescription ⟨.answer, _⟩) => true
  | _ => false

def offers (s : LabSession) : Nat := s.made.countP fun d => d.type.isOffer

def answers (s : LabSession) : Nat := s.made.countP fun d => !d.type.isOffer

end LabSession

/-- How often the frames heard tell to offer. -/
def foundCount (l : List (Option Envelope)) : Nat := (l.filterMap foundOf).countP id

/-- How many of them are offers. -/
def offerCount (l : List (Option Envelope)) : Nat :=
  (l.filterMap descriptionOf).countP fun d => d.type.isOffer

/-- What a session makes is what it was told to make. -/
structure Descriptions (s : LabSession) : Prop where
  offers : s.offers + s.offering ≤ foundCount s.heard
  answers : s.answers + s.answering ≤ offerCount s.heard
  made : s.replaced = [] → s.localDescription = s.made.getLast?
  answered : s.replaced = [] → 0 < s.answers ∨ s.accepting = true → s.remoteDescription ≠ none
  ready : s.connections.length ≤ s.heard.countP isReady
  sent : (s.sent.filterMap fun e => descriptionOf (some e)).Sublist s.made
  gathered : (s.sent.filterMap fun e => candidateOf (some e)).Sublist s.gathered

/-- A frame that is neither a description nor a candidate. -/
theorem Sends.plain {signal : Signal} {sent : List Envelope} (h : Sends s signal sent)
    (hd : ∀ m, descriptionOf (some ⟨m, signal⟩) = none)
    (hc : ∀ m, candidateOf (some ⟨m, signal⟩) = none) :
    (sent.filterMap fun e => descriptionOf (some e)) =
        (s.sent.filterMap fun e => descriptionOf (some e)) ∧
      (sent.filterMap fun e => candidateOf (some e)) =
        s.sent.filterMap fun e => candidateOf (some e) := by
  rcases h with ⟨-, rfl⟩ | ⟨-, -, rfl⟩
  · exact ⟨rfl, rfl⟩
  · constructor
    · rw [List.filterMap_append]
      simp [hd]
    · rw [List.filterMap_append]
      simp [hc]

theorem foundCount_append (l l' : List (Option Envelope)) :
    foundCount (l ++ l') = foundCount l + foundCount l' := by
  rw [foundCount, List.filterMap_append, List.countP_append]
  rfl

theorem offerCount_append (l l' : List (Option Envelope)) :
    offerCount (l ++ l') = offerCount l + offerCount l' := by
  rw [offerCount, List.filterMap_append, List.countP_append]
  rfl

/-- Another frame is heard. -/
theorem Descriptions.hear (h : Descriptions s) (chain more : List (Option Envelope)) :
    Descriptions { s with chain, heard := s.heard ++ more } := by
  have hoffers := h.offers
  have hanswers := h.answers
  have hready := h.ready
  refine { h with offers := ?_, answers := ?_, ready := ?_ }
  · show s.offers + s.offering ≤ foundCount (s.heard ++ more)
    rw [foundCount_append]
    omega
  · show s.answers + s.answering ≤ offerCount (s.heard ++ more)
    rw [offerCount_append]
    omega
  · show s.connections.length ≤ (s.heard ++ more).countP isReady
    rw [List.countP_append]
    omega

theorem Descriptions.halted (h : Descriptions s) (view : LabView) {sent : List Envelope}
    (hsent : Sends s .leave sent) : Descriptions (s.halted view sent) := by
  obtain ⟨hdescs, hices⟩ := hsent.plain (fun _ => rfl) (fun _ => rfl)
  have hlocal : (s.halted view sent).localDescription = s.localDescription := by
    show (s.peer.map RTCPeerConnection.close).bind _ = s.peer.bind _
    cases s.peer <;> rfl
  have hremote : (s.halted view sent).remoteDescription = s.remoteDescription := by
    show (s.peer.map RTCPeerConnection.close).bind _ = s.peer.bind _
    cases s.peer <;> rfl
  have hlength : (s.halted view sent).connections.length = s.connections.length := by
    show (s.replaced ++ (s.peer.map RTCPeerConnection.close).toList).length =
      (s.replaced ++ s.peer.toList).length
    rw [List.length_append, List.length_append]
    cases s.peer <;> rfl
  exact { h with
    made := fun hnone => hlocal.trans (h.made hnone)
    answered := fun hnone hor => hremote ▸ h.answered hnone hor
    ready := hlength ▸ h.ready
    sent := by
      show (sent.filterMap _).Sublist s.made
      rw [hdescs]
      exact h.sent
    gathered := by
      show (sent.filterMap _).Sublist s.gathered
      rw [hices]
      exact h.gathered }

/-- A handler goes on to await something else. -/
theorem Descriptions.await (h : Descriptions s) {w : Option Waiting}
    (hoffering : { s with waiting := w }.offering ≤ s.offering)
    (hanswering : { s with waiting := w }.answering ≤ s.answering)
    (haccepting : { s with waiting := w }.accepting = true → s.accepting = true) :
    Descriptions { s with waiting := w } := by
  have hoffers := h.offers
  have hanswers := h.answers
  refine { h with offers := ?_, answers := ?_, answered := ?_ }
  · show s.offers + { s with waiting := w }.offering ≤ foundCount s.heard
    omega
  · show s.answers + { s with waiting := w }.answering ≤ offerCount s.heard
    omega
  · exact fun hnone hor => h.answered hnone (hor.imp_right haccepting)

theorem Descriptions.reception (h : Descriptions s) {rest : List (Option Envelope)}
    {data : Option Envelope} {t : LabSession}
    (ht : Reception { s with chain := rest, heard := s.heard ++ [data] } data t) :
    Descriptions t := by
  have h' := h.hear rest [data]
  cases ht with
  | stop view sent hview hsent => exact h'.halted view hsent
  | other view hview hnone => exact { h' with }
  | ready matchID view hview =>
      have hready := h.ready
      refine { h' with made := ?_, answered := ?_, ready := ?_ }
      · intro hnone
        obtain ⟨hreplaced, hpeer⟩ := List.append_eq_nil_iff.mp hnone
        rw [Option.toList_eq_nil_iff] at hpeer
        have hmade := h.made hreplaced
        rw [LabSession.localDescription, show s.peer = none from hpeer] at hmade
        exact hmade
      · intro hnone hor
        obtain ⟨hreplaced, hpeer⟩ := List.append_eq_nil_iff.mp hnone
        rw [Option.toList_eq_nil_iff] at hpeer
        have hremote := h.answered hreplaced hor
        rw [LabSession.remoteDescription, show s.peer = none from hpeer] at hremote
        exact absurd rfl hremote
      · show (s.connections ++ [_]).length ≤
          (s.heard ++ [some (Envelope.mk matchID .ready)]).countP isReady
        rw [List.length_append, List.countP_append]
        exact Nat.add_le_add_right hready 1
  | offering matchID view hview hpeer =>
      have hoffers := h.offers
      have hanswers := h'.answers
      refine { h' with offers := ?_, answers := ?_, answered := ?_ }
      · show s.offers + 1 ≤ foundCount (s.heard ++ [some (Envelope.mk matchID (.found true))])
        rw [foundCount_append]
        exact Nat.add_le_add_right (Nat.le_of_add_right_le hoffers) 1
      · exact Nat.le_of_add_right_le hanswers
      · intro hnone hor
        exact h'.answered hnone (hor.imp_right fun hacc => by cases hacc)
  | described matchID d hpeer =>
      have hoffers := h'.offers
      have hanswers := h.answers
      obtain ⟨type, sdp⟩ := d
      refine { h' with offers := ?_, answers := ?_, answered := ?_ }
      · exact Nat.le_of_add_right_le hoffers
      · show s.answers + _ ≤ offerCount (s.heard ++ [some (Envelope.mk matchID (.description _))])
        rw [offerCount_append]
        cases type with
        | offer => exact Nat.add_le_add_right (Nat.le_of_add_right_le hanswers) 1
        | answer => exact Nat.le_of_add_right_le hanswers
      · intro hnone hor
        exact h'.answered hnone (hor.imp_right fun hacc => by cases type <;> cases hacc)
  | adding matchID c hremote =>
      exact h'.await (w := some (.addIceCandidate c)) (Nat.zero_le _) (Nat.zero_le _)
        (fun hacc => by cases hacc)
  | pending matchID c hremote hlength => exact { h' with }

/-- The connection in use takes another state, and nothing new is made. -/
theorem Descriptions.of_peer {p q : RTCPeerConnection} {w : Option Waiting}
    {pendingICE : List Candidate} (h : Descriptions s) (hpeer : s.peer = some p)
    (hlocal : q.localDescription = p.localDescription)
    (hremote : p.remoteDescription ≠ none → q.remoteDescription ≠ none)
    (hoffering : { s with waiting := w }.offering ≤ s.offering)
    (hanswering : { s with waiting := w }.answering ≤ s.answering)
    (haccepting : { s with waiting := w }.accepting = true →
      s.accepting = true ∨ q.remoteDescription ≠ none) :
    Descriptions { s with peer := some q, waiting := w, pendingICE } := by
  have hoffers := h.offers
  have hanswers := h.answers
  refine { h with offers := ?_, answers := ?_, made := ?_, answered := ?_, ready := ?_ }
  · show s.offers + { s with waiting := w }.offering ≤ foundCount s.heard
    omega
  · show s.answers + { s with waiting := w }.answering ≤ offerCount s.heard
    omega
  · intro hnone
    have hmade := h.made hnone
    rw [LabSession.localDescription, hpeer] at hmade
    exact hlocal.trans hmade
  · intro hnone hor
    have hold : s.remoteDescription ≠ none → q.remoteDescription ≠ none := by
      rw [remoteDescription_eq hpeer]
      exact hremote
    show q.remoteDescription ≠ none
    rcases hor with hanswer | hacc
    · exact hold (h.answered hnone (Or.inl hanswer))
    · rcases haccepting hacc with hacc | hq
      · exact hold (h.answered hnone (Or.inr hacc))
      · exact hq
  · have hready := h.ready
    rw [connections_eq hpeer, List.length_append] at hready
    rw [connections_eq (p := q) rfl, List.length_append]
    exact hready

/-- After a remote description that is an offer, there is an offer to answer. -/
theorem awaited_afterRemote (t : LabSession) (type : SdpType) (l : List Candidate) :
    ∃ w, t.afterRemote type l = { t with waiting := w } ∧ { t with waiting := w }.offering = 0 ∧
      { t with waiting := w }.answering = type.isOffer.toNat ∧
      { t with waiting := w }.accepting = type.isOffer := by
  cases l with
  | nil =>
      cases type with
      | offer => exact ⟨some .createAnswer, rfl, rfl, rfl, rfl⟩
      | answer => exact ⟨none, rfl, rfl, rfl, rfl⟩
  | cons c rest =>
      cases type with
      | offer => exact ⟨some (.addPending .offer c rest), rfl, rfl, rfl, rfl⟩
      | answer => exact ⟨some (.addPending .answer c rest), rfl, rfl, rfl, rfl⟩

/-- A local description is set and sent. -/
theorem Descriptions.setLocal {p : RTCPeerConnection} {desc : Description} (h : Descriptions s)
    (hw : s.waiting = some (.setLocalDescription desc)) (hpeer : s.peer = some p) (d : Settled) :
    Descriptions ({ s with waiting := none }.proceed p d (.setLocalDescription desc)) := by
  obtain ⟨sent, heq, hsent⟩ := LabSession.send_eq { s with
    waiting := none
    peer := some { p with localDescription := some desc }
    made := s.made ++ [desc] } (.description desc)
  rw [LabSession.proceed, heq]
  obtain ⟨type, sdp⟩ := desc
  have hoffers := h.offers
  have hanswers := h.answers
  refine { h with
    offers := ?_, answers := ?_, made := ?_, answered := ?_, ready := ?_, sent := ?_
    gathered := ?_ }
  · show (s.made ++ [Description.mk type sdp]).countP _ + 0 ≤ foundCount s.heard
    rw [LabSession.offering, hw, LabSession.offers] at hoffers
    rw [List.countP_append]
    cases type with
    | offer => exact hoffers
    | answer => exact hoffers
  · show (s.made ++ [Description.mk type sdp]).countP _ + 0 ≤ offerCount s.heard
    rw [LabSession.answering, hw, LabSession.answers] at hanswers
    rw [List.countP_append]
    cases type with
    | offer => exact hanswers
    | answer => exact hanswers
  · intro _
    show some (Description.mk type sdp) = (s.made ++ [Description.mk type sdp]).getLast?
    rw [List.getLast?_append]
    rfl
  · intro hnone hor
    have hsame : s.remoteDescription = p.remoteDescription := remoteDescription_eq hpeer
    show p.remoteDescription ≠ none
    rw [← hsame]
    refine h.answered hnone ?_
    cases type with
    | answer => exact Or.inr (by rw [LabSession.accepting, hw])
    | offer =>
        refine Or.inl ?_
        rcases hor with hanswer | hacc
        · change 0 < (s.made ++ [Description.mk .offer sdp]).countP _ at hanswer
          rw [List.countP_append] at hanswer
          exact hanswer
        · cases hacc
  · have hready := h.ready
    rw [connections_eq hpeer, List.length_append] at hready
    rw [connections_eq (p := { p with localDescription := some ⟨type, sdp⟩ }) rfl,
      List.length_append]
    exact hready
  · show (sent.filterMap _).Sublist (s.made ++ [Description.mk type sdp])
    rcases hsent with ⟨-, rfl⟩ | ⟨-, -, rfl⟩
    · exact h.sent.trans (List.sublist_append_left _ _)
    · rw [List.filterMap_append]
      exact h.sent.append (List.Sublist.refl _)
  · show (sent.filterMap _).Sublist s.gathered
    rcases hsent with ⟨-, rfl⟩ | ⟨-, -, rfl⟩
    · exact h.gathered
    · rw [List.filterMap_append]
      exact (List.append_nil _).symm ▸ h.gathered

theorem Descriptions.proceed {p : RTCPeerConnection} {w : Waiting} (h : Descriptions s)
    (hw : s.waiting = some w) (hpeer : s.peer = some p) (d : Settled) :
    Descriptions ({ s with waiting := none }.proceed p d w) := by
  cases w with
  | createOffer =>
      refine h.await (w := some (.setLocalDescription ⟨.offer, d.sdp⟩)) ?_ (Nat.zero_le _) ?_
      · rw [show s.offering = 1 by rw [LabSession.offering, hw]]
        exact Nat.le_refl 1
      · exact fun hacc => by cases hacc
  | createAnswer =>
      refine h.await (w := some (.setLocalDescription ⟨.answer, d.sdp⟩)) (Nat.zero_le _) ?_ ?_
      · rw [show s.answering = 1 by rw [LabSession.answering, hw]]
        exact Nat.le_refl 1
      · exact fun _ => by rw [LabSession.accepting, hw]
  | setLocalDescription desc => exact h.setLocal hw hpeer d
  | setRemoteDescription desc =>
      obtain ⟨type, sdp⟩ := desc
      obtain ⟨w, heq, hoffering, hanswering, -⟩ := awaited_afterRemote { s with
        waiting := none
        peer := some { p with remoteDescription := some ⟨type, sdp⟩ }
        pendingICE := [] } type s.pendingICE
      rw [LabSession.proceed, heq]
      refine Descriptions.of_peer (s := s) h hpeer rfl (fun _ => Option.some_ne_none _)
        (Nat.le_trans (Nat.le_of_eq hoffering) (Nat.zero_le _)) ?_
        (fun _ => Or.inr (Option.some_ne_none _))
      refine Nat.le_of_eq (hanswering.trans ?_)
      rw [LabSession.answering, hw]
      cases type <;> rfl
  | addPending type c rest =>
      obtain ⟨w, heq, hoffering, hanswering, haccepting⟩ := awaited_afterRemote { s with
        waiting := none
        peer := some { p with candidates := p.candidates ++ [c] } } type rest
      rw [LabSession.proceed, heq]
      refine Descriptions.of_peer (s := s) h hpeer rfl id
        (Nat.le_trans (Nat.le_of_eq hoffering) (Nat.zero_le _)) ?_ (fun hacc => Or.inl ?_)
      · refine Nat.le_of_eq (hanswering.trans ?_)
        rw [LabSession.answering, hw]
        cases type <;> rfl
      · have htype : type.isOffer = true := haccepting ▸ hacc
        rw [LabSession.accepting, hw]
        cases type with
        | offer => rfl
        | answer => cases htype
  | addIceCandidate c =>
      exact Descriptions.of_peer (s := s) (w := none) h hpeer rfl id (Nat.zero_le _)
        (Nat.zero_le _) (fun hacc => by cases hacc)

theorem Descriptions.move (h : Descriptions s) (hm : LabMove s arrived s') : Descriptions s' := by
  cases hm with
  | shown view channel hview hor => exact { h with }
  | late capture hs hcapture => exact { h with }
  | connected view hview hs hcapture => exact { h with }
  | opened sent hsocket hsent =>
      obtain ⟨hdescs, hices⟩ := hsent.plain (fun _ => rfl) (fun _ => rfl)
      exact { h with sent := hdescs ▸ h.sent, gathered := hices ▸ h.gathered }
  | received data hsocket => exact { h with }
  | closing hsocket => exact { h with }
  | gone hs hsocket => exact { h with }
  | gathered c sent hsent =>
      refine { h with sent := ?_, gathered := ?_ }
      · show (sent.filterMap _).Sublist s.made
        rcases hsent with ⟨-, rfl⟩ | ⟨-, -, rfl⟩
        · exact h.sent
        · rw [List.filterMap_append]
          exact (List.append_nil _).symm ▸ h.sent
      · show (sent.filterMap _).Sublist (s.gathered ++ [c])
        rcases hsent with ⟨-, rfl⟩ | ⟨-, -, rfl⟩
        · exact h.gathered.trans (List.sublist_append_left _ _)
        · rw [List.filterMap_append]
          exact h.gathered.append (List.Sublist.refl _)
  | beat sent hsent =>
      obtain ⟨hdescs, hices⟩ := hsent.plain (fun _ => rfl) (fun _ => rfl)
      exact { h with sent := hdescs ▸ h.sent, gathered := hices ▸ h.gathered }
  | skipped data rest hs hchain => exact { h with }
  | heard data rest hs hwaiting hchain ht => exact h.reception ht
  | settled w hw ht =>
      have h' := h.await (w := none) (Nat.zero_le _) (Nat.zero_le _) (fun hacc => by cases hacc)
      cases ht with
      | dropped hor => exact h'
      | stop view sent hs hview hsent => exact h'.halted view hsent
      | proceed p d hpeer hopen => exact h.proceed hw hpeer d
  | stop capture socket view sent hs hcapture hsocket hview hsent =>
      have h' : Descriptions { s with capture, socket } := { h with }
      exact h'.halted view hsent

theorem descriptions_init (room : String) : Descriptions (labSession room).init where
  offers := Nat.le_refl _
  answers := Nat.le_refl _
  made _ := rfl
  answered _ hor := by
    rcases hor with hlt | hacc
    · cases hlt
    · cases hacc
  ready := Nat.le_refl _
  sent := List.Sublist.refl _
  gathered := List.Sublist.refl _

theorem descriptions_run {room : String} {inputs : List LabInput}
    (hrun : (labSession room).run inputs = some s) : Descriptions s :=
  Machine.runFrom_invariant (P := Descriptions)
    (fun _ _ _ h hstep => h.move (LabSession.step_move hstep)) hrun (descriptions_init room)

end

end OneMinute.Web
