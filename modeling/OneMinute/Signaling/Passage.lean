/-
  OneMinute.Signaling.Passage

  What a step of the lab makes of one connection, and what it makes of all of them.

  The frames on their way to a session, with those that it has heard, are its
  `flow`.  A step takes from it, or puts what was published at its end
  (`Passage`); so what a connection gets of its peer comes from the frames that
  the server read there, in their order (`Network.Ok.fed`).
-/

import OneMinute.Signaling.Relay

namespace OneMinute.Signaling

open Web (Candidate Description Envelope LabInput LabSession Signal candidateOf descriptionOf
  isReady labSession)

/-! ## Frames on their way -/

/-- What a session sends to the other one. -/
def relayOf : Option Envelope → Option Signal
  | some ⟨_, .description d⟩ => some (.description d)
  | some ⟨_, .ice c⟩ => some (.ice c)
  | _ => none

namespace Link

/-- What its session has heard, with all that is on its way to it. -/
def flow (l : Link) : List (Option Envelope) :=
  l.session.heard ++ l.session.chain ++ l.down.map some ++ l.queue.map some

/-- What the server has read of it. -/
def taken (l : Link) : List Envelope := l.session.sent.take l.read

end Link

/-- These two were admitted. -/
def Peers (w : LabWorld) (c c' : String) : Prop := w.admitted = [c, c'] ∨ w.admitted = [c', c]

/-- What `match.found` told a connection. -/
def toldOf (conn : String) (founds : List (String × String × Bool)) : List Bool :=
  founds.filterMap fun f => if f.1 = conn then some f.2.2 else none

/-- `connection.ready` is sent once, after the join. -/
def Link.Readied (l : Link) : Prop :=
  l.flow.countP isReady ≤ 1 ∧
    (l.stage = .accepted ∨ l.stage = .joined → l.flow.countP isReady = 0)

structure Network.Ok (room : String) (n : Network) : Prop where
  lab : ∃ ops, (labMachine room).run ops = some n.lab
  session : ∀ l ∈ n.links, ∃ inputs, (labSession room).run inputs = some l.session
  conns : (n.links.map Link.conn).Nodup
  admitted : ∀ c ∈ n.lab.admitted, c ∈ n.links.map Link.conn
  read : ∀ l ∈ n.links, l.read ≤ l.session.sent.length
  fed : ∀ l ∈ n.links, ∀ p ∈ n.links, Peers n.lab p.conn l.conn →
    (l.flow.filterMap relayOf).Sublist (p.taken.filterMap fun e => relayOf (some e))
  unfed : ∀ l ∈ n.links, (∀ c, ¬ Peers n.lab c l.conn) → l.flow.filterMap relayOf = []
  told : ∀ l ∈ n.links, (l.flow.filterMap Web.foundOf).Sublist (toldOf l.conn n.lab.founds)
  ready : ∀ l ∈ n.links, l.Readied

/-- What a step makes of a link that gets `news`. -/
structure Passage (room : String) (news : List Envelope) (l l' : Link) : Prop where
  conn : l'.conn = l.conn
  session : ∃ inputs, (labSession room).runFrom l.session inputs = some l'.session
  read : l.read ≤ l.session.sent.length → l'.read ≤ l'.session.sent.length
  taken : l.read ≤ l.session.sent.length → l.taken <+: l'.taken
  relays : (l'.flow.filterMap relayOf).Sublist ((l.flow ++ news.map some).filterMap relayOf)
  founds : (l'.flow.filterMap Web.foundOf).Sublist
    ((l.flow ++ news.map some).filterMap Web.foundOf)
  ready : l.Readied → (∀ e ∈ news, isReady (some e) = false) → l'.Readied

section
variable {room conn : String} {frame : Envelope} {n n' : Network} {op : LabOp} {s : LabStore}

/-! ## What is published -/

theorem published_relay (room : String) (op : LabOp) (s : LabStore) :
    (∀ e ∈ (op.exec room s).published, ∀ payload, e.2 ≠ .relayed payload) ∨
      ∃ sender payload peer, op = .signal sender payload ∧
        (op.exec room s).published = [(peer, .relayed payload)] := by
  cases op with
  | create => exact Or.inl fun e he => absurd he List.not_mem_nil
  | heartbeat conn => exact Or.inl fun e he => absurd he List.not_mem_nil
  | tick d => exact Or.inl fun e he => absurd he List.not_mem_nil
  | join conn =>
      refine Or.inl fun e he payload => ?_
      change e ∈ (s.joinScript room conn).published at he
      have hmove : JoinMove room conn s (s.joinScript room conn) := joinScript_move
      generalize s.joinScript room conn = answer at he hmove
      cases hmove with
      | refused => exact absurd he List.not_mem_nil
      | first h => exact absurd he List.not_mem_nil
      | second a h hpresent =>
          rcases List.mem_pair.mp he with rfl | rfl
          · exact nofun
          · exact nofun
  | signal sender payload =>
      obtain ⟨-, hnone | ⟨r, peer, -, -, -, -, hone⟩⟩ := signalScript_spec room sender payload s
      · refine Or.inl fun e he => ?_
        change e ∈ (s.signalScript room sender payload).published at he
        rw [hnone] at he
        exact absurd he List.not_mem_nil
      · exact Or.inr ⟨sender, payload, peer, rfl, hone⟩
  | leave conn =>
      refine Or.inl fun e he payload => ?_
      change e ∈ (s.leaveScript room conn).published at he
      unfold LabStore.leaveScript at he
      split at he
      · exact absurd he List.not_mem_nil
      · obtain ⟨p, -, rfl⟩ := List.mem_map.mp he
        exact nofun

theorem mem_inbox {e : Envelope} {published : List (String × LabEvent)}
    (h : e ∈ inbox conn frame published) : ∃ event, (conn, event) ∈ published ∧
      event.envelope frame = e := by
  obtain ⟨⟨c, event⟩, hmem, heq⟩ := List.mem_filterMap.mp h
  obtain ⟨rfl, heq⟩ := Option.ite_none_right_eq_some.mp heq
  exact ⟨event, hmem, by simpa using heq⟩

/-- Without a relayed frame there is nothing of a peer. -/
theorem inbox_relays_nil {published : List (String × LabEvent)}
    (h : ∀ e ∈ published, ∀ payload, e.2 ≠ .relayed payload) :
    ((inbox conn frame published).map some).filterMap relayOf = [] := by
  rw [List.filterMap_map, List.filterMap_eq_nil_iff]
  intro e he
  obtain ⟨event, hmem, rfl⟩ := mem_inbox he
  cases event with
  | found matchID offerer => rfl
  | ended matchID reason => rfl
  | relayed payload => exact absurd rfl (h _ hmem payload)

/-- What it is told by `match.found`. -/
theorem inbox_founds (hframe : Web.foundOf (some frame) = none)
    (published : List (String × LabEvent)) :
    ((inbox conn frame published).map some).filterMap Web.foundOf =
      toldOf conn (published.filterMap foundOf) := by
  rw [toldOf, inbox, List.filterMap_map, List.filterMap_filterMap, List.filterMap_filterMap]
  refine List.filterMap_congr ?_
  rintro ⟨c, event⟩ -
  by_cases hc : c = conn
  · cases event with
    | found matchID offerer => simp [hc, foundOf, LabEvent.envelope, Web.foundOf]
    | ended matchID reason => simp [hc, foundOf, LabEvent.envelope, Web.foundOf]
    | relayed payload => simp [hc, foundOf, LabEvent.envelope, hframe]
  · cases event with
    | found matchID offerer => simp [hc, foundOf]
    | ended matchID reason => simp [hc, foundOf]
    | relayed payload => simp [hc, foundOf]

/-! ## One step -/

theorem Peers.unique {w : LabWorld} {c c' x : String} (h : Peers w c x) (h' : Peers w c' x) :
    c = c' := by
  rcases h with h | h <;> rcases h' with h' | h' <;> · rw [h] at h'; grind

theorem Passage.refl (room : String) (l : Link) : Passage room [] l l where
  conn := rfl
  session := ⟨[], rfl⟩
  read := id
  taken _ := List.prefix_refl _
  relays := by simp
  founds := by simp
  ready h _ := h

theorem Passage.trans {news : List Envelope} {l l' l'' : Link} (h : Passage room news l l')
    (h' : Passage room [] l' l'') : Passage room news l l'' where
  conn := h'.conn.trans h.conn
  session := by
    obtain ⟨inputs, hrun⟩ := h.session
    obtain ⟨more, hmore⟩ := h'.session
    exact ⟨inputs ++ more, (Machine.runFrom_append_iff hrun).mpr hmore⟩
  read hread := h'.read (h.read hread)
  taken hread := (h.taken hread).trans (h'.taken (h.read hread))
  relays := by
    have hrelays := h'.relays
    rw [List.map_nil, List.append_nil] at hrelays
    exact hrelays.trans h.relays
  founds := by
    have hfounds := h'.founds
    rw [List.map_nil, List.append_nil] at hfounds
    exact hfounds.trans h.founds
  ready hl hnews := h'.ready (h.ready hl hnews) (fun e he => absurd he List.not_mem_nil)

/-- A link whose session stays as it is. -/
theorem Passage.of_flow {news : List Envelope} {l l' : Link} (hconn : l'.conn = l.conn)
    (hsession : l'.session = l.session) (hread : l'.read = l.read)
    (hflow : l'.flow.Sublist (l.flow ++ news.map some))
    (hstage : l'.stage = .accepted ∨ l'.stage = .joined → l.stage = .accepted ∨ l.stage = .joined) :
    Passage room news l l' where
  conn := hconn
  session := ⟨[], by rw [hsession]; rfl⟩
  read h := by
    rw [hread, hsession]
    exact h
  taken _ := by simp [Link.taken, hread, hsession]
  relays := hflow.filterMap _
  founds := hflow.filterMap _
  ready h hnews := by
    have hzero : (news.map some).countP isReady = 0 := by
      rw [List.countP_eq_zero]
      intro data hdata
      obtain ⟨e, he, rfl⟩ := List.mem_map.mp hdata
      rw [hnews e he]
      exact Bool.false_ne_true
    have hle := hflow.countP_le (p := isReady)
    rw [List.countP_append, hzero] at hle
    obtain ⟨hone, hnone⟩ := h
    refine ⟨by omega, fun hst => ?_⟩
    have := hnone (hstage hst)
    omega

theorem Passage.publish (l : Link) (published : List (String × LabEvent)) :
    Passage room (inbox l.conn frame published) l (l.publish frame published) := by
  unfold Link.publish
  split
  · exact Passage.of_flow rfl rfl rfl (List.sublist_append_left _ _) id
  · refine Passage.of_flow rfl rfl rfl ?_ id
    rw [Link.flow, Link.flow, List.map_append, ← List.append_assoc]

/-- An answer of the server that is not about the peer. -/
theorem Passage.write (l : Link) {e : Envelope} (hrelay : relayOf (some e) = none)
    (hfound : Web.foundOf (some e) = none) (hready : isReady (some e) = false) :
    Passage room [] l (l.write e) := by
  have hskip : ∀ {α : Type} (f : Option Envelope → Option α), f (some e) = none →
      ((l.write e).flow.filterMap f).Sublist
        ((l.flow ++ ([] : List Envelope).map some).filterMap f) := by
    intro α f hf
    simp [Link.write, Link.flow, List.filterMap_append, hf]
  have hcount : (l.write e).flow.countP isReady = l.flow.countP isReady := by
    simp [Link.write, Link.flow, List.countP_append, hready]
  exact ⟨rfl, ⟨[], rfl⟩, id, fun _ => List.prefix_refl _, hskip _ hrelay, hskip _ hfound,
    fun h _ => by rw [Link.Readied, hcount]; exact h⟩

theorem Passage.stage (l : Link) {stage : LabStage}
    (h : stage = .accepted ∨ stage = .joined → l.stage = .accepted ∨ l.stage = .joined) :
    Passage room [] l { l with stage } :=
  Passage.of_flow rfl rfl rfl (by simp [Link.flow]) h

theorem taken_succ {l : Link} {e : Envelope} (h : l.session.sent[l.read]? = some e) :
    l.session.sent.take (l.read + 1) = l.taken ++ [e] := by
  rw [List.take_add_one, h]
  rfl

/-- A frame is read. -/
theorem Passage.read_succ {l : Link} {e : Envelope} (h : l.session.sent[l.read]? = some e) :
    Passage room [] l { l with read := l.read + 1 } where
  conn := rfl
  session := ⟨[], rfl⟩
  read _ := (List.getElem?_eq_some_iff.mp h).1
  taken _ := by
    show l.taken <+: l.session.sent.take (l.read + 1)
    rw [taken_succ h]
    exact List.prefix_append _ _
  relays := by simp [Link.flow]
  founds := by simp [Link.flow]
  ready h _ := h

/-- `connection.ready` is sent. -/
theorem Passage.configure {l : Link} (sent : Bool) (h : l.stage = .joined) :
    Passage room [] l (Network.configure room l sent) := by
  unfold Network.configure
  split
  · have hskip : ∀ {α : Type} (f : Option Envelope → Option α), f (some ⟨room, .ready⟩) = none →
        ((l.write ⟨room, .ready⟩).flow.filterMap f).Sublist
          ((l.flow ++ ([] : List Envelope).map some).filterMap f) := by
      intro α f hf
      simp [Link.write, Link.flow, List.filterMap_append, hf]
    refine ⟨rfl, ⟨[], rfl⟩, id, fun _ => List.prefix_refl _, hskip relayOf rfl,
      hskip Web.foundOf rfl, fun hr _ =>
        ⟨?_, fun hor => by rcases hor with hst | hst <;> cases hst⟩⟩
    have hzero := hr.2 (Or.inr h)
    have hcount : (l.write ⟨room, .ready⟩).flow.countP isReady = l.flow.countP isReady + 1 := by
      have hone : isReady (some (Envelope.mk room .ready)) = true := rfl
      simp [Link.write, Link.flow, List.countP_append, hone]
      omega
    show (l.write ⟨room, .ready⟩).flow.countP isReady ≤ 1
    omega
  · exact Passage.stage l fun hor => by rcases hor with hst | hst <;> cases hst

/-- An input of the browser, with the frames that the socket delivers. -/
theorem Passage.input {l : Link} {input : LabInput} {session : LabSession} {down : List Envelope}
    (h : l.session.step input = some session)
    (hdown : l.down.map some = input.arrived ++ down.map some) :
    Passage room [] l { l with session, down } := by
  have hm := LabSession.step_move h
  have hflow : ({ l with session, down } : Link).flow.Sublist l.flow := by
    rw [Link.flow, Link.flow, hdown]
    refine List.Sublist.append ?_ (List.Sublist.refl _)
    rw [← List.append_assoc]
    exact hm.frames.append (List.Sublist.refl _)
  have hsent := hm.sent
  refine ⟨rfl, ⟨[input], ?_⟩, fun hread => Nat.le_trans hread hsent.length_le, fun hread => ?_,
    ?_, ?_, ?_⟩
  · rw [Machine.runFrom_cons]
    exact (congrArg (fun o : Option LabSession => o.bind _) h)
  · show l.session.sent.take l.read <+: session.sent.take l.read
    obtain ⟨rest, heq⟩ := hsent
    have hsame : session.sent.take l.read = l.session.sent.take l.read := by
      rw [← heq, List.take_append_of_le_length hread]
    exact hsame.symm ▸ List.prefix_refl _
  · rw [List.map_nil, List.append_nil]
    exact hflow.filterMap _
  · rw [List.map_nil, List.append_nil]
    exact hflow.filterMap _
  · intro hr _
    have hle := hflow.countP_le (p := isReady)
    obtain ⟨hone, hnone⟩ := hr
    refine ⟨Nat.le_trans hle hone, fun hor => Nat.le_zero.mp ?_⟩
    exact Nat.le_trans hle (Nat.le_of_eq (hnone hor))

/-- What one link makes of what is relayed to it: nothing, or the frame that a peer sent. -/
def RelayedTo (n : Network) (frame : Envelope) (g : Nat → Link → Link)
    (published : List (String × LabEvent)) (l : Link) : Prop :=
  ((inbox l.conn frame published).map some).filterMap relayOf = [] ∨
    ∃ sender signal, Peers n.lab sender l.conn ∧ relayOf (some frame) = some signal ∧
      ((inbox l.conn frame published).map some).filterMap relayOf = [signal] ∧
      ∀ i p, n.links[i]? = some p → p.conn = sender → p.taken ++ [frame] <+: (g i p).taken

section
variable {published : List (String × LabEvent)} {lab : LabWorld} {g : Nat → Link → Link}
  {i k : Nat} {l p : Link}

/-- The connections keep their places. -/
theorem conns_mapIdx
    (hpass : ∀ i l, n.links[i]? = some l → Passage room (inbox l.conn frame published) l (g i l)) :
    (n.links.mapIdx g).map Link.conn = n.links.map Link.conn := by
  refine List.ext_getElem? fun i => ?_
  rw [List.getElem?_map, List.getElem?_map, List.getElem?_mapIdx]
  cases hi : n.links[i]? with
  | none => rfl
  | some l => exact congrArg some (hpass i l hi).conn

theorem mem_mapIdx {l' : Link} (h : l' ∈ n.links.mapIdx g) :
    ∃ i l, n.links[i]? = some l ∧ l ∈ n.links ∧ l' = g i l := by
  obtain ⟨i, hi⟩ := List.getElem?_of_mem h
  rw [List.getElem?_mapIdx] at hi
  obtain ⟨l, hl, rfl⟩ := Option.map_eq_some_iff.mp hi
  exact ⟨i, l, hl, List.mem_of_getElem? hl, rfl⟩

/-- What is relayed on the way to a link, after the step. -/
theorem Passage.relays_append {l l' : Link}
    (hstep : Passage room (inbox l.conn frame published) l l') :
    (l'.flow.filterMap relayOf).Sublist (l.flow.filterMap relayOf ++
      ((inbox l.conn frame published).map some).filterMap relayOf) := by
  have hrelays := hstep.relays
  rw [List.filterMap_append] at hrelays
  exact hrelays

/-- A pair that was there before: the link is fed by its peer, as before or with the
    frame that the server has just read from it. -/
theorem fed_step (h : n.Ok room) (hi : n.links[i]? = some l) (hk : n.links[k]? = some p)
    (hl : Passage room (inbox l.conn frame published) l (g i l))
    (hp : Passage room (inbox p.conn frame published) p (g k p))
    (hrelay : RelayedTo n frame g published l) (hpeers : Peers n.lab p.conn l.conn) :
    ((g i l).flow.filterMap relayOf).Sublist
      ((g k p).taken.filterMap fun e => relayOf (some e)) := by
  have hfed := h.fed l (List.mem_of_getElem? hi) p (List.mem_of_getElem? hk) hpeers
  have hrelays := hl.relays_append
  rcases hrelay with hnil | ⟨sender, signal, hsender, hsignal, hone, hgrows⟩
  · have htaken : (p.taken.filterMap fun e => relayOf (some e)).Sublist
        ((g k p).taken.filterMap fun e => relayOf (some e)) :=
      (hp.taken (h.read p (List.mem_of_getElem? hk))).sublist.filterMap _
    rw [hnil, List.append_nil] at hrelays
    exact hrelays.trans (hfed.trans htaken)
  · -- the frame was read from this one
    have hread := hgrows k p hk (Peers.unique hpeers hsender)
    rw [hone] at hrelays
    refine hrelays.trans (List.Sublist.trans ?_ (hread.sublist.filterMap _))
    have hlast : ([frame].filterMap fun e => relayOf (some e)) = [signal] := by simp [hsignal]
    rw [List.filterMap_append, hlast]
    exact hfed.append (List.Sublist.refl _)

/-- A link that had no peer, and to which nothing is relayed, has still heard nothing. -/
theorem unfed_step (h : n.Ok room) (hi : n.links[i]? = some l)
    (hstep : Passage room (inbox l.conn frame published) l (g i l))
    (hnil : ((inbox l.conn frame published).map some).filterMap relayOf = [])
    (hnone : ∀ c, ¬ Peers n.lab c l.conn) : (g i l).flow.filterMap relayOf = [] := by
  have hrelays := hstep.relays_append
  rw [hnil, h.unfed l (List.mem_of_getElem? hi) hnone] at hrelays
  exact List.sublist_nil.mp hrelays

/-- What `match.found` tells goes on the way to the links that it names. -/
theorem told_step (h : n.Ok room) (hi : n.links[i]? = some l)
    (hstep : Passage room (inbox l.conn frame published) l (g i l))
    (hframe : Web.foundOf (some frame) = none)
    (hfounds : lab.founds = n.lab.founds ++ published.filterMap foundOf) :
    ((g i l).flow.filterMap Web.foundOf).Sublist (toldOf (g i l).conn lab.founds) := by
  have htold := hstep.founds
  rw [List.filterMap_append, inbox_founds hframe] at htold
  rw [hstep.conn, hfounds, toldOf, List.filterMap_append]
  exact htold.trans ((h.told l (List.mem_of_getElem? hi)).append (List.Sublist.refl _))

/-- No event is `connection.ready`. -/
theorem ready_step (h : n.Ok room) (hi : n.links[i]? = some l)
    (hstep : Passage room (inbox l.conn frame published) l (g i l))
    (hready : isReady (some frame) = false) : (g i l).Readied := by
  refine hstep.ready (h.ready l (List.mem_of_getElem? hi)) fun e he => ?_
  obtain ⟨event, -, rfl⟩ := mem_inbox he
  cases event with
  | found matchID offerer => rfl
  | ended matchID reason => rfl
  | relayed payload => exact hready

/-- A step that takes each link along its way. -/
theorem Network.Ok.update (h : n.Ok room) (frame : Envelope)
    (published : List (String × LabEvent)) {lab : LabWorld} {g : Nat → Link → Link}
    (hlab : ∃ ops, (labMachine room).run ops = some lab)
    (hseated : ∀ c ∈ lab.admitted, c ∈ n.links.map Link.conn)
    (hframe : Web.foundOf (some frame) = none) (hready : isReady (some frame) = false)
    (hfounds : lab.founds = n.lab.founds ++ published.filterMap foundOf)
    (hadmitted : lab.admitted = n.lab.admitted ∨ (∀ c c', ¬ Peers n.lab c c') ∧
      ∀ e ∈ published, ∀ payload, e.2 ≠ .relayed payload)
    (hpass : ∀ i l, n.links[i]? = some l →
      Passage room (inbox l.conn frame published) l (g i l))
    (hrelay : ∀ l ∈ n.links, RelayedTo n frame g published l) :
    Network.Ok room ⟨lab, n.links.mapIdx g⟩ where
  lab := hlab
  session l' hl' := by
    obtain ⟨i, l, hi, hl, rfl⟩ := mem_mapIdx hl'
    obtain ⟨inputs, hrun⟩ := h.session l hl
    obtain ⟨more, hmore⟩ := (hpass i l hi).session
    exact ⟨inputs ++ more, (Machine.runFrom_append_iff hrun).mpr hmore⟩
  conns := by
    show ((n.links.mapIdx g).map Link.conn).Nodup
    rw [conns_mapIdx hpass]
    exact h.conns
  admitted := by
    show ∀ c ∈ lab.admitted, c ∈ (n.links.mapIdx g).map Link.conn
    rw [conns_mapIdx hpass]
    exact hseated
  read l' hl' := by
    obtain ⟨i, l, hi, hl, rfl⟩ := mem_mapIdx hl'
    exact (hpass i l hi).read (h.read l hl)
  fed l' hl' p' hp' hpeers := by
    obtain ⟨i, l, hi, hl, rfl⟩ := mem_mapIdx hl'
    obtain ⟨k, p, hk, -, rfl⟩ := mem_mapIdx hp'
    rw [(hpass i l hi).conn, (hpass k p hk).conn] at hpeers
    rcases hadmitted with hsame | ⟨hnone, hquiet⟩
    · have hold : Peers n.lab p.conn l.conn := by
        rw [Peers, ← hsame]
        exact hpeers
      exact fed_step h hi hk (hpass i l hi) (hpass k p hk) (hrelay l hl) hold
    · -- the pair is new, and nothing was on its way
      rw [unfed_step h hi (hpass i l hi) (inbox_relays_nil hquiet) fun c => hnone c l.conn]
      exact List.nil_sublist _
  unfed l' hl' hnone := by
    obtain ⟨i, l, hi, hl, rfl⟩ := mem_mapIdx hl'
    rw [(hpass i l hi).conn] at hnone
    rcases hadmitted with hsame | ⟨hno, hquiet⟩
    · have hnone' : ∀ c, ¬ Peers n.lab c l.conn := by
        intro c hc
        refine hnone c ?_
        show Peers lab c l.conn
        rw [Peers, hsame]
        exact hc
      rcases hrelay l hl with hnil | ⟨sender, signal, hsender, -⟩
      · exact unfed_step h hi (hpass i l hi) hnil hnone'
      · exact absurd hsender (hnone' sender)
    · exact unfed_step h hi (hpass i l hi) (inbox_relays_nil hquiet) fun c => hno c l.conn
  told l' hl' := by
    obtain ⟨i, l, hi, -, rfl⟩ := mem_mapIdx hl'
    exact told_step h hi (hpass i l hi) hframe hfounds
  ready l' hl' := by
    obtain ⟨i, l, hi, -, rfl⟩ := mem_mapIdx hl'
    exact ready_step h hi (hpass i l hi) hready

end

/-- A step of link `i` alone. -/
theorem Network.Ok.modify (h : n.Ok room) (i : Nat) {f : Link → Link}
    (hpass : ∀ l, n.links[i]? = some l → Passage room [] l (f l)) :
    Network.Ok room { n with links := n.links.modify i f } := by
  have heq : n.links.modify i f = n.links.mapIdx fun j l => if j = i then f l else l := by
    refine List.ext_getElem? fun j => ?_
    rw [List.getElem?_modify, List.getElem?_mapIdx]
    by_cases hj : i = j
    · simp [hj]
    · simp [hj, Ne.symm hj]
  rw [heq]
  refine h.update noFrame [] h.lab h.admitted rfl rfl
    (List.append_nil _).symm (Or.inl rfl) (fun j l hl => ?_) (fun l _ => Or.inl rfl)
  show Passage room [] l (if j = i then f l else l)
  split
  · next hj =>
      subst hj
      exact hpass l hl
  · exact Passage.refl room l

/-- A script admits nobody, or there was no pair before. -/
theorem admitted_script {w : LabWorld} (hinv : RoomInv room w) (hop : op.Permitted w) :
    (w.after room op).admitted = w.admitted ∨ (∀ c c', ¬ Peers w c c') ∧
      ∀ e ∈ (op.exec room w.store).published, ∀ payload, e.2 ≠ .relayed payload := by
  have hle := (hinv.step (labStep_eq_some.mpr ⟨hop, rfl⟩)).atMostTwo
  rw [admitted_after] at hle ⊢
  cases hopt : LabEntry.admitted ⟨op, (op.exec room w.store).reply,
      (op.exec room w.store).published⟩ with
  | none => exact Or.inl (List.append_nil _)
  | some conn =>
      rw [hopt, List.length_append] at hle
      refine Or.inr ⟨fun c c' hpeers => ?_, ?_⟩
      · have htwo : w.admitted.length = 2 := by
          rcases hpeers with heq | heq
          · rw [heq]
            rfl
          · rw [heq]
            rfl
        rw [htwo, Option.toList_some, List.length_singleton] at hle
        omega
      · rcases published_relay room op w.store with hnone | ⟨sender, payload, peer, rfl, -⟩
        · exact hnone
        · cases hopt

/-- All links get what was published, and link `i` its reply. -/
theorem modify_publish (links : List Link) (published : List (String × LabEvent)) (i : Nat)
    (reply : Link → Link) :
    (links.map (Link.publish frame published)).modify i reply =
      links.mapIdx fun j l =>
        if j = i then reply (l.publish frame published) else l.publish frame published := by
  refine List.ext_getElem? fun j => ?_
  rw [List.getElem?_modify, List.getElem?_mapIdx, List.getElem?_map]
  cases links[j]? with
  | none => rfl
  | some l =>
      by_cases hj : i = j
      · simp [hj]
      · simp [hj, Ne.symm hj]

/-- The signal of a link's frame is relayed to its peer alone. -/
theorem relayedTo_signal {i : Nat} {k l : Link} {sender payload peer : String}
    {signal : Signal} {g : Nat → Link → Link} (h : n.Ok room) (hinv : RoomInv room n.lab)
    (hone : (LabOp.exec room n.lab.store (.signal sender payload)).published =
      [(peer, .relayed payload)])
    (hk : n.links[i]? = some k) (hconn : k.conn = sender)
    (hrelay : relayOf (some frame) = some signal)
    (htaken : k.taken ++ [frame] <+: (g i k).taken) :
    RelayedTo n frame g (LabOp.exec room n.lab.store (.signal sender payload)).published l := by
  by_cases hpeer : peer = l.conn
  · subst hpeer
    have hmem : (l.conn, LabEvent.relayed payload) ∈
        (LabOp.exec room n.lab.store (.signal sender payload)).published := by
      rw [hone]
      exact List.mem_cons_self
    obtain ⟨sender', heq, hpeers, -, -⟩ := hinv.relay hmem
    cases heq
    refine Or.inr ⟨sender, signal, hpeers, hrelay, ?_, fun j p hj hsender => ?_⟩
    · rw [hone]
      simp [inbox, LabEvent.envelope, hrelay]
    · -- the sender is the link whose frame was read
      have hsame : j = i := by
        have hlt : j < (n.links.map Link.conn).length := by
          rw [List.length_map]
          exact (List.getElem?_eq_some_iff.mp hj).1
        refine (List.getElem?_inj hlt h.conns).mp ?_
        rw [List.getElem?_map, List.getElem?_map, hj, hk]
        exact congrArg some (hsender.trans hconn.symm)
      subst hsame
      rw [hk] at hj
      obtain rfl := Option.some.inj hj
      exact htaken
  · refine Or.inl ?_
    rw [hone]
    simp [inbox, hpeer]

theorem Network.Ok.script {i : Nat} {after : Nat → Link → Link} (h : n.Ok room)
    (hscript : n.script room op frame i after = some n')
    (hframe : Web.foundOf (some frame) = none) (hready : isReady (some frame) = false)
    (hjoin : ∀ conn, op = .join conn → conn ∈ n.links.map Link.conn)
    (hafter : ∀ l reply, n.links[i]? = some l → ∀ published,
      Passage room [] (l.publish frame published) (after reply (l.publish frame published)))
    (hsignal : ∀ sender payload, op = .signal sender payload → ∃ l signal,
      n.links[i]? = some l ∧ l.conn = sender ∧ relayOf (some frame) = some signal ∧
      ∀ reply published, l.taken ++ [frame] <+: (after reply (l.publish frame published)).taken) :
    n'.Ok room := by
  obtain ⟨hop, hscript⟩ := Option.ite_none_right_eq_some.mp hscript
  obtain rfl := Option.some.inj hscript
  obtain ⟨ops, hrun⟩ := h.lab
  have hinv : RoomInv room n.lab := roomInv_run hrun
  have hstep : (labMachine room).step n.lab op = some (n.lab.after room op) :=
    labStep_eq_some.mpr ⟨hop, rfl⟩
  let published := (op.exec room n.lab.store).published
  let reply := (op.exec room n.lab.store).reply
  show Network.Ok room ⟨n.lab.after room op,
    (n.links.map (Link.publish frame published)).modify i (after reply)⟩
  rw [modify_publish]
  refine h.update frame published ⟨ops ++ [op], ?_⟩ (fun c hc => ?_)
    hframe hready founds_after (admitted_script hinv hop) (fun j l hl => ?_) (fun l hl => ?_)
  · exact Machine.runFrom_concat_eq_some.mpr ⟨n.lab, hrun, hstep⟩
  · rw [admitted_after, List.mem_append, Option.mem_toList] at hc
    rcases hc with hc | hc
    · exact h.admitted c hc
    · cases op with
      | join conn =>
          obtain ⟨-, hc⟩ := Option.ite_none_left_eq_some.mp hc
          exact Option.some.inj hc ▸ hjoin conn rfl
      | create | signal _ _ | leave _ | heartbeat _ | tick _ => cases hc
  · have hpublish : Passage room (inbox l.conn frame published) l (l.publish frame published) :=
      Passage.publish l published
    show Passage room (inbox l.conn frame published) l
      (if j = i then after reply (l.publish frame published) else l.publish frame published)
    split
    · next hj =>
        subst hj
        exact hpublish.trans (hafter l reply hl published)
    · exact hpublish
  · rcases published_relay room op n.lab.store with hnone | ⟨sender, payload, peer, rfl, hone⟩
    · exact Or.inl (inbox_relays_nil hnone)
    · obtain ⟨k, signal, hk, hconn, hrelay, htaken⟩ := hsignal sender payload rfl
      refine relayedTo_signal h hinv hone hk hconn hrelay ?_
      rw [if_pos rfl]
      exact htaken reply published

end

end OneMinute.Signaling
