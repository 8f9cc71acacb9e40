/-
  OneMinute.Signaling.Agreement

  The two sessions of a room agree on their descriptions, and each gets the
  candidates of the other, in all runs of the lab.

  One of the two is told to offer, once; so there is one offer and one answer at
  most (`Network.Ok.made`), and who has a remote description has the local one of
  the other.
-/

import OneMinute.Signaling.Passage

namespace OneMinute.Signaling

open Web (Candidate Description Envelope LabInput LabSession Signal candidateOf descriptionOf
  isReady labSession)

section
variable {room conn : String} {n n' : Network} {op : LabOp}

/-! ## What the server does -/

theorem publish_fields (frame : Envelope) (l : Link) (published : List (String × LabEvent)) :
    (l.publish frame published).session = l.session ∧
      (l.publish frame published).read = l.read ∧
      (l.publish frame published).stage = l.stage := by
  unfold Link.publish
  split
  · exact ⟨rfl, rfl, rfl⟩
  · exact ⟨rfl, rfl, rfl⟩

/-- A frame is read, and the connection goes on. -/
theorem Passage.read_stage {l : Link} {e : Envelope} {stage : LabStage}
    (h : l.session.sent[l.read]? = some e)
    (hstage : stage = .accepted ∨ stage = .joined → l.stage = .accepted ∨ l.stage = .joined) :
    Passage room [] l { l with stage, read := l.read + 1 } :=
  (Passage.read_succ h).trans (Passage.stage { l with read := l.read + 1 } hstage)

/-- A frame is read and refused. -/
theorem Passage.refuse {l : Link} {e : Envelope} {stage : LabStage}
    (h : l.session.sent[l.read]? = some e) (matchID : String)
    (hstage : stage = .over ∨ stage = .leaving) :
    Passage room [] l { l.write ⟨matchID, .error⟩ with stage, read := l.read + 1 } := by
  refine (Passage.write l rfl rfl rfl).trans (Passage.read_stage (e := e) h fun hor => ?_)
  rcases hstage with rfl | rfl <;> rcases hor with hst | hst <;> cases hst

theorem Network.Ok.join {i : Nat} {l : Link} {accepts : Envelope → Bool} {fate : Fate}
    (h : n.Ok room) (hl : n.links[i]? = some l) (hstage : l.stage = .accepted)
    (hjoin : n.join room accepts i l fate = some n') : n'.Ok room := by
  obtain ⟨e, he, hjoin⟩ := Option.bind_eq_some_iff.mp hjoin
  have hsame : ∀ {l' : Link}, n.links[i]? = some l' → l' = l := by
    intro l' hl'
    rw [hl] at hl'
    exact (Option.some.inj hl').symm
  have hrefuse : ∀ matchID, Network.Ok room { n with links := n.links.modify i fun l =>
      { l.write ⟨matchID, .error⟩ with stage := .over, read := l.read + 1 } } := by
    intro matchID
    refine h.modify i fun l' hl' => ?_
    rw [hsame hl']
    exact Passage.refuse he matchID (Or.inl rfl)
  dsimp only at hjoin
  split at hjoin
  · obtain rfl := Option.some.inj hjoin
    exact hrefuse ""
  · split at hjoin
    · obtain rfl := Option.some.inj hjoin
      exact hrefuse room
    · refine h.script hjoin rfl rfl (fun conn hop => ?_) (fun l' reply hl' published => ?_)
        fun _ _ hop => by cases hop
      · cases hop
        exact List.mem_map_of_mem (List.mem_of_getElem? hl)
      · rw [hsame hl']
        obtain ⟨hsession, hread, hst⟩ := publish_fields noFrame l published
        generalize l.publish noFrame published = l₁ at hsession hread hst
        have he' : l₁.session.sent[l₁.read]? = some e := by
          rw [hsession, hread]
          exact he
        split
        · exact Passage.refuse he' room (Or.inl rfl)
        · exact Passage.read_stage he' fun _ => Or.inl (hst.trans hstage)

theorem Network.Ok.serve {i : Nat} {l : Link} {accepts : Envelope → Bool}
    {marshal : Envelope → String} {fate : Fate} (h : n.Ok room) (hl : n.links[i]? = some l)
    (hserve : n.serve room accepts marshal i l fate = some n') : n'.Ok room := by
  obtain ⟨e, he, hserve⟩ := Option.bind_eq_some_iff.mp hserve
  have hsame : ∀ {l' : Link}, n.links[i]? = some l' → l' = l := by
    intro l' hl'
    rw [hl] at hl'
    exact (Option.some.inj hl').symm
  have hleave : Network.Ok room { n with links := n.links.modify i fun l =>
      { l with stage := .leaving, read := l.read + 1 } } := by
    refine h.modify i fun l' hl' => ?_
    rw [hsame hl']
    exact Passage.read_stage he fun hor => by rcases hor with hst | hst <;> cases hst
  have hreject : Network.Ok room { n with links := n.links.modify i fun l =>
      { l.write ⟨room, .error⟩ with stage := .leaving, read := l.read + 1 } } := by
    refine h.modify i fun l' hl' => ?_
    rw [hsame hl']
    exact Passage.refuse he room (Or.inr rfl)
  -- what a script's reply does to the link that its publication has reached
  have hafter : ∀ (frame : Envelope) (published : List (String × LabEvent)) (l₁ : Link),
      l.publish frame published = l₁ → l₁.session.sent[l₁.read]? = some e := by
    rintro frame published l₁ rfl
    obtain ⟨hsession, hread, -⟩ := publish_fields frame l published
    rw [hsession, hread]
    exact he
  have hrelay : ∀ signal, relayOf (some e) = some signal →
      n.script room (.signal l.conn (marshal e)) e i (fun reply l =>
        if fate = .lost ∨ reply = 0 then
          { l.write ⟨room, .error⟩ with stage := .leaving, read := l.read + 1 }
        else { l with read := l.read + 1 }) = some n' → n'.Ok room := by
    intro signal hsignal hscript
    have hkind : Web.foundOf (some e) = none ∧ isReady (some e) = false := by
      obtain ⟨matchID, kind⟩ := e
      cases kind <;> first | exact ⟨rfl, rfl⟩ | cases hsignal
    refine h.script hscript hkind.1 hkind.2 (fun _ hop => by cases hop)
      (fun l' reply hl' published => ?_) fun sender payload hop => ?_
    · rw [hsame hl']
      have he' := hafter e published _ rfl
      split
      · exact Passage.refuse he' room (Or.inr rfl)
      · exact Passage.read_succ he'
    · cases hop
      refine ⟨l, signal, hl, rfl, hsignal, fun reply published => ?_⟩
      obtain ⟨hsession, hread, -⟩ := publish_fields e l published
      have htaken : (l.publish e published).session.sent.take
          ((l.publish e published).read + 1) = l.taken ++ [e] := by
        rw [hsession, hread]
        exact taken_succ he
      split
      · exact htaken ▸ List.prefix_refl _
      · exact htaken ▸ List.prefix_refl _
  obtain ⟨matchID, kind⟩ := e
  dsimp only at hserve
  split at hserve
  · obtain rfl := Option.some.inj hserve
    exact hreject
  · cases kind with
    | heartbeat =>
        dsimp only at hserve
        split at hserve
        · obtain rfl := Option.some.inj hserve
          exact hleave
        · refine h.script hserve rfl rfl (fun _ hop => by cases hop)
            (fun l' reply hl' published => ?_) fun _ _ hop => by cases hop
          rw [hsame hl']
          have he' := hafter noFrame published _ rfl
          split
          · exact Passage.read_stage he' fun hor => by rcases hor with hst | hst <;> cases hst
          · exact Passage.read_stage he' fun hor => by rcases hor with hst | hst <;> cases hst
    | leave =>
        obtain rfl := Option.some.inj hserve
        exact hleave
    | description d =>
        dsimp only at hserve
        split at hserve
        · obtain rfl := Option.some.inj hserve
          exact hleave
        · split at hserve
          · obtain rfl := Option.some.inj hserve
            exact hreject
          · exact hrelay _ rfl hserve
    | ice c =>
        dsimp only at hserve
        split at hserve
        · obtain rfl := Option.some.inj hserve
          exact hleave
        · split at hserve
          · obtain rfl := Option.some.inj hserve
            exact hreject
          · exact hrelay _ rfl hserve
    | join _ | ready | found _ | ended | error =>
        obtain rfl := Option.some.inj hserve
        exact hreject

/-- A step of one link. -/
theorem Network.Ok.atLink {i : Nat} {f : Link → Option Link} (h : n.Ok room)
    (hstep : n.atLink i f = some n')
    (hpass : ∀ l l', f l = some l' → Passage room [] l l') : n'.Ok room := by
  obtain ⟨l, hl, hstep⟩ := Option.bind_eq_some_iff.mp hstep
  obtain ⟨l', hf, rfl⟩ := Option.map_eq_some_iff.mp hstep
  have heq : n.links.set i l' = n.links.modify i fun _ => l' := by
    refine List.ext_getElem? fun j => ?_
    rw [List.getElem?_modify, List.getElem?_set]
    by_cases hj : i = j
    · subst hj
      simp [(List.getElem?_eq_some_iff.mp hl).1]
    · simp [hj]
  rw [heq]
  refine h.modify i fun l₁ hl₁ => ?_
  rw [hl] at hl₁
  obtain rfl := Option.some.inj hl₁
  exact hpass l l' hf

theorem Network.Ok.connect (h : n.Ok room)
    (hnew : (n.links.any fun l => decide (l.conn = conn)) = false) :
    Network.Ok room { n with links := n.links ++ [⟨{ room }, conn, .accepted, 0, [], []⟩] } := by
  have hfresh : conn ∉ n.links.map Link.conn := by
    intro hconn
    obtain ⟨l, hl, heq⟩ := List.mem_map.mp hconn
    exact List.any_eq_false.mp hnew l hl (decide_eq_true heq)
  have hmem : ∀ l, l ∈ n.links ++ [⟨{ room }, conn, .accepted, 0, [], []⟩] →
      l ∈ n.links ∨ l = ⟨{ room }, conn, .accepted, 0, [], []⟩ := fun l hl => by simpa using hl
  constructor
  · exact h.lab
  · intro l hl
    rcases hmem l hl with hl | rfl
    · exact h.session l hl
    · exact ⟨[], rfl⟩
  · show ((n.links ++ [_]).map Link.conn).Nodup
    rw [List.map_append, List.nodup_append]
    refine ⟨h.conns, List.nodup_singleton _, ?_⟩
    rintro c hc c' hc' rfl
    obtain rfl : c = conn := List.mem_singleton.mp hc'
    exact hfresh hc
  · intro c hc
    show c ∈ (n.links ++ [_]).map Link.conn
    rw [List.map_append]
    exact List.mem_append_left _ (h.admitted c hc)
  · intro l hl
    rcases hmem l hl with hl | rfl
    · exact h.read l hl
    · exact Nat.le_refl 0
  · intro l hl p hp hpeers
    rcases hmem l hl with hl | rfl
    · rcases hmem p hp with hp | rfl
      · exact h.fed l hl p hp hpeers
      · -- nobody was admitted under the new id
        refine absurd (h.admitted conn ?_) hfresh
        rcases hpeers with heq | heq
        · exact heq ▸ List.mem_cons_self
        · exact heq ▸ List.mem_cons_of_mem _ List.mem_cons_self
    · exact List.nil_sublist _
  · intro l hl hnone
    rcases hmem l hl with hl | rfl
    · exact h.unfed l hl hnone
    · rfl
  · intro l hl
    rcases hmem l hl with hl | rfl
    · exact h.told l hl
    · exact List.nil_sublist _
  · intro l hl
    rcases hmem l hl with hl | rfl
    · exact h.ready l hl
    · exact ⟨Nat.zero_le _, fun _ => rfl⟩

/-! ## Every run -/

/-- A script that no link asks for. -/
theorem Network.Ok.quiet {i : Nat} (h : n.Ok room)
    (hscript : n.script room op noFrame i (fun _ => id) = some n')
    (hjoin : ∀ conn, op ≠ .join conn) (hsignal : ∀ sender payload, op ≠ .signal sender payload) :
    n'.Ok room :=
  h.script hscript rfl rfl (fun conn hop => absurd hop (hjoin conn))
    (fun _ _ _ _ => Passage.refl room _)
    fun sender payload hop => absurd hop (hsignal sender payload)

theorem Passage.check (l : Link) (fate : Fate) :
    Passage room [] l (n.check room fate l) := by
  unfold Network.check
  split
  · exact Passage.stage l fun hor => by rcases hor with hst | hst <;> cases hst
  · exact (Passage.write l rfl rfl rfl).trans
      (Passage.stage _ fun hor => by rcases hor with hst | hst <;> cases hst)

/-- The forwarder passes a message on. -/
theorem Passage.forward {l : Link} {e : Envelope} {queue : List Envelope}
    (hqueue : l.queue = e :: queue) : Passage room [] l { l.write e with queue } := by
  refine Passage.of_flow rfl rfl rfl ?_ id
  simp [Link.flow, Link.write, hqueue]

theorem Passage.lose {l : Link} {e : Envelope} {queue : List Envelope}
    (hqueue : l.queue = e :: queue) : Passage room [] l { l with queue } := by
  refine Passage.of_flow rfl rfl rfl ?_ id
  simp [Link.flow, hqueue]

theorem Network.Ok.leave {i : Nat} {l : Link} {fate : Fate} (h : n.Ok room)
    (hleave : n.leave room i l fate = some n') : n'.Ok room := by
  have hover : ∀ l : Link, Passage room [] l { l with stage := .over } := fun l =>
    Passage.stage l fun hor => by rcases hor with hst | hst <;> cases hst
  unfold Network.leave at hleave
  split at hleave
  · obtain rfl := Option.some.inj hleave
    exact h.modify i fun l _ => hover l
  · exact h.script hleave rfl rfl (fun _ hop => by cases hop) (fun _ _ _ _ => hover _)
      fun _ _ hop => by cases hop

theorem Network.Ok.step {accepts : Envelope → Bool} {marshal : Envelope → String}
    {action : LabAction} (h : n.Ok room)
    (hstep : n.step room accepts marshal action = some n') : n'.Ok room := by
  cases action with
  | create => exact h.quiet hstep (fun _ hop => by cases hop) fun _ _ hop => by cases hop
  | tick d => exact h.quiet hstep (fun _ hop => by cases hop) fun _ _ hop => by cases hop
  | connect conn =>
      obtain ⟨hnew, heq⟩ := Option.ite_none_left_eq_some.mp hstep
      exact Option.some.inj heq ▸ h.connect (Bool.not_eq_true _ ▸ hnew)
  | client i input =>
      refine h.atLink hstep fun l l' hf => ?_
      obtain ⟨harrived, hf⟩ := Option.ite_none_right_eq_some.mp hf
      obtain ⟨session, hsession, rfl⟩ := Option.map_eq_some_iff.mp hf
      exact Passage.input hsession (by rw [harrived]; rfl)
  | deliver i =>
      refine h.atLink hstep fun l l' hf => ?_
      split at hf
      · cases hf
      · next e down hdown =>
          obtain ⟨session, hsession, rfl⟩ := Option.map_eq_some_iff.mp hf
          exact Passage.input hsession (by rw [hdown]; rfl)
  | join i fate =>
      obtain ⟨l, hl, hstep⟩ := Option.bind_eq_some_iff.mp hstep
      obtain ⟨hstage, hstep⟩ := Option.ite_none_right_eq_some.mp hstep
      exact h.join hl hstage hstep
  | configure i sent =>
      refine h.atLink hstep fun l l' hf => ?_
      obtain ⟨hstage, hf⟩ := Option.ite_none_right_eq_some.mp hf
      exact Option.some.inj hf ▸ Passage.configure sent hstage
  | serve i fate =>
      obtain ⟨l, hl, hstep⟩ := Option.bind_eq_some_iff.mp hstep
      exact h.serve hl (Option.ite_none_right_eq_some.mp hstep).2
  | check i fate =>
      refine h.atLink hstep fun l l' hf => ?_
      obtain ⟨-, hf⟩ := Option.ite_none_right_eq_some.mp hf
      exact Option.some.inj hf ▸ Passage.check l fate
  | forward i =>
      refine h.atLink hstep fun l l' hf => ?_
      split at hf
      · cases hf
      · next e queue hqueue =>
          exact Option.some.inj (Option.ite_none_right_eq_some.mp hf).2 ▸ Passage.forward hqueue
  | lose i =>
      refine h.atLink hstep fun l l' hf => ?_
      split at hf
      · cases hf
      · next e queue hqueue => exact Option.some.inj hf ▸ Passage.lose hqueue
  | quit i =>
      refine h.atLink hstep fun l l' hf => ?_
      have hstage : ∀ stage, stage = LabStage.over ∨ stage = .leaving →
          Passage room [] l { l with stage } := by
        intro stage hst
        refine Passage.stage l fun hor => ?_
        rcases hst with rfl | rfl <;> rcases hor with hst | hst <;> cases hst
      split at hf
      · exact Option.some.inj hf ▸ hstage _ (Or.inl rfl)
      all_goals first
        | exact Option.some.inj hf ▸ hstage _ (Or.inr rfl)
        | cases hf
  | leave i fate =>
      obtain ⟨l, hl, hstep⟩ := Option.bind_eq_some_iff.mp hstep
      exact h.leave (Option.ite_none_right_eq_some.mp hstep).2

def descriptionIn : Signal → Option Description
  | .description d => some d
  | _ => none

def candidateIn : Signal → Option Candidate
  | .ice c => some c
  | _ => none

theorem descriptionOf_relay (data : Option Envelope) :
    (relayOf data).bind descriptionIn = descriptionOf data := by
  rcases data with - | ⟨matchID, signal⟩
  · rfl
  · cases signal <;> rfl

theorem candidateOf_relay (data : Option Envelope) :
    (relayOf data).bind candidateIn = candidateOf data := by
  rcases data with - | ⟨matchID, signal⟩
  · rfl
  · cases signal <;> rfl

theorem heard_flow (l : Link) : l.session.heard.Sublist l.flow := by
  rw [Link.flow, List.append_assoc, List.append_assoc]
  exact List.sublist_append_left _ _

theorem filterMap_relay {α : Type} {f : Option Envelope → Option α} {g : Signal → Option α}
    (hfactor : ∀ data, (relayOf data).bind g = f data) (data : List (Option Envelope)) :
    data.filterMap f = (data.filterMap relayOf).filterMap g := by
  rw [List.filterMap_filterMap]
  exact List.filterMap_congr fun data _ => (hfactor data).symm

/-- What is heard of a peer is what it sent, as far as it has come. -/
theorem Network.Ok.relayed {α : Type} {l p : Link} {f : Option Envelope → Option α}
    {g : Signal → Option α} (h : n.Ok room) (hl : l ∈ n.links) (hp : p ∈ n.links)
    (hpeers : Peers n.lab p.conn l.conn) (hfactor : ∀ data, (relayOf data).bind g = f data) :
    (l.session.heard.filterMap f).Sublist (p.session.sent.filterMap fun e => f (some e)) := by
  have htaken : (p.taken.filterMap fun e => f (some e)).Sublist
      (p.session.sent.filterMap fun e => f (some e)) :=
    (List.take_sublist p.read p.session.sent).filterMap _
  have hsource : (p.taken.filterMap fun e => relayOf (some e)).filterMap g =
      p.taken.filterMap fun e => f (some e) := by
    rw [List.filterMap_filterMap]
    exact List.filterMap_congr fun e _ => hfactor (some e)
  have hfed := (h.fed l hl p hp hpeers).filterMap g
  rw [← filterMap_relay hfactor, hsource] at hfed
  exact ((heard_flow l).filterMap f).trans (hfed.trans htaken)

theorem Network.Ok.silent {α : Type} {l : Link} {f : Option Envelope → Option α}
    {g : Signal → Option α} (h : n.Ok room) (hl : l ∈ n.links)
    (hnone : ∀ c, ¬ Peers n.lab c l.conn) (hfactor : ∀ data, (relayOf data).bind g = f data) :
    l.session.heard.filterMap f = [] := by
  have hsub := (heard_flow l).filterMap f
  rw [filterMap_relay hfactor l.flow, h.unfed l hl hnone] at hsub
  exact List.sublist_nil.mp hsub

/-- A session offers as often as it is told to. -/
theorem Network.Ok.offers {l : Link} (h : n.Ok room) (hl : l ∈ n.links) :
    l.session.offers ≤ (toldOf l.conn n.lab.founds).countP id := by
  obtain ⟨inputs, hrun⟩ := h.session l hl
  have hoffers := (Web.descriptions_run hrun).offers
  have htold := (((heard_flow l).filterMap Web.foundOf).trans (h.told l hl)).countP_le (p := id)
  rw [Web.foundCount] at hoffers
  omega

theorem Network.Ok.answers {l : Link} (h : n.Ok room) (hl : l ∈ n.links) :
    l.session.answers ≤
      (l.session.heard.filterMap descriptionOf).countP fun d => d.type.isOffer := by
  obtain ⟨inputs, hrun⟩ := h.session l hl
  exact Nat.le_of_add_right_le (Web.descriptions_run hrun).answers

theorem Network.Ok.added {l p : Link} (h : n.Ok room) (hl : l ∈ n.links) (hp : p ∈ n.links)
    (hpeers : Peers n.lab p.conn l.conn) : l.session.added.Sublist p.session.gathered := by
  obtain ⟨inputs, hrun⟩ := h.session l hl
  obtain ⟨inputs', hrun'⟩ := h.session p hp
  exact (Web.candidates_run hrun).prefix_heard.sublist.trans
    ((h.relayed hl hp hpeers candidateOf_relay).trans (Web.descriptions_run hrun').gathered)

/-- The first one admitted makes one offer at most and no answer, the second one
    an answer at most. -/
theorem Network.Ok.made {a b : Link} (h : n.Ok room) (ha : a ∈ n.links) (hb : b ∈ n.links)
    (hpair : n.lab.admitted = [a.conn, b.conn]) :
    a.session.offers ≤ 1 ∧ a.session.answers = 0 ∧ b.session.offers = 0 ∧
      b.session.answers ≤ 1 := by
  obtain ⟨ops, hrun⟩ := h.lab
  have hinv := roomInv_run hrun
  have hne : a.conn ≠ b.conn := by
    have honce := hinv.once
    rw [hpair] at honce
    simpa using honce
  have hfounds := hinv.founds
  rw [hpair] at hfounds
  have htella : (toldOf a.conn n.lab.founds).countP id = 1 := by
    rw [hfounds]
    simp [pairing, toldOf, Ne.symm hne]
  have htellb : (toldOf b.conn n.lab.founds).countP id = 0 := by
    rw [hfounds]
    simp [pairing, toldOf, hne]
  have hanswer : ∀ {l p : Link}, l ∈ n.links → p ∈ n.links → Peers n.lab p.conn l.conn →
      l.session.answers ≤ p.session.offers := by
    intro l p hl hp hpeers
    obtain ⟨inputs, hrun⟩ := h.session p hp
    exact Nat.le_trans (h.answers hl) (((h.relayed hl hp hpeers descriptionOf_relay).trans
      (Web.descriptions_run hrun).sent).countP_le)
  have hoffera := h.offers ha
  have hofferb := h.offers hb
  have hanswera := hanswer ha hb (Or.inr hpair)
  have hanswerb := hanswer hb ha (Or.inl hpair)
  omega

end

/-- The first one gathers a candidate before its offer is made. -/
def meeting : List LabAction :=
  [.create, .connect "x", .connect "y",
    .client 0 (.media true {}), .client 0 .opened, .client 1 (.media true {}), .client 1 .opened,
    .join 0 .answered, .configure 0 true, .deliver 0, .client 0 (.turn {}),
    .join 1 .answered, .configure 1 true, .deliver 1, .client 1 (.turn {}),
    .forward 0, .deliver 0, .client 0 (.turn {}), .client 0 (.gathered "c"),
    .client 0 (.turn { sdp := "o" }), .client 0 (.turn {}),
    .forward 1, .deliver 1, .client 1 (.turn {}),
    .serve 0 .answered, .forward 1, .deliver 1, .client 1 (.turn {}),
    .serve 0 .answered, .forward 1, .deliver 1, .client 1 (.turn {}), .client 1 (.turn {}),
    .client 1 (.turn {}), .client 1 (.turn { sdp := "a" }), .client 1 (.turn {}),
    .serve 1 .answered, .forward 0, .deliver 0, .client 0 (.turn {}), .client 0 (.turn {})]

end OneMinute.Signaling
