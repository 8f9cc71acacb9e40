/-
  OneMinute.Attempts

  Matchmaking attempts against the other users' re-joins.

  An attempt reads the candidates' entries, computes the match from what it read
  and claims later; the claim script looks at presences, pointers and queue
  places again, but not at the entries.  Entries of one connection change only
  when it joins again, so the match is computed from the preferences in force
  unless such a re-join falls into the attempt (`Settled`), and then it need not
  be (`dating_mismatch`).
-/

import OneMinute.Matchmaking
import OneMinute.Sockets

namespace OneMinute

open Discovery Process

/-! ## What an attempt asks for -/

/-- The entry that an exchange read. -/
def entryRead : Exchange api → Option (UserID × QueuedState)
  | ⟨.queuedState v, some (some state)⟩ => some (v, state)
  | _ => none

/-- The call is no Connect, Enqueue or Claim. -/
def Call.Plain : Call → Prop
  | .store (.connect ..) | .store (.enqueue ..) | .store (.claim _) => False
  | _ => True

/-- The claim is of the preferences `p`, just enqueued, and of an entry that was
    read. -/
structure Computed (u : UserID) (c : ConnectionID) (p : Preferences)
    (tr : List (Exchange api)) (k : Claim) : Prop where
  userA : k.userA = u
  connectionA : k.connectionA = c
  joined : ∃ now, (⟨.store (.enqueue u c p now), some (1 : Int)⟩ : Exchange api) ∈ tr
  read : ∃ e ∈ tr, ∃ q, entryRead e = some (k.userB, ⟨k.connectionB, q⟩) ∧
    compatible p q = true ∧ k.intent = resolvedIntent p.intent q.intent ∧
    k.sharedInterests = sharedInterests p.interests q.interests

theorem Computed.mono {u : UserID} {c : ConnectionID} {p : Preferences}
    {tr tr' : List (Exchange api)} {k : Claim} (h : Computed u c p tr k) (hsub : tr ⊆ tr') :
    Computed u c p tr' k where
  userA := h.userA
  connectionA := h.connectionA
  joined := by
    obtain ⟨now, hnow⟩ := h.joined
    exact ⟨now, hsub hnow⟩
  read := by
    obtain ⟨e, he, hrest⟩ := h.read
    exact ⟨e, hsub he, hrest⟩

/-- The one Connect and the one Enqueue of a program come first; only
    `queue.join` claims. -/
def Ordered (u : UserID) (c : ConnectionID) (stage : Stage) (tr : List (Exchange api)) :
    Call → Prop
  | .store (.connect ..) => stage = .opening ∧ tr = []
  | .store (.enqueue v e p _) => v = u ∧ e = c ∧ stage = .frame (.queueJoin p) ∧ tr = []
  | .store (.claim k) => ∃ p, stage = .frame (.queueJoin p) ∧ Computed u c p tr k
  | _ => True

theorem Call.Plain.ordered {call : Call} (h : call.Plain) (u : UserID) (c : ConnectionID)
    (stage : Stage) (tr : List (Exchange api)) : Ordered u c stage tr call := by
  cases call with
  | store op =>
      cases op with
      | connect | enqueue | claim => exact h.elim
      | _ => trivial
  | _ => trivial

/-- A plain call that does not tell of a recovered match either. -/
def Call.Ordinary : Call → Prop
  | .write (.matchRecovered ..) => False
  | call => call.Plain

theorem Call.Ordinary.plain {call : Call} (h : call.Ordinary) : call.Plain := by
  cases call with
  | store op => exact h
  | _ => trivial

section
variable {u : UserID} {c : ConnectionID} {tr : List (Exchange api)}

/-- A program without Connect, Enqueue and Claim. -/
abbrev Plain {α : Type} (tr : List (Exchange api)) (p : Proc α) : Prop :=
  Always (fun _ call => Call.Plain call) tr p fun _ _ => True

/-- A program of ordinary calls. -/
abbrev Routine {α : Type} (tr : List (Exchange api)) (p : Proc α) : Prop :=
  Always (fun _ call => Call.Ordinary call) tr p fun _ _ => True

theorem routine_tell_done {α : Type} {e : Event} {a : α} (he : Call.Ordinary (.write e)) :
    Routine tr (do tell e; return a) :=
  always_bind (always_tell he fun _ => trivial)

theorem routine_persistVotes {m : MatchID} : Routine tr (persistVotes u m) := by
  refine always_currentMatch_bind (fun _ => trivial) (fun _ _ => trivial) fun tr r => ?_
  match r with
  | none => trivial
  | some none => trivial
  | some (some current) =>
      dsimp only
      split
      · trivial
      · refine always_bind (always_persist (fun _ _ => trivial) fun _ _ r => ?_)
        match r with
        | none => exact routine_tell_done trivial
        | some durableID => exact always_bind (always_script (fun _ => trivial) fun _ _ => trivial)

theorem routine_matchConnect {m : MatchID} : Routine tr (matchConnect u c m) := by
  refine always_bind (always_script (fun _ => trivial) fun _ r => ?_)
  match r with
  | none => exact routine_tell_done trivial
  | some result =>
      dsimp only
      split
      · exact routine_tell_done trivial
      · split
        · exact routine_tell_done trivial
        · split
          · exact always_recallConnection (fun _ => trivial) (fun _ _ => trivial) fun _ _ => trivial
          · split
            · exact routine_persistVotes
            · trivial

theorem routine_matchExtend {m : MatchID} : Routine tr (matchExtend u c m) := by
  refine always_bind (always_script (fun _ => trivial) fun _ r => ?_)
  match r with
  | none => exact routine_tell_done trivial
  | some result =>
      dsimp only
      split
      · exact routine_tell_done trivial
      · split
        · exact routine_tell_done trivial
        · trivial

theorem routine_handle {user : Profile} {f : Frame} (hf : ∀ p, f ≠ .queueJoin p) :
    Routine tr (handle user c f) := by
  cases f with
  | queueJoin p => exact absurd rfl (hf p)
  | heartbeat =>
      refine always_bind (always_script (fun _ => trivial) fun _ r => ?_)
      split <;> trivial
  | queueLeave =>
      refine always_bind (always_script (fun _ => trivial) fun _ r => ?_)
      split
      · trivial
      · exact routine_tell_done trivial
  | webrtc env =>
      dsimp only [handle]
      split
      · trivial
      · refine always_bind (always_script (fun _ => trivial) fun _ r => ?_)
        split
        · trivial
        · exact routine_tell_done trivial
  | leave m | skip m =>
      dsimp only [handle]
      split
      · trivial
      · exact always_bind (always_script (fun _ => trivial) fun _ _ => trivial)
  | extend m =>
      dsimp only [handle]
      split
      · trivial
      · exact routine_matchExtend
  | connect m =>
      dsimp only [handle]
      split
      · trivial
      · exact routine_matchConnect
  | invalid => exact routine_tell_done trivial

theorem plain_handle {user : Profile} {f : Frame} (hf : ∀ p, f ≠ .queueJoin p) :
    Plain tr (handle user c f) :=
  (routine_handle hf).allow fun _ _ => Call.Ordinary.plain

theorem ordered_opening {user : Profile} :
    Always (Ordered user.id c .opening) [] (opening user c) fun _ _ => True :=
  always_opening ⟨rfl, rfl⟩ (fun _ => trivial) (fun _ => trivial) (fun _ => trivial)
    (fun _ _ => trivial) (fun _ _ => trivial) (fun _ _ _ => trivial) fun _ _ _ _ _ _ _ _ => trivial

/-- What was read of a candidate is among the exchanges. -/
def ReadIn (tr : List (Exchange api)) (q : QueuedUser) : Prop :=
  ∃ e ∈ tr, entryRead e = some (q.id, ⟨q.connectionID, q.preferences⟩)

theorem ReadIn.mono {tr tr' : List (Exchange api)} {q : QueuedUser} (h : ReadIn tr q)
    (hsub : tr ⊆ tr') : ReadIn tr' q := by
  obtain ⟨e, he, hread⟩ := h
  exact ⟨e, hsub he, hread⟩

/-- Candidates returns entries that it read. -/
theorem always_scan_read {P : List (Exchange api) → Call → Prop}
    (hP : ∀ tr call, call.Ordinary → P tr call) (items : List (UserID × Int))
    (tr : List (Exchange api)) :
    Always P tr (scan u items) fun tr' found =>
      ∀ q ∈ found, ReadIn tr' q := by
  induction items generalizing tr with
  | nil => exact fun q hq => absurd hq List.not_mem_nil
  | cons item rest ih =>
      obtain ⟨id, score⟩ := item
      unfold scan
      split
      · exact ih tr
      · refine always_bind (always_call (hP _ _ trivial) fun r => ?_)
        rcases r with _ | _ | state
        · exact ih _
        · exact ih _
        · dsimp only
          split
          · exact ih _
          · refine always_bind (always_call (hP _ _ trivial) fun r => ?_)
            split
            · exact always_bind (always_script (fun _ => hP _ _ trivial) fun _ _ => ih _)
            · refine always_bind ((ih _).grows.post fun tr' found hfound => ?_)
              intro q hq
              rcases List.mem_cons.mp hq with rfl | hq
              · -- the entry itself was read two calls ago
                exact ⟨_, hfound.2 (List.mem_cons_of_mem _ List.mem_cons_self), rfl⟩
              · exact hfound.1 q hq

/-- A claim computes the match from what was read of its candidate. -/
theorem ordered_claimCandidate {user : Profile} {p : Preferences} {now : UnixMilli}
    {q : QueuedUser} (second : Bool) (tr : List (Exchange api))
    (hjoined : (⟨.store (.enqueue user.id c p now), some (1 : Int)⟩ : Exchange api) ∈ tr)
    (hread : ReadIn tr q) (hcompatible : compatible p q.preferences = true) :
    Always (Ordered user.id c (.frame (.queueJoin p))) tr (claimCandidate user c p q second)
      fun _ _ => True := by
  refine always_bind (always_call trivial fun r => ?_)
  match r with
  | none => trivial
  | some false => trivial
  | some true =>
      refine always_bind (always_call trivial fun r => ?_)
      match r with
      | none => trivial
      | some candidateProfile =>
          refine always_bind (always_script (fun d => ⟨p, rfl, ?_⟩) fun _ _ => trivial)
          obtain ⟨e, he, hq⟩ := hread
          have hcomputed : Computed user.id c p tr
              (newClaim user c p q candidateProfile second d.id d.now) :=
            ⟨rfl, rfl, ⟨now, hjoined⟩, e, he, q.preferences, hq, hcompatible, rfl, rfl⟩
          exact (hcomputed.mono (List.subset_cons_self _ _)).mono (List.subset_cons_self _ _)

theorem ordered_tryPass {user : Profile} {p : Preferences} {second : Bool} {now : UnixMilli}
    (l : List QueuedUser) (tr : List (Exchange api))
    (hjoined : (⟨.store (.enqueue user.id c p now), some (1 : Int)⟩ : Exchange api) ∈ tr)
    (hread : ∀ q ∈ l, ReadIn tr q) :
    Always (Ordered user.id c (.frame (.queueJoin p))) tr (tryPass user c p second l)
      fun _ _ => True :=
  always_tryPass l tr (fun _ _ => trivial) fun q hq hcompatible tr' hsub =>
    ordered_claimCandidate second tr' (hsub hjoined) ((hread q hq).mono hsub) hcompatible

theorem ordered_tryMatch {user : Profile} {p : Preferences} {now : UnixMilli}
    (tr : List (Exchange api))
    (hjoined : (⟨.store (.enqueue user.id c p now), some (1 : Int)⟩ : Exchange api) ∈ tr) :
    Always (Ordered user.id c (.frame (.queueJoin p))) tr (tryMatch user c p)
      fun _ _ => True := by
  refine always_bind ?_
  unfold candidates
  refine always_bind (always_call trivial fun r => ?_)
  match r with
  | none => trivial
  | some items =>
      refine always_bind ((always_scan_read (fun _ _ h => h.plain.ordered _ _ _ _) items
        _).grows.post fun tr₁ found hfound => ?_)
      have hjoined₁ := hfound.2 (List.mem_cons_of_mem _ hjoined)
      have hread : ∀ q ∈ sortCandidates p found, ReadIn tr₁ q := fun q hq =>
        hfound.1 q ((List.mem_insertionSort _).mp hq)
      refine always_bind ((ordered_tryPass _ tr₁ hjoined₁ hread).grows.post
        fun tr₂ claimed hgrow => ?_)
      match claimed with
      | none => trivial
      | some true => trivial
      | some false =>
          refine always_bind ((ordered_tryPass _ tr₂ (hgrow.2 hjoined₁)
            fun q hq => (hread q hq).mono hgrow.2).post fun _ _ _ => trivial)

theorem ordered_queueJoin {user : Profile} {p : Preferences} :
    Always (Ordered user.id c (.frame (.queueJoin p))) [] (queueJoin user c p)
      fun _ _ => True :=
  always_queueJoin (fun _ => ⟨rfl, rfl, rfl, rfl⟩) (fun _ _ => trivial) (fun _ _ => trivial)
    fun _ tr' hjoined => ordered_tryMatch tr' hjoined

/-- Every program of a session keeps this order. -/
theorem ordered_program {user : Profile} (stage : Stage) :
    Always (Ordered user.id c stage) [] (stage.program user c) fun _ _ => True := by
  cases stage with
  | opening => exact ordered_opening
  | frame f =>
      by_cases hf : ∃ p, f = .queueJoin p
      · obtain ⟨p, rfl⟩ := hf
        exact ordered_queueJoin
      · exact (plain_handle fun p e => hf ⟨p, e⟩).allow fun _ _ h => h.ordered _ _ _ _
  | cleanup => exact always_bind (always_script (fun _ => trivial) fun _ _ => trivial)

end

/-! ## The sessions of the next state -/

/-- The connection whose Connect or Enqueue an operation is. -/
def Discovery.Op.joins : Op → Option ConnectionID
  | .connect _ c | .enqueue _ c _ _ => some c
  | _ => none

/-- A session of the next state: one that the step is not of, a new one, one at
    the start of a frame or of its cleanup, or the one that made the call. -/
inductive Onward (x : System) (a : Action) : Session → Prop where
  | other (s : Session) (hs : s ∈ x.sessions)
      (hop : ∀ op, x.effect a = some op → op.joins ≠ some s.connection) : Onward x a s
  | opened (s : Session) (hnew : s.connection ∉ x.sessions.map Session.connection)
      (htr : s.trace = []) (heff : x.effect a = none) : Onward x a s
  | begun (s : Session) (htr : s.trace = []) (hst : s.stage ≠ .opening) : Onward x a s
  | own (s s' : Session) (fault : Fault) (call : Call) (hs : s ∈ x.sessions)
      (hm : x.makes a = some (fault, call))
      (hord : Ordered s.user.id s.connection s.stage s.trace call)
      (hrun : ∃ p, s.activity = .running p) (hst : s'.stage = s.stage) (hwho : s'.who = s.who)
      (htr : s'.trace = ⟨call, (x.env.perform fault call).2⟩ :: s.trace) : Onward x a s'

/-- A settled session goes on as it was, or starts its cleanup. -/
theorem Session.settle_cases (s : Session) (clock : Nat) (p : Proc Next) :
    ((s.settle clock p).stage = s.stage ∧ (s.settle clock p).trace = s.trace) ∨
      ((s.settle clock p).stage = .cleanup ∧ (s.settle clock p).trace = []) := by
  match p with
  | .done .read | .done .gone | .ask _ _ => exact Or.inl ⟨rfl, rfl⟩
  | .done .stop => exact Or.inr ⟨rfl, rfl⟩

theorem Session.receive_cases (s : Session) (clock : Nat) (b : Bool) (e : Exchange api)
    (p : Proc Next) :
    ((s.receive clock b e p).stage = s.stage ∧ (s.receive clock b e p).trace = e :: s.trace) ∨
      ((s.receive clock b e p).stage = .cleanup ∧ (s.receive clock b e p).trace = []) :=
  Session.settle_cases _ _ _

theorem Session.start_stage {s : Session} {clock : Nat} {stage : Stage} (h : stage ≠ .opening) :
    (s.start clock stage).stage ≠ .opening := by
  rcases Session.settle_cases { s with stage, trace := [] } clock
    (stage.program s.user s.connection) with ⟨hst, _⟩ | ⟨hst, _⟩
  · intro e
    exact h (hst.symm.trans e)
  · intro e
    cases hst.symm.trans e

section
variable {x x' : System} {a : Action}

/-- A session's Connect and Enqueue are of its own connection. -/
theorem joins_of_allowed {u : UserID} {c : ConnectionID} {tr : List (Exchange api)} {op : Op}
    (h : Allowed u c tr (.store op)) {e : ConnectionID} (he : op.joins = some e) : e = c := by
  rcases h with hd | ⟨now, hop⟩
  · cases op with
    | connect v f | enqueue v f =>
        cases he
        exact hd.1.2
    | _ => cases he
  · cases hop
    cases he

theorem onward_of_move (h : x.Sound) (hmv : Move x a x') {s' : Session}
    (hs' : s' ∈ x'.sessions) : Onward x a s' := by
  cases hmv with
  | accept user c hnew =>
      rcases List.mem_append.mp hs' with hs' | hs'
      · exact .other s' hs' fun op hop => by cases hop
      · rw [List.mem_singleton.mp hs']
        refine .opened _ ?_ (Session.start_trace _ _ _) rfl
        rw [Session.start_connection]
        exact hnew
  | frame i f s since hs ha ht =>
      rcases List.mem_or_eq_of_mem_set hs' with hs' | rfl
      · exact .other s' hs' fun op hop => by cases hop
      · exact .begun _ (Session.start_trace _ _ _) (Session.start_stage fun e => by cases e)
  | hangup i s since hs ha =>
      rcases List.mem_or_eq_of_mem_set hs' with hs' | rfl
      · exact .other s' hs' fun op hop => by cases hop
      · exact .begun _ (Session.start_trace _ _ _) (Session.start_stage fun e => by cases e)
  | turn i d fault s c k hs ha hfresh =>
      have hmem := List.mem_of_getElem? hs
      have hm : x.makes (.turn i d fault) = some (fault, c d) := makes_turn hs ha
      rcases kept_or_replaced h hs hs' with rfl | ⟨hs', hne⟩
      · have hord := ((ordered_program s.stage).unfolds ((h.sessions s hmem).running _ ha) d).1
        rcases s.receive_cases x.clock
            (decide (fault ≠ .failed) && (c d).refreshes x.store)
            ⟨c d, (x.env.perform fault (c d)).2⟩ (k d (x.env.perform fault (c d)).2) with
          ⟨hst, htr⟩ | ⟨hst, htr⟩
        · exact .own s _ fault (c d) hmem hm hord ⟨_, ha⟩ hst (by simp [Session.who]) htr
        · exact .begun _ htr (by rw [hst]; exact fun e => by cases e)
      · refine .other s' hs' fun op hop hjoins => ?_
        rcases System.effect_eq_some hop with ⟨d, e, _⟩ | ⟨fault', hm', _⟩
        · cases e
        · rw [hm] at hm'
          have hcall : c d = .store op := congrArg Prod.snd (Option.some.inj hm')
          have hall := h.allowed hmem ha d
          rw [hcall] at hall
          exact hne (joins_of_allowed hall hjoins)
  | spawn kind => exact .other s' hs' fun op hop => by cases hop
  | taskTurn j d fault t c k ht hr hfresh =>
      refine .other s' hs' fun op hop hjoins => ?_
      rcases System.effect_eq_some hop with ⟨d, e, _⟩ | ⟨fault', hm', _⟩
      · cases e
      · rw [makes_taskTurn ht hr] at hm'
        have hcall : c d = .store op := congrArg Prod.snd (Option.some.inj hm')
        have hdis := h.taskDisciplined (List.mem_of_getElem? ht) hr d
        rw [hcall] at hdis
        cases op with
        | connect | enqueue => exact hdis.elim
        | _ => cases hjoins
  | tick d =>
      refine .other s' hs' fun op hop hjoins => ?_
      cases hop
      cases hjoins

/-! ## Connections connect once -/

/-- The connections in the history are those of sessions, and a session about to
    connect is not among them. -/
structure System.Introduced (x : System) : Prop where
  known : ∀ v c, Op.connect v c ∈ x.history → c ∈ x.sessions.map Session.connection
  once : ∀ s ∈ x.sessions, s.stage = .opening → s.trace = [] →
    ∀ v, Op.connect v s.connection ∉ x.history

/-- What no request and no sweep does, a session does in the middle of its
    program. -/
theorem session_of_effect (h : x.Sound) {op : Op} (hop : x.effect a = some op)
    (htask : ∀ tr, ¬ TaskDisciplined tr (.store op)) (htick : ∀ d, op ≠ .tick d) :
    ∃ s ∈ x.sessions, (∃ p, s.activity = .running p) ∧
      Allowed s.user.id s.connection s.trace (.store op) ∧
      Ordered s.user.id s.connection s.stage s.trace (.store op) := by
  rcases System.effect_eq_some hop with ⟨d, _, hd⟩ | ⟨fault, hm, _⟩
  · exact absurd hd (htick d)
  · cases a with
    | turn i d f =>
        dsimp only [System.makes] at hm
        split at hm
        · next s hs =>
            split at hm
            · next call k ha =>
                have hcall : call d = .store op := congrArg Prod.snd (Option.some.inj hm)
                have hmem := List.mem_of_getElem? hs
                have hall := h.allowed hmem ha d
                have hord := ((ordered_program s.stage).unfolds
                  ((h.sessions s hmem).running _ ha) d).1
                rw [hcall] at hall hord
                exact ⟨s, hmem, ⟨_, ha⟩, hall, hord⟩
            · cases hm
        · cases hm
    | taskTurn j d f =>
        dsimp only [System.makes] at hm
        split at hm
        · next t ht =>
            split at hm
            · next call k hr =>
                have hcall : call d = .store op := congrArg Prod.snd (Option.some.inj hm)
                have hdis := h.taskDisciplined (List.mem_of_getElem? ht) hr d
                rw [hcall] at hdis
                exact absurd hdis (htask _)
            · cases hm
        · cases hm
    | _ => cases hm

/-- Who runs a Connect or an Enqueue, and when. -/
theorem ordered_of_effect (h : x.Sound) {op : Op} {c : ConnectionID} (hop : x.effect a = some op)
    (hjoins : op.joins = some c) :
    ∃ s ∈ x.sessions, s.connection = c ∧
      Ordered s.user.id s.connection s.stage s.trace (.store op) := by
  have htask : ∀ tr, ¬ TaskDisciplined tr (.store op) := by
    intro tr hdis
    cases op with
    | connect | enqueue => exact hdis
    | _ => cases hjoins
  have htick : ∀ d, op ≠ .tick d := by
    rintro d rfl
    cases hjoins
  obtain ⟨s, hs, _, hall, hord⟩ := session_of_effect h hop htask htick
  exact ⟨s, hs, (joins_of_allowed hall hjoins).symm, hord⟩

/-- A connection that connects has not done so before. -/
theorem System.Introduced.connect_new (hi : x.Introduced) (h : x.Sound) {v w : UserID}
    {c : ConnectionID} (hop : x.effect a = some (.connect v c)) :
    Op.connect w c ∉ x.history := by
  obtain ⟨s, hs, rfl, hst, htr⟩ := ordered_of_effect h hop rfl
  exact hi.once s hs hst htr w

theorem introduced_step (h : x.Sound) (hi : x.Introduced) (hmv : Move x a x') :
    x'.Introduced := by
  -- what a new label of the history can be
  have hhist : ∀ op ∈ x'.history, op ∈ x.history ∨ x.effect a = some op := by
    intro op hop
    rcases h.world hmv with ⟨_, _, hsame⟩ | ⟨op', heff, _, _, hadd⟩
    · rw [hsame] at hop
      exact Or.inl hop
    · rw [hadd] at hop
      rcases List.mem_append.mp hop with hop | hop
      · exact Or.inl hop
      · rw [List.mem_singleton.mp hop]
        exact Or.inr heff
  have hconnections : x.sessions.map Session.connection ⊆ x'.sessions.map Session.connection := by
    rw [map_connection, map_connection]
    exact List.map_subset _ (who_subset hmv)
  constructor
  · intro v c hop
    rcases hhist _ hop with hold | hnew
    · exact hconnections (hi.known v c hold)
    · obtain ⟨s, hs, rfl, _⟩ := ordered_of_effect h hnew rfl
      exact hconnections (List.mem_map_of_mem hs)
  · intro s' hs' hst htr v hop
    cases onward_of_move h hmv hs' with
    | other _ hs hother =>
        rcases hhist _ hop with hold | hnew
        · exact hi.once s' hs hst htr v hold
        · exact hother _ hnew rfl
    | opened _ hnew _ heff =>
        rcases hhist _ hop with hold | hop
        · exact hnew (hi.known v _ hold)
        · rw [heff] at hop
          cases hop
    | begun _ _ hne => exact hne hst
    | own s _ fault call hs hm hord hrun hst' hwho htr' =>
        rw [htr'] at htr
        cases htr

end

/-! ## Entries of a presence -/

/-- The entry that an accepted Enqueue writes. -/
def Discovery.Op.enters (s : Store) : Op → Option (UserID × QueuedState)
  | .enqueue u c p now =>
    if (s.enqueueScript u c p now).reply = .ok 1 then some (u, ⟨c, p⟩) else none
  | _ => none

/-- While `c` is `v`'s presence, an entry of `v` is of `c`, with preferences
    that meet `P`. -/
def Discovery.Store.EntryIs (s : Store) (v : UserID) (c : ConnectionID)
    (P : Preferences → Prop) : Prop :=
  s.presence.get v = some c →
    ∀ state, s.preferences v = some state → state.connectionID = c ∧ P state.preferences

/-- Such an entry stays, unless the connection comes back or joins again. -/
theorem entryIs_exec {s : Store} {op : Op} {v : UserID} {c : ConnectionID}
    {P : Preferences → Prop} (hs : s.Seated) (h : s.EntryIs v c P) (hop : op ≠ .connect v c)
    (henter : ∀ j ∈ op.enters s, j.1 = v → j.2.connectionID = c → P j.2.preferences) :
    (op.exec s).store.EntryIs v c P := by
  intro hpres state hstate
  have he := exec_effect hs op
  have hpres₀ : s.presence.get v = some c := (presence_after he hpres).resolve_right hop
  rcases entry_before he.queueChange hstate with hold | ⟨now, rfl, hreply, hpres'⟩
  · exact h hpres₀ state hold
  -- its own presence joins again
  · rw [hpres₀] at hpres'
    cases hpres'
    exact ⟨rfl, henter (v, ⟨_, state.preferences⟩) (if_pos hreply) rfl rfl⟩

/-- An entry's connection connected before. -/
theorem connect_of_entry {as : List Op} {w : World} {v : UserID} {state : QueuedState}
    (hrun : storeMachine.run as = some w) (h : w.store.preferences v = some state) :
    Op.connect v state.connectionID ∈ as := by
  revert h
  refine Machine.run_induction (P := fun as w => w.store.preferences v = some state →
    Op.connect v state.connectionID ∈ as) ?_ ?_ hrun
  · intro h
    cases h
  · intro as w op w' hrun hmem hstep h
    obtain ⟨_, rfl⟩ := step_eq_some.mp hstep
    have hchange := (exec_effect (coherent_of_run hrun).seated op).queueChange
    rcases entry_before hchange h with hold | ⟨now, rfl, _, hpres⟩
    · exact List.mem_append_left _ (hmem hold)
    · exact List.mem_append_left _ (connect_of_presence hrun hpres)

section
variable {x x' : System} {a : Action}

/-! ## Attempts that nobody's re-join disturbs -/

/-- The preferences of an unfinished attempt. -/
def Session.attempting (s : Session) : Option Preferences :=
  match s.stage, s.activity with
  | .frame (.queueJoin p), .running _ => some p
  | _, _ => none

theorem Session.attempting_eq_some {s : Session} {p : Preferences} :
    s.attempting = some p ↔
      s.stage = .frame (.queueJoin p) ∧ ∃ q, s.activity = .running q := by
  unfold Session.attempting
  split
  · next p' q hst ha =>
      rw [hst, ha]
      constructor
      · intro h
        cases h
        exact ⟨rfl, q, rfl⟩
      · rintro ⟨h, _⟩
        cases h
        rfl
  · next hno =>
      constructor
      · intro h
        cases h
      · rintro ⟨hst, q, ha⟩
        exact absurd ha (hno p q hst)

/-- For a user with `p`, an entry with `q'` gives the match that one with `q`
    gave. -/
def SameMatch (p q q' : Preferences) : Prop :=
  compatible p q = true →
    compatible p q' = true ∧ resolvedIntent p.intent q'.intent = resolvedIntent p.intent q.intent ∧
      sharedInterests p.interests q'.interests = sharedInterests p.interests q.interests

instance (p q q' : Preferences) : Decidable (SameMatch p q q') :=
  inferInstanceAs (Decidable (_ → _ ∧ _ ∧ _))

/-- When the step is an accepted join, no unfinished attempt has read an earlier
    entry of the same user and connection that gave it another match. -/
def Settled (x : System) (a : Action) : Prop :=
  ∀ op ∈ x.effect a, ∀ j ∈ op.enters x.store, ∀ s ∈ x.sessions, ∀ p ∈ s.attempting,
    ∀ e ∈ s.trace, ∀ r ∈ entryRead e, r.1 = j.1 → r.2.connectionID = j.2.connectionID →
      SameMatch p r.2.preferences j.2.preferences

instance (x : System) (a : Action) : Decidable (Settled x a) :=
  inferInstanceAs (Decidable (∀ op ∈ x.effect a, ∀ j ∈ op.enters x.store, ∀ s ∈ x.sessions,
    ∀ p ∈ s.attempting, ∀ e ∈ s.trace, ∀ r ∈ entryRead e, r.1 = j.1 →
      r.2.connectionID = j.2.connectionID → SameMatch p r.2.preferences j.2.preferences))

/-- What an attempt with preferences `p` has written and read is in force, as
    long as the presences are what they were. -/
structure Session.InForce (x : System) (s : Session) (p : Preferences) : Prop where
  own : ∀ now, (⟨.store (.enqueue s.user.id s.connection p now), some (1 : Int)⟩ :
    Exchange api) ∈ s.trace → x.store.EntryIs s.user.id s.connection (· = p)
  read : ∀ e ∈ s.trace, ∀ r, entryRead e = some r → Op.connect r.1 r.2.connectionID ∈ x.history ∧
    x.store.EntryIs r.1 r.2.connectionID (SameMatch p r.2.preferences)

theorem entryIs_move (h : x.Sound) (hmv : Move x a x') {v : UserID} {c : ConnectionID}
    {P : Preferences → Prop} (hentry : x.store.EntryIs v c P)
    (hop : x.effect a ≠ some (.connect v c))
    (henter : ∀ op ∈ x.effect a, ∀ j ∈ op.enters x.store, j.1 = v → j.2.connectionID = c →
      P j.2.preferences) : x'.store.EntryIs v c P := by
  unfold System.store at *
  rcases h.world hmv with ⟨_, hworld, _⟩ | ⟨op, heff, _, hworld, _⟩
  · rw [hworld]
    exact hentry
  · rw [hworld]
    refine entryIs_exec h.coherent.seated hentry ?_ (henter op heff)
    rintro rfl
    exact hop heff

/-- Only the entry of an Enqueue on its own connection is written. -/
theorem joins_of_enters {op : Op} {t : Store} {j : UserID × QueuedState}
    (h : j ∈ op.enters t) : op.joins = some j.2.connectionID := by
  cases op with
  | enqueue u c p now =>
      dsimp only [Op.enters] at h
      split at h
      · cases h
        rfl
      · cases h
  | _ => cases h

theorem entryRead_eq_some {e : Exchange api} {r : UserID × QueuedState}
    (h : entryRead e = some r) : e = ⟨.queuedState r.1, some (some r.2)⟩ := by
  unfold entryRead at h
  split at h
  · cases h
    rfl
  · cases h

theorem reply_of_exec {e : Env} {op : Op} {n : Int} (h : (e.exec (.store op)).2 = some n) :
    (op.exec e.world.store).reply = .ok n := by
  revert h
  dsimp only [Env.exec]
  cases (op.exec e.world.store).reply with
  | ok k =>
      intro h
      cases h
      rfl
  | error _ => exact fun h => nomatch h

/-- The exchange of an accepted Enqueue, or of a read entry, has just put it in
    force. -/
theorem inForce_made (h : x.Sound) (hmv : Move x a x') {fault : Fault} {e : Exchange api}
    (hm : x.makes a = some (fault, e.call)) (hr : e.reply = (x.env.perform fault e.call).2) :
    (∀ u c p now, e = ⟨.store (.enqueue u c p now), some (1 : Int)⟩ →
      x'.store.EntryIs u c (· = p)) ∧
    ∀ r, entryRead e = some r → Op.connect r.1 r.2.connectionID ∈ x'.history ∧
      ∀ p, x'.store.EntryIs r.1 r.2.connectionID (SameMatch p r.2.preferences) := by
  have henv := hmv.env_of_makes hm
  constructor
  · rintro u c p now rfl
    obtain ⟨rfl, hexec⟩ := perform_some hr.symm
    obtain ⟨hscript, _⟩ := enqueue_accepted (reply_of_exec hexec)
    intro _ state hstate
    unfold System.store at hstate
    rw [henv] at hstate
    have hstate : (x.store.enqueueScript u c p now).store.preferences u = some state := hstate
    rw [hscript] at hstate
    cases (if_pos rfl).symm.trans hstate
    exact ⟨rfl, rfl⟩
  · intro r hread
    obtain rfl := entryRead_eq_some hread
    obtain ⟨rfl, hexec⟩ := perform_some hr.symm
    have hstate : x.store.preferences r.1 = some r.2 := Option.some.inj hexec
    refine ⟨hmv.history.subset (connect_of_entry h.store hstate), fun p _ state hnow => ?_⟩
    unfold System.store at hnow
    rw [henv] at hnow
    rw [show state = r.2 from Option.some.inj (hnow.symm.trans hstate)]
    exact ⟨rfl, fun hp => ⟨hp, rfl, rfl⟩⟩

/-- What an attempt has read stays in force in a step that meets the condition. -/
theorem Session.InForce.read_move {s : Session} {p : Preferences} (hforce : s.InForce x p)
    (h : x.Sound) (hi : x.Introduced) (hs : s ∈ x.sessions) (hp : s.attempting = some p)
    (hsettled : Settled x a) (hmv : Move x a x') :
    ∀ e ∈ s.trace, ∀ r, entryRead e = some r → Op.connect r.1 r.2.connectionID ∈ x'.history ∧
      x'.store.EntryIs r.1 r.2.connectionID (SameMatch p r.2.preferences) := by
  intro e he r hr
  obtain ⟨hconnect, hentry⟩ := hforce.read e he r hr
  refine ⟨hmv.history.subset hconnect, entryIs_move h hmv hentry ?_ ?_⟩
  · intro hop
    exact hi.connect_new h hop hconnect
  · intro op hop j hj hv hc
    exact hsettled op hop j hj s hs p hp e he r hr hv.symm hc.symm

/-- The step is the session's own call. -/
theorem call_of_effect {call : Call} {fault : Fault} {op : Op}
    (hm : x.makes a = some (fault, call)) (hop : x.effect a = some op) : call = .store op := by
  rcases System.effect_eq_some hop with ⟨d, rfl, _⟩ | ⟨fault', hm', _⟩
  · cases hm
  · exact congrArg Prod.snd (Option.some.inj (hm.symm.trans hm'))

/-- A step that meets the condition keeps every attempt in force. -/
theorem inForce_step (h : x.Sound) (hi : x.Introduced)
    (hforce : ∀ s ∈ x.sessions, ∀ p, s.attempting = some p → s.InForce x p)
    (hsettled : Settled x a) (hmv : Move x a x') :
    ∀ s ∈ x'.sessions, ∀ p, s.attempting = some p → s.InForce x' p := by
  intro s' hs' p hp
  cases onward_of_move h hmv hs' with
  | other _ hs hother =>
      have hattempt := hforce s' hs p hp
      refine ⟨fun now hnow => ?_, hattempt.read_move h hi hs hp hsettled hmv⟩
      refine entryIs_move h hmv (hattempt.own now hnow) ?_ ?_
      · exact fun hop => hother _ hop rfl
      · intro op hop j hj _ hc
        exact absurd ((joins_of_enters hj).trans (congrArg some hc)) (hother op hop)
  | opened _ _ htr _ | begun _ htr _ =>
      refine ⟨fun now hnow => ?_, fun e he => ?_⟩
      · rw [htr] at hnow
        cases hnow
      · rw [htr] at he
        cases he
  | own s _ fault call hs hm hord hrun hst hwho htr =>
      obtain ⟨hstage, _⟩ := Session.attempting_eq_some.mp hp
      have hp₀ : s.attempting = some p := Session.attempting_eq_some.mpr ⟨hst ▸ hstage, hrun⟩
      have hattempt := hforce s hs p hp₀
      have huser : s'.user.id = s.user.id := congrArg Prod.snd hwho
      have hconn : s'.connection = s.connection := congrArg Prod.fst hwho
      obtain ⟨hjoined, hnew⟩ :=
        inForce_made h hmv (e := ⟨call, (x.env.perform fault call).2⟩) hm rfl
      refine ⟨fun now hnow => ?_, fun e he r hr => ?_⟩
      · rw [huser, hconn] at hnow ⊢
        rw [htr] at hnow
        rcases List.mem_cons.mp hnow with heq | hnow
        · exact hjoined _ _ _ now heq.symm
        · refine entryIs_move h hmv (hattempt.own now hnow) ?_ ?_
          · intro hop
            rw [call_of_effect hm hop, hst.symm.trans hstage] at hord
            cases hord.1
          -- its Enqueue came first
          · intro op hop j hj _ _
            rw [call_of_effect hm hop] at hord
            cases op with
            | enqueue u c p' now' =>
                rw [hord.2.2.2] at hnow
                cases hnow
            | _ => cases hj
      · rw [htr] at he
        rcases List.mem_cons.mp he with rfl | he
        · obtain ⟨hconnect, hentry⟩ := hnew r hr
          exact ⟨hconnect, hentry p⟩
        · exact hattempt.read_move h hi hs hp₀ hsettled hmv e he r hr

theorem inForce_of_run {db : Database} {as : List Action}
    (hrun : (systemMachine db).run as = some x)
    (hsettled : (systemMachine db).Along Settled (.init db) as) :
    ∀ s ∈ x.sessions, ∀ p, s.attempting = some p → s.InForce x p := by
  refine (Machine.runFrom_invariant_along (M := systemMachine db)
    (P := fun y => y.Sound ∧ y.Introduced ∧
      ∀ s ∈ y.sessions, ∀ p, s.attempting = some p → s.InForce y p)
    (C := Settled) ?_ hrun hsettled ?_).2.2
  · rintro y a y' ⟨h, hi, hforce⟩ hset hstep
    have hmv := step_move hstep
    exact ⟨h.step hmv, introduced_step h hi hmv, inForce_step h hi hforce hset hmv⟩
  · exact ⟨.init db, ⟨fun _ _ h => (nomatch h), fun _ h => nomatch h⟩, fun _ h => nomatch h⟩

/-- A claim that succeeds finds both users present, free and queued. -/
theorem claim_accepted {s : Store} {k : Claim} (h : (s.claimScript k).reply = .ok 1) :
    s.presence.get k.userA = some k.connectionA ∧ s.presence.get k.userB = some k.connectionB ∧
      s.queue.score k.userA ≠ none ∧ s.queue.score k.userB ≠ none ∧
      (s.claimScript k).store = s.claimed k := by
  have he := claim_effect (s := s) k
  generalize s.claimScript k = o at he h
  cases he with
  | refused _ n hn =>
      cases h
      exact absurd hn (by decide)
  | claim _ hA hB _ _ hqA hqB _ => exact ⟨hA, hB, hqA, hqB, rfl⟩

theorem dating_of_compatible {p q : Preferences} (h : compatible p q = true)
    (hdating : resolvedIntent p.intent q.intent = "dating") :
    p.intent = "dating" ∧ q.intent = "dating" := by
  unfold compatible at h
  unfold resolvedIntent at hdating
  simp only [Bool.and_eq_true, Bool.or_eq_true, decide_eq_true_eq] at h
  split at hdating
  · next hsurprise =>
      -- who asks for a surprise gets no date
      rcases h.1 with (heq | ⟨_, hne⟩) | ⟨hq, _⟩
      · rw [hsurprise, hdating] at heq
        exact absurd heq (by decide)
      · exact absurd hdating hne
      · rw [hq] at hdating
        exact absurd hdating (by decide)
  · next hsurprise =>
      rcases h.1 with (heq | ⟨hp, _⟩) | ⟨_, hne⟩
      · exact ⟨hdating, heq ▸ hdating⟩
      · exact absurd hp hsurprise
      · exact absurd hdating hne

/-- The two preferences that the queue stores for the users of a claim are
    compatible, and the match has their intent and shared interests. -/
def RespectsPreferences (s t : Store) (k : Claim) : Prop :=
  ∃ a b : QueuedState, s.preferences k.userA = some a ∧ s.preferences k.userB = some b ∧
    compatible a.preferences b.preferences = true ∧
    t.hget k.matchID MatchHash.intent =
      some (resolvedIntent a.preferences.intent b.preferences.intent) ∧
    t.hget k.matchID MatchHash.sharedInterests =
      some (sharedInterests a.preferences.interests b.preferences.interests) ∧
    (t.hget k.matchID MatchHash.intent = some "dating" →
      a.preferences.intent = "dating" ∧ b.preferences.intent = "dating")

/-- In every run without an accepted join that changes what an unfinished attempt
    has read of that user and connection, every claim that succeeds respects the
    preferences in force immediately before it. -/
theorem claims_respect_preferences {db : Database} {as : List Action} {k : Claim}
    (hall : (systemMachine db).Along Settled (.init db) as)
    (htaken : (systemMachine db).Taken as x a x') (hclaim : x.effect a = some (.claim k))
    (hok : ((Op.claim k).exec x.store).reply = .ok 1) :
    RespectsPreferences x.store x'.store k := by
  obtain ⟨pre, post, rfl, hrun, hstep⟩ := htaken
  have hsettled := hall.of_append
  have h := sound_of_run hrun
  obtain ⟨s, hs, hrunning, _, p, hst, hk⟩ :=
    session_of_effect h hclaim (fun _ hdis => hdis) (fun _ e => nomatch e)
  have hforce := inForce_of_run hrun hsettled s hs p
    (Session.attempting_eq_some.mpr ⟨hst, hrunning⟩)
  obtain ⟨hA, hB, hqA, hqB, hstore⟩ := claim_accepted hok
  have hw := waiting_of_run h.store
  -- both are queued, so have their entries
  obtain ⟨ea, hea⟩ := Option.ne_none_iff_exists'.mp (mt (hw.agree k.userA).mpr hqA)
  obtain ⟨eb, heb⟩ := Option.ne_none_iff_exists'.mp (mt (hw.agree k.userB).mpr hqB)
  obtain ⟨now, hnow⟩ := hk.joined
  obtain ⟨e, he, q, hread, hcompatible, hintent, hshared⟩ := hk.read
  have hown : ea.preferences = p := by
    refine (hforce.own now hnow ?_ ea ?_).2
    · rw [← hk.userA, ← hk.connectionA]
      exact hA
    · rw [← hk.userA]
      exact hea
  obtain ⟨hcomp, hint, hsh⟩ := ((hforce.read e he _ hread).2 hB eb heb).2 hcompatible
  have hstore' : x'.store = x.store.claimed k := by
    unfold System.store
    rcases h.world (step_move hstep) with ⟨hnone, _⟩ | ⟨op, heff, _, hworld, _⟩
    · rw [hclaim] at hnone
      cases hnone
    · rw [hclaim] at heff
      cases heff
      rw [hworld]
      exact hstore
  have hhash : (x.store.claimed k).matches_.get k.matchID =
      some (k.hash ((x.store.matches_.get k.matchID).getD {})) := by
    rw [Store.get_matches_claimed, if_pos rfl]
  have hti : x'.store.hget k.matchID MatchHash.intent =
      some (resolvedIntent ea.preferences.intent eb.preferences.intent) := by
    rw [hstore', hget_of_some hhash, hown, hint, ← hintent]
    rfl
  refine ⟨ea, eb, hea, heb, ?_, hti, ?_, fun hdating => ?_⟩
  · rw [hown]
    exact hcomp
  · rw [hstore', hget_of_some hhash, hown, hsh, ← hshared]
    rfl
  · rw [hti] at hdating
    rw [hown] at hdating ⊢
    exact dating_of_compatible hcomp (Option.some.inj hdating)

end

/-- Ben's attempt up to its claim of Ann. -/
def benAttempts : List Action :=
  queued ++ [.frame 1 (.queueJoin somePreferences)] ++ turns 1 8 "m1"

def claimTurn : Action := .turn 1 ⟨0, "m1"⟩ .ok

/-- What Ben claims: the match with the entry he has read of Ann. -/
def benClaim : Claim :=
  newClaim ben "c2" somePreferences ⟨"ann", "c1", somePreferences, 0⟩ ann false "m1" 0

/-- Nobody joins again before Ben claims Ann. -/
theorem claims_respect_preferences_matched : ∃ x x',
    (systemMachine twoUsers).run benAttempts = some x ∧ x.step claimTurn = some x' ∧
      x.effect claimTurn = some (.claim benClaim) ∧
      RespectsPreferences x.store x'.store benClaim := by
  have hobs : ((systemMachine twoUsers).run benAttempts).map (fun x =>
      ((x.step claimTurn).isSome, decide (x.effect claimTurn = some (.claim benClaim) ∧
        ((Op.claim benClaim).exec x.store).reply = .ok 1))) = some (true, true) := by
    decide +kernel
  have hall : (systemMachine twoUsers).Along Settled (.init twoUsers)
      (benAttempts ++ [claimTurn]) := by
    decide +kernel
  obtain ⟨x, hx, hobs⟩ := Option.map_eq_some_iff.mp hobs
  simp only [Prod.mk.injEq, decide_eq_true_eq] at hobs
  obtain ⟨hsome, hop, hok⟩ := hobs
  obtain ⟨x', hx'⟩ := Option.isSome_iff_exists.mp hsome
  have hstep : (systemMachine twoUsers).step x claimTurn = some x' := hx'
  exact ⟨x, x', hx, hx', hop,
    claims_respect_preferences hall (Machine.taken_concat hx hstep) hop hok⟩

def datingPreferences : Preferences := ⟨"dating", ["en"], []⟩

/-- Both queue for a date, and after Ben's attempt has read Ann's entry she joins
    again, for new friends. -/
def rejoined : List Action :=
  [.accept ann "c1"] ++ turns 0 4 "" ++ [.accept ben "c2"] ++ turns 1 4 ""
    ++ [.frame 0 (.queueJoin datingPreferences)] ++ turns 0 3 ""
    ++ [.frame 1 (.queueJoin datingPreferences)] ++ turns 1 8 "m1"
    ++ [.frame 0 (.queueJoin somePreferences)] ++ turns 0 1 ""

/-- The match with what Ben has read of Ann. -/
def dateClaim : Claim :=
  newClaim ben "c2" datingPreferences ⟨"ann", "c1", datingPreferences, 0⟩ ann false "m1" 0

/-- Ben's claim succeeds all the same: the queue stores "new_friends" for Ann, and
    their match is a date. -/
theorem dating_mismatch : ∃ x x', (systemMachine twoUsers).run rejoined = some x ∧
    x.step claimTurn = some x' ∧ x.effect claimTurn = some (.claim dateClaim) ∧
    ((Op.claim dateClaim).exec x.store).reply = .ok 1 ∧
    x.store.preferences "ben" = some ⟨"c2", datingPreferences⟩ ∧
    x.store.preferences "ann" = some ⟨"c1", somePreferences⟩ ∧
    x'.store.hget "m1" MatchHash.intent = some "dating" ∧
    ¬ RespectsPreferences x.store x'.store dateClaim := by
  have hobs : ((systemMachine twoUsers).run rejoined).map (fun x =>
      ((x.step claimTurn).map (fun x' => x'.store.hget "m1" MatchHash.intent),
        decide (x.effect claimTurn = some (.claim dateClaim) ∧
          ((Op.claim dateClaim).exec x.store).reply = .ok 1 ∧
          x.store.preferences "ben" = some ⟨"c2", datingPreferences⟩ ∧
          x.store.preferences "ann" = some ⟨"c1", somePreferences⟩))) =
        some (some (some "dating"), true) := by
    decide +kernel
  obtain ⟨x, hx, hobs⟩ := Option.map_eq_some_iff.mp hobs
  simp only [Prod.mk.injEq, decide_eq_true_eq] at hobs
  obtain ⟨hstep, hop, hok, hben, hann⟩ := hobs
  obtain ⟨x', hx', hintent⟩ := Option.map_eq_some_iff.mp hstep
  refine ⟨x, x', hx, hx', hop, hok, hben, hann, hintent, ?_⟩
  rintro ⟨a, b, ha, hb, hcompatible, _⟩
  have ha : x.store.preferences "ben" = some a := ha
  have hb : x.store.preferences "ann" = some b := hb
  rw [hben] at ha
  rw [hann] at hb
  cases ha
  cases hb
  exact absurd hcompatible (by decide)

end OneMinute
