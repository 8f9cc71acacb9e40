/-
  OneMinute.Recovery

  What a participant is told of an encounter, at the claim and again when the
  socket handler recovers it.

  The claim's two events are built from values in memory (`Composed`), a
  recovered event from the fields of the hash (`Recalled`).  A hash keeps the
  arguments of its claim whatever the participants do, so both tell the same
  (`Discovery.Claim.Tells`), and so do the texts that are in Redis
  (`recovery_reproduces`).
-/

import OneMinute.Attempts
import OneMinute.Discovery.Texts

namespace OneMinute

open Discovery Process
open Decimal (IsInt64)

/-! ## The events of a claim -/

/-- `e` is the event that the claim publishes to `v`. -/
def Discovery.Claim.Announces (k : Claim) (v : UserID) (e : MatchFound) : Prop :=
  (v = k.userA ∧ e = k.eventA) ∨ (v = k.userB ∧ e = k.eventB)

/-- Only a successful claim publishes `match.found`. -/
theorem found_exec {s : Store} (hs : s.Seated) (op : Op) {v : UserID} {m : MatchID}
    {e : MatchFound} :
    (v, Event.matchFound m e) ∈ (op.exec s).published ↔
      ∃ k ∈ op.claimed (op.exec s), k.matchID = m ∧ k.Announces v e := by
  have he := exec_effect hs op
  generalize op.exec s = o at he
  cases he with
  | claim k =>
      simp only [Op.claimed, List.mem_cons, Prod.mk.injEq, Event.matchFound.injEq,
        List.not_mem_nil, or_false, exists_eq_left, Claim.Announces]
      constructor
      · rintro (⟨hv, hm, he⟩ | ⟨hv, hm, he⟩)
        · exact ⟨hm.symm, Or.inl ⟨hv, he⟩⟩
        · exact ⟨hm.symm, Or.inr ⟨hv, he⟩⟩
      · rintro ⟨hm, ⟨hv, he⟩ | ⟨hv, he⟩⟩
        · exact Or.inl ⟨hv, hm.symm, he⟩
        · exact Or.inr ⟨hv, hm.symm, he⟩
  | refused op n hn =>
      rw [claimed_refused op s hn]
      simp [Store.answer]
  | _ => simp [Op.claimed, Store.answer, Store.ended]

/-- In every run, `match.found` was published exactly as the claims say. -/
theorem found_of_run {as : List Op} {w : World} (hrun : storeMachine.run as = some w)
    {v : UserID} {m : MatchID} {e : MatchFound} :
    (v, Event.matchFound m e) ∈ w.published ↔
      ∃ k ∈ w.claims, k.matchID = m ∧ k.Announces v e := by
  have hinit : (v, Event.matchFound m e) ∈ storeMachine.init.published ↔
      ∃ k ∈ storeMachine.init.claims, k.matchID = m ∧ k.Announces v e := by
    simp [storeMachine, World.empty]
  refine (Machine.run_invariant (P := fun w => Coherent w.store w.claims ∧
    ((v, Event.matchFound m e) ∈ w.published ↔
      ∃ k ∈ w.claims, k.matchID = m ∧ k.Announces v e)) ⟨Coherent.init, hinit⟩ ?_ hrun).2
  rintro w op w' ⟨hc, hw⟩ hstep
  obtain ⟨hp, rfl⟩ := step_eq_some.mp hstep
  refine ⟨coherent_after hc hp, ?_⟩
  have hexec := found_exec hc.seated op (v := v) (m := m) (e := e)
  show _ ∈ w.published ++ (op.exec w.store).published ↔
    ∃ k ∈ op.claimed (op.exec w.store) ++ w.claims, _
  rw [List.mem_append, hw, hexec]
  simp only [List.mem_append, or_and_right, exists_or]
  exact or_comm

/-! ## What a session claims and recovers -/

/-- The payload of the event with which the socket handler recovers the match
    `current` for `u`. -/
def Discovery.MatchState.found (current : MatchState) (u : UserID) (profile : Profile) :
    MatchFound :=
  ⟨profile, current.sharedInterests, current.intent, decide (current.userA = u),
    current.startedAt, current.expiresAt⟩

/-- A claim by `user` with the events that claimCandidate builds, from a profile
    that was read. -/
structure Composed (seen : Exchange api → Prop) (user : Profile) (k : Claim) : Prop where
  userA : k.userA = user.id
  eventA : ∃ profile, seen ⟨.profile k.userB, some profile⟩ ∧
    k.eventA = ⟨profile, k.sharedInterests, k.intent, true, k.now, k.now + encounterLength⟩
  eventB : k.eventB = ⟨user, k.sharedInterests, k.intent, false, k.now, k.now + encounterLength⟩

/-- A recovery for `u`: the match was read, then the profile of the peer, and
    Reconnect answered 1. -/
def Recalled (seen : Exchange api → Prop) (u : UserID) (c : ConnectionID) (m : MatchID)
    (found : MatchFound) : Prop :=
  ∃ current x profile now,
    seen ⟨.matchHash x, some (.ok (some current))⟩ ∧
    seen ⟨.profile (peer current u), some profile⟩ ∧
    seen ⟨.store (.reconnect u c current.id now), some (1 : Int)⟩ ∧
    m = current.id ∧ found = current.found u profile

section
variable {seen seen' : Exchange api → Prop}

theorem Composed.imp {user : Profile} {k : Claim} (h : Composed seen user k)
    (himp : ∀ e, seen e → seen' e) : Composed seen' user k where
  userA := h.userA
  eventA := by
    obtain ⟨profile, hread, he⟩ := h.eventA
    exact ⟨profile, himp _ hread, he⟩
  eventB := h.eventB

theorem Recalled.imp {u : UserID} {c : ConnectionID} {m : MatchID} {found : MatchFound}
    (h : Recalled seen u c m found) (himp : ∀ e, seen e → seen' e) :
    Recalled seen' u c m found := by
  obtain ⟨current, x, profile, now, hread, hprofile, hback, hrest⟩ := h
  exact ⟨current, x, profile, now, himp _ hread, himp _ hprofile, himp _ hback, hrest⟩

end

/-- What is told of a match comes from the claim or from the hash. -/
def Faithful (user : Profile) (c : ConnectionID) (tr : List (Exchange api)) : Call → Prop
  | .store (.claim k) => Composed (· ∈ tr) user k
  | .write (.matchRecovered m found _ _) => Recalled (· ∈ tr) user.id c m found
  | _ => True

theorem Call.Ordinary.faithful {call : Call} (h : call.Ordinary) (user : Profile)
    (c : ConnectionID) (tr : List (Exchange api)) : Faithful user c tr call := by
  cases call with
  | store op =>
      cases op with
      | claim k => exact h.elim
      | _ => trivial
  | write e =>
      cases e with
      | matchRecovered m found st conn => exact h.elim
      | _ => trivial
  | _ => trivial

section
variable {user : Profile} {c : ConnectionID} {p : Preferences}

theorem faithful_claimCandidate {q : QueuedUser} {second : Bool} (tr : List (Exchange api)) :
    Always (Faithful user c) tr (claimCandidate user c p q second) fun _ _ => True := by
  refine always_bind (always_call trivial fun r => ?_)
  match r with
  | none => trivial
  | some false => trivial
  | some true =>
      refine always_bind (always_call trivial fun r => ?_)
      match r with
      | none => trivial
      | some profile =>
          -- the script call comes right after the profile was read
          exact always_bind (always_script
            (fun d => ⟨rfl, ⟨profile, List.mem_cons_self, rfl⟩, rfl⟩) fun _ _ => trivial)

theorem faithful_tryPass {second : Bool} (l : List QueuedUser) (tr : List (Exchange api)) :
    Always (Faithful user c) tr (tryPass user c p second l) fun _ _ => True :=
  always_tryPass l tr (fun _ _ => trivial) fun _ _ _ tr' _ => faithful_claimCandidate tr'

theorem faithful_tryMatch (tr : List (Exchange api)) :
    Always (Faithful user c) tr (tryMatch user c p) fun _ _ => True := by
  refine always_bind ?_
  unfold candidates
  refine always_bind (always_call trivial fun r => ?_)
  match r with
  | none => trivial
  | some items =>
      refine always_bind ((always_scan_read (fun _ _ h => h.faithful _ _ _) items _).post
        fun tr found _ => ?_)
      refine always_bind ((faithful_tryPass _ tr).post fun tr claimed _ => ?_)
      match claimed with
      | none => trivial
      | some true => trivial
      | some false => exact always_bind ((faithful_tryPass _ tr).post fun _ _ _ => trivial)

theorem faithful_queueJoin : Always (Faithful user c) [] (queueJoin user c p) fun _ _ => True :=
  always_queueJoin (fun _ => trivial) (fun _ _ => trivial) (fun _ _ => trivial)
    fun _ tr' _ => faithful_tryMatch tr'

/-- What the opening tells was read by its own calls. -/
theorem faithful_opening : Always (Faithful user c) [] (opening user c) fun _ _ => True :=
  always_opening trivial (fun _ => trivial) (fun _ => trivial) (fun _ => trivial)
    (fun _ _ => trivial) (fun _ _ => trivial) (fun _ _ _ => trivial)
    fun _ current x profile now hread hprofile hback =>
      ⟨current, x, profile, now, hread, hprofile, hback, rfl, rfl⟩

/-- Every program of a session is faithful. -/
theorem faithful_program (stage : Stage) :
    Always (Faithful user c) [] (stage.program user c) fun _ _ => True := by
  cases stage with
  | opening => exact faithful_opening
  | frame f =>
      by_cases hf : ∃ p, f = .queueJoin p
      · obtain ⟨p, rfl⟩ := hf
        exact faithful_queueJoin
      · exact (routine_handle fun p e => hf ⟨p, e⟩).allow fun _ _ h => h.faithful _ _ _
  | cleanup => exact always_bind (always_script (fun _ => trivial) fun _ _ => trivial)

end

/-! ## Runs -/

section
variable {db : Database} {as : List Action} {x : System}

theorem System.Sound.faithful (h : x.Sound) {s : Session} (hs : s ∈ x.sessions)
    {c : Draw → Call} {k : (d : Draw) → Option (c d).Reply → Proc Next}
    (ha : s.activity = .running (.ask c k)) (d : Draw) :
    Faithful s.user s.connection s.trace (c d) :=
  ((faithful_program s.stage).unfolds ((h.sessions s hs).running _ ha) d).1

/-- A script call that claims is a session's. -/
theorem composed_of_makes {a : Action} {fault : Fault} {k : Claim}
    (hrun : (systemMachine db).run as = some x) (hm : x.makes a = some (fault, .store (.claim k))) :
    ∃ user, Composed (Made db as) user k := by
  have hsound := sound_of_run hrun
  generalize hcall : Call.store (.claim k) = call at hm
  cases asks_of_makes hm with
  | session s d c _ hs ha =>
      have hfaithful := hsound.faithful hs ha d
      rw [← hcall] at hfaithful
      exact ⟨s.user, Composed.imp hfaithful ((made_of_run hrun).1 s hs)⟩
  | task t d c _ ht hr =>
      have htask := hsound.taskDisciplined ht hr d
      rw [← hcall] at htask
      exact htask.elim

/-- The events of every claim are those that claimCandidate builds. -/
theorem composed_of_run (hrun : (systemMachine db).run as = some x) :
    ∀ k ∈ x.env.world.claims, ∃ user, Composed (Made db as) user k := by
  refine Machine.run_induction (M := systemMachine db)
    (P := fun as x => ∀ k ∈ x.env.world.claims, ∃ user, Composed (Made db as) user k)
    (fun k hk => absurd hk List.not_mem_nil) ?_ hrun
  intro as x a x' hpre ih hstep k hk
  have hold : k ∈ x.env.world.claims → ∃ user, Composed (Made db (as ++ [a])) user k := by
    intro hk
    obtain ⟨user, hcomposed⟩ := ih k hk
    exact ⟨user, hcomposed.imp fun e he => he.append [a]⟩
  rcases (sound_of_run hpre).world (step_move hstep) with ⟨_, hworld, _⟩ | ⟨op, heff, _, hworld, _⟩
  · rw [hworld] at hk
    exact hold hk
  · rw [hworld] at hk
    rcases List.mem_append.mp hk with hnew | hk
    · -- the operation is the claim itself
      cases op with
      | claim k' =>
          have hkk : k = k' := by
            unfold Op.claimed at hnew
            split at hnew
            · next heq _ =>
                cases heq
                exact List.mem_singleton.mp hnew
            · cases hnew
          rw [hkk]
          rcases System.effect_eq_some heff with ⟨d, _, e⟩ | ⟨fault, hm, _⟩
          · cases e
          · obtain ⟨user, hcomposed⟩ := composed_of_makes hpre hm
            exact ⟨user, hcomposed.imp fun e he => he.append [a]⟩
      | _ => cases hnew
    · exact hold hk

/-- Every recovered match that a session was told of was read before. -/
theorem recalled_of_run (hrun : (systemMachine db).run as = some x) :
    ∀ s ∈ x.sessions, ∀ m found st conn, Event.matchRecovered m found st conn ∈ s.sent →
      Recalled (Made db as) s.user.id s.connection m found := by
  refine Machine.run_induction (M := systemMachine db)
    (P := fun as x => ∀ s ∈ x.sessions, ∀ m found st conn,
      Event.matchRecovered m found st conn ∈ s.sent →
        Recalled (Made db as) s.user.id s.connection m found)
    (fun s hs => absurd hs List.not_mem_nil) ?_ hrun
  intro as x a x' hpre ih hstep s' hs' m found st conn hsent
  have hmade : ∀ {u c}, Recalled (Made db as) u c m found →
      Recalled (Made db (as ++ [a])) u c m found := fun h => h.imp fun e he => he.append [a]
  cases (step_move hstep).descends hs' with
  | kept _ _ hs => exact hmade (ih s' hs m found st conn hsent)
  | opened user c _ =>
      rw [Session.start_sent] at hsent
      cases hsent
  | started _ s since stage hs ha _ =>
      rw [Session.start_sent] at hsent
      rw [Session.start_user, Session.start_connection]
      exact hmade (ih s hs m found st conn hsent)
  | received i d fault s c k hs ha _ =>
      rw [Session.receive_user, Session.receive_connection]
      rcases Session.mem_receive_sent hsent with hold | hcall
      · exact hmade (ih s hs m found st conn hold)
      · -- the write is the session's call at this step
        have hfaithful := (sound_of_run hpre).faithful hs ha d
        have hcall : c d = .write (.matchRecovered m found st conn) := hcall
        rw [hcall] at hfaithful
        exact hmade (Recalled.imp hfaithful ((made_of_run hpre).1 s hs))

/-- The user to whom Reconnect answered 1 is a participant. -/
theorem participant_of_reconnect {u : UserID} {c : ConnectionID} {m : MatchID}
    {now : UnixMilli} (hrun : (systemMachine db).run as = some x)
    (h : Made db as ⟨.store (.reconnect u c m now), some (1 : Int)⟩) {k : Claim}
    (hk : k ∈ x.env.world.claims) (hkm : k.matchID = m) : u = k.userA ∨ u = k.userB := by
  obtain ⟨pre, post, w, _, hpre, hrest, hreply⟩ := made_store hrun h
  have hc := coherent_of_run hpre
  have heff := exec_effect hc.seated (.reconnect u c m now)
  generalize (Op.reconnect u c m now).exec w.store = o at heff hreply
  cases heff with
  | refused _ n hn =>
      cases hreply
      exact absurd hn (by decide)
  | reconnect _ _ _ _ h p _ _ hh hb _ =>
      obtain ⟨k', hk', hkm', hr⟩ := hc.records m h hh
      have hsame : k' = k := (sound_of_run hrun).coherent.unique k'
        (claims_subset_of_runFrom hrest hk') k hk (hkm'.trans hkm.symm)
      rw [← hsame]
      exact (MatchHash.has_iff hr).mp hb.has

end

/-! ## What both tell -/

/-- `e` tells `v` of the encounter that `k` claims. -/
structure Discovery.Claim.Tells (k : Claim) (v : UserID) (e : MatchFound) : Prop where
  peer : e.peer.id = if k.userA = v then k.userB else k.userA
  offerer : e.offerer = decide (k.userA = v)
  intent : e.intent = k.intent
  sharedInterests : e.sharedInterests = k.sharedInterests
  startedAt : e.startedAt = k.now
  expiresAt : e.expiresAt = k.now + encounterLength

/-- Two events tell the same of an encounter. -/
structure Discovery.MatchFound.Same (e e' : MatchFound) : Prop where
  peer : e.peer.id = e'.peer.id
  offerer : e.offerer = e'.offerer
  intent : e.intent = e'.intent
  sharedInterests : e.sharedInterests = e'.sharedInterests
  startedAt : e.startedAt = e'.startedAt
  expiresAt : e.expiresAt = e'.expiresAt

theorem Discovery.Claim.Tells.same {k : Claim} {v : UserID} {e e' : MatchFound}
    (h : k.Tells v e) (h' : k.Tells v e') : e.Same e' where
  peer := h.peer.trans h'.peer.symm
  offerer := h.offerer.trans h'.offerer.symm
  intent := h.intent.trans h'.intent.symm
  sharedInterests := h.sharedInterests.trans h'.sharedInterests.symm
  startedAt := h.startedAt.trans h'.startedAt.symm
  expiresAt := h.expiresAt.trans h'.expiresAt.symm

/-- What is read of the claim's match tells of it. -/
theorem tells_found {st : MatchState} {k : Claim} (hr : st.Records k) {v : UserID} {p : Profile}
    (hp : p.id = peer st v) : k.Tells v (st.found v p) where
  peer := by
    rw [← hr.userA, ← hr.userB]
    exact hp
  offerer := by
    rw [← hr.userA]
    rfl
  intent := hr.intent
  sharedInterests := hr.sharedInterests
  startedAt := hr.startedAt
  expiresAt := hr.expiresAt

section
variable {db : Database} {as : List Action} {x : System}

/-- The query of Profile selects the id of the user it is asked for. -/
def Database.Keyed (db : Database) : Prop := ∀ u p, db.profiles u = some p → p.id = u

/-- Both events of a claim tell of it. -/
theorem tells_announced (hdb : db.Keyed) (hrun : (systemMachine db).run as = some x) {k : Claim}
    (hk : k ∈ x.env.world.claims) {v : UserID} {e : MatchFound} (h : k.Announces v e) :
    k.Tells v e := by
  have hne := (sound_of_run hrun).coherent.distinct k hk
  obtain ⟨user, hcomposed⟩ := composed_of_run hrun k hk
  rcases h with ⟨rfl, rfl⟩ | ⟨rfl, rfl⟩
  · obtain ⟨profile, hread, he⟩ := hcomposed.eventA
    have hid := hdb _ _ (made_profile hread)
    rw [he]
    exact ⟨by rw [if_pos rfl]; exact hid, (decide_eq_true rfl).symm, rfl, rfl, rfl, rfl⟩
  · rw [hcomposed.eventB]
    exact ⟨by rw [if_neg hne]; exact hcomposed.userA.symm, (decide_eq_false hne).symm,
      rfl, rfl, rfl, rfl⟩

/-- A recovered event tells a participant of the claim of its match. -/
theorem tells_recovered (hdb : db.Keyed) (hrun : (systemMachine db).run as = some x)
    {s : Session} (hs : s ∈ x.sessions) {m : MatchID} {found : MatchFound}
    {st : Option MatchStatus} {conn : Option String}
    (h : Event.matchRecovered m found st conn ∈ s.sent) :
    ∃ k ∈ x.env.world.claims, k.matchID = m ∧ (s.user.id = k.userA ∨ s.user.id = k.userB) ∧
      k.Tells s.user.id found := by
  obtain ⟨current, y, profile, now, hread, hprofile, hback, rfl, rfl⟩ :=
    recalled_of_run hrun s hs m found st conn h
  obtain ⟨_, k, hk, hr⟩ := made_matchHash hrun hread
  exact ⟨k, hk, hr.id.symm, participant_of_reconnect hrun hback hk hr.id.symm,
    tells_found hr (hdb _ _ (made_profile hprofile))⟩

end

/-- `u` was told to be the offerer of `m`, at the claim or on a recovery. -/
def System.ToldOfferer (x : System) (m : MatchID) (u : UserID) : Prop :=
  (∃ e : MatchFound, (u, Event.matchFound m e) ∈ x.env.world.published ∧ e.offerer = true) ∨
    ∃ s ∈ x.sessions, s.user.id = u ∧
      ∃ (found : MatchFound) (st : Option MatchStatus) (conn : Option String),
        Event.matchRecovered m found st conn ∈ s.sent ∧ found.offerer = true

/-- From the texts of `h` the socket handler builds for each participant of `k`
    what the claim told it; it finds no match when an id is empty. -/
def ReadsBack (h : MatchHash) (k : Claim) : Prop :=
  ∃ current : Option MatchState,
    h.texts.currentMatch k.matchID = .ok (current.map MatchState.plain) ∧
    (current = none ↔ k.userA = "" ∨ k.userB = "") ∧
    ∀ st ∈ current, ∀ v e p, k.Announces v e → p.id = peer st v → (st.found v p).Same e

section
variable {db : Database} {as : List Action} {x : System}

theorem readsBack_of_live (hdb : db.Keyed) (hrun : (systemMachine db).run as = some x)
    {k : Claim} (hk : k ∈ x.env.world.claims) {h : MatchHash}
    (hh : x.store.matches_.get k.matchID = some h) (hstart : IsInt64 k.now)
    (hend : IsInt64 (k.now + encounterLength)) : ReadsBack h k := by
  have hr := (sound_of_run hrun).coherent.records_unique hk rfl hh
  obtain ⟨current, hread, hnone, hcurrent⟩ := currentMatch_of_records hh hr hstart hend
  refine ⟨current, hread, hnone, fun st hst v e p he hp => ?_⟩
  exact (tells_found (hcurrent st hst) hp).same (tells_announced hdb hrun hk he)

/-- The claimer and nobody else is told to be the offerer. -/
theorem toldOfferer_iff (hdb : db.Keyed) (hrun : (systemMachine db).run as = some x)
    {k : Claim} (hk : k ∈ x.env.world.claims) {u : UserID} :
    x.ToldOfferer k.matchID u ↔ u = k.userA := by
  have hpub := @found_of_run _ _ (sound_of_run hrun).store
  have hunique := (sound_of_run hrun).coherent.unique
  constructor
  · rintro (⟨e, he, hoff⟩ | ⟨s, hs, rfl, found, st, conn, hsent, hoff⟩)
    · obtain ⟨k', hk', hkm, hann⟩ := hpub.mp he
      rw [hunique k' hk' k hk hkm] at hann
      rw [(tells_announced hdb hrun hk hann).offerer] at hoff
      exact (of_decide_eq_true hoff).symm
    · obtain ⟨k', hk', hkm, _, htells⟩ := tells_recovered hdb hrun hs hsent
      rw [hunique k' hk' k hk hkm] at htells
      rw [htells.offerer] at hoff
      exact (of_decide_eq_true hoff).symm
  · rintro rfl
    have hann : k.Announces k.userA k.eventA := Or.inl ⟨rfl, rfl⟩
    refine Or.inl ⟨k.eventA, hpub.mpr ⟨k, hk, rfl, hann⟩, ?_⟩
    rw [(tells_announced hdb hrun hk hann).offerer]
    exact decide_eq_true rfl

/-- At every moment of every run: a recovered event tells its client what the
    event of the same match that was published to it told; each claim has
    published its two events and no other; the texts of a live hash read back as
    them; and one user has ever been told to be the offerer. -/
theorem recovery_reproduces (hdb : db.Keyed) (hrun : (systemMachine db).run as = some x) :
    (∀ s ∈ x.sessions, ∀ m found st conn, Event.matchRecovered m found st conn ∈ s.sent →
      ∃ e, (s.user.id, Event.matchFound m e) ∈ x.env.world.published ∧ found.Same e) ∧
    ∀ k ∈ x.env.world.claims,
      (∀ v e, (v, Event.matchFound k.matchID e) ∈ x.env.world.published ↔ k.Announces v e) ∧
      (∀ h, x.store.matches_.get k.matchID = some h → IsInt64 k.now →
        IsInt64 (k.now + encounterLength) → ReadsBack h k) ∧
      ∃! u, x.ToldOfferer k.matchID u := by
  have hpub := @found_of_run _ _ (sound_of_run hrun).store
  refine ⟨fun s hs m found st conn hsent => ?_, fun k hk => ⟨fun v e => ?_, ?_, ?_⟩⟩
  · obtain ⟨k, hk, hkm, hv, htells⟩ := tells_recovered hdb hrun hs hsent
    -- the event that was published to this participant
    obtain ⟨e, he⟩ : ∃ e, k.Announces s.user.id e := by
      rcases hv with hv | hv
      · exact ⟨k.eventA, Or.inl ⟨hv, rfl⟩⟩
      · exact ⟨k.eventB, Or.inr ⟨hv, rfl⟩⟩
    exact ⟨e, hpub.mpr ⟨k, hk, hkm, he⟩, htells.same (tells_announced hdb hrun hk he)⟩
  · rw [hpub]
    constructor
    · rintro ⟨k', hk', hkm, he⟩
      rwa [(sound_of_run hrun).coherent.unique k' hk' k hk hkm] at he
    · exact fun he => ⟨k, hk, rfl, he⟩
  · exact fun h hh hstart hend => readsBack_of_live hdb hrun hk hh hstart hend
  · exact ⟨k.userA, (toldOfferer_iff hdb hrun hk).mpr rfl,
      fun u hu => (toldOfferer_iff hdb hrun hk).mp hu⟩

end

/-- After Ann's vote to extend, Ben, who claimed her, loses his connection and opens
    another. -/
def reopened : List Action :=
  matched ++ [.frame 0 (.extend "m1")] ++ turns 0 2 "" ++ [.hangup 1] ++ turns 1 1 ""
    ++ [.accept ben "c3"] ++ turns 2 8 ""

theorem keyed_twoUsers : twoUsers.Keyed := by
  intro u p hp
  simp only [twoUsers] at hp
  split at hp
  · next hu =>
      cases hp
      exact hu.symm
  · split at hp
    · next hu =>
        cases hp
        exact hu.symm
    · cases hp

/-- Ben is told again of the match with Ann, which is still live. -/
theorem recovery_reproduces_reopened : ∃ x s found h,
    (systemMachine twoUsers).run reopened = some x ∧
    s ∈ x.sessions ∧ s.user = ben ∧ Event.matchRecovered "m1" found (some .active) none ∈ s.sent ∧
    (∃ e, ("ben", Event.matchFound "m1" e) ∈ x.env.world.published ∧ found.Same e) ∧
    x.store.matches_.get "m1" = some h ∧ ReadsBack h benClaim ∧ ∃! u, x.ToldOfferer "m1" u := by
  have hobs : ((systemMachine twoUsers).run reopened).map (fun x =>
      (x.sessions[2]?.map (fun s => decide (s.user = ben ∧ s.sent = [.connectionReady "ben",
          .matchRecovered "m1" ⟨ann, [], "new_friends", true, 0, 60000⟩ (some .active) none])),
        decide (benClaim ∈ x.env.world.claims), (x.store.matches_.get "m1").isSome)) =
      some (some true, true, true) := by
    decide +kernel
  obtain ⟨x, hx, hobs⟩ := Option.map_eq_some_iff.mp hobs
  simp only [Prod.mk.injEq, decide_eq_true_eq, Option.map_eq_some_iff] at hobs
  obtain ⟨⟨s, hs, huser, hsent⟩, hclaim, hlive⟩ := hobs
  obtain ⟨h, hh⟩ := Option.isSome_iff_exists.mp hlive
  obtain ⟨hrecovered, hclaims⟩ := recovery_reproduces keyed_twoUsers hx
  obtain ⟨_, hback, htold⟩ := hclaims benClaim hclaim
  have hmem := List.mem_of_getElem? hs
  have hsent : Event.matchRecovered "m1" ⟨ann, [], "new_friends", true, 0, 60000⟩ (some .active)
      none ∈ s.sent := by
    rw [hsent]
    exact List.mem_cons_of_mem _ List.mem_cons_self
  have hsame := hrecovered s hmem _ _ _ _ hsent
  rw [huser] at hsame
  exact ⟨x, s, _, h, hx, hmem, huser, hsent, hsame, hh, hback h hh (by decide) (by decide), htold⟩

end OneMinute
