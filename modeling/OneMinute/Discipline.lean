/-
  OneMinute.Discipline

  What the handlers' programs can ask for, whatever the replies they get.

  A session acts for its own user and connection; it claims only the pair that
  EligiblePair has just confirmed; it persists only a match it has read after
  its own vote was answered with 2, and publishes only an id that
  PersistConnection returned (`Disciplined`).  Requests and sweeps only end
  matches, block, unblock and remove (`TaskDisciplined`).
-/

import OneMinute.System

namespace OneMinute

open Discovery Process

/-! ## The programs of a session -/

section
variable {P : List (Exchange api) → Call → Prop} {tr : List (Exchange api)} {user : Profile}
  {c : ConnectionID} {p : Preferences}

/-- The opening connects first, and tells of a recovered match when it has read the
    match and the peer and Reconnect has answered 1. -/
theorem always_opening (hconnect : P [] (.store (.connect user.id c)))
    (hice : ∀ tr, P tr (.iceConfiguration user.id))
    (hready : ∀ tr, P tr (.write (.connectionReady user.id)))
    (hptr : ∀ tr, P tr (.userMatch user.id)) (hhash : ∀ tr m, P tr (.matchHash m))
    (hprofile : ∀ tr u, P tr (.profile u))
    (hreconnect : ∀ tr m now, P tr (.store (.reconnect user.id c m now)))
    (hrecovered : ∀ tr current x profile now,
      (⟨.matchHash x, some (.ok (some current))⟩ : Exchange api) ∈ tr →
      (⟨.profile (peer current user.id), some profile⟩ : Exchange api) ∈ tr →
      (⟨.store (.reconnect user.id c current.id now), some (1 : Int)⟩ : Exchange api) ∈ tr →
      P tr (.write (.matchRecovered current.id
        ⟨profile, current.sharedInterests, current.intent, decide (current.userA = user.id),
          current.startedAt, current.expiresAt⟩ current.state current.connectionID))) :
    Always P [] (opening user c) fun _ _ => True := by
  refine always_bind (always_script (fun _ => hconnect) fun _ r => ?_)
  match r with
  | none => trivial
  | some _ =>
      refine always_bind (always_call (hice _) fun r => ?_)
      match r with
      | none => trivial
      | some () =>
          refine always_bind (always_call (hready _) fun r => ?_)
          match r with
          | none => trivial
          | some () =>
              refine always_bind (always_currentMatch (hptr _) (fun _ => hhash _ _) ?_ ?_)
              · intro r hr
                match r with
                | none => trivial
                | some none => trivial
                | some (some x) => exact absurd rfl (hr x)
              · intro x r
                match r with
                | none => trivial
                | some (.error _) => trivial
                | some (.ok none) => trivial
                | some (.ok (some current)) =>
                    refine always_bind (always_call (hprofile _ _) fun profile => ?_)
                    refine always_bind (always_script (fun _ => hreconnect _ _ _)
                      fun d reconnected => ?_)
                    split
                    · next profile =>
                        -- all three reads are among the last exchanges
                        refine always_bind (always_call
                          (hrecovered _ current x profile d.now ?_ ?_ ?_) fun r => ?_)
                        · simp
                        · simp
                        · simp
                        · match r with
                          | none => trivial
                          | some () => trivial
                    · trivial

/-- A pass asks whether pairs are recent, and claims from compatible candidates. -/
theorem always_tryPass {second : Bool} (l : List QueuedUser) (tr : List (Exchange api))
    (hrecent : ∀ tr q, P tr (.recent user.id q))
    (hclaim : ∀ q ∈ l, compatible p q.preferences = true → ∀ tr', tr ⊆ tr' →
      Always P tr' (claimCandidate user c p q second) fun _ _ => True) :
    Always P tr (tryPass user c p second l) fun _ _ => True := by
  induction l generalizing tr with
  | nil => trivial
  | cons q rest ih =>
      have hrest : ∀ tr', tr ⊆ tr' →
          Always P tr' (tryPass user c p second rest) fun _ _ => True := by
        intro tr' hsub
        exact ih tr' fun q' hq' hcompatible tr'' hsub' =>
          hclaim q' (List.mem_cons_of_mem _ hq') hcompatible tr'' (List.Subset.trans hsub hsub')
      unfold tryPass
      split
      · exact hrest tr (List.Subset.refl _)
      · next hcompatible =>
          refine always_bind (always_call (hrecent _ _) fun recent => ?_)
          split
          · exact hrest _ (List.subset_cons_self _ _)
          · have hclaimed := hclaim q List.mem_cons_self (Bool.of_not_eq_false hcompatible) _
              (List.subset_cons_self ⟨.recent user.id q.id, recent⟩ tr)
            refine always_bind (hclaimed.grows.post fun tr' claimed hgrow => ?_)
            match claimed with
            | none => trivial
            | some true => trivial
            | some false => exact hrest tr' (List.subset_of_cons_subset hgrow.2)

/-- `queue.join` enqueues first, and matches once it has. -/
theorem always_queueJoin
    (henqueue : ∀ now, P tr (.store (.enqueue user.id c p now)))
    (hjoined : ∀ tr now, P tr (.write (.queueJoined p now)))
    (herror : ∀ tr code, P tr (.write (.error "" code)))
    (hmatch : ∀ now tr', (⟨.store (.enqueue user.id c p now), some (1 : Int)⟩ :
      Exchange api) ∈ tr' → Always P tr' (tryMatch user c p) fun _ _ => True) :
    Always P tr (queueJoin user c p) fun _ _ => True := by
  have htell : ∀ tr code, Always P tr (do tell (.error "" code); return Next.read)
      fun _ _ => True := fun tr code => always_bind (always_tell (herror tr code) fun _ => trivial)
  refine always_bind (always_script (fun d => henqueue d.now) fun d r => ?_)
  split
  · refine always_bind (fun d' => ⟨hjoined _ _, fun r => ?_⟩)
    match r with
    | none => trivial
    | some () =>
        have hmem : (⟨.store (.enqueue user.id c p d.now), some (1 : Int)⟩ : Exchange api) ∈
            [⟨.write (.queueJoined p d'.now), some ()⟩,
              ⟨.store (.enqueue user.id c p d.now), some (1 : Int)⟩] ++ tr := by
          simp
        refine always_bind ((hmatch d.now _ hmem).post fun tr r _ => ?_)
        match r with
        | none => exact htell _ _
        | some () => trivial
  · exact htell _ _

end

/-! ## The discipline of a session -/

/-- `op` is for user `u` on connection `c`, before the cleanup. -/
def ServedBy (u : UserID) (c : ConnectionID) : Op → Prop
  | .connect v e | .heartbeat v e | .enqueue v e _ _ | .leaveQueue v e | .reconnect v e _ _
  | .signal v e _ | .extend v e _ _ | .connectVote v e _ _ => v = u ∧ e = c
  | .endMatch v e _ reason => v = u ∧ e = c ∧ (reason = .left ∨ reason = .skipped)
  | .claim k => k.userA = u ∧ k.userB ≠ u
  | .cleanupQueued _ _ | .publishConnection _ _ => True
  | .disconnect _ _ _ | .endForUser _ _ _ | .expire _ _ | .disconnectExpiry _ _ _ | .tick _ => False

/-- The pair that EligiblePair confirmed and for which no script ran since. -/
def checked : List (Exchange api) → Option (UserID × UserID)
  | [] => none
  | ⟨.eligiblePair a b, some true⟩ :: _ => some (a, b)
  | ⟨.eligiblePair _ _, _⟩ :: _ => none
  | ⟨.store _, _⟩ :: _ => none
  | ⟨.profile _, none⟩ :: _ => none
  | _ :: tr => checked tr

/-- The vote of `u` on `m`'s id was answered with 2, and `m` was read. -/
def Voted (u : UserID) (c : ConnectionID) (tr : List (Exchange api)) (m : MatchState) : Prop :=
  (∃ now, (⟨.store (.connectVote u c m.id now), some (2 : Int)⟩ : Exchange api) ∈ tr) ∧
    ∃ x, (⟨.matchHash x, some (.ok (some m))⟩ : Exchange api) ∈ tr

/-- PersistConnection returned `id` for the match `m`. -/
def Persisted (tr : List (Exchange api)) (m : MatchID) (id : String) : Prop :=
  ∃ s t i, (⟨.persistConnection s t i, some id⟩ : Exchange api) ∈ tr ∧ s.id = m

def Disciplined (u : UserID) (c : ConnectionID) (tr : List (Exchange api)) : Call → Prop
  | .store op =>
    ServedBy u c op ∧
      match op with
      | .claim k => checked tr = some (k.userA, k.userB)
      | .publishConnection m id => Persisted tr m id
      | _ => True
  | .persistConnection m _ _ => Voted u c tr m
  | .block _ _ _ | .unblock _ _ | .remove _ _ _ => False
  | _ => True

section
variable {u : UserID} {c : ConnectionID} {tr : List (Exchange api)}

/-- A program that only has to keep the discipline. -/
abbrev Keeps {α : Type} (u : UserID) (c : ConnectionID) (tr : List (Exchange api))
    (p : Proc α) : Prop :=
  Always (Disciplined u c) tr p fun _ _ => True

theorem keeps_tell_done {α : Type} (e : Event) (a : α) :
    Keeps u c tr (do tell e; return a) :=
  always_bind (always_tell trivial fun _ => trivial)

/-! ## Matchmaking -/

/-- Candidates never returns the caller. -/
theorem always_scan (items : List (UserID × Int)) (tr : List (Exchange api)) :
    Always (Disciplined u c) tr (scan u items) fun _ found => ∀ q ∈ found, q.id ≠ u := by
  induction items generalizing tr with
  | nil => exact fun q hq => nomatch hq
  | cons item rest ih =>
      obtain ⟨id, score⟩ := item
      unfold scan
      split
      · exact ih tr
      -- the entry of another user
      · next hid =>
          refine always_bind (always_call trivial fun r => ?_)
          match r with
          | none => exact ih _
          | some none => exact ih _
          | some (some state) =>
              dsimp only
              split
              · exact ih _
              · refine always_bind (always_call trivial fun r => ?_)
                split
                · refine always_bind (always_script (fun _ => ⟨trivial, trivial⟩) fun _ _ => ?_)
                  exact ih _
                · refine always_bind ((ih _).post fun _ found hfound => ?_)
                  intro q hq
                  rcases List.mem_cons.mp hq with rfl | hq
                  · exact hid
                  · exact hfound q hq

theorem always_candidates :
    Always (Disciplined u c) tr (candidates u)
      fun _ found => ∀ l, found = some l → ∀ q ∈ l, q.id ≠ u := by
  refine always_bind (always_call trivial fun r => ?_)
  match r with
  | none => exact fun l e => nomatch e
  | some items =>
      refine always_bind ((always_scan items _).post fun _ found hfound => ?_)
      intro l e
      cases e
      exact hfound

theorem keeps_claimCandidate {user : Profile} {p : Preferences} {candidate : QueuedUser}
    {recent : Bool} (hne : candidate.id ≠ user.id) (tr : List (Exchange api)) :
    Keeps user.id c tr (claimCandidate user c p candidate recent) := by
  refine always_bind (always_call trivial fun r => ?_)
  match r with
  | none => trivial
  | some false => trivial
  | some true =>
      refine always_bind (always_call trivial fun r => ?_)
      match r with
      | none => trivial
      | some candidateProfile =>
          exact always_bind (always_script (fun d => ⟨⟨rfl, hne⟩, rfl⟩) fun _ _ => trivial)

theorem keeps_tryPass {user : Profile} {p : Preferences} {second : Bool}
    (l : List QueuedUser) (hl : ∀ q ∈ l, q.id ≠ user.id) (tr : List (Exchange api)) :
    Keeps user.id c tr (tryPass user c p second l) :=
  always_tryPass l tr (fun _ _ => trivial) fun q hq _ tr' _ => keeps_claimCandidate (hl q hq) tr'

theorem keeps_tryMatch {user : Profile} {p : Preferences} (tr : List (Exchange api)) :
    Keeps user.id c tr (tryMatch user c p) := by
  refine always_bind (always_candidates.post fun tr found hfound => ?_)
  -- sorting keeps the candidates, so none is the caller
  match found with
  | none => trivial
  | some l =>
      have hsorted : ∀ q ∈ sortCandidates p l, q.id ≠ user.id := by
        intro q hq
        exact hfound l rfl q ((List.mem_insertionSort _).mp hq)
      refine always_bind ((keeps_tryPass _ hsorted tr).post ?_)
      intro tr claimed _
      match claimed with
      | none => trivial
      | some true => trivial
      | some false => exact always_bind ((keeps_tryPass _ hsorted tr).post fun _ _ _ => trivial)

/-! ## The socket -/

theorem keeps_opening {user : Profile} : Keeps user.id c [] (opening user c) :=
  always_opening ⟨⟨rfl, rfl⟩, trivial⟩ (fun _ => trivial) (fun _ => trivial) (fun _ => trivial)
    (fun _ _ => trivial) (fun _ _ => trivial) (fun _ _ _ => ⟨⟨rfl, rfl⟩, trivial⟩)
    fun _ _ _ _ _ _ _ _ => trivial

/-- The heart of the connect path: what is persisted was read after the vote,
    and what is published was persisted. -/
theorem keeps_persistVotes {m : MatchID}
    (hvote : ∃ now, (⟨.store (.connectVote u c m now), some (2 : Int)⟩ : Exchange api) ∈ tr) :
    Keeps u c tr (persistVotes u m) := by
  refine always_bind (always_currentMatch trivial (fun _ => trivial) ?_ ?_)
  · intro r hr
    match r with
    | none => trivial
    | some none => trivial
    | some (some x) => exact absurd rfl (hr x)
  · intro x r
    match r with
    | none => trivial
    | some (.error _) => trivial
    | some (.ok none) => trivial
    | some (.ok (some current)) =>
        show Keeps u c _ (if current.id ≠ m then _ else _)
        split
        · trivial
        · next hid =>
            have hid := not_not.mp hid
            refine always_bind (always_persist (fun t i => ?_) fun t i r => ?_)
            · -- the vote and the read are in the trace
              obtain ⟨now, hnow⟩ := hvote
              refine ⟨⟨now, ?_⟩, x, List.mem_cons_self⟩
              rw [hid]
              exact List.mem_cons_of_mem _ (List.mem_cons_of_mem _ hnow)
            · match r with
              | none => exact keeps_tell_done _ _
              | some durableID =>
                  refine always_bind (always_script (fun _ => ⟨trivial, ?_⟩) fun _ _ => trivial)
                  exact ⟨current, t, i, List.mem_cons_self, hid⟩

/-- Recalling a connection reads the match and may write to the client. -/
theorem always_recallConnection {P : List (Exchange api) → Call → Prop} {m : MatchID}
    (hptr : ∀ tr, P tr (.userMatch u)) (hhash : ∀ tr x, P tr (.matchHash x))
    (hwrite : ∀ tr id, P tr (.write (.connectionCreated m id))) :
    Always P tr (recallConnection u m) fun _ _ => True := by
  refine always_currentMatch_bind hptr hhash fun tr r => ?_
  match r with
  | none => trivial
  | some none => trivial
  | some (some current) =>
      dsimp only
      split
      · split
        · exact always_bind (always_tell (hwrite _ _) fun _ => trivial)
        · trivial
      · trivial

theorem keeps_matchConnect {m : MatchID} : Keeps u c tr (matchConnect u c m) := by
  refine always_bind (always_script (fun _ => ⟨⟨rfl, rfl⟩, trivial⟩) fun d r => ?_)
  match r with
  | none => exact keeps_tell_done _ _
  | some result =>
      dsimp only
      split
      · exact keeps_tell_done _ _
      · split
        · exact keeps_tell_done _ _
        · split
          · exact always_recallConnection (fun _ => trivial) (fun _ _ => trivial) fun _ _ => trivial
          · split
            -- the vote that completes the two
            · next h2 =>
                refine keeps_persistVotes ⟨d.now, ?_⟩
                rw [h2]
                exact List.mem_cons_self
            · trivial

theorem keeps_matchExtend {m : MatchID} : Keeps u c tr (matchExtend u c m) := by
  refine always_bind (always_script (fun _ => ⟨⟨rfl, rfl⟩, trivial⟩) fun _ r => ?_)
  match r with
  | none => exact keeps_tell_done _ _
  | some result =>
      dsimp only
      split
      · exact keeps_tell_done _ _
      · split
        · exact keeps_tell_done _ _
        · trivial

theorem keeps_queueJoin {user : Profile} {p : Preferences} :
    Keeps user.id c tr (queueJoin user c p) :=
  always_queueJoin (fun _ => ⟨⟨rfl, rfl⟩, trivial⟩) (fun _ _ => trivial) (fun _ _ => trivial)
    fun _ tr' _ => keeps_tryMatch tr'

theorem keeps_handle {user : Profile} (f : Frame) : Keeps user.id c [] (handle user c f) := by
  cases f with
  | heartbeat =>
      refine always_bind (always_script (fun _ => ⟨⟨rfl, rfl⟩, trivial⟩) fun _ r => ?_)
      split <;> trivial
  | queueJoin p => exact keeps_queueJoin
  | queueLeave =>
      refine always_bind (always_script (fun _ => ⟨⟨rfl, rfl⟩, trivial⟩) fun _ r => ?_)
      split
      · trivial
      · exact keeps_tell_done _ _
  | webrtc env =>
      dsimp only [handle]
      split
      · trivial
      · refine always_bind (always_script (fun _ => ⟨⟨rfl, rfl⟩, trivial⟩) fun _ r => ?_)
        split
        · trivial
        · exact keeps_tell_done _ _
  | leave m =>
      dsimp only [handle]
      split
      · trivial
      · exact always_bind (always_script (fun _ => ⟨⟨rfl, rfl, Or.inl rfl⟩, trivial⟩)
          fun _ _ => trivial)
  | skip m =>
      dsimp only [handle]
      split
      · trivial
      · exact always_bind (always_script (fun _ => ⟨⟨rfl, rfl, Or.inr rfl⟩, trivial⟩)
          fun _ _ => trivial)
  | extend m =>
      dsimp only [handle]
      split
      · trivial
      · exact keeps_matchExtend
  | connect m =>
      dsimp only [handle]
      split
      · trivial
      · exact keeps_matchConnect
  | invalid => exact keeps_tell_done _ _

/-- A session's calls: those above, and last the Disconnect of its cleanup. -/
def Allowed (u : UserID) (c : ConnectionID) (tr : List (Exchange api)) (call : Call) : Prop :=
  Disciplined u c tr call ∨ ∃ now, call = .store (.disconnect u c now)

/-- Every program of a session keeps the discipline. -/
theorem allowed_program {user : Profile} (stage : Stage) :
    Always (Allowed user.id c) [] (stage.program user c) fun _ _ => True := by
  cases stage with
  | opening => exact keeps_opening.allow fun _ _ => Or.inl
  | frame f => exact (keeps_handle f).allow fun _ _ => Or.inl
  | cleanup => exact always_bind (always_script (fun d => Or.inr ⟨d.now, rfl⟩) fun _ _ => trivial)

/-- A session that makes its Disconnect is gone after it. -/
theorem gone_of_disconnect {user : Profile} {stage : Stage} {call : Draw → Call}
    {k : (d : Draw) → Option (call d).Reply → Proc Next} {d : Draw} {v : UserID}
    {e : ConnectionID} {now : UnixMilli}
    (hu : Unfolds (stage.program user c) tr (.ask call k))
    (hd : call d = .store (.disconnect v e now)) (r : Option (call d).Reply) :
    k d r = .done .gone := by
  -- a serving program makes no Disconnect at all
  have hserving : Keeps user.id c [] (stage.program user c) → k d r = .done .gone := by
    intro hkeeps
    have hcall := (hkeeps.unfolds hu d).1
    rw [hd] at hcall
    exact hcall.1.elim
  cases stage with
  | opening => exact hserving keeps_opening
  | frame f => exact hserving (keeps_handle f)
  | cleanup =>
      -- its one call is its first
      have honce : Always (fun tr _ => tr = []) [] (Discovery.cleanup user c)
          fun _ next => next = Next.gone :=
        always_bind (always_script (fun _ => rfl) fun _ _ => rfl)
      have hrest := (honce.unfolds hu d).2 r
      generalize k d r = q at hrest
      cases q with
      | done next =>
          have hnext : next = Next.gone := hrest
          rw [hnext]
      | ask call' k' => cases (hrest d).1

end

/-! ## The discipline of a task -/

def TaskDisciplined (_ : List (Exchange api)) : Call → Prop
  | .store op =>
    match op with
    | .endForUser _ _ reason => reason = .blocked
    | .expire _ _ | .disconnectExpiry _ _ _ => True
    | _ => False
  | .persistConnection _ _ _ => False
  | _ => True

theorem task_sweepDeadlines (now : UnixMilli) (l : List MatchID) (tr : List (Exchange api)) :
    Always TaskDisciplined tr (sweepDeadlines now l) fun _ _ => True := by
  induction l generalizing tr with
  | nil => trivial
  | cons m rest ih =>
      refine always_bind (always_script (fun _ => trivial) fun _ r => ?_)
      match r with
      | none => trivial
      | some _ => exact ih _

theorem task_sweepDisconnects (now : UnixMilli) (l : List (MatchID × UserID))
    (tr : List (Exchange api)) :
    Always TaskDisciplined tr (sweepDisconnects now l) fun _ _ => True := by
  induction l generalizing tr with
  | nil => trivial
  | cons x rest ih =>
      refine always_bind (always_script (fun _ => trivial) fun _ r => ?_)
      match r with
      | none => trivial
      | some _ => exact ih _

theorem task_sweep (now : UnixMilli) :
    Always TaskDisciplined [] (sweep now) fun _ _ => True := by
  refine always_bind (always_call trivial fun r => ?_)
  match r with
  | none => trivial
  | some l =>
      refine always_bind ((task_sweepDeadlines now l _).post fun tr b _ => ?_)
      match b with
      | false => trivial
      | true =>
          refine always_bind (always_call trivial fun r => ?_)
          match r with
          | none => trivial
          | some l => exact task_sweepDisconnects now l _

theorem task_inMatchWith (u : UserID) (body : Social.BlockBody) (tr : List (Exchange api)) :
    Always TaskDisciplined tr (Social.inMatchWith u body) fun _ _ => True := by
  unfold Social.inMatchWith
  split
  · trivial
  · refine always_bind (always_currentMatch trivial (fun _ => trivial) (fun r _ => ?_)
      fun m r => ?_)
    · split <;> trivial
    · split <;> trivial

theorem task_connectedTo (u : UserID) (body : Social.BlockBody) (tr : List (Exchange api)) :
    Always TaskDisciplined tr (Social.connectedTo u body) fun _ _ => True := by
  unfold Social.connectedTo
  split
  · trivial
  · refine always_bind (always_call trivial fun r => ?_)
    split <;> trivial

theorem task_carryOut (u : UserID) (body : Social.BlockBody) (tr : List (Exchange api)) :
    Always TaskDisciplined tr (Social.carryOut u body) fun _ _ => True := by
  refine always_bind fun d => ⟨trivial, fun r => ?_⟩
  match r with
  | none => trivial
  | some () =>
      dsimp only
      split
      · trivial
      · exact always_bind (always_script (fun _ => rfl) fun _ _ => trivial)

theorem task_block (u : UserID) (body : Social.BlockBody) :
    Always TaskDisciplined [] (Social.block u body) fun _ _ => True := by
  have hrest : ∀ tr (authorized : Bool), Always TaskDisciplined tr
      (if authorized = false then return 403 else Social.carryOut u body) fun _ _ => True := by
    -- both ways to be authorized go on alike
    intro tr authorized
    split
    · trivial
    · exact task_carryOut u body tr
  unfold Social.block
  split
  · trivial
  · refine always_bind ((task_inMatchWith u body _).post fun tr inMatch _ => ?_)
    cases inMatch with
    | true => exact hrest tr true
    | false => exact always_bind ((task_connectedTo u body tr).post fun tr b _ => hrest tr b)

/-- Every request and sweep keeps it. -/
theorem task_program (kind : TaskKind) :
    Always TaskDisciplined [] kind.program fun _ _ => True := by
  cases kind with
  | block u body => exact always_bind ((task_block u body).post fun _ _ _ => trivial)
  | unblock u target =>
      refine always_bind (always_bind (always_call trivial fun r => ?_))
      match r with
      | none => trivial
      | some () => trivial
  | remove u connectionID =>
      refine always_bind (always_bind (fun d => ⟨trivial, fun r => ?_⟩))
      match r with
      | none => trivial
      | some false => trivial
      | some true => trivial
  | sweep now => exact always_bind ((task_sweep now).post fun _ _ _ => trivial)

end OneMinute
