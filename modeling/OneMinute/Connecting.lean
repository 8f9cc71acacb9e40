/-
  OneMinute.Connecting

  From two Connect votes to a connections row and its publication.

  PersistConnection is called only by a session whose vote completed the two
  and that has read the match since (`persist_voted`), so whatever the
  interleaving, a row stands for two votes, and the unique encounter id and the
  `connectPersisted` flag make it one row and one publication
  (`connected_once`).  What can be lost is the row itself: when the match is no
  longer the voter's by the time its handler reads it again, the handler leaves
  without a row and without a word (`connect_resolved_iff`).
-/

import OneMinute.Runs

namespace OneMinute

open Discovery Process

/-! ## Rows and votes -/

section
variable {db : Database} {as : List Action} {x : System}

/-- PersistConnection is for a claimed match with the votes of both
    participants. -/
theorem persist_voted {a : Action} {fault : Fault} {st : MatchState} {endedAt : UnixMilli}
    {i : String} (hrun : (systemMachine db).run as = some x)
    (hm : x.makes a = some (fault, .persistConnection st endedAt i)) :
    ∃ k ∈ x.env.world.claims, k.matchID = st.id ∧ st.userA = k.userA ∧ st.userB = k.userB ∧
      ConnectVoted x.history k.matchID k.userA ∧ ConnectVoted x.history k.matchID k.userB := by
  have hsound := sound_of_run hrun
  rcases hsound.makes hm with ⟨s, hs, hd | ⟨_, e⟩⟩ | ⟨t, _, hd⟩
  · obtain ⟨⟨now, hvote⟩, y, hread⟩ := hd
    have hmade := (made_of_run hrun).1 s hs
    obtain ⟨_, k, hk, hr⟩ := made_matchHash hrun (hmade _ hread)
    obtain ⟨pre, post, w, hhist, hpre, hrest, hreply⟩ := made_store hrun (hmade _ hvote)
    obtain ⟨k', hk', hkm', hvA, hvB⟩ := both_voted hpre hreply
    -- both reads of the match found the hash of one claim
    have hsame : k' = k := hsound.coherent.unique k' (claims_subset_of_runFrom hrest hk') k hk
      (hkm'.trans hr.id)
    rw [hsame, hr.id] at hvA hvB
    refine ⟨k, hk, hr.id.symm, hr.userA, hr.userB, ?_, ?_⟩
    · rw [hhist, List.append_cons, hr.id]
      exact hvA.append post
    · rw [hhist, List.append_cons, hr.id]
      exact hvB.append post
  · cases e
  · exact hd.elim

end

/-- The encounters with a connections row. -/
abbrev Database.connected (db : Database) : List MatchID :=
  db.connections.rows.map ConnectionRow.encounterID

/-- A transaction gives no encounter its first row, except a PersistConnection
    that inserts. -/
theorem commit_connected {db db' : Database} {c : Call} (h : Commit db c db') :
    db'.connected = db.connected ∨
      ∃ m endedAt id, c = .persistConnection m endedAt id ∧
        db'.connections.rows = Database.connectionOf m endedAt id :: db.connections.rows := by
  -- ending rows changes no encounter
  have hend : ∀ p now, (db.connections.endWhere p now).rows.map ConnectionRow.encounterID =
      db.connected := by
    intro p now
    show (db.connections.rows.map (ConnectionRow.endIf p now)).map _ = _
    rw [List.map_map]
    exact List.map_congr_left fun r _ => ConnectionRow.endIf_encounterID p now r
  cases h with
  | none _ => exact Or.inl rfl
  | persistConnection m endedAt id durableID _ hok =>
      rcases Database.persistConnection_rows hok with hsame | ⟨_, hrows⟩
      · left
        rw [Database.connected, hsame]
      · exact Or.inr ⟨m, endedAt, id, rfl, hrows⟩
  | block u target now _ hok =>
      left
      rw [Database.connected, (Database.block_eq_ok hok).2]
      exact hend _ _
  | unblock u target v _ => exact Or.inl rfl
  | remove u connectionID c now _ => exact Or.inl (hend _ _)

theorem commit_extends {db db' : Database} {c : Call} (h : Commit db c db') :
    db.connections.Extends db'.connections := by
  cases h with
  | none _ => exact ConnectionTable.Extends.refl _
  | persistConnection m endedAt id durableID _ hok =>
      exact ConnectionTable.connect_extends (Database.persistConnection_eq_ok hok).2.2.2
  | block u target now _ hok =>
      rw [(Database.block_eq_ok hok).2]
      exact ConnectionTable.endWhere_extends _ _ _
  | unblock u target v _ => exact ConnectionTable.Extends.refl _
  | remove u connectionID c now _ => exact ConnectionTable.endWhere_extends _ _ _

/-- Connections rows are never deleted. -/
theorem extends_of_runFrom {db : Database} {y x : System} {bs : List Action}
    (hrun : (systemMachine db).runFrom y bs = some x) :
    y.env.db.connections.Extends x.env.db.connections := by
  refine Machine.runFrom_invariant (M := systemMachine db)
    (P := fun v => y.env.db.connections.Extends v.env.db.connections) ?_ hrun
    (ConnectionTable.Extends.refl _)
  intro u a v h hstep
  rcases (step_move hstep).db with hdb | ⟨fault, c, _, _, _, hcommit⟩
  · rw [hdb]
    exact h
  · exact h.trans (commit_extends hcommit)

/-- The run inserted the row's encounter at a step before which both
    participants of the match had voted. -/
def InsertedAfterVotes (db : Database) (as : List Action) (r : ConnectionRow) : Prop :=
  ∃ y a z, (systemMachine db).Taken as y a z ∧ r.encounterID ∉ y.env.db.connected ∧
    r.encounterID ∈ z.env.db.connected ∧
    ∃ k ∈ y.env.world.claims, k.matchID = r.encounterID ∧ r.pair = sortPair k.userA k.userB ∧
      ConnectVoted y.history k.matchID k.userA ∧ ConnectVoted y.history k.matchID k.userB

section
variable {db : Database} {as : List Action} {x : System}

theorem insertedAfterVotes_of_run (hrun : (systemMachine db).run as = some x)
    {r : ConnectionRow} (hr : r ∈ x.env.db.connections.rows)
    (hnew : r.encounterID ∉ db.connected) : InsertedAfterVotes db as r := by
  obtain ⟨pre, a, post, y, z, hsplit, hpre, hstep, hpost, hno, hyes⟩ :=
    Machine.exists_change (M := systemMachine db)
      (P := fun y => r.encounterID ∈ y.env.db.connected) hrun hnew (List.mem_map_of_mem hr)
  refine ⟨y, a, z, ⟨pre, post, hsplit, hpre, hstep⟩, hno, hyes, ?_⟩
  rcases (step_move hstep).db with hdb | ⟨fault, c, hm, _, _, hcommit⟩
  · rw [hdb] at hyes
    exact absurd hyes hno
  · rcases commit_connected hcommit with hsame | ⟨st, endedAt, i, rfl, hrows⟩
    · rw [hsame] at hyes
      exact absurd hyes hno
    · obtain ⟨k, hk, hkm, hA, hB, hvA, hvB⟩ := persist_voted hpre hm
      -- the encounter that got its first row is the match persisted
      have hid : r.encounterID = st.id := by
        rw [Database.connected, hrows, List.map_cons] at hyes
        rcases List.mem_cons.mp hyes with e | hold
        · exact e
        · exact absurd hold hno
      -- the row inserted here is the one in the table now
      obtain ⟨r', hr', _, henc, hpair, _⟩ := extends_of_runFrom hpost
        (Database.connectionOf st endedAt i) (by rw [hrows]; exact List.mem_cons_self)
      have hsame : r' = r := List.inj_on_of_nodup_map x.env.db.connections.encounterOnce hr' hr
        (henc.trans hid.symm)
      rw [hsame] at hpair
      refine ⟨k, hk, hkm.trans hid.symm, ?_, hvA, hvB⟩
      rw [hpair, ← hA, ← hB]
      rfl

/-! ## The publication -/

/-- A PersistConnection of the run for the pair of `m` returned `id`. -/
def ReturnedFor (db : Database) (as : List Action) (m : MatchID) (u : UserID) (id : String) :
    Prop :=
  ∃ y a z st endedAt i, (systemMachine db).Taken as y a z ∧
    y.makes a = some (.ok, .persistConnection st endedAt i) ∧
    (y.env.exec (.persistConnection st endedAt i)).2 = some id ∧ st.id = m ∧
    ∃ k ∈ y.env.world.claims, k.matchID = m ∧ (u = k.userA ∨ u = k.userB) ∧
      ∃ r ∈ z.env.db.connections.rows, r.id = id ∧ r.active = true ∧
        r.pair = sortPair k.userA k.userB

theorem returnedFor_of_run (hrun : (systemMachine db).run as = some x) {u : UserID}
    {m : MatchID} {id : String}
    (he : (u, .connectionCreated m id) ∈ x.env.world.published) : ReturnedFor db as m u id := by
  obtain ⟨pre, a, post, y, z, hsplit, hpre, hstep, hpost, hno, hyes⟩ :=
    Machine.exists_change (M := systemMachine db)
      (P := fun y => (u, .connectionCreated m id) ∈ y.env.world.published) hrun
      (List.not_mem_nil) he
  obtain ⟨fault, op, hm, hpub⟩ := (step_move hstep).published hno hyes
  -- the step is a PublishConnection by a session that holds the id
  obtain ⟨rfl, k, hk, hkm, hu⟩ := created_published (sound_of_run hpre).coherent hpub
  rcases (sound_of_run hpre).makes hm with ⟨s, hs, hd | ⟨_, e⟩⟩ | ⟨t, _, hd⟩
  · obtain ⟨st, endedAt, i, hmem, hid⟩ := hd.2
    obtain ⟨v, b, w, ⟨pre', post', hsplit', hpre', hstep'⟩, hm', hexec, hrow⟩ :=
      made_persistConnection ((made_of_run hpre).1 s hs _ hmem)
    obtain ⟨k', hk', hkm', hA, hB, _⟩ := persist_voted hpre' hm'
    -- the pair persisted is the pair told
    have hlater : (systemMachine db).runFrom v (b :: post') = some y := by
      rw [hsplit'] at hpre
      exact (Machine.runFrom_append_iff hpre').mp hpre
    obtain ⟨ops, _, hops⟩ := store_runFrom hpre' hlater
    have hsame : k' = k := (sound_of_run hpre).coherent.unique k'
      (claims_subset_of_runFrom hops hk') k hk (hkm'.trans (hid.trans hkm.symm))
    refine ⟨v, b, w, st, endedAt, i, ⟨pre', post' ++ a :: post, ?_, hpre', hstep'⟩, hm', hexec,
      hid, k', hk', hkm'.trans hid, ?_, ?_⟩
    · rw [hsplit, hsplit']
      simp
    · rw [hsame]
      exact hu
    · rw [← hA, ← hB]
      exact hrow
  · cases e
  · exact hd.elim

/-- Only mutual Connect creates a connection, once.  Every row that a run
    inserts follows the votes of both participants; rows stay, no two rows have
    the same encounter and no two active rows the same pair; and
    `connection.created` is published for a match at most once to each user,
    with an id that PersistConnection returned for that pair. -/
theorem connected_once (hrun : (systemMachine db).run as = some x) :
    (∀ r ∈ x.env.db.connections.rows, r.encounterID ∉ db.connected →
        InsertedAfterVotes db as r) ∧
      (∀ pre post y, as = pre ++ post → (systemMachine db).run pre = some y →
        y.env.db.connections.Extends x.env.db.connections) ∧
      x.env.db.connected.Nodup ∧
      ((x.env.db.connections.rows.filter ConnectionRow.active).map ConnectionRow.pair).Nodup ∧
      (∀ m u, creations x.env.world.published m u ≤ 1) ∧
      ∀ u m id, (u, .connectionCreated m id) ∈ x.env.world.published →
        ReturnedFor db as m u id := by
  refine ⟨fun r hr hnew => insertedAfterVotes_of_run hrun hr hnew, ?_,
    x.env.db.connections.encounterOnce, x.env.db.connections.activePair,
    creations_of_run (sound_of_run hrun).store, fun u m id => returnedFor_of_run hrun⟩
  rintro pre post y rfl hpre
  exact extends_of_runFrom ((Machine.runFrom_append_iff hpre).mp hrun)

end

/-- Ben's handler persists the row and publishes it. -/
theorem connected_once_bothVoted :
    ∃ x r, (systemMachine twoUsers).run (bothVoted ++ turns 1 2 "r1") = some x ∧
      r ∈ x.env.db.connections.rows ∧
      InsertedAfterVotes twoUsers (bothVoted ++ turns 1 2 "r1") r ∧
      creations x.env.world.published "m1" "ann" = 1 ∧
      ReturnedFor twoUsers (bothVoted ++ turns 1 2 "r1") "m1" "ann" "r1" := by
  have hobs : ((systemMachine twoUsers).run (bothVoted ++ turns 1 2 "r1")).map (fun x =>
      (decide (⟨"r1", "ann", "ben", "m1", 0, none⟩ ∈ x.env.db.connections.rows),
        creations x.env.world.published "m1" "ann",
        decide (("ann", .connectionCreated "m1" "r1") ∈ x.env.world.published))) =
          some (true, 1, true) := by
    decide +kernel
  obtain ⟨x, hx, hobs⟩ := Option.map_eq_some_iff.mp hobs
  simp only [Prod.mk.injEq, decide_eq_true_eq] at hobs
  obtain ⟨hr, hcount, hpub⟩ := hobs
  have h := connected_once hx
  exact ⟨x, _, hx, hr, h.1 _ hr List.not_mem_nil, hcount, h.2.2.2.2.2 "ann" "m1" "r1" hpub⟩

/-! ## A mutual Connect without a row -/

/-- The ConnectVote on `m` was answered with 2. -/
def Completed (u : UserID) (c : ConnectionID) (m : MatchID) (tr : List (Exchange api)) : Prop :=
  ∃ now, (⟨.store (.connectVote u c m now), some (2 : Int)⟩ : Exchange api) ∈ tr

/-- CurrentMatch found `m`: the pointer named a match and the hash of that one
    is `m`'s. -/
def FoundCurrent (u : UserID) (m : MatchID) (tr : List (Exchange api)) : Prop :=
  ∃ y st, (⟨.userMatch u, some (some y)⟩ : Exchange api) ∈ tr ∧
    (⟨.matchHash y, some (.ok (some st))⟩ : Exchange api) ∈ tr ∧ st.id = m

/-- PersistConnection returned an id for `m`, or an error event for `m` was
    written to the client. -/
def Resolved (m : MatchID) (tr : List (Exchange api)) : Prop :=
  (∃ st t i id, (⟨.persistConnection st t i, some id⟩ : Exchange api) ∈ tr ∧ st.id = m) ∨
    ∃ code r, (⟨.write (.error m code), r⟩ : Exchange api) ∈ tr

section
variable {u : UserID} {c : ConnectionID} {m : MatchID}

/-- After the second vote, `m` is resolved exactly if it is found again. -/
theorem always_persistVotes (now : UnixMilli) :
    Always (I := api) (fun _ _ => True) [⟨.store (.connectVote u c m now), some (2 : Int)⟩]
      (persistVotes u m) fun tr _ => Resolved m tr ↔ FoundCurrent u m tr := by
  refine always_bind (always_currentMatch trivial (fun _ => trivial) ?_ ?_)
  · -- no match of the voter
    intro r hr
    match r with
    | none => exact iff_of_false (by simp [Resolved]) (by simp [FoundCurrent])
    | some none => exact iff_of_false (by simp [Resolved]) (by simp [FoundCurrent])
    | some (some x) => exact absurd rfl (hr x)
  · intro x r
    match r with
    | none => exact iff_of_false (by simp [Resolved]) (by simp [FoundCurrent])
    | some (.error _) => exact iff_of_false (by simp [Resolved]) (by simp [FoundCurrent])
    | some (.ok none) => exact iff_of_false (by simp [Resolved]) (by simp [FoundCurrent])
    | some (.ok (some current)) =>
        dsimp only [Option.bind_some, Except.toOption]
        split
        · next hid =>
            -- another match of the voter
            refine iff_of_false (by simp [Resolved]) ?_
            rintro ⟨y, st, _, hread, hst⟩
            simp only [List.mem_cons, Exchange.mk.injEq, Call.matchHash.injEq, reduceCtorEq,
              false_and, List.not_mem_nil, or_false] at hread
            obtain ⟨rfl, hread⟩ := hread
            cases eq_of_heq hread
            exact hid hst
        · next hid =>
            have hid := not_not.mp hid
            refine always_bind (always_persist (fun _ _ => trivial) fun t i r => ?_)
            match r with
            | none =>
                refine always_bind (always_tell trivial fun r => ?_)
                refine iff_of_true (Or.inr ⟨_, r, List.mem_cons_self⟩) ⟨x, current, ?_, ?_, hid⟩
                · simp
                · simp
            | some durableID =>
                refine always_bind (always_script (fun _ => trivial) fun d r => ?_)
                refine iff_of_true (Or.inl ⟨current, t, i, durableID, ?_, hid⟩)
                  ⟨x, current, ?_, ?_, hid⟩
                · simp
                · simp
                · simp

/-- The call is no ConnectVote of this session on `m`. -/
abbrev NoVote (u : UserID) (c : ConnectionID) (m : MatchID) (call : Call) : Prop :=
  ∀ now, call ≠ .store (.connectVote u c m now)

/-- What casts no vote completes none. -/
theorem always_uncompleted {tr : List (Exchange api)} {p : Proc Next}
    (h : Always (I := api) (fun _ => NoVote u c m) tr p fun _ _ => True)
    (hno : ¬ Completed u c m tr) :
    Always (I := api) (fun _ _ => True) tr p fun tr _ => ¬ Completed u c m tr := by
  refine (h.mem.allow fun _ _ _ => trivial).post fun tr' _ hmem => ?_
  rintro ⟨now, he⟩
  rcases hmem.2 _ he with hold | ⟨_, hvote⟩
  · exact hno ⟨now, hold⟩
  · exact hvote now rfl

theorem always_tell_noVote {tr : List (Exchange api)} (e : Event) :
    Always (I := api) (fun _ => NoVote u c m) tr (do tell e; return Next.read)
      fun _ _ => True :=
  always_bind (always_tell (fun _ => by simp) fun _ => trivial)

/-- A session's `match.connect` whose vote was answered with 2 resolves the
    match exactly if it finds it again. -/
theorem always_matchConnect :
    Always (I := api) (fun _ _ => True) [] (matchConnect u c m)
      fun tr _ => Completed u c m tr → (Resolved m tr ↔ FoundCurrent u m tr) := by
  refine always_bind (always_script (fun _ => trivial) fun d r => ?_)
  -- after any other answer the handler casts no further vote
  have hother : ∀ {p : Proc Next}, (∀ n : Int, r = some n → n ≠ 2) →
      Always (I := api) (fun _ => NoVote u c m)
        [⟨.store (.connectVote u c m d.now), r⟩] p (fun _ _ => True) →
      Always (I := api) (fun _ _ => True) [⟨.store (.connectVote u c m d.now), r⟩] p
        fun tr _ => Completed u c m tr → (Resolved m tr ↔ FoundCurrent u m tr) := by
    intro p hr hp
    refine (always_uncompleted hp ?_).post fun _ _ hno hc => absurd hc hno
    rintro ⟨now, h⟩
    cases List.mem_singleton.mp h
    exact hr 2 rfl rfl
  match r with
  | none => exact hother (fun _ e => nomatch e) (always_tell_noVote _)
  | some result =>
      dsimp only
      split
      · next hle =>
          refine hother (fun n e => ?_) (always_tell_noVote _)
          cases e
          omega
      · split
        · next h1 =>
            refine hother (fun n e => ?_) (always_tell_noVote _)
            cases e
            omega
        · split
          · next h3 =>
              refine hother (fun n e => ?_) (always_recallConnection (fun _ _ e => nomatch e)
                (fun _ _ _ e => nomatch e) fun _ _ _ e => nomatch e)
              cases e
              omega
          · split
            · next h2 =>
                rw [h2]
                exact (always_persistVotes d.now).post fun _ _ h _ => h
            · next h2 =>
                refine hother (fun n e => ?_) trivial
                cases e
                exact h2

end

section
variable {db : Database} {as : List Action} {x : System}

/-- The session's PersistConnection left an active row for the pair of `m`. -/
def RowPersisted (db : Database) (as : List Action) (x : System) (m : MatchID)
    (tr : List (Exchange api)) : Prop :=
  ∃ st t i id, (⟨.persistConnection st t i, some id⟩ : Exchange api) ∈ tr ∧ st.id = m ∧
    ∃ k ∈ x.env.world.claims, k.matchID = m ∧
      ∃ y a z, (systemMachine db).Taken as y a z ∧
        y.makes a = some (.ok, .persistConnection st t i) ∧
        ∃ r ∈ z.env.db.connections.rows, r.id = id ∧ r.active = true ∧
          r.pair = sortPair k.userA k.userB

theorem rowPersisted_iff (hrun : (systemMachine db).run as = some x) {s : Session}
    (hs : s ∈ x.sessions) {m : MatchID} :
    RowPersisted db as x m s.trace ↔ ∃ st t i id,
      (⟨.persistConnection st t i, some id⟩ : Exchange api) ∈ s.trace ∧ st.id = m := by
  constructor
  · rintro ⟨st, t, i, id, hmem, hid, _⟩
    exact ⟨st, t, i, id, hmem, hid⟩
  · rintro ⟨st, t, i, durableID, hmem, hid⟩
    obtain ⟨y, a, z, ⟨pre, post, hsplit, hpre, hstep⟩, hm, _, r, hr, hrid, hact, hpair⟩ :=
      made_persistConnection ((made_of_run hrun).1 s hs _ hmem)
    obtain ⟨k, hk, hkm, hA, hB, _⟩ := persist_voted hpre hm
    rw [hsplit] at hrun
    obtain ⟨ops, _, hops⟩ := store_runFrom hpre ((Machine.runFrom_append_iff hpre).mp hrun)
    refine ⟨st, t, i, durableID, hmem, hid, k, claims_subset_of_runFrom hops hk,
      hkm.trans hid, y, a, z, ⟨pre, post, hsplit, hpre, hstep⟩, hm, r, hr, hrid, hact, ?_⟩
    rw [hpair, hA, hB]

/-- The hash that was read is that of the match the pointer named. -/
theorem foundCurrent_iff (hrun : (systemMachine db).run as = some x) {s : Session}
    (hs : s ∈ x.sessions) {u : UserID} {m : MatchID} :
    FoundCurrent u m s.trace ↔
      (⟨.userMatch u, some (some m)⟩ : Exchange api) ∈ s.trace ∧
        ∃ st, (⟨.matchHash m, some (.ok (some st))⟩ : Exchange api) ∈ s.trace := by
  have hid : ∀ {y st}, (⟨.matchHash y, some (.ok (some st))⟩ : Exchange api) ∈ s.trace →
      st.id = y := fun h => (made_matchHash hrun ((made_of_run hrun).1 s hs _ h)).1
  constructor
  · rintro ⟨y, st, hptr, hread, hm⟩
    have hy : y = m := (hid hread).symm.trans hm
    rw [hy] at hptr hread
    exact ⟨hptr, st, hread⟩
  · rintro ⟨hptr, st, hread⟩
    exact ⟨m, st, hptr, hread, hid hread⟩

/-- The participants of `m` have an active row, whoever persisted it. -/
def PairConnected (x : System) (m : MatchID) : Prop :=
  ∃ k ∈ x.env.world.claims, k.matchID = m ∧
    ∃ r ∈ x.env.db.connections.rows, r.active = true ∧ r.pair = sortPair k.userA k.userB

/-- A `match.connect` run of a session whose ConnectVote on `m` was answered
    with 2 has persisted an active row for the participants of `m`, or written
    an error event for `m`, exactly if its two reads succeeded and found that
    `m` was still the user's match and its hash still there.  Counting also a
    row of the pair that another run persisted: exactly if that or there is
    such a row. -/
theorem connect_resolved_iff (hrun : (systemMachine db).run as = some x) {s : Session}
    (hs : s ∈ x.sessions) {m : MatchID} {t : Nat} (hstage : s.stage = .frame (.connect m))
    (hdone : s.activity = .reading t) (hvote : Completed s.user.id s.connection m s.trace) :
    ((RowPersisted db as x m s.trace ∨
        ∃ code r, (⟨.write (.error m code), r⟩ : Exchange api) ∈ s.trace) ↔
      (⟨.userMatch s.user.id, some (some m)⟩ : Exchange api) ∈ s.trace ∧
        ∃ st, (⟨.matchHash m, some (.ok (some st))⟩ : Exchange api) ∈ s.trace) ∧
    ((RowPersisted db as x m s.trace ∨ PairConnected x m ∨
        ∃ code r, (⟨.write (.error m code), r⟩ : Exchange api) ∈ s.trace) ↔
      ((⟨.userMatch s.user.id, some (some m)⟩ : Exchange api) ∈ s.trace ∧
          ∃ st, (⟨.matchHash m, some (.ok (some st))⟩ : Exchange api) ∈ s.trace) ∨
        PairConnected x m) := by
  have hunf := ((sound_of_run hrun).sessions s hs).reading t hdone
  rw [hstage] at hunf
  have hprog : Always (I := api) (fun _ _ => True) []
      (handle s.user s.connection (.connect m)) fun tr _ =>
        Completed s.user.id s.connection m tr →
          (Resolved m tr ↔ FoundCurrent s.user.id m tr) := by
    dsimp only [handle]
    split
    · rintro ⟨now, h⟩
      cases h
    · exact always_matchConnect
  have hiff := hprog.unfolds hunf hvote
  rw [rowPersisted_iff hrun hs, ← foundCurrent_iff hrun hs, ← hiff]
  refine ⟨Iff.rfl, ?_⟩
  rw [or_left_comm, or_comm]
  exact Iff.rfl

end

/-- Ben's handler finds the match again and persists the row. -/
theorem connect_resolved_iff_bothVoted :
    ∃ x s, (systemMachine twoUsers).run (bothVoted ++ turns 1 2 "r1") = some x ∧
      s ∈ x.sessions ∧
      (RowPersisted twoUsers (bothVoted ++ turns 1 2 "r1") x "m1" s.trace ∨
        ∃ code r, (⟨.write (.error "m1" code), r⟩ : Exchange api) ∈ s.trace) := by
  have hobs : ((systemMachine twoUsers).run (bothVoted ++ turns 1 2 "r1")).map (fun x =>
      x.sessions[1]?.map fun s => (s.stage, s.activity.readingSince,
        decide (s.user.id = "ben" ∧
          (⟨.store (.connectVote s.user.id s.connection "m1" 0), some (2 : Int)⟩ :
            Exchange api) ∈ s.trace ∧
          (⟨.userMatch s.user.id, some (some "m1")⟩ : Exchange api) ∈ s.trace ∧
          (⟨.matchHash "m1", some (.ok (some ⟨"m1", "ben", "ann", "new_friends", none, [],
            some .active, 0, 60000⟩))⟩ : Exchange api) ∈ s.trace))) =
      some (some (.frame (.connect "m1"), some 0, true)) := by
    decide +kernel
  obtain ⟨x, hx, hobs⟩ := Option.map_eq_some_iff.mp hobs
  obtain ⟨s, hs, hobs⟩ := Option.map_eq_some_iff.mp hobs
  simp only [Prod.mk.injEq, decide_eq_true_eq] at hobs
  obtain ⟨hstage, hreading, -, hvote, hptr, hread⟩ := hobs
  have hmem := List.mem_of_getElem? hs
  exact ⟨x, s, hx, hmem, (connect_resolved_iff hx hmem hstage (Activity.eq_reading hreading)
    ⟨0, hvote⟩).1.mpr ⟨hptr, _, hread⟩⟩

/-- Both vote; Ann skips before Ben's handler reads the match. -/
def silentSkip : List Action :=
  matched ++ [.frame 0 (.connect "m1")] ++ turns 0 2 "" ++ [.frame 1 (.connect "m1")]
    ++ turns 1 1 "" ++ [.frame 0 (.skip "m1")] ++ turns 0 1 "" ++ turns 1 1 ""

/-- Ben's vote completed the two, and his handler is done without a row or an
    error event. -/
theorem not_resolved_silentSkip :
    ∃ x s t, (systemMachine twoUsers).run silentSkip = some x ∧ s ∈ x.sessions ∧
      s.stage = .frame (.connect "m1") ∧ s.activity = .reading t ∧
      Completed s.user.id s.connection "m1" s.trace ∧
      ¬ (RowPersisted twoUsers silentSkip x "m1" s.trace ∨ PairConnected x "m1" ∨
        ∃ code r, (⟨.write (.error "m1" code), r⟩ : Exchange api) ∈ s.trace) := by
  have hobs : ((systemMachine twoUsers).run silentSkip).map (fun x =>
      x.sessions[1]?.map fun s => (s.stage, s.activity.readingSince,
        decide ((⟨.store (.connectVote s.user.id s.connection "m1" 0), some (2 : Int)⟩ :
          Exchange api) ∈ s.trace ∧ x.env.db.connections.rows = []),
        s.trace.map Exchange.call)) =
      some (some (.frame (.connect "m1"), some 0, true,
        [.userMatch "ben", .store (.connectVote "ben" "c2" "m1" 0)])) := by
    decide +kernel
  obtain ⟨x, hx, hobs⟩ := Option.map_eq_some_iff.mp hobs
  obtain ⟨s, hs, hobs⟩ := Option.map_eq_some_iff.mp hobs
  simp only [Prod.mk.injEq, decide_eq_true_eq] at hobs
  obtain ⟨hstage, hreading, ⟨hvote, hrows⟩, hcalls⟩ := hobs
  refine ⟨x, s, 0, hx, List.mem_of_getElem? hs, hstage, Activity.eq_reading hreading,
    ⟨0, hvote⟩, ?_⟩
  rintro (⟨st, t, i, id, hmem, _⟩ | ⟨k, _, _, r, hr, _⟩ | ⟨code, r, hmem⟩)
  · have hcall := List.mem_map_of_mem (f := Exchange.call) hmem
    rw [hcalls] at hcall
    simp at hcall
  · rw [hrows] at hr
    cases hr
  · have hcall := List.mem_map_of_mem (f := Exchange.call) hmem
    rw [hcalls] at hcall
    simp at hcall

end OneMinute
