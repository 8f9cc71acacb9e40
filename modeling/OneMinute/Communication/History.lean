/-
  OneMinute.Communication.History

  The messages of one connection over time.

  They are committed in the order of their ids, since an id is drawn under the
  lock on the connection; so ids are a cursor, and a reader who goes back page by
  page gets every message once while others send (`message_ids_cursor`).  The
  lock also keeps the connection active until the commit; so a connection that
  has ended gets no more messages (`no_message_after_end`).
-/

import OneMinute.Communication.Messages
import OneMinute.Lib.Paging

namespace OneMinute.Communication

open Discovery (UserID UnixMilli)

/-! ## Pages -/

/-- The messages of the connection `c`. -/
def Tables.of (t : Tables) (c : String) : List Message :=
  t.messages.filter fun m => decide (m.connectionID = c)

theorem Tables.mem_of {t : Tables} {c : String} {m : Message} :
    m ∈ t.of c ↔ m ∈ t.messages ∧ m.connectionID = c := by
  rw [of, List.mem_filter, decide_eq_true_eq]

/-- `before` as a bound: 0 stands for none. -/
def bound (before : Int) : Option Nat := if before = 0 then none else some before.toNat

theorem Tables.page_eq (t : Tables) (c : String) (before : Int) :
    t.page c before = Paging.page Message.id pageSize (t.of c) (bound before) := by
  unfold page Paging.page Paging.descending of
  rw [List.filter_filter]
  congr 2
  refine List.filter_congr fun m _ => ?_
  rw [Bool.and_comm, ← Bool.decide_or]
  congr 1
  rw [decide_eq_decide]
  unfold bound Paging.Below
  split
  · next h => simp [h]
  · next h =>
      simp only [Option.mem_def, Option.some.injEq, forall_eq', h, false_or]
      omega

theorem Stored.ids_of {x : Shared} (h : Stored x) (c : String) :
    ((x.tables.of c).map Message.id).Nodup :=
  h.idOnce.sublist (List.filter_sublist.map _)

/-- Ids begin at 1, so an id is a bound. -/
theorem Stored.bound_id {x : Shared} (h : Stored x) {m : Message}
    (hm : m ∈ x.tables.messages) : bound m.id = some m.id := by
  have := (h.drawn m hm).1
  rw [bound, if_neg (by omega), Int.toNat_natCast]

/-- GET messages again and again from the state `s` on: each page is below the
    smallest id of the one before, until one has fewer than 60 rows.  Between two
    of them the run goes on. -/
inductive ReadsBack (U : UUIDText) (db : Database) (c : String) :
    Chat → Int → List Message → Chat → Prop where
  | last {s : Chat} {before : Int} (hshort : (s.shared.tables.page c before).length < pageSize) :
      ReadsBack U db c s before (s.shared.tables.page c before) s
  | next {s s' t : Chat} {before : Int} {as : List Action} {m : Message} {rest : List Message}
      (hfull : ¬ (s.shared.tables.page c before).length < pageSize)
      (hm : m ∈ s.shared.tables.page c before)
      (hmin : ∀ m' ∈ s.shared.tables.page c before, m.id ≤ m'.id)
      (hrun : (chatMachine U db).runFrom s as = some s')
      (hrest : ReadsBack U db c s' m.id rest t) :
      ReadsBack U db c s before (s.shared.tables.page c before ++ rest) t

section
variable {U : UUIDText} {db : Database} {c : String} {s t : Chat} {as bs : List Action}
  {before : Int} {l : List Message}

/-- The messages of a connection grow at the top. -/
theorem tops_runFrom (hrun : (chatMachine U db).runFrom s as = some t) (hs : s.Sound U) :
    Paging.Tops Message.id (s.shared.tables.of c) (t.shared.tables.of c) where
  kept := by
    intro m hm
    obtain ⟨hmem, hc⟩ := Tables.mem_of.mp hm
    exact Tables.mem_of.mpr ⟨(grows_runFrom hrun hs).messages.subset hmem, hc⟩
  above := by
    intro m' hm' hnew m hm
    obtain ⟨hmem', hc'⟩ := Tables.mem_of.mp hm'
    obtain ⟨hmem, hc⟩ := Tables.mem_of.mp hm
    refine newer_id hrun hs hmem hmem' (fun h => hnew ?_) (hc.trans hc'.symm)
    exact Tables.mem_of.mpr ⟨h, hc'⟩

/-- The pages list what stood below the first bound when the reader began. -/
theorem ReadsBack.lists (h : ReadsBack U db c s before l t) (hs : s.Sound U) :
    Paging.Lists Message.id (s.shared.tables.of c) (bound before) l := by
  induction h with
  | last hshort =>
      rw [Tables.page_eq] at hshort ⊢
      exact .of_short (hs.stored.ids_of c) hshort
  | @next s s' t before as m rest hfull hm hmin hrun hrest ih =>
      have hlist := ih (sound_runFrom hrun hs)
      rw [Tables.page_eq] at hm hmin ⊢
      have hmem := (Paging.mem_of_mem_page (hs.stored.ids_of c) hm).1
      rw [hs.stored.bound_id (Tables.mem_of.mp hmem).1] at hlist
      exact Paging.Lists.next (hs.stored.ids_of c) hm hmin (tops_runFrom hrun hs) hlist

theorem ReadsBack.run (h : ReadsBack U db c s before l t) :
    ∃ as, (chatMachine U db).runFrom s as = some t := by
  induction h with
  | last => exact ⟨[], rfl⟩
  | @next s s' t before as m rest hfull hm hmin hrun hrest ih =>
      obtain ⟨bs, hbs⟩ := ih
      exact ⟨as ++ bs, Machine.runFrom_append_eq_some.mpr ⟨s', hrun, hbs⟩⟩

/-- The first message of the first page comes first. -/
theorem ReadsBack.head (h : ReadsBack U db c s before l t) {newest : Message}
    (hnewest : (s.shared.tables.page c before).head? = some newest) :
    l.head? = some newest := by
  cases h with
  | last => exact hnewest
  | next => rw [List.head?_append, hnewest, Option.some_or]

/-- A reader whom nobody disturbs comes to an end. -/
theorem exists_readsBack (U : UUIDText) (db : Database) (c : String) (s : Chat) (before : Int)
    (hs : s.Sound U) : ∃ l, ReadsBack U db c s before l s := by
  -- by the number of messages below the bound
  induction hn : (Paging.descending Message.id (s.shared.tables.of c) (bound before)).length
    using Nat.strong_induction_on generalizing before with
  | _ n ih =>
      subst hn
      by_cases hshort : (s.shared.tables.page c before).length < pageSize
      · exact ⟨_, .last hshort⟩
      · have hkeys := hs.stored.ids_of c
        have hne : s.shared.tables.page c before ≠ [] := by
          intro hnil
          rw [hnil] at hshort
          exact hshort (by decide)
        obtain ⟨m, hm, hmin⟩ : ∃ m ∈ s.shared.tables.page c before,
            ∀ m' ∈ s.shared.tables.page c before, m.id ≤ m'.id := by
          rw [Tables.page_eq] at hne ⊢
          exact Paging.exists_least hkeys hne
        have hmem : m ∈ s.shared.tables.of c ∧ Paging.Below Message.id (bound before) m := by
          rw [Tables.page_eq] at hm
          exact Paging.mem_of_mem_page hkeys hm
        have hless := Paging.descending_length_lt hmem.1 hmem.2
        rw [← hs.stored.bound_id (Tables.mem_of.mp hmem.1).1] at hless
        obtain ⟨l, hl⟩ := ih _ hless m.id rfl
        exact ⟨_, .next hshort hm hmin (Machine.runFrom_nil _ s) hl⟩

/-- In every run, a message that appears later on a connection has a larger id
    than all that stood there, and a reader who pages back from the newest page
    until a page is short gets, in descending order and each once, the messages
    of the connection up to the newest id that it saw first. -/
theorem message_ids_cursor (hrun : (chatMachine U db).run as = some s) :
    s.shared.tables.messages.Pairwise
        (fun m m' => m.connectionID = m'.connectionID → m.id < m'.id) ∧
      (∀ bs t, (chatMachine U db).runFrom s bs = some t →
        ∀ m ∈ s.shared.tables.messages, ∀ m' ∈ t.shared.tables.messages,
          m' ∉ s.shared.tables.messages → m'.connectionID = m.connectionID → m.id < m'.id) ∧
      (∀ c l t, ReadsBack U db c s 0 l t → l.Pairwise (fun m m' => m'.id < m.id) ∧
        ∀ newest, (s.shared.tables.page c 0).head? = some newest → ∀ m, m ∈ l ↔
          m ∈ t.shared.tables.messages ∧ m.connectionID = c ∧ m.id ≤ newest.id) ∧
      ∀ c, ∃ l, ReadsBack U db c s 0 l s := by
  have hs := sound_run hrun
  refine ⟨hs.stored.order, ?_, ?_, fun c => exists_readsBack U db c s 0 hs⟩
  · exact fun bs t hmore m hm m' hm' hnew hc => newer_id hmore hs hm hm' hnew hc.symm
  · intro c l t hreads
    have hlists := hreads.lists hs
    obtain ⟨bs, hmore⟩ := hreads.run
    refine ⟨hlists.sorted, fun newest hnewest m => ?_⟩
    have hhead := hreads.head hnewest
    have hmem : ∀ m, m ∈ l ↔ m ∈ s.shared.tables.messages ∧ m.connectionID = c := by
      intro m
      rw [hlists.mem, Tables.mem_of, bound, if_pos rfl]
      simp [Paging.Below]
    constructor
    · intro hm
      obtain ⟨hold, hc⟩ := (hmem m).mp hm
      refine ⟨(grows_runFrom hmore hs).messages.subset hold, hc, ?_⟩
      -- the list begins with its largest id
      obtain ⟨rest, rfl⟩ := List.head?_eq_some_iff.mp hhead
      rcases List.mem_cons.mp hm with rfl | hm
      · exact Nat.le_refl _
      · exact Nat.le_of_lt ((List.pairwise_cons.mp hlists.sorted).1 m hm)
    · rintro ⟨hm, hc, hle⟩
      refine (hmem m).mpr ⟨?_, hc⟩
      by_contra hnew
      obtain ⟨hold, hc'⟩ := (hmem newest).mp (List.mem_of_head? hhead)
      have hlt := newer_id hmore hs hold hm hnew (hc'.trans hc.symm)
      omega

end

/-- A message of `user` on `c`, with the clientId that ends in `digit`. -/
def sendOf (user c digit : String) : SendRequest :=
  { user, id := c, body := "Hello", clientID := "00000000-0000-4000-8000-00000000000" ++ digit }

/-- Ann's message to Cid has its id when she and Ben begin to write to each
    other, and is committed last. -/
def overtaken : List Action :=
  [.spawn (.send (sendOf "ann" withCid "1"))] ++ calls 0 5
    ++ [.spawn (.send (sendOf "ann" withBen "2")), .spawn (.send (sendOf "ben" withBen "3"))]
    ++ calls 2 2 ++ calls 1 9 ++ calls 2 7 ++ calls 0 4

/-- Then Ann goes on writing to Ben, 59 times. -/
def chatter : List Action :=
  (List.range 59).flatMap fun k =>
    .spawn (.send
      { sendOf "ann" withBen "" with
        clientID := Nat.repr (10 + k) ++ "000000-0000-4000-8000-000000000000" }) :: calls (3 + k) 9

/-- On these texts, which are canonical, both parsers take the text as it stands. -/
def plainUUIDs : UUIDText := ⟨fun _ => true, some⟩

/-- Ids are committed out of order, but not those of one connection, whose 61 messages
    are read back in two pages. -/
theorem message_ids_cursor_overtaken : ∃ s l,
    (chatMachine plainUUIDs annsConnections).run (overtaken ++ chatter) = some s ∧
      (s.shared.tables.messages.map Message.id).take 3 = [2, 3, 1] ∧
      ReadsBack plainUUIDs annsConnections withBen s 0 l s ∧
      l.map Message.id = (List.range 60).map (62 - ·) ++ [2] ∧
      l.Pairwise (fun m m' => m'.id < m.id) := by
  have hobs : ((chatMachine plainUUIDs annsConnections).run (overtaken ++ chatter)).map (fun s =>
      ((s.shared.tables.messages.map Message.id).take 3,
        (s.shared.tables.page withBen 0).map Message.id,
        (s.shared.tables.page withBen 3).map Message.id)) =
      some ([2, 3, 1], (List.range 60).map (62 - ·), [2]) := by
    decide +kernel
  obtain ⟨s, hs, hobs⟩ := Option.map_eq_some_iff.mp hobs
  simp only [Prod.mk.injEq] at hobs
  obtain ⟨hids, hfirst, hsecond⟩ := hobs
  have hfull : (s.shared.tables.page withBen 0).length = 60 := by
    rw [← List.length_map Message.id, hfirst, List.length_map, List.length_range]
  have hshort : (s.shared.tables.page withBen 3).length = 1 := by
    rw [← List.length_map Message.id, hsecond]
    rfl
  -- the second page begins below the smallest id of the first one
  obtain ⟨m, hm, hid⟩ : ∃ m ∈ s.shared.tables.page withBen 0, m.id = 3 := by
    refine List.mem_map.mp ?_
    rw [hfirst]
    decide
  have hmin : ∀ m' ∈ s.shared.tables.page withBen 0, m.id ≤ m'.id := by
    intro m' hm'
    have hmem : m'.id ∈ (List.range 60).map (62 - ·) := hfirst ▸ List.mem_map_of_mem hm'
    obtain ⟨k, hk, hk'⟩ := List.mem_map.mp hmem
    have hlt := List.mem_range.mp hk
    omega
  have hreads : ReadsBack plainUUIDs annsConnections withBen s 0
      (s.shared.tables.page withBen 0 ++ s.shared.tables.page withBen 3) s := by
    refine .next (by rw [hfull]; decide) hm hmin (Machine.runFrom_nil _ s) ?_
    rw [hid]
    exact .last (by rw [show ((3 : Nat) : Int) = 3 from rfl, hshort]; decide)
  refine ⟨s, _, hs, hids, hreads, ?_, ((message_ids_cursor hs).2.2.1 withBen _ s hreads).1⟩
  rw [List.map_append, hfirst, hsecond]

/-! ## After the end -/

/-- A send whose transaction was committed and that goes on to its reply. -/
def SendStage.Committed : SendStage → Prop
  | .emitPeer _ _ | .emitSelf _ | .done (.sent _) => True
  | .authorize | .begin _ _ | .lock _ _ _ | .nextID _ _ _ | .insertMessage _ _ _ _ _
  | .insertNotification _ _ _ _ | .commit _ _ _ _ _ | .rollback _ | .done (.refused _) => False

section
variable {U : UUIDText} {db : Database} {c : String} {s s' t : Chat} {a : Action}
  {as bs : List Action}

/-- No send is committed on an ended connection: its lock would have kept the
    connection active. -/
theorem SendMove.uncommitted {r : SendRequest} {st st' : SendStage} {i : Nat} {x x' : Shared}
    (h : SendMove r U i x st x' st') (hok : st.Ok r U i x) (hpath : U.cast r.id = some c)
    (hended : x.tables.db.Ended c) (hst : ¬ st.Committed) : ¬ st'.Committed := by
  cases h with
  | refuse | authorize | begin | abort | lock | nextID | insert | find | noted | note | rollback =>
      exact fun hst' => hst'
  | emitPeer => exact fun _ => hst trivial
  | emitSelf => exact fun _ => hst trivial
  | commit =>
      obtain ⟨hholds, hrow, _⟩ := hok
      have hc := hrow.path
      rw [hpath] at hc
      rw [Option.some.inj hc] at hended
      exact absurd hended hholds.active.not_ended

/-- What the run may not do after the end of `c`. -/
structure Closed (U : UUIDText) (c : String) (t : Tables) (s : Chat) : Prop where
  sound : s.Sound U
  ended : s.shared.tables.db.Ended c
  messages : s.shared.tables.of c = t.of c
  notices : ∀ n' ∈ s.shared.tables.notifications, n'.connectionID = c →
    (∃ k, n'.about = .message k) → ∃ n ∈ t.notifications, n.Becomes n'

theorem Closed.step {t : Tables} (h : Closed U c t s)
    (hstep : (chatMachine U db).step s a = some s') : Closed U c t s' := by
  have hmove := chatStep_move hstep
  have hgrows := hmove.grows h.sound
  cases hmove.brings h.sound with
  | quiet hquiet =>
      refine ⟨sound_step h.sound hstep, h.ended.extends hgrows.connections, ?_, ?_⟩
      · rw [← h.messages, Tables.of, hquiet.messages, Tables.of]
      · rintro n' hn' hc ⟨k, hk⟩
        rcases hquiet.came n' hn' with ⟨n, hn, hb⟩ | hother
        · obtain ⟨n₀, hn₀, hb₀⟩ := h.notices n hn (hb.connectionID ▸ hc) ⟨k, hb.about ▸ hk⟩
          exact ⟨n₀, hn₀, hb₀.trans hb⟩
        · exact absurd hk (hother k)
  | message c' p m hc' hactive htables =>
      -- on another connection, which is active
      have hne : c' ≠ c := by
        rintro rfl
        exact hactive.not_ended h.ended
      refine ⟨sound_step h.sound hstep, h.ended.extends hgrows.connections, ?_, ?_⟩
      · rw [← h.messages, htables]
        unfold Tables.of Tables.insert
        rw [List.filter_append, Option.toList_some, List.filter_singleton, hc',
          decide_eq_false hne]
        exact List.append_nil _
      · rintro n' hn' hc hmessage
        rw [htables] at hn'
        rcases Tables.mem_notifications_insert.mp hn' with hn' | hn'
        · exact h.notices n' hn' hc hmessage
        · rw [hn'] at hc
          exact absurd hc hne

/-- A send on `c` that is not committed when `c` has ended never is. -/
theorem uncommitted_runFrom {i : Nat} {r : SendRequest} (hs : s.Sound U)
    (hended : s.shared.tables.db.Ended c) (hpath : U.cast r.id = some c)
    (hst : ∀ st, s.threads[i]? = some (.send r st) → ¬ st.Committed)
    (hrun : (chatMachine U db).runFrom s as = some t) :
    ∀ st, t.threads[i]? = some (.send r st) → ¬ st.Committed := by
  have hinv := Machine.runFrom_invariant (M := chatMachine U db)
    (P := fun u => u.Sound U ∧ u.shared.tables.db.Ended c ∧
      ∀ st, u.threads[i]? = some (.send r st) → ¬ st.Committed) ?_ hrun ⟨hs, hended, hst⟩
  · exact hinv.2.2
  · rintro u a v ⟨hu, hend, hst⟩ hstep
    have hmove := chatStep_move hstep
    refine ⟨sound_step hu hstep, hend.extends (hmove.grows hu).connections, ?_⟩
    intro st' hi'
    rcases hmove.origin hi' with ⟨hsame, _⟩ | ⟨q, _, _, hq⟩ | ⟨d, fault, th, _, hth, hcall⟩
    · exact hst st' hsame
    · cases q with
      | send r' =>
          cases hq
          exact fun h => h
      | receipt r' => cases hq
      | block u target => cases hq
    · obtain ⟨st, rfl, hsend⟩ := Thread.step_eq_send hcall
      exact (SendRequest.step_move hsend).uncommitted (hu.threads _ _ hth) hpath hend (hst st hth)

/-- In every run, once a connection has ended, no message of it and no notice of
    one appears any more, and a send on it that was not committed by then, or
    comes later, answers an error. -/
theorem no_message_after_end (hrun : (chatMachine U db).run as = some s)
    (hended : s.shared.tables.db.Ended c) (hmore : (chatMachine U db).runFrom s bs = some t) :
    t.shared.tables.of c = s.shared.tables.of c ∧
      (∀ n' ∈ t.shared.tables.notifications, n'.connectionID = c →
        (∃ k, n'.about = .message k) → ∃ n ∈ s.shared.tables.notifications, n.Becomes n') ∧
      ∀ (i : Nat) (r : SendRequest), U.cast r.id = some c →
        (∀ st, s.threads[i]? = some (.send r st) → ¬ st.Committed) →
        ∀ answer, t.threads[i]? = some (.send r (.done answer)) →
          ∃ status, 400 ≤ status ∧ answer = .refused status := by
  have hs := sound_run hrun
  have hclosed : Closed U c s.shared.tables t :=
    Machine.runFrom_invariant (fun _ _ _ h hstep => h.step hstep) hmore
      ⟨hs, hended, rfl, fun n hn _ _ => ⟨n, hn, .refl n⟩⟩
  refine ⟨hclosed.messages, hclosed.notices, ?_⟩
  intro i r hpath hst answer hdone
  cases answer with
  | sent m => exact absurd trivial (uncommitted_runFrom hs hended hpath hst hmore _ hdone)
  | refused status => exact ⟨status, hclosed.sound.threads i _ hdone, rfl⟩

end

/-- Ann's message is authorized when Ben removes the connection. -/
def removedUnderway : List Action :=
  [.spawn (.send (sendOf "ann" withBen "1"))] ++ calls 0 2 ++ [.statement (.remove "ben" withBen) 5]

theorem no_message_after_end_removedUnderway : ∃ s t status,
    (chatMachine canonicalUUIDs annsConnections).run removedUnderway = some s ∧
      (chatMachine canonicalUUIDs annsConnections).runFrom s (calls 0 2) = some t ∧
      t.threads[0]? = some (.send (sendOf "ann" withBen "1") (.done (.refused status))) ∧
      400 ≤ status ∧ t.shared.tables.of withBen = s.shared.tables.of withBen := by
  have hobs : ((chatMachine canonicalUUIDs annsConnections).run removedUnderway).map (fun s =>
      (decide (s.shared.tables.db.Ended withBen ∧
          s.threads[0]? = some (.send (sendOf "ann" withBen "1") (.lock withBen "ben" 0))),
        ((chatMachine canonicalUUIDs annsConnections).runFrom s (calls 0 2)).map fun t =>
          t.threads[0]?)) =
        some (true, some (some (.send (sendOf "ann" withBen "1") (.done (.refused 403))))) := by
    decide +kernel
  obtain ⟨s, hs, hobs⟩ := Option.map_eq_some_iff.mp hobs
  simp only [Prod.mk.injEq, decide_eq_true_eq] at hobs
  obtain ⟨⟨hended, hlock⟩, hobs⟩ := hobs
  obtain ⟨t, ht, hdone⟩ := Option.map_eq_some_iff.mp hobs
  have h := no_message_after_end hs hended ht
  obtain ⟨status, hstatus, hanswer⟩ := h.2.2 0 _ (by decide +kernel) (fun st hst hcommitted => by
    rw [hlock] at hst
    cases hst
    exact hcommitted) _ hdone
  exact ⟨s, t, status, hs, ht, hanswer ▸ hdone, hstatus, h.1⟩

end OneMinute.Communication
