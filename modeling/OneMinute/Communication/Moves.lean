/-
  OneMinute.Communication.Moves

  What one call of a chat request does.

  Every statement but the commit of a send is `Quiet`: it brings no message and
  no notice of one.  `SendMove` and `BlockMove` list the calls of the two
  transactions with the facts that let them happen, so that no invariant looks
  at the code of a step.
-/

import OneMinute.Communication.Requests

namespace OneMinute.Communication

open Discovery (UserID UnixMilli MatchState sortPair)

/-! ## Statements without messages -/

/-- The row of a notification later: only the read mark may change, and stays. -/
structure Notification.Becomes (n n' : Notification) : Prop where
  key : n'.key = n.key
  connectionID : n'.connectionID = n.connectionID
  read : n.readAt.isSome = true → n'.readAt.isSome = true

theorem Notification.Becomes.refl (n : Notification) : n.Becomes n := ⟨rfl, rfl, id⟩

theorem Notification.Becomes.trans {n₁ n₂ n₃ : Notification} (h₁ : n₁.Becomes n₂)
    (h₂ : n₂.Becomes n₃) : n₁.Becomes n₃ where
  key := h₂.key.trans h₁.key
  connectionID := h₂.connectionID.trans h₁.connectionID
  read := fun h => h₂.read (h₁.read h)

theorem Notification.Becomes.about {n n' : Notification} (h : n.Becomes n') :
    n'.about = n.about :=
  (Prod.mk.inj h.key).2

theorem Notification.Becomes.userID {n n' : Notification} (h : n.Becomes n') :
    n'.userID = n.userID :=
  (Prod.mk.inj h.key).1

theorem Notification.becomes_readIf (p : Notification → Bool) (now : UnixMilli)
    (n : Notification) : n.Becomes (n.readIf p now) := by
  unfold readIf
  split
  · exact ⟨rfl, rfl, fun _ => rfl⟩
  · exact .refl n

/-- No message and no notice of one came, and no row was lost. -/
structure Tables.Quiet (t t' : Tables) : Prop where
  messages : t'.messages = t.messages
  connections : t.db.connections.Extends t'.db.connections
  kept : ∀ n ∈ t.notifications, ∃ n' ∈ t'.notifications, n.Becomes n'
  came : ∀ n' ∈ t'.notifications,
    (∃ n ∈ t.notifications, n.Becomes n') ∨ ∀ k, n'.about ≠ .message k
  once : (t.notifications.map Notification.key).Nodup →
    (t'.notifications.map Notification.key).Nodup

namespace Tables

variable {t t' t₁ t₂ t₃ : Tables}

theorem Quiet.of_notifications (hmessages : t'.messages = t.messages)
    (hconn : t.db.connections.Extends t'.db.connections)
    (hnotes : t'.notifications = t.notifications) : t.Quiet t' where
  messages := hmessages
  connections := hconn
  kept := fun n hn => ⟨n, hnotes ▸ hn, .refl n⟩
  came := fun n hn => Or.inl ⟨n, hnotes ▸ hn, .refl n⟩
  once := fun h => hnotes ▸ h

theorem Quiet.refl (t : Tables) : t.Quiet t := .of_notifications rfl (.refl _) rfl

theorem Quiet.trans (h₁ : t₁.Quiet t₂) (h₂ : t₂.Quiet t₃) : t₁.Quiet t₃ where
  messages := h₂.messages.trans h₁.messages
  connections := h₁.connections.trans h₂.connections
  kept := by
    intro n hn
    obtain ⟨n', hn', hb⟩ := h₁.kept n hn
    obtain ⟨n'', hn'', hb'⟩ := h₂.kept n' hn'
    exact ⟨n'', hn'', hb.trans hb'⟩
  came := by
    intro n'' hn''
    rcases h₂.came n'' hn'' with ⟨n', hn', hb'⟩ | hother
    · rcases h₁.came n' hn' with ⟨n, hn, hb⟩ | hother
      · exact Or.inl ⟨n, hn, hb.trans hb'⟩
      · refine Or.inr fun k => ?_
        rw [hb'.about]
        exact hother k
    · exact Or.inr hother
  once := fun h => h₂.once (h₁.once h)

theorem quiet_markRead (t : Tables) (p : Notification → Bool) (now : UnixMilli) :
    t.Quiet (t.markRead p now) where
  messages := rfl
  connections := .refl _
  kept := fun n hn =>
    ⟨n.readIf p now, List.mem_map_of_mem hn, Notification.becomes_readIf p now n⟩
  came := by
    intro n' hn'
    obtain ⟨n, hn, rfl⟩ := List.mem_map.mp hn'
    exact Or.inl ⟨n, hn, Notification.becomes_readIf p now n⟩
  once := by
    intro h
    have hkeys : (t.markRead p now).notifications.map Notification.key =
        t.notifications.map Notification.key := by
      unfold markRead
      rw [List.map_map]
      exact List.map_congr_left fun n _ => (Notification.becomes_readIf p now n).key
    rwa [hkeys]

theorem notified_eq_true {k : UserID × Reference} :
    t.notified k = true ↔ ∃ n ∈ t.notifications, n.key = k := by
  simp [notified]

theorem notified_eq_false {k : UserID × Reference} :
    t.notified k = false ↔ ∀ n ∈ t.notifications, n.key ≠ k := by
  simp [notified]

theorem quiet_notify {n : Notification} (h : ∀ k, n.about ≠ .message k) :
    t.Quiet (t.notify n) := by
  unfold notify
  split
  · exact .refl t
  · next hnew =>
      rw [Bool.not_eq_true] at hnew
      exact
        { messages := List.append_nil _
          connections := .refl _
          kept := fun n' hn' => ⟨n', List.mem_append_left _ hn', .refl n'⟩
          came := by
            intro n' hn'
            rcases mem_notifications_insert.mp hn' with hn' | rfl
            · exact Or.inl ⟨n', hn', .refl n'⟩
            · exact Or.inr h
          once := fun hnodup => nodup_map_concat hnodup (notified_eq_false.mp hnew) }

theorem quiet_notifyConnection (r : ConnectionRow) : t.Quiet (notifyConnection t r) :=
  (quiet_notify (by simp)).trans (quiet_notify (by simp))

theorem quiet_foldl_notifyConnection (rs : List ConnectionRow) :
    t.Quiet (rs.foldl notifyConnection t) := by
  induction rs generalizing t with
  | nil => exact .refl t
  | cons r rs ih => exact (quiet_notifyConnection r).trans ih

theorem quiet_upsertReceipt (c : String) (u : UserID) (delivered read : Nat) :
    t.Quiet (t.upsertReceipt c u delivered read).2 := by
  unfold upsertReceipt
  split
  · exact .of_notifications rfl (.refl _) rfl
  · split
    · exact .of_notifications rfl (.refl _) rfl
    · exact .refl t

theorem upsertReceipt_db (t : Tables) (c : String) (u : UserID) (delivered read : Nat) :
    (t.upsertReceipt c u delivered read).2.db = t.db := by
  unfold upsertReceipt
  split
  · rfl
  · split <;> rfl

theorem quiet_exec (now : UnixMilli) (q : Statement) : t.Quiet (q.exec now t) := by
  cases q with
  | remove u c => exact .of_notifications rfl (ConnectionTable.endWhere_extends _ _ now) rfl
  | unblock u target => exact .of_notifications rfl (.refl _) rfl
  | persistConnection m id =>
      rw [Statement.exec]
      split
      · exact .refl t
      · next db hok =>
          obtain ⟨_, _, _, hconn⟩ := Database.persistConnection_eq_ok hok
          refine Quiet.trans ?_ (quiet_foldl_notifyConnection _)
          exact .of_notifications rfl (ConnectionTable.connect_extends hconn) rfl
  | setStatus u status => exact .of_notifications rfl (.refl _) rfl
  | putSettings u s => exact .of_notifications rfl (.refl _) rfl
  | readNotifications u => exact quiet_markRead t _ now
  | notifyCall u c callID => exact quiet_notify (by simp)

theorem notify_eq (t : Tables) (n : Notification) :
    ∃ ns, t.notify n = { t with notifications := ns } := by
  unfold notify
  split
  · exact ⟨t.notifications, rfl⟩
  · exact ⟨_, by rw [insert, Option.toList_none, List.append_nil]⟩

/-- The trigger writes notifications only. -/
theorem foldl_notifyConnection_eq (rs : List ConnectionRow) (t : Tables) :
    ∃ ns, rs.foldl notifyConnection t = { t with notifications := ns } := by
  induction rs generalizing t with
  | nil => exact ⟨t.notifications, rfl⟩
  | cons r rs ih =>
      obtain ⟨ns, hlow⟩ := t.notify_eq ⟨r.userLow, r.id, .connection r.id, none⟩
      obtain ⟨ns', hhigh⟩ := Tables.notify_eq { t with notifications := ns }
        ⟨r.userHigh, r.id, .connection r.id, none⟩
      obtain ⟨ns'', hrest⟩ := ih { t with notifications := ns' }
      refine ⟨ns'', ?_⟩
      rw [List.foldl_cons, notifyConnection, hlow, hhigh, hrest]

end Tables

theorem receipts_exec (q : Statement) (now : UnixMilli) (t : Tables) :
    (q.exec now t).receipts = t.receipts := by
  cases q with
  | persistConnection m id =>
      rw [Statement.exec]
      split
      · rfl
      · next durableID db hok =>
          obtain ⟨ns, hns⟩ := Tables.foldl_notifyConnection_eq
            (db.connections.rows.filter fun r =>
              !(t.db.connections.rows.map ConnectionRow.id).contains r.id)
            { t with db }
          rw [hns]
  | notifyCall u c callID =>
      obtain ⟨ns, hns⟩ := t.notify_eq ⟨u, c, .call callID, none⟩
      rw [Statement.exec, hns]
  | remove | unblock | setStatus | putSettings | readNotifications => rfl

/-- A statement that commits by itself ends no connection that is locked. -/
theorem active_exec {x : Shared} {q : Statement} {now : UnixMilli} {c : String} {j : Nat}
    (hwaits : q.waits x now = false) (hlock : x.locks (.connection c) = some j)
    (h : x.tables.db.Active c) : (q.exec now x.tables).db.Active c := by
  cases q with
  | remove u c' =>
      refine h.endWhere rfl fun r hr hid => ?_
      -- it would have waited for a row that it matches
      by_cases hc : c' = c
      · rw [Statement.waits, hc, hlock, Option.isSome_some, Bool.and_true] at hwaits
        obtain ⟨r', hr', hid', hactive⟩ := h
        rw [Database.row_unique hr' hr (hid'.trans hid.symm)] at hactive
        have hno := List.any_eq_false.mp hwaits r hr
        rw [hactive, Bool.true_and, Bool.not_eq_true] at hno
        rw [hc]
        exact hno
      · rw [Bool.and_eq_false_imp, decide_eq_true_eq, hid]
        exact fun e => absurd e.symm hc
  | persistConnection m id =>
      rw [Statement.exec]
      split
      · exact h
      · next durableID db hok =>
          obtain ⟨ns, hns⟩ := Tables.foldl_notifyConnection_eq
            (db.connections.rows.filter fun r =>
              !(x.tables.db.connections.rows.map ConnectionRow.id).contains r.id)
            { x.tables with db }
          rw [hns]
          exact h.persistConnection hok
  | unblock u target => exact h
  | setStatus u status => exact h
  | putSettings u s => exact h
  | readNotifications u => exact h
  | notifyCall u c callID =>
      rw [Statement.exec, Tables.notify]
      split
      · exact h
      · exact h

/-! ## What the other transactions rely on -/

/-- Between `x` and `x'`, somebody else made a call: request `j` keeps its locks,
    and what they protect stays as it is. -/
structure Spares (x x' : Shared) (j : Nat) : Prop where
  locks : ∀ k, x.locks k = some j → x'.locks k = some j
  active : ∀ c, x.locks (.connection c) = some j → x.tables.db.Active c → x'.tables.db.Active c
  connections : x.tables.db.connections.Extends x'.tables.db.connections
  messages : x.tables.messages <+: x'.tables.messages
  newMessage : ∀ m ∈ x'.tables.messages, m ∈ x.tables.messages ∨
    x.locks (.connection m.connectionID) ≠ some j ∧ x.locks (.message m.key) ≠ some j
  kept : ∀ n ∈ x.tables.notifications, ∃ n' ∈ x'.tables.notifications, n.Becomes n'
  came : ∀ n' ∈ x'.tables.notifications, (∃ n ∈ x.tables.notifications, n.Becomes n') ∨
    (∀ k, n'.about ≠ .message k) ∨ x.locks (.notification n'.key) ≠ some j
  lastID : x.lastID ≤ x'.lastID

theorem Spares.of_quiet {x x' : Shared} {j : Nat} (h : x.tables.Quiet x'.tables)
    (hlocks : ∀ k, x.locks k = some j → x'.locks k = some j)
    (hactive : ∀ c, x.locks (.connection c) = some j → x.tables.db.Active c →
      x'.tables.db.Active c)
    (hid : x.lastID ≤ x'.lastID) : Spares x x' j where
  locks := hlocks
  active := hactive
  connections := h.connections
  messages := h.messages ▸ List.prefix_refl _
  newMessage := fun _ hm => Or.inl (h.messages ▸ hm)
  kept := h.kept
  came := fun n' hn' => (h.came n' hn').imp_right Or.inl
  lastID := hid

/-- A call that leaves the tables alone. -/
theorem Spares.of_tables {x x' : Shared} {j : Nat} (h : x'.tables = x.tables)
    (hlocks : ∀ k, x.locks k = some j → x'.locks k = some j) (hid : x.lastID ≤ x'.lastID) :
    Spares x x' j :=
  .of_quiet (h ▸ .refl _) hlocks (fun _ _ hc => h ▸ hc) hid

theorem spares_exec {x : Shared} {q : Statement} {now : UnixMilli} {j : Nat}
    (hwaits : q.waits x now = false) :
    Spares x { x with tables := q.exec now x.tables } j :=
  .of_quiet (Tables.quiet_exec now q) (fun _ h => h)
    (fun _ hlock h => active_exec hwaits hlock h) (Nat.le_refl _)

/-! ## The transaction of a send -/

/-- The calls of send `i`, with what they found. -/
inductive SendMove (r : SendRequest) (U : UUIDText) (i : Nat) (x : Shared) :
    SendStage → Shared → SendStage → Prop where
  | refuse (stage : SendStage) {status : Nat} (hstatus : 400 ≤ status) :
      SendMove r U i x stage x (.done (.refused status))
  | authorize {c : String} {p : UserID} (hpeer : x.tables.peer U r.user r.id = some (c, p)) :
      SendMove r U i x .authorize x (.begin c p)
  | begin {c : String} {p : UserID} (t : UnixMilli) :
      SendMove r U i x (.begin c p) x (.lock c p t)
  | abort (stage : SendStage) {status : Nat} {l : Locks Resource} (hl : x.locks.Taken l i)
      (hstatus : 400 ≤ status) : SendMove r U i x stage { x with locks := l } (.rollback status)
  | lock {c : String} {p : UserID} {t : UnixMilli} {l : Locks Resource}
      (hl : x.locks.acquire i (.connection c) = some l) (hactive : x.tables.db.Active c) :
      SendMove r U i x (.lock c p t) { x with locks := l } (.nextID c p t)
  | nextID {c : String} {p : UserID} {t : UnixMilli} {k : String} {n : Nat}
      (hk : U.cast r.clientID = some k) (hn : x.lastID < n) :
      SendMove r U i x (.nextID c p t) { x with lastID := n } (.insertMessage c p t k n)
  | insert {c : String} {p : UserID} {t : UnixMilli} {k : String} {n : Nat} {l : Locks Resource}
      (hl : x.locks.acquire i (.message (r.user, k)) = some l)
      (hnone : x.tables.find (r.user, k) = none) :
      SendMove r U i x (.insertMessage c p t k n) { x with locks := l }
        (.insertNotification c p (r.message c t k n) true)
  | find {c : String} {p : UserID} {t : UnixMilli} {k : String} {n : Nat} {l : Locks Resource}
      {m : Message} (hl : x.locks.acquire i (.message (r.user, k)) = some l)
      (hfind : x.tables.find (r.user, k) = some m) (hc : m.connectionID = c) :
      SendMove r U i x (.insertMessage c p t k n) { x with locks := l }
        (.insertNotification c p m false)
  | noted {c : String} {p : UserID} {m : Message} {fresh : Bool}
      (h : x.tables.notified (p, .message m.id) = true) :
      SendMove r U i x (.insertNotification c p m fresh) x (.commit c p m fresh none)
  | note {c : String} {p : UserID} {m : Message} {fresh : Bool} {l : Locks Resource}
      (hl : x.locks.acquire i (.notification (p, .message m.id)) = some l)
      (h : x.tables.notified (p, .message m.id) = false) :
      SendMove r U i x (.insertNotification c p m fresh) { x with locks := l }
        (.commit c p m fresh (some ⟨p, c, .message m.id, none⟩))
  | commit {c : String} {p : UserID} {m : Message} {fresh : Bool} {note : Option Notification}
      {stage : SendStage} (hstage : stage = .emitPeer p m ∨ stage = .done (.refused 500)) :
      SendMove r U i x (.commit c p m fresh note)
        { x with
          tables := x.tables.insert (if fresh then some m else none) note
          locks := x.locks.release i } stage
  | emitPeer {p : UserID} {m : Message} :
      SendMove r U i x (.emitPeer p m)
        { x with emitted := (p, .messageCreated r.id m) :: x.emitted } (.emitSelf m)
  | emitSelf {m : Message} :
      SendMove r U i x (.emitSelf m)
        { x with emitted := (r.user, .messageCreated r.id m) :: x.emitted } (.done (.sent m))
  | rollback (status : Nat) :
      SendMove r U i x (.rollback status) { x with locks := x.locks.release i }
        (.done (.refused status))

/-- A statement in a transaction goes through or leads to the rollback. -/
theorem inTransaction_eq_some {σ : Type} {fault : Fault} {x x' : Shared} {rollback st : σ}
    {result : Option (Shared × σ)} (h : inTransaction fault x rollback result = some (x', st)) :
    result = some (x', st) ∨ x' = x ∧ st = rollback := by
  unfold inTransaction at h
  split at h
  · exact Or.inl h
  · cases h
    exact Or.inr ⟨rfl, rfl⟩

theorem inTransaction_ok {σ : Type} (x : Shared) (rollback : σ)
    (result : Option (Shared × σ)) : inTransaction .ok x rollback result = result :=
  if_pos rfl

theorem SendRequest.step_move {r : SendRequest} {U : UUIDText} {i : Nat} {d : Supply}
    {fault : Fault} {x x' : Shared} {st st' : SendStage}
    (h : r.step U i d fault x st = some (x', st')) : SendMove r U i x st x' st' := by
  have habort : ∀ {status}, 400 ≤ status → SendMove r U i x st x (.rollback status) :=
    fun hstatus => .abort st (.refl _ i) hstatus
  cases st with
  | authorize =>
      rw [step] at h
      split at h
      · cases h
        exact .refuse _ (by decide)
      · next c p hpeer =>
          split at h
          · split at hpeer
            · cases h
              exact .authorize hpeer
            · cases hpeer
          · cases h
            exact .refuse _ (by decide)
  | begin c p =>
      rw [step] at h
      split at h
      · cases h
        exact .begin _
      · cases h
        exact .refuse _ (by decide)
  | lock c p t =>
      rw [step] at h
      rcases inTransaction_eq_some h with h | ⟨rfl, rfl⟩
      · obtain ⟨l, hl, he⟩ := Option.map_eq_some_iff.mp h
        split at he
        · next hactive =>
            cases he
            exact .lock hl (Database.isActive_eq_true.mp hactive)
        · cases he
          exact .abort _ (Locks.acquire_eq_some hl).1 (by decide)
      · exact habort (by decide)
  | nextID c p t =>
      rw [step] at h
      rcases inTransaction_eq_some h with h | ⟨rfl, rfl⟩
      · split at h
        · cases h
          exact habort (by decide)
        · next k hk =>
            cases h
            refine .nextID ?_ (by omega)
            unfold argument at hk
            split at hk
            · cases hk
            · exact hk
      · exact habort (by decide)
  | insertMessage c p t k n =>
      rw [step] at h
      rcases inTransaction_eq_some h with h | ⟨rfl, rfl⟩
      · obtain ⟨l, hl, he⟩ := Option.map_eq_some_iff.mp h
        split at he
        · next hnone =>
            cases he
            exact .insert hl hnone
        · next m hfind =>
            split at he
            · next hc =>
                cases he
                exact .find hl hfind hc
            · cases he
              exact .abort _ (Locks.acquire_eq_some hl).1 (by decide)
      · exact habort (by decide)
  | insertNotification c p m fresh =>
      rw [step] at h
      rcases inTransaction_eq_some h with h | ⟨rfl, rfl⟩
      · split at h
        · next hnoted =>
            cases h
            exact .noted hnoted
        · next hnoted =>
            obtain ⟨l, hl, he⟩ := Option.map_eq_some_iff.mp h
            cases he
            exact .note hl (Bool.not_eq_true _ ▸ hnoted)
      · exact habort (by decide)
  | commit c p m fresh note =>
      rw [step] at h
      split at h
      · cases h
        exact habort (by decide)
      · cases h
        refine .commit ?_
        split
        · exact Or.inl rfl
        · exact Or.inr rfl
  | emitPeer p m =>
      cases h
      exact .emitPeer
  | emitSelf m =>
      cases h
      exact .emitSelf
  | rollback status =>
      cases h
      exact .rollback status
  | done answer => cases h

/-! ## The transaction of Block -/

/-- The rows that the UPDATE finds are those of the pair. -/
theorem contains_pairIDs {db : Database} {u target : UserID} {r : ConnectionRow}
    (hr : r ∈ db.connections.rows) :
    (pairIDs db u target).contains r.id = decide (r.pair = sortPair u target) := by
  rw [Bool.eq_iff_iff, List.contains_iff_mem, decide_eq_true_eq, pairIDs, List.mem_map]
  constructor
  · rintro ⟨r', hr', hid⟩
    obtain ⟨hmem, hpair⟩ := List.mem_filter.mp hr'
    rw [← Database.row_unique hmem hr hid]
    exact of_decide_eq_true hpair
  · intro hpair
    exact ⟨r, List.mem_filter.mpr ⟨hr, decide_eq_true hpair⟩, rfl⟩

/-- When nothing comes between its statements, the transaction does what `Block`
    does as one step. -/
theorem commitBlock_eq {db : Database} {u target : UserID} {now : UnixMilli}
    (hknows : db.knows u target = true) (hne : u ≠ target) :
    db.block u target now = .ok (commitBlock db u target now
      (decide ((u, target) ∉ db.blocks.rows)) (pairIDs db u target)) := by
  have hconn : db.connections.endWhere (fun r => decide (r.pair = sortPair u target)) now =
      db.connections.endWhere (fun r => (pairIDs db u target).contains r.id) now := by
    unfold ConnectionTable.endWhere
    rw [ConnectionTable.mk.injEq]
    refine List.map_congr_left fun r hr => ?_
    simp only [ConnectionRow.endIf, contains_pairIDs hr]
  unfold Database.block commitBlock
  rw [hconn]
  by_cases hmem : (u, target) ∈ db.blocks.rows
  · simp [BlockTable.insert, hknows, hne, hmem, bind, Except.bind, pure, Except.pure]
  · simp [BlockTable.insert, hknows, hne, hmem, bind, Except.bind, pure, Except.pure,
      Except.toOption]

/-- The calls of Block `i`. -/
inductive BlockMove (u target : UserID) (i : Nat) (x : Shared) :
    BlockStage → Shared → BlockStage → Prop where
  | other (stage : BlockStage) {stage' : BlockStage} {l : Locks Resource}
      (hl : x.locks.Taken l i) (hstage : ∀ t fresh ids, stage' ≠ .commit t fresh ids) :
      BlockMove u target i x stage { x with locks := l } stage'
  | endPair {t : UnixMilli} {fresh : Bool} {ids : List String} {l : Locks Resource}
      (hl : x.locks.acquireAll i (ids.map Resource.connection) = some l) :
      BlockMove u target i x (.endPair t fresh ids) { x with locks := l } (.commit t fresh ids)
  | commit {t : UnixMilli} {fresh : Bool} {ids : List String} (ok : Bool) :
      BlockMove u target i x (.commit t fresh ids)
        { x with
          tables := { x.tables with db := commitBlock x.tables.db u target t fresh ids }
          locks := x.locks.release i } (.done ok)
  | rollback :
      BlockMove u target i x .rollback { x with locks := x.locks.release i } (.done false)

theorem blockStep_move {u target : UserID} {i : Nat} {d : Supply} {fault : Fault}
    {x x' : Shared} {st st' : BlockStage}
    (h : blockStep u target i d fault x st = some (x', st')) :
    BlockMove u target i x st x' st' := by
  have hsame : ∀ {st'}, (∀ t fresh ids, st' ≠ .commit t fresh ids) →
      BlockMove u target i x st x st' :=
    fun hst => .other st (.refl _ i) hst
  cases st with
  | begin =>
      rw [blockStep] at h
      split at h
      · cases h
        exact hsame (by simp)
      · cases h
        exact hsame (by simp)
  | insertBlock t =>
      rw [blockStep] at h
      rcases inTransaction_eq_some h with h | ⟨rfl, rfl⟩
      · split at h
        · cases h
          exact hsame (by simp)
        · split at h
          · cases h
            exact hsame (by simp)
          · obtain ⟨l, hl, he⟩ := Option.map_eq_some_iff.mp h
            cases he
            exact .other _ (Locks.acquire_eq_some hl).1 (by simp)
      · exact hsame (by simp)
  | findPair t fresh =>
      rw [blockStep] at h
      rcases inTransaction_eq_some h with h | ⟨rfl, rfl⟩
      · cases h
        exact hsame (by simp)
      · exact hsame (by simp)
  | endPair t fresh ids =>
      rw [blockStep] at h
      rcases inTransaction_eq_some h with h | ⟨rfl, rfl⟩
      · obtain ⟨l, hl, he⟩ := Option.map_eq_some_iff.mp h
        cases he
        exact .endPair hl
      · exact hsame (by simp)
  | commit t fresh ids =>
      rw [blockStep] at h
      split at h
      · cases h
        exact hsame (by simp)
      · cases h
        exact .commit _
  | rollback =>
      cases h
      exact .rollback
  | done ok => cases h

/-! ## The calls of a receipt request -/

/-- The calls of a receipt request, with what they found. -/
inductive ReceiptMove (r : ReceiptRequest) (U : UUIDText) (d : Supply) (fault : Fault)
    (x : Shared) : ReceiptStage → Shared → ReceiptStage → Prop where
  | unauthorized (status : Nat) : ReceiptMove r U d fault x .authorize x (.done status)
  | authorize {c : String} {p : UserID} (hpeer : x.tables.peer U r.user r.id = some (c, p))
      (hvalid : r.valid = true) : ReceiptMove r U d fault x .authorize x (.check c p)
  | unknown (c : String) (p : UserID) (status : Nat) :
      ReceiptMove r U d fault x (.check c p) x (.done status)
  | checkRead {c : String} {p : UserID} (hfound : x.tables.hasMessage r.delivered c p = true)
      (hread : r.read = true) : ReceiptMove r U d fault x (.check c p) x (.settings c p)
  | checkDelivered {c : String} {p : UserID}
      (hfound : x.tables.hasMessage r.delivered c p = true) :
      ReceiptMove r U d fault x (.check c p) x (.upsert c p 0)
  | enabled {c : String} {p : UserID}
      (h : fault ≠ .ok ∨ (x.tables.getSettings r.user).readReceipts = true) :
      ReceiptMove r U d fault x (.settings c p) x (.upsert c p r.delivered)
  | disabled (c : String) (p : UserID) :
      ReceiptMove r U d fault x (.settings c p) x (.upsert c p 0)
  | failed {c : String} {p : UserID} {read : Nat} {x' : Shared} (hfault : fault ≠ .ok)
      (hx' : x' = x ∨
        x' = { x with tables := (x.tables.upsertReceipt c r.user r.delivered read).2 }) :
      ReceiptMove r U d fault x (.upsert c p read) x' (.done 500)
  | upsertRead {c : String} {p : UserID} {read : Nat} :
      ReceiptMove r U d fault x (.upsert c p read)
        { x with tables := (x.tables.upsertReceipt c r.user r.delivered read).2 }
        (.markRead c p read (x.tables.upsertReceipt c r.user r.delivered read).1)
  | upsertDelivered {c : String} {p : UserID} {read : Nat} :
      ReceiptMove r U d fault x (.upsert c p read)
        { x with tables := (x.tables.upsertReceipt c r.user r.delivered read).2 }
        (ReceiptRequest.finish p read (x.tables.upsertReceipt c r.user r.delivered read).1)
  | markRead {c : String} {p : UserID} {read : Nat} {changed : Bool} {x' : Shared}
      (hx' : x' = x ∨ x' = { x with tables := x.tables.markRead (r.covers c) d.now }) :
      ReceiptMove r U d fault x (.markRead c p read changed) x'
        (ReceiptRequest.finish p read changed)
  | emit {p : UserID} {read : Nat} :
      ReceiptMove r U d fault x (.emit p read)
        { x with emitted := (p, .receipt r.id r.delivered read) :: x.emitted } (.done 200)

theorem ReceiptRequest.step_move {r : ReceiptRequest} {U : UUIDText} {d : Supply}
    {fault : Fault} {x x' : Shared} {st st' : ReceiptStage}
    (h : r.step U d fault x st = some (x', st')) : ReceiptMove r U d fault x st x' st' := by
  cases st with
  | authorize =>
      rw [step] at h
      split at h
      · cases h
        exact .unauthorized 403
      · next c p hpeer =>
          split at hpeer
          · split at h
            · next hvalid =>
                cases h
                exact .authorize hpeer hvalid
            · cases h
              exact .unauthorized 400
          · cases hpeer
  | check c p =>
      rw [step] at h
      split at h
      · next hfound =>
          rw [Bool.and_eq_true] at hfound
          split at h
          · next hread =>
              cases h
              exact .checkRead hfound.2 hread
          · cases h
            exact .checkDelivered hfound.2
      · cases h
        exact .unknown c p 400
  | settings c p =>
      rw [step] at h
      split at h
      · next henabled =>
          cases h
          rw [Bool.or_eq_true, decide_eq_true_eq] at henabled
          exact .enabled henabled
      · cases h
        exact .disabled c p
  | upsert c p read =>
      rw [step] at h
      split at h
      · next hfault =>
          cases h
          exact .failed (by rw [hfault]; decide) (Or.inl rfl)
      · obtain ⟨hx', hst'⟩ := Prod.mk.inj (Option.some.inj h)
        subst hx'
        split at hst'
        · next hfault =>
            subst hst'
            exact .failed hfault (Or.inr rfl)
        · split at hst'
          · subst hst'
            exact .upsertRead
          · subst hst'
            exact .upsertDelivered
  | markRead c p read changed =>
      obtain ⟨hx', hst'⟩ := Prod.mk.inj (Option.some.inj h)
      subst hst'
      refine .markRead ?_
      split at hx'
      · exact Or.inl hx'.symm
      · exact Or.inr hx'.symm
  | emit p read =>
      cases h
      exact .emit
  | done status => cases h

/-- None of them brings a message or takes a lock. -/
theorem ReceiptMove.quiet {r : ReceiptRequest} {U : UUIDText} {d : Supply} {fault : Fault}
    {x x' : Shared} {st st' : ReceiptStage} (h : ReceiptMove r U d fault x st x' st') :
    x.tables.Quiet x'.tables ∧ x'.tables.db = x.tables.db ∧ x'.locks = x.locks ∧
      x'.lastID = x.lastID := by
  have hupsert : ∀ c read,
      x.tables.Quiet (x.tables.upsertReceipt c r.user r.delivered read).2 ∧
        (x.tables.upsertReceipt c r.user r.delivered read).2.db = x.tables.db :=
    fun c read => ⟨Tables.quiet_upsertReceipt .., x.tables.upsertReceipt_db ..⟩
  cases h with
  | unauthorized | authorize | unknown | checkRead | checkDelivered | enabled | disabled | emit =>
      exact ⟨.refl _, rfl, rfl, rfl⟩
  | @failed c p read _ _ hx' =>
      rcases hx' with rfl | rfl
      · exact ⟨.refl _, rfl, rfl, rfl⟩
      · exact ⟨(hupsert c read).1, (hupsert c read).2, rfl, rfl⟩
  | @upsertRead c p read => exact ⟨(hupsert c read).1, (hupsert c read).2, rfl, rfl⟩
  | @upsertDelivered c p read => exact ⟨(hupsert c read).1, (hupsert c read).2, rfl, rfl⟩
  | markRead hx' =>
      rcases hx' with rfl | rfl
      · exact ⟨.refl _, rfl, rfl, rfl⟩
      · exact ⟨Tables.quiet_markRead _ _ _, rfl, rfl, rfl⟩

/-! ## The machine -/

/-- The steps of the machine. -/
inductive ChatMove (U : UUIDText) (s : Chat) : Action → Chat → Prop where
  | spawn (q : Request) :
      ChatMove U s (.spawn q) { s with threads := s.threads ++ [q.start] }
  | turn {i : Nat} {d : Supply} {fault : Fault} {th th' : Thread} {x : Shared}
      (hi : s.threads[i]? = some th) (hstep : th.step U i d fault s.shared = some (x, th')) :
      ChatMove U s (.turn i d fault) ⟨x, s.threads.set i th'⟩
  | statement {q : Statement} {now : UnixMilli} (hwaits : q.waits s.shared now = false) :
      ChatMove U s (.statement q now)
        { s with shared := { s.shared with tables := q.exec now s.shared.tables } }

theorem chatStep_move {U : UUIDText} {db : Database} {s s' : Chat} {a : Action}
    (h : (chatMachine U db).step s a = some s') : ChatMove U s a s' := by
  change s.step U a = some s' at h
  cases a with
  | spawn q =>
      cases h
      exact .spawn q
  | turn i d fault =>
      obtain ⟨th, hi, h⟩ := Option.bind_eq_some_iff.mp h
      obtain ⟨⟨x, th'⟩, hstep, he⟩ := Option.map_eq_some_iff.mp h
      cases he
      exact .turn hi hstep
  | statement q now =>
      rw [Chat.step] at h
      split at h
      · cases h
      · next hwaits =>
          cases h
          exact .statement (Bool.not_eq_true _ ▸ hwaits)

/-- A request that is in the list moves with its own turns and no others. -/
theorem ChatMove.thread {U : UUIDText} {s s' : Chat} {a : Action} {i : Nat} {th : Thread}
    (h : ChatMove U s a s') (hi : s.threads[i]? = some th) :
    s'.threads[i]? = some th ∧ (∀ d fault, a ≠ .turn i d fault) ∨
      ∃ d fault th', a = .turn i d fault ∧ th.step U i d fault s.shared = some (s'.shared, th') ∧
        s'.threads[i]? = some th' := by
  have hlt : i < s.threads.length := (List.getElem?_eq_some_iff.mp hi).1
  cases h with
  | spawn q =>
      refine Or.inl ⟨?_, fun _ _ e => nomatch e⟩
      rw [List.getElem?_append_left hlt]
      exact hi
  | statement => exact Or.inl ⟨hi, fun _ _ e => nomatch e⟩
  | @turn j d fault th₀ th' x hj hstep =>
      by_cases hji : j = i
      · subst hji
        rw [hi] at hj
        cases hj
        refine Or.inr ⟨d, fault, th', rfl, hstep, ?_⟩
        rw [List.getElem?_set_self hlt]
      · refine Or.inl ⟨?_, fun _ _ e => hji (Action.turn.inj e).1⟩
        rw [List.getElem?_set_ne hji]
        exact hi

/-- A list with one more entry. -/
theorem getElem?_concat_eq_some {α : Type} {l : List α} {a b : α} {i : Nat}
    (h : (l ++ [a])[i]? = some b) : l[i]? = some b ∨ i = l.length ∧ b = a := by
  rw [List.getElem?_append] at h
  split at h
  · exact Or.inl h
  · next hle =>
      obtain ⟨hi, hb⟩ := List.getElem?_eq_some_iff.mp h
      rw [List.length_singleton] at hi
      refine Or.inr ⟨by omega, ?_⟩
      rw [← hb, List.getElem_singleton]

/-- A list with one entry replaced. -/
theorem getElem?_set_eq_some {α : Type} {l : List α} {a b : α} {i j : Nat}
    (h : (l.set i a)[j]? = some b) : i = j ∧ b = a ∨ i ≠ j ∧ l[j]? = some b := by
  by_cases hij : i = j
  · subst hij
    rw [List.getElem?_set_self'] at h
    obtain ⟨_, _, rfl⟩ := Option.map_eq_some_iff.mp h
    exact Or.inl ⟨rfl, rfl⟩
  · rw [List.getElem?_set_ne hij] at h
    exact Or.inr ⟨hij, h⟩

/-- Where a request of the list comes from. -/
theorem ChatMove.origin {U : UUIDText} {s s' : Chat} {a : Action} {i : Nat} {th' : Thread}
    (h : ChatMove U s a s') (hi : s'.threads[i]? = some th') :
    s.threads[i]? = some th' ∧ (∀ d fault, a ≠ .turn i d fault) ∨
      (∃ q, a = .spawn q ∧ i = s.threads.length ∧ th' = q.start) ∨
        ∃ d fault th, a = .turn i d fault ∧ s.threads[i]? = some th ∧
          th.step U i d fault s.shared = some (s'.shared, th') := by
  cases h with
  | spawn q =>
      rcases getElem?_concat_eq_some hi with hi | ⟨hlast, hq⟩
      · exact Or.inl ⟨hi, fun _ _ e => nomatch e⟩
      · exact Or.inr (Or.inl ⟨q, rfl, hlast, hq⟩)
  | statement => exact Or.inl ⟨hi, fun _ _ e => nomatch e⟩
  | @turn j d fault th th₁ x hj hstep =>
      rcases getElem?_set_eq_some hi with ⟨rfl, rfl⟩ | ⟨hji, hi⟩
      · exact Or.inr (Or.inr ⟨d, fault, th, rfl, hj, hstep⟩)
      · exact Or.inl ⟨hi, fun _ _ e => hji (Action.turn.inj e).1⟩

/-- A request moves as the code of its kind says. -/
inductive ThreadMove (U : UUIDText) (i : Nat) (d : Supply) (fault : Fault) (x x' : Shared) :
    Thread → Thread → Prop where
  | send {r : SendRequest} {st st' : SendStage}
      (hcall : r.step U i d fault x st = some (x', st')) :
      ThreadMove U i d fault x x' (.send r st) (.send r st')
  | receipt {r : ReceiptRequest} {st st' : ReceiptStage}
      (hcall : r.step U d fault x st = some (x', st')) :
      ThreadMove U i d fault x x' (.receipt r st) (.receipt r st')
  | block {u target : UserID} {st st' : BlockStage}
      (hcall : blockStep u target i d fault x st = some (x', st')) :
      ThreadMove U i d fault x x' (.block u target st) (.block u target st')

theorem Thread.step_move {U : UUIDText} {i : Nat} {d : Supply} {fault : Fault}
    {x x' : Shared} {th th' : Thread} (h : th.step U i d fault x = some (x', th')) :
    ThreadMove U i d fault x x' th th' := by
  cases th with
  | send r st =>
      obtain ⟨⟨y, st'⟩, hcall, he⟩ := Option.map_eq_some_iff.mp h
      cases he
      exact .send hcall
  | receipt r st =>
      obtain ⟨⟨y, st'⟩, hcall, he⟩ := Option.map_eq_some_iff.mp h
      cases he
      exact .receipt hcall
  | block u target st =>
      obtain ⟨⟨y, st'⟩, hcall, he⟩ := Option.map_eq_some_iff.mp h
      cases he
      exact .block hcall

/-- A send was a send before. -/
theorem Thread.step_eq_send {U : UUIDText} {i : Nat} {d : Supply} {fault : Fault}
    {x x' : Shared} {th : Thread} {r : SendRequest} {st' : SendStage}
    (h : th.step U i d fault x = some (x', .send r st')) :
    ∃ st, th = .send r st ∧ r.step U i d fault x st = some (x', st') := by
  cases th.step_move h with
  | send hcall => exact ⟨_, rfl, hcall⟩

/-- A receipt request was one before. -/
theorem Thread.step_eq_receipt {U : UUIDText} {i : Nat} {d : Supply} {fault : Fault}
    {x x' : Shared} {th : Thread} {r : ReceiptRequest} {st' : ReceiptStage}
    (h : th.step U i d fault x = some (x', .receipt r st')) :
    ∃ st, th = .receipt r st ∧ r.step U d fault x st = some (x', st') := by
  cases th.step_move h with
  | receipt hcall => exact ⟨_, rfl, hcall⟩

/-- A receipt request of the list is new, or stays, or makes its next call. -/
theorem ChatMove.receipt_origin {U : UUIDText} {s s' : Chat} {a : Action} {i : Nat}
    {r : ReceiptRequest} {st' : ReceiptStage} (h : ChatMove U s a s')
    (hi : s'.threads[i]? = some (.receipt r st')) :
    s.threads[i]? = some (.receipt r st') ∧ (∀ d fault, a ≠ .turn i d fault) ∨
      (i = s.threads.length ∧ st' = .authorize ∧ ∀ d fault, a ≠ .turn i d fault) ∨
        ∃ d fault st, a = .turn i d fault ∧ s.threads[i]? = some (.receipt r st) ∧
          r.step U d fault s.shared st = some (s'.shared, st') := by
  rcases h.origin hi with hstay | ⟨q, rfl, hlast, hq⟩ | ⟨d, fault, th, ha, hth, hstep⟩
  · exact Or.inl hstay
  · refine Or.inr (Or.inl ⟨hlast, ?_, fun _ _ e => nomatch e⟩)
    cases q with
    | receipt r' =>
        cases hq
        rfl
    | send r' => cases hq
    | block u target => cases hq
  · obtain ⟨st, rfl, hcall⟩ := Thread.step_eq_receipt hstep
    exact Or.inr (Or.inr ⟨d, fault, st, ha, hth, hcall⟩)

end OneMinute.Communication
