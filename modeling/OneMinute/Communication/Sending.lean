/-
  OneMinute.Communication.Sending

  The invariant of all schedules of chat requests.

  `Stored` is what the tables satisfy: one row for each key, ids in the order of
  the commits of a connection, one notice for each message.  `SendStage.Ok` is
  what a send knows at each stage, and `Spares` keeps it while others move: the
  lock on the connection protects the connection and the order of its ids, the
  lock on the index entry protects the key.
-/

import OneMinute.Communication.Moves

namespace OneMinute.Communication

open Discovery (UserID UnixMilli MatchState sortPair)

/-! ## The tables -/

structure Stored (x : Shared) : Prop where
  once : (x.tables.messages.map Message.key).Nodup
  idOnce : (x.tables.messages.map Message.id).Nodup
  drawn : ∀ m ∈ x.tables.messages, 1 ≤ m.id ∧ m.id ≤ x.lastID
  /-- The messages of a connection were committed in the order of their ids. -/
  order : x.tables.messages.Pairwise fun m m' => m.connectionID = m'.connectionID → m.id < m'.id
  noticeOnce : (x.tables.notifications.map Notification.key).Nodup
  noticed : ∀ m ∈ x.tables.messages, ∃ p, x.tables.db.Joins m.connectionID m.senderID p ∧
    ∃ n ∈ x.tables.notifications, n.key = (p, .message m.id) ∧ n.connectionID = m.connectionID
  about : ∀ n ∈ x.tables.notifications, ∀ k, n.about = .message k →
    ∃ m ∈ x.tables.messages, m.id = k ∧ m.connectionID = n.connectionID ∧
      x.tables.db.Joins m.connectionID m.senderID n.userID

theorem stored_init (db : Database) : Stored (Chat.init db).shared where
  once := List.nodup_nil
  idOnce := List.nodup_nil
  drawn := fun _ hm => (List.not_mem_nil hm).elim
  order := List.Pairwise.nil
  noticeOnce := List.nodup_nil
  noticed := fun _ hm => (List.not_mem_nil hm).elim
  about := fun _ hn => (List.not_mem_nil hn).elim

namespace Stored

variable {x x' : Shared}

theorem quiet (h : Stored x) (hq : x.tables.Quiet x'.tables) (hid : x.lastID ≤ x'.lastID) :
    Stored x' where
  once := hq.messages ▸ h.once
  idOnce := hq.messages ▸ h.idOnce
  drawn := by
    intro m hm
    rw [hq.messages] at hm
    obtain ⟨hpos, hle⟩ := h.drawn m hm
    exact ⟨hpos, Nat.le_trans hle hid⟩
  order := hq.messages ▸ h.order
  noticeOnce := hq.once h.noticeOnce
  noticed := by
    intro m hm
    rw [hq.messages] at hm
    obtain ⟨p, hjoins, n, hn, hkey, hconn⟩ := h.noticed m hm
    obtain ⟨n', hn', hb⟩ := hq.kept n hn
    exact ⟨p, hjoins.extends hq.connections, n', hn', hb.key.trans hkey,
      hb.connectionID.trans hconn⟩
  about := by
    intro n' hn' k hk
    rcases hq.came n' hn' with ⟨n, hn, hb⟩ | hother
    · rw [hb.about] at hk
      obtain ⟨m, hm, hid, hconn, hjoins⟩ := h.about n hn k hk
      rw [hq.messages, hb.connectionID, hb.userID]
      exact ⟨m, hm, hid, hconn, hjoins.extends hq.connections⟩
    · exact absurd hk (hother k)

/-- The row of an id. -/
theorem eq_of_id (h : Stored x) {m m' : Message} (hm : m ∈ x.tables.messages)
    (hm' : m' ∈ x.tables.messages) (hid : m.id = m'.id) : m = m' :=
  List.inj_on_of_nodup_map h.idOnce hm hm' hid

/-- The row of a key. -/
theorem eq_of_key (h : Stored x) {m m' : Message} (hm : m ∈ x.tables.messages)
    (hm' : m' ∈ x.tables.messages) (hkey : m.key = m'.key) : m = m' :=
  List.inj_on_of_nodup_map h.once hm hm' hkey

/-- A message's notice is for the other participant. -/
theorem notice (h : Stored x) {m : Message} {p : UserID} (hm : m ∈ x.tables.messages)
    (hjoins : x.tables.db.Joins m.connectionID m.senderID p) :
    ∃ n ∈ x.tables.notifications, n.key = (p, .message m.id) ∧
      n.connectionID = m.connectionID := by
  obtain ⟨q, hq, hnotice⟩ := h.noticed m hm
  rwa [hjoins.other_unique hq]

/-- All notices of a message are one row. -/
theorem notice_unique (h : Stored x) {m : Message} {n n' : Notification}
    (hm : m ∈ x.tables.messages) (hn : n ∈ x.tables.notifications)
    (hn' : n' ∈ x.tables.notifications) (habout : n.about = .message m.id)
    (habout' : n'.about = .message m.id) : n = n' := by
  -- both are for the other participant of the sender, so they have one key
  obtain ⟨m₁, hm₁, hid, _, hjoins⟩ := h.about n hn _ habout
  obtain ⟨m₂, hm₂, hid', _, hjoins'⟩ := h.about n' hn' _ habout'
  rw [h.eq_of_id hm₁ hm hid] at hjoins
  rw [h.eq_of_id hm₂ hm hid'] at hjoins'
  have huser : n.userID = n'.userID := hjoins.other_unique hjoins'
  refine List.inj_on_of_nodup_map h.noticeOnce hn hn' ?_
  unfold Notification.key
  rw [huser, habout, habout']

end Stored

/-! ## What a send knows -/

/-- Send `i` holds the lock on its connection, which is active. -/
structure Holds (x : Shared) (i : Nat) (u : UserID) (c : String) (p : UserID) : Prop where
  locked : x.locks (.connection c) = some i
  active : x.tables.db.Active c
  joins : x.tables.db.Joins c u p

/-- `n` was drawn, no row has it, and the rows of `c` have smaller ids. -/
structure Drawn (x : Shared) (c : String) (n : Nat) : Prop where
  pos : 1 ≤ n
  le : n ≤ x.lastID
  new : ∀ m ∈ x.tables.messages, m.id ≠ n
  above : ∀ m ∈ x.tables.messages, m.connectionID = c → m.id < n

/-- `m` is a row for the request, on the connection `c` that its path names. -/
structure RowOf (r : SendRequest) (U : UUIDText) (c : String) (m : Message) : Prop where
  path : U.cast r.id = some c
  connection : m.connectionID = c
  sender : m.senderID = r.user
  client : U.cast r.clientID = some m.clientID

/-- The request's row is in the table, or about to be inserted. -/
structure Written (x : Shared) (i : Nat) (m : Message) (fresh : Bool) : Prop where
  locked : x.locks (.message m.key) = some i
  found : fresh = false → m ∈ x.tables.messages
  drawn : fresh = true → Drawn x m.connectionID m.id
  new : fresh = true → ∀ m' ∈ x.tables.messages, m'.key ≠ m.key

/-- The message's notice is in the table, or about to be inserted. -/
structure Noted (x : Shared) (i : Nat) (p : UserID) (m : Message) (note : Option Notification) :
    Prop where
  found : note = none → ∃ n ∈ x.tables.notifications, n.key = (p, .message m.id)
  row : ∀ n, note = some n → n = ⟨p, m.connectionID, .message m.id, none⟩
  new : ∀ n, note = some n → ∀ n' ∈ x.tables.notifications, n'.key ≠ n.key
  locked : ∀ n, note = some n → x.locks (.notification n.key) = some i

/-- What send `i` knows at each stage. -/
def SendStage.Ok (r : SendRequest) (U : UUIDText) (i : Nat) (x : Shared) : SendStage → Prop
  | .authorize => True
  | .rollback status | .done (.refused status) => 400 ≤ status
  | .begin c p | .lock c p _ => U.cast r.id = some c ∧ x.tables.db.Joins c r.user p
  | .nextID c p _ => U.cast r.id = some c ∧ Holds x i r.user c p
  | .insertMessage c p _ k n =>
    U.cast r.id = some c ∧ Holds x i r.user c p ∧ U.cast r.clientID = some k ∧ Drawn x c n
  | .insertNotification c p m fresh =>
    Holds x i r.user c p ∧ RowOf r U c m ∧ Written x i m fresh
  | .commit c p m fresh note =>
    Holds x i r.user c p ∧ RowOf r U c m ∧ Written x i m fresh ∧ Noted x i p m note
  | .emitPeer _ m | .emitSelf m | .done (.sent m) =>
    m ∈ x.tables.messages ∧ ∃ c, RowOf r U c m

/-- The id that a transaction has drawn and not committed. -/
def SendStage.drawnID : SendStage → Option Nat
  | .insertMessage _ _ _ _ n => some n
  | .insertNotification _ _ m fresh | .commit _ _ m fresh _ => if fresh then some m.id else none
  | .authorize | .begin _ _ | .lock _ _ _ | .nextID _ _ _ | .emitPeer _ _ | .emitSelf _
  | .rollback _ | .done _ => none

/-! ## Somebody else moves -/

section
variable {x x' : Shared} {j : Nat}

theorem Holds.spares {u p : UserID} {c : String} (h : Holds x j u c p) (hs : Spares x x' j) :
    Holds x' j u c p where
  locked := hs.locks _ h.locked
  active := hs.active c h.locked h.active
  joins := h.joins.extends hs.connections

/-- While the connection is locked, nobody else adds a message to it. -/
theorem Drawn.spares {c : String} {n : Nat} (h : Drawn x c n)
    (hlock : x.locks (.connection c) = some j) (hs : Spares x x' j)
    (hnew : ∀ m ∈ x'.tables.messages, m ∈ x.tables.messages ∨ m.id ≠ n) : Drawn x' c n where
  pos := h.pos
  le := Nat.le_trans h.le hs.lastID
  new := by
    intro m hm
    rcases hnew m hm with hm | hne
    · exact h.new m hm
    · exact hne
  above := by
    intro m hm hc
    rcases hs.newMessage m hm with hm | ⟨hother, _⟩
    · exact h.above m hm hc
    · rw [hc] at hother
      exact absurd hlock hother

theorem Written.spares {m : Message} {fresh : Bool} (h : Written x j m fresh)
    (hlock : x.locks (.connection m.connectionID) = some j) (hs : Spares x x' j)
    (hnew : fresh = true → ∀ m' ∈ x'.tables.messages, m' ∈ x.tables.messages ∨ m'.id ≠ m.id) :
    Written x' j m fresh where
  locked := hs.locks _ h.locked
  found := fun hf => hs.messages.subset (h.found hf)
  drawn := fun hf => (h.drawn hf).spares hlock hs (hnew hf)
  new := by
    intro hf m' hm' hkey
    rcases hs.newMessage m' hm' with hm' | ⟨_, hother⟩
    · exact h.new hf m' hm' hkey
    · rw [hkey] at hother
      exact absurd h.locked hother

theorem Noted.spares {p : UserID} {m : Message} {note : Option Notification}
    (h : Noted x j p m note) (hs : Spares x x' j) : Noted x' j p m note where
  found := by
    intro hnone
    obtain ⟨n, hn, hkey⟩ := h.found hnone
    obtain ⟨n', hn', hb⟩ := hs.kept n hn
    exact ⟨n', hn', hb.key.trans hkey⟩
  row := h.row
  new := by
    intro n hsome n' hn' hkey
    rcases hs.came n' hn' with ⟨n₀, hn₀, hb⟩ | hother | hother
    · exact h.new n hsome n₀ hn₀ (hb.key.symm.trans hkey)
    · refine hother m.id ?_
      have habout : n'.about = n.about := (Prod.mk.inj hkey).2
      rw [habout, h.row n hsome]
    · rw [hkey] at hother
      exact absurd (h.locked n hsome) hother
  locked := fun n hsome => hs.locks _ (h.locked n hsome)

/-- What a send knows it still knows after a call of somebody else. -/
theorem SendStage.Ok.spares {r : SendRequest} {U : UUIDText} {st : SendStage}
    (h : st.Ok r U j x) (hs : Spares x x' j)
    (hnew : ∀ n ∈ st.drawnID, ∀ m ∈ x'.tables.messages, m ∈ x.tables.messages ∨ m.id ≠ n) :
    st.Ok r U j x' := by
  cases st with
  | authorize => trivial
  | begin c p => exact ⟨h.1, h.2.extends hs.connections⟩
  | lock c p t => exact ⟨h.1, h.2.extends hs.connections⟩
  | nextID c p t => exact ⟨h.1, h.2.spares hs⟩
  | insertMessage c p t k n =>
      obtain ⟨hpath, hholds, hclient, hdrawn⟩ := h
      exact ⟨hpath, hholds.spares hs, hclient, hdrawn.spares hholds.locked hs (hnew n rfl)⟩
  | insertNotification c p m fresh =>
      obtain ⟨hholds, hrow, hwritten⟩ := h
      refine ⟨hholds.spares hs, hrow, hwritten.spares (hrow.connection ▸ hholds.locked) hs ?_⟩
      intro hf
      exact hnew m.id (by rw [drawnID, hf]; rfl)
  | commit c p m fresh note =>
      obtain ⟨hholds, hrow, hwritten, hnoted⟩ := h
      refine ⟨hholds.spares hs, hrow, hwritten.spares (hrow.connection ▸ hholds.locked) hs ?_,
        hnoted.spares hs⟩
      intro hf
      exact hnew m.id (by rw [drawnID, hf]; rfl)
  | emitPeer p m => exact ⟨hs.messages.subset h.1, h.2⟩
  | emitSelf m => exact ⟨hs.messages.subset h.1, h.2⟩
  | rollback status => exact h
  | done answer =>
      cases answer with
      | sent m => exact ⟨hs.messages.subset h.1, h.2⟩
      | refused status => exact h

end

/-! ## The send itself moves -/

theorem Tables.peer_eq_some {t : Tables} {U : UUIDText} {u p : UserID} {id c : String}
    (h : t.peer U u id = some (c, p)) :
    U.cast id = some c ∧ t.db.Joins c u p ∧ t.db.Active c := by
  unfold peer at h
  split at h
  · obtain ⟨c', hcast, h⟩ := Option.bind_eq_some_iff.mp h
    obtain ⟨p', hpeer, he⟩ := Option.map_eq_some_iff.mp h
    cases he
    exact ⟨hcast, Database.peer_eq_some hpeer⟩
  · cases h

theorem Tables.find_eq_some {t : Tables} {k : UserID × String} {m : Message}
    (h : t.find k = some m) : m ∈ t.messages ∧ m.key = k :=
  ⟨List.mem_of_find?_eq_some h, by simpa using List.find?_some h⟩

theorem Tables.find_eq_none {t : Tables} {k : UserID × String} (h : t.find k = none) :
    ∀ m ∈ t.messages, m.key ≠ k := by
  simpa [Tables.find] using h

theorem Tables.insert_none (t : Tables) : t.insert none none = t := by simp [Tables.insert]

section
variable {r : SendRequest} {U : UUIDText} {i : Nat} {x x' : Shared} {st st' : SendStage}

/-- The locks do not matter to it. -/
theorem Drawn.locks {c : String} {n : Nat} (h : Drawn x c n) (l : Locks Resource) :
    Drawn { x with locks := l } c n :=
  ⟨h.pos, h.le, h.new, h.above⟩

theorem Holds.taken {u p : UserID} {c : String} {l : Locks Resource} (h : Holds x i u c p)
    (hl : x.locks.Taken l i) : Holds { x with locks := l } i u c p :=
  ⟨hl.kept _ _ h.locked, h.active, h.joins⟩

/-- A value above the last one drawn is above the ids of all rows. -/
theorem Stored.drawn_of_lt (hx : Stored x) {c : String} {n : Nat} (hn : x.lastID < n) :
    Drawn { x with lastID := n } c n where
  pos := by omega
  le := Nat.le_refl n
  new := by
    intro m hm
    have := (hx.drawn m hm).2
    omega
  above := by
    intro m hm _
    have := (hx.drawn m hm).2
    omega

theorem SendMove.ok (h : SendMove r U i x st x' st') (hx : Stored x) (hok : st.Ok r U i x) :
    st'.Ok r U i x' := by
  cases h with
  | refuse _ hstatus => exact hstatus
  | abort _ _ hstatus => exact hstatus
  | rollback status => exact hok
  | authorize hpeer =>
      obtain ⟨hpath, hjoins, _⟩ := Tables.peer_eq_some hpeer
      exact ⟨hpath, hjoins⟩
  | begin t => exact hok
  | lock hl hactive => exact ⟨hok.1, (Locks.acquire_eq_some hl).2, hactive, hok.2⟩
  | nextID hk hn =>
      obtain ⟨hpath, hholds⟩ := hok
      exact ⟨hpath, ⟨hholds.locked, hholds.active, hholds.joins⟩, hk, hx.drawn_of_lt hn⟩
  | insert hl hnone =>
      obtain ⟨hpath, hholds, hclient, hdrawn⟩ := hok
      obtain ⟨htaken, hkey⟩ := Locks.acquire_eq_some hl
      refine ⟨hholds.taken htaken, ⟨hpath, rfl, rfl, hclient⟩, ?_⟩
      exact
        { locked := hkey
          found := fun e => nomatch e
          drawn := fun _ => hdrawn.locks _
          new := fun _ => Tables.find_eq_none hnone }
  | find hl hfind hc =>
      obtain ⟨hpath, hholds, hclient, _⟩ := hok
      obtain ⟨htaken, hlock⟩ := Locks.acquire_eq_some hl
      obtain ⟨hmem, hkey⟩ := Tables.find_eq_some hfind
      obtain ⟨hsender, hclientID⟩ := Prod.mk.inj hkey
      refine ⟨hholds.taken htaken, ⟨hpath, hc, hsender, hclientID ▸ hclient⟩, ?_⟩
      exact
        { locked := hkey ▸ hlock
          found := fun _ => hmem
          drawn := fun e => nomatch e
          new := fun e => nomatch e }
  | noted hnoted =>
      obtain ⟨hholds, hrow, hwritten⟩ := hok
      refine ⟨hholds, hrow, hwritten, ?_⟩
      exact
        { found := fun _ => Tables.notified_eq_true.mp hnoted
          row := fun _ e => nomatch e
          new := fun _ e => nomatch e
          locked := fun _ e => nomatch e }
  | note hl hnew =>
      obtain ⟨hholds, hrow, hwritten⟩ := hok
      obtain ⟨htaken, hlock⟩ := Locks.acquire_eq_some hl
      refine ⟨hholds.taken htaken, hrow, ?_, ?_⟩
      · exact
          { locked := htaken.kept _ _ hwritten.locked
            found := hwritten.found
            drawn := fun e => (hwritten.drawn e).locks _
            new := hwritten.new }
      · refine ⟨(fun e => nomatch e), fun n e => ?_, fun n e => ?_, fun n e => ?_⟩
        · rw [hrow.connection]
          exact (Option.some.inj e).symm
        · rw [← Option.some.inj e]
          exact Tables.notified_eq_false.mp hnew
        · rw [← Option.some.inj e]
          exact hlock
  | @commit c p m fresh note _ hstage =>
      obtain ⟨_, hrow, hwritten, _⟩ := hok
      have hmem : m ∈ (x.tables.insert (if fresh then some m else none) note).messages := by
        cases fresh with
        | true => exact Tables.mem_messages_insert.mpr (Or.inr rfl)
        | false => exact List.mem_append_left _ (hwritten.found rfl)
      rcases hstage with rfl | rfl
      · exact ⟨hmem, c, hrow⟩
      · exact (by decide : 400 ≤ 500)
  | emitPeer => exact hok
  | emitSelf => exact hok

/-- What is committed is a new message with its notice, or nothing. -/
theorem SendStage.Ok.commit_cases {c : String} {p : UserID} {m : Message} {fresh : Bool}
    {note : Option Notification} (hx : Stored x)
    (h : (SendStage.commit c p m fresh note).Ok r U i x) :
    fresh = false ∧ note = none ∨
      fresh = true ∧ note = some ⟨p, m.connectionID, .message m.id, none⟩ := by
  obtain ⟨hholds, hrow, hwritten, hnoted⟩ := h
  cases fresh with
  | false =>
      refine Or.inl ⟨rfl, ?_⟩
      cases hnote : note with
      | none => rfl
      | some n =>
          -- the message is in the table, and so is its notice
          have hjoins : x.tables.db.Joins m.connectionID m.senderID p := by
            rw [hrow.connection, hrow.sender]
            exact hholds.joins
          obtain ⟨n', hn', hkey, _⟩ := hx.notice (hwritten.found rfl) hjoins
          refine absurd ?_ (hnoted.new n hnote n' hn')
          rw [hkey, hnoted.row n hnote]
          rfl
  | true =>
      refine Or.inr ⟨rfl, ?_⟩
      cases hnote : note with
      | some n => rw [hnoted.row n hnote]
      | none =>
          -- a notice of a message that is not in the table
          obtain ⟨n, hn, hkey⟩ := hnoted.found hnote
          obtain ⟨m', hm', hid, _⟩ := hx.about n hn m.id (Prod.mk.inj hkey).2
          exact absurd hid ((hwritten.drawn rfl).new m' hm')

/-- A new message and its notice keep the tables in order. -/
theorem Stored.insert {p : UserID} {m : Message} (hx : Stored x)
    (hdrawn : Drawn x m.connectionID m.id)
    (hkey : ∀ m' ∈ x.tables.messages, m'.key ≠ m.key)
    (hjoins : x.tables.db.Joins m.connectionID m.senderID p)
    (hnew : ∀ n ∈ x.tables.notifications, n.key ≠ (p, .message m.id))
    (htables : x'.tables = x.tables.insert (some m)
      (some ⟨p, m.connectionID, .message m.id, none⟩))
    (hid : x'.lastID = x.lastID) : Stored x' := by
  have hmessages : x'.tables.messages = x.tables.messages ++ [m] := by rw [htables]; rfl
  have hnotes : x'.tables.notifications =
      x.tables.notifications ++ [⟨p, m.connectionID, .message m.id, none⟩] := by rw [htables]; rfl
  constructor
  case once =>
    rw [hmessages]
    exact Tables.nodup_map_concat hx.once hkey
  case idOnce =>
    rw [hmessages]
    exact Tables.nodup_map_concat hx.idOnce hdrawn.new
  case drawn =>
    intro m' hm'
    rw [hid]
    rw [htables] at hm'
    rcases Tables.mem_messages_insert.mp hm' with hm' | rfl
    · exact hx.drawn m' hm'
    · exact ⟨hdrawn.pos, hdrawn.le⟩
  case order =>
    rw [hmessages]
    refine List.pairwise_append.mpr ⟨hx.order, List.pairwise_singleton _ _, ?_⟩
    intro m₁ hm₁ m₂ hm₂ hc
    rw [List.mem_singleton.mp hm₂] at hc ⊢
    exact hdrawn.above m₁ hm₁ hc
  case noticeOnce =>
    rw [hnotes]
    exact Tables.nodup_map_concat hx.noticeOnce hnew
  case noticed =>
    intro m' hm'
    rw [htables] at hm' ⊢
    rcases Tables.mem_messages_insert.mp hm' with hm' | rfl
    · obtain ⟨q, hq, n, hn, hkey', hconn⟩ := hx.noticed m' hm'
      exact ⟨q, hq, n, Tables.mem_notifications_insert.mpr (Or.inl hn), hkey', hconn⟩
    · exact ⟨p, hjoins, _, Tables.mem_notifications_insert.mpr (Or.inr rfl), rfl, rfl⟩
  case about =>
    intro n hn k hk
    rw [htables] at hn ⊢
    rcases Tables.mem_notifications_insert.mp hn with hn | rfl
    · obtain ⟨m', hm', hid', hconn, hjoins'⟩ := hx.about n hn k hk
      exact ⟨m', Tables.mem_messages_insert.mpr (Or.inl hm'), hid', hconn, hjoins'⟩
    · exact ⟨m, Tables.mem_messages_insert.mpr (Or.inr rfl), Reference.message.inj hk, rfl, hjoins⟩

/-- A call of a send leaves the tables alone, or is the commit of a new message. -/
inductive SendEffect (r : SendRequest) (i : Nat) (x x' : Shared) (st : SendStage) : Prop where
  | none (htables : x'.tables = x.tables) (hid : x.lastID ≤ x'.lastID)
      (hlocks : ∀ j k, j ≠ i → x.locks k = some j → x'.locks k = some j)
  | insert (c : String) (p : UserID) (m : Message)
      (hst : st = .commit c p m true (some ⟨p, c, .message m.id, .none⟩))
      (hholds : Holds x i r.user c p) (hc : m.connectionID = c) (hsender : m.senderID = r.user)
      (hwritten : Written x i m true)
      (hnew : ∀ n ∈ x.tables.notifications, n.key ≠ (p, .message m.id))
      (hnotice : x.locks (.notification (p, .message m.id)) = some i)
      (hx' : x' = { x with
        tables := x.tables.insert (some m) (some ⟨p, c, .message m.id, .none⟩)
        locks := x.locks.release i })

theorem release_other {l : Locks Resource} {j : Nat} {k : Resource} (hji : j ≠ i)
    (h : l k = some j) : l.release i k = some j :=
  Locks.release_eq_some.mpr ⟨h, hji⟩

theorem SendMove.effect (h : SendMove r U i x st x' st') (hx : Stored x)
    (hok : st.Ok r U i x) : SendEffect r i x x' st := by
  have htaken : ∀ {l : Locks Resource}, x.locks.Taken l i →
      SendEffect r i x { x with locks := l } st :=
    fun hl => .none rfl (Nat.le_refl _) fun j k _ hk => hl.kept k j hk
  cases h with
  | refuse | authorize | begin | noted | emitPeer | emitSelf =>
      exact .none rfl (Nat.le_refl _) fun _ _ _ hk => hk
  | abort _ hl => exact htaken hl
  | lock hl _ => exact htaken (Locks.acquire_eq_some hl).1
  | nextID _ hn => exact .none rfl (Nat.le_of_lt hn) fun _ _ _ hk => hk
  | insert hl _ => exact htaken (Locks.acquire_eq_some hl).1
  | find hl _ _ => exact htaken (Locks.acquire_eq_some hl).1
  | note hl _ => exact htaken (Locks.acquire_eq_some hl).1
  | rollback => exact .none rfl (Nat.le_refl _) fun _ _ hji hk => release_other hji hk
  | @commit c p m fresh note =>
      rcases hok.commit_cases hx with ⟨rfl, rfl⟩ | ⟨rfl, rfl⟩
      · refine .none ?_ (Nat.le_refl _) fun _ _ hji hk => release_other hji hk
        exact x.tables.insert_none
      · obtain ⟨hholds, hrow, hwritten, hnoted⟩ := hok
        have hc := hrow.connection
        subst hc
        exact .insert _ p m rfl hholds rfl hrow.sender hwritten (hnoted.new _ rfl)
          (hnoted.locked _ rfl) rfl

theorem SendMove.stored (h : SendMove r U i x st x' st') (hx : Stored x)
    (hok : st.Ok r U i x) : Stored x' := by
  cases h.effect hx hok with
  | none htables hid => exact hx.quiet (htables ▸ .refl _) hid
  | insert c p m _ hholds hc hsender hwritten hnew _ hx' =>
      subst hc
      refine hx.insert (hwritten.drawn rfl) (hwritten.new rfl) ?_ hnew
        (by rw [hx']) (by rw [hx'])
      rw [hsender]
      exact hholds.joins

theorem SendMove.spares {j : Nat} (h : SendMove r U i x st x' st') (hx : Stored x)
    (hok : st.Ok r U i x) (hji : j ≠ i) : Spares x x' j := by
  cases h.effect hx hok with
  | none htables hid hlocks => exact .of_tables htables (fun k => hlocks j k hji) hid
  | insert c p m _ hholds hc _ hwritten _ hnotice hx' =>
      subst hx'
      -- what `i` holds `j` does not
      have hother : ∀ {k : Resource}, x.locks k = some i → x.locks k ≠ some j := by
        intro k hk hj
        rw [hk] at hj
        exact hji (Option.some.inj hj).symm
      exact
        { locks := fun k hk => release_other hji hk
          active := fun _ _ ha => ha
          connections := .refl _
          messages := List.prefix_append _ _
          newMessage := by
            intro m' hm'
            rcases Tables.mem_messages_insert.mp hm' with hm' | hm'
            · exact Or.inl hm'
            · rw [hm', hc]
              exact Or.inr ⟨hother hholds.locked, hother hwritten.locked⟩
          kept := fun n hn => ⟨n, List.mem_append_left _ hn, .refl n⟩
          came := by
            intro n' hn'
            rcases Tables.mem_notifications_insert.mp hn' with hn' | hn'
            · exact Or.inl ⟨n', hn', .refl n'⟩
            · rw [hn']
              exact Or.inr (Or.inr (hother hnotice))
          lastID := Nat.le_refl _ }

end

/-! ## All schedules -/

/-- What request `i` knows. -/
def Thread.Ok (U : UUIDText) (x : Shared) (i : Nat) : Thread → Prop
  | .send r st => st.Ok r U i x
  | .receipt _ _ => True
  | .block _ _ st =>
    ∀ t fresh ids, st = .commit t fresh ids → ∀ id ∈ ids, x.locks (.connection id) = some i

def Thread.drawnID : Thread → Option Nat
  | .send _ st => st.drawnID
  | .receipt _ _ | .block _ _ _ => none

/-- The invariant of the machine. -/
structure Chat.Sound (U : UUIDText) (s : Chat) : Prop where
  stored : Stored s.shared
  threads : ∀ i (th : Thread), s.threads[i]? = some th → th.Ok U s.shared i
  /-- Two transactions never have one id. -/
  drawnOnce : ∀ (i j : Nat) (th th' : Thread) (n : Nat), s.threads[i]? = some th →
    s.threads[j]? = some th' → th.drawnID = some n → th'.drawnID = some n → i = j

section
variable {U : UUIDText} {i : Nat} {d : Supply} {fault : Fault} {x x' : Shared} {th th' : Thread}

theorem Thread.Ok.drawnID_le {n : Nat} (h : th.Ok U x i) (hn : th.drawnID = some n) :
    n ≤ x.lastID := by
  cases th with
  | receipt r st => cases hn
  | block u target st => cases hn
  | send r st =>
      cases st with
      | insertMessage c p t k n' =>
          cases hn
          exact h.2.2.2.le
      | insertNotification c p m fresh =>
          cases fresh with
          | true =>
              cases hn
              exact (h.2.2.drawn rfl).le
          | false => cases hn
      | commit c p m fresh note =>
          cases fresh with
          | true =>
              cases hn
              exact (h.2.2.1.drawn rfl).le
          | false => cases hn
      | authorize | begin | lock | nextID | emitPeer | emitSelf | rollback | done => cases hn

theorem Thread.Ok.spares {j : Nat} (h : th.Ok U x j) (hs : Spares x x' j)
    (hnew : ∀ n ∈ th.drawnID, ∀ m ∈ x'.tables.messages, m ∈ x.tables.messages ∨ m.id ≠ n) :
    th.Ok U x' j := by
  cases th with
  | send r st => exact SendStage.Ok.spares h hs hnew
  | receipt r st => trivial
  | block u target st => exact fun t fresh ids hst id hid => hs.locks _ (h t fresh ids hst id hid)

/-- What a call of request `i` guarantees to itself and to the others. -/
structure TurnSound (U : UUIDText) (i : Nat) (x x' : Shared) (th th' : Thread) : Prop where
  stored : Stored x'
  ok : th'.Ok U x' i
  spares : ∀ j, j ≠ i → Spares x x' j
  newID : ∀ m ∈ x'.tables.messages, m ∈ x.tables.messages ∨ th.drawnID = some m.id
  drawn : ∀ n, th'.drawnID = some n → th.drawnID = some n ∨ x.lastID < n

/-- A send keeps the id that it has drawn, until it commits it. -/
theorem SendMove.drawnID {r : SendRequest} {st st' : SendStage} {n : Nat}
    (h : SendMove r U i x st x' st') (hn : st'.drawnID = some n) :
    st.drawnID = some n ∨ x.lastID < n := by
  cases h with
  | refuse | authorize | begin | abort | lock | emitPeer | emitSelf | rollback => cases hn
  | nextID _ hlt =>
      cases hn
      exact Or.inr hlt
  | insert => exact Or.inl hn
  | find => cases hn
  | noted => exact Or.inl hn
  | note => exact Or.inl hn
  | commit hstage =>
      rcases hstage with rfl | rfl
      · cases hn
      · cases hn

theorem SendMove.sound {r : SendRequest} {st st' : SendStage} (h : SendMove r U i x st x' st')
    (hx : Stored x) (hok : st.Ok r U i x) : TurnSound U i x x' (.send r st) (.send r st') where
  stored := h.stored hx hok
  ok := h.ok hx hok
  spares := fun j hji => h.spares hx hok hji
  newID := by
    intro m hm
    cases h.effect hx hok with
    | none htables => exact Or.inl (htables ▸ hm)
    | insert c p m' hst _ _ _ _ _ _ hx' =>
        subst hx' hst
        rcases Tables.mem_messages_insert.mp hm with hm | hm
        · exact Or.inl hm
        · rw [hm]
          exact Or.inr rfl
  drawn := fun _ hn => h.drawnID hn

theorem BlockMove.sound {u target : UserID} {st st' : BlockStage}
    (h : BlockMove u target i x st x' st') (hx : Stored x)
    (hok : (Thread.block u target st).Ok U x i) :
    TurnSound U i x x' (.block u target st) (.block u target st') := by
  -- a call that leaves the tables alone
  have hsame : ∀ {x' : Shared} {st' : BlockStage}, x'.tables = x.tables →
      x'.lastID = x.lastID → (∀ j k, j ≠ i → x.locks k = some j → x'.locks k = some j) →
      (Thread.block u target st').Ok U x' i →
      TurnSound U i x x' (.block u target st) (.block u target st') := by
    intro x' st' htables hid hlocks hok'
    exact
      { stored := hx.quiet (htables ▸ .refl _) (Nat.le_of_eq hid.symm)
        ok := hok'
        spares := fun j hji =>
          .of_tables htables (fun k => hlocks j k hji) (Nat.le_of_eq hid.symm)
        newID := fun m hm => Or.inl (htables ▸ hm)
        drawn := fun n hn => nomatch hn }
  cases h with
  | other _ hl hstage =>
      refine hsame rfl rfl (fun j k _ hk => hl.kept k j hk) ?_
      exact fun t fresh ids hst => absurd hst (hstage t fresh ids)
  | endPair hl =>
      obtain ⟨htaken, hids⟩ := Locks.acquireAll_eq_some hl
      refine hsame rfl rfl (fun j k _ hk => htaken.kept k j hk) ?_
      intro t fresh ids hst id hid
      cases hst
      exact hids _ (List.mem_map_of_mem hid)
  | rollback =>
      exact hsame rfl rfl (fun _ _ hji hk => release_other hji hk) fun _ _ _ hst => nomatch hst
  | @commit t fresh ids ok =>
      have hquiet : x.tables.Quiet { x.tables with
          db := commitBlock x.tables.db u target t fresh ids } :=
        .of_notifications rfl (ConnectionTable.endWhere_extends _ _ t) rfl
      exact
        { stored := hx.quiet hquiet (Nat.le_refl _)
          ok := fun _ _ _ hst => nomatch hst
          spares := by
            intro j hji
            refine .of_quiet hquiet (fun k hk => release_other hji hk) ?_ (Nat.le_refl _)
            intro c hlock hactive
            -- the rows that it ends are locked by `i`
            refine hactive.endWhere rfl fun row _ hid => ?_
            rw [← Bool.not_eq_true, List.contains_iff_mem, hid]
            intro hmem
            rw [hok t fresh ids rfl c hmem] at hlock
            exact hji (Option.some.inj hlock).symm
          newID := fun m hm => Or.inl hm
          drawn := fun n hn => nomatch hn }

theorem Thread.step_sound (h : th.step U i d fault x = some (x', th')) (hx : Stored x)
    (hok : th.Ok U x i) : TurnSound U i x x' th th' := by
  cases th.step_move h with
  | send hcall => exact (SendRequest.step_move hcall).sound hx hok
  | block hcall => exact (blockStep_move hcall).sound hx hok
  | receipt hcall =>
      obtain ⟨hquiet, hdb, hlocks, hid⟩ := (ReceiptRequest.step_move hcall).quiet
      exact
        { stored := hx.quiet hquiet (Nat.le_of_eq hid.symm)
          ok := trivial
          spares := fun j _ => .of_quiet hquiet (fun k hk => hlocks ▸ hk)
            (fun c _ ha => hdb ▸ ha) (Nat.le_of_eq hid.symm)
          newID := fun m hm => Or.inl (hquiet.messages ▸ hm)
          drawn := fun n hn => nomatch hn }

/-- A step spares every request but the one that moved. -/
theorem ChatMove.spares {s s' : Chat} {a : Action} (h : ChatMove U s a s') (hs : s.Sound U)
    {j : Nat} (hj : ∀ d fault, a ≠ .turn j d fault) : Spares s.shared s'.shared j := by
  cases h with
  | spawn q => exact .of_tables rfl (fun _ hk => hk) (Nat.le_refl _)
  | @turn i d fault th th' x hi hstep =>
      refine (th.step_sound hstep hs.stored (hs.threads i th hi)).spares j ?_
      rintro rfl
      exact hj d fault rfl
  | statement hwaits => exact spares_exec hwaits

end

/-- A step brings no message, or commits one with its notice on a connection that
    is active. -/
inductive Brings (x x' : Shared) : Prop where
  | quiet (h : x.tables.Quiet x'.tables)
  | message (c : String) (p : UserID) (m : Message) (hc : m.connectionID = c)
      (hactive : x.tables.db.Active c)
      (htables : x'.tables = x.tables.insert (some m) (some ⟨p, c, .message m.id, none⟩))

theorem ChatMove.brings {U : UUIDText} {s s' : Chat} {a : Action} (h : ChatMove U s a s')
    (hs : s.Sound U) : Brings s.shared s'.shared := by
  cases h with
  | spawn q => exact .quiet (.refl _)
  | statement => exact .quiet (Tables.quiet_exec _ _)
  | @turn i d fault th th' x hi hstep =>
      have hok := hs.threads i th hi
      cases th.step_move hstep with
      | send hcall =>
          cases (SendRequest.step_move hcall).effect hs.stored hok with
          | none htables => exact .quiet (htables ▸ .refl _)
          | insert c p m _ hholds hc _ _ _ _ hx' =>
              subst hx'
              exact .message c p m hc hholds.active rfl
      | receipt hcall => exact .quiet (ReceiptRequest.step_move hcall).quiet.1
      | block hcall =>
          cases blockStep_move hcall with
          | other | endPair | rollback => exact .quiet (.refl _)
          | commit =>
              exact .quiet (.of_notifications rfl (ConnectionTable.endWhere_extends _ _ _) rfl)

theorem Request.start_ok (U : UUIDText) (q : Request) (x : Shared) (i : Nat) :
    q.start.Ok U x i := by
  cases q with
  | send r => trivial
  | receipt r => trivial
  | block u target => exact fun _ _ _ hst => nomatch hst

theorem Request.start_drawnID (q : Request) : q.start.drawnID = none := by
  cases q <;> rfl

theorem sound_init (U : UUIDText) (db : Database) : (Chat.init db).Sound U where
  stored := stored_init db
  threads := fun _ _ h => nomatch h
  drawnOnce := fun _ _ _ _ _ h => nomatch h

theorem sound_step {U : UUIDText} {db : Database} {s s' : Chat} {a : Action} (h : s.Sound U)
    (hstep : (chatMachine U db).step s a = some s') : s'.Sound U := by
  have hmove := chatStep_move hstep
  cases hmove with
  | spawn q =>
      constructor
      case stored => exact h.stored
      case threads =>
        intro i th hi
        rcases getElem?_concat_eq_some hi with hi | ⟨_, rfl⟩
        · exact h.threads i th hi
        · exact q.start_ok U _ i
      case drawnOnce =>
        intro i j th th' n hi hj hn hn'
        rcases getElem?_concat_eq_some hi with hi | ⟨_, rfl⟩
        · rcases getElem?_concat_eq_some hj with hj | ⟨_, rfl⟩
          · exact h.drawnOnce i j th th' n hi hj hn hn'
          · rw [q.start_drawnID] at hn'
            cases hn'
        · rw [q.start_drawnID] at hn
          cases hn
  | @turn i d fault th th' x hi hthread =>
      have hturn := th.step_sound hthread h.stored (h.threads i th hi)
      -- an id of another request is not one that this request has, or draws
      have hother : ∀ j th₂ n, i ≠ j → s.threads[j]? = some th₂ → th'.drawnID = some n →
          th₂.drawnID ≠ some n := by
        intro j th₂ n hij hj hn hn₂
        rcases hturn.drawn n hn with hn | hlt
        · exact hij (h.drawnOnce i j th th₂ n hi hj hn hn₂)
        · have hle := (h.threads j th₂ hj).drawnID_le hn₂
          omega
      constructor
      case stored => exact hturn.stored
      case threads =>
        intro j th₂ hj
        rcases getElem?_set_eq_some hj with ⟨rfl, rfl⟩ | ⟨hij, hj⟩
        · exact hturn.ok
        · refine (h.threads j th₂ hj).spares (hturn.spares j (Ne.symm hij)) ?_
          intro n hn m hm
          refine (hturn.newID m hm).imp_right fun hid => ?_
          rintro rfl
          exact hij (h.drawnOnce i j th th₂ m.id hi hj hid hn)
      case drawnOnce =>
        intro j k th₁ th₂ n hj hk hn hn'
        rcases getElem?_set_eq_some hj with ⟨rfl, rfl⟩ | ⟨hij, hj'⟩
        · rcases getElem?_set_eq_some hk with ⟨rfl, rfl⟩ | ⟨hik, hk⟩
          · rfl
          · exact absurd hn' (hother k th₂ n hik hk hn)
        · rcases getElem?_set_eq_some hk with ⟨rfl, rfl⟩ | ⟨hik, hk'⟩
          · exact absurd hn (hother j th₁ n hij hj' hn')
          · exact h.drawnOnce j k th₁ th₂ n hj' hk' hn hn'
  | @statement q now hwaits =>
      constructor
      case stored => exact h.stored.quiet (Tables.quiet_exec now q) (Nat.le_refl _)
      case threads =>
        intro i th hi
        refine (h.threads i th hi).spares (spares_exec hwaits) fun n _ m hm => Or.inl ?_
        exact (Tables.quiet_exec now q).messages ▸ hm
      case drawnOnce => exact h.drawnOnce

theorem sound_run {U : UUIDText} {db : Database} {as : List Action} {s : Chat}
    (hrun : (chatMachine U db).run as = some s) : s.Sound U :=
  Machine.run_invariant (sound_init U db) (fun _ _ _ h hstep => sound_step h hstep) hrun

theorem sound_runFrom {U : UUIDText} {db : Database} {as : List Action} {s t : Chat}
    (hrun : (chatMachine U db).runFrom s as = some t) (h : s.Sound U) : t.Sound U :=
  Machine.runFrom_invariant (fun _ _ _ h hstep => sound_step h hstep) hrun h

end OneMinute.Communication
