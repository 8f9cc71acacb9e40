/-
  OneMinute.Communication.ReceiptEvents

  The receipt events beside the stored cursors, when the requests of a reader on
  a connection are processed one after another.

  The upsert stores the larger of the old and the new in each cursor; the event
  is built from the request.  From the upsert to the event nobody else writes the
  row (`OneByOne`), so the event shows the row exactly if the request's two values
  covered it (`CoversRow`): no late id, and no report of delivery alone once
  something was read.  Everything else may be going on at the same time.
-/

import OneMinute.Communication.Receipts

namespace OneMinute.Communication

open Discovery (UserID UnixMilli)

/-! ## The values of a request and the row -/

/-- A request that advances a cursor of `x` has no late id, and leaves the read
    cursor out only while that is 0. -/
def Receipt.CoveredBy (x : Receipt) (delivered read : Nat) : Prop :=
  x.deliveredID < delivered ∨ x.readID < read →
    x.deliveredID ≤ delivered ∧ (read = 0 → x.readID = 0)

instance (x : Receipt) (delivered read : Nat) : Decidable (x.CoveredBy delivered read) :=
  inferInstanceAs (Decidable (_ → _))

/-- Only then the row is what the request says. -/
theorem Receipt.join_eq_iff {x : Receipt} {delivered read : Nat} (horder : x.readID ≤ x.deliveredID)
    (hread : read = 0 ∨ read = delivered) :
    x.join delivered read = ⟨delivered, read⟩ ↔
      x.deliveredID ≤ delivered ∧ (read = 0 → x.readID = 0) := by
  rw [join, Receipt.mk.injEq]
  rcases hread with rfl | rfl <;> omega

/-! ## Requests of one reader on one connection -/

/-- The request has begun and is not answered. -/
def ReceiptStage.underway : ReceiptStage → Bool
  | .authorize | .done _ => false
  | .check _ _ | .settings _ _ | .upsert _ _ _ | .markRead _ _ _ _ | .emit _ _ => true

/-- The read cursor of the event that the request is going to emit. -/
def ReceiptStage.holds : ReceiptStage → Option Nat
  | .markRead _ _ read changed => if changed then some read else none
  | .emit _ read => some read
  | .authorize | .check _ _ | .settings _ _ | .upsert _ _ _ | .done _ => none

/-- A receipt of `u` on the connection `c`. -/
def ReceiptRequest.On (r : ReceiptRequest) (U : UUIDText) (c : String) (u : UserID) : Prop :=
  r.user = u ∧ U.cast r.id = some c

instance (r : ReceiptRequest) (U : UUIDText) (c : String) (u : UserID) : Decidable (r.On U c u) :=
  inferInstanceAs (Decidable (_ ∧ _))

/-- Such a request is under way. -/
def Thread.reports (U : UUIDText) (c : String) (u : UserID) : Thread → Bool
  | .receipt r st => st.underway && decide (r.On U c u)
  | .send _ _ | .block _ _ _ => false

def Reports (U : UUIDText) (c : String) (u : UserID) (s : Chat) (i : Nat) : Prop :=
  s.threads[i]?.any (Thread.reports U c u) = true

instance (U : UUIDText) (c : String) (u : UserID) (s : Chat) (i : Nat) :
    Decidable (Reports U c u s i) :=
  inferInstanceAs (Decidable (_ = true))

/-- The receipts of `u` on `c` are processed one after another. -/
def OneByOne (U : UUIDText) (c : String) (u : UserID) (s : Chat) (_ : Action) : Prop :=
  ∀ i < s.threads.length, ∀ j < s.threads.length,
    Reports U c u s i → Reports U c u s j → i = j

instance (U : UUIDText) (c : String) (u : UserID) (s : Chat) (a : Action) :
    Decidable (OneByOne U c u s a) :=
  inferInstanceAs (Decidable (∀ i < s.threads.length, ∀ j < s.threads.length, _))

/-- The receipt that the next call stores, with its read cursor. -/
def Thread.stores : Thread → Option (ReceiptRequest × Nat)
  | .receipt r (.upsert _ _ read) => some (r, read)
  | .receipt _ _ | .send _ _ | .block _ _ _ => none

/-- A receipt of `u` on `c` that is stored covers the row. -/
def CoversRow (U : UUIDText) (c : String) (u : UserID) (s : Chat) : Action → Prop
  | .turn i _ .ok =>
    ∀ x ∈ s.threads[i]?.bind Thread.stores,
      x.1.On U c u → (s.shared.tables.cursor c u).CoveredBy x.1.delivered x.2
  | .turn _ _ .failed | .turn _ _ .lost | .spawn _ | .statement _ _ => True

instance (U : UUIDText) (c : String) (u : UserID) (s : Chat) :
    (a : Action) → Decidable (CoversRow U c u s a)
  | .turn i _ .ok =>
    inferInstanceAs (Decidable (∀ x ∈ s.threads[i]?.bind Thread.stores, _))
  | .turn _ _ .failed | .turn _ _ .lost | .spawn _ | .statement _ _ => isTrue trivial

/-! ## What the peer hears, and what the peer reads -/

/-- The cursors of an event to `p` about the connection `c`. -/
def cursorsTold (U : UUIDText) (p : UserID) (c : String) : UserID × Event → Option Receipt
  | (q, .receipt id delivered read) =>
    if q = p ∧ U.cast id = some c then some ⟨delivered, read⟩ else none
  | (_, .messageCreated _ _) => none

/-- The cursors in the events to `p` about `c`, the last first. -/
def Chat.told (U : UUIDText) (p : UserID) (c : String) (s : Chat) : List Receipt :=
  s.shared.emitted.filterMap (cursorsTold U p c)

/-- What a peer who follows the events shows. -/
def Chat.shown (U : UUIDText) (p : UserID) (c : String) (s : Chat) : Receipt :=
  (s.told U p c).head?.getD ⟨0, 0⟩

/-- The cursors in the reply of GET messages: those of the other participant,
    and 0 when Scan finds no row. -/
def Tables.cursorsRead (t : Tables) (U : UUIDText) (p : UserID) (id : String) : Option Receipt :=
  (t.peer U p id).map fun (c, u) => t.cursor c u

/-- Every event that a receipt of `u` on `c` emits shows the row as it then is. -/
def EventsAgree (U : UUIDText) (db : Database) (c : String) (u : UserID)
    (as : List Action) : Prop :=
  ∀ v i d fault v' r st p id delivered read,
    (chatMachine U db).Taken as v (.turn i d fault) v' →
    v.threads[i]? = some (.receipt r st) → r.On U c u →
    v'.shared.emitted = (p, .receipt id delivered read) :: v.shared.emitted →
    v'.shared.tables.cursor c u = ⟨delivered, read⟩

/-! ## One call -/

section
variable {r : ReceiptRequest} {U : UUIDText} {d : Supply} {fault : Fault} {x x' : Shared}
  {st st' : ReceiptStage} {read : Nat}

theorem holds_finish {p : UserID} {changed : Bool} :
    (ReceiptRequest.finish p read changed).holds = if changed then some read else none := by
  cases changed <;> rfl

/-- Where the event that a request holds comes from. -/
theorem ReceiptMove.holds_origin (h : ReceiptMove r U d fault x st x' st')
    (hst' : st'.holds = some read) :
    st.holds = some read ∧ x'.tables.receipts = x.tables.receipts ∨
      ∃ c p, st = .upsert c p read ∧ (x.tables.upsertReceipt c r.user r.delivered read).1 = true ∧
        x'.tables = (x.tables.upsertReceipt c r.user r.delivered read).2 := by
  cases h with
  | unauthorized | authorize | unknown | checkRead | checkDelivered | enabled | disabled
  | failed | emit => cases hst'
  | @upsertRead c p read' =>
      obtain ⟨hchanged, hread⟩ := Option.ite_none_right_eq_some.mp hst'
      cases hread
      exact Or.inr ⟨c, p, rfl, hchanged, rfl⟩
  | @upsertDelivered c p read' =>
      rw [holds_finish] at hst'
      obtain ⟨hchanged, hread⟩ := Option.ite_none_right_eq_some.mp hst'
      cases hread
      exact Or.inr ⟨c, p, rfl, hchanged, rfl⟩
  | markRead hx' =>
      rw [holds_finish] at hst'
      refine Or.inl ⟨hst', ?_⟩
      rcases hx' with rfl | rfl <;> rfl

/-- It goes on to be held until it is emitted. -/
theorem ReceiptMove.holds_kept (h : ReceiptMove r U d fault x st x' st')
    (hst : st.holds = some read) :
    st'.holds = some read ∧ x'.tables.receipts = x.tables.receipts ∧ x'.emitted = x.emitted ∨
      ∃ p, st = .emit p read ∧
        x' = { x with emitted := (p, .receipt r.id r.delivered read) :: x.emitted } := by
  cases h with
  | unauthorized | authorize | unknown | checkRead | checkDelivered | enabled | disabled
  | failed | upsertRead | upsertDelivered => cases hst
  | markRead hx' =>
      refine Or.inl ⟨by rw [holds_finish]; exact hst, ?_⟩
      rcases hx' with rfl | rfl <;> exact ⟨rfl, rfl⟩
  | @emit p read' =>
      cases hst
      exact Or.inr ⟨p, rfl, rfl⟩

/-- Only the last call emits. -/
theorem ReceiptMove.emitted_cases (h : ReceiptMove r U d fault x st x' st') :
    x'.emitted = x.emitted ∨ ∃ p read, st = .emit p read ∧
      x' = { x with emitted := (p, .receipt r.id r.delivered read) :: x.emitted } := by
  cases h with
  | unauthorized | authorize | unknown | checkRead | checkDelivered | enabled | disabled
  | upsertRead | upsertDelivered => exact Or.inl rfl
  | failed _ hx' => exact Or.inl (by rcases hx' with rfl | rfl <;> rfl)
  | markRead hx' => exact Or.inl (by rcases hx' with rfl | rfl <;> rfl)
  | @emit p read => exact Or.inr ⟨p, read, rfl, rfl⟩

/-- An upsert that goes through and changes the row leads to an event. -/
theorem step_upsert_ok {c : String} {p : UserID}
    (h : r.step U d .ok x (.upsert c p read) = some (x', st')) :
    st'.holds =
      if (x.tables.upsertReceipt c r.user r.delivered read).1 then some read else none := by
  obtain ⟨-, hst'⟩ := Prod.mk.inj (Option.some.inj h)
  rw [← hst']
  show (if r.read then _ else _ : ReceiptStage).holds = _
  split
  · rfl
  · exact holds_finish

/-- One that does not go through leads to none. -/
theorem step_upsert_fault {c : String} {p : UserID} (hfault : fault ≠ .ok)
    (h : r.step U d fault x (.upsert c p read) = some (x', st')) : st' = .done 500 := by
  rw [ReceiptRequest.step] at h
  split at h
  · cases h
    rfl
  · obtain ⟨-, hst'⟩ := Prod.mk.inj (Option.some.inj h)
    exact hst'.symm

/-- What a request knows of its peer, from the authorization to the event. -/
def ReceiptStage.Knows (r : ReceiptRequest) (U : UUIDText) (t : Tables) : ReceiptStage → Prop
  | .check c p | .settings c p | .upsert c p _ | .markRead c p _ _ =>
    U.cast r.id = some c ∧ t.db.Joins c r.user p
  | .emit p _ => ∃ c, U.cast r.id = some c ∧ t.db.Joins c r.user p
  | .authorize | .done _ => True

theorem ReceiptStage.Knows.grows {t t' : Tables} (h : st.Knows r U t) (hg : t.Grows t') :
    st.Knows r U t' := by
  cases st with
  | check c p | settings c p | upsert c p read | markRead c p read changed =>
      exact ⟨h.1, h.2.extends hg.connections⟩
  | emit p read =>
      obtain ⟨c, hpath, hjoins⟩ := h
      exact ⟨c, hpath, hjoins.extends hg.connections⟩
  | authorize | done => trivial

theorem ReceiptMove.knows (h : ReceiptMove r U d fault x st x' st') (hst : st.Knows r U x.tables) :
    st'.Knows r U x.tables := by
  have hfinish : ∀ {c : String} {p : UserID} {read : Nat} {changed : Bool},
      U.cast r.id = some c ∧ x.tables.db.Joins c r.user p →
      (ReceiptRequest.finish p read changed).Knows r U x.tables := by
    rintro c p read (_ | _) h
    · trivial
    · exact ⟨c, h⟩
  cases h with
  | unauthorized | unknown | failed | emit => trivial
  | authorize hpeer =>
      obtain ⟨hpath, hjoins, -⟩ := Tables.peer_eq_some hpeer
      exact ⟨hpath, hjoins⟩
  | checkRead | checkDelivered | enabled | disabled | upsertRead => exact hst
  | upsertDelivered => exact hfinish hst
  | markRead => exact hfinish hst

end

/-! ## One step -/

/-- Request `i`, a receipt of `u` on `c`, holds an event with the read cursor
    `read`. -/
def Pending (U : UUIDText) (c : String) (u : UserID) (s : Chat) (i : Nat) (r : ReceiptRequest)
    (read : Nat) : Prop :=
  r.On U c u ∧ ∃ st, s.threads[i]? = some (.receipt r st) ∧ st.holds = some read

section
variable {U : UUIDText} {db : Database} {s s' t : Chat} {a : Action} {as bs : List Action}
  {c : String} {u p : UserID} {i j : Nat} {r : ReceiptRequest} {st : ReceiptStage} {read : Nat}

theorem reports_of_underway (hi : s.threads[i]? = some (.receipt r st))
    (hst : st.underway = true) (hon : r.On U c u) : Reports U c u s i := by
  rw [Reports, hi, Option.any_some, Thread.reports, hst, Bool.true_and, decide_eq_true_eq]
  exact hon

theorem Reports.lt (h : Reports U c u s i) : i < s.threads.length := by
  by_contra hle
  rw [Reports, List.getElem?_eq_none (Nat.le_of_not_lt hle)] at h
  cases h

theorem Pending.reports (h : Pending U c u s i r read) : Reports U c u s i := by
  obtain ⟨hon, st, hi, hst⟩ := h
  refine reports_of_underway hi ?_ hon
  cases st with
  | markRead | emit => rfl
  | authorize | check | settings | upsert | done => cases hst

/-- A receipt request stays, or makes its next call. -/
theorem ChatMove.receipt_thread (hmove : ChatMove U s a s')
    (hi : s.threads[i]? = some (.receipt r st)) :
    s'.threads[i]? = some (.receipt r st) ∧ (∀ d fault, a ≠ .turn i d fault) ∨
      ∃ d fault st', a = .turn i d fault ∧ ReceiptMove r U d fault s.shared st s'.shared st' ∧
        r.step U d fault s.shared st = some (s'.shared, st') ∧
        s'.threads[i]? = some (.receipt r st') := by
  rcases hmove.thread hi with hstay | ⟨d, fault, th', ha, hstep, hi'⟩
  · exact Or.inl hstay
  · obtain ⟨⟨x', st'⟩, hcall, he⟩ := Option.map_eq_some_iff.mp (show Option.map _ _ = _ from hstep)
    obtain ⟨rfl, rfl⟩ := Prod.mk.inj he
    exact Or.inr ⟨d, fault, st', ha, ReceiptRequest.step_move hcall, hcall, hi'⟩

/-- While one request of the reader is under way, only its own calls write the
    row. -/
theorem cursor_kept (hs : s.Receipted U) (hmove : ChatMove U s a s') (hone : OneByOne U c u s a)
    (hi : Reports U c u s i) (ha : ∀ d fault, a ≠ .turn i d fault) :
    s'.shared.tables.cursor c u = s.shared.tables.cursor c u := by
  rcases hs.cursor_step hmove with hsame | ⟨j, d, fault, r, c', p, read, rfl, hj, hok, hcursor⟩
  · exact hsame c u
  · rw [hcursor, if_neg]
    rintro ⟨rfl, rfl⟩
    have hj' : Reports U c r.user s j := reports_of_underway hj rfl ⟨rfl, hok.1⟩
    obtain rfl := hone i hi.lt j hj'.lt hi hj'
    exact ha d fault rfl

/-- Where a pending event comes from: it was pending with the same row, or the
    upsert of its request has just changed the row. -/
theorem pending_origin (hs : s.Receipted U) (hmove : ChatMove U s a s')
    (hone : OneByOne U c u s a) (h : Pending U c u s' i r read) :
    Pending U c u s i r read ∧
        s'.shared.tables.cursor c u = s.shared.tables.cursor c u ∨
      ∃ d p, a = .turn i d .ok ∧ s.threads[i]? = some (.receipt r (.upsert c p read)) ∧
        (s.shared.tables.cursor c u).Advances
          ((s.shared.tables.cursor c u).join r.delivered read) ∧
        s'.shared.tables.cursor c u = (s.shared.tables.cursor c u).join r.delivered read := by
  obtain ⟨hon, st', hi', hst'⟩ := h
  rcases hmove.receipt_origin hi' with ⟨hi, ha⟩ | ⟨-, rfl, -⟩ | ⟨d, fault, st, rfl, hi, hcall⟩
  · have hpending : Pending U c u s i r read := ⟨hon, st', hi, hst'⟩
    exact Or.inl ⟨hpending, cursor_kept hs hmove hone hpending.reports ha⟩
  · cases hst'
  · rcases (ReceiptRequest.step_move hcall).holds_origin hst' with ⟨hst, hreceipts⟩ |
      ⟨c', p, rfl, hchanged, htables⟩
    · exact Or.inl ⟨⟨hon, st, hi, hst⟩, Tables.cursor_congr hreceipts c u⟩
    · obtain ⟨rfl, hpath⟩ := hon
      obtain ⟨hpath', hpos, -⟩ := hs.threads i r _ hi
      obtain rfl : c' = c := Option.some.inj (hpath'.symm.trans hpath)
      have hfault : fault = .ok := by
        by_contra hne
        rw [step_upsert_fault hne hcall] at hst'
        cases hst'
      refine Or.inr ⟨d, p, by rw [hfault], hi, (Tables.changed_upsertReceipt hpos).mp hchanged, ?_⟩
      rw [htables, Tables.cursor_upsertReceipt, if_pos ⟨rfl, rfl⟩]

/-- What becomes of a pending event: it stays so with the same row and events, or
    is emitted. -/
theorem pending_kept (hs : s.Receipted U) (hmove : ChatMove U s a s')
    (hone : OneByOne U c u s a) (h : Pending U c u s i r read) :
    Pending U c u s' i r read ∧
        s'.shared.tables.cursor c u = s.shared.tables.cursor c u ∨
      ∃ d fault p, a = .turn i d fault ∧ s.threads[i]? = some (.receipt r (.emit p read)) ∧
        s'.shared = { s.shared with
          emitted := (p, .receipt r.id r.delivered read) :: s.shared.emitted } := by
  have hreports := h.reports
  obtain ⟨hon, st, hi, hst⟩ := h
  rcases hmove.receipt_thread hi with ⟨hi', ha⟩ | ⟨d, fault, st', rfl, hcall, -, hi'⟩
  · exact Or.inl ⟨⟨hon, st, hi', hst⟩, cursor_kept hs hmove hone hreports ha⟩
  · rcases hcall.holds_kept hst with ⟨hst', hreceipts, -⟩ | ⟨p, rfl, hx'⟩
    · exact Or.inl ⟨⟨hon, st', hi', hst'⟩, Tables.cursor_congr hreceipts c u⟩
    · exact Or.inr ⟨d, fault, p, rfl, hi, hx'⟩

/-- Only the last call of a receipt on `c` tells the peer new cursors. -/
theorem ChatMove.told_cases (hmove : ChatMove U s a s') :
    s'.told U p c = s.told U p c ∨
      ∃ i d fault r read, a = .turn i d fault ∧
        s.threads[i]? = some (.receipt r (.emit p read)) ∧ U.cast r.id = some c ∧
        s'.shared = { s.shared with
          emitted := (p, .receipt r.id r.delivered read) :: s.shared.emitted } := by
  -- an event of another kind, or to another, does not count
  have hskip : ∀ e, cursorsTold U p c e = none → s'.shared.emitted = e :: s.shared.emitted →
      s'.told U p c = s.told U p c := by
    intro e he hemitted
    rw [Chat.told, hemitted, List.filterMap_cons_none he, Chat.told]
  have hsame : s'.shared.emitted = s.shared.emitted → s'.told U p c = s.told U p c := by
    intro hemitted
    rw [Chat.told, hemitted, Chat.told]
  cases hmove with
  | spawn q => exact Or.inl rfl
  | statement => exact Or.inl rfl
  | @turn i d fault th th' x hi hstep =>
      cases th.step_move hstep with
      | send hcall =>
          refine Or.inl ?_
          cases SendRequest.step_move hcall with
          | refuse | authorize | begin | abort | lock | nextID | insert | find | noted | note
          | commit | rollback => exact hsame rfl
          | emitPeer => exact hskip _ rfl rfl
          | emitSelf => exact hskip _ rfl rfl
      | block hcall =>
          refine Or.inl ?_
          cases blockStep_move hcall with
          | other | endPair | commit | rollback => exact hsame rfl
      | @receipt r st st' hcall =>
          rcases (ReceiptRequest.step_move hcall).emitted_cases with hemitted |
            ⟨q, read, rfl, rfl⟩
          · exact Or.inl (hsame hemitted)
          · by_cases hto : q = p ∧ U.cast r.id = some c
            · obtain ⟨rfl, hpath⟩ := hto
              exact Or.inr ⟨i, d, fault, r, read, rfl, hi, hpath, rfl⟩
            · exact Or.inl (hskip (q, .receipt r.id r.delivered read) (if_neg hto) rfl)

theorem told_cons (hpath : U.cast r.id = some c)
    (hshared : s'.shared = { s.shared with
      emitted := (p, .receipt r.id r.delivered read) :: s.shared.emitted }) :
    s'.told U p c = ⟨r.delivered, read⟩ :: s.told U p c := by
  rw [Chat.told, hshared]
  exact List.filterMap_cons_some (if_pos ⟨rfl, hpath⟩)

/-! ## Events and rows -/

/-- The upsert of a receipt of `u` on `c` that advances a cursor leaves the row at
    its own values exactly if these cover the row. -/
theorem join_eq_iff_coversRow {d : Supply} (hs : s.Receipted U)
    (hi : s.threads[i]? = some (.receipt r (.upsert c p read))) (hu : r.user = u)
    (hadvances : (s.shared.tables.cursor c u).Advances
      ((s.shared.tables.cursor c u).join r.delivered read)) :
    (s.shared.tables.cursor c u).join r.delivered read = ⟨r.delivered, read⟩ ↔
      CoversRow U c u s (.turn i d .ok) := by
  obtain ⟨hpath, -, -, hread⟩ := hs.threads i r _ hi
  rw [Receipt.join_eq_iff (hs.order c u) (hread.imp_right And.left)]
  rw [Receipt.advances_join] at hadvances
  have hstores : s.threads[i]?.bind Thread.stores = some (r, read) := by rw [hi]; rfl
  constructor
  · intro h x hx _ _
    rw [hstores] at hx
    cases hx
    exact h
  · exact fun h => h (r, read) hstores ⟨hu, hpath⟩ hadvances

/-- Each pending event shows the row. -/
structure Matching (U : UUIDText) (c : String) (u : UserID) (s : Chat) : Prop where
  receipted : s.Receipted U
  pending : ∀ i r read, Pending U c u s i r read →
    s.shared.tables.cursor c u = ⟨r.delivered, read⟩

theorem matching_step (hs : Matching U c u s) (hone : OneByOne U c u s a)
    (hcovers : CoversRow U c u s a) (hstep : (chatMachine U db).step s a = some s') :
    Matching U c u s' := by
  refine ⟨receipted_step hs.receipted hstep, fun i r read hpending => ?_⟩
  rcases pending_origin hs.receipted (chatStep_move hstep) hone hpending with ⟨hold, hrow⟩ |
    ⟨d, p, rfl, hi, hadvances, hrow⟩
  · rw [hrow]
    exact hs.pending i r read hold
  · rw [hrow]
    exact (join_eq_iff_coversRow hs.receipted hi hpending.1.1 hadvances).mpr hcovers

theorem matching_of_run (hrun : (chatMachine U db).run as = some s)
    (hone : (chatMachine U db).Along (OneByOne U c u) (.init db) as)
    (hcovers : (chatMachine U db).Along (CoversRow U c u) (.init db) as) : Matching U c u s := by
  refine Machine.runFrom_invariant_along (M := chatMachine U db)
    (fun v a v' hv hC hstep => matching_step hv hC.1 hC.2 hstep) hrun (hone.and hcovers) ?_
  refine ⟨receipted_init U db, fun i r read h => ?_⟩
  obtain ⟨-, st, hi, -⟩ := h
  cases hi

/-- If all receipts cover the row, each event shows it. -/
theorem eventsAgree_of_covers (hone : (chatMachine U db).Along (OneByOne U c u) (.init db) as)
    (hcovers : (chatMachine U db).Along (CoversRow U c u) (.init db) as) :
    EventsAgree U db c u as := by
  rintro v i d fault v' r st p id delivered read ⟨pre, post, rfl, hpre, hstep⟩ hi hon hemitted
  have hv := matching_of_run hpre hone.of_append hcovers.of_append
  rcases (chatStep_move hstep).receipt_thread hi with ⟨-, ha⟩ | ⟨_, _, _, ha, hcall, -, -⟩
  · exact absurd rfl (ha d fault)
  · cases ha
    rcases hcall.emitted_cases with hsame | ⟨q, read', rfl, hx'⟩
    · rw [hsame] at hemitted
      exact absurd hemitted.symm (List.cons_ne_self _ _)
    · rw [hx'] at hemitted ⊢
      cases hemitted
      exact hv.pending i r read ⟨hon, _, hi, rfl⟩

theorem Thread.stores_eq_some {th : Thread} (h : th.stores = some (r, read)) :
    ∃ c p, th = .receipt r (.upsert c p read) := by
  unfold stores at h
  split at h
  · next c p read' =>
      cases h
      exact ⟨c, p, rfl⟩
  · cases h
  · cases h
  · cases h

/-- A step that does not cover the row is an upsert on it that advances a cursor. -/
theorem upsert_of_not_covers (hC : ¬ CoversRow U c u s a) :
    ∃ i d r c' p read, a = .turn i d .ok ∧
      s.threads[i]? = some (.receipt r (.upsert c' p read)) ∧ r.On U c u ∧
      ((s.shared.tables.cursor c u).deliveredID < r.delivered ∨
        (s.shared.tables.cursor c u).readID < read) := by
  cases a with
  | spawn q => exact absurd trivial hC
  | statement q now => exact absurd trivial hC
  | turn i d fault =>
      cases fault with
      | failed => exact absurd trivial hC
      | lost => exact absurd trivial hC
      | ok =>
          simp only [CoversRow, Classical.not_forall] at hC
          obtain ⟨⟨r, read⟩, hx, hon, hnot⟩ := hC
          obtain ⟨th, hi, hstores⟩ := Option.bind_eq_some_iff.mp hx
          obtain ⟨c', p, rfl⟩ := Thread.stores_eq_some hstores
          rw [Receipt.CoveredBy, Classical.not_imp] at hnot
          exact ⟨i, d, r, c', p, read, rfl, hi, hon, hnot.1⟩

/-- An upsert that goes through and advances a cursor leaves an event to emit. -/
theorem pending_of_upsert {d : Supply} {c' : String} (hs : s.Receipted U)
    (hmove : ChatMove U s (.turn i d .ok) s')
    (hi : s.threads[i]? = some (.receipt r (.upsert c' p read))) (hon : r.On U c u)
    (hadvances : (s.shared.tables.cursor c u).Advances
      ((s.shared.tables.cursor c u).join r.delivered read)) :
    Pending U c u s' i r read ∧
      s'.shared.tables.cursor c u = (s.shared.tables.cursor c u).join r.delivered read := by
  obtain ⟨rfl, hpath⟩ := hon
  obtain ⟨hpath', hpos, -⟩ := hs.threads i r _ hi
  obtain rfl : c' = c := Option.some.inj (hpath'.symm.trans hpath)
  rcases hmove.receipt_thread hi with ⟨-, ha⟩ | ⟨_, _, st', ha, hcall, hstep, hi'⟩
  · exact absurd rfl (ha d .ok)
  · cases ha
    have hholds : st'.holds = some read := by
      rw [step_upsert_ok hstep, if_pos ((Tables.changed_upsertReceipt hpos).mpr hadvances)]
    refine ⟨⟨⟨rfl, hpath⟩, st', hi', hholds⟩, ?_⟩
    rcases hcall.holds_origin hholds with ⟨hst, -⟩ | ⟨c'', p', he, -, htables⟩
    · cases hst
    · cases he
      rw [htables, Tables.cursor_upsertReceipt, if_pos ⟨rfl, rfl⟩]

/-- Its request then holds an event that does not show the row. -/
theorem pending_of_not_covers (hs : s.Receipted U) (hmove : ChatMove U s a s')
    (hC : ¬ CoversRow U c u s a) :
    ∃ i r read, Pending U c u s' i r read ∧
      s'.shared.tables.cursor c u ≠ ⟨r.delivered, read⟩ := by
  obtain ⟨i, d, r, c', p, read, rfl, hi, hon, hless⟩ := upsert_of_not_covers hC
  obtain rfl : c' = c := Option.some.inj ((hs.threads i r _ hi).1.symm.trans hon.2)
  have hadvances := Receipt.advances_join.mpr hless
  obtain ⟨hpending, hrow⟩ := pending_of_upsert hs hmove hi hon hadvances
  refine ⟨i, r, read, hpending, fun hsame => hC ?_⟩
  rw [hrow] at hsame
  exact (join_eq_iff_coversRow hs hi hon.1 hadvances).mp hsame

/-- Once the receipts are answered, an upsert that did not cover the row has led
    to an event that does not show it. -/
theorem covers_of_eventsAgree (hrun : (chatMachine U db).run as = some s)
    (hone : (chatMachine U db).Along (OneByOne U c u) (.init db) as)
    (hidle : ∀ i, ¬ Reports U c u s i) (hagree : EventsAgree U db c u as) :
    (chatMachine U db).Along (CoversRow U c u) (.init db) as := by
  -- a failure is still pending, or has been emitted
  have hinv := Machine.run_induction (M := chatMachine U db)
    (P := fun as s => (chatMachine U db).Along (OneByOne U c u) (.init db) as →
      (chatMachine U db).Along (CoversRow U c u) (.init db) as ∨ ¬ EventsAgree U db c u as ∨
        ∃ i r read, Pending U c u s i r read ∧
          s.shared.tables.cursor c u ≠ ⟨r.delivered, read⟩) ?_ ?_ hrun
  · rcases hinv hone with hall | hnot | ⟨i, r, read, hpending, -⟩
    · exact hall
    · exact absurd hagree hnot
    · exact absurd hpending.reports (hidle i)
  · exact fun _ => Or.inl Machine.along_nil
  · intro as s a s' hrun ih hstep hone
    have hs := receipted_run hrun
    have hmove := chatStep_move hstep
    have hlast : OneByOne U c u s a := hone as a [] s rfl hrun
    rcases ih hone.of_append with hall | hnot | ⟨i, r, read, hpending, hne⟩
    · by_cases hC : CoversRow U c u s a
      · exact Or.inl (Machine.along_concat hall hrun hC)
      · exact Or.inr (Or.inr (pending_of_not_covers hs hmove hC))
    · refine Or.inr (Or.inl fun hagree => hnot ?_)
      exact fun v i d fault v' r st p id delivered read htaken =>
        hagree v i d fault v' r st p id delivered read (htaken.append [a])
    · rcases pending_kept hs hmove hlast hpending with ⟨hpending', hrow⟩ |
        ⟨d, fault, p, rfl, hi, hshared⟩
      · exact Or.inr (Or.inr ⟨i, r, read, hpending', by rw [hrow]; exact hne⟩)
      · refine Or.inr (Or.inl fun hagree => hne ?_)
        have hrow := hagree s i d fault s' r _ p r.id r.delivered read
          (Machine.taken_concat hrun hstep) hi hpending.1 (by rw [hshared])
        rw [hshared] at hrow
        exact hrow

/-! ## What the peer is told -/

/-- Whoever is on `c` is `u` or `p`, and the other one is the other participant. -/
def PairOf (c : String) (u p : UserID) (s : Chat) (_ : Action) : Prop :=
  ∀ w q, s.shared.tables.db.Joins c w q → w = u ∧ q = p ∨ w = p ∧ q = u

theorem pairOf_of_joins (h : s.shared.tables.db.Joins c u p) : PairOf c u p s a := by
  rintro w q ⟨row, hrow, hid, hpair⟩
  obtain ⟨row', hrow', hid', hpair'⟩ := h
  obtain rfl := Database.row_unique hrow hrow' (hid.trans hid'.symm)
  rcases hpair' with e | e <;> rcases hpair with e' | e' <;>
    obtain ⟨rfl, rfl⟩ := Prod.mk.inj (e.symm.trans e')
  · exact Or.inl ⟨rfl, rfl⟩
  · exact Or.inr ⟨rfl, rfl⟩
  · exact Or.inr ⟨rfl, rfl⟩
  · exact Or.inl ⟨rfl, rfl⟩

/-- It was so all along, since connections are not changed. -/
theorem along_pairOf (hrun : (chatMachine U db).run as = some s)
    (h : s.shared.tables.db.Joins c u p) :
    (chatMachine U db).Along (PairOf c u p) (.init db) as := by
  intro pre a post v hsplit hpre w q hjoins
  rw [hsplit] at hrun
  have hrest := (Machine.runFrom_append_iff hpre).mp hrun
  have hgrows := grows_runFrom hrest (sound_run hpre)
  exact pairOf_of_joins (a := a) h w q (hjoins.extends hgrows.connections)

/-- The peer was told values that the row had, in the order in which it had them. -/
structure Followed (U : UUIDText) (c : String) (u p : UserID) (s : Chat) : Prop where
  matching : Matching U c u s
  knows : ∀ (i : Nat) r st, s.threads[i]? = some (.receipt r st) → st.Knows r U s.shared.tables
  told_le : ∀ x ∈ s.told U p c, x ≤ s.shared.tables.cursor c u
  sorted : (s.told U p c).Pairwise fun x y => y ≤ x

theorem knows_step (hs : s.Sound U) (hmove : ChatMove U s a s')
    (hknows : ∀ (i : Nat) r st, s.threads[i]? = some (.receipt r st) →
      st.Knows r U s.shared.tables) (hi : s'.threads[i]? = some (.receipt r st)) :
    st.Knows r U s'.shared.tables := by
  have hgrows := hmove.grows hs
  rcases hmove.receipt_origin hi with ⟨hi, -⟩ | ⟨-, rfl, -⟩ | ⟨d, fault, st₀, -, hi, hcall⟩
  · exact (hknows i r st hi).grows hgrows
  · trivial
  · exact ((ReceiptRequest.step_move hcall).knows (hknows i r st₀ hi)).grows hgrows

/-- An event about `c` is for the other one of the two. -/
theorem Followed.emit_to {q : UserID} (hs : Followed U c u p s) (hpair : PairOf c u p s a)
    (hi : s.threads[i]? = some (.receipt r (.emit q read))) (hpath : U.cast r.id = some c) :
    r.user = u ∧ q = p ∨ r.user = p ∧ q = u := by
  obtain ⟨c', hpath', hjoins⟩ := hs.knows i r _ hi
  obtain rfl : c' = c := Option.some.inj (hpath'.symm.trans hpath)
  exact hpair _ _ hjoins

/-- What the peer is told next about `c` is a pending event of `u`. -/
theorem Followed.pending_of_emit (hs : Followed U c u p s) (hpair : PairOf c u p s a)
    (hi : s.threads[i]? = some (.receipt r (.emit p read))) (hpath : U.cast r.id = some c) :
    Pending U c u s i r read := by
  have huser : r.user = u := by
    rcases hs.emit_to hpair hi hpath with ⟨huser, -⟩ | ⟨huser, hpu⟩
    · exact huser
    · exact huser.trans hpu
  exact ⟨⟨huser, hpath⟩, _, hi, rfl⟩

theorem followed_step (hs : Followed U c u p s) (hone : OneByOne U c u s a)
    (hcovers : CoversRow U c u s a) (hpair : PairOf c u p s a)
    (hstep : (chatMachine U db).step s a = some s') : Followed U c u p s' := by
  have hmove := chatStep_move hstep
  have hsound := hs.matching.receipted.sound
  have hmatching := matching_step hs.matching hone hcovers hstep
  have hknows : ∀ (i : Nat) r st, s'.threads[i]? = some (.receipt r st) →
      st.Knows r U s'.shared.tables := fun _ _ _ hi => knows_step hsound hmove hs.knows hi
  rcases hmove.told_cases (p := p) (c := c) with hsame | ⟨i, d, fault, r, read, rfl, hi, hpath, hx'⟩
  · refine ⟨hmatching, hknows, ?_, ?_⟩
    · rw [hsame]
      exact fun x hx =>
        Receipt.le_trans (hs.told_le x hx) (hs.matching.receipted.cursor_le hmove c u)
    · rw [hsame]
      exact hs.sorted
  · have hrow := hs.matching.pending i r read (hs.pending_of_emit hpair hi hpath)
    have htold := told_cons hpath hx'
    have hrow' : s'.shared.tables.cursor c u = ⟨r.delivered, read⟩ := by
      rw [hx']
      exact hrow
    refine ⟨hmatching, hknows, ?_, ?_⟩
    · rw [htold, hrow']
      intro x hx
      rcases List.mem_cons.mp hx with rfl | hx
      · exact Receipt.le_refl _
      · rw [← hrow]
        exact hs.told_le x hx
    · rw [htold]
      refine List.pairwise_cons.mpr ⟨fun x hx => ?_, hs.sorted⟩
      rw [← hrow]
      exact hs.told_le x hx

theorem followed_init (U : UUIDText) (db : Database) (c : String) (u p : UserID) :
    Followed U c u p (.init db) where
  matching := ⟨receipted_init U db, fun _ _ _ h => by
    obtain ⟨-, st, hi, -⟩ := h
    cases hi⟩
  knows := fun _ _ _ hi => nomatch hi
  told_le := fun _ hx => nomatch hx
  sorted := List.Pairwise.nil

/-- Once nothing is pending, the last thing the peer was told is the row. -/
theorem shown_step (hs : Followed U c u p s) (hone : OneByOne U c u s a)
    (hpair : PairOf c u p s a) (hok : ReceiptsSucceed s a)
    (hstep : (chatMachine U db).step s a = some s')
    (hshown : (∀ i r read, ¬ Pending U c u s i r read) →
      s.shown U p c = s.shared.tables.cursor c u)
    (hnone : ∀ i r read, ¬ Pending U c u s' i r read) :
    s'.shown U p c = s'.shared.tables.cursor c u := by
  have hmove := chatStep_move hstep
  have hreceipted := hs.matching.receipted
  by_cases hpending : ∃ i r read, Pending U c u s i r read
  · obtain ⟨i, r, read, hpending⟩ := hpending
    rcases pending_kept hreceipted hmove hone hpending with ⟨hstill, -⟩ |
      ⟨d, fault, q, rfl, hi, hx'⟩
    · exact absurd hstill (hnone i r read)
    · -- the event goes to `p`
      have hq : q = p := by
        rcases hs.emit_to hpair hi hpending.1.2 with ⟨-, hq⟩ | ⟨hup, hqu⟩
        · exact hq
        · exact hqu.trans (hpending.1.1.symm.trans hup)
      subst hq
      have hrow := hs.matching.pending i r read hpending
      rw [Chat.shown, told_cons hpending.1.2 hx', hx']
      exact hrow.symm
  · have hquiet : ∀ i r read, ¬ Pending U c u s i r read :=
      fun i r read h => hpending ⟨i, r, read, h⟩
    have htold : s'.told U p c = s.told U p c := by
      rcases hmove.told_cases (p := p) (c := c) with hsame | ⟨i, d, fault, r, read, -, hi, hpath, -⟩
      · exact hsame
      · exact absurd (hs.pending_of_emit hpair hi hpath) (hquiet i r read)
    have hrow : s'.shared.tables.cursor c u = s.shared.tables.cursor c u := by
      rcases hreceipted.cursor_step hmove with hsame |
        ⟨i, d, fault, r, c', q, read, rfl, hi, hstage, hcursor⟩
      · exact hsame c u
      · rw [hcursor]
        split
        · next hcu =>
            obtain ⟨rfl, rfl⟩ := hcu
            obtain rfl : fault = .ok := fault_eq_ok hok hi rfl
            by_cases hadvances : (s.shared.tables.cursor c r.user).Advances
                ((s.shared.tables.cursor c r.user).join r.delivered read)
            · exact absurd (pending_of_upsert hreceipted hmove hi ⟨rfl, hstage.1⟩ hadvances).1
                (hnone i r read)
            · -- nothing to raise
              rw [Receipt.advances_join, not_or, Nat.not_lt, Nat.not_lt] at hadvances
              rw [Receipt.join, Nat.max_eq_left hadvances.1, Nat.max_eq_left hadvances.2]
        · rfl
    rw [Chat.shown, htold, hrow]
    exact hshown hquiet

theorem not_reports_of_any (h : s.threads.any (Thread.reports U c u) = false) (i : Nat) :
    ¬ Reports U c u s i := by
  intro hi
  rw [Reports] at hi
  rw [List.any_eq_false] at h
  cases hth : s.threads[i]? with
  | none =>
      rw [hth] at hi
      cases hi
  | some th =>
      rw [hth, Option.any_some] at hi
      exact h th (List.mem_of_getElem? hth) hi

theorem followed_of_run (hrun : (chatMachine U db).run as = some s)
    (hone : (chatMachine U db).Along (OneByOne U c u) (.init db) as)
    (hcovers : (chatMachine U db).Along (CoversRow U c u) (.init db) as)
    (hpair : (chatMachine U db).Along (PairOf c u p) (.init db) as) : Followed U c u p s := by
  exact Machine.runFrom_invariant_along (M := chatMachine U db)
    (fun v a v' hv hC hstep => followed_step hv hC.1 hC.2.1 hC.2.2 hstep) hrun
    (hone.and (hcovers.and hpair)) (followed_init U db c u p)

theorem shown_of_run (hrun : (chatMachine U db).run as = some s)
    (hone : (chatMachine U db).Along (OneByOne U c u) (.init db) as)
    (hcovers : (chatMachine U db).Along (CoversRow U c u) (.init db) as)
    (hpair : (chatMachine U db).Along (PairOf c u p) (.init db) as)
    (hok : (chatMachine U db).Along ReceiptsSucceed (.init db) as)
    (hnone : ∀ i r read, ¬ Pending U c u s i r read) :
    s.shown U p c = s.shared.tables.cursor c u := by
  have hinv := Machine.run_induction (M := chatMachine U db)
    (P := fun as s => (chatMachine U db).Along (OneByOne U c u) (.init db) as →
      (chatMachine U db).Along (CoversRow U c u) (.init db) as →
      (chatMachine U db).Along (PairOf c u p) (.init db) as →
      (chatMachine U db).Along ReceiptsSucceed (.init db) as →
      (∀ i r read, ¬ Pending U c u s i r read) →
        s.shown U p c = s.shared.tables.cursor c u) ?_ ?_ hrun
  · exact hinv hone hcovers hpair hok hnone
  · exact fun _ _ _ _ _ => rfl
  · intro as s a s' hrun ih hstep hone hcovers hpair hok hnone
    have hs := followed_of_run hrun hone.of_append hcovers.of_append hpair.of_append
    exact shown_step hs (hone as a [] s rfl hrun) (hpair as a [] s rfl hrun)
      (hok as a [] s rfl hrun) hstep
      (ih hone.of_append hcovers.of_append hpair.of_append hok.of_append) hnone

/-- GET messages of `p` reads the row of `u`. -/
theorem cursorsRead_eq {id : String} {x : Receipt} (hjoins : s.shared.tables.db.Joins c u p)
    (hpath : U.cast id = some c) (h : s.shared.tables.cursorsRead U p id = some x) :
    x = s.shared.tables.cursor c u := by
  obtain ⟨⟨c', u'⟩, hpeer, rfl⟩ := Option.map_eq_some_iff.mp h
  obtain ⟨hpath', hjoins', -⟩ := Tables.peer_eq_some hpeer
  obtain rfl : c' = c := Option.some.inj (hpath'.symm.trans hpath)
  rcases pairOf_of_joins (a := .spawn (.block u p)) hjoins p u' hjoins' with ⟨rfl, rfl⟩ | ⟨-, rfl⟩
  · rfl
  · rfl

/-- In every run in which the receipts of `u` on `c` are processed one after
    another, beside anything else: if each receipt covers the row, then each event
    shows the row; once all are answered, only if.  Then a peer is told cursors
    that never go back, and, if no call of a receipt fails, what a peer who follows
    the events shows is what GET messages reads. -/
theorem receipt_events_agree_iff (hrun : (chatMachine U db).run as = some s)
    (hone : (chatMachine U db).Along (OneByOne U c u) (.init db) as) :
    ((chatMachine U db).Along (CoversRow U c u) (.init db) as → EventsAgree U db c u as) ∧
      ((∀ i, ¬ Reports U c u s i) →
        (EventsAgree U db c u as ↔ (chatMachine U db).Along (CoversRow U c u) (.init db) as)) ∧
      ((chatMachine U db).Along (CoversRow U c u) (.init db) as →
        ∀ p, s.shared.tables.db.Joins c u p →
          (s.told U p c).Pairwise (fun x y => y ≤ x) ∧
          ((chatMachine U db).Along ReceiptsSucceed (.init db) as → (∀ i, ¬ Reports U c u s i) →
            ∀ id x, U.cast id = some c → s.shared.tables.cursorsRead U p id = some x →
              s.shown U p c = x)) := by
  refine ⟨eventsAgree_of_covers hone, fun hidle => ?_, fun hcovers p hjoins => ?_⟩
  · exact ⟨covers_of_eventsAgree hrun hone hidle, eventsAgree_of_covers hone⟩
  · have hpair := along_pairOf hrun hjoins
    refine ⟨(followed_of_run hrun hone hcovers hpair).sorted, fun hok hidle id x hpath hread => ?_⟩
    rw [cursorsRead_eq hjoins hpath hread]
    exact shown_of_run hrun hone hcovers hpair hok fun i r read h => hidle i h.reports

end

/-- Ann's two messages to Ben. -/
def twoMessages : List Action :=
  [.spawn (.send (annsSend withBen "Hello"))] ++ calls 0 9
    ++ [.spawn (.send
      { annsSend withBen "Again" with clientID := "00000000-0000-4000-8000-00000000000b" })]
    ++ calls 1 9

/-- Ben's receipt for the message `n`. -/
def bensReceiptOf (n : Int) (read : Bool) : ReceiptRequest :=
  { bensReceipt read with messageID := n }

/-- Ben reads the first message, then the second; a late receipt for the first
    changes nothing. -/
def readInOrder : List Action :=
  twoMessages ++ [.spawn (.receipt (bensReceiptOf 1 true))] ++ calls 2 6
    ++ [.spawn (.receipt (bensReceiptOf 2 true))] ++ calls 3 6
    ++ [.spawn (.receipt (bensReceiptOf 1 false))] ++ calls 4 3

theorem receipt_events_agree_iff_readInOrder : ∃ s,
    (chatMachine canonicalUUIDs annsConnections).run readInOrder = some s ∧
      EventsAgree canonicalUUIDs annsConnections withBen "ben" readInOrder ∧
      (s.told canonicalUUIDs "ann" withBen).Pairwise (fun x y => y ≤ x) ∧
      s.told canonicalUUIDs "ann" withBen = [⟨2, 2⟩, ⟨1, 1⟩] := by
  have hobs : ((chatMachine canonicalUUIDs annsConnections).run readInOrder).map (fun s =>
      (s.told canonicalUUIDs "ann" withBen,
        decide (s.shared.tables.db.Joins withBen "ben" "ann"))) =
      some ([⟨2, 2⟩, ⟨1, 1⟩], true) := by
    decide +kernel
  have hone : (chatMachine canonicalUUIDs annsConnections).Along
      (OneByOne canonicalUUIDs withBen "ben") (.init annsConnections) readInOrder := by
    decide +kernel
  have hcovers : (chatMachine canonicalUUIDs annsConnections).Along
      (CoversRow canonicalUUIDs withBen "ben") (.init annsConnections) readInOrder := by
    decide +kernel
  obtain ⟨s, hs, hobs⟩ := Option.map_eq_some_iff.mp hobs
  obtain ⟨htold, hjoins⟩ := Prod.mk.inj hobs
  obtain ⟨hagree, -, hrest⟩ := receipt_events_agree_iff hs hone
  exact ⟨s, hs, hagree hcovers, (hrest hcovers "ann" (of_decide_eq_true hjoins)).1, htold⟩

/-- Ben reads the first message and reports the second delivered. -/
def readThenDelivered : List Action :=
  twoMessages ++ [.spawn (.receipt (bensReceiptOf 1 true))] ++ calls 2 6
    ++ [.spawn (.receipt (bensReceiptOf 2 false))] ++ calls 3 4

/-- Ann is told that nothing is read any more, while the row still has the first
    message as read. -/
theorem not_receipt_events_agree_readThenDelivered : ∃ s,
    (chatMachine canonicalUUIDs annsConnections).run readThenDelivered = some s ∧
      (chatMachine canonicalUUIDs annsConnections).Along
        (OneByOne canonicalUUIDs withBen "ben") (.init annsConnections) readThenDelivered ∧
      s.told canonicalUUIDs "ann" withBen = [⟨2, 0⟩, ⟨1, 1⟩] ∧
      s.shared.tables.cursorsRead canonicalUUIDs "ann" withBen = some ⟨2, 1⟩ ∧
      ¬ EventsAgree canonicalUUIDs annsConnections withBen "ben" readThenDelivered := by
  have hobs : ((chatMachine canonicalUUIDs annsConnections).run readThenDelivered).map (fun s =>
      (s.told canonicalUUIDs "ann" withBen,
        s.shared.tables.cursorsRead canonicalUUIDs "ann" withBen,
        s.threads.any (Thread.reports canonicalUUIDs withBen "ben"))) =
      some ([⟨2, 0⟩, ⟨1, 1⟩], some ⟨2, 1⟩, false) := by
    decide +kernel
  have hone : (chatMachine canonicalUUIDs annsConnections).Along
      (OneByOne canonicalUUIDs withBen "ben") (.init annsConnections) readThenDelivered := by
    decide +kernel
  have hnot : ¬ (chatMachine canonicalUUIDs annsConnections).Along
      (CoversRow canonicalUUIDs withBen "ben") (.init annsConnections) readThenDelivered := by
    decide +kernel
  obtain ⟨s, hs, hobs⟩ := Option.map_eq_some_iff.mp hobs
  simp only [Prod.mk.injEq] at hobs
  obtain ⟨htold, hread, hidle⟩ := hobs
  exact ⟨s, hs, hone, htold, hread, fun hagree =>
    hnot (covers_of_eventsAgree hs hone (not_reports_of_any hidle) hagree)⟩

end OneMinute.Communication
