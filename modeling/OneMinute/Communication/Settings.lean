/-
  OneMinute.Communication.Settings

  What a user's settings keep from the peer, when their query may fail.

  `getSettings` ignores the error of its query and leaves the defaults, which
  share everything.  Here one request makes its calls among those of any others:
  each call finds tables of its own and goes through or not.

    * `ReceiptRequest.ReadsUnasked`, `TypingRequest.TypesUnasked` — the calls
      among which the failed query shows;
    * `settings_withhold_iff` — exactly then something is shared that the
      stored settings withhold.
-/

import OneMinute.Communication.Receipts
import OneMinute.Lib.Serving

namespace OneMinute.Communication

open Discovery (UserID UnixMilli)

/-! ## POST typing -/

structure TypingRequest where
  user : UserID
  /-- The connection in the path. -/
  id : String
deriving DecidableEq, Repr

/-- The next call of a typing request. -/
inductive TypingStage where
  | authorize
  | settings (p : UserID)
  | emit (p : UserID)
  | done (status : Nat)
deriving DecidableEq, Repr

/-- One call of the request, with what it hands to `emit`: the user, and the
    connection that the event names. -/
def TypingRequest.step (r : TypingRequest) (U : UUIDText) (fault : Fault) (t : Tables) :
    TypingStage → Option (List (UserID × String) × TypingStage)
  | .authorize =>
    match if fault = .ok then t.peer U r.user r.id else none with
    | none => some ([], .done 403)
    | some (_, p) => some ([], .settings p)
  | .settings p =>
    -- an error leaves the defaults
    some ([], if fault ≠ .ok || (t.getSettings r.user).typing then .emit p else .done 200)
  | .emit p => some ([(p, r.id)], .done 200)
  | .done _ => none

/-! ## What a request does -/

/-- What one call finds, and whether it goes through. -/
structure Turn where
  before : Shared
  supply : Supply := {}
  fault : Fault := .ok

/-- The row of `u` says read_receipts = false. -/
def Tables.HidesReads (t : Tables) (u : UserID) : Prop :=
  ∃ s, t.settings u = some s ∧ s.readReceipts = false

/-- The row of `u` says typing = false. -/
def Tables.HidesTyping (t : Tables) (u : UserID) : Prop :=
  ∃ s, t.settings u = some s ∧ s.typing = false

/-- From `x` to `x'` no read cursor is raised, and no event carries one. -/
structure Shared.Withholds (x x' : Shared) : Prop where
  cursors : ∀ c u, (x'.tables.cursor c u).readID ≤ (x.tables.cursor c u).readID
  events : x'.emitted = x.emitted ∨
    ∃ p c delivered, x'.emitted = (p, .receipt c delivered 0) :: x.emitted

namespace ReceiptRequest

/-- The calls of the request. -/
def turn (r : ReceiptRequest) (U : UUIDText) (w : Turn) (st : ReceiptStage) :
    Option (Shared × ReceiptStage) :=
  r.step U w.supply w.fault w.before st

/-- The request shares nothing of what has been read. -/
def Withholds (r : ReceiptRequest) (U : UUIDText) (w : Nat → Turn) : Prop :=
  ∀ k x', Serving.Does (r.turn U) .authorize w k x' → (w k).before.Withholds x'

/-- The request comes to its settings query, on the connection `c`, and the
    query fails. -/
def SettingsFail (r : ReceiptRequest) (U : UUIDText) (w : Nat → Turn) (c : String)
    (p : UserID) : Prop :=
  (w 0).fault = .ok ∧ (w 0).before.tables.peer U r.user r.id = some (c, p) ∧ r.valid = true ∧
    (w 1).fault = .ok ∧ (w 1).before.tables.hasMessage r.delivered c p = true ∧
    r.read = true ∧ (w 2).fault ≠ .ok

instance (r : ReceiptRequest) (U : UUIDText) (w : Nat → Turn) (c : String) (p : UserID) :
    Decidable (r.SettingsFail U w c p) :=
  inferInstanceAs (Decidable (_ ∧ _))

/-- After a failed query the upsert raises the read cursor, or it goes through
    and raises the delivered one, which the peer is told with the read id. -/
def ReadsUnasked (r : ReceiptRequest) (U : UUIDText) (w : Nat → Turn) : Prop :=
  ∃ c p, r.SettingsFail U w c p ∧
    ((w 3).fault ≠ .failed ∧ ((w 3).before.tables.cursor c r.user).readID < r.delivered ∨
      (w 3).fault = .ok ∧ ((w 3).before.tables.cursor c r.user).deliveredID < r.delivered)

end ReceiptRequest

namespace TypingRequest

def turn (r : TypingRequest) (U : UUIDText) (w : Tables × Fault) (st : TypingStage) :
    Option (List (UserID × String) × TypingStage) :=
  r.step U w.2 w.1 st

/-- The request emits nothing. -/
def Silent (r : TypingRequest) (U : UUIDText) (w : Nat → Tables × Fault) : Prop :=
  ∀ k e, Serving.Does (r.turn U) .authorize w k e → e = []

/-- The request comes to its settings query, and the query fails. -/
def TypesUnasked (r : TypingRequest) (U : UUIDText) (w : Nat → Tables × Fault) : Prop :=
  (w 0).2 = .ok ∧ ((w 0).1.peer U r.user r.id).isSome = true ∧ (w 1).2 ≠ .ok

end TypingRequest

/-! ## Typing -/

section
variable {r : TypingRequest} {U : UUIDText} {w : Nat → Tables × Fault} {k : Nat}

/-- What has led a typing request to where it stands. -/
def TypingStage.Because (r : TypingRequest) (U : UUIDText) (w : Nat → Tables × Fault) (k : Nat) :
    TypingStage → Prop
  | .authorize => k = 0
  | .settings p => k = 1 ∧ (w 0).2 = .ok ∧ ∃ c, (w 0).1.peer U r.user r.id = some (c, p)
  | .emit _ => r.TypesUnasked U w
  | .done _ => True

theorem TypingStage.Because.step (hoff : ∀ k, (w k).1.HidesTyping r.user) {st st' : TypingStage}
    {e : List (UserID × String)} (h : st.Because r U w k)
    (hturn : r.turn U (w k) st = some (e, st')) : st'.Because r U w (k + 1) := by
  cases st with
  | authorize =>
      obtain rfl : k = 0 := h
      simp only [TypingRequest.turn, TypingRequest.step] at hturn
      split at hturn
      · cases hturn
        trivial
      · next c p hpeer =>
          cases hturn
          obtain ⟨hok, hpeer⟩ := Option.ite_none_right_eq_some.mp hpeer
          exact ⟨rfl, hok, c, hpeer⟩
  | settings p =>
      obtain ⟨rfl, hok, c, hpeer⟩ := h
      obtain ⟨s, hs, htyping⟩ := hoff 1
      simp only [TypingRequest.turn, TypingRequest.step, Tables.getSettings, hs, Option.getD_some,
        htyping, Bool.or_false, decide_eq_true_eq] at hturn
      cases hturn
      split
      · next hfault => exact ⟨hok, by rw [hpeer]; rfl, hfault⟩
      · trivial
  | emit p =>
      cases hturn
      trivial
  | done status => cases hturn

/-- Among calls that find typing = false, only a failed query lets a request emit. -/
theorem typing_silent_iff (hoff : ∀ k, (w k).1.HidesTyping r.user) :
    r.Silent U w ↔ ¬ r.TypesUnasked U w := by
  constructor
  · rintro hsilent ⟨hok, hsome, hfault⟩
    obtain ⟨⟨c, p⟩, hpeer⟩ := Option.isSome_iff_exists.mp hsome
    have h0 : r.turn U (w 0) .authorize = some ([], .settings p) := by
      simp only [TypingRequest.turn, TypingRequest.step, hok, if_true, hpeer]
    have h1 : r.turn U (w 1) (.settings p) = some ([], .emit p) := by
      simp [TypingRequest.turn, TypingRequest.step, hfault]
    have hemit : Serving.stageAt (r.turn U) .authorize w 2 = some (.emit p) :=
      Serving.stageAt_succ (Serving.stageAt_succ rfl h0) h1
    exact List.cons_ne_nil _ _ (hsilent 2 _ ⟨_, _, hemit, rfl⟩)
  · rintro hasked k e ⟨st, st', hst, hturn⟩
    have h : st.Because r U w k :=
      Serving.stageAt_induction (P := fun k st => st.Because r U w k) rfl
        (fun _ _ _ _ h hturn => h.step hoff hturn) hst
    cases st with
    | authorize =>
        simp only [TypingRequest.turn, TypingRequest.step] at hturn
        split at hturn <;> cases hturn <;> rfl
    | settings p =>
        cases hturn
        rfl
    | emit p => exact absurd h hasked
    | done status => cases hturn

end

/-! ## Receipts -/

theorem Shared.Withholds.refl (x : Shared) : x.Withholds x := ⟨fun _ _ => Nat.le_refl _, .inl rfl⟩

/-- Steps that write neither cursors nor events. -/
theorem Shared.Withholds.of_eq {x x' : Shared} (hreceipts : x'.tables.receipts = x.tables.receipts)
    (hemitted : x'.emitted = x.emitted) : x.Withholds x' where
  cursors c u := le_of_eq (by rw [Tables.cursor_congr hreceipts])
  events := Or.inl hemitted

/-- The read cursor after the upsert. -/
theorem Tables.readID_upsertReceipt (t : Tables) (c : String) (u : UserID) (delivered read : Nat) :
    ((t.upsertReceipt c u delivered read).2.cursor c u).readID =
      max (t.cursor c u).readID read := by
  rw [cursor_upsertReceipt, if_pos ⟨rfl, rfl⟩]
  rfl

/-- An upsert withholds unless it raises the read cursor. -/
theorem Shared.Withholds.upsert (x : Shared) (c : String) (u : UserID) (delivered : Nat)
    {read : Nat} (h : read ≤ (x.tables.cursor c u).readID) :
    x.Withholds { x with tables := (x.tables.upsertReceipt c u delivered read).2 } where
  cursors c' u' := by
    rw [Tables.cursor_upsertReceipt]
    split
    · next hsame =>
        rw [hsame.1, hsame.2]
        exact Nat.max_le.mpr ⟨Nat.le_refl _, h⟩
    · exact Nat.le_refl _
  events := Or.inl rfl

/-- A receipt request writes no settings. -/
theorem ReceiptMove.settings {r : ReceiptRequest} {U : UUIDText} {d : Supply} {fault : Fault}
    {x x' : Shared} {st st' : ReceiptStage} (h : ReceiptMove r U d fault x st x' st') :
    x'.tables.settings = x.tables.settings := by
  have hupsert : ∀ c delivered read,
      (x.tables.upsertReceipt c r.user delivered read).2.settings = x.tables.settings := by
    intro c delivered read
    unfold Tables.upsertReceipt
    split
    · rfl
    · split <;> rfl
  cases h with
  | unauthorized | authorize | unknown | checkRead | checkDelivered | enabled | disabled | emit =>
      rfl
  | failed _ hx' =>
      rcases hx' with rfl | rfl
      · rfl
      · exact hupsert _ _ _
  | upsertRead => exact hupsert _ _ _
  | upsertDelivered => exact hupsert _ _ _
  | markRead hx' => rcases hx' with rfl | rfl <;> rfl

section
variable {r : ReceiptRequest} {U : UUIDText} {w : Nat → Turn} {k : Nat}

/-- What has led a receipt request to where it stands: a read id comes from a
    failed query. -/
def ReceiptStage.Because (r : ReceiptRequest) (U : UUIDText) (w : Nat → Turn) (k : Nat) :
    ReceiptStage → Prop
  | .authorize => k = 0
  | .check c p =>
    k = 1 ∧ (w 0).fault = .ok ∧ (w 0).before.tables.peer U r.user r.id = some (c, p) ∧
      r.valid = true
  | .settings c p =>
    k = 2 ∧ (w 0).fault = .ok ∧ (w 0).before.tables.peer U r.user r.id = some (c, p) ∧
      r.valid = true ∧ (w 1).fault = .ok ∧
      (w 1).before.tables.hasMessage r.delivered c p = true ∧ r.read = true
  | .upsert c p read => read = 0 ∨ k = 3 ∧ read = r.delivered ∧ r.SettingsFail U w c p
  | .markRead _ _ read changed => read = 0 ∨ (changed = true → r.ReadsUnasked U w)
  | .emit _ read => read = 0 ∨ r.ReadsUnasked U w
  | .done _ => True

theorem ReceiptStage.Because.finish {p : UserID} {read : Nat} {changed : Bool}
    (h : read = 0 ∨ (changed = true → r.ReadsUnasked U w)) :
    (ReceiptRequest.finish p read changed).Because r U w k := by
  cases changed with
  | false => trivial
  | true => exact h.imp_right fun h => h rfl

/-- An upsert that goes through and changes the row shows in the event. -/
theorem changed_readsUnasked {c : String} {p : UserID} {read : Nat} (hok : (w k).fault = .ok)
    (h : read = 0 ∨ k = 3 ∧ read = r.delivered ∧ r.SettingsFail U w c p) :
    read = 0 ∨ (((w k).before.tables.upsertReceipt c r.user r.delivered read).1 = true →
      r.ReadsUnasked U w) := by
  refine h.imp_right ?_
  rintro ⟨rfl, rfl, hfail⟩ hchanged
  have hpos : 1 ≤ r.delivered := by
    have hvalid := hfail.2.2.1
    rw [ReceiptRequest.valid, Bool.and_eq_true, decide_eq_true_eq] at hvalid
    unfold ReceiptRequest.delivered
    omega
  rw [Tables.changed_upsertReceipt hpos, Receipt.advances_join] at hchanged
  refine ⟨c, p, hfail, ?_⟩
  rcases hchanged with hdelivered | hread
  · exact Or.inr ⟨hok, hdelivered⟩
  · exact Or.inl ⟨by rw [hok]; decide, hread⟩

theorem ReceiptStage.Because.step (hoff : ∀ k, (w k).before.tables.HidesReads r.user)
    {st st' : ReceiptStage} {x' : Shared} (h : st.Because r U w k)
    (hturn : r.turn U (w k) st = some (x', st')) : st'.Because r U w (k + 1) := by
  cases st with
  | authorize =>
      obtain rfl : k = 0 := h
      simp only [ReceiptRequest.turn, ReceiptRequest.step] at hturn
      split at hturn
      · cases hturn
        trivial
      · next c p hpeer =>
          cases hturn
          obtain ⟨hok, hpeer⟩ := Option.ite_none_right_eq_some.mp hpeer
          split
          · next hvalid => exact ⟨rfl, hok, hpeer, hvalid⟩
          · trivial
  | check c p =>
      obtain ⟨rfl, hok, hpeer, hvalid⟩ := h
      simp only [ReceiptRequest.turn, ReceiptRequest.step] at hturn
      cases hturn
      split
      · next hfound =>
          rw [Bool.and_eq_true, decide_eq_true_eq] at hfound
          split
          · next hread => exact ⟨rfl, hok, hpeer, hvalid, hfound.1, hfound.2, hread⟩
          · exact Or.inl rfl
      · trivial
  | settings c p =>
      obtain ⟨rfl, hok, hpeer, hvalid, hok', hfound, hread⟩ := h
      obtain ⟨s, hs, hreads⟩ := hoff 2
      simp only [ReceiptRequest.turn, ReceiptRequest.step, Tables.getSettings, hs,
        Option.getD_some, hreads, Bool.or_false, decide_eq_true_eq] at hturn
      cases hturn
      split
      · next hfault => exact Or.inr ⟨rfl, rfl, hok, hpeer, hvalid, hok', hfound, hread, hfault⟩
      · exact Or.inl rfl
  | upsert c p read =>
      simp only [ReceiptRequest.turn, ReceiptRequest.step] at hturn
      split at hturn
      · cases hturn
        trivial
      · cases hturn
        split
        · trivial
        · next hok =>
            have hchanged := changed_readsUnasked (not_not.mp hok) h
            split
            · exact hchanged
            · exact .finish hchanged
  | markRead c p read changed =>
      cases hturn
      exact .finish h
  | emit p read =>
      cases hturn
      trivial
  | done status => cases hturn

/-- A call withholds unless the request stands where a failed query has led it. -/
theorem ReceiptStage.Because.withholds (hasked : ¬ r.ReadsUnasked U w) {st st' : ReceiptStage}
    {x' : Shared} (h : st.Because r U w k) (hturn : r.turn U (w k) st = some (x', st')) :
    (w k).before.Withholds x' := by
  cases st with
  | authorize =>
      simp only [ReceiptRequest.turn, ReceiptRequest.step] at hturn
      split at hturn <;> cases hturn <;> exact .refl _
  | check c p =>
      cases hturn
      exact .refl _
  | settings c p =>
      cases hturn
      exact .refl _
  | upsert c p read =>
      simp only [ReceiptRequest.turn, ReceiptRequest.step] at hturn
      split at hturn
      · cases hturn
        exact .refl _
      · next hfault =>
          cases hturn
          refine .upsert _ _ _ _ ?_
          rcases h with rfl | ⟨rfl, rfl, hfail⟩
          · exact Nat.zero_le _
          · refine Nat.le_of_not_lt fun hless => hasked ⟨c, p, hfail, Or.inl ⟨hfault, hless⟩⟩
  | markRead c p read changed =>
      cases hturn
      refine .of_eq ?_ ?_
      · split <;> rfl
      · split <;> rfl
  | emit p read =>
      cases hturn
      obtain rfl := h.resolve_right hasked
      exact ⟨fun _ _ => Nat.le_refl _, Or.inr ⟨p, r.id, r.delivered, rfl⟩⟩
  | done status => cases hturn

/-- The calls of a request whose settings query fails. -/
theorem ReceiptRequest.SettingsFail.stageAt {c : String} {p : UserID}
    (h : r.SettingsFail U w c p) :
    Serving.stageAt (r.turn U) .authorize w 3 = some (.upsert c p r.delivered) := by
  obtain ⟨hok, hpeer, hvalid, hok', hfound, hread, hfault⟩ := h
  have h0 : r.turn U (w 0) .authorize = some ((w 0).before, .check c p) := by
    simp only [turn, step, hok, if_true, hpeer, hvalid]
  have h1 : r.turn U (w 1) (.check c p) = some ((w 1).before, .settings c p) := by
    simp [turn, step, hok', hfound, hread]
  have h2 : r.turn U (w 2) (.settings c p) = some ((w 2).before, .upsert c p r.delivered) := by
    simp [turn, step, hfault]
  exact Serving.stageAt_succ (Serving.stageAt_succ (Serving.stageAt_succ rfl h0) h1) h2

/-- Among calls that find read_receipts = false, only a failed query lets a
    request share what was read. -/
theorem receipt_withholds_iff (hoff : ∀ k, (w k).before.tables.HidesReads r.user) :
    r.Withholds U w ↔ ¬ r.ReadsUnasked U w := by
  constructor
  · rintro hwithholds ⟨c, p, hfail, hraised⟩
    have hupsert := hfail.stageAt
    obtain ⟨_, _, hvalid, _, _, hread, _⟩ := hfail
    have hpos : 1 ≤ r.delivered := by
      rw [ReceiptRequest.valid, Bool.and_eq_true, decide_eq_true_eq] at hvalid
      unfold ReceiptRequest.delivered
      omega
    rcases hraised with ⟨hfault, hless⟩ | ⟨hok, hless⟩
    · -- the upsert itself raises the cursor
      obtain ⟨st', hturn⟩ : ∃ st', r.turn U (w 3) (.upsert c p r.delivered) =
          some ({ (w 3).before with tables :=
            ((w 3).before.tables.upsertReceipt c r.user r.delivered r.delivered).2 }, st') := by
        simp only [ReceiptRequest.turn, ReceiptRequest.step, if_neg hfault]
        exact ⟨_, rfl⟩
      have h := (hwithholds 3 _ ⟨_, _, hupsert, hturn⟩).cursors c r.user
      rw [Tables.readID_upsertReceipt] at h
      omega
    · -- the peer is told the id as read
      have hchanged :
          ((w 3).before.tables.upsertReceipt c r.user r.delivered r.delivered).1 = true :=
        (Tables.changed_upsertReceipt hpos).mpr (Receipt.advances_join.mpr (Or.inl hless))
      have h3 : r.turn U (w 3) (.upsert c p r.delivered) =
          some ({ (w 3).before with tables :=
            ((w 3).before.tables.upsertReceipt c r.user r.delivered r.delivered).2 },
            .markRead c p r.delivered true) := by
        simp [ReceiptRequest.turn, ReceiptRequest.step, hok, hread, hchanged]
      have h4 : r.turn U (w 4) (.markRead c p r.delivered true) = some
          (if (w 4).fault = .failed then (w 4).before
            else { (w 4).before with tables :=
              (w 4).before.tables.markRead (r.covers c) (w 4).supply.now },
            .emit p r.delivered) := rfl
      have hemit := Serving.stageAt_succ (Serving.stageAt_succ hupsert h3) h4
      rcases (hwithholds 5 _ ⟨_, _, hemit, rfl⟩).events with hsame | ⟨_, _, _, hcons⟩
      · exact List.cons_ne_self _ _ hsame
      · rw [List.cons.injEq, Prod.mk.injEq, Event.receipt.injEq] at hcons
        omega
  · rintro hasked k x' ⟨st, st', hst, hturn⟩
    have h : st.Because r U w k :=
      Serving.stageAt_induction (P := fun k st => st.Because r U w k) rfl
        (fun _ _ _ _ h hturn => h.step hoff hturn) hst
    exact h.withholds hasked hturn

end

/-- What the stored settings withhold is shared exactly if the settings query
    fails and the request goes on: for receipts, if the upsert then raises the
    read cursor, or goes through and raises the delivered one. -/
theorem settings_withhold_iff (U : UUIDText) (r : ReceiptRequest) (w : Nat → Turn)
    (q : TypingRequest) (v : Nat → Tables × Fault) :
    ((∀ k, (w k).before.tables.HidesReads r.user) → (r.Withholds U w ↔ ¬ r.ReadsUnasked U w)) ∧
      ((∀ k, (v k).1.HidesTyping q.user) → (q.Silent U v ↔ ¬ q.TypesUnasked U v)) :=
  ⟨receipt_withholds_iff, typing_silent_iff⟩

/-! ## A failed query -/

namespace ReceiptRequest

/-- Call `k` of the request with nobody between its calls, from `x`. -/
def alone (r : ReceiptRequest) (U : UUIDText) (faults : Nat → Fault) (x : Shared) :
    Nat → Shared × ReceiptStage
  | 0 => (x, .authorize)
  | k + 1 =>
    let s := alone r U faults x k
    (r.step U {} (faults k) s.1 s.2).getD s

/-- What its calls find. -/
def aloneTurns (r : ReceiptRequest) (U : UUIDText) (faults : Nat → Fault) (x : Shared) (k : Nat) :
    Turn :=
  ⟨(r.alone U faults x k).1, {}, faults k⟩

theorem settings_alone (r : ReceiptRequest) (U : UUIDText) (faults : Nat → Fault) (x : Shared)
    (k : Nat) : (r.alone U faults x k).1.tables.settings = x.tables.settings := by
  induction k with
  | zero => rfl
  | succ k ih =>
      rw [alone]
      cases h : r.step U {} (faults k) (r.alone U faults x k).1 (r.alone U faults x k).2 with
      | none => exact ih
      | some out =>
          rw [← ih]
          exact (step_move h).settings

end ReceiptRequest

/-- Ben has a message of Ann, and settings that share neither. -/
def bensTables : Tables where
  db := annsConnections
  messages := [annsMessage]
  notifications := [⟨"ben", withBen, .message 1, none⟩]
  receipts := fun _ _ => none
  settings := fun u => if u = "ben" then some ⟨"system", true, false, false⟩ else none

def bensTyping : TypingRequest := ⟨"ben", withBen⟩

/-- Only call 2 fails: for a receipt, its settings query. -/
def thirdFails (k : Nat) : Fault := if k = 2 then .failed else .ok

/-- Ben's receipt, with nobody between its calls. -/
def bensTurns : Nat → Turn :=
  (bensReceipt true).aloneTurns canonicalUUIDs thirdFails ⟨bensTables, 1, .free, []⟩

/-- Ben's typing, whose settings query fails. -/
def bensTypingTurns (k : Nat) : Tables × Fault := (bensTables, if k = 1 then .failed else .ok)

theorem settings_bensTables (faults : Nat → Fault) (k : Nat) :
    ((bensReceipt true).aloneTurns canonicalUUIDs faults
      ⟨bensTables, 1, .free, []⟩ k).before.tables.HidesReads "ben" := by
  refine ⟨⟨"system", true, false, false⟩, ?_, rfl⟩
  exact congrFun (ReceiptRequest.settings_alone _ _ _ _ k) "ben"

/-- When both queries are answered, Ann is told neither. -/
theorem settings_withhold_iff_answered :
    (bensReceipt true).Withholds canonicalUUIDs
        ((bensReceipt true).aloneTurns canonicalUUIDs (fun _ => .ok) ⟨bensTables, 1, .free, []⟩) ∧
      bensTyping.Silent canonicalUUIDs fun _ => (bensTables, .ok) := by
  obtain ⟨hreceipt, htyping⟩ := settings_withhold_iff canonicalUUIDs (bensReceipt true)
    ((bensReceipt true).aloneTurns canonicalUUIDs (fun _ => .ok) ⟨bensTables, 1, .free, []⟩)
    bensTyping fun _ => (bensTables, .ok)
  constructor
  · refine (hreceipt (settings_bensTables _)).mpr ?_
    rintro ⟨c, p, ⟨-, -, -, -, -, -, hfails⟩, -⟩
    exact hfails rfl
  · refine (htyping fun _ => ⟨⟨"system", true, false, false⟩, rfl, rfl⟩).mpr ?_
    rintro ⟨-, -, hfails⟩
    exact hfails rfl

/-- Ben's settings share neither what he reads nor that he types; Ann is told
    both when their queries fail. -/
theorem not_settings_withhold :
    (∀ k, (bensTurns k).before.tables.HidesReads "ben") ∧
      ¬ (bensReceipt true).Withholds canonicalUUIDs bensTurns ∧
      (∀ k, (bensTypingTurns k).1.HidesTyping "ben") ∧
      ¬ bensTyping.Silent canonicalUUIDs bensTypingTurns := by
  have hreads : ∀ k, (bensTurns k).before.tables.HidesReads "ben" :=
    settings_bensTables thirdFails
  have htyping : ∀ k, (bensTypingTurns k).1.HidesTyping "ben" :=
    fun _ => ⟨⟨"system", true, false, false⟩, rfl, rfl⟩
  refine ⟨hreads, ?_, htyping, ?_⟩
  · rw [receipt_withholds_iff hreads, not_not]
    exact ⟨withBen, "ann", by decide +kernel, by decide +kernel⟩
  · rw [typing_silent_iff htyping, not_not]
    exact ⟨rfl, by decide +kernel, by decide⟩

end OneMinute.Communication
