/-
  OneMinute.Communication.Receipts

  The receipt cursors, over every schedule of chat requests.

  Only the upsert of a receipt writes cursors, and it takes the larger of the old
  and the new in each.  What a request may write it has checked before: the
  message is the other participant's (`ReceiptStage.Ok`), and a read cursor comes
  from a query that found receipts enabled (`ReadSeen`).  `ReceiptStage.Told`
  follows a request through its calls: whether it advanced a cursor and whether
  it published that.
-/

import OneMinute.Communication.Messages

namespace OneMinute.Communication

open Discovery (UserID UnixMilli)

/-! ## Cursors -/

/-- Neither cursor is ahead of the other receipt's. -/
instance : LE Receipt := ⟨fun x y => x.deliveredID ≤ y.deliveredID ∧ x.readID ≤ y.readID⟩

/-- From `x` to `y` a cursor advanced. -/
def Receipt.Advances (x y : Receipt) : Prop := x.deliveredID < y.deliveredID ∨ x.readID < y.readID

instance (x y : Receipt) : Decidable (x.Advances y) := inferInstanceAs (Decidable (_ ∨ _))

theorem Receipt.le_refl (x : Receipt) : x ≤ x := ⟨Nat.le_refl _, Nat.le_refl _⟩

theorem Receipt.le_trans {x y z : Receipt} (h₁ : x ≤ y) (h₂ : y ≤ z) : x ≤ z :=
  ⟨Nat.le_trans h₁.1 h₂.1, Nat.le_trans h₁.2 h₂.2⟩

theorem Receipt.not_advances_self (x : Receipt) : ¬ x.Advances x := by
  unfold Advances
  omega

/-- The larger of the two in each cursor. -/
def Receipt.join (x : Receipt) (delivered read : Nat) : Receipt :=
  ⟨max x.deliveredID delivered, max x.readID read⟩

theorem Receipt.le_join (x : Receipt) (delivered read : Nat) : x ≤ x.join delivered read :=
  ⟨Nat.le_max_left _ _, Nat.le_max_left _ _⟩

theorem Receipt.advances_join {x : Receipt} {delivered read : Nat} :
    x.Advances (x.join delivered read) ↔ x.deliveredID < delivered ∨ x.readID < read := by
  unfold Advances join
  simp only [lt_max_iff, Nat.lt_irrefl, false_or]

namespace Tables

theorem cursor_setReceipt (t : Tables) (c : String) (u : UserID) (x : Receipt) (c' : String)
    (u' : UserID) : (t.setReceipt c u x).cursor c' u' =
      if c' = c ∧ u' = u then x else t.cursor c' u' := by
  unfold cursor setReceipt
  by_cases h : c' = c ∧ u' = u
  · simp only [if_pos h, Option.getD_some]
  · simp only [if_neg h]

/-- The upsert, in one word. -/
theorem cursor_upsertReceipt (t : Tables) (c : String) (u : UserID) (delivered read : Nat)
    (c' : String) (u' : UserID) : (t.upsertReceipt c u delivered read).2.cursor c' u' =
      if c' = c ∧ u' = u then (t.cursor c u).join delivered read else t.cursor c' u' := by
  unfold upsertReceipt
  split
  · next hnone =>
      rw [cursor_setReceipt]
      congr 1
      rw [cursor, hnone, Option.getD_none, Receipt.join, Nat.zero_max, Nat.zero_max]
  · next x hsome =>
      have hx : t.cursor c u = x := by rw [cursor, hsome, Option.getD_some]
      rw [hx]
      split
      · exact t.cursor_setReceipt c u _ c' u'
      · next hless =>
          -- nothing to raise
          rw [not_or, Nat.not_lt, Nat.not_lt] at hless
          have hjoin : x.join delivered read = x := by
            rw [Receipt.join, Nat.max_eq_left hless.1, Nat.max_eq_left hless.2]
          rw [hjoin]
          split
          · next h => rw [h.1, h.2, hx]
          · rfl

/-- It affects a row exactly if it advances a cursor. -/
theorem changed_upsertReceipt {t : Tables} {c : String} {u : UserID} {delivered read : Nat}
    (h : 1 ≤ delivered) : (t.upsertReceipt c u delivered read).1 = true ↔
      (t.cursor c u).Advances ((t.cursor c u).join delivered read) := by
  rw [Receipt.advances_join]
  unfold upsertReceipt cursor
  split
  · next hnone =>
      rw [hnone, Option.getD_none]
      exact iff_of_true rfl (Or.inl h)
  · next x hsome =>
      rw [hsome, Option.getD_some]
      split
      · next hless => exact iff_of_true rfl hless
      · next hless => exact iff_of_false (by simp) hless

theorem cursor_congr {t t' : Tables} (h : t'.receipts = t.receipts) (c : String) (u : UserID) :
    t'.cursor c u = t.cursor c u := by
  rw [cursor, h, cursor]

end Tables

/-! ## What a receipt request has checked -/

/-- `n` is the id of a message that the other participant sent to `u` on `c`. -/
def Tables.Heard (t : Tables) (c : String) (u : UserID) (n : Nat) : Prop :=
  ∃ m ∈ t.messages, m.id = n ∧ m.connectionID = c ∧ t.db.Joins c u m.senderID

/-- The larger of two is one of them. -/
theorem of_max_ne_zero {P : Nat → Prop} {a b : Nat} (ha : a ≠ 0 → P a) (hb : b ≠ 0 → P b) :
    max a b ≠ 0 → P (max a b) := by
  rcases Nat.le_total a b with hle | hle
  · rw [Nat.max_eq_right hle]
    exact hb
  · rw [Nat.max_eq_left hle]
    exact ha

theorem Tables.Heard.grows {t t' : Tables} {c : String} {u : UserID} {n : Nat}
    (h : t.Heard c u n) (hg : t.Grows t') : t'.Heard c u n := by
  obtain ⟨m, hm, hid, hc, hjoins⟩ := h
  exact ⟨m, hg.messages.subset hm, hid, hc, hjoins.extends hg.connections⟩

theorem Tables.Quiet.grows {t t' : Tables} (h : t.Quiet t') : t.Grows t' where
  messages := h.messages ▸ List.prefix_refl _
  kept := h.kept
  connections := h.connections

theorem Tables.hasMessage_heard {t : Tables} {n : Nat} {c : String} {u p : UserID}
    (h : t.hasMessage n c p = true) (hjoins : t.db.Joins c u p) : t.Heard c u n := by
  obtain ⟨m, hm, hp⟩ := List.any_eq_true.mp h
  simp only [Bool.and_eq_true, decide_eq_true_eq] at hp
  obtain ⟨⟨hid, hc⟩, hsender⟩ := hp
  exact ⟨m, hm, hid, hc, hsender ▸ hjoins⟩

/-- What a receipt request knows at each stage up to its upsert. -/
def ReceiptStage.Ok (r : ReceiptRequest) (U : UUIDText) (t : Tables) : ReceiptStage → Prop
  | .check c p => U.cast r.id = some c ∧ 1 ≤ r.delivered ∧ t.db.Joins c r.user p
  | .settings c _ =>
    U.cast r.id = some c ∧ 1 ≤ r.delivered ∧ t.Heard c r.user r.delivered ∧ r.read = true
  | .upsert c _ read =>
    U.cast r.id = some c ∧ 1 ≤ r.delivered ∧ t.Heard c r.user r.delivered ∧
      (read = 0 ∨ read = r.delivered ∧ r.read = true)
  | .authorize | .markRead _ _ _ _ | .emit _ _ | .done _ => True

theorem ReceiptStage.Ok.grows {r : ReceiptRequest} {U : UUIDText} {t t' : Tables}
    {st : ReceiptStage} (h : st.Ok r U t) (hg : t.Grows t') : st.Ok r U t' := by
  cases st with
  | check c p =>
      obtain ⟨hpath, hpos, hjoins⟩ := h
      exact ⟨hpath, hpos, hjoins.extends hg.connections⟩
  | settings c p =>
      obtain ⟨hpath, hpos, hheard, hread⟩ := h
      exact ⟨hpath, hpos, hheard.grows hg, hread⟩
  | upsert c p read =>
      obtain ⟨hpath, hpos, hheard, hread⟩ := h
      exact ⟨hpath, hpos, hheard.grows hg, hread⟩
  | authorize | markRead | emit | done => trivial

section
variable {r : ReceiptRequest} {U : UUIDText} {d : Supply} {fault : Fault} {x x' : Shared}
  {st st' : ReceiptStage}

theorem ReceiptMove.ok (h : ReceiptMove r U d fault x st x' st') (hok : st.Ok r U x.tables) :
    st'.Ok r U x'.tables := by
  have hfinish : ∀ (t : Tables) p read changed,
      (ReceiptRequest.finish p read changed).Ok r U t := by
    intro t p read changed
    cases changed with
    | true => trivial
    | false => trivial
  cases h with
  | unauthorized | unknown | failed | upsertRead | emit => trivial
  | upsertDelivered => exact hfinish _ _ _ _
  | markRead => exact hfinish _ _ _ _
  | authorize hpeer hvalid =>
      obtain ⟨hpath, hjoins, _⟩ := Tables.peer_eq_some hpeer
      refine ⟨hpath, ?_, hjoins⟩
      rw [ReceiptRequest.valid, Bool.and_eq_true, decide_eq_true_eq] at hvalid
      unfold ReceiptRequest.delivered
      omega
  | checkRead hfound hread =>
      obtain ⟨hpath, hpos, hjoins⟩ := hok
      exact ⟨hpath, hpos, Tables.hasMessage_heard hfound hjoins, hread⟩
  | checkDelivered hfound =>
      obtain ⟨hpath, hpos, hjoins⟩ := hok
      exact ⟨hpath, hpos, Tables.hasMessage_heard hfound hjoins, Or.inl rfl⟩
  | enabled =>
      obtain ⟨hpath, hpos, hheard, hread⟩ := hok
      exact ⟨hpath, hpos, hheard, Or.inr ⟨rfl, hread⟩⟩
  | disabled =>
      obtain ⟨hpath, hpos, hheard, _⟩ := hok
      exact ⟨hpath, hpos, hheard, Or.inl rfl⟩

/-- Only the upsert writes cursors. -/
theorem ReceiptMove.receipts (h : ReceiptMove r U d fault x st x' st') :
    x'.tables.receipts = x.tables.receipts ∨ ∃ c p read, st = .upsert c p read ∧
      x'.tables = (x.tables.upsertReceipt c r.user r.delivered read).2 := by
  cases h with
  | unauthorized | authorize | unknown | checkRead | checkDelivered | enabled | disabled | emit =>
      exact Or.inl rfl
  | @failed c p read _ _ hx' =>
      rcases hx' with rfl | rfl
      · exact Or.inl rfl
      · exact Or.inr ⟨c, p, read, rfl, rfl⟩
  | @upsertRead c p read => exact Or.inr ⟨c, p, read, rfl, rfl⟩
  | @upsertDelivered c p read => exact Or.inr ⟨c, p, read, rfl, rfl⟩
  | markRead hx' =>
      rcases hx' with rfl | rfl
      · exact Or.inl rfl
      · exact Or.inl rfl

end

section
variable {U : UUIDText} {db : Database} {s s' t : Chat} {a : Action} {as bs : List Action}

/-- Only the upsert of a receipt request writes cursors. -/
theorem ChatMove.receipts (h : ChatMove U s a s') (hs : s.Sound U) :
    s'.shared.tables.receipts = s.shared.tables.receipts ∨
      ∃ i d fault r c p read, a = .turn i d fault ∧
        s.threads[i]? = some (.receipt r (.upsert c p read)) ∧
        s'.shared.tables = (s.shared.tables.upsertReceipt c r.user r.delivered read).2 := by
  cases h with
  | spawn q => exact Or.inl rfl
  | statement => exact Or.inl (receipts_exec _ _ _)
  | @turn i d fault th th' x hi hstep =>
      cases th.step_move hstep with
      | send hcall =>
          refine Or.inl ?_
          cases (SendRequest.step_move hcall).effect hs.stored (hs.threads i _ hi) with
          | none htables => exact congrArg Tables.receipts htables
          | insert c p m _ _ _ _ _ _ _ hx' => rw [hx']; rfl
      | block hcall =>
          cases blockStep_move hcall with
          | other | endPair | commit | rollback => exact Or.inl rfl
      | @receipt r st st' hcall =>
          rcases (ReceiptRequest.step_move hcall).receipts with hsame | ⟨c, p, read, rfl, htables⟩
          · exact Or.inl hsame
          · exact Or.inr ⟨i, d, fault, r, c, p, read, rfl, hi, htables⟩

/-! ## Monotone and honest -/

/-- The invariant of the cursors. -/
structure Chat.Receipted (U : UUIDText) (s : Chat) : Prop where
  sound : s.Sound U
  threads : ∀ (i : Nat) r st, s.threads[i]? = some (.receipt r st) → st.Ok r U s.shared.tables
  order : ∀ c u, (s.shared.tables.cursor c u).readID ≤ (s.shared.tables.cursor c u).deliveredID
  delivered : ∀ c u, (s.shared.tables.cursor c u).deliveredID ≠ 0 →
    s.shared.tables.Heard c u (s.shared.tables.cursor c u).deliveredID
  read : ∀ c u, (s.shared.tables.cursor c u).readID ≠ 0 →
    s.shared.tables.Heard c u (s.shared.tables.cursor c u).readID

/-- A step writes no cursor, or joins what the request has checked. -/
theorem Chat.Receipted.cursor_step (h : s.Receipted U) (hmove : ChatMove U s a s') :
    (∀ c u, s'.shared.tables.cursor c u = s.shared.tables.cursor c u) ∨
      ∃ i d fault r c p read, a = .turn i d fault ∧
        s.threads[i]? = some (.receipt r (.upsert c p read)) ∧
        (ReceiptStage.upsert c p read).Ok r U s.shared.tables ∧
        ∀ c' u', s'.shared.tables.cursor c' u' = if c' = c ∧ u' = r.user then
          (s.shared.tables.cursor c r.user).join r.delivered read
        else s.shared.tables.cursor c' u' := by
  rcases hmove.receipts h.sound with hsame | ⟨i, d, fault, r, c, p, read, ha, hi, htables⟩
  · exact Or.inl fun c u => Tables.cursor_congr hsame c u
  · refine Or.inr ⟨i, d, fault, r, c, p, read, ha, hi, h.threads i r _ hi, fun c' u' => ?_⟩
    rw [htables]
    exact Tables.cursor_upsertReceipt _ c r.user r.delivered read c' u'

theorem Chat.Receipted.cursor_le (h : s.Receipted U) (hmove : ChatMove U s a s') (c : String)
    (u : UserID) : s.shared.tables.cursor c u ≤ s'.shared.tables.cursor c u := by
  rcases h.cursor_step hmove with hsame | ⟨i, d, fault, r, c', p, read, _, _, _, hcursor⟩
  · rw [hsame]
    exact Receipt.le_refl _
  · rw [hcursor]
    split
    · next hcu =>
        rw [hcu.1, hcu.2]
        exact Receipt.le_join _ _ _
    · exact Receipt.le_refl _

theorem receipted_init (U : UUIDText) (db : Database) : (Chat.init db).Receipted U where
  sound := sound_init U db
  threads := fun _ _ _ h => nomatch h
  order := fun _ _ => Nat.le_refl _
  delivered := fun _ _ h => absurd rfl h
  read := fun _ _ h => absurd rfl h

theorem receiptOk_step (h : s.Receipted U) (hmove : ChatMove U s a s') {i : Nat}
    {r : ReceiptRequest} {st : ReceiptStage} (hi : s'.threads[i]? = some (.receipt r st)) :
    st.Ok r U s'.shared.tables := by
  rcases hmove.receipt_origin hi with ⟨hi, _⟩ | ⟨_, rfl, _⟩ | ⟨d, fault, st₀, _, hi, hcall⟩
  · exact (h.threads i r st hi).grows (hmove.grows h.sound)
  · trivial
  · exact (ReceiptRequest.step_move hcall).ok (h.threads i r st₀ hi)

theorem receipted_step (h : s.Receipted U) (hstep : (chatMachine U db).step s a = some s') :
    s'.Receipted U := by
  have hmove := chatStep_move hstep
  have hgrows := hmove.grows h.sound
  have hsound := sound_step h.sound hstep
  have hthreads : ∀ (i : Nat) r st, s'.threads[i]? = some (.receipt r st) →
      st.Ok r U s'.shared.tables :=
    fun _ _ _ hi => receiptOk_step h hmove hi
  rcases h.cursor_step hmove with hsame | ⟨i, d, fault, r, c', p, read, _, _, hok, hcursor⟩
  · refine ⟨hsound, hthreads, fun c u => ?_, fun c u => ?_, fun c u => ?_⟩
    · rw [hsame]
      exact h.order c u
    · rw [hsame]
      exact fun hne => (h.delivered c u hne).grows hgrows
    · rw [hsame]
      exact fun hne => (h.read c u hne).grows hgrows
  · obtain ⟨_, _, hheard, hread⟩ := hok
    have hread : read ≤ r.delivered ∧ (read ≠ 0 → read = r.delivered) := by
      rcases hread with rfl | ⟨rfl, _⟩
      · exact ⟨Nat.zero_le _, fun e => absurd rfl e⟩
      · exact ⟨Nat.le_refl _, fun _ => rfl⟩
    -- each cursor of the joined row is the old or the new one
    refine ⟨hsound, hthreads, fun c u => ?_, fun c u => ?_, fun c u => ?_⟩
    · rw [hcursor]
      split
      · exact max_le_max (h.order c' r.user) hread.1
      · exact h.order c u
    · rw [hcursor]
      split
      · next hcu =>
          rw [hcu.1, hcu.2]
          exact of_max_ne_zero (fun hne => (h.delivered c' r.user hne).grows hgrows)
            (fun _ => hheard.grows hgrows)
      · exact fun hne => (h.delivered c u hne).grows hgrows
    · rw [hcursor]
      split
      · next hcu =>
          rw [hcu.1, hcu.2]
          refine of_max_ne_zero (fun hne => (h.read c' r.user hne).grows hgrows) fun hne => ?_
          rw [hread.2 hne]
          exact hheard.grows hgrows
      · exact fun hne => (h.read c u hne).grows hgrows

theorem receipted_run (hrun : (chatMachine U db).run as = some s) : s.Receipted U :=
  Machine.run_invariant (receipted_init U db) (fun _ _ _ h hstep => receipted_step h hstep) hrun

theorem cursor_le_runFrom (h : s.Receipted U) (hrun : (chatMachine U db).runFrom s bs = some t)
    (c : String) (u : UserID) : s.shared.tables.cursor c u ≤ t.shared.tables.cursor c u := by
  have hinv := Machine.runFrom_invariant (M := chatMachine U db)
    (P := fun v => v.Receipted U ∧ s.shared.tables.cursor c u ≤ v.shared.tables.cursor c u)
    (fun v a w hv hstep => ⟨receipted_step hv.1 hstep,
      Receipt.le_trans hv.2 (hv.1.cursor_le (chatStep_move hstep) c u)⟩)
    hrun ⟨h, Receipt.le_refl _⟩
  exact hinv.2

/-! ## What became of a request -/

/-- The stage's call asks the database. -/
def ReceiptStage.asks : ReceiptStage → Bool
  | .authorize | .check _ _ | .settings _ _ | .upsert _ _ _ | .markRead _ _ _ _ => true
  | .emit _ _ | .done _ => false

/-- What receipt requests ask the database goes through. -/
def ReceiptsSucceed (s : Chat) : Action → Prop
  | .turn i _ fault =>
    match s.threads[i]? with
    | some (.receipt _ st) => st.asks = true → fault = .ok
    | _ => True
  | .spawn _ | .statement _ _ => True

instance (s : Chat) : (a : Action) → Decidable (ReceiptsSucceed s a)
  | .turn i _ fault => by
    unfold ReceiptsSucceed
    dsimp only
    split <;> infer_instance
  | .spawn _ | .statement _ _ => isTrue trivial

theorem fault_eq_ok {i : Nat} {d : Supply} {fault : Fault} {r : ReceiptRequest}
    {st : ReceiptStage} (h : ReceiptsSucceed s (.turn i d fault))
    (hi : s.threads[i]? = some (.receipt r st)) (hasks : st.asks = true) : fault = .ok := by
  simp only [ReceiptsSucceed, hi] at h
  exact h hasks

/-- Request `i` has asked for its user's settings and found receipts enabled. -/
def ReadSeen (U : UUIDText) (db : Database) (as : List Action) (i : Nat) (r : ReceiptRequest)
    (c : String) : Prop :=
  ∃ d u v p, (chatMachine U db).Taken as u (.turn i d .ok) v ∧
    u.threads[i]? = some (.receipt r (.settings c p)) ∧
    (u.shared.tables.getSettings r.user).readReceipts = true

/-- Only such a request goes on to write a read cursor. -/
theorem readSeen_of_run (hrun : (chatMachine U db).run as = some s)
    (hok : (chatMachine U db).Along ReceiptsSucceed (.init db) as) {i : Nat}
    {r : ReceiptRequest} {c : String} {p : UserID} {read : Nat}
    (hi : s.threads[i]? = some (.receipt r (.upsert c p read))) (hread : read ≠ 0) :
    ReadSeen U db as i r c := by
  have hinv := Machine.run_induction (M := chatMachine U db)
    (P := fun as s => (chatMachine U db).Along ReceiptsSucceed (.init db) as →
      ∀ (i : Nat) r c p read, s.threads[i]? = some (.receipt r (.upsert c p read)) → read ≠ 0 →
        ReadSeen U db as i r c) ?_ ?_ hrun
  · exact hinv hok i r c p read hi hread
  · exact fun _ _ _ _ _ _ h => nomatch h
  · intro as s a s' hrun ih hstep hok i r c p read hi hread
    have hlast : ReceiptsSucceed s a := hok as a [] s rfl hrun
    have hmore : ReadSeen U db as i r c → ReadSeen U db (as ++ [a]) i r c := by
      rintro ⟨d, u, v, p, htaken, hu⟩
      exact ⟨d, u, v, p, htaken.append [a], hu⟩
    rcases (chatStep_move hstep).receipt_origin hi with ⟨hsame, _⟩ | ⟨_, hst, _⟩ |
      ⟨d, fault, st, rfl, hu, hcall⟩
    · exact hmore (ih hok.of_append i r c p read hsame hread)
    · cases hst
    · have hmove := ReceiptRequest.step_move hcall
      generalize s'.shared = x' at hmove
      generalize hst' : ReceiptStage.upsert c p read = st' at hmove
      cases hmove with
      | enabled henabled =>
          cases hst'
          have hfault := fault_eq_ok hlast hu rfl
          subst hfault
          exact ⟨d, s, s', p, Machine.taken_concat hrun hstep, hu,
            henabled.resolve_left fun hne => hne rfl⟩
      | checkDelivered | disabled =>
          cases hst'
          exact absurd rfl hread
      | upsertDelivered | markRead =>
          unfold ReceiptRequest.finish at hst'
          split at hst' <;> cases hst'
      | unauthorized | authorize | unknown | checkRead | failed | upsertRead | emit => cases hst'

end

/-- Between `x` and `x'` a cursor advanced. -/
def Shared.Advances (x x' : Shared) : Prop :=
  ∃ c u, (x.tables.cursor c u).Advances (x'.tables.cursor c u)

/-- Between `x` and `x'` a receipt event was emitted. -/
def Shared.Emits (x x' : Shared) : Prop :=
  ∃ peer c delivered read, x'.emitted = (peer, .receipt c delivered read) :: x.emitted

section
variable {r : ReceiptRequest} {U : UUIDText} {d : Supply} {fault : Fault} {x x' : Shared}
  {st st' : ReceiptStage} {A E : Prop}

theorem not_advances_of_receipts (h : x'.tables.receipts = x.tables.receipts) :
    ¬ x.Advances x' := by
  rintro ⟨c, u, hadvances⟩
  rw [Tables.cursor_congr h] at hadvances
  exact Receipt.not_advances_self _ hadvances

theorem not_emits_of_emitted (h : x'.emitted = x.emitted) : ¬ x.Emits x' := by
  rintro ⟨peer, c, delivered, read, hcons⟩
  rw [h] at hcons
  exact absurd hcons.symm (List.cons_ne_self _ _)

/-- The upsert affects a row exactly if a cursor advances. -/
theorem advances_upsertReceipt {c : String} {read : Nat} (hpos : 1 ≤ r.delivered)
    (hx' : x'.tables = (x.tables.upsertReceipt c r.user r.delivered read).2) :
    x.Advances x' ↔ (x.tables.upsertReceipt c r.user r.delivered read).1 = true := by
  rw [Tables.changed_upsertReceipt hpos]
  unfold Shared.Advances
  constructor
  · rintro ⟨c', u', hadvances⟩
    rw [hx', Tables.cursor_upsertReceipt] at hadvances
    split at hadvances
    · next hcu =>
        rw [hcu.1, hcu.2] at hadvances
        exact hadvances
    · exact absurd hadvances (Receipt.not_advances_self _)
  · intro hadvances
    refine ⟨c, r.user, ?_⟩
    rw [hx', Tables.cursor_upsertReceipt, if_pos ⟨rfl, rfl⟩]
    exact hadvances

/-- What a request has done at each stage: `A` that it advanced a cursor, `E`
    that it emitted an event. -/
def ReceiptStage.Told (A E : Prop) : ReceiptStage → Prop
  | .authorize | .check _ _ | .settings _ _ | .upsert _ _ _ => ¬ A ∧ ¬ E
  | .markRead _ _ _ changed => (A ↔ changed = true) ∧ ¬ E
  | .emit _ _ => A ∧ ¬ E
  | .done _ => E ↔ A

theorem told_finish {p : UserID} {read : Nat} {changed : Bool} (hA : A ↔ changed = true)
    (hE : ¬ E) : (ReceiptRequest.finish p read changed).Told A E := by
  cases changed with
  | true => exact ⟨hA.mpr rfl, hE⟩
  | false => exact iff_of_false hE fun h => nomatch hA.mp h

/-- The upsert, by a request that has done nothing yet. -/
theorem told_upsertReceipt {c : String} {p : UserID} {read : Nat} (hpos : 1 ≤ r.delivered)
    (ht : (ReceiptStage.upsert c p read).Told A E)
    (htables : x'.tables = (x.tables.upsertReceipt c r.user r.delivered read).2)
    (hemitted : x'.emitted = x.emitted) :
    (A ∨ x.Advances x' ↔ (x.tables.upsertReceipt c r.user r.delivered read).1 = true) ∧
      ¬ (E ∨ x.Emits x') := by
  constructor
  · rw [or_iff_right ht.1]
    exact advances_upsertReceipt hpos htables
  · rw [or_iff_left (not_emits_of_emitted hemitted)]
    exact ht.2

theorem ReceiptMove.told (h : ReceiptMove r U d fault x st x' st') (hok : st.Ok r U x.tables)
    (hfault : st.asks = true → fault = .ok) (ht : st.Told A E) :
    st'.Told (A ∨ x.Advances x') (E ∨ x.Emits x') := by
  -- a call that neither advances nor emits
  have hneither : x'.tables.receipts = x.tables.receipts → x'.emitted = x.emitted →
      (A ∨ x.Advances x' ↔ A) ∧ (E ∨ x.Emits x' ↔ E) := fun hreceipts hemitted =>
    ⟨or_iff_left (not_advances_of_receipts hreceipts), or_iff_left (not_emits_of_emitted hemitted)⟩
  cases h with
  | unauthorized | unknown =>
      obtain ⟨hA, hE⟩ := hneither rfl rfl
      rw [hA, hE]
      exact iff_of_false ht.2 ht.1
  | authorize | checkRead | checkDelivered | enabled | disabled =>
      obtain ⟨hA, hE⟩ := hneither rfl rfl
      rw [hA, hE]
      exact ht
  | failed hne => exact absurd (hfault rfl) hne
  | upsertRead => exact told_upsertReceipt hok.2.1 ht rfl rfl
  | upsertDelivered => exact And.elim told_finish (told_upsertReceipt hok.2.1 ht rfl rfl)
  | markRead hx' =>
      have hsame : x'.tables.receipts = x.tables.receipts ∧ x'.emitted = x.emitted := by
        rcases hx' with rfl | rfl
        · exact ⟨rfl, rfl⟩
        · exact ⟨rfl, rfl⟩
      obtain ⟨hA, hE⟩ := hneither hsame.1 hsame.2
      rw [hA, hE]
      exact told_finish ht.1 ht.2
  | emit => exact iff_of_true (Or.inr ⟨_, _, _, _, rfl⟩) (Or.inl ht.1)

end

/-- Some call of request `i` in the run is as `R` says. -/
def Did (U : UUIDText) (db : Database) (R : Shared → Shared → Prop) (as : List Action)
    (i : Nat) : Prop :=
  ∃ d fault u v, (chatMachine U db).Taken as u (.turn i d fault) v ∧ R u.shared v.shared

section
variable {U : UUIDText} {db : Database} {s s' t : Chat} {a : Action} {as bs : List Action}
  {R : Shared → Shared → Prop} {i : Nat}

theorem did_concat_turn {d : Supply} {fault : Fault} (hrun : (chatMachine U db).run as = some s)
    (hstep : (chatMachine U db).step s (.turn i d fault) = some s') :
    Did U db R (as ++ [.turn i d fault]) i ↔ Did U db R as i ∨ R s.shared s'.shared := by
  unfold Did
  constructor
  · rintro ⟨d', fault', u, v, htaken, hR⟩
    rcases (Machine.taken_concat_iff hrun hstep).mp htaken with htaken | ⟨rfl, _, rfl⟩
    · exact Or.inl ⟨d', fault', u, v, htaken, hR⟩
    · exact Or.inr hR
  · rintro (⟨d', fault', u, v, htaken, hR⟩ | hR)
    · exact ⟨d', fault', u, v, htaken.append _, hR⟩
    · exact ⟨d, fault, s, s', Machine.taken_concat hrun hstep, hR⟩

theorem did_concat_other (hrun : (chatMachine U db).run as = some s)
    (hstep : (chatMachine U db).step s a = some s') (ha : ∀ d fault, a ≠ .turn i d fault) :
    Did U db R (as ++ [a]) i ↔ Did U db R as i := by
  unfold Did
  constructor
  · rintro ⟨d, fault, u, v, htaken, hR⟩
    rcases (Machine.taken_concat_iff hrun hstep).mp htaken with htaken | ⟨_, e, _⟩
    · exact ⟨d, fault, u, v, htaken, hR⟩
    · exact absurd e.symm (ha d fault)
  · rintro ⟨d, fault, u, v, htaken, hR⟩
    exact ⟨d, fault, u, v, htaken.append _, hR⟩

theorem ChatMove.length_le (h : ChatMove U s a s') : s.threads.length ≤ s'.threads.length := by
  cases h with
  | spawn q => simp
  | turn => simp
  | statement => exact Nat.le_refl _

/-- Only requests of the list have made calls. -/
theorem did_lt (hrun : (chatMachine U db).run as = some s) (h : Did U db R as i) :
    i < s.threads.length := by
  have hinv := Machine.run_induction (M := chatMachine U db)
    (P := fun as s => ∀ i, Did U db R as i → i < s.threads.length) ?_ ?_ hrun
  · exact hinv i h
  · rintro i ⟨d, fault, u, v, ⟨pre, post, hsplit, _, _⟩, _⟩
    exact absurd hsplit.symm (by simp)
  · intro as s a s' hrun ih hstep i hdid
    have hmove := chatStep_move hstep
    by_cases ha : ∃ d fault, a = .turn i d fault
    · obtain ⟨d, fault, rfl⟩ := ha
      refine Nat.lt_of_lt_of_le ?_ hmove.length_le
      cases hmove with
      | turn hi => exact (List.getElem?_eq_some_iff.mp hi).1
    · have hother : ∀ d fault, a ≠ .turn i d fault := fun d fault e => ha ⟨d, fault, e⟩
      exact Nat.lt_of_lt_of_le (ih i ((did_concat_other hrun hstep hother).mp hdid)) hmove.length_le

theorem told_of_run (hrun : (chatMachine U db).run as = some s)
    (hok : (chatMachine U db).Along ReceiptsSucceed (.init db) as) {r : ReceiptRequest}
    {st : ReceiptStage} (hi : s.threads[i]? = some (.receipt r st)) :
    st.Told (Did U db Shared.Advances as i) (Did U db Shared.Emits as i) := by
  have hinv := Machine.run_induction (M := chatMachine U db)
    (P := fun as s => (chatMachine U db).Along ReceiptsSucceed (.init db) as →
      ∀ (i : Nat) r st, s.threads[i]? = some (.receipt r st) →
        st.Told (Did U db Shared.Advances as i) (Did U db Shared.Emits as i)) ?_ ?_ hrun
  · exact hinv hok i r st hi
  · exact fun _ _ _ _ h => nomatch h
  · intro as s a s' hrun ih hstep hok i r st hi
    have hlast : ReceiptsSucceed s a := hok as a [] s rfl hrun
    rcases (chatStep_move hstep).receipt_origin hi with ⟨hsame, hother⟩ | ⟨hnew, rfl, hother⟩ |
      ⟨d, fault, st₀, rfl, hu, hcall⟩
    · rw [did_concat_other hrun hstep hother, did_concat_other hrun hstep hother]
      exact ih hok.of_append i r st hsame
    · -- a new request has made no call
      rw [did_concat_other hrun hstep hother, did_concat_other hrun hstep hother]
      have hnone : ∀ R, ¬ Did U db R as i := fun R hdid =>
        absurd (did_lt hrun hdid) (by omega)
      exact ⟨hnone _, hnone _⟩
    · rw [did_concat_turn hrun hstep, did_concat_turn hrun hstep]
      exact (ReceiptRequest.step_move hcall).told ((receipted_run hrun).threads i r st₀ hu)
        (fault_eq_ok hlast hu) (ih hok.of_append i r st₀ hu)

/-- In every run in which what receipt requests ask the database goes through:
    neither cursor goes back; the read cursor is not ahead of the delivered one;
    each is 0 or the id of a message that the other participant sent; the read
    cursor advances only for a request with read = true that found receipts
    enabled; and an answered request has emitted an event exactly if it advanced a
    cursor. -/
theorem receipts_monotone_honest (hrun : (chatMachine U db).run as = some s)
    (hok : (chatMachine U db).Along ReceiptsSucceed (.init db) as) :
    (∀ bs t c u, (chatMachine U db).runFrom s bs = some t →
        s.shared.tables.cursor c u ≤ t.shared.tables.cursor c u) ∧
      (∀ c u, (s.shared.tables.cursor c u).readID ≤ (s.shared.tables.cursor c u).deliveredID) ∧
      (∀ c u n, n = (s.shared.tables.cursor c u).deliveredID ∨
        n = (s.shared.tables.cursor c u).readID → n ≠ 0 → s.shared.tables.Heard c u n) ∧
      (∀ pre a post u v c w, as = pre ++ a :: post → (chatMachine U db).run pre = some u →
        (chatMachine U db).step u a = some v →
        (u.shared.tables.cursor c w).readID < (v.shared.tables.cursor c w).readID →
        ∃ i d r p, a = .turn i d .ok ∧
          u.threads[i]? =
            some (.receipt r (.upsert c p (v.shared.tables.cursor c w).readID)) ∧
          r.user = w ∧ U.cast r.id = some c ∧ r.read = true ∧ ReadSeen U db pre i r c) ∧
      ∀ i r status, s.threads[i]? = some (.receipt r (.done status)) →
        (Did U db Shared.Emits as i ↔ Did U db Shared.Advances as i) := by
  have hs := receipted_run hrun
  refine ⟨?_, hs.order, ?_, ?_, ?_⟩
  · exact fun bs t c u hmore => cursor_le_runFrom hs hmore c u
  · rintro c u n (rfl | rfl) hne
    · exact hs.delivered c u hne
    · exact hs.read c u hne
  · intro pre a post u v c w hsplit hpre hstep hless
    have hu := receipted_run hpre
    rcases hu.cursor_step (chatStep_move hstep) with hsame |
      ⟨i, d, fault, r, c', p, read, rfl, hi, hstage, hcursor⟩
    · rw [hsame] at hless
      exact absurd hless (Nat.lt_irrefl _)
    · rw [hcursor] at hless ⊢
      split at hless
      · next hcw =>
          obtain ⟨rfl, rfl⟩ := hcw
          -- the join has a larger read cursor, so it is the request's
          have hlt : (u.shared.tables.cursor c r.user).readID < read := by
            simpa [Receipt.join] using hless
          have hjoin : ((u.shared.tables.cursor c r.user).join r.delivered read).readID = read :=
            Nat.max_eq_right (Nat.le_of_lt hlt)
          obtain ⟨hpath, _, _, hread⟩ := hstage
          have hne : read ≠ 0 := by omega
          have hfault : fault = .ok := fault_eq_ok (hok pre _ post u hsplit hpre) hi rfl
          rw [hsplit] at hok
          refine ⟨i, d, r, p, by rw [hfault], ?_, rfl, hpath, (hread.resolve_left hne).2, ?_⟩
          · rw [if_pos ⟨rfl, rfl⟩, hjoin]
            exact hi
          · exact readSeen_of_run hpre hok.of_append hi hne
      · exact absurd hless (Nat.lt_irrefl _)
  · exact fun i r status hi => told_of_run hrun hok hi

end

/-- Ben's receipt for Ann's message, read or only delivered. -/
def bensReceipt (read : Bool) : ReceiptRequest :=
  { user := "ben", id := withBen, messageID := 1, read }

/-- Ann's message to Ben; he reads it with receipts turned off, turns them on,
    reports it delivered once more, and reads it again. -/
def heard : List Action :=
  [.spawn (.send (annsSend withBen "Hello"))] ++ calls 0 9
    ++ [.statement (.putSettings "ben" ⟨"system", true, true, false⟩) 0]
    ++ [.spawn (.receipt (bensReceipt true))] ++ calls 1 6
    ++ [.statement (.putSettings "ben" ⟨"system", true, true, true⟩) 0]
    ++ [.spawn (.receipt (bensReceipt false))] ++ calls 2 3
    ++ [.spawn (.receipt (bensReceipt true))] ++ calls 3 6

theorem receipts_monotone_honest_heard : ∃ s,
    (chatMachine canonicalUUIDs annsConnections).run heard = some s ∧
      s.shared.tables.cursor withBen "ben" = ⟨1, 1⟩ ∧
      s.shared.emitted.map Prod.fst = ["ann", "ann", "ann", "ben"] ∧
      s.shared.tables.Heard withBen "ben" 1 ∧
      (Did canonicalUUIDs annsConnections Shared.Emits heard 2 ↔
        Did canonicalUUIDs annsConnections Shared.Advances heard 2) := by
  have hobs : ((chatMachine canonicalUUIDs annsConnections).run heard).map (fun s =>
      (s.shared.tables.cursor withBen "ben", s.shared.emitted.map Prod.fst, s.threads[2]?)) =
        some (⟨1, 1⟩, ["ann", "ann", "ann", "ben"],
          some (.receipt (bensReceipt false) (.done 200))) := by
    decide +kernel
  have hok : (chatMachine canonicalUUIDs annsConnections).Along ReceiptsSucceed
      (.init annsConnections) heard := by
    decide +kernel
  obtain ⟨s, hs, hobs⟩ := Option.map_eq_some_iff.mp hobs
  simp only [Prod.mk.injEq] at hobs
  obtain ⟨hcursor, hemitted, hdone⟩ := hobs
  obtain ⟨_, _, hheard, _, htold⟩ := receipts_monotone_honest hs hok
  refine ⟨s, hs, hcursor, hemitted, hheard withBen "ben" 1 ?_ Nat.one_ne_zero, htold 2 _ _ hdone⟩
  rw [hcursor]
  exact Or.inl rfl

end OneMinute.Communication
