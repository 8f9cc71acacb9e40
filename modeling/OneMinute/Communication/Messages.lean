/-
  OneMinute.Communication.Messages

  Sends are exactly once, over every schedule of sends, receipts, blocks and
  removals: a key has one row, which every reply returns and which no step
  changes, and one notice (`sends_exactly_once`).

  A send whose key stands on another connection is followed to its refusal:
  `SendStage.Refusable` is where it can be, `Doomed` keeps the row that stands in
  its way.
-/

import OneMinute.Communication.Sending

namespace OneMinute.Communication

open Discovery (UserID UnixMilli)

/-! ## The tables only grow -/

/-- Messages stay as they are, at their place; notices keep all but their read
    mark, which is not cleared; connections stay. -/
structure Tables.Grows (t t' : Tables) : Prop where
  messages : t.messages <+: t'.messages
  kept : ∀ n ∈ t.notifications, ∃ n' ∈ t'.notifications, n.Becomes n'
  connections : t.db.connections.Extends t'.db.connections

theorem Tables.Grows.refl (t : Tables) : t.Grows t where
  messages := List.prefix_refl _
  kept := fun n hn => ⟨n, hn, .refl n⟩
  connections := .refl _

theorem Tables.Grows.trans {t₁ t₂ t₃ : Tables} (h₁ : t₁.Grows t₂) (h₂ : t₂.Grows t₃) :
    t₁.Grows t₃ where
  messages := h₁.messages.trans h₂.messages
  kept := by
    intro n hn
    obtain ⟨n', hn', hb⟩ := h₁.kept n hn
    obtain ⟨n'', hn'', hb'⟩ := h₂.kept n' hn'
    exact ⟨n'', hn'', hb.trans hb'⟩
  connections := h₁.connections.trans h₂.connections

theorem Spares.grows {x x' : Shared} {j : Nat} (h : Spares x x' j) :
    x.tables.Grows x'.tables :=
  ⟨h.messages, h.kept, h.connections⟩

section
variable {U : UUIDText} {db : Database} {s s' t : Chat} {a : Action} {as bs : List Action}

theorem ChatMove.grows (h : ChatMove U s a s') (hs : s.Sound U) :
    s.shared.tables.Grows s'.shared.tables := by
  -- some request did not move
  cases a with
  | spawn q => exact (h.spares hs (j := 0) fun _ _ e => nomatch e).grows
  | statement q now => exact (h.spares hs (j := 0) fun _ _ e => nomatch e).grows
  | turn i d fault =>
      refine (h.spares hs (j := i + 1) fun d' fault' e => ?_).grows
      have hi : i = i + 1 := (Action.turn.inj e).1
      omega

/-- The step rule and its closure over runs. -/
theorem grows_runFrom (hrun : (chatMachine U db).runFrom s as = some t) (hs : s.Sound U) :
    s.shared.tables.Grows t.shared.tables := by
  have h := Machine.runFrom_invariant (M := chatMachine U db)
    (P := fun u => u.Sound U ∧ s.shared.tables.Grows u.shared.tables)
    (fun u b v hu hstep =>
      ⟨sound_step hu.1 hstep, hu.2.trans ((chatStep_move hstep).grows hu.1)⟩)
    hrun ⟨hs, .refl _⟩
  exact h.2

/-- What a run appended to the messages. -/
theorem newer_id (hrun : (chatMachine U db).runFrom s as = some t) (hs : s.Sound U)
    {m m' : Message} (hm : m ∈ s.shared.tables.messages) (hm' : m' ∈ t.shared.tables.messages)
    (hnew : m' ∉ s.shared.tables.messages) (hc : m.connectionID = m'.connectionID) :
    m.id < m'.id := by
  obtain ⟨rest, hrest⟩ := (grows_runFrom hrun hs).messages
  have horder := (sound_runFrom hrun hs).stored.order
  rw [← hrest] at horder hm'
  have hin : m' ∈ rest := (List.mem_append.mp hm').resolve_left hnew
  exact (List.pairwise_append.mp horder).2.2 m hm m' hin hc

/-! ## Exactly once -/

/-- One row for each (sender, clientId), which every 200 reply returns, and one
    notice for each row, addressed to the other participant. -/
structure Chat.ExactlyOnce (U : UUIDText) (s : Chat) : Prop where
  once : (s.shared.tables.messages.map fun m => (m.senderID, m.clientID)).Nodup
  replies : ∀ (i : Nat) r m, s.threads[i]? = some (.send r (.done (.sent m))) →
    m ∈ s.shared.tables.messages ∧ m.senderID = r.user ∧
      U.cast r.clientID = some m.clientID ∧ U.cast r.id = some m.connectionID
  noticed : ∀ m ∈ s.shared.tables.messages, ∃ n,
    s.shared.tables.notifications.filter (fun n => decide (n.about = .message m.id)) = [n] ∧
      n.connectionID = m.connectionID ∧
      s.shared.tables.db.Joins m.connectionID m.senderID n.userID

/-- A list without repetitions whose members are all `a`. -/
theorem eq_singleton_of_nodup {α : Type} {l : List α} {a : α} (hl : l.Nodup) (ha : a ∈ l)
    (h : ∀ b ∈ l, b = a) : l = [a] := by
  cases l with
  | nil => exact absurd ha List.not_mem_nil
  | cons b rest =>
      have hb := h b List.mem_cons_self
      cases rest with
      | nil => rw [hb]
      | cons c rest =>
          have hc := h c (List.mem_cons_of_mem _ List.mem_cons_self)
          rw [hb, hc] at hl
          exact absurd List.mem_cons_self (List.nodup_cons.mp hl).1

theorem Stored.notice_filter {x : Shared} (h : Stored x) {m : Message}
    (hm : m ∈ x.tables.messages) : ∃ n,
      x.tables.notifications.filter (fun n => decide (n.about = .message m.id)) = [n] ∧
        n.connectionID = m.connectionID ∧ x.tables.db.Joins m.connectionID m.senderID n.userID := by
  obtain ⟨p, hjoins, n, hn, hkey, hconn⟩ := h.noticed m hm
  obtain ⟨huser, habout⟩ := Prod.mk.inj hkey
  refine ⟨n, eq_singleton_of_nodup ?_ ?_ ?_, hconn, huser ▸ hjoins⟩
  · exact (List.Nodup.of_map _ h.noticeOnce).filter _
  · exact List.mem_filter.mpr ⟨hn, decide_eq_true habout⟩
  · intro n' hn'
    obtain ⟨hmem, habout'⟩ := List.mem_filter.mp hn'
    exact h.notice_unique hm hmem hn (of_decide_eq_true habout') habout

theorem Chat.Sound.exactlyOnce (h : s.Sound U) : s.ExactlyOnce U where
  once := h.stored.once
  replies := by
    intro i r m hi
    obtain ⟨hm, c, hrow⟩ := h.threads i _ hi
    exact ⟨hm, hrow.sender, hrow.client, hrow.connection ▸ hrow.path⟩
  noticed := fun _ hm => h.stored.notice_filter hm

/-- No call of a send changes a notice. -/
theorem send_notifications {r : SendRequest} {st st' : SendStage} {i : Nat} {x x' : Shared}
    (h : SendMove r U i x st x' st') (hx : Stored x) (hok : st.Ok r U i x) :
    x.tables.notifications <+: x'.tables.notifications := by
  cases h.effect hx hok with
  | none htables => exact htables ▸ List.prefix_refl _
  | insert c p m _ _ _ _ _ _ _ hx' =>
      rw [hx']
      exact List.prefix_append _ _

/-! ## The key on another connection -/

/-- An authorized, valid send on `c` that has not asked the index of `messages`
    yet. -/
def SendStage.Asking (c : String) : SendStage → Prop
  | .begin c' _ | .lock c' _ _ | .nextID c' _ _ | .insertMessage c' _ _ _ _ => c' = c
  | .insertNotification _ _ _ _ | .commit _ _ _ _ _ | .emitPeer _ _ | .emitSelf _
  | .authorize | .rollback _ | .done _ => False

/-- It is still to ask, or it is refused. -/
def SendStage.Refusable (c : String) : SendStage → Prop
  | .rollback _ | .done (.refused _) => True
  | st => st.Asking c

theorem SendStage.Asking.refusable {c : String} {st : SendStage} (h : st.Asking c) :
    st.Refusable c := by
  cases st with
  | begin | lock | nextID | insertMessage => exact h
  | authorize | insertNotification | commit | emitPeer | emitSelf | rollback | done => exact h.elim

/-- A row of another connection has the key of the request. -/
structure Elsewhere (x : Shared) (U : UUIDText) (r : SendRequest) (c : String) (m : Message) :
    Prop where
  mem : m ∈ x.tables.messages
  sender : m.senderID = r.user
  client : U.cast r.clientID = some m.clientID
  connection : m.connectionID ≠ c

theorem Elsewhere.find {x : Shared} {r : SendRequest} {c : String} {m : Message}
    (h : Elsewhere x U r c m) (hx : Stored x) : x.tables.find (r.user, m.clientID) = some m := by
  have hkey : m.key = (r.user, m.clientID) := by rw [Message.key, h.sender]
  cases hfind : x.tables.find (r.user, m.clientID) with
  | none => exact absurd hkey (Tables.find_eq_none hfind m h.mem)
  | some m' =>
      obtain ⟨hm', hkey'⟩ := Tables.find_eq_some hfind
      rw [hx.eq_of_key hm' h.mem (hkey'.trans hkey.symm)]

/-- Its own calls lead it to a refusal and change no table. -/
theorem SendMove.refusable {r : SendRequest} {st st' : SendStage} {i : Nat} {x x' : Shared}
    {c : String} {m : Message} (h : SendMove r U i x st x' st') (hx : Stored x)
    (hok : st.Ok r U i x) (helse : Elsewhere x U r c m) (hst : st.Refusable c) :
    st'.Refusable c ∧ x'.tables = x.tables := by
  cases h with
  | refuse => exact ⟨trivial, rfl⟩
  | abort => exact ⟨trivial, rfl⟩
  | rollback status => exact ⟨trivial, rfl⟩
  | begin t => exact ⟨hst, rfl⟩
  | lock => exact ⟨hst, rfl⟩
  | nextID => exact ⟨hst, rfl⟩
  | @insert _ p t k n _ _ hnone =>
      -- the index has an entry
      obtain ⟨_, _, hclient, _⟩ := hok
      rw [helse.client] at hclient
      rw [← Option.some.inj hclient, helse.find hx] at hnone
      cases hnone
  | @find c' p t k n _ m' _ hfind hc =>
      -- which is of another connection
      obtain ⟨_, _, hclient, _⟩ := hok
      rw [helse.client] at hclient
      rw [← Option.some.inj hclient, helse.find hx] at hfind
      have hc' : c' = c := hst
      rw [← Option.some.inj hfind, hc'] at hc
      exact absurd hc helse.connection
  | authorize | noted | note | commit | emitPeer | emitSelf => exact hst.elim

theorem Elsewhere.grows {x x' : Shared} {r : SendRequest} {c : String} {m : Message}
    (h : Elsewhere x U r c m) (hg : x.tables.Grows x'.tables) : Elsewhere x' U r c m :=
  ⟨hg.messages.subset h.mem, h.sender, h.client, h.connection⟩

/-- A send of the list moves as its code says. -/
theorem send_thread {i : Nat} {r : SendRequest} {st : SendStage}
    (h : ChatMove U s a s') (hi : s.threads[i]? = some (.send r st)) :
    s'.threads[i]? = some (.send r st) ∧ (∀ d fault, a ≠ .turn i d fault) ∨
      ∃ d fault st', a = .turn i d fault ∧ r.step U i d fault s.shared st = some (s'.shared, st') ∧
        s'.threads[i]? = some (.send r st') := by
  rcases h.thread hi with hstay | ⟨d, fault, th', ha, hstep, hi'⟩
  · exact Or.inl hstay
  · cases Thread.step_move hstep with
    | @send _ _ st' hcall => exact Or.inr ⟨d, fault, st', ha, hcall, hi'⟩

/-- A send that will be refused, with the row that stands in its way. -/
structure Doomed (U : UUIDText) (i : Nat) (r : SendRequest) (c : String) (m : Message)
    (s : Chat) : Prop where
  sound : s.Sound U
  elsewhere : Elsewhere s.shared U r c m
  thread : ∃ st, s.threads[i]? = some (.send r st) ∧ st.Refusable c

theorem Doomed.step {i : Nat} {r : SendRequest} {c : String} {m : Message}
    (h : Doomed U i r c m s) (hstep : (chatMachine U db).step s a = some s') :
    Doomed U i r c m s' ∧
      ∀ d fault, a = .turn i d fault → s'.shared.tables = s.shared.tables := by
  have hmove := chatStep_move hstep
  obtain ⟨st, hi, hst⟩ := h.thread
  have helse := h.elsewhere.grows (hmove.grows h.sound)
  rcases send_thread hmove hi with ⟨hi', hother⟩ | ⟨d, fault, st', _, hcall, hi'⟩
  · exact ⟨⟨sound_step h.sound hstep, helse, st, hi', hst⟩,
      fun d fault e => absurd e (hother d fault)⟩
  · obtain ⟨hst', htables⟩ := (SendRequest.step_move hcall).refusable h.sound.stored
      (h.sound.threads i _ hi) h.elsewhere hst
    exact ⟨⟨sound_step h.sound hstep, helse, st', hi', hst'⟩, fun _ _ _ => htables⟩

theorem Doomed.runFrom {i : Nat} {r : SendRequest} {c : String} {m : Message}
    (h : Doomed U i r c m s) (hrun : (chatMachine U db).runFrom s as = some t) :
    Doomed U i r c m t :=
  Machine.runFrom_invariant (fun _ _ _ hu hstep => (hu.step hstep).1) hrun h

/-- The calls of request `i` go through. -/
def CallsSucceed (i : Nat) (_ : Chat) : Action → Prop
  | .turn j _ fault => j = i → fault = .ok
  | .spawn _ | .statement _ _ => True

instance (i : Nat) (s : Chat) : (a : Action) → Decidable (CallsSucceed i s a)
  | .turn j _ fault => inferInstanceAs (Decidable (j = i → fault = .ok))
  | .spawn _ | .statement _ _ => isTrue trivial

theorem SendStage.Asking.joins {r : SendRequest} {st : SendStage} {i : Nat} {x : Shared}
    {c : String} (h : st.Asking c) (hok : st.Ok r U i x) : ∃ p, x.tables.db.Joins c r.user p := by
  cases st with
  | begin c' p | lock c' p =>
      cases h
      exact ⟨p, hok.2⟩
  | nextID c' p =>
      cases h
      exact ⟨p, hok.2.joins⟩
  | insertMessage c' p =>
      cases h
      exact ⟨p, hok.2.1.joins⟩
  | authorize | insertNotification | commit | emitPeer | emitSelf | rollback | done => exact h.elim

/-- A connection is active or has ended. -/
theorem active_or_ended {x : Shared} {c : String} {u p : UserID} (h : x.tables.db.Joins c u p) :
    x.tables.db.Active c ∨ x.tables.db.Ended c := by
  obtain ⟨row, hrow, hid, _⟩ := h
  cases hactive : row.active with
  | true => exact Or.inl ⟨row, hrow, hid, hactive⟩
  | false => exact Or.inr ⟨row, hrow, hid, hactive⟩

/-- The calls before the index is asked. -/
def SendStage.ahead : SendStage → Nat
  | .begin _ _ => 4
  | .lock _ _ _ => 3
  | .nextID _ _ _ => 2
  | .insertMessage _ _ _ _ _ => 1
  | .authorize | .insertNotification _ _ _ _ | .commit _ _ _ _ _ | .emitPeer _ _ | .emitSelf _
  | .rollback _ | .done _ => 0

/-- A call that goes through brings it closer to its 409. -/
theorem step_asking {r : SendRequest} {st st' : SendStage} {i : Nat} {d : Supply}
    {x x' : Shared} {c : String} {m : Message}
    (h : r.step U i d .ok x st = some (x', st')) (hx : Stored x) (hok : st.Ok r U i x)
    (helse : Elsewhere x U r c m) (hst : st.Asking c) (hactive : x.tables.db.Active c) :
    (st'.Asking c ∧ st'.ahead < st.ahead ∨ st' = .rollback 409) ∧ x.locks.Taken x'.locks i := by
  cases st with
  | begin c' p =>
      cases h
      exact ⟨Or.inl ⟨hst, Nat.lt_succ_self 3⟩, .refl _ i⟩
  | lock c' p startedAt =>
      rw [SendRequest.step, inTransaction_ok] at h
      obtain ⟨l, hl, he⟩ := Option.map_eq_some_iff.mp h
      obtain ⟨rfl, rfl⟩ := Prod.mk.inj he
      have hc : c' = c := hst
      rw [hc, if_pos (Database.isActive_eq_true.mpr hactive)]
      exact ⟨Or.inl ⟨rfl, Nat.lt_succ_self 2⟩, (Locks.acquire_eq_some hl).1⟩
  | nextID c' p startedAt =>
      rw [SendRequest.step, inTransaction_ok] at h
      split at h
      · cases h
        exact ⟨Or.inr rfl, .refl _ i⟩
      · cases h
        exact ⟨Or.inl ⟨hst, Nat.lt_succ_self 1⟩, .refl _ i⟩
  | insertMessage c' p startedAt k n =>
      rw [SendRequest.step, inTransaction_ok] at h
      obtain ⟨l, hl, he⟩ := Option.map_eq_some_iff.mp h
      obtain ⟨_, _, hclient, _⟩ := hok
      rw [helse.client] at hclient
      obtain ⟨rfl, rfl⟩ := Prod.mk.inj he
      have hc : c' = c := hst
      rw [← Option.some.inj hclient, helse.find hx, hc]
      exact ⟨Or.inr (if_neg helse.connection), (Locks.acquire_eq_some hl).1⟩
  | authorize | insertNotification | commit | emitPeer | emitSelf | rollback | done =>
      exact hst.elim

/-- While its calls go through and its connection is active, the only refusal is
    409. -/
theorem Doomed.conflict {i : Nat} {r : SendRequest} {c : String} {m : Message} {st : SendStage}
    (h : Doomed U i r c m s) (hi : s.threads[i]? = some (.send r st)) (hst : st.Asking c)
    (hrun : (chatMachine U db).runFrom s as = some t)
    (hok : (chatMachine U db).Along (CallsSucceed i) s as) (hactive : t.shared.tables.db.Active c)
    {answer : Answer} (hdone : t.threads[i]? = some (.send r (.done answer))) :
    answer = .refused 409 := by
  have hinv := Machine.runFrom_invariant_along (M := chatMachine U db)
    (P := fun u => Doomed U i r c m u ∧ ∃ st, u.threads[i]? = some (.send r st) ∧
      (st.Asking c ∨ st = .rollback 409 ∨ st = .done (.refused 409) ∨
        u.shared.tables.db.Ended c)) ?_ hrun hok ⟨h, st, hi, Or.inl hst⟩
  · obtain ⟨_, st', hi', hst'⟩ := hinv
    rw [hdone] at hi'
    cases hi'
    rcases hst' with hask | e | e | hended
    · exact hask.elim
    · cases e
    · cases e
      rfl
    · exact absurd hended hactive.not_ended
  · rintro u b v ⟨hu, st, hi, hst⟩ hb hstep
    have hmove := chatStep_move hstep
    refine ⟨(hu.step hstep).1, ?_⟩
    -- an ended connection stays ended
    by_cases hended : u.shared.tables.db.Ended c
    · obtain ⟨st', hi', _⟩ := (hu.step hstep).1.thread
      exact ⟨st', hi', Or.inr (Or.inr (Or.inr (hended.extends (hmove.grows hu.sound).connections)))⟩
    rcases send_thread hmove hi with ⟨hi', _⟩ | ⟨d, fault, st', ha, hcall, hi'⟩
    · rcases hst with hask | e | e | e
      · exact ⟨st, hi', Or.inl hask⟩
      · exact ⟨st, hi', Or.inr (Or.inl e)⟩
      · exact ⟨st, hi', Or.inr (Or.inr (Or.inl e))⟩
      · exact absurd e hended
    · refine ⟨st', hi', ?_⟩
      subst ha
      have hfault : fault = .ok := hb rfl
      subst hfault
      rcases hst with hask | rfl | rfl | e
      · have hthread := hu.sound.threads i _ hi
        obtain ⟨p, hjoins⟩ := hask.joins hthread
        have hactive' := (active_or_ended hjoins).resolve_right hended
        rcases (step_asking hcall hu.sound.stored hthread hu.elsewhere hask hactive').1 with h | h
        · exact Or.inl h.1
        · exact Or.inr (Or.inl h)
      · exact Or.inr (Or.inr (Or.inl (Prod.mk.inj (Option.some.inj hcall)).2.symm))
      · cases hcall
      · exact absurd e hended

/-- It can take its next call when nobody else holds what that call locks. -/
theorem step_asking_enabled {r : SendRequest} {st : SendStage} {i : Nat} {x : Shared}
    {c : String} {m : Message} (hok : st.Ok r U i x) (helse : Elsewhere x U r c m)
    (hst : st.Asking c) (hconn : x.locks.FreeFor i (.connection c))
    (hkey : x.locks.FreeFor i (.message (r.user, m.clientID))) :
    ∃ x' st', r.step U i {} .ok x st = some (x', st') := by
  cases st with
  | begin c' p => exact ⟨_, _, rfl⟩
  | lock c' p startedAt =>
      cases hst
      obtain ⟨l, hl⟩ := Locks.acquire_of_freeFor hconn
      rw [SendRequest.step, inTransaction_ok, hl]
      exact ⟨_, _, rfl⟩
  | nextID c' p startedAt =>
      rw [SendRequest.step, inTransaction_ok]
      split
      · exact ⟨_, _, rfl⟩
      · exact ⟨_, _, rfl⟩
  | insertMessage c' p startedAt k n =>
      obtain ⟨_, _, hclient, _⟩ := hok
      rw [helse.client] at hclient
      rw [Option.some.inj hclient] at hkey
      obtain ⟨l, hl⟩ := Locks.acquire_of_freeFor hkey
      rw [SendRequest.step, inTransaction_ok, hl]
      exact ⟨_, _, rfl⟩
  | authorize | insertNotification | commit | emitPeer | emitSelf | rollback | done =>
      exact hst.elim

theorem turn_step (db : Database) {i : Nat} {d : Supply} {fault : Fault} {r : SendRequest}
    {st st' : SendStage} {x : Shared} (hi : s.threads[i]? = some (.send r st))
    (hcall : r.step U i d fault s.shared st = some (x, st')) :
    (chatMachine U db).step s (.turn i d fault) = some ⟨x, s.threads.set i (.send r st')⟩ := by
  change s.step U (.turn i d fault) = _
  rw [Chat.step, hi, Option.bind_some, Thread.step, hcall]
  rfl

/-- With the two locks free its own calls end in the answer. -/
theorem Doomed.answered {i : Nat} {r : SendRequest} {c : String} {m : Message} {st : SendStage}
    (h : Doomed U i r c m s) (hi : s.threads[i]? = some (.send r st)) (hst : st.Asking c)
    (hactive : s.shared.tables.db.Active c) (hconn : s.shared.locks.FreeFor i (.connection c))
    (hkey : s.shared.locks.FreeFor i (.message (r.user, m.clientID))) :
    ∃ n t, (chatMachine U db).runFrom s (List.replicate n (.turn i {} .ok)) = some t ∧
      t.threads[i]? = some (.send r (.done (.refused 409))) := by
  -- by the number of calls ahead
  induction hn : st.ahead using Nat.strong_induction_on generalizing s st with
  | _ n ih =>
      subst hn
      have hthread := h.sound.threads i _ hi
      obtain ⟨x, st', hcall⟩ := step_asking_enabled hthread h.elsewhere hst hconn hkey
      have hstep := turn_step db hi hcall
      obtain ⟨hnext, htaken⟩ := step_asking hcall h.sound.stored hthread h.elsewhere hst hactive
      obtain ⟨h', htables⟩ := h.step hstep
      have htables : x.tables = s.shared.tables := htables _ _ rfl
      have hlt : i < s.threads.length := (List.getElem?_eq_some_iff.mp hi).1
      have hi' : (s.threads.set i (.send r st'))[i]? = some (.send r st') :=
        List.getElem?_set_self hlt
      rcases hnext with ⟨hask, hless⟩ | rfl
      · obtain ⟨n, t, hrun, ht⟩ := ih st'.ahead hless h' hi' hask (htables ▸ hactive)
          (hconn.taken htaken) (hkey.taken htaken) rfl
        exact ⟨n + 1, t, Machine.runFrom_cons_eq_some.mpr ⟨_, hstep, hrun⟩, ht⟩
      · -- the rollback is left
        have hcall' : r.step U i {} .ok x (.rollback 409) =
            some ({ x with locks := x.locks.release i }, .done (.refused 409)) := rfl
        have hroll := turn_step (s := ⟨x, _⟩) db hi' hcall'
        refine ⟨2, _, Machine.runFrom_cons_eq_some.mpr ⟨_, hstep,
          Machine.runFrom_cons_eq_some.mpr ⟨_, hroll, rfl⟩⟩, ?_⟩
        exact List.getElem?_set_self (by rw [List.length_set]; exact hlt)

/-- In every run: rows of one key are one row, which stays as it is and is what
    every 200 reply returns; each row has one notice for the other participant,
    whose read mark is not cleared, and a send changes no notice.  A send whose
    key stands on another connection changes no message and no notice, and is
    answered 409 when its calls go through and its connection does not end. -/
theorem sends_exactly_once (hrun : (chatMachine U db).run as = some s)
    (hmore : (chatMachine U db).runFrom s bs = some t) :
    s.ExactlyOnce U ∧ s.shared.tables.Grows t.shared.tables ∧
      (∀ i d fault r st s', s.threads[i]? = some (.send r st) →
        (chatMachine U db).step s (.turn i d fault) = some s' →
        s.shared.tables.notifications <+: s'.shared.tables.notifications) ∧
      ∀ i r st c m, s.threads[i]? = some (.send r st) → st.Asking c →
        Elsewhere s.shared U r c m →
        (∀ pre d fault post u v, bs = pre ++ .turn i d fault :: post →
          (chatMachine U db).runFrom s pre = some u →
          (chatMachine U db).step u (.turn i d fault) = some v →
          v.shared.tables.messages = u.shared.tables.messages ∧
            v.shared.tables.notifications = u.shared.tables.notifications) ∧
        (∀ m', t.threads[i]? ≠ some (.send r (.done (.sent m')))) ∧
        ((chatMachine U db).Along (CallsSucceed i) s bs → t.shared.tables.db.Active c →
          ∀ answer, t.threads[i]? = some (.send r (.done answer)) → answer = .refused 409) ∧
        (s.shared.tables.db.Active c → s.shared.locks.FreeFor i (.connection c) →
          s.shared.locks.FreeFor i (.message (r.user, m.clientID)) →
          ∃ n t', (chatMachine U db).runFrom s (List.replicate n (.turn i {} .ok)) = some t' ∧
            t'.threads[i]? = some (.send r (.done (.refused 409)))) := by
  have hs := sound_run hrun
  refine ⟨hs.exactlyOnce, grows_runFrom hmore hs, ?_, ?_⟩
  · intro i d fault r st s' hi hstep
    rcases send_thread (chatStep_move hstep) hi with ⟨_, hother⟩ | ⟨d', fault', st', _, hcall, _⟩
    · exact absurd rfl (hother d fault)
    · exact send_notifications (SendRequest.step_move hcall) hs.stored (hs.threads i _ hi)
  · intro i r st c m hi hst helse
    have hdoomed : Doomed U i r c m s := ⟨hs, helse, st, hi, hst.refusable⟩
    refine ⟨?_, ?_, ?_, ?_⟩
    · intro pre d fault post u v _ hpre hstep
      have htables := ((hdoomed.runFrom hpre).step hstep).2 d fault rfl
      exact ⟨by rw [htables], by rw [htables]⟩
    · intro m' hdone
      obtain ⟨st', hi', hst'⟩ := (hdoomed.runFrom hmore).thread
      rw [hdone] at hi'
      cases hi'
      exact hst'
    · exact fun hok hactive answer hdone => hdoomed.conflict hi hst hmore hok hactive hdone
    · exact fun hactive hconn hkey => hdoomed.answered hi hst hactive hconn hkey

end

/-- Texts in the canonical form of UUIDs. -/
def canonical (s : String) : Bool :=
  decide (s.length = 36) && s.toList.zipIdx.all fun (ch, i) =>
    if [8, 13, 18, 23].contains i then ch == '-'
    else ch.isDigit || (decide ('a' ≤ ch) && decide (ch ≤ 'f'))

/-- Both parsers take them as they stand. -/
def canonicalUUIDs : UUIDText := ⟨canonical, fun s => if canonical s then some s else none⟩

/-- The connections of Ann with Ben and with Cid. -/
def withBen : String := "00000000-0000-4000-8000-0000000000b1"

def withCid : String := "00000000-0000-4000-8000-0000000000c1"

def annsConnections : Database where
  users := fun _ => some .active
  profiles := fun _ => none
  blocks := ⟨[("cid", "dan")], by decide, by decide⟩
  encounters :=
    { rows :=
        [⟨"m1", "ann", "ben", 0, 0, "new_friends", [], .connected⟩,
          ⟨"m2", "ann", "cid", 0, 0, "new_friends", [], .connected⟩]
      primaryKey := by decide
      checked := by decide }
  connections :=
    { rows := [⟨withBen, "ann", "ben", "m1", 0, none⟩, ⟨withCid, "ann", "cid", "m2", 0, none⟩]
      primaryKey := by decide
      encounterOnce := by decide
      activePair := by decide
      checked := by decide }
  cast := canonicalUUIDs.cast

/-- Ann's message to `c`, always with one clientId. -/
def annsSend (c body : String) : SendRequest :=
  { user := "ann", id := c, body, clientID := "00000000-0000-4000-8000-00000000000a" }

/-- `n` calls of request `i` that go through. -/
def calls (i n : Nat) : List Action := List.replicate n (.turn i {} .ok)

/-- Ann's message to Ben is saved and its reply lost; she sends it again with
    another body, and then to Cid. -/
def resent : List Action :=
  [.spawn (.send (annsSend withBen "Hello"))] ++ calls 0 6 ++ [.turn 0 {} .lost]
    ++ [.spawn (.send (annsSend withBen "Hello?"))] ++ calls 1 9
    ++ [.spawn (.send (annsSend withCid "Hello"))] ++ calls 2 1

def annsMessage : Message :=
  ⟨1, withBen, "ann", "00000000-0000-4000-8000-00000000000a", "Hello", 0⟩

theorem sends_exactly_once_resent : ∃ s t,
    (chatMachine canonicalUUIDs annsConnections).run resent = some s ∧
      (chatMachine canonicalUUIDs annsConnections).runFrom s (calls 2 5) = some t ∧
      s.threads[0]? = some (.send (annsSend withBen "Hello") (.done (.refused 500))) ∧
      s.threads[1]? = some (.send (annsSend withBen "Hello?") (.done (.sent annsMessage))) ∧
      Elsewhere s.shared canonicalUUIDs (annsSend withCid "Hello") withCid annsMessage ∧
      t.threads[2]? = some (.send (annsSend withCid "Hello") (.done (.refused 409))) ∧
      s.ExactlyOnce canonicalUUIDs ∧ s.shared.tables.Grows t.shared.tables := by
  have hobs : ((chatMachine canonicalUUIDs annsConnections).run resent).map (fun s =>
      (decide (s.threads[0]? = some (.send (annsSend withBen "Hello") (.done (.refused 500))) ∧
          s.threads[1]? = some (.send (annsSend withBen "Hello?") (.done (.sent annsMessage))) ∧
          annsMessage ∈ s.shared.tables.messages),
        ((chatMachine canonicalUUIDs annsConnections).runFrom s (calls 2 5)).map fun t =>
          t.threads[2]?)) =
        some (true, some (some (.send (annsSend withCid "Hello") (.done (.refused 409))))) := by
    decide +kernel
  obtain ⟨s, hs, hobs⟩ := Option.map_eq_some_iff.mp hobs
  simp only [Prod.mk.injEq, decide_eq_true_eq] at hobs
  obtain ⟨⟨hlost, hagain, hmem⟩, hobs⟩ := hobs
  obtain ⟨t, ht, hrefused⟩ := Option.map_eq_some_iff.mp hobs
  have helse : Elsewhere s.shared canonicalUUIDs (annsSend withCid "Hello") withCid annsMessage :=
    ⟨hmem, rfl, by decide +kernel, by decide⟩
  have h := sends_exactly_once hs ht
  exact ⟨s, t, hs, ht, hlost, hagain, helse, hrefused, h.1, h.2.1⟩

end OneMinute.Communication
