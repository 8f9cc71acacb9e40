/-
  OneMinute.Signaling.Lab

  The networking room of the lab: the keys `lab:room:<room>` and
  `lab:presence:<conn>`, and the scripts of join, signal and leave.

  A room has the slots `a` and `b` in its hash, and the presence of a peer is a
  key of its own, with its own expiry.  What carries the results is that, as long
  as the hash is there, its slots are the connections admitted so far, in order
  (`RoomInv.slots`); a hash that is gone does not come back, since a room is
  created once.
-/

import OneMinute.Lib.Keyspace
import OneMinute.Lib.Machine
import Mathlib.Data.List.Nodup

namespace OneMinute.Signaling

/-! ## Keys and scripts -/

/-- The fields `a` and `b` of a room's hash, beside `created`. -/
structure Room where
  a : Option String := none
  b : Option String := none
deriving DecidableEq, Repr

/-- What is published on `lab:conn:<conn>`. -/
inductive LabEvent where
  /-- `match.found`, with `offerer`. -/
  | found (matchID : String) (offerer : Bool)
  /-- `match.ended`. -/
  | ended (matchID : String) (reason : String)
  /-- A frame of the peer, as it is. -/
  | relayed (payload : String)
deriving DecidableEq, Repr

structure LabStore where
  clock : Nat
  rooms : Keyspace String Room
  presence : Keyspace String Unit

namespace LabStore

def empty : LabStore := ⟨0, .empty, .empty⟩

/-- The instant `seconds` from now. -/
def ttl (s : LabStore) (seconds : Nat) : Nat := s.clock + 1000 * seconds

/-- The presence key is there. -/
def present (s : LabStore) (conn : String) : Bool := (s.presence.get conn).isSome

/-- A script's reply, the store it left and what it published, as
    (connection, event). -/
structure Answer where
  reply : Nat
  store : LabStore
  published : List (String × LabEvent)

/-- `rooms`: a hash without slots, for ten minutes. -/
def create (s : LabStore) (room : String) : Answer :=
  ⟨1, { s with rooms := (s.rooms.modify room {} id).expire room (s.ttl 600) }, []⟩

/-- SET of the presence and HSET of a slot. -/
def seat (s : LabStore) (room conn : String) (slot : Room → Room) : LabStore :=
  { s with
    presence := s.presence.put conn () (some (s.ttl 40))
    rooms := s.rooms.modify room {} slot }

def joinScript (s : LabStore) (room conn : String) : Answer :=
  match s.rooms.get room with
  | none => ⟨0, s, []⟩
  | some r =>
    if r.b.isSome then ⟨0, s, []⟩
    else
      match r.a with
      | none => ⟨1, s.seat room conn fun r => { r with a := some conn }, []⟩
      | some a =>
        if s.present a = false then ⟨0, s, []⟩
        else
          ⟨2, s.seat room conn fun r => { r with b := some conn },
            [(a, .found room true), (conn, .found room false)]⟩

/-- The slot of the other peer, for a connection in one of the slots. -/
def peerSlot (r : Room) (conn : String) : Option (Option String) :=
  if r.a = some conn then some r.b
  else if r.b = some conn then some r.a
  else none

def signalScript (s : LabStore) (room conn payload : String) : Answer :=
  let r := (s.rooms.get room).getD {}
  if r.a.isNone ∨ r.b.isNone then ⟨0, s, []⟩
  else
    match peerSlot r conn with
    | some (some peer) =>
      if s.present peer = false ∨ s.present conn = false then ⟨0, s, []⟩
      else ⟨1, s, [(peer, .relayed payload)]⟩
    | some none | none => ⟨0, s, []⟩

def leaveScript (s : LabStore) (room conn : String) : Answer :=
  match peerSlot ((s.rooms.get room).getD {}) conn with
  | none => ⟨0, s, []⟩
  | some peer =>
    ⟨1, { s with rooms := s.rooms.del room, presence := s.presence.del conn },
      peer.toList.map fun p => (p, .ended room "peer_disconnected")⟩

/-- `presence.heartbeat`: EXPIRE. -/
def heartbeat (s : LabStore) (conn : String) : Answer :=
  ⟨if s.present conn then 1 else 0, { s with presence := s.presence.expire conn (s.ttl 40) }, []⟩

/-- Time passes. -/
def advance (s : LabStore) (d : Nat) : LabStore :=
  ⟨s.clock + d, s.rooms.lapse (s.clock + d), s.presence.lapse (s.clock + d)⟩

end LabStore

/-! ## Runs -/

inductive LabOp where
  | create
  | join (conn : String)
  | signal (conn payload : String)
  | leave (conn : String)
  | heartbeat (conn : String)
  | tick (d : Nat)
deriving DecidableEq, Repr

/-- An operation that was carried out. -/
structure LabEntry where
  op : LabOp
  reply : Nat
  published : List (String × LabEvent)
deriving DecidableEq, Repr

/-- The store with the run's record of it. -/
structure LabWorld where
  store : LabStore
  log : List LabEntry

def LabOp.exec (room : String) (s : LabStore) : LabOp → LabStore.Answer
  | .create => s.create room
  | .join conn => s.joinScript room conn
  | .signal conn payload => s.signalScript room conn payload
  | .leave conn => s.leaveScript room conn
  | .heartbeat conn => s.heartbeat conn
  | .tick d => ⟨1, s.advance d, []⟩

/-- A room's id and a connection's id are drawn for one `create` and one `join`;
    nothing else is asked of who runs a script when. -/
def LabOp.Permitted (w : LabWorld) : LabOp → Prop
  | .create => ∀ e ∈ w.log, e.op ≠ .create
  | .join conn => ∀ e ∈ w.log, e.op ≠ .join conn
  | .signal _ _ | .leave _ | .heartbeat _ | .tick _ => True

instance (w : LabWorld) : (op : LabOp) → Decidable (op.Permitted w)
  | .create => inferInstanceAs (Decidable (∀ e ∈ w.log, e.op ≠ .create))
  | .join conn => inferInstanceAs (Decidable (∀ e ∈ w.log, e.op ≠ .join conn))
  | .signal _ _ | .leave _ | .heartbeat _ | .tick _ => isTrue trivial

def LabWorld.after (room : String) (w : LabWorld) (op : LabOp) : LabWorld where
  store := (op.exec room w.store).store
  log := w.log ++ [⟨op, (op.exec room w.store).reply, (op.exec room w.store).published⟩]

/-- All runs of the scripts on one room. -/
def labMachine (room : String) : Machine LabWorld LabOp where
  init := ⟨.empty, []⟩
  step w op := if op.Permitted w then some (w.after room op) else none

/-! ## What a run shows -/

/-- The connection whose join succeeded. -/
def LabEntry.admitted (e : LabEntry) : Option String :=
  match e.op with
  | .join conn => if e.reply = 0 then none else some conn
  | .create | .signal _ _ | .leave _ | .heartbeat _ | .tick _ => none

/-- `match.found`: the connection, the room, and whether it is the offerer. -/
def foundOf : String × LabEvent → Option (String × String × Bool)
  | (conn, .found matchID offerer) => some (conn, matchID, offerer)
  | (_, .ended _ _) | (_, .relayed _) => none

namespace LabWorld

/-- The connections admitted so far, in order. -/
def admitted (w : LabWorld) : List String := w.log.filterMap LabEntry.admitted

def published (w : LabWorld) : List (String × LabEvent) := w.log.flatMap LabEntry.published

/-- What was published of `match.found`. -/
def founds (w : LabWorld) : List (String × String × Bool) := w.published.filterMap foundOf

def Created (w : LabWorld) : Prop := ∃ e ∈ w.log, e.op = .create

/-- The room was created and is gone, by a leave or by its expiry. -/
def Closed (room : String) (w : LabWorld) : Prop :=
  w.Created ∧ w.store.rooms.get room = none

end LabWorld

/-- What the connections admitted are told: two of them once each, one as the
    offerer. -/
def pairing (room : String) : List String → List (String × String × Bool)
  | [x, y] => [(x, room, true), (y, room, false)]
  | _ => []

/-- The slots of a room and the record of its run. -/
structure RoomInv (room : String) (w : LabWorld) : Prop where
  slots : ∀ r, w.store.rooms.get room = some r → r.a = w.admitted[0]? ∧ r.b = w.admitted[1]?
  uncreated : ¬ w.Created → w.store.rooms.get room = none ∧ w.admitted = []
  atMostTwo : w.admitted.length ≤ 2
  once : w.admitted.Nodup
  founds : w.founds = pairing room w.admitted

/-! ## The scripts, case by case -/

section
variable {room conn payload : String} {s : LabStore} {w w' : LabWorld} {op : LabOp}

/-- `joinScript`: refused, or the first peer, or the second one. -/
inductive JoinMove (room conn : String) (s : LabStore) : LabStore.Answer → Prop where
  | refused : JoinMove room conn s ⟨0, s, []⟩
  | first (h : s.rooms.get room = some {}) :
      JoinMove room conn s ⟨1, s.seat room conn fun r => { r with a := some conn }, []⟩
  | second (a : String) (h : s.rooms.get room = some ⟨some a, none⟩)
      (hpresent : s.present a = true) :
      JoinMove room conn s ⟨2, s.seat room conn fun r => { r with b := some conn },
        [(a, .found room true), (conn, .found room false)]⟩

theorem joinScript_move : JoinMove room conn s (s.joinScript room conn) := by
  unfold LabStore.joinScript
  split
  · exact .refused
  · next r hr =>
      obtain ⟨a, b⟩ := r
      cases b with
      | some b => exact .refused
      | none =>
          cases a with
          | none => exact .first hr
          | some a =>
              by_cases hpresent : s.present a = false
              · rw [if_neg (by simp)]
                dsimp only
                rw [if_pos hpresent]
                exact .refused
              · rw [if_neg (by simp)]
                dsimp only
                rw [if_neg hpresent]
                exact .second a hr (by simpa using hpresent)

/-- `signalScript` leaves the store as it is and sends at most one frame, from
    one slot to the other, both present. -/
theorem signalScript_spec (room conn payload : String) (s : LabStore) :
    (s.signalScript room conn payload).store = s ∧
    ((s.signalScript room conn payload).published = [] ∨
      ∃ r peer, s.rooms.get room = some r ∧
        ((r.a = some conn ∧ r.b = some peer) ∨ (r.b = some conn ∧ r.a = some peer)) ∧
        s.present peer = true ∧ s.present conn = true ∧
        (s.signalScript room conn payload).published = [(peer, .relayed payload)]) := by
  unfold LabStore.signalScript
  dsimp only
  by_cases hslots : ((s.rooms.get room).getD {}).a.isNone = true ∨
      ((s.rooms.get room).getD {}).b.isNone = true
  · rw [if_pos hslots]
    exact ⟨rfl, Or.inl rfl⟩
  · rw [if_neg hslots]
    obtain ⟨r, hr⟩ : ∃ r, s.rooms.get room = some r := by
      by_contra hnone
      rw [← Option.isSome_iff_exists, Bool.not_eq_true, Option.isSome_eq_false_iff,
        Option.isNone_iff_eq_none] at hnone
      rw [hnone] at hslots
      exact hslots (Or.inl rfl)
    rw [hr, Option.getD_some]
    split
    · next peer hpeer =>
        split
        · exact ⟨rfl, Or.inl rfl⟩
        · next hpresent =>
            rw [not_or, Bool.not_eq_false, Bool.not_eq_false] at hpresent
            refine ⟨rfl, Or.inr ⟨r, peer, rfl, ?_, hpresent.1, hpresent.2, rfl⟩⟩
            unfold LabStore.peerSlot at hpeer
            split at hpeer
            · next ha => exact Or.inl ⟨ha, Option.some.inj hpeer⟩
            · obtain ⟨hb, hpeer⟩ := Option.ite_none_right_eq_some.mp hpeer
              exact Or.inr ⟨hb, Option.some.inj hpeer⟩
    · exact ⟨rfl, Or.inl rfl⟩
    · exact ⟨rfl, Or.inl rfl⟩

/-- `leaveScript` by one of the slots ends the room. -/
theorem leaveScript_spec (room conn : String) (s : LabStore) :
    (s.leaveScript room conn).store.rooms.get room = none ∨
      (s.leaveScript room conn).store = s ∧ ∀ r, s.rooms.get room = some r →
        r.a ≠ some conn ∧ r.b ≠ some conn := by
  unfold LabStore.leaveScript
  split
  · next hslot =>
      refine Or.inr ⟨rfl, fun r hr => ?_⟩
      rw [hr, Option.getD_some, LabStore.peerSlot] at hslot
      split at hslot
      · cases hslot
      · next ha =>
          split at hslot
          · cases hslot
          · next hb => exact ⟨ha, hb⟩
  · refine Or.inl ?_
    show (s.rooms.del room).get room = none
    rw [Keyspace.get_del, if_pos rfl]

/-! ## One operation -/

theorem admitted_after : (w.after room op).admitted = w.admitted ++ (LabEntry.admitted
    ⟨op, (op.exec room w.store).reply, (op.exec room w.store).published⟩).toList :=
  List.filterMap_append

theorem published_after :
    (w.after room op).published = w.published ++ (op.exec room w.store).published := by
  unfold LabWorld.published LabWorld.after
  rw [List.flatMap_append, List.flatMap_singleton]

theorem founds_after :
    (w.after room op).founds = w.founds ++ (op.exec room w.store).published.filterMap foundOf := by
  unfold LabWorld.founds
  rw [published_after, List.filterMap_append]

theorem created_after : (w.after room op).Created ↔ w.Created ∨ op = .create := by
  unfold LabWorld.Created LabWorld.after
  simp only [List.mem_append, List.mem_singleton, or_and_right, exists_or]
  refine or_congr_right ⟨?_, fun h => ⟨_, rfl, h⟩⟩
  rintro ⟨e, rfl, h⟩
  exact h

theorem joined_of_admitted (h : conn ∈ w.admitted) : ∃ e ∈ w.log, e.op = .join conn := by
  obtain ⟨e, he, hconn⟩ := List.mem_filterMap.mp h
  refine ⟨e, he, ?_⟩
  unfold LabEntry.admitted at hconn
  split at hconn
  · next conn' hop =>
      obtain ⟨-, hconn⟩ := Option.ite_none_left_eq_some.mp hconn
      rw [hop, Option.some.inj hconn]
  all_goals cases hconn

theorem labStep_eq_some : (labMachine room).step w op = some w' ↔
    op.Permitted w ∧ w' = w.after room op := by
  rw [labMachine, Option.ite_none_right_eq_some, Option.some.injEq, eq_comm (a := w')]

/-- What an operation does to the room and to the record. -/
inductive LabMove (room : String) (w w' : LabWorld) : Prop where
  | quiet (hrooms : w'.store.rooms.get room = w.store.rooms.get room ∨
        w'.store.rooms.get room = none)
      (hadmitted : w'.admitted = w.admitted) (hfounds : w'.founds = w.founds)
      (hcreated : w'.Created ↔ w.Created)
  | create (hnew : ¬ w.Created)
      (hrooms : w'.store.rooms.get room = some ((w.store.rooms.get room).getD {}))
      (hadmitted : w'.admitted = w.admitted) (hfounds : w'.founds = w.founds)
      (hcreated : w'.Created)
  | first (conn : String) (hnew : conn ∉ w.admitted) (hroom : w.store.rooms.get room = some {})
      (hrooms : w'.store.rooms.get room = some ⟨some conn, none⟩)
      (hadmitted : w'.admitted = w.admitted ++ [conn]) (hfounds : w'.founds = w.founds)
      (hcreated : w'.Created ↔ w.Created)
  | second (a conn : String) (hnew : conn ∉ w.admitted)
      (hroom : w.store.rooms.get room = some ⟨some a, none⟩)
      (hrooms : w'.store.rooms.get room = some ⟨some a, some conn⟩)
      (hadmitted : w'.admitted = w.admitted ++ [conn])
      (hfounds : w'.founds = w.founds ++ [(a, room, true), (conn, room, false)])
      (hcreated : w'.Created ↔ w.Created)

theorem rooms_seat (slot : Room → Room) : (s.seat room conn slot).rooms.get room =
    some (slot ((s.rooms.get room).getD {})) := by
  unfold LabStore.seat
  rw [Keyspace.get_modify, if_pos rfl]

/-- An operation that admits nobody and publishes no `match.found`. -/
theorem LabMove.of_quiet (hop : op ≠ .create)
    (hrooms : (op.exec room w.store).store.rooms.get room = w.store.rooms.get room ∨
      (op.exec room w.store).store.rooms.get room = none)
    (hjoin : LabEntry.admitted
      ⟨op, (op.exec room w.store).reply, (op.exec room w.store).published⟩ = none)
    (hpublished : (op.exec room w.store).published.filterMap foundOf = []) :
    LabMove room w (w.after room op) := by
  refine .quiet hrooms ?_ ?_ ?_
  · rw [admitted_after, hjoin, Option.toList_none, List.append_nil]
  · rw [founds_after, hpublished, List.append_nil]
  · rw [created_after]
    exact or_iff_left hop

theorem labStep_move (hstep : (labMachine room).step w op = some w') : LabMove room w w' := by
  obtain ⟨hpermitted, rfl⟩ := labStep_eq_some.mp hstep
  cases op with
  | create =>
      refine .create (fun h => ?_) ?_ ?_ ?_ (created_after.mpr (Or.inr rfl))
      · obtain ⟨e, he, hop⟩ := h
        exact hpermitted e he hop
      · show ((w.store.rooms.modify room {} id).expire room _).get room = _
        rw [Keyspace.get_expire, Keyspace.get_modify, if_pos rfl]
        rfl
      · rw [admitted_after]
        exact List.append_nil _
      · rw [founds_after]
        exact List.append_nil _
  | join conn =>
      have hnew : conn ∉ w.admitted := by
        intro h
        obtain ⟨e, he, hop⟩ := joined_of_admitted h
        exact hpermitted e he hop
      have hcreated : (w.after room (.join conn)).Created ↔ w.Created := by
        rw [created_after]
        exact or_iff_left (by simp)
      have hadmitted : (w.after room (.join conn)).admitted = w.admitted ++
          (LabEntry.admitted ⟨.join conn, (w.store.joinScript room conn).reply,
            (w.store.joinScript room conn).published⟩).toList := admitted_after
      have hfounds : (w.after room (.join conn)).founds = w.founds ++
          (w.store.joinScript room conn).published.filterMap foundOf := founds_after
      have hstore : (w.after room (.join conn)).store = (w.store.joinScript room conn).store := rfl
      generalize hanswer : w.store.joinScript room conn = answer at hadmitted hfounds hstore
      cases (hanswer ▸ joinScript_move : JoinMove room conn w.store answer) with
      | refused =>
          refine .quiet (Or.inl (by rw [hstore])) ?_ ?_ hcreated
          · rw [hadmitted]
            exact List.append_nil _
          · rw [hfounds]
            exact List.append_nil _
      | first h =>
          refine .first conn hnew h ?_ ?_ ?_ hcreated
          · rw [hstore, rooms_seat, h]
            rfl
          · rw [hadmitted]
            rfl
          · rw [hfounds]
            exact List.append_nil _
      | second a h hpresent =>
          refine .second a conn hnew h ?_ ?_ ?_ hcreated
          · rw [hstore, rooms_seat, h]
            rfl
          · rw [hadmitted]
            rfl
          · rw [hfounds]
            rfl
  | signal conn payload =>
      obtain ⟨hstore, hpublished⟩ := signalScript_spec room conn payload w.store
      refine .of_quiet (by simp) (Or.inl (by rw [LabOp.exec, hstore])) rfl ?_
      rcases hpublished with h | ⟨_, peer, _, _, _, _, h⟩
      · rw [LabOp.exec, h]
        rfl
      · rw [LabOp.exec, h]
        rfl
  | leave conn =>
      refine .of_quiet (by simp) ?_ rfl ?_
      · rcases leaveScript_spec room conn w.store with h | ⟨h, -⟩
        · exact Or.inr h
        · exact Or.inl (by rw [LabOp.exec, h])
      · unfold LabOp.exec LabStore.leaveScript
        dsimp only
        split
        · rfl
        · next peer _ =>
            cases peer with
            | none => rfl
            | some p => rfl
  | heartbeat conn => exact .of_quiet (by simp) (Or.inl rfl) rfl rfl
  | tick d =>
      refine .of_quiet (by simp) ?_ rfl rfl
      show (w.store.rooms.lapse _).get room = _ ∨ (w.store.rooms.lapse _).get room = none
      rw [Keyspace.get_lapse]
      split
      · exact Or.inl rfl
      · exact Or.inr rfl

/-! ## Every run -/

theorem eq_singleton {l : List String} {a : String} (ha : l[0]? = some a) (hb : l[1]? = none) :
    l = [a] := by
  cases l with
  | nil => cases ha
  | cons x l =>
      cases l with
      | nil => rw [Option.some.inj ha]
      | cons y l => cases hb

theorem roomInv_init (room : String) : RoomInv room (labMachine room).init where
  slots := fun r hr => by cases hr
  uncreated := fun _ => ⟨rfl, rfl⟩
  atMostTwo := Nat.zero_le 2
  once := List.nodup_nil
  founds := rfl

theorem RoomInv.step (h : RoomInv room w) (hstep : (labMachine room).step w op = some w') :
    RoomInv room w' := by
  cases labStep_move hstep with
  | quiet hrooms hadmitted hfounds hcreated =>
      refine ⟨fun r hr => ?_, fun hnot => ?_, hadmitted ▸ h.atMostTwo, hadmitted ▸ h.once, ?_⟩
      · rcases hrooms with hsame | hnone
        · rw [hadmitted]
          exact h.slots r (hsame ▸ hr)
        · rw [hnone] at hr
          cases hr
      · obtain ⟨hroom, hnobody⟩ := h.uncreated (mt hcreated.mpr hnot)
        refine ⟨?_, hadmitted.trans hnobody⟩
        rcases hrooms with hsame | hnone
        · exact hsame.trans hroom
        · exact hnone
      · rw [hfounds, hadmitted]
        exact h.founds
  | create hnew hrooms hadmitted hfounds hcreated =>
      obtain ⟨hroom, hnobody⟩ := h.uncreated hnew
      refine ⟨fun r hr => ?_, fun hnot => absurd hcreated hnot, hadmitted ▸ h.atMostTwo,
        hadmitted ▸ h.once, ?_⟩
      · rw [hrooms, hroom] at hr
        obtain rfl := Option.some.inj hr
        rw [hadmitted, hnobody]
        exact ⟨rfl, rfl⟩
      · rw [hfounds, hadmitted]
        exact h.founds
  | first conn hnew hroom hrooms hadmitted hfounds hcreated =>
      have hnobody : w.admitted = [] :=
        List.length_eq_zero_iff.mp (Nat.le_zero.mp
          (List.getElem?_eq_none_iff.mp (h.slots _ hroom).1.symm))
      rw [hnobody, List.nil_append] at hadmitted
      refine ⟨fun r hr => ?_, fun hnot => ?_, ?_, ?_, ?_⟩
      · rw [hrooms] at hr
        obtain rfl := Option.some.inj hr
        rw [hadmitted]
        exact ⟨rfl, rfl⟩
      · rw [(h.uncreated (mt hcreated.mpr hnot)).1] at hroom
        cases hroom
      · rw [hadmitted]
        exact Nat.le_succ 1
      · rw [hadmitted]
        exact List.nodup_singleton conn
      · rw [hfounds, hadmitted, h.founds, hnobody]
        rfl
  | second a conn hnew hroom hrooms hadmitted hfounds hcreated =>
      obtain ⟨ha, hb⟩ := h.slots _ hroom
      have hone : w.admitted = [a] := eq_singleton ha.symm hb.symm
      rw [hone] at hadmitted
      refine ⟨fun r hr => ?_, fun hnot => ?_, ?_, ?_, ?_⟩
      · rw [hrooms] at hr
        obtain rfl := Option.some.inj hr
        rw [hadmitted]
        exact ⟨rfl, rfl⟩
      · rw [(h.uncreated (mt hcreated.mpr hnot)).1] at hroom
        cases hroom
      · rw [hadmitted]
        exact Nat.le_refl 2
      · rw [hadmitted]
        rw [hone, List.mem_singleton] at hnew
        exact List.nodup_cons.mpr ⟨fun hmem => hnew (List.mem_singleton.mp hmem).symm,
          List.nodup_singleton conn⟩
      · rw [hfounds, hadmitted, h.founds, hone]
        rfl

theorem roomInv_run {ops : List LabOp} (hrun : (labMachine room).run ops = some w) :
    RoomInv room w :=
  Machine.run_invariant (roomInv_init room) (fun _ _ _ h hstep => h.step hstep) hrun

/-- Nobody leaves the record. -/
theorem admitted_prefix {ops : List LabOp} (hrun : (labMachine room).runFrom w ops = some w') :
    w.admitted <+: w'.admitted := by
  refine Machine.runFrom_invariant (P := fun v => w.admitted <+: v.admitted) ?_ hrun
    (List.prefix_refl _)
  intro u op v h hstep
  obtain ⟨-, rfl⟩ := labStep_eq_some.mp hstep
  rw [admitted_after]
  exact h.trans (List.prefix_append _ _)

/-- While the hash is there, an admitted connection is in one of its slots. -/
theorem RoomInv.slot_of_admitted {r : Room} (h : RoomInv room w)
    (hroom : w.store.rooms.get room = some r) (hconn : conn ∈ w.admitted) :
    r.a = some conn ∨ r.b = some conn := by
  obtain ⟨ha, hb⟩ := h.slots r hroom
  obtain ⟨i, hi, hget⟩ := List.getElem_of_mem hconn
  have hat : w.admitted[i]? = some conn := by rw [List.getElem?_eq_getElem hi, hget]
  have hle := h.atMostTwo
  obtain rfl | rfl : i = 0 ∨ i = 1 := by omega
  · exact Or.inl (ha.trans hat)
  · exact Or.inr (hb.trans hat)

/-- Two slots are all that were admitted. -/
theorem RoomInv.pair {a b : String} (h : RoomInv room w)
    (hroom : w.store.rooms.get room = some ⟨some a, some b⟩) : w.admitted = [a, b] := by
  obtain ⟨ha, hb⟩ := h.slots _ hroom
  have hle := h.atMostTwo
  generalize w.admitted = l at ha hb hle
  cases l with
  | nil => cases ha
  | cons x l =>
      obtain rfl := Option.some.inj ha
      cases l with
      | nil => cases hb
      | cons y l =>
          obtain rfl := Option.some.inj hb
          rw [List.length_cons, List.length_cons] at hle
          rw [List.length_eq_zero_iff.mp (by omega : l.length = 0)]

/-- What is relayed goes from one admitted connection to the other, while both
    are present. -/
theorem RoomInv.relay (h : RoomInv room w)
    (hrelay : (conn, .relayed payload) ∈ (op.exec room w.store).published) :
    ∃ sender, op = .signal sender payload ∧
      (w.admitted = [sender, conn] ∨ w.admitted = [conn, sender]) ∧
      w.store.present sender = true ∧ w.store.present conn = true := by
  cases op with
  | create | heartbeat | tick => exact absurd hrelay List.not_mem_nil
  | join conn' =>
      change _ ∈ (w.store.joinScript room conn').published at hrelay
      have hmove : JoinMove room conn' w.store (w.store.joinScript room conn') := joinScript_move
      generalize w.store.joinScript room conn' = answer at hrelay hmove
      cases hmove with
      | refused | first => exact absurd hrelay List.not_mem_nil
      | second => simp at hrelay
  | signal sender payload' =>
      change _ ∈ (w.store.signalScript room sender payload').published at hrelay
      obtain ⟨-, hnone | ⟨⟨a, b⟩, peer, hroom, hslots, hpeer, hsender, hone⟩⟩ :=
        signalScript_spec room sender payload' w.store
      · rw [hnone] at hrelay
        exact absurd hrelay List.not_mem_nil
      · rw [hone, List.mem_singleton, Prod.mk.injEq, LabEvent.relayed.injEq] at hrelay
        obtain ⟨rfl, rfl⟩ := hrelay
        refine ⟨sender, rfl, ?_, hsender, hpeer⟩
        rcases hslots with ⟨rfl, rfl⟩ | ⟨rfl, rfl⟩
        · exact Or.inl (h.pair hroom)
        · exact Or.inr (h.pair hroom)
  | leave conn' =>
      change _ ∈ (w.store.leaveScript room conn').published at hrelay
      unfold LabStore.leaveScript at hrelay
      split at hrelay
      · exact absurd hrelay List.not_mem_nil
      · obtain ⟨p, -, hp⟩ := List.mem_map.mp hrelay
        cases hp

/-- An admitted connection that leaves ends the room. -/
theorem RoomInv.closed_of_leave (h : RoomInv room w) (hconn : conn ∈ w.admitted) :
    (w.after room (.leave conn)).Closed room := by
  constructor
  · rw [created_after]
    refine Or.inl ?_
    by_contra hnot
    rw [(h.uncreated hnot).2] at hconn
    exact absurd hconn List.not_mem_nil
  · show (w.store.leaveScript room conn).store.rooms.get room = none
    rcases leaveScript_spec room conn w.store with hnone | ⟨hsame, hother⟩
    · exact hnone
    · rw [hsame, Option.eq_none_iff_forall_ne_some]
      intro r hroom
      obtain ⟨ha, hb⟩ := hother r hroom
      exact (h.slot_of_admitted hroom hconn).elim ha hb

/-- Without the hash a script does nothing; and it does not come back. -/
theorem closed_step (h : w.Closed room) (hstep : (labMachine room).step w op = some w') :
    w'.Closed room ∧ w'.admitted = w.admitted ∧ w'.published = w.published := by
  obtain ⟨hcreated, hroom⟩ := h
  obtain ⟨hpermitted, rfl⟩ := labStep_eq_some.mp hstep
  have hexec : (op.exec room w.store).store.rooms.get room = none ∧
      (op.exec room w.store).published = [] ∧ LabEntry.admitted
        ⟨op, (op.exec room w.store).reply, (op.exec room w.store).published⟩ = none := by
    cases op with
    | create =>
        obtain ⟨e, he, hop⟩ := hcreated
        exact absurd hop (hpermitted e he)
    | join conn =>
        have hrefused : LabOp.exec room w.store (.join conn) = ⟨0, w.store, []⟩ := by
          show w.store.joinScript room conn = _
          unfold LabStore.joinScript
          rw [hroom]
        rw [hrefused]
        exact ⟨hroom, rfl, rfl⟩
    | signal conn payload =>
        have hrefused : LabOp.exec room w.store (.signal conn payload) = ⟨0, w.store, []⟩ := by
          show w.store.signalScript room conn payload = _
          unfold LabStore.signalScript
          rw [hroom]
          rfl
        rw [hrefused]
        exact ⟨hroom, rfl, rfl⟩
    | leave conn =>
        have hrefused : LabOp.exec room w.store (.leave conn) = ⟨0, w.store, []⟩ := by
          show w.store.leaveScript room conn = _
          unfold LabStore.leaveScript
          rw [hroom]
          rfl
        rw [hrefused]
        exact ⟨hroom, rfl, rfl⟩
    | heartbeat conn => exact ⟨hroom, rfl, rfl⟩
    | tick d =>
        refine ⟨?_, rfl, rfl⟩
        show (w.store.rooms.lapse _).get room = none
        rw [Keyspace.get_lapse, hroom, ite_self]
  obtain ⟨hgone, hpublished, hadmitted⟩ := hexec
  refine ⟨⟨created_after.mpr (Or.inl hcreated), hgone⟩, ?_, ?_⟩
  · rw [admitted_after, hadmitted, Option.toList_none, List.append_nil]
  · rw [published_after, hpublished, List.append_nil]

theorem closed_run {ops : List LabOp} (h : w.Closed room)
    (hrun : (labMachine room).runFrom w ops = some w') :
    w'.Closed room ∧ w'.admitted = w.admitted ∧ w'.published = w.published := by
  refine Machine.runFrom_invariant (M := labMachine room) (P := fun v =>
    v.Closed room ∧ v.admitted = w.admitted ∧ v.published = w.published) ?_ hrun ⟨h, rfl, rfl⟩
  rintro u op v ⟨hclosed, hadmitted, hpublished⟩ hstep
  obtain ⟨hclosed', hadmitted', hpublished'⟩ := closed_step hclosed hstep
  exact ⟨hclosed', hadmitted'.trans hadmitted, hpublished'.trans hpublished⟩

/-- In every run on a room, whoever joins, signals and leaves in whatever order
    and whenever the keys expire: two connections are admitted at most, each
    once; the slots of the hash are these two, and stay so; `match.found` went to
    the two of a pair, once each, and told the first one alone to offer, and to
    nobody else; a frame goes from one admitted connection to the other, while
    both are present; and once an admitted connection has left, or the room has
    expired, nobody is admitted and nothing is published any more. -/
theorem lab_room_admits_two {ops : List LabOp} (hrun : (labMachine room).run ops = some w) :
    w.admitted.length ≤ 2 ∧ w.admitted.Nodup ∧
      (∀ r, w.store.rooms.get room = some r → r.a = w.admitted[0]? ∧ r.b = w.admitted[1]?) ∧
      (∀ more w', (labMachine room).runFrom w more = some w' → w.admitted <+: w'.admitted) ∧
      w.founds = pairing room w.admitted ∧
      (∀ (op : LabOp) conn payload, (conn, .relayed payload) ∈ (op.exec room w.store).published →
        ∃ sender, op = .signal sender payload ∧
          (w.admitted = [sender, conn] ∨ w.admitted = [conn, sender]) ∧
          w.store.present sender = true ∧ w.store.present conn = true) ∧
      (∀ conn w', conn ∈ w.admitted → (labMachine room).step w (.leave conn) = some w' →
        w'.Closed room) ∧
      (w.Closed room → ∀ more w', (labMachine room).runFrom w more = some w' →
        w'.Closed room ∧ w'.admitted = w.admitted ∧ w'.published = w.published) := by
  have h := roomInv_run hrun
  refine ⟨h.atMostTwo, h.once, h.slots, fun more w' => admitted_prefix, h.founds, ?_, ?_, ?_⟩
  · exact fun op conn payload hrelay => h.relay hrelay
  · intro conn w' hconn hstep
    obtain ⟨-, rfl⟩ := labStep_eq_some.mp hstep
    exact h.closed_of_leave hconn
  · exact fun hclosed more w' hmore => closed_run hclosed hmore

end

/-- Two of three connections are admitted; the second one signals, the first one
    leaves, and a fourth comes too late. -/
def visit : List LabOp :=
  [.create, .join "x", .tick 1000, .join "y", .join "z", .signal "y" "offer", .leave "x",
    .join "u", .signal "y" "ice"]

theorem lab_room_admits_two_visit : ∃ w, (labMachine "room").run visit = some w ∧
    w.admitted = ["x", "y"] ∧ w.founds = [("x", "room", true), ("y", "room", false)] ∧
    w.published.drop 2 = [("x", .relayed "offer"), ("y", .ended "room" "peer_disconnected")] ∧
    w.Closed "room" ∧
    ∀ more w', (labMachine "room").runFrom w more = some w' → w'.admitted = w.admitted := by
  have hobs : ((labMachine "room").run visit).map (fun w => (w.admitted, w.published,
      decide (∃ e ∈ w.log, e.op = .create), w.store.rooms.get "room")) =
        some (["x", "y"], [("x", .found "room" true), ("y", .found "room" false),
          ("x", .relayed "offer"), ("y", .ended "room" "peer_disconnected")], true, none) := by
    decide +kernel
  obtain ⟨w, hw, hobs⟩ := Option.map_eq_some_iff.mp hobs
  simp only [Prod.mk.injEq, decide_eq_true_eq] at hobs
  obtain ⟨hadmitted, hpublished, hcreated, hgone⟩ := hobs
  have h := lab_room_admits_two hw
  refine ⟨w, hw, hadmitted, ?_, ?_, ⟨hcreated, hgone⟩, fun more w' hmore => ?_⟩
  · rw [h.2.2.2.2.1, hadmitted]
    rfl
  · rw [hpublished]
    rfl
  · exact (h.2.2.2.2.2.2.2 ⟨hcreated, hgone⟩ more w' hmore).2.1

end OneMinute.Signaling
