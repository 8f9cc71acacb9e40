/-
  OneMinute.Communication.Signals

  What reaches a user's channel about a call.

  The invariant (`Warranted`) is on what was published: every event is of a call
  that the caller invited the callee to over a connection of theirs, comes from
  one of the two and goes to the other, and was allowed when it was sent.  It
  rests on what any turn may do to the hashes (`Evolves`): a hash is as it was,
  or rings no longer since the callee accepted, or is of a call just invited.
-/

import OneMinute.Communication.Actions
import OneMinute.Communication.Messages

namespace OneMinute.Communication

open Discovery (UserID UnixMilli)

/-! ## What becomes of the hashes -/

/-- A hash later: with the same call, and in the same state or accepted. -/
def CallHash.Becomes (accepted : Prop) (h h' : CallHash) : Prop :=
  h'.data = h.data ∧
    (h'.state = h.state ∨ accepted ∧ h.state = some .ringing ∧ h'.state = some .active)

/-- Between `w` and `w'` one call of Redis was made, or none; `accepts` says which
    hash it may have accepted. -/
structure Evolves (accepts : CallID → Prop) (w w' : CallWorld) : Prop where
  invited : w'.invited = w.invited ∨
    ∃ c, c.caller ≠ c.callee ∧ (∀ c' ∈ w.invited, c'.id ≠ c.id) ∧ w'.invited = c :: w.invited
  hash : ∀ key h', w'.store.calls.get key = some h' →
    (∃ h, w.store.calls.get key = some h ∧ h.Becomes (accepts key) h') ∨
      ∃ c ∈ w'.invited, c.id = key ∧ (∀ c' ∈ w.invited, c'.id ≠ key) ∧
        h' = ⟨some c, some .ringing⟩
  /-- No busy key takes the id of a call that is gone. -/
  busy : ∀ c ∈ w.invited, w.store.calls.get c.id = none → ∀ u,
    w'.store.busy.get u = some c.id → w.store.busy.get u = some c.id

namespace Evolves

variable {accepts : CallID → Prop} {w w' : CallWorld} {c : Call}

theorem refl (w : CallWorld) : Evolves accepts w w where
  invited := Or.inl rfl
  hash := fun _ h hh => Or.inl ⟨h, hh, rfl, Or.inl rfl⟩
  busy := fun _ _ _ _ h => h

/-- Hashes and keys only go. -/
theorem of_fewer (hinvited : w'.invited = w.invited)
    (hhash : ∀ key h, w'.store.calls.get key = some h → w.store.calls.get key = some h)
    (hbusy : ∀ u id, w'.store.busy.get u = some id → w.store.busy.get u = some id) :
    Evolves accepts w w' where
  invited := Or.inl hinvited
  hash := fun key h hh => Or.inl ⟨h, hhash key h hh, rfl, Or.inl rfl⟩
  busy := fun _ _ _ u h => hbusy u _ h

theorem mem (h : Evolves accepts w w') (hc : c ∈ w.invited) : c ∈ w'.invited := by
  rcases h.invited with hsame | ⟨c', -, -, hnew⟩
  · rwa [hsame]
  · rw [hnew]
    exact List.mem_cons_of_mem _ hc

/-- What is gone stays gone. -/
theorem gone (h : Evolves accepts w w') (hc : c ∈ w.invited)
    (hnone : w.store.calls.get c.id = none) : w'.store.calls.get c.id = none := by
  by_contra hback
  obtain ⟨h', hh'⟩ := Option.ne_none_iff_exists'.mp hback
  rcases h.hash _ h' hh' with ⟨h₀, hh₀, -⟩ | ⟨c', -, -, hnew, -⟩
  · rw [hnone] at hh₀
    cases hh₀
  · exact hnew c hc rfl

end Evolves

theorem get_free_imp {ks : Keyspace UserID CallID} {id id' : CallID} {u v : UserID}
    (h : (CallStore.free id ks v).get u = some id') : ks.get u = some id' := by
  unfold CallStore.free at h
  split at h
  · rw [Keyspace.get_del] at h
    split at h
    · cases h
    · exact h
  · exact h

theorem get_renew_imp {ks : Keyspace UserID CallID} {id id' : CallID} {t : Nat} {u v : UserID}
    (h : (CallStore.renew id t ks v).get u = some id') : ks.get u = some id' ∨ id' = id := by
  unfold CallStore.renew at h
  split at h
  · rw [Keyspace.get_expire] at h
    exact Or.inl h
  · split at h
    · rw [Keyspace.get_put] at h
      split at h
      · exact Or.inr (Option.some.inj h).symm
      · exact Or.inl h
    · exact Or.inl h

/-- A script that runs with the call of its key. -/
def CallOp.Keyed (w : CallWorld) : CallOp → Prop
  | .accept key call | .finish key call | .heartbeat key call => call.id = key
  | .invite call => (CallOp.invite call).Permitted w
  | .fetch _ | .tick _ => True

/-- The operation accepts the call. -/
def CallOp.Accepts (key : CallID) : CallOp → Prop
  | .accept k _ => k = key
  | .invite _ | .fetch _ | .finish _ _ | .heartbeat _ _ | .tick _ => False

/-- A new call takes a hash and keys that nobody had. -/
theorem evolves_invite {accepts : CallID → Prop} {w : CallWorld} {call : Call}
    (hop : (CallOp.invite call).Permitted w) : Evolves accepts w (w.after (.invite call)) := by
  obtain ⟨hne, hnew⟩ := hop
  have hinvited : (w.after (.invite call)).invited = call :: w.invited := rfl
  refine ⟨Or.inr ⟨call, hne, hnew, rfl⟩, fun key h' hget => ?_, fun c hc _ u hu => ?_⟩
  · have hget : (w.store.inviteScript call).store.calls.get key = some h' := hget
    rcases w.store.inviteScript_cases call with hno | ⟨-, -, hyes⟩
    · rw [hno] at hget
      exact Or.inl ⟨h', hget, rfl, Or.inl rfl⟩
    · rw [hyes] at hget
      simp only [CallStore.reserved, Keyspace.get_expire, Keyspace.get_modify] at hget
      split at hget
      · next hkey =>
          refine Or.inr ⟨call, by rw [hinvited]; exact List.mem_cons_self, hkey.symm, ?_,
            (Option.some.inj hget).symm⟩
          rw [hkey]
          exact hnew
      · exact Or.inl ⟨h', hget, rfl, Or.inl rfl⟩
  · have hu : (w.store.inviteScript call).store.busy.get u = some c.id := hu
    rcases w.store.inviteScript_cases call with hno | ⟨-, -, hyes⟩
    · rwa [hno] at hu
    · rw [hyes] at hu
      simp only [CallStore.reserved, Keyspace.get_put] at hu
      split_ifs at hu with h1 h2
      · exact absurd (Option.some.inj hu).symm (hnew c hc)
      · exact absurd (Option.some.inj hu).symm (hnew c hc)
      · exact hu

/-- Only the hash of the key is accepted, if it rings. -/
theorem evolves_accept (w : CallWorld) (key : CallID) (call : Call) :
    Evolves (fun k => (CallOp.accept key call).Accepts k) w (w.after (.accept key call)) := by
  refine ⟨Or.inl rfl, fun x h' hget => ?_, fun c _ _ u hu => ?_⟩
  · have hget : (w.store.acceptScript key call).store.calls.get x = some h' := hget
    unfold CallStore.acceptScript at hget
    split at hget
    · exact Or.inl ⟨h', hget, rfl, Or.inl rfl⟩
    · next hst =>
        obtain ⟨h, hh, hring⟩ := exists_hash (not_not.mp hst)
        simp only [Keyspace.get_expire, Keyspace.get_modify] at hget
        split at hget
        · next hkey =>
            rw [hh, Option.getD_some] at hget
            obtain rfl := Option.some.inj hget
            exact Or.inl ⟨h, by rw [hkey]; exact hh, rfl, Or.inr ⟨hkey.symm, hring, rfl⟩⟩
        · exact Or.inl ⟨h', hget, rfl, Or.inl rfl⟩
  · have hu : (w.store.acceptScript key call).store.busy.get u = some c.id := hu
    unfold CallStore.acceptScript at hu
    split at hu
    · exact hu
    · rwa [Keyspace.get_expire, Keyspace.get_expire] at hu

/-- A beat renews an active call, so it takes no key for one that is gone. -/
theorem evolves_heartbeat {accepts : CallID → Prop} (w : CallWorld) (call : Call) :
    Evolves accepts w (w.after (.heartbeat call.id call)) := by
  refine ⟨Or.inl rfl, fun x h' hget => ?_, fun c _ hnone u hu => ?_⟩
  · have hget : (w.store.heartbeatScript call.id call).store.calls.get x = some h' := hget
    unfold CallStore.heartbeatScript at hget
    split at hget
    · exact Or.inl ⟨h', hget, rfl, Or.inl rfl⟩
    · rw [Keyspace.get_expire] at hget
      exact Or.inl ⟨h', hget, rfl, Or.inl rfl⟩
  · have hu : (w.store.heartbeatScript call.id call).store.busy.get u = some c.id := hu
    unfold CallStore.heartbeatScript at hu
    split at hu
    · exact hu
    · next hst =>
        have hother : c.id ≠ call.id := by
          intro e
          obtain ⟨h, hh, -⟩ := exists_hash (not_not.mp hst)
          rw [e, hh] at hnone
          cases hnone
        rcases get_renew_imp hu with hu | e
        · rcases get_renew_imp hu with hu | e
          · exact hu
          · exact absurd e hother
        · exact absurd e hother

theorem evolves_after {w : CallWorld} (op : CallOp) (hop : op.Keyed w) :
    Evolves (fun key => op.Accepts key) w (w.after op) := by
  cases op with
  | fetch key => exact .of_fewer rfl (fun _ _ h => h) (fun _ _ h => h)
  | tick d =>
      exact .of_fewer rfl (fun _ _ h => (Keyspace.get_of_get_lapse h).1)
        (fun _ _ h => (Keyspace.get_of_get_lapse h).1)
  | finish key call =>
      refine .of_fewer rfl (fun x h hx => ?_) (fun u id h => get_free_imp (get_free_imp h))
      have hx : (w.store.calls.del key).get x = some h := hx
      rw [Keyspace.get_del] at hx
      split at hx
      · cases hx
      · exact hx
  | invite call => exact evolves_invite hop
  | accept key call => exact evolves_accept w key call
  | heartbeat key call =>
      obtain rfl : call.id = key := hop
      exact evolves_heartbeat w call

theorem evolves_rollback {accepts : CallID → Prop} (w : CallWorld) (call : Call) :
    Evolves accepts w { w with store := w.store.rollback call } := by
  refine .of_fewer rfl (fun x h hx => ?_) (fun u id hu => ?_)
  · have hx : (w.store.calls.del call.id).get x = some h := hx
    rw [Keyspace.get_del] at hx
    split at hx
    · cases hx
    · exact hx
  · rw [busy_rollback] at hu
    split_ifs at hu
    exact hu

/-! ## What the requests know -/

section
variable {U : UUIDText} {db : Database}

/-- In the schedule `as` the database named `p` to the user of invite `i` as the other
    end of the connection `c`. -/
def Authorized (U : UUIDText) (db : Database) (as : List CallAction) (i : Nat)
    (r : InviteRequest) (c : String) (p : UserID) : Prop :=
  ∃ u d v, (switchboardMachine U db).Taken as u (.turn i d) v ∧
    u.threads[i]? = some (.invite r .authorize) ∧
    u.shared.tables.peer U r.user r.id = some (c, p)

/-- In the schedule `as` request `i` read `call` from its hash, and `state` with it. -/
def Fetched (U : UUIDText) (db : Database) (as : List CallAction) (i : Nat)
    (r : ActionRequest) (call : Call) (state : Option CallState) : Prop :=
  ∃ u d v, (switchboardMachine U db).Taken as u (.turn i d) v ∧
    u.threads[i]? = some (.action r .fetch) ∧
    u.shared.calls.store.calls.get call.id = some ⟨some call, state⟩

/-- In the schedule `as` the database admitted the user of request `i` to the
    connection of `call`, after the request had read the call. -/
def Cleared (U : UUIDText) (db : Database) (as : List CallAction) (i : Nat)
    (r : ActionRequest) (call : Call) : Prop :=
  ∃ u d v state b, (switchboardMachine U db).Taken as u (.turn i d) v ∧
    u.threads[i]? = some (.action r (.peer state call b)) ∧
    (u.shared.tables.peer U r.user call.connectionID).isSome

/-- In the schedule `as` request `i`, the callee's, accepted `call`: it rang when its
    script ran, and is active since. -/
def AcceptedBy (U : UUIDText) (db : Database) (as : List CallAction) (i : Nat)
    (r : ActionRequest) (call : Call) : Prop :=
  ∃ u d v b, (switchboardMachine U db).Taken as u (.turn i d) v ∧
    u.threads[i]? = some (.action r (.accept call b)) ∧ r.user = call.callee ∧
    u.shared.calls.store.state call.id = some .ringing ∧
    v.shared.calls.store.state call.id = some .active

/-- In the schedule `as` the callee accepted `call`. -/
def Answered (U : UUIDText) (db : Database) (as : List CallAction) (call : Call) : Prop :=
  ∃ i r, AcceptedBy U db as i r call

section
variable {as : List CallAction} {i : Nat} {r : ActionRequest} {call : Call}

theorem Authorized.append {q : InviteRequest} {c : String} {p : UserID}
    (h : Authorized U db as i q c p) (bs : List CallAction) :
    Authorized U db (as ++ bs) i q c p := by
  obtain ⟨u, d, v, htaken, hrest⟩ := h
  exact ⟨u, d, v, htaken.append bs, hrest⟩

theorem Fetched.append {state : Option CallState} (h : Fetched U db as i r call state)
    (bs : List CallAction) : Fetched U db (as ++ bs) i r call state := by
  obtain ⟨u, d, v, htaken, hrest⟩ := h
  exact ⟨u, d, v, htaken.append bs, hrest⟩

theorem Cleared.append (h : Cleared U db as i r call) (bs : List CallAction) :
    Cleared U db (as ++ bs) i r call := by
  obtain ⟨u, d, v, state, b, htaken, hrest⟩ := h
  exact ⟨u, d, v, state, b, htaken.append bs, hrest⟩

theorem AcceptedBy.append (h : AcceptedBy U db as i r call) (bs : List CallAction) :
    AcceptedBy U db (as ++ bs) i r call := by
  obtain ⟨u, d, v, b, htaken, hrest⟩ := h
  exact ⟨u, d, v, b, htaken.append bs, hrest⟩

theorem AcceptedBy.callee (h : AcceptedBy U db as i r call) : r.user = call.callee := by
  obtain ⟨_, _, _, _, _, _, hcallee, _⟩ := h
  exact hcallee

theorem Answered.append (h : Answered U db as call) (bs : List CallAction) :
    Answered U db (as ++ bs) call := by
  obtain ⟨i, r, h⟩ := h
  exact ⟨i, r, h.append bs⟩

end

/-- The types of which a call must be active. -/
def isMedial (type : String) : Bool := ["offer", "answer", "ice", "media"].contains type

/-- What has been checked before action `i` publishes the body `b` on `call`. -/
structure Admitted (U : UUIDText) (db : Database) (as : List CallAction) (i : Nat)
    (r : ActionRequest) (call : Call) (b : ActionBody) : Prop where
  type : isCopied b.type = true ∨ isMedial b.type = true
  /-- Whoever the database does not admit ends the call and nothing else. -/
  cleared : b.type ≠ "end" → Cleared U db as i r call
  callee : b.type = "accept" ∨ b.type = "answer" → r.user = call.callee
  caller : b.type = "offer" → r.user = call.caller
  accepted : b.type = "accept" → AcceptedBy U db as i r call
  active : isMedial b.type = true → Fetched U db as i r call (some .active)
  answered : isMedial b.type = true → Answered U db as call
  session : b.type = "offer" ∨ b.type = "answer" → ∃ s,
    unmarshal Discovery.Wire.readSession b.payload = some s ∧ s.type = b.type ∧
      1 ≤ s.sdp.utf8ByteSize ∧ s.sdp.utf8ByteSize ≤ 60000
  candidate : b.type = "ice" → (b.payload.map RawMessage.size).getD 0 ≤ 6000

theorem Admitted.append {as : List CallAction} {i : Nat} {r : ActionRequest} {call : Call}
    {b : ActionBody} (h : Admitted U db as i r call b) (bs : List CallAction) :
    Admitted U db (as ++ bs) i r call b :=
  { h with
    cleared := fun hne => (h.cleared hne).append bs
    accepted := fun htype => (h.accepted htype).append bs
    active := fun hm => (h.active hm).append bs
    answered := fun hm => (h.answered hm).append bs }

/-- `call` is one that was invited, `r` names it, is of one of its parties, and has
    read it from its hash. -/
def Reads (U : UUIDText) (db : Database) (as : List CallAction) (x : Switchboard) (i : Nat)
    (r : ActionRequest) (call : Call) : Prop :=
  call ∈ x.calls.invited ∧ call.id = r.id ∧ call.Has r.user ∧
    ∃ state, Fetched U db as i r call state

/-- `c` is the connection that `id` names, and joins the two. -/
def Linked (U : UUIDText) (x : Switchboard) (id c : String) (u p : UserID) : Prop :=
  U.cast id = some c ∧ x.tables.db.Joins c u p

/-- What action `i` knows at a stage. -/
def ActionRequest.Ok (U : UUIDText) (db : Database) (as : List CallAction) (x : Switchboard)
    (i : Nat) (r : ActionRequest) : ActionStage → Prop
  | .fetch | .done _ => True
  | .peer state call _ =>
    Reads U db as x i r call ∧ Fetched U db as i r call state ∧
      (state = some .active → Answered U db as call)
  | .accept call b =>
    Reads U db as x i r call ∧ b.type = "accept" ∧ r.user = call.callee ∧
      Cleared U db as i r call
  | .finish call b =>
    Reads U db as x i r call ∧
      (b.type = "end" ∨ b.type = "decline" ∧ Cleared U db as i r call)
  | .heartbeat call => Reads U db as x i r call
  | .emit call b => Reads U db as x i r call ∧ Admitted U db as i r call b
  | .emitSelf call type =>
    Reads U db as x i r call ∧ isCopied type = true ∧
      (type = "accept" → AcceptedBy U db as i r call) ∧
      (type ≠ "end" → Cleared U db as i r call)

/-- What invite `i` knows at a stage. -/
def InviteRequest.Ok (U : UUIDText) (db : Database) (as : List CallAction) (x : Switchboard)
    (i : Nat) (r : InviteRequest) : InvitationStage → Prop
  | .authorize | .done _ => True
  | .allow c p | .name c p _ => Linked U x r.id c r.user p ∧ Authorized U db as i r c p
  | .reserve c call =>
    Linked U x r.id c r.user call.callee ∧ Authorized U db as i r c call.callee ∧
      call.caller = r.user ∧ call.connectionID = r.id
  | .insert _ call | .rollback call _ | .emit call =>
    call ∈ x.calls.invited ∧ call.caller = r.user ∧ call.connectionID = r.id ∧
      ∃ c, Authorized U db as i r c call.callee

/-- What a request knows when it goes on. -/
def CallThread.Ok (U : UUIDText) (db : Database) (as : List CallAction) (x : Switchboard)
    (i : Nat) : CallThread → Prop
  | .invite r stage => r.Ok U db as x i stage
  | .action r stage => r.Ok U db as x i stage

/-- What is so of everything that was published: `request` is the one that did. -/
def Warranted (U : UUIDText) (db : Database) (as : List CallAction) (x : Switchboard)
    (request : Option CallRequest) (p : Publication) : Prop :=
  match p.event with
  | .invited call =>
    call ∈ x.calls.invited ∧ p.channel = call.callee ∧
      ∃ r, request = some (.invite r) ∧ r.user = call.caller ∧ r.id = call.connectionID ∧
        ∃ c, Authorized U db as p.thread r c call.callee
  | .action type call payload _ =>
    ∃ r b, request = some (.action r) ∧ Reads U db as x p.thread r call ∧
      p.channel = call.target r.user ∧ b.type = type ∧
      (b.payload.map RawMessage.value).getD .null = payload ∧
      Admitted U db as p.thread r call b
  | .copy type call =>
    ∃ r, request = some (.action r) ∧ Reads U db as x p.thread r call ∧ p.channel = r.user ∧
      isCopied type = true ∧ (type = "accept" → AcceptedBy U db as p.thread r call) ∧
      (type ≠ "end" → Cleared U db as p.thread r call)

/-- The request of thread `i`. -/
def requestOf (threads : List CallThread) (i : Nat) : Option CallRequest :=
  threads[i]?.map CallThread.request

/-- What every run keeps. -/
structure CallSound (U : UUIDText) (db : Database) (as : List CallAction) (s : CallPool) :
    Prop where
  unique : ∀ c ∈ s.shared.calls.invited, ∀ c' ∈ s.shared.calls.invited, c.id = c'.id → c = c'
  hash : ∀ key h, s.shared.calls.store.calls.get key = some h →
    ∃ c ∈ s.shared.calls.invited, c.id = key ∧ h.data = some c ∧
      (h.state = some .ringing ∨ h.state = some .active ∧ Answered U db as c)
  joined : ∀ c ∈ s.shared.calls.invited, c.caller ≠ c.callee ∧
    ∃ id, Linked U s.shared c.connectionID id c.caller c.callee
  threads : ∀ i (th : CallThread), s.threads[i]? = some th → th.Ok U db as s.shared i
  published : ∀ p ∈ s.shared.published,
    Warranted U db as s.shared (requestOf s.threads p.thread) p

/-! ## What is known stays known -/

/-- Calls and connections of `x` are still there in `x'`. -/
structure Keeps (x x' : Switchboard) : Prop where
  invited : ∀ c ∈ x.calls.invited, c ∈ x'.calls.invited
  connections : x.tables.db.connections.Extends x'.tables.db.connections

theorem Keeps.refl (x : Switchboard) : Keeps x x := ⟨fun _ hc => hc, .refl _⟩

theorem Keeps.reads {x x' : Switchboard} {as : List CallAction} {i : Nat}
    {r : ActionRequest} {call : Call} (hk : Keeps x x') (h : Reads U db as x i r call) :
    Reads U db as x' i r call :=
  ⟨hk.invited _ h.1, h.2⟩

theorem Reads.append {x : Switchboard} {as : List CallAction} {i : Nat} {r : ActionRequest}
    {call : Call} (h : Reads U db as x i r call) (bs : List CallAction) :
    Reads U db (as ++ bs) x i r call := by
  obtain ⟨hc, hid, hhas, state, hfetched⟩ := h
  exact ⟨hc, hid, hhas, state, hfetched.append bs⟩

theorem Keeps.linked {x x' : Switchboard} {id c : String} {u p : UserID} (hk : Keeps x x')
    (h : Linked U x id c u p) : Linked U x' id c u p :=
  ⟨h.1, h.2.extends hk.connections⟩

theorem InviteRequest.Ok.mono {as bs : List CallAction} {x x' : Switchboard} {i : Nat}
    {r : InviteRequest} {stage : InvitationStage} (hk : Keeps x x')
    (h : r.Ok U db as x i stage) : r.Ok U db (as ++ bs) x' i stage := by
  cases stage with
  | authorize | done => trivial
  | allow c p | name c p video => exact ⟨hk.linked h.1, h.2.append bs⟩
  | reserve c call => exact ⟨hk.linked h.1, h.2.1.append bs, h.2.2⟩
  | insert c call | rollback call cancelled | emit call =>
      obtain ⟨hc, hcaller, hid, c, hauthorized⟩ := h
      exact ⟨hk.invited _ hc, hcaller, hid, c, hauthorized.append bs⟩

theorem ActionRequest.Ok.mono {as bs : List CallAction} {x x' : Switchboard} {i : Nat}
    {r : ActionRequest} {stage : ActionStage} (hk : Keeps x x')
    (h : r.Ok U db as x i stage) : r.Ok U db (as ++ bs) x' i stage := by
  cases stage with
  | fetch | done => trivial
  | peer state call b =>
      exact ⟨(hk.reads h.1).append bs, h.2.1.append bs, fun hst => (h.2.2 hst).append bs⟩
  | accept call b => exact ⟨(hk.reads h.1).append bs, h.2.1, h.2.2.1, h.2.2.2.append bs⟩
  | finish call b =>
      exact ⟨(hk.reads h.1).append bs, h.2.imp_right fun hd => ⟨hd.1, hd.2.append bs⟩⟩
  | heartbeat call => exact (hk.reads h).append bs
  | emit call b => exact ⟨(hk.reads h.1).append bs, h.2.append bs⟩
  | emitSelf call type =>
      exact ⟨(hk.reads h.1).append bs, h.2.1, fun ha => (h.2.2.1 ha).append bs,
        fun hne => (h.2.2.2 hne).append bs⟩

theorem CallThread.Ok.mono {as bs : List CallAction} {x x' : Switchboard} {i : Nat}
    {th : CallThread} (hk : Keeps x x') (h : th.Ok U db as x i) :
    th.Ok U db (as ++ bs) x' i := by
  cases th with
  | invite r stage => exact InviteRequest.Ok.mono hk h
  | action r stage => exact ActionRequest.Ok.mono hk h

theorem Warranted.mono {as : List CallAction} {a : CallAction} {x x' : Switchboard}
    {q : Option CallRequest} {p : Publication} (hk : Keeps x x')
    (h : Warranted U db as x q p) : Warranted U db (as ++ [a]) x' q p := by
  obtain ⟨i, channel, event⟩ := p
  cases event with
  | invited call =>
      obtain ⟨hc, hchannel, r, hq, hcaller, hid, c, hauthorized⟩ := h
      exact ⟨hk.invited _ hc, hchannel, r, hq, hcaller, hid, c, hauthorized.append [a]⟩
  | action type call payload now =>
      obtain ⟨r, b, hq, hreads, hchannel, htype, hpayload, hadmitted⟩ := h
      exact ⟨r, b, hq, (hk.reads hreads).append [a], hchannel, htype, hpayload,
        hadmitted.append [a]⟩
  | copy type call =>
      obtain ⟨r, hq, hreads, hchannel, htype, haccepted, hcleared⟩ := h
      exact ⟨r, hq, (hk.reads hreads).append [a], hchannel, htype,
        fun ha => (haccepted ha).append [a], fun hne => (hcleared hne).append [a]⟩

/-! ## One turn -/

/-- What thread `i` may do in the last step of the schedule `as`, from `x` with
    `th` to `x'` with `th'`. -/
structure Turned (U : UUIDText) (db : Database) (as : List CallAction) (i : Nat)
    (x x' : Switchboard) (th th' : CallThread) : Prop where
  evolves : ∃ accepts, Evolves accepts x.calls x'.calls ∧
    ∀ c ∈ x.calls.invited, accepts c.id → x.calls.store.state c.id = some .ringing →
      Answered U db as c
  extends_ : x.tables.db.connections.Extends x'.tables.db.connections
  joined : ∀ c ∈ x'.calls.invited, c ∈ x.calls.invited ∨
    c.caller ≠ c.callee ∧ ∃ id, Linked U x' c.connectionID id c.caller c.callee
  request : th'.request = th.request
  ok : th'.Ok U db as x' i
  published : ∀ p ∈ x'.published, p ∈ x.published ∨
    p.thread = i ∧ Warranted U db as x' (some th.request) p

variable {as : List CallAction} {i : Nat} {x x' : Switchboard} {th th' : CallThread}

theorem Turned.keeps (h : Turned U db as i x x' th th') : Keeps x x' := by
  obtain ⟨_, hevolves, -⟩ := h.evolves
  exact ⟨fun c hc => hevolves.mem hc, h.extends_⟩

/-- A turn that leaves calls and tables alone and publishes nothing. -/
theorem Turned.of_stage (hrequest : th'.request = th.request) (hok : th'.Ok U db as x i) :
    Turned U db as i x x th th' where
  evolves := ⟨fun _ => False, .refl _, fun _ _ h => h.elim⟩
  extends_ := .refl _
  joined := fun _ hc => Or.inl hc
  request := hrequest
  ok := hok
  published := fun _ hp => Or.inl hp

/-- A statement. -/
theorem Turned.of_tables {tables : Tables}
    (hext : x.tables.db.connections.Extends tables.db.connections)
    (hrequest : th'.request = th.request) (hok : th'.Ok U db as { x with tables } i) :
    Turned U db as i x { x with tables } th th' where
  evolves := ⟨fun _ => False, .refl _, fun _ _ h => h.elim⟩
  extends_ := hext
  joined := fun _ hc => Or.inl hc
  request := hrequest
  ok := hok
  published := fun _ hp => Or.inl hp

/-- A call of Redis that invites nobody. -/
theorem Turned.of_script {outcome : Outcome} (op : CallOp) (hop : op.Keyed x.calls)
    (hinvited : (x.calls.after op).invited = x.calls.invited)
    (haccept : outcome.effective = true → ∀ c ∈ x.calls.invited, op.Accepts c.id →
      x.calls.store.state c.id = some .ringing → Answered U db as c)
    (hrequest : th'.request = th.request)
    (hok : th'.Ok U db as (x.runScript outcome op) i) :
    Turned U db as i x (x.runScript outcome op) th th' := by
  unfold Switchboard.runScript at hok ⊢
  split at hok
  · next heff =>
      rw [if_pos heff]
      exact
        { evolves := ⟨_, evolves_after op hop, haccept heff⟩
          extends_ := .refl _
          joined := fun c hc => Or.inl (hinvited ▸ hc)
          request := hrequest
          ok := hok
          published := fun _ hp => Or.inl hp }
  · next heff =>
      rw [if_neg heff]
      exact .of_stage hrequest hok

/-- A call of PUBLISH. -/
theorem Turned.of_publish {outcome : Outcome} {channel : UserID} {e : CallEvent}
    (hrequest : th'.request = th.request)
    (hok : th'.Ok U db as (x.publish outcome i channel e) i)
    (hwarranted : Warranted U db as (x.publish outcome i channel e) (some th.request)
      ⟨i, channel, e⟩) :
    Turned U db as i x (x.publish outcome i channel e) th th' := by
  unfold Switchboard.publish at hok hwarranted ⊢
  split at hok
  · next heff =>
      rw [if_pos heff] at hwarranted ⊢
      exact
        { evolves := ⟨fun _ => False, .refl _, fun _ _ h => h.elim⟩
          extends_ := .refl _
          joined := fun _ hc => Or.inl hc
          request := hrequest
          ok := hok
          published := by
            intro p hp
            rcases List.mem_cons.mp hp with rfl | hp
            · exact Or.inr ⟨rfl, hwarranted⟩
            · exact Or.inl hp }
  · next heff =>
      rw [if_neg heff]
      exact .of_stage hrequest hok

theorem Keeps.runScript {outcome : Outcome} {op : CallOp} (hop : op.Keyed x.calls) :
    Keeps x (x.runScript outcome op) := by
  unfold Switchboard.runScript
  split
  · exact ⟨fun _ hc => (evolves_after op hop).mem hc, .refl _⟩
  · exact ⟨fun _ hc => hc, .refl _⟩

@[simp] theorem published_runScript (x : Switchboard) (outcome : Outcome) (op : CallOp) :
    (x.runScript outcome op).published = x.published := by
  unfold Switchboard.runScript
  split
  · rfl
  · rfl

theorem Keeps.publish {outcome : Outcome} {channel : UserID} {e : CallEvent} :
    Keeps x (x.publish outcome i channel e) := by
  unfold Switchboard.publish
  split
  · exact ⟨fun _ hc => hc, .refl _⟩
  · exact ⟨fun _ hc => hc, .refl _⟩

section
variable {r : ActionRequest} {state : Option CallState} {call : Call} {b : ActionBody}

theorem describe_ok (htype : b.type = "offer" ∨ b.type = "answer")
    (hreads : Reads U db as x i r call) (hfetched : Fetched U db as i r call state)
    (hstate : state = some .active → Answered U db as call)
    (hcleared : Cleared U db as i r call) : r.Ok U db as x i (r.describe state call b) := by
  have hnot : ∀ {type}, type = "accept" ∨ type = "ice" → b.type ≠ type := by
    rintro type (rfl | rfl) h
    · rcases htype with h' | h' <;> exact absurd (h.symm.trans h') (by decide)
    · rcases htype with h' | h' <;> exact absurd (h.symm.trans h') (by decide)
  unfold ActionRequest.describe
  split
  · trivial
  · next hno =>
      rw [not_or, not_or, not_not] at hno
      obtain ⟨hactive, hcaller, hcallee⟩ := hno
      split
      · trivial
      · next s hs =>
          split
          · trivial
          · next hbounds =>
              rw [not_or, not_or, not_not, Nat.not_lt, Nat.not_lt] at hbounds
              exact ⟨hreads,
                { type := Or.inr (by rcases htype with h | h <;> rw [h] <;> rfl)
                  cleared := fun _ => hcleared
                  callee := by
                    rintro (h | h)
                    · exact absurd h (hnot (Or.inl rfl))
                    · exact not_not.mp fun hne => hcallee ⟨h, hne⟩
                  caller := fun h => not_not.mp fun hne => hcaller ⟨h, hne⟩
                  accepted := fun h => absurd h (hnot (Or.inl rfl))
                  active := fun _ => hactive ▸ hfetched
                  answered := fun _ => hstate hactive
                  session := fun _ => ⟨s, hs, hbounds⟩
                  candidate := fun h => absurd h (hnot (Or.inr rfl)) }⟩

/-- A candidate, or what the microphone and the camera are. -/
theorem admitted_medial (htype : b.type = "ice" ∨ b.type = "media")
    (hfetched : Fetched U db as i r call (some .active)) (hanswered : Answered U db as call)
    (hcleared : Cleared U db as i r call)
    (hsize : b.type = "ice" → (b.payload.map RawMessage.size).getD 0 ≤ 6000) :
    Admitted U db as i r call b := by
  have hnot : ∀ {type}, type = "accept" ∨ type = "offer" ∨ type = "answer" → b.type ≠ type := by
    rintro type (rfl | rfl | rfl) h
    · rcases htype with h' | h' <;> exact absurd (h.symm.trans h') (by decide)
    · rcases htype with h' | h' <;> exact absurd (h.symm.trans h') (by decide)
    · rcases htype with h' | h' <;> exact absurd (h.symm.trans h') (by decide)
  have haccept := hnot (Or.inl rfl)
  have hoffer := hnot (Or.inr (Or.inl rfl))
  have hanswer := hnot (Or.inr (Or.inr rfl))
  exact
    { type := Or.inr (by rcases htype with h | h <;> rw [h] <;> rfl)
      cleared := fun _ => hcleared
      callee := fun h => h.elim (fun h => absurd h haccept) fun h => absurd h hanswer
      caller := fun h => absurd h hoffer
      accepted := fun h => absurd h haccept
      active := fun _ => hfetched
      answered := fun _ => hanswered
      session := fun h => h.elim (fun h => absurd h hoffer) fun h => absurd h hanswer
      candidate := hsize }

/-- `accept`, `end` and `decline`, once their script was run. -/
theorem admitted_copied (htype : isCopied b.type = true)
    (hcleared : b.type ≠ "end" → Cleared U db as i r call)
    (haccepted : b.type = "accept" → AcceptedBy U db as i r call) :
    Admitted U db as i r call b := by
  have hno : ∀ {type}, isCopied type = false → b.type ≠ type := by
    rintro type hfalse rfl
    rw [htype] at hfalse
    cases hfalse
  have hmedial : isMedial b.type = false := by
    have hcases : b.type = "accept" ∨ b.type = "end" ∨ b.type = "decline" := by
      simpa [isCopied] using htype
    rcases hcases with h | h | h <;> rw [h] <;> rfl
  exact
    { type := Or.inl htype
      cleared := hcleared
      callee := fun h => h.elim (fun h => (haccepted h).callee) fun h => absurd h (hno rfl)
      caller := fun h => absurd h (hno rfl)
      accepted := haccepted
      active := fun h => absurd (h.symm.trans hmedial) (by decide)
      answered := fun h => absurd (h.symm.trans hmedial) (by decide)
      session := fun h => h.elim (fun h => absurd h (hno rfl)) fun h => absurd h (hno rfl)
      candidate := fun h => absurd h (hno rfl) }

/-- What the switch lets through. -/
theorem dispatch_ok (hreads : Reads U db as x i r call)
    (hfetched : Fetched U db as i r call state)
    (hstate : state = some .active → Answered U db as call)
    (hcleared : b.type ≠ "end" → Cleared U db as i r call) :
    r.Ok U db as x i (r.dispatch state call b) := by
  have hadmitted : b.type = "ice" ∨ b.type = "media" → state = some .active →
      (b.type = "ice" → (b.payload.map RawMessage.size).getD 0 ≤ 6000) →
      r.Ok U db as x i (.emit call b) := by
    rintro htype rfl hsize
    refine ⟨hreads, admitted_medial htype hfetched (hstate rfl) (hcleared ?_) hsize⟩
    rcases htype with h | h <;> rw [h] <;> decide
  unfold ActionRequest.dispatch
  split
  · next htype =>
      split
      · trivial
      · next hcallee =>
          exact ⟨hreads, htype, not_not.mp hcallee, hcleared (by rw [htype]; decide)⟩
  · next htype => exact ⟨hreads, Or.inl htype⟩
  · next htype => exact ⟨hreads, Or.inr ⟨htype, hcleared (by rw [htype]; decide)⟩⟩
  · split
    · trivial
    · exact hreads
  · next htype =>
      exact describe_ok (Or.inl htype) hreads hfetched hstate (hcleared (by rw [htype]; decide))
  · next htype =>
      exact describe_ok (Or.inr htype) hreads hfetched hstate (hcleared (by rw [htype]; decide))
  · next htype =>
      split
      · trivial
      · next hno =>
          rw [not_or, not_not, Nat.not_lt] at hno
          split
          · trivial
          · exact hadmitted (Or.inl htype) hno.1 fun _ => hno.2
  · next htype =>
      split
      · trivial
      · next hactive =>
          split
          · trivial
          · refine hadmitted (Or.inr htype) (not_not.mp hactive) fun h => ?_
            rw [htype] at h
            exact absurd h (by decide)
  · trivial

end

/-! ## Turns of requests -/

section
variable {s s' : CallPool} {d : CallSupply}

theorem peer_linked {id c : String} {u p : UserID} {x : Switchboard}
    (h : x.tables.peer U u id = some (c, p)) : Linked U x id c u p := by
  unfold Tables.peer at h
  split at h
  · obtain ⟨c', hc', hpeer⟩ := Option.bind_eq_some_iff.mp h
    obtain ⟨p', hp', heq⟩ := Option.map_eq_some_iff.mp hpeer
    cases heq
    exact ⟨hc', (Database.peer_eq_some hp').1⟩
  · cases h

/-- The reservation: the invited call is of two users that its connection joins. -/
theorem invited_linked {r : InviteRequest} {c : String} {call : Call} {x : Switchboard}
    (hok : r.Ok U db as x i (.reserve c call)) (c' : Call) (hc' : c' ∈ call :: x.calls.invited)
    (hne : call.caller ≠ call.callee) :
    c' ∈ x.calls.invited ∨
      c'.caller ≠ c'.callee ∧ ∃ id, Linked U x c'.connectionID id c'.caller c'.callee := by
  rcases List.mem_cons.mp hc' with rfl | hc'
  · obtain ⟨hlinked, -, hcaller, hid⟩ := hok
    refine Or.inr ⟨hne, c, ?_⟩
    rw [hcaller, hid]
    exact hlinked
  · exact Or.inl hc'

/-- The query of the peer, which the invite rests on from here. -/
theorem authorize_turned {r : InviteRequest} {stage' : InvitationStage} {x' : Switchboard}
    (htaken : (switchboardMachine U db).Taken as s (.turn i d) s')
    (hi : s.threads[i]? = some (.invite r .authorize))
    (hstep : r.step U i d s.shared .authorize = some (x', stage')) :
    Turned U db as i s.shared x' (.invite r .authorize) (.invite r stage') := by
  rw [InviteRequest.step] at hstep
  split at hstep
  · cases hstep
    exact .of_stage rfl trivial
  · next c p hpeer =>
      cases hstep
      have hpeer : s.shared.tables.peer U r.user r.id = some (c, p) := by
        split at hpeer
        · exact hpeer
        · cases hpeer
      exact .of_stage rfl ⟨peer_linked hpeer, s, d, s', htaken, hi, hpeer⟩

theorem reserve_turned {r : InviteRequest} {c : String} {call : Call}
    {stage' : InvitationStage} {x x' : Switchboard} (hok : r.Ok U db as x i (.reserve c call))
    (hstep : r.step U i d x (.reserve c call) = some (x', stage')) :
    Turned U db as i x x' (.invite r (.reserve c call)) (.invite r stage') := by
  rw [InviteRequest.step] at hstep
  split at hstep
  · next hpermitted =>
      cases hstep
      unfold Switchboard.runScript
      split
      · exact
          { evolves := ⟨_, evolves_after (.invite call) hpermitted, fun _ _ h => h.elim⟩
            extends_ := .refl _
            joined := fun c' hc' => invited_linked hok c' hc' hpermitted.1
            request := rfl
            ok := by
              show r.Ok U db as _ i _
              split
              · exact ⟨List.mem_cons_self, hok.2.2.1, hok.2.2.2, c, hok.2.1⟩
              · trivial
            published := fun _ hp => Or.inl hp }
      · next heff =>
          refine .of_stage rfl ?_
          show r.Ok U db as x i _
          split
          · next h =>
              rw [h.1] at heff
              exact absurd rfl heff
          · trivial
  · cases hstep

theorem invite_turned {r : InviteRequest} {stage stage' : InvitationStage} {x' : Switchboard}
    (htaken : (switchboardMachine U db).Taken as s (.turn i d) s')
    (hi : s.threads[i]? = some (.invite r stage)) (hok : r.Ok U db as s.shared i stage)
    (hstep : r.step U i d s.shared stage = some (x', stage')) :
    Turned U db as i s.shared x' (.invite r stage) (.invite r stage') := by
  cases stage with
  | done status => cases hstep
  | authorize => exact authorize_turned htaken hi hstep
  | allow c p =>
      cases hstep
      refine .of_stage rfl ?_
      show r.Ok U db as s.shared i _
      split
      · trivial
      · split
        · trivial
        · split
          · trivial
          · exact hok
  | name c p video =>
      rw [InviteRequest.step] at hstep
      split at hstep
      · cases hstep
        exact .of_stage rfl trivial
      · cases hstep
        exact .of_stage rfl ⟨hok.1, hok.2, rfl, rfl⟩
  | reserve c call => exact reserve_turned hok hstep
  | insert c call =>
      cases hstep
      have hnext : ∀ y : Switchboard, y.calls = s.shared.calls →
          r.Ok U db as y i (if d.outcome = .ok then .emit call
            else .rollback call (decide (d.outcome = .cancelled))) := by
        intro y hy
        split
        · exact ⟨hy ▸ hok.1, hok.2⟩
        · exact ⟨hy ▸ hok.1, hok.2⟩
      split
      · exact .of_tables (Tables.quiet_exec d.now _).connections rfl (hnext _ rfl)
      · exact .of_stage rfl (hnext _ rfl)
  | rollback call cancelled =>
      cases hstep
      split
      · exact
          { evolves := ⟨fun _ => False, evolves_rollback s.shared.calls call,
              fun _ _ h => h.elim⟩
            extends_ := .refl _
            joined := fun _ hc => Or.inl hc
            request := rfl
            ok := trivial
            published := fun _ hp => Or.inl hp }
      · exact .of_stage rfl trivial
  | emit call =>
      cases hstep
      obtain ⟨hc, hcaller, hid, hauthorized⟩ := hok
      exact .of_publish rfl trivial
        ⟨Keeps.publish.invited _ hc, rfl, r, rfl, hcaller.symm, hid.symm, hauthorized⟩

/-- An accepted call was ringing, and is active. -/
theorem state_accept {w : CallWorld} {key : CallID} (call : Call)
    (h : w.store.state key = some .ringing) :
    (w.after (.accept key call)).store.state key = some .active := by
  show (w.store.acceptScript key call).store.state key = _
  unfold CallStore.acceptScript
  rw [if_neg (not_not.mpr h)]
  unfold CallStore.state
  rw [Keyspace.get_expire, Keyspace.get_modify, if_pos rfl]
  rfl

theorem ringing_of_accept {st : CallStore} {key : CallID} {call : Call}
    (h : (st.acceptScript key call).reply = 1) : st.state key = some .ringing := by
  by_contra hno
  unfold CallStore.acceptScript at h
  rw [if_pos hno] at h
  exact absurd h Int.zero_ne_one

section
variable {r : ActionRequest} {call : Call} {b : ActionBody} {stage' : ActionStage}
  {x' : Switchboard}

/-- HGETALL: what it finds is an invited call, active only once it was answered. -/
theorem fetch_turned (hs : CallSound U db as s)
    (htaken : (switchboardMachine U db).Taken (as ++ [.turn i d]) s (.turn i d) s')
    (hi : s.threads[i]? = some (.action r .fetch))
    (hstep : r.step U i d s.shared .fetch = some (x', stage')) :
    Turned U db (as ++ [.turn i d]) i s.shared x' (.action r .fetch) (.action r stage') := by
  rw [ActionRequest.step] at hstep
  split at hstep
  · cases hstep
    exact .of_stage rfl trivial
  · cases hstep
    refine .of_script (.fetch r.id) trivial rfl (fun _ _ _ h => h.elim) rfl ?_
    show r.Ok U db _ _ i _
    split
    · next call state hget =>
        split
        · trivial
        · next hparty =>
            split
            · trivial
            · obtain ⟨c, hc, hid, hdata, hstate⟩ := hs.hash _ _ hget
              obtain rfl : call = c := Option.some.inj hdata
              have hhas : call.Has r.user := by
                rcases not_and_or.mp hparty with h | h
                · exact Or.inl (not_not.mp h)
                · exact Or.inr (not_not.mp h)
              have hfetched : Fetched U db (as ++ [.turn i d]) i r call state :=
                ⟨s, d, s', htaken, hi, hid ▸ hget⟩
              refine ⟨⟨hc, hid, hhas, state, hfetched⟩, hfetched, fun hactive => ?_⟩
              rcases hstate with hring | ⟨-, hanswered⟩
              · obtain rfl : state = some .ringing := hring
                cases hactive
              · exact hanswered.append _
    · trivial
    · trivial

/-- The accept script answers the call if it rings. -/
theorem accept_turned (hs : CallSound U db as s)
    (htaken : (switchboardMachine U db).Taken (as ++ [.turn i d]) s (.turn i d) s')
    (hs' : s'.shared = x') (hi : s.threads[i]? = some (.action r (.accept call b)))
    (hok : r.Ok U db (as ++ [.turn i d]) s.shared i (.accept call b))
    (hstep : r.step U i d s.shared (.accept call b) = some (x', stage')) :
    Turned U db (as ++ [.turn i d]) i s.shared x' (.action r (.accept call b))
      (.action r stage') := by
  obtain ⟨hreads, htype, hcallee, hcleared⟩ := hok
  have hc := hreads.1
  have hid := hreads.2.1
  cases hstep
  have haccepted : d.outcome.effective = true →
      s.shared.calls.store.state r.id = some .ringing →
      AcceptedBy U db (as ++ [.turn i d]) i r call := by
    intro heff hring
    refine ⟨s, d, s', b, htaken, hi, hcallee, hid ▸ hring, ?_⟩
    rw [hs', Switchboard.runScript, if_pos heff, hid]
    exact state_accept call hring
  refine .of_script _ hid rfl (fun heff c' hc' hkey hring => ?_) rfl ?_
  · have hkey : r.id = c'.id := hkey
    obtain rfl : c' = call := hs.unique c' hc' call hc (hkey.symm.trans hid.symm)
    exact ⟨i, r, haccepted heff (hkey ▸ hring)⟩
  · show r.Ok U db _ _ i _
    split
    · next hdone =>
        have hring := ringing_of_accept hdone.2
        have heff : d.outcome.effective = true := by
          rw [hdone.1]
          rfl
        have hkeyed : (CallOp.accept r.id call).Keyed s.shared.calls := hid
        exact ⟨(Keeps.runScript hkeyed).reads hreads,
          admitted_copied (by rw [htype]; rfl) (fun _ => hcleared) fun _ => haccepted heff hring⟩
    · trivial

theorem finish_turned (hok : r.Ok U db as x i (.finish call b))
    (hstep : r.step U i d x (.finish call b) = some (x', stage')) :
    Turned U db as i x x' (.action r (.finish call b)) (.action r stage') := by
  obtain ⟨hreads, htype⟩ := hok
  have hkeyed : (CallOp.finish r.id call).Keyed x.calls := hreads.2.1
  cases hstep
  refine .of_script _ hkeyed rfl (fun _ _ _ h => h.elim) rfl
    ⟨(Keeps.runScript hkeyed).reads hreads, admitted_copied ?_ ?_ ?_⟩
  · rcases htype with h | ⟨h, -⟩
    · rw [h]
      rfl
    · rw [h]
      rfl
  · intro hne
    rcases htype with h | ⟨-, hcleared⟩
    · exact absurd h hne
    · exact hcleared
  · intro h
    rcases htype with h' | ⟨h', -⟩
    · exact absurd (h.symm.trans h') (by decide)
    · exact absurd (h.symm.trans h') (by decide)

/-- The event for the other party, and what the sender's own copy rests on. -/
theorem emit_turned (hok : r.Ok U db as x i (.emit call b))
    (hstep : r.step U i d x (.emit call b) = some (x', stage')) :
    Turned U db as i x x' (.action r (.emit call b)) (.action r stage') := by
  obtain ⟨hreads, hadmitted⟩ := hok
  cases hstep
  refine .of_publish rfl ?_ ⟨r, b, rfl, Keeps.publish.reads hreads, rfl, rfl, rfl, hadmitted⟩
  show r.Ok U db _ _ i _
  split
  · next hcopied =>
      exact ⟨Keeps.publish.reads hreads, hcopied, hadmitted.accepted, hadmitted.cleared⟩
  · trivial

theorem action_turned {stage : ActionStage} (hs : CallSound U db as s)
    (htaken : (switchboardMachine U db).Taken (as ++ [.turn i d]) s (.turn i d) s')
    (hs' : s'.shared = x') (hi : s.threads[i]? = some (.action r stage))
    (hstep : r.step U i d s.shared stage = some (x', stage')) :
    Turned U db (as ++ [.turn i d]) i s.shared x' (.action r stage) (.action r stage') := by
  have hok : r.Ok U db (as ++ [.turn i d]) s.shared i stage :=
    ActionRequest.Ok.mono (.refl _) (hs.threads i _ hi)
  cases stage with
  | done status => cases hstep
  | fetch => exact fetch_turned hs htaken hi hstep
  | peer state call b =>
      cases hstep
      refine .of_stage rfl (dispatch_ok hok.1 hok.2.1 hok.2.2 fun hne => ?_)
      split at hne
      · next hpeer => exact ⟨s, d, s', state, b, htaken, hi, hpeer.2⟩
      · exact absurd rfl hne
  | accept call b => exact accept_turned hs htaken hs' hi hok hstep
  | finish call b => exact finish_turned hok hstep
  | heartbeat call =>
      have hkeyed : (CallOp.heartbeat r.id call).Keyed s.shared.calls := hok.2.1
      cases hstep
      exact .of_script _ hkeyed rfl (fun _ _ _ h => h.elim) rfl trivial
  | emit call b => exact emit_turned hok hstep
  | emitSelf call type =>
      obtain ⟨hreads, hcopied, haccepted, hcleared⟩ := hok
      cases hstep
      exact .of_publish rfl trivial
        ⟨r, rfl, Keeps.publish.reads hreads, rfl, hcopied, haccepted, hcleared⟩

end

/-! ## What a turn publishes -/

/-- What the next call of a request hands to PUBLISH, and for which channel. -/
def CallThread.emission (d : CallSupply) : CallThread → Option (UserID × CallEvent)
  | .invite _ stage =>
    match stage with
    | .emit call => some (call.callee, .invited call)
    | .authorize | .allow _ _ | .name _ _ _ | .reserve _ _ | .insert _ _ | .rollback _ _
    | .done _ => none
  | .action r stage =>
    match stage with
    | .emit call b =>
      some (call.target r.user,
        .action b.type call ((b.payload.map RawMessage.value).getD .null) d.now)
    | .emitSelf call type => some (r.user, .copy type call)
    | .fetch | .peer _ _ _ | .accept _ _ | .finish _ _ | .heartbeat _ | .done _ => none

theorem published_publish (x : Switchboard) (outcome : Outcome) (i : Nat) (channel : UserID)
    (e : CallEvent) : (x.publish outcome i channel e).published = x.published ∨
      (x.publish outcome i channel e).published = ⟨i, channel, e⟩ :: x.published := by
  unfold Switchboard.publish
  split
  · exact Or.inr rfl
  · exact Or.inl rfl

/-- A turn publishes nothing, or the emission of its stage. -/
theorem published_turn {x x' : Switchboard} {th th' : CallThread}
    (hturn : th.turn U i d x = some (x', th')) :
    x'.published = x.published ∨ ∃ channel e, th.emission d = some (channel, e) ∧
      x'.published = ⟨i, channel, e⟩ :: x.published := by
  cases th with
  | invite r stage =>
      obtain ⟨⟨y, stage'⟩, hr, heq⟩ := Option.map_eq_some_iff.mp hturn
      cases heq
      cases stage with
      | authorize | name c p video =>
          rw [InviteRequest.step] at hr
          split at hr <;> cases hr <;> exact Or.inl rfl
      | allow c p =>
          cases hr
          exact Or.inl rfl
      | reserve c call =>
          obtain ⟨-, hr⟩ := Option.ite_none_right_eq_some.mp hr
          cases hr
          exact Or.inl (published_runScript _ _ _)
      | insert c call | rollback call cancelled =>
          cases hr
          left
          show (if _ then _ else _ : Switchboard).published = _
          split <;> rfl
      | emit call =>
          cases hr
          exact (published_publish _ _ _ _ _).imp_right fun h => ⟨_, _, rfl, h⟩
      | done status => cases hr
  | action r stage =>
      obtain ⟨⟨y, stage'⟩, hr, heq⟩ := Option.map_eq_some_iff.mp hturn
      cases heq
      cases stage with
      | fetch =>
          rw [ActionRequest.step] at hr
          split at hr
          · cases hr
            exact Or.inl rfl
          · cases hr
            exact Or.inl (published_runScript _ _ _)
      | peer state c b =>
          cases hr
          exact Or.inl rfl
      | accept c b | finish c b | heartbeat c =>
          cases hr
          exact Or.inl (published_runScript _ _ _)
      | emit c b | emitSelf c type =>
          cases hr
          exact (published_publish _ _ _ _ _).imp_right fun h => ⟨_, _, rfl, h⟩
      | done status => cases hr

/-! ## Every step -/

theorem requestOf_turn {threads : List CallThread} {i : Nat} {th th' : CallThread}
    (hi : threads[i]? = some th) (hrequest : th'.request = th.request) (j : Nat) :
    requestOf (threads.set i th') j = requestOf threads j := by
  unfold requestOf
  by_cases hij : i = j
  · subst hij
    have hlt := (List.getElem?_eq_some_iff.mp hi).1
    rw [List.getElem?_set_self hlt, hi, Option.map_some, Option.map_some, hrequest]
  · rw [List.getElem?_set_ne hij]

theorem requestOf_append {threads : List CallThread} {th : CallThread} {j : Nat}
    {q : CallRequest} (h : requestOf threads j = some q) :
    requestOf (threads ++ [th]) j = some q := by
  obtain ⟨th₀, hth, hq⟩ := Option.map_eq_some_iff.mp h
  have hlt := (List.getElem?_eq_some_iff.mp hth).1
  rw [requestOf, List.getElem?_append_left hlt, hth, Option.map_some, hq]

/-- A publication is of a request that exists. -/
theorem Warranted.request {q : Option CallRequest} {p : Publication}
    (h : Warranted U db as x q p) : ∃ q', q = some q' := by
  obtain ⟨j, channel, event⟩ := p
  cases event with
  | invited call =>
      obtain ⟨-, -, r, hq, -⟩ := h
      exact ⟨_, hq⟩
  | action type call payload now =>
      obtain ⟨r, _, hq, -⟩ := h
      exact ⟨_, hq⟩
  | copy type call =>
      obtain ⟨r, hq, -⟩ := h
      exact ⟨_, hq⟩

/-- The hashes after one call of Redis. -/
theorem hash_evolves {a : CallAction} {w w' : CallWorld} {accepts : CallID → Prop}
    (hevolves : Evolves accepts w w')
    (haccepts : ∀ c ∈ w.invited, accepts c.id → w.store.state c.id = some .ringing →
      Answered U db (as ++ [a]) c)
    (hhash : ∀ key h, w.store.calls.get key = some h → ∃ c ∈ w.invited, c.id = key ∧
      h.data = some c ∧ (h.state = some .ringing ∨ h.state = some .active ∧ Answered U db as c)) :
    ∀ key h, w'.store.calls.get key = some h → ∃ c ∈ w'.invited, c.id = key ∧
      h.data = some c ∧
        (h.state = some .ringing ∨ h.state = some .active ∧ Answered U db (as ++ [a]) c) := by
  intro key h' hget
  rcases hevolves.hash key h' hget with ⟨h, hh, hdata, hstate⟩ | ⟨c, hc, hid, -, rfl⟩
  · obtain ⟨c, hc, hid, hdata₀, hstate₀⟩ := hhash key h hh
    refine ⟨c, hevolves.mem hc, hid, hdata.trans hdata₀, ?_⟩
    rcases hstate with hsame | ⟨haccepted, hring, hactive⟩
    · rw [hsame]
      exact hstate₀.imp_right fun h => ⟨h.1, h.2.append [a]⟩
    · subst hid
      refine Or.inr ⟨hactive, haccepts c hc haccepted ?_⟩
      rw [state_of_some hh, hring]
  · exact ⟨c, hc, hid, rfl, Or.inl rfl⟩

/-- An id is of one call. -/
theorem unique_evolves {w w' : CallWorld} {accepts : CallID → Prop}
    (hevolves : Evolves accepts w w')
    (hunique : ∀ c ∈ w.invited, ∀ c' ∈ w.invited, c.id = c'.id → c = c') :
    ∀ c ∈ w'.invited, ∀ c' ∈ w'.invited, c.id = c'.id → c = c' := by
  rcases hevolves.invited with hsame | ⟨new, -, hfresh, hnew⟩
  · rw [hsame]
    exact hunique
  · rw [hnew]
    intro c hc c' hc' hid
    rcases List.mem_cons.mp hc with rfl | hold
    · rcases List.mem_cons.mp hc' with rfl | hold'
      · rfl
      · exact absurd hid.symm (hfresh c' hold')
    · rcases List.mem_cons.mp hc' with rfl | hold'
      · exact absurd hid (hfresh c hold)
      · exact hunique c hold c' hold' hid

/-- A turn of one thread. -/
theorem CallSound.turned {a : CallAction} (hs : CallSound U db as s)
    (hi : s.threads[i]? = some th) (ht : Turned U db (as ++ [a]) i s.shared x' th th') :
    CallSound U db (as ++ [a]) ⟨x', s.threads.set i th'⟩ := by
  obtain ⟨accepts, hevolves, haccepts⟩ := ht.evolves
  have hkeeps := ht.keeps
  refine ⟨unique_evolves hevolves hs.unique, hash_evolves hevolves haccepts hs.hash, ?_, ?_, ?_⟩
  · intro c hc
    rcases ht.joined c hc with hold | hnew
    · obtain ⟨hne, id, hlinked⟩ := hs.joined c hold
      exact ⟨hne, id, hkeeps.linked hlinked⟩
    · exact hnew
  · intro j ou hj
    rcases Threads.getElem?_set_cases hj with ⟨rfl, rfl⟩ | ⟨-, hj⟩
    · exact ht.ok
    · exact CallThread.Ok.mono hkeeps (hs.threads j ou hj)
  · intro p hp
    show Warranted U db _ x' (requestOf (s.threads.set i th') p.thread) p
    rw [requestOf_turn hi ht.request]
    rcases ht.published p hp with hold | ⟨rfl, hnew⟩
    · exact (hs.published p hold).mono hkeeps
    · rw [requestOf, hi]
      exact hnew

theorem evolves_env (x : Switchboard) (e : CallEnv) :
    ∃ accepts, Evolves accepts x.calls (e.exec x).calls ∧ ∀ key, ¬ accepts key := by
  cases e with
  | tick d => exact ⟨_, evolves_after (.tick d) trivial, fun _ h => h⟩
  | statement q now => exact ⟨fun _ => False, .refl _, fun _ h => h⟩
  | block u target startedAt fresh ids => exact ⟨fun _ => False, .refl _, fun _ h => h⟩

theorem published_env (x : Switchboard) (e : CallEnv) : (e.exec x).published = x.published := by
  cases e <;> rfl

/-- A step around the requests. -/
theorem CallSound.around {a : CallAction} {e : CallEnv} (hs : CallSound U db as s) :
    CallSound U db (as ++ [a]) { s with shared := e.exec s.shared } := by
  obtain ⟨accepts, hevolves, hnone⟩ := evolves_env s.shared e
  have hext : s.shared.tables.db.connections.Extends (e.exec s.shared).tables.db.connections := by
    cases e with
    | tick d => exact .refl _
    | statement q now => exact (Tables.quiet_exec now q).connections
    | block u target startedAt fresh ids => exact ConnectionTable.endWhere_extends _ _ _
  have hinvited : (e.exec s.shared).calls.invited = s.shared.calls.invited := by
    cases e <;> rfl
  have hkeeps : Keeps s.shared (e.exec s.shared) := ⟨fun c hc => hevolves.mem hc, hext⟩
  refine ⟨unique_evolves hevolves hs.unique,
    hash_evolves hevolves (fun c _ h => absurd h (hnone c.id)) hs.hash, ?_, ?_, ?_⟩
  · intro c hc
    obtain ⟨hne, id, hlinked⟩ := hs.joined c (hinvited ▸ hc)
    exact ⟨hne, id, hkeeps.linked hlinked⟩
  · exact fun j th hj => CallThread.Ok.mono hkeeps (hs.threads j th hj)
  · exact fun p hp => (hs.published p (published_env s.shared e ▸ hp)).mono hkeeps

theorem CallSound.spawn {a : CallAction} {q : CallRequest} (hs : CallSound U db as s) :
    CallSound U db (as ++ [a]) { s with threads := s.threads ++ [q.start U] } := by
  have hkeeps : Keeps s.shared s.shared := ⟨fun _ hc => hc, .refl _⟩
  have hevolves : Evolves (fun _ => False) s.shared.calls s.shared.calls := .refl _
  refine ⟨hs.unique, hash_evolves hevolves (fun _ _ h => h.elim) hs.hash, hs.joined, ?_, ?_⟩
  · intro j th hj
    have hj : (s.threads ++ [q.start U])[j]? = some th := hj
    rw [List.getElem?_append] at hj
    split at hj
    · exact CallThread.Ok.mono hkeeps (hs.threads j th hj)
    · obtain ⟨_, rfl⟩ := List.getElem?_eq_some_iff.mp hj
      rw [List.getElem_singleton]
      cases q with
      | invite r => trivial
      | action r =>
          show r.Ok U db _ _ j (if U.parses r.id then .fetch else .done 400)
          split
          · trivial
          · trivial
  · intro p hp
    have hold := hs.published p hp
    obtain ⟨q', hq'⟩ := hold.request
    have hsame : requestOf (s.threads ++ [q.start U]) p.thread = requestOf s.threads p.thread := by
      rw [hq']
      exact requestOf_append hq'
    show Warranted U db _ s.shared (requestOf (s.threads ++ [q.start U]) p.thread) p
    rw [hsame]
    exact hold.mono hkeeps

theorem turned_of_step {d : CallSupply} (hs : CallSound U db as s)
    (hrun : (switchboardMachine U db).run as = some s)
    (hstep : (switchboardMachine U db).step s (.turn i d) = some s') :
    ∃ th x' th', s.threads[i]? = some th ∧ th.turn U i d s.shared = some (x', th') ∧
      s' = ⟨x', s.threads.set i th'⟩ ∧ Turned U db (as ++ [.turn i d]) i s.shared x' th th' := by
  obtain ⟨th, x', th', hi, hturn, rfl⟩ := Threads.step_turn hstep
  refine ⟨th, x', th', hi, hturn, rfl, ?_⟩
  have htaken := Machine.taken_concat hrun hstep
  cases th with
  | invite r stage =>
      obtain ⟨_, hr, heq⟩ := Option.map_eq_some_iff.mp hturn
      cases heq
      exact invite_turned htaken hi (InviteRequest.Ok.mono (.refl _) (hs.threads i _ hi)) hr
  | action r stage =>
      obtain ⟨_, hr, heq⟩ := Option.map_eq_some_iff.mp hturn
      cases heq
      exact action_turned hs htaken rfl hi hr

theorem callSound_of_run (hrun : (switchboardMachine U db).run as = some s) :
    CallSound U db as s := by
  refine Machine.run_induction (P := CallSound U db) ?_ ?_ hrun
  · constructor <;> simp [switchboardMachine, Threads.machine, Switchboard.init, CallWorld.empty,
      CallStore.empty]
  · intro as s a s' hrun hs hstep
    cases a with
    | spawn q =>
        obtain rfl := Option.some.inj hstep
        exact hs.spawn
    | env e =>
        obtain rfl := Option.some.inj hstep
        exact hs.around
    | turn i d =>
        obtain ⟨th, x', th', hi, -, rfl, hturned⟩ := turned_of_step hs hrun hstep
        exact hs.turned hi hturned

/-! ## Events -/

/-- The call that an event is about. -/
def CallEvent.call : CallEvent → Call
  | .invited call | .action _ call _ _ | .copy _ call => call

theorem Warranted.party {q : Option CallRequest} {p : Publication}
    (h : Warranted U db as x q p) :
    p.event.call ∈ x.calls.invited ∧ p.event.call.Has p.channel := by
  obtain ⟨j, channel, event⟩ := p
  cases event with
  | invited call =>
      obtain ⟨hc, hchannel, -⟩ := h
      exact ⟨hc, Or.inr hchannel.symm⟩
  | action type call payload now =>
      obtain ⟨r, b, -, hreads, hchannel, -⟩ := h
      refine ⟨hreads.1, ?_⟩
      show call.Has channel
      obtain rfl : channel = call.target r.user := hchannel
      unfold Call.target
      split
      · exact Or.inl rfl
      · exact Or.inr rfl
  | copy type call =>
      obtain ⟨r, -, hreads, hchannel, -⟩ := h
      obtain rfl : channel = r.user := hchannel
      exact ⟨hreads.1, hreads.2.2.1⟩

/-- Every event about a call, in every schedule: the caller invited the callee
    over a connection of theirs, which the database had named to this invite; the
    event comes from one of the two, whose request had read the call from its hash,
    and goes to the other, or back to its sender; and it was allowed (`Admitted`):
    by the database unless it ends the call, an acceptance by the script that found
    the call ringing, and a signal by a state that was active when it was read. -/
theorem call_events_authorized (hrun : (switchboardMachine U db).run as = some s) :
    ∀ p ∈ s.shared.published,
      Warranted U db as s.shared (requestOf s.threads p.thread) p ∧
        p.event.call ∈ s.shared.calls.invited ∧ p.event.call.Has p.channel ∧
        p.event.call.caller ≠ p.event.call.callee ∧
        ∃ id, Linked U s.shared p.event.call.connectionID id p.event.call.caller
          p.event.call.callee := by
  have hs := callSound_of_run hrun
  intro p hp
  have hwarranted := hs.published p hp
  obtain ⟨hinvited, hparty⟩ := hwarranted.party
  exact ⟨hwarranted, hinvited, hparty, hs.joined _ hinvited⟩

end

end

/-! ## A call of Ann to Ben -/

def annNamed : Database :=
  { annsConnections with profiles := fun u => if u = "ann" then some ⟨"ann", "Ann", ""⟩ else none }

def drawnID : CallID := "00000000-0000-4000-8000-0000000000d1"

def annsCall : Call := ⟨drawnID, withBen, "ann", "ben", "Ann", false⟩

/-- `n` turns of request `i` in which every call goes through. -/
def callTurns (i n : Nat) : List CallAction :=
  List.replicate n (.turn i { id := drawnID })

def ringing : List CallAction := .spawn (.invite ⟨"ann", withBen, some false⟩) :: callTurns 0 6

/-- What `u` sends about the call. -/
def asks (u : UserID) (type : String) (payload : Option RawMessage) : CallAction :=
  .spawn (.action ⟨u, drawnID, some ⟨type, payload⟩⟩)

def annsOffer : RawMessage := ⟨.object [("type", .string "offer"), ("sdp", .string "v=0")], 28⟩

/-- Ben accepts and Ann sends her offer. -/
def talk : List CallAction :=
  ringing ++ [asks "ben" "accept" none] ++ callTurns 1 5
    ++ [asks "ann" "offer" (some annsOffer)] ++ callTurns 2 3

theorem call_events_authorized_talk :
    ∃ s, (switchboardMachine canonicalUUIDs annNamed).run talk = some s ∧
      s.shared.published.map Publication.channel = ["ben", "ben", "ann", "ben"] ∧
      ∀ p ∈ s.shared.published,
        Warranted canonicalUUIDs annNamed talk s.shared (requestOf s.threads p.thread) p := by
  have hobs : ((switchboardMachine canonicalUUIDs annNamed).run talk).map (fun s =>
      s.shared.published.map Publication.channel) = some ["ben", "ben", "ann", "ben"] := by
    decide +kernel
  obtain ⟨s, hs, hobs⟩ := Option.map_eq_some_iff.mp hobs
  exact ⟨s, hs, hobs, fun p hp => (call_events_authorized hs p hp).1⟩

end OneMinute.Communication
