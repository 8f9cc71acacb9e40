/-
  OneMinute.Runs

  What holds in every run of the system.

  `Move` says once what each action does.  From it: the store operations of a
  run are a run of the store machine (`Sound.store`), so what is proved of
  those runs holds here; a thread is in the middle of its program, so its next
  call keeps its discipline (`Sound.makes`); and every exchange a thread
  remembers was made at a step of the run (`made_of_run`).
-/

import OneMinute.Discipline
import OneMinute.Discovery.Votes

namespace OneMinute

open Discovery Process

/-! ## What an action does -/

inductive Move (x : System) : Action → System → Prop where
  | accept (user : Profile) (c : ConnectionID)
      (hnew : c ∉ x.sessions.map Session.connection) :
      Move x (.accept user c)
        { x with sessions := x.sessions ++
            [Session.start { user, connection := c, stage := .opening, activity := .gone }
              x.clock .opening] }
  | frame (i : Nat) (f : Frame) (s : Session) (since : Nat) (hs : x.sessions[i]? = some s)
      (ha : s.activity = .reading since) (ht : x.clock ≤ since + readTimeout) :
      Move x (.frame i f) { x with sessions := x.sessions.set i (s.start x.clock (.frame f)) }
  | hangup (i : Nat) (s : Session) (since : Nat) (hs : x.sessions[i]? = some s)
      (ha : s.activity = .reading since) :
      Move x (.hangup i) { x with sessions := x.sessions.set i (s.start x.clock .cleanup) }
  | turn (i : Nat) (d : Draw) (fault : Fault) (s : Session) (c : Draw → Call)
      (k : (d : Draw) → Option (c d).Reply → Proc Next) (hs : x.sessions[i]? = some s)
      (ha : s.activity = .running (.ask c k)) (hfresh : (c d).fresh x.env.world = true) :
      Move x (.turn i d fault)
        { x.after fault (c d) with
          sessions := x.sessions.set i
            (s.receive x.clock (decide (fault ≠ .failed) && (c d).refreshes x.store)
              ⟨c d, (x.env.perform fault (c d)).2⟩ (k d (x.env.perform fault (c d)).2)) }
  | spawn (kind : TaskKind) :
      Move x (.spawn kind) { x with tasks := x.tasks ++ [{ kind, rest := kind.program }] }
  | taskTurn (j : Nat) (d : Draw) (fault : Fault) (t : Task) (c : Draw → Call)
      (k : (d : Draw) → Option (c d).Reply → Proc Unit) (ht : x.tasks[j]? = some t)
      (hr : t.rest = .ask c k) (hfresh : (c d).fresh x.env.world = true) :
      Move x (.taskTurn j d fault)
        { x.after fault (c d) with
          tasks := x.tasks.set j
            { t with
              rest := k d (x.env.perform fault (c d)).2
              trace := ⟨c d, (x.env.perform fault (c d)).2⟩ :: t.trace } }
  | tick (d : Nat) :
      Move x (.tick d)
        { x with
          env := ⟨x.env.world.after (.tick d), x.env.db⟩
          history := x.history ++ [.tick d] }

theorem step_move {x x' : System} {a : Action} (h : x.step a = some x') : Move x a x' := by
  unfold System.step at h
  cases a with
  | accept user c =>
      dsimp only at h
      split at h
      · cases h
      · next hnew =>
          cases h
          exact .accept user c hnew
  | frame i f =>
      dsimp only at h
      split at h
      · next s hs =>
          split at h
          · next since ha =>
              split at h
              · next ht =>
                  cases h
                  exact .frame i f s since hs ha ht
              · cases h
          · cases h
      · cases h
  | hangup i =>
      dsimp only at h
      split at h
      · next s hs =>
          split at h
          · next since ha =>
              cases h
              exact .hangup i s since hs ha
          · cases h
      · cases h
  | turn i d fault =>
      dsimp only at h
      split at h
      · next s hs =>
          split at h
          · next c k ha =>
              split at h
              · next hfresh =>
                  cases h
                  exact .turn i d fault s c k hs ha hfresh
              · cases h
          · cases h
      · cases h
  | spawn kind =>
      cases h
      exact .spawn kind
  | taskTurn j d fault =>
      dsimp only at h
      split at h
      · next t ht =>
          split at h
          · next c k hr =>
              split at h
              · next hfresh =>
                  cases h
                  exact .taskTurn j d fault t c k ht hr hfresh
              · cases h
          · cases h
      · cases h
  | tick d =>
      cases h
      exact .tick d

theorem makes_turn {x : System} {i : Nat} {d : Draw} {fault : Fault} {s : Session}
    {c : Draw → Call} {k : (d : Draw) → Option (c d).Reply → Proc Next}
    (hs : x.sessions[i]? = some s) (ha : s.activity = .running (.ask c k)) :
    x.makes (.turn i d fault) = some (fault, c d) := by
  simp [System.makes, hs, ha]

theorem makes_taskTurn {x : System} {j : Nat} {d : Draw} {fault : Fault} {t : Task}
    {c : Draw → Call} {k : (d : Draw) → Option (c d).Reply → Proc Unit}
    (ht : x.tasks[j]? = some t) (hr : t.rest = .ask c k) :
    x.makes (.taskTurn j d fault) = some (fault, c d) := by
  simp [System.makes, ht, hr]

/-- The thread whose next call `c` is. -/
inductive Asks (x : System) : Call → Prop where
  | session (s : Session) (d : Draw) (c : Draw → Call)
      (k : (d : Draw) → Option (c d).Reply → Proc Next) (hs : s ∈ x.sessions)
      (ha : s.activity = .running (.ask c k)) : Asks x (c d)
  | task (t : Task) (d : Draw) (c : Draw → Call)
      (k : (d : Draw) → Option (c d).Reply → Proc Unit) (ht : t ∈ x.tasks)
      (hr : t.rest = .ask c k) : Asks x (c d)

theorem asks_of_makes {x : System} {a : Action} {fault : Fault} {c : Call}
    (hm : x.makes a = some (fault, c)) : Asks x c := by
  cases a with
  | turn i d f =>
      dsimp only [System.makes] at hm
      split at hm
      · next s hs =>
          split at hm
          · next c' k ha =>
              cases hm
              exact .session s d c' k (List.mem_of_getElem? hs) ha
          · cases hm
      · cases hm
  | taskTurn j d f =>
      dsimp only [System.makes] at hm
      split at hm
      · next t ht =>
          split at hm
          · next c' k hr =>
              cases hm
              exact .task t d c' k (List.mem_of_getElem? ht) hr
          · cases hm
      · cases hm
  | _ => cases hm

/-- What an action does to the environment: nothing, one call, or time. -/
theorem Move.env {x x' : System} {a : Action} (h : Move x a x') :
    (x'.env = x.env ∧ x'.history = x.history ∧ x.makes a = none) ∨
      (∃ fault c, x.makes a = some (fault, c) ∧ c.fresh x.env.world = true ∧
        x'.env = (x.env.perform fault c).1 ∧ x'.history = x.history ++ c.ops fault) ∨
      ∃ d, a = .tick d ∧ x'.env = ⟨x.env.world.after (.tick d), x.env.db⟩ ∧
        x'.history = x.history ++ [.tick d] := by
  cases h with
  | accept user c hnew => exact Or.inl ⟨rfl, rfl, rfl⟩
  | frame i f s since hs ha ht => exact Or.inl ⟨rfl, rfl, rfl⟩
  | hangup i s since hs ha => exact Or.inl ⟨rfl, rfl, rfl⟩
  | turn i d fault s c k hs ha hfresh =>
      exact Or.inr (Or.inl ⟨fault, c d, makes_turn hs ha, hfresh, rfl, rfl⟩)
  | spawn kind => exact Or.inl ⟨rfl, rfl, rfl⟩
  | taskTurn j d fault t c k ht hr hfresh =>
      exact Or.inr (Or.inl ⟨fault, c d, makes_taskTurn ht hr, hfresh, rfl, rfl⟩)
  | tick d => exact Or.inr (Or.inr ⟨d, rfl, rfl, rfl⟩)

/-- After an action that makes a call, the environment is that of the call. -/
theorem Move.env_of_makes {x x' : System} {a : Action} {fault : Fault} {c : Call}
    (h : Move x a x') (hm : x.makes a = some (fault, c)) :
    x'.env = (x.env.perform fault c).1 := by
  rcases h.env with ⟨_, _, hnone⟩ | ⟨fault', c', hm', _, henv, _⟩ | ⟨d, rfl, _⟩
  · rw [hm] at hnone
    cases hnone
  · rw [hm] at hm'
    cases hm'
    exact henv
  · cases hm

theorem Move.history_of_makes {x x' : System} {a : Action} {fault : Fault} {c : Call}
    (h : Move x a x') (hm : x.makes a = some (fault, c)) :
    x'.history = x.history ++ c.ops fault := by
  rcases h.env with ⟨_, _, hnone⟩ | ⟨fault', c', hm', _, _, hhist⟩ | ⟨d, rfl, _⟩
  · rw [hm] at hnone
    cases hnone
  · rw [hm] at hm'
    cases hm'
    exact hhist
  · cases hm

/-- The world after a call: unchanged, or that of the script that ran. -/
theorem perform_world (e : Env) (fault : Fault) (c : Call) :
    ((e.perform fault c).1.world = e.world ∧ c.ops fault = []) ∨
      ∃ op, c = .store op ∧ fault ≠ .failed ∧ (e.perform fault c).1.world = e.world.after op ∧
        c.ops fault = [op] := by
  cases fault with
  | failed =>
      left
      cases c <;> exact ⟨rfl, rfl⟩
  | ok | lost =>
      cases c with
      | store op => exact Or.inr ⟨op, rfl, by decide, rfl, rfl⟩
      | persistConnection _ _ _ | block _ _ _ | unblock _ _ | remove _ _ _ =>
          -- a transaction leaves Redis alone
          left
          simp only [Env.perform, Env.exec]
          split <;> exact ⟨rfl, rfl⟩
      | _ => exact Or.inl ⟨rfl, rfl⟩

/-- An event that a step publishes comes from the script it runs. -/
theorem Move.published {x x' : System} {a : Action} {e : UserID × Event} (h : Move x a x')
    (hno : e ∉ x.env.world.published) (hyes : e ∈ x'.env.world.published) :
    ∃ fault op, x.makes a = some (fault, .store op) ∧ e ∈ (op.exec x.store).published := by
  rcases h.env with ⟨henv, _⟩ | ⟨fault, c, hm, _, henv, _⟩ | ⟨d, _, henv, _⟩
  · rw [henv] at hyes
    exact absurd hyes hno
  · rw [henv] at hyes
    rcases perform_world x.env fault c with ⟨hw, _⟩ | ⟨op, rfl, _, hw, _⟩
    · rw [hw] at hyes
      exact absurd hyes hno
    · rw [hw] at hyes
      exact ⟨fault, op, hm, (List.mem_append.mp hyes).resolve_left hno⟩
  · rw [henv] at hyes
    rcases List.mem_append.mp hyes with hold | hnew
    · exact absurd hold hno
    · cases hnew

/-- What a call does to the database: nothing, or one transaction. -/
inductive Commit (db : Database) : Call → Database → Prop where
  | none (c : Call) : Commit db c db
  | persistConnection (m : MatchState) (endedAt : UnixMilli) (id durableID : String)
      (db' : Database) (h : db.persistConnection m endedAt id = .ok (durableID, db')) :
      Commit db (.persistConnection m endedAt id) db'
  | block (u target : UserID) (now : UnixMilli) (db' : Database)
      (h : db.block u target now = .ok db') : Commit db (.block u target now) db'
  | unblock (u target v : UserID) (h : db.cast target = some v) :
      Commit db (.unblock u target) (db.unblock u v)
  | remove (u : UserID) (connectionID c : String) (now : UnixMilli)
      (h : db.cast connectionID = some c) :
      Commit db (.remove u connectionID now) (db.remove u c now).2

theorem exec_commit (e : Env) (c : Call) : Commit e.db c (e.exec c).1.db := by
  cases c with
  | persistConnection m endedAt id =>
      simp only [Env.exec]
      split
      · next durableID db' h => exact .persistConnection m endedAt id durableID db' h
      · exact .none _
  | block u target now =>
      simp only [Env.exec]
      split
      · next db' h => exact .block u target now db' h
      · exact .none _
  | unblock u target =>
      simp only [Env.exec]
      split
      · next v h => exact .unblock u target v h
      · exact .none _
  | remove u connectionID now =>
      simp only [Env.exec]
      split
      · next c h => exact .remove u connectionID c now h
      · exact .none _
  | _ => exact .none _

theorem perform_commit (e : Env) (fault : Fault) (c : Call) :
    (fault = .failed ∧ (e.perform fault c).1.db = e.db) ∨
      (fault ≠ .failed ∧ (e.perform fault c).1 = (e.exec c).1 ∧
        Commit e.db c (e.perform fault c).1.db) := by
  cases fault with
  | failed => exact Or.inl ⟨rfl, rfl⟩
  | ok | lost => exact Or.inr ⟨by decide, rfl, exec_commit e c⟩

/-- What an action does to the database. -/
theorem Move.db {x x' : System} {a : Action} (h : Move x a x') :
    x'.env.db = x.env.db ∨
      ∃ fault c, x.makes a = some (fault, c) ∧ fault ≠ .failed ∧ x'.env = (x.env.exec c).1 ∧
        Commit x.env.db c x'.env.db := by
  rcases h.env with ⟨henv, _⟩ | ⟨fault, c, hm, _, henv, _⟩ | ⟨d, _, henv, _⟩
  · rw [henv]
    exact Or.inl rfl
  · rw [henv]
    rcases perform_commit x.env fault c with ⟨_, hdb⟩ | ⟨hfault, hexec, hcommit⟩
    · exact Or.inl hdb
    · exact Or.inr ⟨fault, c, hm, hfault, hexec, hcommit⟩
  · rw [henv]
    exact Or.inl rfl

/-- The store operation that takes effect at a step. -/
def System.effect (x : System) : Action → Option Op
  | .tick d => some (.tick d)
  | a => (x.makes a).bind fun call => (call.2.ops call.1).head?

theorem System.effect_of_makes {x : System} {a : Action} {fault : Fault} {c : Call}
    (hm : x.makes a = some (fault, c)) : x.effect a = (c.ops fault).head? := by
  cases a with
  | turn i d f | taskTurn j d f =>
      simp only [System.effect, hm]
      rfl
  | _ => cases hm

theorem System.effect_eq_some {x : System} {a : Action} {op : Op} (h : x.effect a = some op) :
    (∃ d, a = .tick d ∧ op = .tick d) ∨
      ∃ fault, x.makes a = some (fault, .store op) ∧ fault ≠ .failed := by
  have hcall : (x.makes a).bind (fun call => (call.2.ops call.1).head?) = some op →
      ∃ fault, x.makes a = some (fault, .store op) ∧ fault ≠ .failed := by
    intro h
    obtain ⟨⟨fault, c⟩, hm, hops⟩ := Option.bind_eq_some_iff.mp h
    cases c with
    | store op' =>
        dsimp only [Call.ops] at hops
        split at hops
        · cases hops
        · next hfault =>
            cases hops
            exact ⟨fault, hm, hfault⟩
    | _ => cases hops
  cases a with
  | tick d =>
      cases h
      exact Or.inl ⟨d, rfl, rfl⟩
  | _ => exact Or.inr (hcall h)

/-! ## Threads in the middle of their programs -/

structure Session.Consistent (s : Session) : Prop where
  running : ∀ p, s.activity = .running p →
    Unfolds (s.stage.program s.user s.connection) s.trace p
  reading : ∀ t, s.activity = .reading t →
    Unfolds (s.stage.program s.user s.connection) s.trace (.done .read)

theorem Session.consistent_settle {s : Session} {p : Proc Next} (clock : Nat)
    (h : Unfolds (s.stage.program s.user s.connection) s.trace p) :
    (s.settle clock p).Consistent := by
  match p with
  | .done .read => exact ⟨fun _ e => (nomatch e), fun _ _ => h⟩
  | .done .stop =>
      refine ⟨fun q e => ?_, fun _ e => nomatch e⟩
      cases e
      exact .start
  | .done .gone => exact ⟨fun _ e => (nomatch e), fun _ e => nomatch e⟩
  | .ask c k =>
      refine ⟨fun q e => ?_, fun _ e => nomatch e⟩
      cases e
      exact h

theorem Session.consistent_start (s : Session) (clock : Nat) (stage : Stage) :
    (s.start clock stage).Consistent :=
  Session.consistent_settle clock .start

@[simp] theorem Session.settle_user (s : Session) (clock : Nat) (p : Proc Next) :
    (s.settle clock p).user = s.user := by
  match p with
  | .done .read | .done .stop | .done .gone | .ask _ _ => rfl

@[simp] theorem Session.settle_connection (s : Session) (clock : Nat) (p : Proc Next) :
    (s.settle clock p).connection = s.connection := by
  match p with
  | .done .read | .done .stop | .done .gone | .ask _ _ => rfl

@[simp] theorem Session.settle_refreshed (s : Session) (clock : Nat) (p : Proc Next) :
    (s.settle clock p).refreshed = s.refreshed := by
  match p with
  | .done .read | .done .stop | .done .gone | .ask _ _ => rfl

@[simp] theorem Session.settle_sent (s : Session) (clock : Nat) (p : Proc Next) :
    (s.settle clock p).sent = s.sent := by
  match p with
  | .done .read | .done .stop | .done .gone | .ask _ _ => rfl

/-- A settled session remembers what it did before, or starts its cleanup. -/
theorem Session.settle_trace (s : Session) (clock : Nat) (p : Proc Next) :
    (s.settle clock p).trace = s.trace ∨ (s.settle clock p).trace = [] := by
  match p with
  | .done .read | .done .gone | .ask _ _ => exact Or.inl rfl
  | .done .stop => exact Or.inr rfl

@[simp] theorem Session.start_user (s : Session) (clock : Nat) (stage : Stage) :
    (s.start clock stage).user = s.user := Session.settle_user _ _ _

@[simp] theorem Session.start_connection (s : Session) (clock : Nat) (stage : Stage) :
    (s.start clock stage).connection = s.connection := Session.settle_connection _ _ _

@[simp] theorem Session.start_refreshed (s : Session) (clock : Nat) (stage : Stage) :
    (s.start clock stage).refreshed = s.refreshed := Session.settle_refreshed _ _ _

@[simp] theorem Session.start_sent (s : Session) (clock : Nat) (stage : Stage) :
    (s.start clock stage).sent = s.sent := Session.settle_sent _ _ _

theorem Session.start_trace (s : Session) (clock : Nat) (stage : Stage) :
    (s.start clock stage).trace = [] := by
  rcases Session.settle_trace { s with stage, trace := [] } clock
    (stage.program s.user s.connection) with h | h
  · exact h
  · exact h

@[simp] theorem Session.receive_user (s : Session) (clock : Nat) (b : Bool) (e : Exchange api)
    (p : Proc Next) : (s.receive clock b e p).user = s.user := Session.settle_user _ _ _

@[simp] theorem Session.receive_connection (s : Session) (clock : Nat) (b : Bool)
    (e : Exchange api) (p : Proc Next) :
    (s.receive clock b e p).connection = s.connection := Session.settle_connection _ _ _

@[simp] theorem Session.receive_refreshed (s : Session) (clock : Nat) (b : Bool)
    (e : Exchange api) (p : Proc Next) :
    (s.receive clock b e p).refreshed = if b then clock else s.refreshed :=
  Session.settle_refreshed _ _ _

/-- What a session has sent it had sent before, or it is the event it just wrote. -/
theorem Session.mem_receive_sent {s : Session} {clock : Nat} {b : Bool} {e : Exchange api}
    {p : Proc Next} {ev : Event} (h : ev ∈ (s.receive clock b e p).sent) :
    ev ∈ s.sent ∨ e.call = .write ev := by
  unfold Session.receive at h
  rw [Session.settle_sent] at h
  dsimp only at h
  split at h
  · next ev' hcall =>
      rcases List.mem_append.mp h with h | h
      · exact Or.inl h
      · rw [List.mem_singleton.mp h]
        exact Or.inr hcall
  · exact Or.inl h

theorem Session.receive_trace (s : Session) (clock : Nat) (b : Bool) (e : Exchange api)
    (p : Proc Next) :
    (s.receive clock b e p).trace = e :: s.trace ∨ (s.receive clock b e p).trace = [] :=
  Session.settle_trace _ _ _

/-! ## Where the threads of the next state come from -/

inductive Descends (x : System) : Action → Session → Prop where
  | kept (a : Action) (s : Session) (hs : s ∈ x.sessions) : Descends x a s
  | opened (user : Profile) (c : ConnectionID)
      (hnew : c ∉ x.sessions.map Session.connection) :
      Descends x (.accept user c)
        (Session.start { user, connection := c, stage := .opening, activity := .gone }
          x.clock .opening)
  | started (a : Action) (s : Session) (since : Nat) (stage : Stage) (hs : s ∈ x.sessions)
      (ha : s.activity = .reading since) (hm : x.makes a = none) :
      Descends x a (s.start x.clock stage)
  | received (i : Nat) (d : Draw) (fault : Fault) (s : Session) (c : Draw → Call)
      (k : (d : Draw) → Option (c d).Reply → Proc Next) (hs : s ∈ x.sessions)
      (ha : s.activity = .running (.ask c k))
      (hm : x.makes (.turn i d fault) = some (fault, c d)) :
      Descends x (.turn i d fault)
        (s.receive x.clock (decide (fault ≠ .failed) && (c d).refreshes x.store)
          ⟨c d, (x.env.perform fault (c d)).2⟩ (k d (x.env.perform fault (c d)).2))

theorem Move.descends {x x' : System} {a : Action} {s' : Session} (h : Move x a x')
    (hs' : s' ∈ x'.sessions) : Descends x a s' := by
  cases h with
  | accept user c hnew =>
      rcases List.mem_append.mp hs' with hs' | hs'
      · exact .kept _ s' hs'
      · rw [List.mem_singleton.mp hs']
        exact .opened user c hnew
  | frame i f s since hs ha ht =>
      rcases List.mem_or_eq_of_mem_set hs' with hs' | rfl
      · exact .kept _ s' hs'
      · exact .started _ s since _ (List.mem_of_getElem? hs) ha rfl
  | hangup i s since hs ha =>
      rcases List.mem_or_eq_of_mem_set hs' with hs' | rfl
      · exact .kept _ s' hs'
      · exact .started _ s since _ (List.mem_of_getElem? hs) ha rfl
  | turn i d fault s c k hs ha hfresh =>
      rcases List.mem_or_eq_of_mem_set hs' with hs' | rfl
      · exact .kept _ s' hs'
      · exact .received i d fault s c k (List.mem_of_getElem? hs) ha
          (makes_turn hs ha)
  | spawn kind => exact .kept _ s' hs'
  | taskTurn j d fault t c k ht hr hfresh => exact .kept _ s' hs'
  | tick d => exact .kept _ s' hs'

inductive TaskDescends (x : System) : Action → Task → Prop where
  | kept (a : Action) (t : Task) (ht : t ∈ x.tasks) : TaskDescends x a t
  | spawned (kind : TaskKind) : TaskDescends x (.spawn kind) { kind, rest := kind.program }
  | received (j : Nat) (d : Draw) (fault : Fault) (t : Task) (c : Draw → Call)
      (k : (d : Draw) → Option (c d).Reply → Proc Unit) (ht : t ∈ x.tasks)
      (hr : t.rest = .ask c k) (hm : x.makes (.taskTurn j d fault) = some (fault, c d)) :
      TaskDescends x (.taskTurn j d fault)
        { t with
          rest := k d (x.env.perform fault (c d)).2
          trace := ⟨c d, (x.env.perform fault (c d)).2⟩ :: t.trace }

theorem Move.taskDescends {x x' : System} {a : Action} {t' : Task} (h : Move x a x')
    (ht' : t' ∈ x'.tasks) : TaskDescends x a t' := by
  cases h with
  | spawn kind =>
      rcases List.mem_append.mp ht' with ht' | ht'
      · exact .kept _ t' ht'
      · rw [List.mem_singleton.mp ht']
        exact .spawned kind
  | taskTurn j d fault t c k ht hr hfresh =>
      rcases List.mem_or_eq_of_mem_set ht' with ht' | rfl
      · exact .kept _ t' ht'
      · exact .received j d fault t c k (List.mem_of_getElem? ht) hr
          (makes_taskTurn ht hr)
  | accept user c hnew => exact .kept _ t' ht'
  | frame i f s since hs ha ht => exact .kept _ t' ht'
  | hangup i s since hs ha => exact .kept _ t' ht'
  | turn i d fault s c k hs ha hfresh => exact .kept _ t' ht'
  | tick d => exact .kept _ t' ht'

/-! ## The invariant -/

structure System.Sound (x : System) : Prop where
  /-- The store operations that took effect are a run of the store machine. -/
  store : storeMachine.run x.history = some x.env.world
  sessions : ∀ s ∈ x.sessions, s.Consistent
  tasks : ∀ t ∈ x.tasks, Unfolds t.kind.program t.trace t.rest
  /-- Connection ids are drawn once. -/
  connections : (x.sessions.map Session.connection).Nodup

namespace System.Sound

variable {x x' : System} {a : Action}

theorem init (db : Database) : (System.init db).Sound :=
  ⟨rfl, fun _ h => (nomatch h), fun _ h => (nomatch h), List.nodup_nil⟩

theorem coherent (h : x.Sound) : Coherent x.store x.env.world.claims := coherent_of_run h.store

/-- A running session's next call keeps the discipline. -/
theorem allowed (h : x.Sound) {s : Session} (hs : s ∈ x.sessions) {c : Draw → Call}
    {k : (d : Draw) → Option (c d).Reply → Proc Next} (ha : s.activity = .running (.ask c k))
    (d : Draw) : Allowed s.user.id s.connection s.trace (c d) :=
  ((allowed_program s.stage).unfolds ((h.sessions s hs).running _ ha) d).1

theorem taskDisciplined (h : x.Sound) {t : Task} (ht : t ∈ x.tasks) {c : Draw → Call}
    {k : (d : Draw) → Option (c d).Reply → Proc Unit} (hr : t.rest = .ask c k) (d : Draw) :
    TaskDisciplined t.trace (c d) := by
  have hu := h.tasks t ht
  rw [hr] at hu
  exact ((task_program t.kind).unfolds hu d).1

/-- Who makes a call, and what it is allowed to be. -/
theorem makes (h : x.Sound) {fault : Fault} {c : Call} (hm : x.makes a = some (fault, c)) :
    (∃ s ∈ x.sessions, Allowed s.user.id s.connection s.trace c) ∨
      ∃ t ∈ x.tasks, TaskDisciplined t.trace c := by
  cases asks_of_makes hm with
  | session s d ask k hs ha => exact Or.inl ⟨s, hs, h.allowed hs ha d⟩
  | task t d ask k ht hr => exact Or.inr ⟨t, ht, h.taskDisciplined ht hr d⟩

/-- Every script that is called is permitted. -/
theorem permitted (h : x.Sound) {fault : Fault} {op : Op}
    (hm : x.makes a = some (fault, .store op))
    (hfresh : (Call.store op).fresh x.env.world = true) : op.Permitted x.env.world := by
  rcases h.makes hm with ⟨s, _, hd | ⟨now, e⟩⟩ | ⟨t, _, hd⟩
  · cases op with
    | claim k =>
        refine ⟨fun e => hd.1.2 ?_, of_decide_eq_true hfresh⟩
        rw [← e]
        exact hd.1.1
    | endMatch u c m reason => exact hd.1.2.2
    | endForUser u m reason => exact hd.1.elim
    | _ => trivial
  · cases e
    trivial
  · cases op with
    | endForUser u m reason => exact hd
    | expire m now | disconnectExpiry m u now => trivial
    | _ => exact hd.elim

/-- A step is at most one permitted operation on the store. -/
theorem world (h : x.Sound) (hmv : Move x a x') :
    (x.effect a = none ∧ x'.env.world = x.env.world ∧ x'.history = x.history) ∨
      ∃ op, x.effect a = some op ∧ op.Permitted x.env.world ∧
        x'.env.world = x.env.world.after op ∧ x'.history = x.history ++ [op] := by
  have hcall : ∀ {fault c}, x.makes a = some (fault, c) → c.fresh x.env.world = true →
      (x.effect a = none ∧ x'.env.world = x.env.world ∧ x'.history = x.history) ∨
        ∃ op, x.effect a = some op ∧ op.Permitted x.env.world ∧
          x'.env.world = x.env.world.after op ∧ x'.history = x.history ++ [op] := by
    intro fault c hm hfresh
    rw [hmv.env_of_makes hm, hmv.history_of_makes hm, System.effect_of_makes hm]
    rcases perform_world x.env fault c with ⟨hw, hops⟩ | ⟨op, rfl, _, hw, hops⟩
    · rw [hw, hops]
      exact Or.inl ⟨rfl, rfl, List.append_nil _⟩
    · rw [hw, hops]
      exact Or.inr ⟨op, rfl, h.permitted hm hfresh, rfl, rfl⟩
  cases hmv with
  | accept user c hnew => exact Or.inl ⟨rfl, rfl, rfl⟩
  | frame i f s since hs ha ht => exact Or.inl ⟨rfl, rfl, rfl⟩
  | hangup i s since hs ha => exact Or.inl ⟨rfl, rfl, rfl⟩
  | turn i d fault s c k hs ha hfresh => exact hcall (makes_turn hs ha) hfresh
  | spawn kind => exact Or.inl ⟨rfl, rfl, rfl⟩
  | taskTurn j d fault t c k ht hr hfresh => exact hcall (makes_taskTurn ht hr) hfresh
  | tick d => exact Or.inr ⟨_, rfl, trivial, rfl, rfl⟩

/-- The environment of the next state is again that of its history. -/
theorem store_step (h : x.Sound) (hmv : Move x a x') :
    storeMachine.run x'.history = some x'.env.world := by
  rcases h.world hmv with ⟨_, hworld, hhist⟩ | ⟨op, _, hp, hworld, hhist⟩
  · rw [hworld, hhist]
    exact h.store
  · rw [hworld, hhist]
    exact Machine.runFrom_concat_eq_some.mpr ⟨_, h.store, step_eq_some.mpr ⟨hp, rfl⟩⟩

end System.Sound

/-- Who a session is for. -/
def Session.who (s : Session) : ConnectionID × UserID := (s.connection, s.user.id)

theorem map_set_of_eq {α β : Type} {f : α → β} {l : List α} {i : Nat} {a b : α}
    (ha : l[i]? = some a) (hf : f b = f a) : (l.set i b).map f = l.map f := by
  refine List.ext_getElem? fun j => ?_
  rw [List.map_set, hf, List.getElem?_set]
  split
  · next hij =>
      rw [← hij, List.length_map, if_pos (List.getElem?_eq_some_iff.mp ha).1,
        List.getElem?_map, ha]
      rfl
  · rfl

/-- Sessions stay, with their user and connection; one may join. -/
theorem Move.who {x x' : System} {a : Action} (h : Move x a x') :
    x'.sessions.map Session.who = x.sessions.map Session.who ∨
      ∃ user c, a = .accept user c ∧ c ∉ x.sessions.map Session.connection ∧
        x'.sessions.map Session.who = x.sessions.map Session.who ++ [(c, user.id)] := by
  cases h with
  | accept user c hnew =>
      refine Or.inr ⟨user, c, rfl, hnew, ?_⟩
      simp [Session.who]
  | frame i f s since hs ha ht => exact Or.inl (map_set_of_eq hs (by simp [Session.who]))
  | hangup i s since hs ha => exact Or.inl (map_set_of_eq hs (by simp [Session.who]))
  | turn i d fault s c k hs ha hfresh =>
      exact Or.inl (map_set_of_eq hs (by simp [Session.who]))
  | spawn kind => exact Or.inl rfl
  | taskTurn j d fault t c k ht hr hfresh => exact Or.inl rfl
  | tick d => exact Or.inl rfl

theorem map_connection (l : List Session) :
    l.map Session.connection = (l.map Session.who).map Prod.fst := by
  rw [List.map_map]
  rfl

theorem System.Sound.connections_step {x x' : System} {a : Action} (h : x.Sound)
    (hmv : Move x a x') : (x'.sessions.map Session.connection).Nodup := by
  rcases hmv.who with hsame | ⟨user, c, _, hnew, hadd⟩
  · rw [map_connection, hsame, ← map_connection]
    exact h.connections
  · rw [map_connection, hadd, List.map_append, ← map_connection]
    refine List.Nodup.append h.connections (List.nodup_singleton _) ?_
    simpa using hnew

theorem System.Sound.step {x x' : System} {a : Action} (h : x.Sound) (hmv : Move x a x') :
    x'.Sound where
  store := h.store_step hmv
  sessions := by
    intro s' hs'
    cases hmv.descends hs' with
    | kept _ _ hs => exact h.sessions s' hs
    | opened user c _ => exact Session.consistent_start _ _ _
    | started _ s since stage hs ha _ => exact Session.consistent_start _ _ _
    | received i d fault s c k hs ha _ =>
        exact Session.consistent_settle _ (((h.sessions s hs).running _ ha).turn d _)
  tasks := by
    intro t' ht'
    cases hmv.taskDescends ht' with
    | kept _ _ ht => exact h.tasks t' ht
    | spawned kind => exact .start
    | received j d fault t c k ht hr _ =>
        have hu := h.tasks t ht
        rw [hr] at hu
        exact hu.turn d _
  connections := h.connections_step hmv

theorem sound_of_run {db : Database} {as : List Action} {x : System}
    (hrun : (systemMachine db).run as = some x) : x.Sound :=
  Machine.run_invariant (System.Sound.init db) (fun _ _ _ h hstep => h.step (step_move hstep)) hrun

theorem Move.history {x x' : System} {a : Action} (h : Move x a x') :
    x.history <+: x'.history := by
  rcases h.env with ⟨_, hhist, _⟩ | ⟨fault, c, _, _, _, hhist⟩ | ⟨d, _, _, hhist⟩
  · exact ⟨[], (List.append_nil _).trans hhist.symm⟩
  · exact ⟨_, hhist.symm⟩
  · exact ⟨_, hhist.symm⟩

/-- A run of the system refines a run of the store machine. -/
theorem store_runFrom {db : Database} {pre post : List Action} {y x : System}
    (hpre : (systemMachine db).run pre = some y)
    (hpost : (systemMachine db).runFrom y post = some x) :
    ∃ ops, x.history = y.history ++ ops ∧
      storeMachine.runFrom y.env.world ops = some x.env.world := by
  have hx : (systemMachine db).run (pre ++ post) = some x :=
    Machine.runFrom_append_eq_some.mpr ⟨y, hpre, hpost⟩
  obtain ⟨ops, hops⟩ : y.history <+: x.history :=
    Machine.runFrom_invariant (M := systemMachine db) (P := fun v => y.history <+: v.history)
      (fun _ _ _ h hstep => h.trans (step_move hstep).history) hpost (List.prefix_refl _)
  have hstore := (sound_of_run hx).store
  rw [← hops] at hstore
  exact ⟨ops, hops.symm, (Machine.runFrom_append_iff (sound_of_run hpre).store).mp hstore⟩

theorem Commit.profiles {db db' : Database} {c : Call} (h : Commit db c db') :
    db'.profiles = db.profiles := by
  cases h with
  | none => rfl
  | persistConnection m endedAt id durableID db' h =>
      exact (Database.persistConnection_accounts h).2
  | block u target now db' h => exact (Database.block_accounts h).2
  | unblock u target v h => rfl
  | remove u connectionID c now h => rfl

/-- No action changes a profile. -/
theorem profiles_of_run {db : Database} {as : List Action} {x : System}
    (hrun : (systemMachine db).run as = some x) : x.env.db.profiles = db.profiles := by
  refine Machine.run_invariant (P := fun x => x.env.db.profiles = db.profiles) rfl ?_ hrun
  intro x a x' hx hstep
  rcases (step_move hstep).db with hsame | ⟨fault, c, _, _, _, hcommit⟩
  · rw [hsame]
    exact hx
  · exact hcommit.profiles.trans hx

/-! ## Every remembered exchange was made -/

/-- The run took a step at which `e` was made. -/
def Made (db : Database) (as : List Action) (e : Exchange api) : Prop :=
  ∃ u a v fault, (systemMachine db).Taken as u a v ∧ u.makes a = some (fault, e.call) ∧
    v.env = (u.env.perform fault e.call).1 ∧ e.reply = (u.env.perform fault e.call).2

theorem Made.append {db : Database} {as : List Action} {e : Exchange api} (h : Made db as e)
    (bs : List Action) : Made db (as ++ bs) e := by
  obtain ⟨u, a, v, fault, htaken, hrest⟩ := h
  exact ⟨u, a, v, fault, htaken.append bs, hrest⟩

theorem made_of_run {db : Database} {as : List Action} {x : System}
    (hrun : (systemMachine db).run as = some x) :
    (∀ s ∈ x.sessions, ∀ e ∈ s.trace, Made db as e) ∧
      ∀ t ∈ x.tasks, ∀ e ∈ t.trace, Made db as e := by
  refine Machine.run_induction
    (P := fun as x => (∀ s ∈ x.sessions, ∀ e ∈ s.trace, Made db as e) ∧
      ∀ t ∈ x.tasks, ∀ e ∈ t.trace, Made db as e)
    ⟨fun _ h => absurd h List.not_mem_nil, fun _ h => absurd h List.not_mem_nil⟩ ?_ hrun
  rintro as x a x' hpre ⟨hsess, htask⟩ hstep
  have htaken := Machine.taken_concat hpre hstep
  have hmv := step_move hstep
  have hmade : ∀ {fault c}, x.makes a = some (fault, c) →
      Made db (as ++ [a]) ⟨c, (x.env.perform fault c).2⟩ := by
    intro fault c hm
    exact ⟨x, a, x', fault, htaken, hm, hmv.env_of_makes hm, rfl⟩
  refine ⟨fun s' hs' e he => ?_, fun t' ht' e he => ?_⟩
  · cases hmv.descends hs' with
    | kept _ _ hs => exact (hsess s' hs e he).append _
    | opened user c _ =>
        rw [Session.start_trace] at he
        cases he
    | started _ s since stage hs ha _ =>
        rw [Session.start_trace] at he
        cases he
    | received i d fault s c k hs ha hm =>
        rcases s.receive_trace _ _ _ _ with htr | htr
        · rw [htr] at he
          rcases List.mem_cons.mp he with rfl | he
          · exact hmade hm
          · exact (hsess s hs e he).append _
        · rw [htr] at he
          cases he
  · cases hmv.taskDescends ht' with
    | kept _ _ ht => exact (htask t' ht e he).append _
    | spawned kind => cases he
    | received j d fault t c k ht hr hm =>
        rcases List.mem_cons.mp he with rfl | he
        · exact hmade hm
        · exact (htask t ht e he).append _

/-! ## What an answer tells -/

section
variable {db : Database} {as : List Action} {x : System}

/-- An answered call went through. -/
theorem perform_some {e : Env} {fault : Fault} {c : Call} {r : c.Reply}
    (h : (e.perform fault c).2 = some r) : fault = .ok ∧ (e.exec c).2 = some r := by
  cases fault with
  | ok => exact ⟨rfl, h⟩
  | failed | lost => cases h

/-- An answered script ran in the history of the run. -/
theorem made_store {op : Op} {n : Int} (hrun : (systemMachine db).run as = some x)
    (h : Made db as ⟨.store op, some n⟩) :
    ∃ pre post w, x.history = pre ++ op :: post ∧ storeMachine.run pre = some w ∧
      storeMachine.runFrom w (op :: post) = some x.env.world ∧
      (op.exec w.store).reply = .ok n := by
  obtain ⟨u, a, v, fault, ⟨before, after, rfl, hpre, hstep⟩, hm, henv, hreply⟩ := h
  obtain ⟨rfl, hexec⟩ := perform_some hreply.symm
  have hu := (sound_of_run hpre).store
  -- the history of the run splits at the step
  have hv : (systemMachine db).run (before ++ [a]) = some v :=
    Machine.runFrom_concat_eq_some.mpr ⟨u, hpre, hstep⟩
  have hadd : v.history = u.history ++ [op] := (step_move hstep).history_of_makes hm
  have hafter : (systemMachine db).runFrom v after = some x := by
    refine (Machine.runFrom_append_iff hv).mp ?_
    rw [List.append_assoc]
    exact hrun
  obtain ⟨post, hhist, _⟩ := store_runFrom hv hafter
  have hsplit : x.history = u.history ++ op :: post := by
    rw [hhist, hadd, List.append_assoc]
    rfl
  refine ⟨u.history, post, u.env.world, hsplit, hu, ?_, ?_⟩
  · refine (Machine.runFrom_append_iff hu).mp ?_
    rw [← hsplit]
    exact (sound_of_run hrun).store
  · simp only [Env.exec] at hexec
    revert hexec
    cases (op.exec u.store).reply with
    | ok k =>
        intro hexec
        cases hexec
        rfl
    | error e => exact fun hexec => nomatch hexec

/-- The hash that a reader was answered is that of a claim of the run. -/
theorem made_matchHash {m : MatchID} {st : MatchState}
    (hrun : (systemMachine db).run as = some x)
    (h : Made db as ⟨.matchHash m, some (.ok (some st))⟩) :
    st.id = m ∧ ∃ k ∈ x.env.world.claims, st.Records k := by
  obtain ⟨u, a, v, fault, ⟨before, after, rfl, hpre, hstep⟩, hm, henv, hreply⟩ := h
  obtain ⟨rfl, hexec⟩ := perform_some hreply.symm
  have hread : u.store.matchState m = .ok (some st) := Option.some.inj hexec
  obtain ⟨hid, k, hk, hrest⟩ := matchState_eq_some (sound_of_run hpre).coherent hread
  obtain ⟨ops, _, hops⟩ := store_runFrom hpre ((Machine.runFrom_append_iff hpre).mp hrun)
  exact ⟨hid, k, claims_subset_of_runFrom hops hk, hrest⟩

/-- The profile that a reader was answered is the user's. -/
theorem made_profile {u : UserID} {p : Profile} (h : Made db as ⟨.profile u, some p⟩) :
    db.profiles u = some p := by
  obtain ⟨y, a, z, fault, ⟨before, after, rfl, hpre, hstep⟩, hm, henv, hreply⟩ := h
  obtain ⟨rfl, hexec⟩ := perform_some hreply.symm
  rw [← profiles_of_run hpre]
  simp only [Env.exec, Database.profile] at hexec
  split at hexec
  · next hp =>
      cases hexec
      exact hp
  · cases hexec

/-- When PersistConnection answers, the pair has an active row with that id. -/
theorem made_persistConnection {st : MatchState} {endedAt : UnixMilli} {i id : String}
    (h : Made db as ⟨.persistConnection st endedAt i, some id⟩) :
    ∃ u a v, (systemMachine db).Taken as u a v ∧
      u.makes a = some (.ok, .persistConnection st endedAt i) ∧
      (u.env.exec (.persistConnection st endedAt i)).2 = some id ∧
      ∃ r ∈ v.env.db.connections.rows, r.id = id ∧ r.active = true ∧
        r.pair = sortPair st.userA st.userB := by
  obtain ⟨u, a, v, fault, htaken, hm, henv, hreply⟩ := h
  obtain ⟨rfl, hexec⟩ := perform_some hreply.symm
  refine ⟨u, a, v, htaken, hm, hexec, ?_⟩
  rw [henv]
  simp only [Env.perform, Env.exec] at hexec ⊢
  split at hexec
  · next durableID db' hok =>
      cases hexec
      exact ConnectionTable.connect_active (Database.persistConnection_eq_ok hok).2.2.2
  · cases hexec

end

end OneMinute
