/-
  OneMinute.Limits

  The limits per minute.  The communication service counts the mutations, the
  invitations and the moments of an account, the laboratory the rooms of a host,
  all in one Redis and by one script (`FixedWindow`); the keys keep the counters
  apart (`Limit.key_injective`).

  A request asks a limit at one instant (`allow`), whatever the other requests
  do between: Redis may be out of reach, and the reply of a script that ran may
  be lost, which counts and admits nothing.  What is admitted of a host's requests
  are the rooms that it made (`admits`).

    * `admitted_lt`   — in n minutes a limit admits fewer than n + 1 times its
                        maximum;
    * `refused_le`    — and it refuses nobody who has asked less than its maximum
                        in the last minute.
-/

import OneMinute.Discovery.Protocol
import OneMinute.Lib.FixedWindow

namespace OneMinute.Limits

open Discovery (UserID)
open FixedWindow

/-! ## The limits -/

/-- The buckets of `allow`. -/
inductive Bucket where
  | mutations
  | invites
  | moments
deriving DecidableEq, Repr

def Bucket.name : Bucket → String
  | .mutations => "mutations"
  | .invites => "invites"
  | .moments => "moments"

def Bucket.maximum : Bucket → Nat
  | .mutations => 360
  | .invites => 6
  | .moments => 6

/-- What is counted: a bucket of an account, or the rooms of a host. -/
inductive Limit where
  | account (bucket : Bucket) (user : UserID)
  | rooms (host : String)
deriving DecidableEq, Repr

/-- The counter in Redis. -/
def Limit.key : Limit → String
  | .account bucket user => "communication:limit:" ++ bucket.name ++ ":" ++ user
  | .rooms host => "lab:rate:" ++ host

def Limit.maximum : Limit → Nat
  | .account bucket _ => bucket.maximum
  | .rooms _ => 10

/-- EXPIRE 60, in milliseconds. -/
def lifetime : Nat := 60000

/-! ## The handlers -/

/-- What becomes of the script. -/
inductive Reach where
  | replied
  /-- It ran, and its reply was lost. -/
  | lost
  /-- It never ran. -/
  | failed
deriving DecidableEq, Repr

/-- A response: the status, the Retry-After header and the text of the error. -/
structure Response where
  status : Nat
  retryAfter : Option Nat := none
  error : Option String := none
deriving DecidableEq, Repr

/-- The script, and what a limit says then: `none` if it admits. -/
def ask (m : Meter String) (l : Limit) (reach : Reach) (down full : Response) :
    Meter String × Option Response :=
  match reach with
  | .failed => (m, some down)
  | .lost => (m.hit lifetime l.key, some down)
  | .replied =>
    (m.hit lifetime l.key, if l.maximum < m.next l.key then some full else none)

/-- `allow` of the communication service. -/
def allow (m : Meter String) (user : UserID) (bucket : Bucket) (reach : Reach) :
    Meter String × Option Response :=
  ask m (.account bucket user) reach ⟨503, none, some "Please try again shortly"⟩
    ⟨429, some 60, some "Please slow down and try again shortly"⟩

/-- A request to the communication service: the account that its session has,
    if any, its method, and whether its origin is the application's. -/
structure Request where
  session : Option UserID
  method : String
  sameOrigin : Bool
deriving DecidableEq, Repr

/-- `user`: the account, or the response that it writes. -/
def user (m : Meter String) (r : Request) (reach : Reach) :
    Meter String × Except Response UserID :=
  match r.session with
  | none => (m, .error ⟨401, none, some "Sign in required"⟩)
  | some u =>
    if r.method ≠ "GET" ∧ r.sameOrigin = false then
      (m, .error ⟨403, none, some "Origin rejected"⟩)
    else if r.method ≠ "GET" then
      match allow m u .mutations reach with
      | (m', some refusal) => (m', .error refusal)
      | (m', none) => (m', .ok u)
    else (m, .ok u)

/-- A request to the laboratory for a room, and whether Redis then makes it. -/
structure RoomsRequest where
  host : String
  method : String
  sameOrigin : Bool
  made : Bool
deriving DecidableEq, Repr

/-- `rooms` of the laboratory. -/
def rooms (m : Meter String) (r : RoomsRequest) (reach : Reach) : Meter String × Response :=
  if r.sameOrigin = false then (m, ⟨403, none, some "origin not allowed"⟩)
  else if r.method = "OPTIONS" then (m, ⟨204, none, none⟩)
  else if r.method ≠ "POST" then (m, ⟨405, none, some "method not allowed"⟩)
  else
    match ask m (.rooms r.host) reach ⟨503, none, some "temporarily unavailable"⟩
        ⟨429, none, some "too many rooms"⟩ with
    | (m', some refusal) => (m', refusal)
    | (m', none) =>
      (m', if r.made then ⟨201, none, none⟩ else ⟨503, none, some "temporarily unavailable"⟩)

/-! ## Runs -/

/-- What can happen next. -/
inductive GateOp where
  /-- A request arrives at the communication service. -/
  | user (r : Request) (reach : Reach)
  /-- Its handler asks a bucket of its own. -/
  | allow (u : UserID) (bucket : Bucket) (reach : Reach)
  /-- A request for a room. -/
  | rooms (r : RoomsRequest) (reach : Reach)
  | elapse (d : Nat)
deriving DecidableEq, Repr

/-- The meter after an operation, and the response if it ends the request. -/
def GateOp.exec (m : Meter String) : GateOp → Meter String × Option Response
  | .user r reach =>
    match Limits.user m r reach with
    | (m', .error refusal) => (m', some refusal)
    | (m', .ok _) => (m', none)
  | .allow u bucket reach => Limits.allow m u bucket reach
  | .rooms r reach => (Limits.rooms m r reach).map id some
  | .elapse d => (m.elapse d, none)

/-- The limit that `user` asks, if it comes to that. -/
def Request.asks (r : Request) : Option Limit :=
  match r.session with
  | some u => if r.method ≠ "GET" ∧ r.sameOrigin = true then some (.account .mutations u) else none
  | none => none

/-- The limit that `rooms` asks. -/
def RoomsRequest.asks (r : RoomsRequest) : Option Limit :=
  if r.sameOrigin = true ∧ r.method = "POST" then some (.rooms r.host) else none

/-- The limit that an operation asks. -/
def GateOp.asks : GateOp → Option Limit
  | .user r _ => r.asks
  | .allow u bucket _ => some (.account bucket u)
  | .rooms r _ => r.asks
  | .elapse _ => none

def GateOp.reach : GateOp → Reach
  | .user _ reach | .allow _ _ reach | .rooms _ reach => reach
  | .elapse _ => .failed

/-- The limit in whose counter the operation is counted, if any. -/
def GateOp.counts (op : GateOp) : Option Limit := if op.reach = .failed then none else op.asks

/-- The request goes on, or it has made a room.  A request that the limit of a host
    let through and that failed afterwards, with 503, is counted and made no room: it
    is not among those admitted. -/
def admits (response : Option Response) : Bool :=
  decide (response = none ∨ response = some ⟨201, none, none⟩)

/-- What was counted: the limit, the instant, the count, and whether the request
    was admitted. -/
structure Asked where
  limit : Limit
  time : Nat
  count : Nat
  admitted : Bool
deriving DecidableEq, Repr

structure Gate where
  meter : Meter String
  /-- What was counted so far, the last first. -/
  log : List Asked

def Gate.after (s : Gate) (op : GateOp) : Gate where
  meter := (op.exec s.meter).1
  log :=
    match op.counts with
    | some l =>
      ⟨l, s.meter.clock, s.meter.next l.key, admits (op.exec s.meter).2⟩ :: s.log
    | none => s.log

def gate : Machine Gate GateOp := ⟨⟨.empty, []⟩, fun s op => some (s.after op)⟩

/-- How often a limit has admitted a request between two instants. -/
def Gate.admitted (s : Gate) (l : Limit) (a b : Nat) : Nat :=
  s.log.countP fun e => decide (e.limit = l ∧ e.admitted = true ∧ a ≤ e.time ∧ e.time ≤ b)

/-- How often a limit was asked in the last minute. -/
def Gate.recent (s : Gate) (l : Limit) : Nat :=
  s.log.countP fun e => decide (e.limit = l ∧ s.meter.clock ≤ e.time + lifetime)

/-! ## The keys -/

/-- Texts that differ in their first `n` characters. -/
theorem append_ne {a b : String} (n : Nat) (x y : String) (ha : n ≤ a.toList.length)
    (hb : n ≤ b.toList.length) (h : a.toList.take n ≠ b.toList.take n) : a ++ x ≠ b ++ y := by
  intro heq
  have htake := congrArg (fun t : String => t.toList.take n) heq
  rw [String.toList_append, String.toList_append, List.take_append_of_le_length ha,
    List.take_append_of_le_length hb] at htake
  exact h htake

theorem append_left_cancel {a x y : String} (h : a ++ x = a ++ y) : x = y := by
  have hchars := congrArg String.toList h
  rw [String.toList_append, String.toList_append] at hchars
  exact String.toList_injective (List.append_cancel_left hchars)

/-- What stands before the account in a key. -/
def Bucket.before (bucket : Bucket) : String := "communication:limit:" ++ bucket.name ++ ":"

theorem before_take_ne {bucket bucket' : Bucket} (h : bucket ≠ bucket') :
    23 ≤ bucket.before.toList.length ∧
      bucket.before.toList.take 23 ≠ bucket'.before.toList.take 23 := by
  cases bucket <;> cases bucket' <;> first | exact absurd rfl h | decide +kernel

theorem key_injective : Function.Injective Limit.key := by
  have hother : ∀ bucket u host, (Limit.account bucket u).key ≠ (Limit.rooms host).key := by
    intro bucket u host
    show bucket.before ++ u ≠ "lab:rate:" ++ host
    unfold Bucket.before
    rw [String.append_assoc, String.append_assoc]
    exact append_ne 1 _ _ (by decide) (by decide) (by decide)
  intro l l' h
  cases l with
  | account bucket u =>
      cases l' with
      | account bucket' u' =>
          replace h : bucket.before ++ u = bucket'.before ++ u' := h
          by_cases hb : bucket = bucket'
          · subst hb
            rw [append_left_cancel h]
          · obtain ⟨hlen, hne⟩ := before_take_ne hb
            exact absurd h (append_ne 23 u u' hlen (before_take_ne fun e => hb e.symm).1 hne)
      | rooms host => exact absurd h (hother bucket u host)
  | rooms host =>
      cases l' with
      | account bucket u => exact absurd h.symm (hother bucket u host)
      | rooms host' => rw [append_left_cancel h]

/-! ## What an operation asks -/

section
variable {m : Meter String} {l : Limit} {reach : Reach} {down full r : Response} {op : GateOp}
  {s : Gate}

/-- What the response to a counted operation says about the counter. -/
structure Says (m : Meter String) (l : Limit) (response : Option Response) : Prop where
  admitted : admits response = true → m.next l.key ≤ l.maximum
  full : ∀ r, response = some r → r.status = 429 → l.maximum < m.next l.key

theorem ask_meter (m : Meter String) (l : Limit) (reach : Reach) (down full : Response) :
    (ask m l reach down full).1 =
    if reach = .failed then m else m.hit lifetime l.key := by
  cases reach <;> rfl

/-- A limit that admits. -/
theorem ask_none (h : (ask m l reach down full).2 = none) : m.next l.key ≤ l.maximum := by
  cases reach with
  | failed => cases h
  | lost => cases h
  | replied =>
      change (if l.maximum < m.next l.key then some full else none) = none at h
      split at h
      · cases h
      · next hle => exact Nat.le_of_not_lt hle

/-- A limit that refuses: it is full, or Redis did not answer. -/
theorem ask_some (h : (ask m l reach down full).2 = some r) :
    r = down ∨ r = full ∧ l.maximum < m.next l.key := by
  cases reach with
  | failed => exact Or.inl (Option.some.inj h).symm
  | lost => exact Or.inl (Option.some.inj h).symm
  | replied =>
      change (if l.maximum < m.next l.key then some full else none) = some r at h
      split at h
      · next hlt => exact Or.inr ⟨(Option.some.inj h).symm, hlt⟩
      · cases h

theorem says_ask (m : Meter String) (l : Limit) (reach : Reach) (hdown : down.status = 503)
    (hfull : full.status = 429) : Says m l (ask m l reach down full).2 where
  admitted := by
    intro h
    rcases of_decide_eq_true h with h | h
    · exact ask_none h
    · rcases ask_some h with h | ⟨h, -⟩ <;> simp [← h] at hdown hfull
  full := by
    intro r hr hstatus
    rcases ask_some hr with rfl | ⟨-, hlt⟩
    · rw [hdown] at hstatus
      cases hstatus
    · exact hlt

/-- What a request does to the meter and what it hears: nothing and no 429, or
    what its limit says. -/
inductive Course (m : Meter String) (reach : Reach) :
    Option Limit → Meter String × Option Response → Prop where
  | unasked {response : Option Response} (h : ∀ r, response = some r → r.status ≠ 429) :
      Course m reach none (m, response)
  | asked {l : Limit} {result : Meter String × Option Response}
      (hmeter : result.1 = if reach = .failed then m else m.hit lifetime l.key)
      (htells : Says m l result.2) : Course m reach (some l) result

theorem allow_course (m : Meter String) (reach : Reach) (u : UserID) (bucket : Bucket) :
    Course m reach (some (.account bucket u)) (allow m u bucket reach) :=
  .asked (ask_meter _ _ _ _ _) (says_ask _ _ _ rfl rfl)

theorem user_course (r : Request) :
    Course m reach r.asks ((GateOp.user r reach).exec m) := by
  obtain ⟨session, method, sameOrigin⟩ := r
  cases session with
  | none =>
      refine .unasked fun r hr => ?_
      obtain rfl := Option.some.inj hr
      decide
  | some u =>
      show Course m reach (if method ≠ "GET" ∧ sameOrigin = true then _ else none) _
      unfold GateOp.exec user
      dsimp only
      by_cases hget : method = "GET"
      · rw [if_neg (fun h => h.1 hget), if_neg (fun h => h.1 hget), if_neg (not_not.mpr hget)]
        exact .unasked fun r hr => by cases hr
      · cases sameOrigin with
        | false =>
            rw [if_neg (fun h => by cases h.2), if_pos ⟨hget, rfl⟩]
            refine .unasked fun r hr => ?_
            obtain rfl := Option.some.inj hr
            decide
        | true =>
            rw [if_pos ⟨hget, rfl⟩, if_neg (fun h => by cases h.2), if_pos hget]
            have hallow := allow_course m reach u .mutations
            generalize allow m u .mutations reach = result at hallow ⊢
            rcases result with ⟨m', _ | refusal⟩ <;> exact hallow

theorem rooms_course (r : RoomsRequest) :
    Course m reach r.asks ((GateOp.rooms r reach).exec m) := by
  obtain ⟨host, method, sameOrigin, made⟩ := r
  show Course m reach (if sameOrigin = true ∧ method = "POST" then _ else none) _
  unfold GateOp.exec rooms
  dsimp only
  cases sameOrigin with
  | false =>
      rw [if_neg (fun h => by cases h.1), if_pos rfl]
      refine .unasked fun r hr => ?_
      obtain rfl := Option.some.inj hr
      decide
  | true =>
      rw [if_neg (c := true = false) (by decide)]
      by_cases hoptions : method = "OPTIONS"
      · subst hoptions
        rw [if_neg (fun h => absurd h.2 (by decide)), if_pos rfl]
        refine .unasked fun r hr => ?_
        obtain rfl := Option.some.inj hr
        decide
      · rw [if_neg hoptions]
        by_cases hpost : method = "POST"
        · rw [if_pos ⟨rfl, hpost⟩, if_neg (not_not.mpr hpost)]
          -- past the limit the answer is 201 or 503
          let down : Response := ⟨503, none, some "temporarily unavailable"⟩
          let full : Response := ⟨429, none, some "too many rooms"⟩
          have hmeter := ask_meter m (.rooms host) reach down full
          have htells : Says m (.rooms host) (ask m (.rooms host) reach down full).2 :=
            says_ask m (.rooms host) reach rfl rfl
          generalize ask m (.rooms host) reach down full = result at hmeter htells ⊢
          rcases result with ⟨m', _ | refusal⟩
          · refine .asked hmeter ⟨fun _ => htells.admitted rfl, fun r hr hstatus => ?_⟩
            obtain rfl := Option.some.inj hr
            cases made <;> cases hstatus
          · exact .asked hmeter htells
        · rw [if_neg (fun h => hpost h.2), if_pos hpost]
          refine .unasked fun r hr => ?_
          obtain rfl := Option.some.inj hr
          decide

theorem exec_course (m : Meter String) (op : GateOp) :
    (∃ d, op = .elapse d) ∨ Course m op.reach op.asks (op.exec m) := by
  cases op with
  | elapse d => exact Or.inl ⟨d, rfl⟩
  | user r reach => exact Or.inr (user_course r)
  | allow u bucket reach => exact Or.inr (allow_course m reach u bucket)
  | rooms r reach => exact Or.inr (rooms_course r)

/-- An operation that is counted. -/
theorem exec_of_counts (h : op.counts = some l) :
    (op.exec m).1 = m.hit lifetime l.key ∧ Says m l (op.exec m).2 := by
  unfold GateOp.counts at h
  split at h
  · cases h
  · next hreach =>
      rcases exec_course m op with ⟨d, rfl⟩ | hcourse
      · cases h
      · rw [h] at hcourse
        generalize op.exec m = result at hcourse ⊢
        cases hcourse with
        | asked hmeter htells => exact ⟨hmeter.trans (if_neg hreach), htells⟩

/-- An operation that is not counted leaves the counters to time. -/
theorem exec_of_uncounted (h : op.counts = none) :
    (op.exec m).1 = m ∨ ∃ d, (op.exec m).1 = m.elapse d := by
  rcases exec_course m op with ⟨d, rfl⟩ | hcourse
  · exact Or.inr ⟨d, rfl⟩
  · left
    unfold GateOp.counts at h
    generalize hasks : op.asks = asks at h hcourse
    generalize op.exec m = result at hcourse ⊢
    cases hcourse with
    | unasked _ => rfl
    | asked hmeter _ =>
        split at h
        · next hreach => exact hmeter.trans (if_pos hreach)
        · cases h

/-! ## Runs of the gate -/

/-- The log is what the meter has seen, and whoever was admitted was within the
    maximum. -/
structure Gate.Sound (s : Gate) : Prop where
  paced : Paced lifetime s.meter
  seen : s.meter.hits.map (fun h => (h.key, h.time, h.count)) =
    s.log.map fun e => (e.limit.key, e.time, e.count)
  within : ∀ e ∈ s.log, e.admitted = true → e.count ≤ e.limit.maximum

theorem Gate.Sound.after (h : s.Sound) (op : GateOp) : (s.after op).Sound := by
  cases hcounts : op.counts with
  | none =>
      have hlog : (s.after op).log = s.log := by
        unfold Gate.after
        rw [hcounts]
      have hmeter : (s.after op).meter = (op.exec s.meter).1 := rfl
      rcases exec_of_uncounted (m := s.meter) hcounts with hsame | ⟨d, hd⟩
      · refine ⟨?_, ?_, ?_⟩
        · rw [hmeter, hsame]
          exact h.paced
        · rw [hmeter, hsame, hlog]
          exact h.seen
        · rw [hlog]
          exact h.within
      · refine ⟨?_, ?_, ?_⟩
        · rw [hmeter, hd]
          exact h.paced.elapse d
        · rw [hmeter, hd, hlog]
          exact h.seen
        · rw [hlog]
          exact h.within
  | some l =>
      obtain ⟨hmeter, htells⟩ := exec_of_counts (m := s.meter) hcounts
      have hlog : (s.after op).log =
          ⟨l, s.meter.clock, s.meter.next l.key, admits (op.exec s.meter).2⟩ :: s.log := by
        unfold Gate.after
        rw [hcounts]
      have hmeter' : (s.after op).meter = s.meter.hit lifetime l.key := hmeter
      refine ⟨?_, ?_, ?_⟩
      · rw [hmeter']
        exact h.paced.hit l.key
      · rw [hmeter', hlog]
        exact congrArg ((l.key, s.meter.clock, s.meter.next l.key) :: ·) h.seen
      · rw [hlog]
        rintro e (_ | ⟨_, he⟩) hadmitted
        · exact htells.admitted hadmitted
        · exact h.within e he hadmitted

theorem sound_of_run {ops : List GateOp} (hrun : gate.run ops = some s) : s.Sound := by
  refine Machine.run_invariant ?_ ?_ hrun
  · exact ⟨paced_empty, rfl, fun _ h => absurd h List.not_mem_nil⟩
  · intro s op t hs hstep
    obtain rfl := Option.some.inj hstep
    exact hs.after op

/-- What the log says about a limit is what the meter says about its key. -/
theorem Gate.Sound.countP_log (h : s.Sound) (l : Limit) (p : Nat → Nat → Bool) :
    s.log.countP (fun e => decide (e.limit = l) && p e.time e.count) =
      s.meter.hits.countP fun g => decide (g.key = l.key) && p g.time g.count := by
  have hkeys : ∀ e : Asked, decide (e.limit = l) = decide (e.limit.key = l.key) :=
    fun e => decide_eq_decide.mpr key_injective.eq_iff.symm
  have hseen := congrArg (List.countP fun x : String × Nat × Nat =>
    decide (x.1 = l.key) && p x.2.1 x.2.2) h.seen
  rw [List.countP_map, List.countP_map] at hseen
  simp only [hkeys]
  exact hseen.symm

/-- In every run, whatever is lost and however the requests come: in `n` minutes,
    both ends included, a limit admits fewer than `n + 1` times its maximum. -/
theorem admitted_lt {ops : List GateOp} (hrun : gate.run ops = some s) (l : Limit) (a : Nat)
    {n : Nat} (hn : 0 < n) : s.admitted l a (a + n * lifetime) < (n + 1) * l.maximum := by
  have hs := sound_of_run hrun
  have hmaximum : 0 < l.maximum := by
    rcases l with ⟨bucket, -⟩ | -
    · cases bucket <;> exact Nat.succ_pos _
    · exact Nat.succ_pos _
  calc s.admitted l a (a + n * lifetime)
      ≤ s.log.countP fun e => decide (e.limit = l) &&
          decide (e.count ≤ l.maximum ∧ a ≤ e.time ∧ e.time ≤ a + n * lifetime) := by
        refine List.countP_mono_left fun e he hadmitted => ?_
        obtain ⟨rfl, hyes, hfrom, hto⟩ := of_decide_eq_true hadmitted
        rw [Bool.and_eq_true, decide_eq_true_eq, decide_eq_true_eq]
        exact ⟨rfl, hs.within e he hyes, hfrom, hto⟩
    _ = s.meter.hits.countP fun g => decide (g.key = l.key) &&
          decide (g.count ≤ l.maximum ∧ a ≤ g.time ∧ g.time ≤ a + n * lifetime) :=
        hs.countP_log l fun t c => decide (c ≤ l.maximum ∧ a ≤ t ∧ t ≤ a + n * lifetime)
    _ ≤ s.meter.hits.countP fun g => decide (g.Passed l.key l.maximum a (a + n * lifetime)) := by
        refine List.countP_mono_left fun g _ hg => ?_
        rw [Bool.and_eq_true, decide_eq_true_eq, decide_eq_true_eq] at hg
        exact decide_eq_true hg
    _ < (n + 1) * l.maximum := hs.paced.countP_passed_lt l.key a hmaximum hn

/-- In every reachable state: a request is told to slow down only if its limit was
    asked as often as its maximum in the last minute; what other accounts and
    hosts do, and what Redis has refused before, does not count. -/
theorem refused_le {ops : List GateOp} (hrun : gate.run ops = some s)
    (hrefused : (op.exec s.meter).2 = some r) (hstatus : r.status = 429) :
    ∃ l, op.asks = some l ∧ l.maximum ≤ s.recent l := by
  have hs := sound_of_run hrun
  rcases exec_course s.meter op with ⟨d, rfl⟩ | hcourse
  · cases hrefused
  · generalize op.asks = asks at hcourse ⊢
    generalize op.exec s.meter = result at hcourse hrefused
    cases hcourse with
    | unasked h => exact absurd hstatus (h r hrefused)
    | asked hmeter htells =>
        rename_i l
        refine ⟨l, rfl, ?_⟩
        have hlt := htells.full r hrefused hstatus
        have hnext := hs.paced.next_le l.key
        have hhits : (s.meter.hits.countP fun g => decide (g.Recent lifetime l.key s.meter.clock)) =
            s.meter.hits.countP fun g =>
              decide (g.key = l.key) && decide (s.meter.clock ≤ g.time + lifetime) :=
          List.countP_congr fun g _ => by
            rw [Bool.and_eq_true, decide_eq_true_eq, decide_eq_true_eq, decide_eq_true_eq]
            exact Iff.rfl
        have hlog : s.recent l = s.log.countP fun e =>
            decide (e.limit = l) && decide (s.meter.clock ≤ e.time + lifetime) :=
          List.countP_congr fun e _ => by
            rw [Bool.and_eq_true, decide_eq_true_eq, decide_eq_true_eq, decide_eq_true_eq]
        rw [hhits, ← hs.countP_log l fun t _ => decide (s.meter.clock ≤ t + lifetime), ← hlog]
          at hnext
        omega

end

/-- Ann invites at the end of a window and in the next one. -/
def burst : List GateOp :=
  let invite := GateOp.allow "ann" .invites .replied
  invite :: .elapse 60000 :: List.replicate 5 invite ++ .elapse 1 :: List.replicate 6 invite

theorem admitted_lt_burst : ∃ s, gate.run burst = some s ∧
    s.admitted (.account .invites "ann") 1 (1 + 1 * lifetime) = 11 ∧ 11 < (1 + 1) * 6 := by
  have hobs : (gate.run burst).map (fun s =>
      s.admitted (.account .invites "ann") 1 (1 + 1 * lifetime)) = some 11 := by
    decide +kernel
  obtain ⟨s, hs, hcount⟩ := Option.map_eq_some_iff.mp hobs
  have hlt := admitted_lt hs (.account .invites "ann") 1 Nat.zero_lt_one
  rw [hcount] at hlt
  exact ⟨s, hs, hcount, hlt⟩

theorem refused_le_burst : ∃ s, gate.run burst = some s ∧
    ∃ l, (GateOp.allow "ann" .invites .replied).asks = some l ∧ l.maximum ≤ s.recent l := by
  have hobs : (gate.run burst).map (fun s =>
      ((GateOp.allow "ann" .invites .replied).exec s.meter).2) =
        some (some ⟨429, some 60, some "Please slow down and try again shortly"⟩) := by
    decide +kernel
  obtain ⟨s, hs, hrefused⟩ := Option.map_eq_some_iff.mp hobs
  exact ⟨s, hs, refused_le hs hrefused rfl⟩

end OneMinute.Limits
