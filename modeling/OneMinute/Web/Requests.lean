/-
  OneMinute.Web.Requests

  The requests of the open conversation while they are under way.

  `load` and `send` merge what they get by message id; `older` puts its page
  before the items, whatever they have become since its click.  The page that it
  asked for is below the id that it read then, and later messages do not change
  it (`Log.page_push`).  So the items stay ascending exactly if each such page
  arrives while no item is below that id (`items_ascending_iff`).

  The flags `loading` and `sending` only exclude schedules and are left out.
-/

import OneMinute.Web.Conversation

namespace OneMinute.Web

open Communication (Message pageSize bound)

/-! ## The client -/

inductive Request where
  | load
  /-- `before` is `items[0].id` at the click. -/
  | older (before : Nat)
  | send
deriving DecidableEq, Repr

/-- What the server answers. -/
inductive Reply where
  | page (messages : List Message)
  | message (m : Message)
  /-- Another status. -/
  | refused
  /-- No answer. -/
  | failed
deriving DecidableEq, Repr

/-- A request under way, and its reply once the server has answered. -/
structure Flight where
  request : Request
  reply : Option Reply
deriving DecidableEq, Repr

/-- The client's state and its requests under way. -/
structure Client where
  view : Conversation
  flights : List Flight

/-- What becomes of the client's state when the reply to a request arrives. -/
def Conversation.receive (s : Conversation) : Request → Reply → Conversation
  | .load, .page messages =>
    { s with
      items := merge s.items messages.reverse
      hasOlder := !s.olderExhausted && decide (messages.length = pageSize) }
  | .load, .refused => { s with items := [] }
  | .older _, .page messages =>
    { s with
      olderExhausted := decide (messages.length < pageSize)
      items := messages.reverse ++ s.items
      hasOlder := decide (messages.length = pageSize) }
  | .send, .message m => s.sent m
  | .older _, .refused | .send, .refused | _, .failed => s
  -- no reply of this kind is given to the request
  | .load, .message _ | .older _, .message _ | .send, .page _ => s

/-- What the server answers to a GET, when it is asked. -/
def Request.answer (log : Log) : Request → Answer → Option Reply
  | .load, .ok => some (.page (log.page 0))
  | .older before, .ok => some (.page (log.page before))
  | .send, .ok => none
  | _, .refused => some .refused
  | _, .failed => some .failed

inductive ClientEvent where
  /-- A message of either participant is committed. -/
  | arrival (m : Message)
  | load
  /-- 'Earlier messages' is clicked. -/
  | older
  | send
  /-- The server answers request `i`. -/
  | answer (i : Nat) (answer : Answer)
  /-- It answers the send `i` with the stored message. -/
  | stored (i : Nat) (m : Message)
  /-- The reply to request `i` arrives. -/
  | complete (i : Nat)
deriving DecidableEq, Repr

namespace Client

def init : Client := ⟨.init, []⟩

def issue (s : Client) (r : Request) : Client := { s with flights := s.flights ++ [⟨r, none⟩] }

/-- The server answers request `i`, if it has not yet. -/
def reply (s : Client) (i : Nat) (answer : Request → Option Reply) : Option Client :=
  s.flights[i]?.bind fun f =>
    if f.reply.isSome then none
    else
      (answer f.request).map fun r =>
        { s with flights := s.flights.set i { f with reply := some r } }

def complete (s : Client) (i : Nat) : Option Client :=
  s.flights[i]?.bind fun f =>
    f.reply.map fun r => ⟨s.view.receive f.request r, s.flights.eraseIdx i⟩

def step (s : Client) : ClientEvent → Option Client
  | .arrival m =>
    if h : s.view.log.Takes m then
      some { s with view := { s.view with log := s.view.log.push m h } }
    else none
  | .load => some (s.issue .load)
  | .older =>
    -- the button is there while `hasOlder` is true
    if s.view.hasOlder then
      match s.view.items with
      | [] => some s
      | first :: _ => some (s.issue (.older first.id))
    else none
  | .send => some (s.issue .send)
  | .answer i answer => s.reply i fun r => r.answer s.view.log answer
  | .stored i m =>
    s.reply i fun r => if r = .send ∧ m ∈ s.view.log.rows then some (.message m) else none
  | .complete i => s.complete i

end Client

/-- The open conversation with any requests under way. -/
def clientMachine : Machine Client ClientEvent where
  init := .init
  step := Client.step

/-- The reply is no page of `older`, or no item is below the id of its click. -/
def Flight.Fits (items : List Message) : Flight → Prop
  | ⟨.older before, some (.page _)⟩ => ∀ first ∈ items.head?, before ≤ first.id
  | ⟨.older _, none⟩ | ⟨.older _, some (.message _)⟩ | ⟨.older _, some .refused⟩
  | ⟨.older _, some .failed⟩ | ⟨.load, _⟩ | ⟨.send, _⟩ => True

instance (items : List Message) : (f : Flight) → Decidable (f.Fits items)
  | ⟨.older before, some (.page _)⟩ =>
    inferInstanceAs (Decidable (∀ first ∈ items.head?, before ≤ first.id))
  | ⟨.older _, none⟩ | ⟨.older _, some (.message _)⟩ | ⟨.older _, some .refused⟩
  | ⟨.older _, some .failed⟩ | ⟨.load, _⟩ | ⟨.send, _⟩ => isTrue trivial

/-- A page of `older` arrives while no item is below the id of its click. -/
def OlderFits (s : Client) : ClientEvent → Prop
  | .complete i => ∀ f ∈ s.flights[i]?, f.Fits s.view.items
  | .arrival _ | .load | .older | .send | .answer _ _ | .stored _ _ => True

instance (s : Client) : (a : ClientEvent) → Decidable (OlderFits s a)
  | .complete i => inferInstanceAs (Decidable (∀ f ∈ s.flights[i]?, f.Fits s.view.items))
  | .arrival _ | .load | .older | .send | .answer _ _ | .stored _ _ => isTrue trivial

/-- In the order of the ids, and each once. -/
def Conversation.Ascending (s : Conversation) : Prop :=
  s.items.Pairwise fun m m' => m.id < m'.id

/-! ## One request at a time -/

theorem receive_load (s : Conversation) : s.receive .load (.page (s.log.page 0)) = s.load .ok := rfl

theorem receive_older {s : Conversation} {first : Message} {items : List Message}
    (h : s.items = first :: items) :
    s.receive (.older first.id) (.page (s.log.page first.id)) = s.older := by
  unfold Conversation.older
  rw [h]
  simp only [Conversation.receive, h]

/-! ## Pages -/

section
variable {log : Log} {m x : Message} {before : Nat}

/-- A later message is not below an id that there is. -/
theorem Log.page_push (h : log.Takes m) (hx : x ∈ log.rows) :
    (log.push m h).page x.id = log.page x.id := by
  have hpos := log.positive x hx
  have hbound : bound x.id = some x.id := by
    rw [bound, if_neg (by omega), Int.toNat_natCast]
  have habove : ¬ Paging.Below Message.id (some x.id) m := fun hbelow => by
    have hlt := hbelow x.id rfl
    have hgt := h.2 x hx
    omega
  unfold Log.page Paging.page Paging.descending
  rw [hbound, Log.push, List.filter_append,
    List.filter_cons_of_neg (by simpa using habove), List.filter_nil, List.append_nil]

/-- Below a message there is a page with the message just below it. -/
theorem Log.exists_mem_page (hx : x ∈ log.rows) (hm : m ∈ log.rows) (hlt : m.id < x.id) :
    ∃ y ∈ log.page x.id, m.id ≤ y.id := by
  rcases hpage : log.page x.id with - | ⟨y, page⟩
  · have hshort : (log.page x.id).length < pageSize := by
      rw [hpage]
      decide
    rw [← hpage]
    exact ⟨m, Log.mem_older_of_short hshort hx hm hlt, Nat.le_refl _⟩
  · have hy : y ∈ log.page x.id := hpage ▸ List.mem_cons_self
    rw [← hpage]
    rcases Log.mem_older_or_below hx hy hm hlt with hmem | hbelow
    · exact ⟨m, hmem, Nat.le_refl _⟩
    · exact ⟨y, hy, Nat.le_of_lt hbelow⟩

/-- A page fits before ascending items exactly if none of them is below its bound. -/
theorem ascending_prepend_iff {items : List Message} (hx : x ∈ log.rows)
    (hsubset : ∀ m ∈ items, m ∈ log.rows) (hitems : items.Pairwise fun m m' => m.id < m'.id) :
    ((log.page x.id).reverse ++ items).Pairwise (fun m m' => m.id < m'.id) ↔
      ∀ first ∈ items.head?, x.id ≤ first.id := by
  rw [List.pairwise_append]
  constructor
  · rintro ⟨_, _, habove⟩ first hfirst
    by_contra hlt
    have hmem : first ∈ items := List.mem_of_mem_head? hfirst
    obtain ⟨y, hy, hle⟩ := Log.exists_mem_page hx (hsubset first hmem) (Nat.lt_of_not_le hlt)
    exact Nat.not_lt_of_le hle (habove y (List.mem_reverse.mpr hy) first hmem)
  · intro hfirst
    refine ⟨Log.page_reverse_ascending, hitems, fun m hm m' hm' => ?_⟩
    have hbelow := Log.below_of_mem_page (List.mem_reverse.mp hm) hx
    rcases items with - | ⟨first, items⟩
    · cases hm'
    · have := hfirst first rfl
      have := first_le hitems hm'
      omega

end

/-! ## Runs -/

/-- What is under way refers to messages of the connection. -/
def Flight.Ok (log : Log) (f : Flight) : Prop :=
  match f.request with
  | .load => ∀ messages, f.reply = some (.page messages) → ∀ m ∈ messages, m ∈ log.rows
  | .older before => ∃ x ∈ log.rows, x.id = before ∧
      ∀ messages, f.reply = some (.page messages) → messages = log.page before
  | .send => ∀ m, f.reply = some (.message m) → m ∈ log.rows

structure Client.Sound (s : Client) : Prop where
  subset : ∀ m ∈ s.view.items, m ∈ s.view.log.rows
  flights : ∀ f ∈ s.flights, f.Ok s.view.log

section
variable {s s' : Client} {log : Log} {f : Flight} {a : ClientEvent} {i : Nat}

/-- Later messages leave it so. -/
theorem Flight.Ok.push {m : Message} (hok : f.Ok log) (h : log.Takes m) :
    f.Ok (log.push m h) := by
  have hkept : ∀ x ∈ log.rows, x ∈ (log.push m h).rows := fun x hx => List.mem_append_left _ hx
  unfold Flight.Ok at hok ⊢
  split
  · next hrequest =>
      rw [hrequest] at hok
      exact fun messages hreply x hx => hkept x (hok messages hreply x hx)
  · next before hrequest =>
      rw [hrequest] at hok
      obtain ⟨x, hx, rfl, hpage⟩ := hok
      exact ⟨x, hkept x hx, rfl, fun messages hreply => by
        rw [Log.page_push h hx, hpage messages hreply]⟩
  · next hrequest =>
      rw [hrequest] at hok
      exact fun x hreply => hkept x (hok x hreply)

theorem answer_ok (hf : f.Ok log) (answer : Answer) {r : Reply}
    (h : f.request.answer log answer = some r) : Flight.Ok log { f with reply := some r } := by
  unfold Flight.Ok at hf ⊢
  split
  · next hrequest =>
      simp only at hrequest
      rw [hrequest] at h
      rintro messages hreply x hx
      cases hreply
      cases answer with
      | ok =>
          cases h
          exact Log.mem_of_mem_page hx
      | refused | failed => cases h
  · next before hrequest =>
      simp only at hrequest
      rw [hrequest] at h hf
      obtain ⟨x, hx, hid, _⟩ := hf
      refine ⟨x, hx, hid, ?_⟩
      rintro messages hreply
      cases hreply
      cases answer with
      | ok =>
          cases h
          rfl
      | refused | failed => cases h
  · next hrequest =>
      simp only at hrequest
      rw [hrequest] at h
      rintro m hreply
      cases hreply
      cases answer with
      | ok | refused | failed => cases h

theorem receive_log (v : Conversation) (request : Request) (reply : Reply) :
    (v.receive request reply).log = v.log := by
  cases request <;> cases reply <;> rfl

/-- The items are messages of the connection. -/
theorem receive_subset {v : Conversation} {request : Request} {reply : Reply}
    (hsubset : ∀ m ∈ v.items, m ∈ v.log.rows) (hok : Flight.Ok v.log ⟨request, some reply⟩) :
    ∀ m ∈ (v.receive request reply).items, m ∈ v.log.rows := by
  cases request with
  | load =>
      cases reply with
      | page messages =>
          intro m hm
          have hpage : ∀ x ∈ messages.reverse, x ∈ v.log.rows :=
            fun x hx => hok messages rfl x (List.mem_reverse.mp hx)
          exact ((mem_merge hsubset hpage).mp hm).elim (hsubset m) (hpage m)
      | refused => exact fun m hm => (List.not_mem_nil hm).elim
      | message | failed => exact hsubset
  | older before =>
      cases reply with
      | page messages =>
          obtain ⟨x, hx, rfl, hpage⟩ := hok
          intro m hm
          rcases List.mem_append.mp hm with hm | hm
          · rw [hpage messages rfl, List.mem_reverse] at hm
            exact Log.mem_of_mem_page hm
          · exact hsubset m hm
      | message | refused | failed => exact hsubset
  | send =>
      cases reply with
      | message m =>
          intro x hx
          have hm : ∀ y ∈ [m], y ∈ v.log.rows := fun y hy => List.mem_singleton.mp hy ▸ hok m rfl
          exact ((mem_merge hsubset hm).mp hx).elim (hsubset x) (hm x)
      | page | refused | failed => exact hsubset

theorem Client.Sound.issue (h : s.Sound) {r : Request} (hr : Flight.Ok s.view.log ⟨r, none⟩) :
    (s.issue r).Sound where
  subset := h.subset
  flights := by
    intro f hf
    rcases List.mem_append.mp hf with hf | hf
    · exact h.flights f hf
    · rw [List.mem_singleton.mp hf]
      exact hr

theorem Client.Sound.reply (h : s.Sound) {answer : Request → Option Reply}
    (hanswer : ∀ f ∈ s.flights, ∀ r : Reply, answer f.request = some r →
      Flight.Ok s.view.log { f with reply := some r })
    (hstep : s.reply i answer = some s') : s'.Sound := by
  obtain ⟨f, hf, hstep⟩ := Option.bind_eq_some_iff.mp hstep
  obtain ⟨_, hstep⟩ := Option.ite_none_left_eq_some.mp hstep
  obtain ⟨r, hr, rfl⟩ := Option.map_eq_some_iff.mp hstep
  refine ⟨h.subset, fun g hg => ?_⟩
  rcases List.mem_or_eq_of_mem_set hg with hg | rfl
  · exact h.flights g hg
  · exact hanswer f (List.mem_of_getElem? hf) r hr

/-- What a completion does. -/
theorem Client.complete_eq_some (h : s.complete i = some s') : ∃ request reply,
    s.flights[i]? = some ⟨request, some reply⟩ ∧
      s' = ⟨s.view.receive request reply, s.flights.eraseIdx i⟩ := by
  obtain ⟨⟨request, reply⟩, hf, h⟩ := Option.bind_eq_some_iff.mp h
  obtain ⟨r, rfl, rfl⟩ := Option.map_eq_some_iff.mp h
  exact ⟨request, r, hf, rfl⟩

theorem Client.Sound.complete (h : s.Sound) (hstep : s.complete i = some s') : s'.Sound := by
  obtain ⟨request, reply, hf, rfl⟩ := complete_eq_some hstep
  constructor
  · intro m hm
    rw [receive_log]
    exact receive_subset h.subset (h.flights _ (List.mem_of_getElem? hf)) m hm
  · intro g hg
    rw [receive_log]
    exact h.flights g (List.mem_of_mem_eraseIdx hg)

theorem Client.Sound.step (h : s.Sound) (hstep : s.step a = some s') : s'.Sound := by
  cases a with
  | arrival m =>
      obtain ⟨htakes, hstep⟩ := Option.dite_none_right_eq_some.mp hstep
      cases hstep
      exact ⟨fun x hx => List.mem_append_left _ (h.subset x hx),
        fun f hf => (h.flights f hf).push htakes⟩
  | load =>
      cases hstep
      exact h.issue fun _ hreply => nomatch hreply
  | older =>
      obtain ⟨_, hstep⟩ := Option.ite_none_right_eq_some.mp hstep
      split at hstep
      · cases hstep
        exact h
      · next first items hitems =>
          cases hstep
          exact h.issue ⟨first, h.subset first (hitems ▸ List.mem_cons_self), rfl,
            fun _ hreply => nomatch hreply⟩
  | send =>
      cases hstep
      exact h.issue fun _ hreply => nomatch hreply
  | answer i answer =>
      change s.reply i (fun r => r.answer s.view.log answer) = some s' at hstep
      exact h.reply (fun f hf r hr => answer_ok (h.flights f hf) answer hr) hstep
  | stored i m =>
      change s.reply i (fun r =>
        if r = .send ∧ m ∈ s.view.log.rows then some (.message m) else none) = some s' at hstep
      refine h.reply (fun f hf r hr => ?_) hstep
      obtain ⟨⟨hsend, hm⟩, hr⟩ := Option.ite_none_right_eq_some.mp hr
      cases hr
      simp only [Flight.Ok, hsend]
      intro x hreply
      cases hreply
      exact hm
  | complete i => exact h.complete hstep

/-- Only a page of `older` can disturb the order. -/
theorem Client.step_ascending_iff (hsound : s.Sound) (h : s.view.Ascending)
    (hstep : s.step a = some s') : s'.view.Ascending ↔ OlderFits s a := by
  cases a with
  | arrival m =>
      obtain ⟨_, hstep⟩ := Option.dite_none_right_eq_some.mp hstep
      cases hstep
      exact iff_of_true h trivial
  | load =>
      cases hstep
      exact iff_of_true h trivial
  | older =>
      obtain ⟨_, hstep⟩ := Option.ite_none_right_eq_some.mp hstep
      split at hstep <;> cases hstep <;> exact iff_of_true h trivial
  | send =>
      cases hstep
      exact iff_of_true h trivial
  | answer i answer =>
      obtain ⟨f, _, hstep⟩ := Option.bind_eq_some_iff.mp hstep
      obtain ⟨_, hstep⟩ := Option.ite_none_left_eq_some.mp hstep
      obtain ⟨r, _, rfl⟩ := Option.map_eq_some_iff.mp hstep
      exact iff_of_true h trivial
  | stored i m =>
      obtain ⟨f, _, hstep⟩ := Option.bind_eq_some_iff.mp hstep
      obtain ⟨_, hstep⟩ := Option.ite_none_left_eq_some.mp hstep
      obtain ⟨r, _, rfl⟩ := Option.map_eq_some_iff.mp hstep
      exact iff_of_true h trivial
  | complete i =>
      obtain ⟨request, reply, hf, rfl⟩ := complete_eq_some hstep
      have hok := hsound.flights _ (List.mem_of_getElem? hf)
      have hfits : OlderFits s (.complete i) ↔ Flight.Fits s.view.items ⟨request, some reply⟩ := by
        simp [OlderFits, hf]
      rw [hfits]
      cases request with
      | load =>
          refine iff_of_true ?_ trivial
          cases reply with
          | page messages => exact merge_ascending
          | refused => exact List.Pairwise.nil
          | message | failed => exact h
      | send =>
          refine iff_of_true ?_ trivial
          cases reply with
          | message m => exact merge_ascending
          | page | refused | failed => exact h
      | older before =>
          cases reply with
          | page messages =>
              obtain ⟨x, hx, rfl, hpage⟩ := hok
              obtain rfl := hpage messages rfl
              exact ascending_prepend_iff hx hsound.subset h
          | message | refused | failed => exact iff_of_true h trivial

end

theorem sound_init : Client.init.Sound where
  subset _ hm := (List.not_mem_nil hm).elim
  flights _ hf := (List.not_mem_nil hf).elim

/-- The items are strictly ascending after every event exactly if each page of
    `older` arrives while no item is below the id of its click. -/
theorem items_ascending_iff {as : List ClientEvent} {s : Client}
    (hrun : clientMachine.run as = some s) :
    (∀ pre post t, as = pre ++ post → clientMachine.run pre = some t → t.view.Ascending) ↔
      clientMachine.Along OlderFits .init as := by
  have hsound : ∀ {pre : List ClientEvent} {t : Client},
      clientMachine.run pre = some t → t.Sound :=
    fun hpre => Machine.run_invariant (P := Client.Sound) sound_init
      (fun _ _ _ hs hstep => hs.step hstep) hpre
  refine Iff.trans ?_ (Machine.forall_iff_along (P := fun s : Client => s.Sound ∧ s.view.Ascending)
    (C := OlderFits) (D := fun _ _ => True) ?_ hrun (fun _ _ _ _ _ _ => trivial)
    ⟨sound_init, List.Pairwise.nil⟩)
  · constructor
    · exact fun hasc pre post t hsplit hpre => ⟨hsound hpre, hasc pre post t hsplit hpre⟩
    · exact fun hboth pre post t hsplit hpre => (hboth pre post t hsplit hpre).2
  · rintro s a s' ⟨hs, hasc⟩ _ hstep
    rw [← Client.step_ascending_iff hs hasc hstep]
    exact and_iff_right (hs.step hstep)

/-- 61 messages, of which a load shows the newest 60. -/
def loaded : List ClientEvent :=
  (List.range 61).map (fun k => ClientEvent.arrival (row (k + 1)))
    ++ [.load, .answer 0 .ok, .complete 0]

/-- The first message is asked for while a message is sent and a load is refused. -/
def overlapping : List ClientEvent :=
  loaded ++ [.send, .older, .load, .arrival (row 62), .stored 0 (row 62), .answer 1 .ok,
    .answer 2 .refused, .complete 2, .complete 0, .complete 0]

theorem items_ascending_iff_overlapping : ∃ s,
    clientMachine.run overlapping = some s ∧ s.view.items.map Message.id = [1, 62] ∧
      s.view.Ascending := by
  have hobs : (clientMachine.run overlapping).map (fun s => s.view.items.map Message.id) =
      some [1, 62] := by
    decide +kernel
  obtain ⟨s, hs, hitems⟩ := Option.map_eq_some_iff.mp hobs
  have halong : clientMachine.Along OlderFits .init overlapping := by
    decide +kernel
  exact ⟨s, hs, hitems, (items_ascending_iff hs).mpr halong overlapping [] s (by simp) hs⟩

/-- 'Earlier messages' is clicked twice before the first page arrives. -/
def clickedTwice : List ClientEvent :=
  loaded ++ [.older, .older, .answer 0 .ok, .answer 1 .ok, .complete 0, .complete 0]

/-- The first message is shown twice. -/
theorem not_items_ascending_clickedTwice : ¬ ∀ as s,
    clientMachine.run as = some s → s.view.Ascending := by
  intro h
  have hobs : (clientMachine.run clickedTwice).map (fun s =>
      (s.view.items.map Message.id).take 3) = some [1, 1, 2] := by
    decide +kernel
  obtain ⟨s, hs, hitems⟩ := Option.map_eq_some_iff.mp hobs
  have hids : (s.view.items.map Message.id).Pairwise fun n n' => n < n' :=
    List.pairwise_map.mpr (h _ s hs)
  have htake := hids.sublist (List.take_sublist 3 _)
  rw [hitems] at htake
  exact absurd htake (by decide)

end OneMinute.Web
