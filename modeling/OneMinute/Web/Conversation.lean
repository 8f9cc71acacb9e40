/-
  OneMinute.Web.Conversation

  The open conversation of the web client: its items, `hasOlder` and
  `olderExhausted`, against the messages of the connection.

  `load` merges the newest page into the items and `older` puts the page below
  the first item before them.  So a gap that `load` leaves is never closed, and a
  flag that says that nothing is left below outlives the items that it was about.
  The history stays reachable exactly when neither happens
  (`history_reachable_iff`).
-/

import OneMinute.Communication.History

namespace OneMinute.Web

open Communication (Message pageSize bound)

/-! ## The messages of the connection -/

/-- The committed messages in the order of their ids, which begin at 1. -/
@[ext] structure Log where
  rows : List Message
  ascending : rows.Pairwise fun m m' => m.id < m'.id
  positive : ∀ m ∈ rows, 1 ≤ m.id

namespace Log

def empty : Log := ⟨[], List.Pairwise.nil, fun _ hm => (List.not_mem_nil hm).elim⟩

/-- `m` can be the next message. -/
def Takes (log : Log) (m : Message) : Prop := 1 ≤ m.id ∧ ∀ m' ∈ log.rows, m'.id < m.id

instance (log : Log) (m : Message) : Decidable (log.Takes m) := inferInstanceAs (Decidable (_ ∧ _))

def push (log : Log) (m : Message) (h : log.Takes m) : Log where
  rows := log.rows ++ [m]
  ascending := by
    refine List.pairwise_append.mpr ⟨log.ascending, List.pairwise_singleton _ _, ?_⟩
    intro m' hm' m'' hm''
    rw [List.mem_singleton.mp hm'']
    exact h.2 m' hm'
  positive := by
    intro m' hm'
    rcases List.mem_append.mp hm' with hm' | hm'
    · exact log.positive m' hm'
    · rw [List.mem_singleton.mp hm']
      exact h.1

/-- GET messages: the newest of those below `before`, newest first. -/
def page (log : Log) (before : Int) : List Message :=
  Paging.page Message.id pageSize log.rows (bound before)

variable {log : Log} {m x : Message} {before : Int}

theorem ids_nodup (log : Log) : (log.rows.map Message.id).Nodup :=
  List.pairwise_map.mpr (log.ascending.imp Nat.ne_of_lt)

theorem eq_of_id (hm : m ∈ log.rows) (hx : x ∈ log.rows) (h : m.id = x.id) : m = x :=
  List.inj_on_of_nodup_map log.ids_nodup hm hx h

theorem page_reverse_ascending : (log.page before).reverse.Pairwise fun m m' => m.id < m'.id :=
  List.pairwise_reverse.mpr (Paging.page_sorted log.ids_nodup)

theorem length_page_le : (log.page before).length ≤ pageSize := List.length_take_le _ _

theorem mem_of_mem_page (h : m ∈ log.page before) : m ∈ log.rows :=
  (Paging.mem_of_mem_page log.ids_nodup h).1

theorem below_of_mem_page (h : m ∈ log.page x.id) (hx : x ∈ log.rows) : m.id < x.id := by
  have hpos := log.positive x hx
  refine (Paging.mem_of_mem_page log.ids_nodup h).2 x.id ?_
  rw [bound, if_neg (by omega), Int.toNat_natCast]
  rfl

/-- What the newest page leaves out is below all that it shows. -/
theorem mem_newest_or_below (hx : x ∈ log.page 0) (hm : m ∈ log.rows) :
    m ∈ log.page 0 ∨ m.id < x.id :=
  Paging.mem_page_or_below log.ids_nodup hx hm fun n hn => by cases hn

/-- What a page below `x` leaves out is below all that it shows. -/
theorem mem_older_or_below {y : Message} (hx : x ∈ log.rows) (hy : y ∈ log.page x.id)
    (hm : m ∈ log.rows) (hlt : m.id < x.id) : m ∈ log.page x.id ∨ m.id < y.id := by
  refine Paging.mem_page_or_below log.ids_nodup hy hm fun n hn => ?_
  have hpos := log.positive x hx
  rw [bound, if_neg (by omega), Int.toNat_natCast] at hn
  cases hn
  exact hlt

theorem mem_newest_of_short (h : (log.page 0).length < pageSize) (hm : m ∈ log.rows) :
    m ∈ log.page 0 :=
  ((Paging.Lists.of_short log.ids_nodup h).mem m).mpr ⟨hm, fun n hn => by cases hn⟩

theorem mem_older_of_short (h : (log.page x.id).length < pageSize) (hx : x ∈ log.rows)
    (hm : m ∈ log.rows) (hlt : m.id < x.id) : m ∈ log.page x.id := by
  refine ((Paging.Lists.of_short log.ids_nodup h).mem m).mpr ⟨hm, fun n hn => ?_⟩
  have hpos := log.positive x hx
  rw [bound, if_neg (by omega), Int.toNat_natCast] at hn
  cases hn
  exact hlt

end Log

/-! ## The client -/

/-- `new Map(...)` over pairs of an id and its message: a later message takes the
    place of the first one with its id. -/
def mapSet (m : Message) : List Message → List Message
  | [] => [m]
  | x :: l => if x.id = m.id then m :: l else x :: mapSet m l

def mapValues (l : List Message) : List Message := l.foldl (fun values m => mapSet m values) []

/-- `[...new Map([...current, ...next].map((m) => [m.id, m])).values()].sort(...)` -/
def merge (current next : List Message) : List Message :=
  (mapValues (current ++ next)).insertionSort fun m m' => m.id ≤ m'.id

/-- The client's state beside the messages that the server has. -/
structure Conversation where
  log : Log
  items : List Message
  hasOlder : Bool
  olderExhausted : Bool

/-- How a call of `load` ends: with a page, with another status, or in `catch`. -/
inductive Answer where
  | ok | refused | failed
deriving DecidableEq, Repr

namespace Conversation

def init : Conversation := ⟨.empty, [], false, false⟩

def load (s : Conversation) : Answer → Conversation
  | .ok =>
      let messages := s.log.page 0
      { s with
        items := merge s.items messages.reverse
        hasOlder := !s.olderExhausted && decide (messages.length = pageSize) }
  | .refused => { s with items := [] }
  | .failed => s

/-- `older` with a page. -/
def older (s : Conversation) : Conversation :=
  match s.items with
  | [] => s
  | first :: items =>
      let messages := s.log.page first.id
      { s with
        olderExhausted := decide (messages.length < pageSize)
        items := messages.reverse ++ first :: items
        hasOlder := decide (messages.length = pageSize) }

/-- The reply to a POST of messages. -/
def sent (s : Conversation) (m : Message) : Conversation := { s with items := merge s.items [m] }

end Conversation

inductive Event where
  /-- A message of either participant is committed. -/
  | arrival (m : Message)
  | load (answer : Answer)
  /-- `older`, with a page or without. -/
  | older (ok : Bool)
  /-- The reply to a send; after a retry it may be to an earlier one. -/
  | sent (m : Message)
deriving DecidableEq, Repr

def step (s : Conversation) : Event → Option Conversation
  | .arrival m => if h : s.log.Takes m then some { s with log := s.log.push m h } else none
  | .load answer => some (s.load answer)
  | .older ok => some (if ok then s.older else s)
  | .sent m => if m ∈ s.log.rows then some (s.sent m) else none

/-- The conversation from its opening on. -/
def conversationMachine : Machine Conversation Event where
  init := .init
  step := step

/-- 'Earlier messages' is pressed as long as `hasOlder` is true. -/
inductive PressedThrough : Conversation → Conversation → Prop where
  | done {s : Conversation} (h : s.hasOlder = false) : PressedThrough s s
  | press {s t : Conversation} (h : s.hasOlder = true) (hrest : PressedThrough s.older t) :
      PressedThrough s t

/-- The messages of the connection up to the newest loaded one. -/
def Conversation.upToNewest (s : Conversation) : List Message :=
  s.log.rows.filter fun m => s.items.any fun x => decide (m.id ≤ x.id)

/-- Pressing ends with all of them. -/
def Conversation.Reachable (s : Conversation) : Prop :=
  ∃ t, PressedThrough s t ∧ t.items = t.upToNewest

/-- What the next `load` needs: the newest page reaches down to the items, and if
    `older` found the beginning, then it is still there. -/
structure Conversation.Covered (s : Conversation) : Prop where
  above : ∀ m ∈ s.log.rows, ∀ x ∈ s.items, x.id < m.id → m ∈ s.items ∨ m ∈ s.log.page 0
  beginning : s.olderExhausted = true → ∀ m ∈ s.log.rows.head?, m ∈ s.items ∨ m ∈ s.log.page 0

/-! ## Merging -/

section
variable {l current next : List Message} {m x : Message} {log : Log}

theorem ids_mapSet : (mapSet m l).map Message.id =
    if m.id ∈ l.map Message.id then l.map Message.id else l.map Message.id ++ [m.id] := by
  induction l with
  | nil => rfl
  | cons y l ih =>
      rw [mapSet, apply_ite (List.map Message.id), List.map_cons, List.map_cons, ih]
      by_cases h : y.id = m.id
      · rw [if_pos h, List.map_cons, if_pos (by rw [h]; exact List.mem_cons_self), h]
      · rw [if_neg h, List.map_cons]
        have hiff : m.id ∈ y.id :: l.map Message.id ↔ m.id ∈ l.map Message.id := by
          rw [List.mem_cons]
          exact or_iff_right (Ne.symm h)
        split
        · next hm => rw [if_pos (hiff.mpr hm)]
        · next hm => rw [if_neg (fun h' => hm (hiff.mp h')), List.cons_append]

theorem nodup_mapSet (h : (l.map Message.id).Nodup) : ((mapSet m l).map Message.id).Nodup := by
  rw [ids_mapSet]
  split
  · exact h
  · next hm => exact List.nodup_append.mpr ⟨h, List.nodup_singleton _, fun a ha b hb hab => hm
      (List.mem_singleton.mp hb ▸ hab ▸ ha)⟩

/-- Where the id tells the message, nothing is lost. -/
theorem mem_mapSet (h : ∀ y ∈ l, y.id = m.id → y = m) : x ∈ mapSet m l ↔ x = m ∨ x ∈ l := by
  induction l with
  | nil => simp [mapSet]
  | cons y l ih =>
      rw [mapSet]
      split
      · next hid =>
          rw [h y List.mem_cons_self hid, List.mem_cons]
          simp
      · rw [List.mem_cons, ih fun z hz => h z (List.mem_cons_of_mem _ hz), List.mem_cons]
        exact or_left_comm

theorem mapValues_concat : mapValues (l ++ [m]) = mapSet m (mapValues l) := by
  rw [mapValues, List.foldl_concat, mapValues]

theorem nodup_mapValues : ((mapValues l).map Message.id).Nodup := by
  induction l using List.reverseRecOn with
  | nil => exact List.nodup_nil
  | append_singleton l m ih =>
      rw [mapValues_concat]
      exact nodup_mapSet ih

theorem mem_mapValues (log : Log) (h : ∀ y ∈ l, y ∈ log.rows) : x ∈ mapValues l ↔ x ∈ l := by
  induction l using List.reverseRecOn generalizing x with
  | nil => rfl
  | append_singleton l m ih =>
      have hl : ∀ y ∈ l, y ∈ log.rows := fun y hy => h y (List.mem_append_left _ hy)
      have hm : m ∈ log.rows := h m (by simp)
      have hmem : ∀ y, y ∈ mapValues l ↔ y ∈ l := fun _ => ih hl
      rw [mapValues_concat, mem_mapSet ?_, hmem, List.mem_append, List.mem_singleton, or_comm]
      intro y hy hid
      exact Log.eq_of_id (hl y ((hmem y).mp hy)) hm hid

theorem merge_ascending : (merge current next).Pairwise fun m m' => m.id < m'.id := by
  have hle : (merge current next).Pairwise fun m m' => m.id ≤ m'.id := by
    have : Std.Total fun m m' : Message => m.id ≤ m'.id := ⟨fun m m' => Nat.le_total m.id m'.id⟩
    have : IsTrans Message fun m m' => m.id ≤ m'.id := ⟨fun a b c => Nat.le_trans⟩
    exact List.pairwise_insertionSort _ _
  have hne : ((merge current next).map Message.id).Nodup :=
    ((List.perm_insertionSort _ _).map Message.id).nodup_iff.mpr nodup_mapValues
  exact (hle.and (List.pairwise_map.mp hne)).imp fun h => Nat.lt_of_le_of_ne h.1 h.2

theorem mem_merge (hcurrent : ∀ y ∈ current, y ∈ log.rows) (hnext : ∀ y ∈ next, y ∈ log.rows) :
    x ∈ merge current next ↔ x ∈ current ∨ x ∈ next := by
  rw [merge, List.mem_insertionSort, mem_mapValues log ?_, List.mem_append]
  intro y hy
  rcases List.mem_append.mp hy with hy | hy
  · exact hcurrent y hy
  · exact hnext y hy

end

/-! ## Pressing -/

theorem first_le {first m : Message} {l : List Message}
    (h : (first :: l).Pairwise fun m m' => m.id < m'.id) (hm : m ∈ first :: l) :
    first.id ≤ m.id := by
  rcases List.mem_cons.mp hm with rfl | hm
  · exact Nat.le_refl _
  · exact Nat.le_of_lt ((List.pairwise_cons.mp h).1 m hm)

namespace Conversation

variable {s t : Conversation} {m : Message}

/-- The items are messages of the connection in their order. -/
structure Shows (s : Conversation) : Prop where
  ascending : s.items.Pairwise fun m m' => m.id < m'.id
  subset : ∀ m ∈ s.items, m ∈ s.log.rows

theorem older_log (s : Conversation) : s.older.log = s.log := by
  unfold older
  split
  · rfl
  · rfl

theorem Shows.merge {next : List Message} (h : s.Shows) (hnext : ∀ m ∈ next, m ∈ s.log.rows) :
    Shows { s with items := merge s.items next } where
  ascending := merge_ascending
  subset := by
    intro m hm
    rcases (mem_merge h.subset hnext).mp hm with hm | hm
    · exact h.subset m hm
    · exact hnext m hm

theorem mem_newest_reverse (s : Conversation) : ∀ m ∈ (s.log.page 0).reverse, m ∈ s.log.rows :=
  fun _ hm => Log.mem_of_mem_page (List.mem_reverse.mp hm)

theorem Shows.load (h : s.Shows) (answer : Answer) : (s.load answer).Shows := by
  cases answer with
  | ok => exact ⟨(h.merge s.mem_newest_reverse).ascending, (h.merge s.mem_newest_reverse).subset⟩
  | refused => exact ⟨List.Pairwise.nil, fun _ hm => (List.not_mem_nil hm).elim⟩
  | failed => exact h

theorem mem_load (h : s.Shows) : m ∈ (s.load .ok).items ↔ m ∈ s.items ∨ m ∈ s.log.page 0 :=
  (mem_merge h.subset s.mem_newest_reverse).trans (or_congr_right List.mem_reverse)

/-- What `older` shows: the items, and before them those below the first one. -/
theorem older_items {first : Message} {items : List Message} (h : s.items = first :: items) :
    s.older.items = (s.log.page first.id).reverse ++ s.items := by
  unfold older
  rw [h]

theorem Shows.first_mem {first : Message} {items : List Message} (h : s.Shows)
    (hitems : s.items = first :: items) : first ∈ s.log.rows :=
  h.subset first (hitems ▸ List.mem_cons_self)

theorem Shows.first_le {first : Message} {items : List Message} (h : s.Shows)
    (hitems : s.items = first :: items) (hm : m ∈ s.items) : first.id ≤ m.id :=
  OneMinute.Web.first_le (hitems ▸ h.ascending) (hitems ▸ hm)

theorem Shows.older (h : s.Shows) : s.older.Shows := by
  rcases hitems : s.items with - | ⟨first, items⟩
  · have : s.older = s := by
      unfold Conversation.older
      rw [hitems]
    rw [this]
    exact h
  · have hfirst := h.first_mem hitems
    constructor
    · rw [older_items hitems]
      refine List.pairwise_append.mpr ⟨Log.page_reverse_ascending, h.ascending, ?_⟩
      intro m hm m' hm'
      exact Nat.lt_of_lt_of_le (Log.below_of_mem_page (List.mem_reverse.mp hm) hfirst)
        (h.first_le hitems hm')
    · intro m hm
      rw [older_items hitems] at hm
      rw [older_log]
      rcases List.mem_append.mp hm with hm | hm
      · exact Log.mem_of_mem_page (List.mem_reverse.mp hm)
      · exact h.subset m hm

/-- Nothing is missing above the first item, and nothing below it is given up. -/
structure Whole (s : Conversation) : Prop where
  shows : s.Shows
  gapless : ∀ m ∈ s.log.rows, ∀ x ∈ s.items, x.id ≤ m.id → m ∈ s.items
  nonempty : s.hasOlder = true → s.items ≠ []
  all : s.hasOlder = false → ∀ m ∈ s.log.rows, m ∈ s.items

/-- `m` is missing between two items. -/
structure Misses (s : Conversation) (m : Message) : Prop where
  shows : s.Shows
  mem : m ∈ s.log.rows
  not_mem : m ∉ s.items
  below : ∃ x ∈ s.items, x.id ≤ m.id
  above : ∃ x ∈ s.items, m.id ≤ x.id

theorem Whole.older (h : s.Whole) (hpress : s.hasOlder = true) : s.older.Whole := by
  obtain ⟨first, items, hitems⟩ := List.exists_cons_of_ne_nil (h.nonempty hpress)
  have hfirst := h.shows.first_mem hitems
  have hmem : ∀ m, m ∈ s.older.items ↔ m ∈ s.log.page first.id ∨ m ∈ s.items := by
    intro m
    rw [older_items hitems, List.mem_append, List.mem_reverse]
  have hin : ∀ m ∈ s.log.rows, first.id ≤ m.id → m ∈ s.items := fun m hm hle =>
    h.gapless m hm first (hitems ▸ List.mem_cons_self) hle
  have hflag : s.older.hasOlder = decide ((s.log.page first.id).length = pageSize) := by
    unfold Conversation.older
    rw [hitems]
  refine ⟨h.shows.older, ?_, ?_, ?_⟩
  · intro m hm x hx hle
    rw [older_log] at hm
    rw [hmem]
    by_cases hlt : m.id < first.id
    · rcases (hmem x).mp hx with hx | hx
      · exact Or.inl ((Log.mem_older_or_below hfirst hx hm hlt).resolve_right
          (Nat.not_lt_of_le hle))
      · have := h.shows.first_le hitems hx
        omega
    · exact Or.inr (hin m hm (Nat.le_of_not_lt hlt))
  · intro _ hnil
    rw [older_items hitems, List.append_eq_nil_iff] at hnil
    exact h.nonempty hpress hnil.2
  · intro hdone m hm
    rw [hflag, decide_eq_false_iff_not] at hdone
    rw [older_log] at hm
    have hshort : (s.log.page first.id).length < pageSize :=
      Nat.lt_of_le_of_ne Log.length_page_le hdone
    rw [hmem]
    by_cases hlt : m.id < first.id
    · exact Or.inl (Log.mem_older_of_short hshort hfirst hm hlt)
    · exact Or.inr (hin m hm (Nat.le_of_not_lt hlt))

/-- `older` puts messages below the first item only. -/
theorem Misses.older (h : s.Misses m) : s.older.Misses m := by
  obtain ⟨x, hx, hle⟩ := h.below
  obtain ⟨y, hy, hge⟩ := h.above
  obtain ⟨first, items, hitems⟩ := List.exists_cons_of_ne_nil (List.ne_nil_of_mem hx)
  have hkept : ∀ z ∈ s.items, z ∈ s.older.items := by
    intro z hz
    rw [older_items hitems]
    exact List.mem_append_right _ hz
  refine ⟨h.shows.older, older_log s ▸ h.mem, ?_, ⟨x, hkept x hx, hle⟩, ⟨y, hkept y hy, hge⟩⟩
  intro hm
  rw [older_items hitems] at hm
  rcases List.mem_append.mp hm with hm | hm
  · have hlt := Log.below_of_mem_page (List.mem_reverse.mp hm) (h.shows.first_mem hitems)
    have := h.shows.first_le hitems hx
    omega
  · exact h.not_mem hm

/-- With all messages, the items are the list up to the newest. -/
theorem Whole.complete (h : s.Whole) (hdone : s.hasOlder = false) : s.items = s.upToNewest := by
  have hall : s.upToNewest = s.log.rows := by
    refine List.filter_eq_self.mpr fun m hm => ?_
    exact List.any_eq_true.mpr ⟨m, h.all hdone m hm, decide_eq_true (Nat.le_refl _)⟩
  rw [hall]
  exact h.shows.ascending.eq_of_mem_iff s.log.ascending
    fun {m} => ⟨h.shows.subset m, h.all hdone m⟩

theorem Misses.incomplete (h : s.Misses m) : s.items ≠ s.upToNewest := by
  intro heq
  obtain ⟨x, hx, hle⟩ := h.above
  refine h.not_mem (heq ▸ List.mem_filter.mpr ⟨h.mem, ?_⟩)
  exact List.any_eq_true.mpr ⟨x, hx, decide_eq_true hle⟩

theorem Misses.pressedThrough (hpress : PressedThrough s t) (h : s.Misses m) : t.Misses m := by
  induction hpress with
  | done => exact h
  | press _ _ ih => exact ih h.older

theorem Shows.length_le (h : s.Shows) : s.items.length ≤ s.log.rows.length := by
  have hnodup : s.items.Nodup := h.ascending.imp fun hlt heq => by
    rw [heq] at hlt
    exact Nat.lt_irrefl _ hlt
  exact (List.subperm_of_subset hnodup h.subset).length_le

/-- Pressing comes to an end, with all messages. -/
theorem Whole.reachable (h : s.Whole) : s.Reachable := by
  -- by the number of messages that are not shown
  induction hn : s.log.rows.length - s.items.length using Nat.strong_induction_on
    generalizing s with
  | _ n ih =>
      cases hpress : s.hasOlder with
      | false => exact ⟨s, .done hpress, h.complete hpress⟩
      | true =>
          have hwhole := h.older hpress
          cases hmore : s.older.hasOlder with
          | false => exact ⟨s.older, .press hpress (.done hmore), hwhole.complete hmore⟩
          | true =>
              obtain ⟨first, items, hitems⟩ := List.exists_cons_of_ne_nil (h.nonempty hpress)
              have hfull : (s.log.page first.id).length = pageSize := by
                unfold Conversation.older at hmore
                rw [hitems] at hmore
                exact of_decide_eq_true hmore
              have hlength : s.older.items.length = pageSize + s.items.length := by
                rw [older_items hitems, List.length_append, List.length_reverse, hfull]
              have hle := hwhole.shows.length_le
              have hpos : 0 < pageSize := by decide
              rw [older_log, hlength] at hle
              obtain ⟨t, ht, hall⟩ := ih _ (by rw [older_log, hlength]; omega) hwhole rfl
              exact ⟨t, .press hpress ht, hall⟩

/-! ## After a load -/

theorem Covered.whole (h : s.Covered) (hs : s.Shows) : (s.load .ok).Whole := by
  have hnewest : ∀ m ∈ s.log.rows, ∀ x ∈ (s.load .ok).items, x.id ≤ m.id →
      m ∈ (s.load .ok).items := by
    intro m hm x hx hle
    rw [mem_load hs] at hx ⊢
    rcases hx with hx | hx
    · rcases Nat.lt_or_eq_of_le hle with hlt | heq
      · exact h.above m hm x hx hlt
      · exact Or.inl (Log.eq_of_id (hs.subset x hx) hm heq ▸ hx)
    · exact Or.inr ((Log.mem_newest_or_below hx hm).resolve_right (Nat.not_lt_of_le hle))
  refine ⟨hs.load .ok, hnewest, ?_, ?_⟩
  · intro hmore hnil
    have hfull : (s.log.page 0).length = pageSize :=
      of_decide_eq_true (Bool.and_eq_true_iff.mp hmore).2
    obtain ⟨m, hm⟩ := List.exists_mem_of_length_pos (l := s.log.page 0) (by rw [hfull]; decide)
    exact List.ne_nil_of_mem ((mem_load hs).mpr (Or.inr hm)) hnil
  · intro hdone m (hm : m ∈ s.log.rows)
    rcases Bool.and_eq_false_iff.mp hdone with hexhausted | hshort
    · -- the first message is there, and everything above it
      obtain ⟨first, rest, hrows⟩ := List.exists_cons_of_ne_nil (List.ne_nil_of_mem hm)
      have hexhausted : s.olderExhausted = true := by simpa using hexhausted
      have hfirst := h.beginning hexhausted first (by rw [hrows]; rfl)
      refine hnewest m hm first ((mem_load hs).mpr hfirst) ?_
      exact first_le (hrows ▸ s.log.ascending) (hrows ▸ hm)
    · have hlt : (s.log.page 0).length < pageSize :=
        Nat.lt_of_le_of_ne Log.length_page_le (of_decide_eq_false hshort)
      exact (mem_load hs).mpr (Or.inr (Log.mem_newest_of_short hlt hm))

/-- A message that the newest page leaves out, while something is shown below it
    or the load says that nothing is left, cannot be reached. -/
theorem not_reachable (hs : s.Shows) (hm : m ∈ s.log.rows) (hitems : m ∉ s.items)
    (hpage : m ∉ s.log.page 0)
    (h : (∃ x ∈ s.items, x.id < m.id) ∨ s.olderExhausted = true) : ¬ (s.load .ok).Reachable := by
  have hout : m ∉ (s.load .ok).items := fun h =>
    ((mem_load hs).mp h).elim hitems hpage
  -- the page is not empty, and above `m`
  have habove : ∃ x ∈ (s.load .ok).items, m.id ≤ x.id := by
    by_cases hnil : s.log.page 0 = []
    · exact absurd (Log.mem_newest_of_short (by rw [hnil]; decide) hm) hpage
    · obtain ⟨x, hx⟩ := List.exists_mem_of_ne_nil _ hnil
      refine ⟨x, (mem_load hs).mpr (Or.inr hx), Nat.le_of_lt ?_⟩
      exact (Log.mem_newest_or_below hx hm).resolve_left hpage
  rintro ⟨t, hpress, hall⟩
  rcases h with ⟨x, hx, hlt⟩ | hexhausted
  · have hmisses : (s.load .ok).Misses m :=
      ⟨hs.load .ok, hm, hout, ⟨x, (mem_load hs).mpr (Or.inl hx), Nat.le_of_lt hlt⟩, habove⟩
    exact (hmisses.pressedThrough hpress).incomplete hall
  · have hdone : (s.load .ok).hasOlder = false := by
      unfold load
      rw [hexhausted]
      rfl
    cases hpress with
    | done =>
        obtain ⟨x, hx, hle⟩ := habove
        refine hout (hall ▸ List.mem_filter.mpr ⟨hm, ?_⟩)
        exact List.any_eq_true.mpr ⟨x, hx, decide_eq_true hle⟩
    | press hpress =>
        rw [hdone] at hpress
        cases hpress

theorem reachable_load_iff (hs : s.Shows) : (s.load .ok).Reachable ↔ s.Covered := by
  constructor
  · intro h
    constructor
    · intro m hm x hx hlt
      by_contra hout
      obtain ⟨hitems, hpage⟩ := not_or.mp hout
      exact not_reachable hs hm hitems hpage (Or.inl ⟨x, hx, hlt⟩) h
    · intro hexhausted m hm
      by_contra hout
      obtain ⟨hitems, hpage⟩ := not_or.mp hout
      exact not_reachable hs (List.mem_of_head? hm) hitems hpage (Or.inr hexhausted) h
  · exact fun h => (h.whole hs).reachable

theorem Shows.step {e : Event} (h : s.Shows) (hstep : step s e = some t) : t.Shows := by
  cases e with
  | arrival m =>
      obtain ⟨_, hstep⟩ := Option.dite_none_right_eq_some.mp hstep
      obtain rfl := Option.some.inj hstep
      exact ⟨h.ascending, fun m' hm' => List.mem_append_left _ (h.subset m' hm')⟩
  | load answer =>
      obtain rfl := Option.some.inj hstep
      exact h.load answer
  | older ok =>
      obtain rfl := Option.some.inj hstep
      cases ok with
      | true => exact h.older
      | false => exact h
  | sent m =>
      obtain ⟨hm, hstep⟩ := Option.ite_none_right_eq_some.mp hstep
      obtain rfl := Option.some.inj hstep
      have hmerge := h.merge fun x hx => by
        rw [List.mem_singleton.mp hx]
        exact hm
      exact ⟨hmerge.ascending, hmerge.subset⟩

end Conversation

/-- After a successful load in any history, pressing 'Earlier messages' as long
    as it is there ends with all messages up to the newest if and only if the
    newest page reached down to the items that were there, and the beginning, if
    it had been found, was still there. -/
theorem history_reachable_iff {es : List Event} {s : Conversation}
    (hrun : conversationMachine.run es = some s) : (s.load .ok).Reachable ↔ s.Covered := by
  apply Conversation.reachable_load_iff
  refine Machine.run_invariant (M := conversationMachine) (P := Conversation.Shows) ?_ ?_ hrun
  · exact ⟨List.Pairwise.nil, fun _ hm => (List.not_mem_nil hm).elim⟩
  · exact fun _ _ _ h hstep => h.step hstep

def row (id : Nat) : Message :=
  { id, connectionID := "ann-ben", senderID := "ben", clientID := "", body := "Hello",
    createdAt := 0 }

/-- One message is loaded, and another one comes. -/
def quiet : List Event := [.arrival (row 1), .load .ok, .arrival (row 2)]

theorem history_reachable_iff_quiet : ∃ s,
    conversationMachine.run quiet = some s ∧ s.Covered ∧ (s.load .ok).Reachable := by
  have hobs : (conversationMachine.run quiet).map (fun s =>
      (s.log.rows, s.items, s.olderExhausted, s.log.page 0)) =
        some ([row 1, row 2], [row 1], false, [row 2, row 1]) := by
    decide +kernel
  obtain ⟨s, hs, hobs⟩ := Option.map_eq_some_iff.mp hobs
  simp only [Prod.mk.injEq] at hobs
  obtain ⟨hrows, hitems, hexhausted, hpage⟩ := hobs
  have hcovered : s.Covered := by
    constructor
    · intro m hm x _ _
      rw [hrows] at hm
      rw [hpage]
      exact Or.inr (List.mem_reverse.mp hm)
    · intro h
      rw [hexhausted] at h
      cases h
  exact ⟨s, hs, hcovered, (history_reachable_iff hs).mpr hcovered⟩

/-- Ann has paged back to the first of 61 messages when a load is refused. -/
def outage : List Event :=
  (List.range 61).map (fun k => Event.arrival (row (k + 1)))
    ++ [.load .ok, .older true, .load .refused]

/-- The next load shows 60 messages and no button. -/
theorem not_reachable_outage : ¬ ∀ es s,
    conversationMachine.run es = some s → (s.load .ok).Reachable := by
  intro h
  have hobs : (conversationMachine.run outage).map (fun s =>
      decide (row 1 ∈ s.log.rows ∧ row 1 ∉ s.items ∧ row 1 ∉ s.log.page 0) &&
        s.items.isEmpty && s.olderExhausted) = some true := by
    decide +kernel
  obtain ⟨s, hs, hobs⟩ := Option.map_eq_some_iff.mp hobs
  rw [Bool.and_eq_true, Bool.and_eq_true, decide_eq_true_eq, List.isEmpty_iff] at hobs
  obtain ⟨⟨⟨hmem, hitems, hpage⟩, hnil⟩, hexhausted⟩ := hobs
  have hshows : s.Shows := by
    constructor
    · rw [hnil]
      exact List.Pairwise.nil
    · intro m hm
      rw [hnil] at hm
      cases hm
  exact Conversation.not_reachable hshows hmem hitems hpage (Or.inr hexhausted) (h _ s hs)

/-! ## Where the messages come from -/

open Communication in
/-- The messages of `c` in the chat service. -/
def chatLog {U : UUIDText} {s : Chat} (hs : s.Sound U) (c : String) : Log where
  rows := s.shared.tables.of c
  ascending := by
    refine (hs.stored.order.sublist List.filter_sublist).imp_of_mem fun hm hm' h => h ?_
    rw [(Tables.mem_of.mp hm).2, (Tables.mem_of.mp hm').2]
  positive := fun m hm => (hs.stored.drawn m (Tables.mem_of.mp hm).1).1

section
open Communication

variable {U : UUIDText} {db : Database} {s t : Chat}

theorem chatLog_page (hs : s.Sound U) (c : String) (before : Int) :
    (chatLog hs c).page before = s.shared.tables.page c before :=
  (Tables.page_eq s.shared.tables c before).symm

/-- Messages above the log arrive one by one. -/
theorem runFrom_arrivals {log : Log} {ms : List Message} (conv : Conversation)
    (h : conv.log.rows ++ ms = log.rows) :
    conversationMachine.runFrom conv (ms.map .arrival) = some { conv with log } := by
  induction ms generalizing conv with
  | nil =>
      rw [List.append_nil] at h
      rw [← Log.ext h]
      rfl
  | cons m ms ih =>
      have htakes : conv.log.Takes m := by
        refine ⟨log.positive m (h ▸ by simp), fun m' hm' => ?_⟩
        have hascending := log.ascending
        rw [← h] at hascending
        exact (List.pairwise_append.mp hascending).2.2 m' hm' m List.mem_cons_self
      refine Machine.runFrom_cons_eq_some.mpr ⟨_, dif_pos htakes, ?_⟩
      refine ih { conv with log := conv.log.push m htakes } ?_
      rw [← h, Log.push, List.append_assoc, List.singleton_append]

/-- What the chat service does is, for the conversation, a number of arrivals. -/
theorem arrivals_of_run {as : List Communication.Action} (hs : s.Sound U) (ht : t.Sound U)
    (c : String) (hrun : (chatMachine U db).runFrom s as = some t) (conv : Conversation)
    (hlog : conv.log = chatLog hs c) : ∃ ms : List Message,
      conversationMachine.runFrom conv (ms.map .arrival) =
        some { conv with log := chatLog ht c } := by
  have htops : Paging.Tops Message.id (s.shared.tables.of c) (t.shared.tables.of c) :=
    tops_runFrom hrun hs
  refine ⟨(chatLog ht c).rows.filter fun m => decide (m ∉ (chatLog hs c).rows), ?_⟩
  refine runFrom_arrivals conv ?_
  rw [hlog]
  have hascending : ((chatLog hs c).rows ++
      (chatLog ht c).rows.filter fun m => decide (m ∉ (chatLog hs c).rows)).Pairwise
        fun m m' => m.id < m'.id := by
    refine List.pairwise_append.mpr ⟨(chatLog hs c).ascending,
      (chatLog ht c).ascending.sublist List.filter_sublist, fun m hm m' hm' => ?_⟩
    obtain ⟨hmem, hnew⟩ := List.mem_filter.mp hm'
    exact htops.above m' hmem (of_decide_eq_true hnew) m hm
  refine hascending.eq_of_mem_iff (chatLog ht c).ascending fun {m} => ?_
  rw [List.mem_append, List.mem_filter, decide_eq_true_eq]
  constructor
  · rintro (hm | hm)
    · exact htops.kept m hm
    · exact hm.1
  · exact fun hm => (Classical.em (m ∈ (chatLog hs c).rows)).imp id fun hnew => ⟨hm, hnew⟩

end

end OneMinute.Web
