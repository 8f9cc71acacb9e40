/-
  OneMinute.Lib.FixedWindow

  Counting per fixed window over an expiring key-value store: the first hit of a
  key creates its counter with a lifetime, the hits after it add one, and the
  counter lapses with its window (INCR, and EXPIRE when the count is one).

  The meter remembers its hits, with the instant at which the window of each
  opened.  `Paced` says how they lie: the hits of a window are numbered from one
  (`Numbered`), and two windows of one key are more than a lifetime apart.  Two
  results follow for every run:

    * `countP_passed_lt`   — at most n + 1 windows meet n lifetimes, and one of
                             them opened before if all do, so fewer than
                             (n + 1) · limit hits of a key are within the limit;
    * `next_le`            — a hit that is counted c has c - 1 hits of its key
                             before it that are no older than a lifetime.
-/

import OneMinute.Lib.Keyspace
import OneMinute.Lib.Machine
import Mathlib.Data.Finset.Card
import Mathlib.Data.Finset.Prod
import Mathlib.Order.Interval.Finset.Nat

namespace FixedWindow

/-- One hit: when it was, what the counter said, and when its window opened. -/
structure Hit (κ : Type _) where
  key : κ
  time : Nat
  count : Nat
  opened : Nat
deriving DecidableEq, Repr

/-- The counters, and all hits so far, the last first. -/
structure Meter (κ : Type _) where
  clock : Nat
  counters : Keyspace κ Nat
  hits : List (Hit κ)

variable {κ : Type _} [DecidableEq κ]

namespace Meter

def empty : Meter κ := ⟨0, .empty, []⟩

/-- The count that the next hit of a key gets. -/
def next (m : Meter κ) (k : κ) : Nat := (m.counters.get k).getD 0 + 1

/-- INCR, and EXPIRE if the count is one. -/
def counted (W : Nat) (m : Meter κ) (k : κ) : Keyspace κ Nat :=
  let counters := m.counters.modify k 0 (· + 1)
  if m.next k = 1 then counters.expire k (m.clock + W) else counters

def hit (W : Nat) (m : Meter κ) (k : κ) : Meter κ where
  clock := m.clock
  counters := m.counted W k
  hits := ⟨k, m.clock, m.next k, ((m.counted W k).expiry k).getD 0 - W⟩ :: m.hits

/-- The passage of `d` time units. -/
def elapse (m : Meter κ) (d : Nat) : Meter κ where
  clock := m.clock + d
  counters := m.counters.lapse (m.clock + d)
  hits := m.hits

end Meter

/-- What happens to a meter. -/
inductive Op (κ : Type _) where
  | hit (key : κ)
  | elapse (d : Nat)
deriving DecidableEq, Repr

def Meter.after (W : Nat) (m : Meter κ) : Op κ → Meter κ
  | .hit k => m.hit W k
  | .elapse d => m.elapse d

/-! ## Windows -/

/-- The two hits are of one key and one window. -/
def Hit.Together (h g : Hit κ) : Prop := g.key = h.key ∧ g.opened = h.opened

instance (h g : Hit κ) : Decidable (h.Together g) := inferInstanceAs (Decidable (_ ∧ _))

/-- How many of the hits are of this window. -/
def inWindow (k : κ) (s : Nat) (hits : List (Hit κ)) : Nat :=
  hits.countP fun g => decide (g.key = k ∧ g.opened = s)

/-- The hits of each window are numbered from one, the last first. -/
def Numbered : List (Hit κ) → Prop
  | [] => True
  | h :: hits => h.count = inWindow h.key h.opened hits + 1 ∧ Numbered hits

/-- How the hits of a meter lie. -/
structure Paced (W : Nat) (m : Meter κ) : Prop where
  within : ∀ h ∈ m.hits, h.opened ≤ h.time ∧ h.time ≤ h.opened + W ∧ h.time ≤ m.clock
  opening : ∀ h ∈ m.hits, h.count = 1 → h.time = h.opened
  numbered : Numbered m.hits
  apart : m.hits.Pairwise fun h g =>
    g.key = h.key → g.opened = h.opened ∨ g.opened + W < h.opened
  /-- An absent counter: the last window of the key is over. -/
  elapsed : ∀ k, m.counters k = none → ∀ h ∈ m.hits, h.key = k → h.opened + W < m.clock
  /-- A counter counts the hits of a window that is not over. -/
  current : ∀ k c, m.counters k = some c → ∃ s,
    c = ⟨inWindow k s m.hits, some (s + W)⟩ ∧ 0 < inWindow k s m.hits ∧ s ≤ m.clock ∧
      m.clock ≤ s + W ∧ ∀ h ∈ m.hits, h.key = k → h.opened = s ∨ h.opened + W < s

section
variable {W : Nat} {m : Meter κ} {h g : Hit κ} {hits : List (Hit κ)} {k : κ} {s : Nat}

theorem inWindow_cons (h : Hit κ) : inWindow k s (h :: hits) =
    inWindow k s hits + if h.key = k ∧ h.opened = s then 1 else 0 := by
  unfold inWindow
  rw [List.countP_cons]
  simp only [decide_eq_true_eq]

theorem inWindow_eq_zero (h : ∀ g ∈ hits, g.key = k → g.opened ≠ s) : inWindow k s hits = 0 := by
  unfold inWindow
  rw [List.countP_eq_zero]
  intro g hg
  rw [decide_eq_true_eq]
  rintro ⟨hkey, hs⟩
  exact h g hg hkey hs

/-- A number is at most the number of hits of its window. -/
theorem Numbered.le (h : Numbered hits) (hg : g ∈ hits) :
    1 ≤ g.count ∧ g.count ≤ inWindow g.key g.opened hits := by
  induction hits with
  | nil => cases hg
  | cons f hits ih =>
      obtain ⟨hcount, hrest⟩ := h
      rw [inWindow_cons]
      rcases List.mem_cons.mp hg with rfl | hg
      · rw [if_pos ⟨rfl, rfl⟩, hcount]
        exact ⟨Nat.le_add_left 1 _, Nat.le_refl _⟩
      · obtain ⟨hpos, hle⟩ := ih hrest hg
        exact ⟨hpos, Nat.le_trans hle (Nat.le_add_right _ _)⟩

/-- No two hits of one window have one number. -/
theorem Numbered.pairwise (h : Numbered hits) :
    hits.Pairwise fun f g => ¬(g.key = f.key ∧ g.opened = f.opened ∧ g.count = f.count) := by
  induction hits with
  | nil => exact List.Pairwise.nil
  | cons f hits ih =>
      obtain ⟨hcount, hrest⟩ := h
      refine List.pairwise_cons.mpr ⟨?_, ih hrest⟩
      rintro g hg ⟨hkey, hopened, hsame⟩
      have hle := (hrest.le hg).2
      rw [hkey, hopened] at hle
      omega

/-! ## What one operation preserves -/

omit [DecidableEq κ] in
theorem next_of_none (h : m.counters k = none) : m.next k = 1 := by
  unfold Meter.next Keyspace.get
  rw [h]
  rfl

omit [DecidableEq κ] in
theorem next_of_some {c : Cell Nat} (h : m.counters k = some c) : m.next k = c.value + 1 := by
  unfold Meter.next Keyspace.get
  rw [h]
  rfl

/-- The counter of the key after a hit. -/
theorem counted_self : m.counted W k k =
    some ⟨m.next k, if m.next k = 1 then some (m.clock + W) else m.counters.expiry k⟩ := by
  have hmodify : m.counters.modify k 0 (· + 1) k = some ⟨m.next k, m.counters.expiry k⟩ :=
    if_pos rfl
  unfold Meter.counted
  split
  · show (if k = k then (m.counters.modify k 0 (· + 1) k).map _ else _) = _
    rw [if_pos rfl, hmodify]
    rfl
  · exact hmodify

theorem counted_other {x : κ} (h : x ≠ k) : m.counted W k x = m.counters x := by
  have hmodify : m.counters.modify k 0 (· + 1) x = m.counters x := if_neg h
  unfold Meter.counted
  split
  · show (if x = k then _ else m.counters.modify k 0 (· + 1) x) = _
    rw [if_neg h, hmodify]
  · exact hmodify

/-- The first hit of a window. -/
theorem hits_of_none (h : m.counters k = none) :
    (m.hit W k).hits = ⟨k, m.clock, 1, m.clock⟩ :: m.hits := by
  show (⟨k, m.clock, m.next k, ((m.counted W k).expiry k).getD 0 - W⟩ : Hit κ) :: m.hits = _
  have hexpiry : (m.counted W k).expiry k = some (m.clock + W) := by
    unfold Keyspace.expiry
    rw [counted_self, next_of_none h]
    rfl
  rw [hexpiry, next_of_none h, Option.getD_some, Nat.add_sub_cancel]

/-- A later hit of a window. -/
theorem hits_of_some {n : Nat} (h : m.counters k = some ⟨n, some (s + W)⟩) (hn : 0 < n) :
    (m.hit W k).hits = ⟨k, m.clock, n + 1, s⟩ :: m.hits := by
  show (⟨k, m.clock, m.next k, ((m.counted W k).expiry k).getD 0 - W⟩ : Hit κ) :: m.hits = _
  have hexpiry : (m.counted W k).expiry k = some (s + W) := by
    unfold Keyspace.expiry
    rw [counted_self, next_of_some h, if_neg (by omega : ¬ n + 1 = 1)]
    unfold Keyspace.expiry
    rw [h]
    rfl
  rw [hexpiry, next_of_some h, Option.getD_some, Nat.add_sub_cancel]

theorem paced_empty : Paced W (Meter.empty : Meter κ) where
  within := fun _ h => absurd h List.not_mem_nil
  opening := fun _ h => absurd h List.not_mem_nil
  numbered := trivial
  apart := List.Pairwise.nil
  elapsed := fun _ _ _ h => absurd h List.not_mem_nil
  current := by
    intro k c h
    cases h

/-- A hit whose window is known keeps the pace. -/
theorem Paced.push (h : Paced W m) {n : Nat}
    (hhits : (m.hit W k).hits = ⟨k, m.clock, n, s⟩ :: m.hits)
    (hn : n = inWindow k s m.hits + 1) (hs : s ≤ m.clock) (hclock : m.clock ≤ s + W)
    (hfirst : n = 1 → s = m.clock)
    (hothers : ∀ g ∈ m.hits, g.key = k → g.opened = s ∨ g.opened + W < s)
    (hcell : m.counted W k k = some ⟨n, some (s + W)⟩) : Paced W (m.hit W k) where
  within := by
    rw [hhits]
    rintro g (_ | ⟨_, hg⟩)
    · exact ⟨hs, hclock, Nat.le_refl _⟩
    · exact h.within g hg
  opening := by
    rw [hhits]
    rintro g (_ | ⟨_, hg⟩) hone
    · exact (hfirst hone).symm
    · exact h.opening g hg hone
  numbered := by
    rw [hhits]
    exact ⟨hn, h.numbered⟩
  apart := by
    rw [hhits]
    exact List.pairwise_cons.mpr ⟨hothers, h.apart⟩
  elapsed := by
    intro x hx g hg hkey
    by_cases hxk : x = k
    · subst hxk
      rw [show (m.hit W x).counters = m.counted W x from rfl, hcell] at hx
      cases hx
    · rw [show (m.hit W k).counters = m.counted W k from rfl, counted_other hxk] at hx
      rw [hhits] at hg
      rcases List.mem_cons.mp hg with rfl | hg
      · exact absurd hkey.symm hxk
      · exact h.elapsed x hx g hg hkey
  current := by
    intro x c hx
    rw [hhits]
    by_cases hxk : x = k
    · subst hxk
      rw [show (m.hit W x).counters = m.counted W x from rfl, hcell] at hx
      obtain rfl := Option.some.inj hx
      have hcount : inWindow x s (⟨x, m.clock, n, s⟩ :: m.hits) = n := by
        rw [inWindow_cons, if_pos ⟨rfl, rfl⟩, hn]
      refine ⟨s, by rw [hcount], by omega, hs, hclock, ?_⟩
      rintro g (_ | ⟨_, hg⟩) hkey
      · exact Or.inl rfl
      · exact hothers g hg hkey
    · rw [show (m.hit W k).counters = m.counted W k from rfl, counted_other hxk] at hx
      obtain ⟨s', rfl, hpos, hs', hclock', hall⟩ := h.current x c hx
      have hcount : inWindow x s' (⟨k, m.clock, n, s⟩ :: m.hits) = inWindow x s' m.hits := by
        rw [inWindow_cons, if_neg fun hboth => hxk hboth.1.symm, Nat.add_zero]
      refine ⟨s', by rw [hcount], by rwa [hcount], hs', hclock', ?_⟩
      rintro g (_ | ⟨_, hg⟩) hkey
      · exact absurd hkey.symm hxk
      · exact hall g hg hkey

theorem Paced.hit (h : Paced W m) (k : κ) : Paced W (m.hit W k) := by
  cases hk : m.counters k with
  | none =>
      have hover := h.elapsed k hk
      refine h.push (hits_of_none hk) ?_ (Nat.le_refl _) (Nat.le_add_right _ _) (fun _ => rfl) ?_ ?_
      · rw [inWindow_eq_zero]
        intro g hg hkey
        have := hover g hg hkey
        omega
      · exact fun g hg hkey => Or.inr (hover g hg hkey)
      · rw [counted_self, next_of_none hk, if_pos rfl]
  | some c =>
      obtain ⟨s, rfl, hpos, hs, hclock, hall⟩ := h.current k c hk
      refine h.push (hits_of_some hk hpos) rfl hs hclock (fun hone => ?_) hall ?_
      · have := Nat.succ.inj hone
        omega
      · have hlater : ¬ inWindow k s m.hits + 1 = 1 := by omega
        rw [counted_self, next_of_some hk, if_neg hlater]
        unfold Keyspace.expiry
        rw [hk]
        rfl

theorem Paced.elapse (h : Paced W m) (d : Nat) : Paced W (m.elapse d) where
  within := by
    intro g hg
    obtain ⟨hopened, hW, hclock⟩ := h.within g hg
    exact ⟨hopened, hW, Nat.le_add_right_of_le hclock⟩
  opening := h.opening
  numbered := h.numbered
  apart := h.apart
  elapsed := by
    intro x hx g hg hkey
    show g.opened + W < m.clock + d
    replace hx : (if Keyspace.Alive (m.clock + d) (m.counters.expiry x) then m.counters x
      else none) = none := hx
    cases hc : m.counters x with
    | none => exact Nat.lt_add_right d (h.elapsed x hc g hg hkey)
    | some c =>
        obtain ⟨s, rfl, -, -, -, hall⟩ := h.current x c hc
        have hlapsed : ¬ Keyspace.Alive (m.clock + d) (m.counters.expiry x) := by
          intro ha
          rw [if_pos ha, hc] at hx
          cases hx
        have hlate : s + W < m.clock + d := by
          by_contra hle
          refine hlapsed ?_
          unfold Keyspace.expiry
          rw [hc]
          intro e he
          obtain rfl := Option.some.inj he
          exact Nat.le_of_not_lt hle
        rcases hall g hg hkey with hs | hs <;> omega
  current := by
    intro x c hx
    replace hx : (if Keyspace.Alive (m.clock + d) (m.counters.expiry x) then m.counters x
      else none) = some c := hx
    split at hx
    · next halive =>
        obtain ⟨s, rfl, hpos, hs, -, hall⟩ := h.current x c hx
        refine ⟨s, rfl, hpos, Nat.le_add_right_of_le hs, ?_, hall⟩
        refine halive (s + W) ?_
        unfold Keyspace.expiry
        rw [hx]
        rfl
    · cases hx

/-! ## Fewer than (n + 1) · limit hits in n lifetimes -/

/-- A hit of the key within the limit, between two instants. -/
def Hit.Passed (k : κ) (limit a b : Nat) (h : Hit κ) : Prop :=
  h.key = k ∧ h.count ≤ limit ∧ a ≤ h.time ∧ h.time ≤ b

instance (limit a b : Nat) : Decidable (h.Passed k limit a b) :=
  inferInstanceAs (Decidable (_ ∧ _))

/-- The slot of a window on a grid that is wider than a lifetime. -/
def Hit.slot (W a c : Nat) (h : Hit κ) : Nat := (h.opened + c - a) / (W + 1)

omit [DecidableEq κ] in
/-- Windows of one key that are apart have slots of their own. -/
theorem slot_lt {a c : Nat} (hapart : g.opened + W < h.opened) (ha : a ≤ g.opened + c) :
    g.slot W a c < h.slot W a c := by
  have hshift : g.opened + c - a + (W + 1) ≤ h.opened + c - a := by omega
  calc g.slot W a c < g.slot W a c + 1 := Nat.lt_succ_self _
    _ = (g.opened + c - a + (W + 1)) / (W + 1) := (Nat.add_div_right _ (Nat.succ_pos W)).symm
    _ ≤ h.slot W a c := Nat.div_le_div_right hshift

/-- Two hits of one key are of one window, or their windows are apart. -/
theorem Paced.apart_of_mem (hm : Paced W m) (hg : g ∈ m.hits) (hh : h ∈ m.hits)
    (hkey : g.key = h.key) :
    g.opened = h.opened ∨ g.opened + W < h.opened ∨ h.opened + W < g.opened := by
  let R : Hit κ → Hit κ → Prop := fun f f' => f.key = f'.key →
    f.opened = f'.opened ∨ f.opened + W < f'.opened ∨ f'.opened + W < f.opened
  have hsymm : Std.Symm R := by
    refine ⟨fun f f' h hkey => ?_⟩
    rcases h hkey.symm with h | h | h
    · exact Or.inl h.symm
    · exact Or.inr (Or.inr h)
    · exact Or.inr (Or.inl h)
  have hpairs : m.hits.Pairwise R := by
    refine hm.apart.imp fun h hkey => ?_
    rcases h hkey.symm with h | h
    · exact Or.inl h.symm
    · exact Or.inr (Or.inr h)
  exact List.Pairwise.forall_of_forall (fun _ _ _ => Or.inl rfl) hpairs hg hh hkey

/-- Hits of one key that share a slot share a window. -/
theorem Paced.opened_eq (hm : Paced W m) {a c : Nat} (hg : g ∈ m.hits) (hh : h ∈ m.hits)
    (hkey : g.key = h.key) (hga : a ≤ g.opened + c) (hha : a ≤ h.opened + c)
    (hslot : g.slot W a c = h.slot W a c) : g.opened = h.opened := by
  rcases hm.apart_of_mem hg hh hkey with heq | hlt | hlt
  · exact heq
  · exact absurd hslot (Nat.ne_of_lt (slot_lt hlt hga))
  · exact absurd hslot (Nat.ne_of_gt (slot_lt hlt hha))

/-- Hits of one key differ in slot or number, so they are no more than there are
    pairs of these. -/
theorem Paced.countP_le_card (hm : Paced W m) (k : κ) (limit a b c : Nat)
    (places : Finset (Nat × Nat))
    (hplace : ∀ h ∈ m.hits, h.Passed k limit a b → a ≤ h.opened + c ∧
      (h.slot W a c, h.count) ∈ places) :
    m.hits.countP (fun h => decide (h.Passed k limit a b)) ≤ places.card := by
  let passed := m.hits.filter fun h => decide (h.Passed k limit a b)
  have hmem : ∀ h ∈ passed, h ∈ m.hits ∧ h.Passed k limit a b := by
    intro h hh
    obtain ⟨hh, hp⟩ := List.mem_filter.mp hh
    exact ⟨hh, of_decide_eq_true hp⟩
  have hnodup : (passed.map fun h => (h.slot W a c, h.count)).Nodup := by
    refine List.pairwise_map.mpr ?_
    refine (hm.numbered.pairwise.sublist List.filter_sublist).imp_of_mem ?_
    intro f g hf hg hne hsame
    obtain ⟨hslot, hcount⟩ := Prod.ext_iff.mp hsame
    obtain ⟨hfm, hfp⟩ := hmem f hf
    obtain ⟨hgm, hgp⟩ := hmem g hg
    have hkey : g.key = f.key := hgp.1.trans hfp.1.symm
    refine hne ⟨hkey, ?_, hcount.symm⟩
    exact hm.opened_eq hgm hfm hkey (hplace g hgm hgp).1 (hplace f hfm hfp).1 hslot.symm
  have hsubset : (passed.map fun h => (h.slot W a c, h.count)).toFinset ⊆ places := by
    intro p hp
    obtain ⟨h, hh, rfl⟩ := List.mem_map.mp (List.mem_toFinset.mp hp)
    obtain ⟨hh, hpassed⟩ := hmem h hh
    exact (hplace h hh hpassed).2
  calc m.hits.countP (fun h => decide (h.Passed k limit a b))
      = (passed.map fun h => (h.slot W a c, h.count)).length := by
        rw [List.length_map, List.countP_eq_length_filter]
    _ = _ := (List.toFinset_card_of_nodup hnodup).symm
    _ ≤ places.card := Finset.card_le_card hsubset

/-- The pairs of `n` slots and the numbers within the limit. -/
def places (n limit : Nat) : Finset (Nat × Nat) := Finset.range n ×ˢ Finset.Icc 1 limit

theorem card_places (n limit : Nat) : (places n limit).card = n * limit := by
  unfold places
  rw [Finset.card_product, Finset.card_range, Nat.card_Icc, Nat.add_sub_cancel]

theorem mem_places {n limit : Nat} {p : Nat × Nat} :
    p ∈ places n limit ↔ p.1 < n ∧ 1 ≤ p.2 ∧ p.2 ≤ limit := by
  unfold places
  rw [Finset.mem_product, Finset.mem_range, Finset.mem_Icc]

/-- `n` lifetimes, both ends included, see fewer than `(n + 1) * limit` hits of
    a key that are within the limit. -/
theorem Paced.countP_passed_lt (hm : Paced W m) (k : κ) {limit n : Nat} (a : Nat)
    (hlimit : 0 < limit) (hn : 0 < n) :
    m.hits.countP (fun h => decide (h.Passed k limit a (a + n * W))) < (n + 1) * limit := by
  have hnumber : ∀ h ∈ m.hits, 1 ≤ h.count := fun h hh => (hm.numbered.le hh).1
  by_cases hearly : ∃ f ∈ m.hits, f.Passed k limit a (a + n * W) ∧ f.opened < a
  · -- a window opened before `a`: the place of its first hit stays empty
    obtain ⟨f, hf, hfp, hfa⟩ := hearly
    have hlow : ∀ h ∈ m.hits, h.Passed k limit a (a + n * W) → a ≤ h.opened + W := by
      intro h hh hp
      have := hm.within h hh
      have := hp.2.2.1
      omega
    have hslot : ∀ h ∈ m.hits, h.Passed k limit a (a + n * W) → h.slot W a W < n + 1 := by
      intro h hh hp
      refine Nat.div_lt_of_lt_mul ?_
      have hw := hm.within h hh
      have hb := hp.2.2.2
      have hexpand : (W + 1) * (n + 1) = n * W + W + n + 1 := by
        rw [Nat.mul_add, Nat.add_mul, Nat.mul_comm W n]
        omega
      omega
    have hfirst : (f.slot W a W, 1) ∈ places (n + 1) limit :=
      mem_places.mpr ⟨hslot f hf hfp, Nat.le_refl 1, hlimit⟩
    have hle := hm.countP_le_card k limit a (a + n * W) W
      ((places (n + 1) limit).erase (f.slot W a W, 1)) ?_
    · have hcard := Finset.card_erase_lt_of_mem hfirst
      rw [card_places] at hcard
      exact Nat.lt_of_le_of_lt hle hcard
    · intro h hh hp
      refine ⟨hlow h hh hp, Finset.mem_erase.mpr ⟨?_, mem_places.mpr
        ⟨hslot h hh hp, hnumber h hh, hp.2.1⟩⟩⟩
      intro hsame
      obtain ⟨hs, hone⟩ := Prod.ext_iff.mp hsame
      have hopened := hm.opened_eq hh hf (hp.1.trans hfp.1.symm) (hlow h hh hp) (hlow f hf hfp) hs
      have htime := hm.opening h hh hone
      have := hp.2.2.1
      omega
  · -- every window opened since `a`: there are at most `n`
    have hlow : ∀ h ∈ m.hits, h.Passed k limit a (a + n * W) → a ≤ h.opened + 0 :=
      fun h hh hp => Nat.le_of_not_lt fun hlt => hearly ⟨h, hh, hp, hlt⟩
    have hle := hm.countP_le_card k limit a (a + n * W) 0 (places n limit) ?_
    · rw [card_places] at hle
      have hexpand : (n + 1) * limit = n * limit + limit := Nat.succ_mul n limit
      omega
    · intro h hh hp
      refine ⟨hlow h hh hp, mem_places.mpr ⟨?_, hnumber h hh, hp.2.1⟩⟩
      refine Nat.div_lt_of_lt_mul ?_
      have hw := hm.within h hh
      have hb := hp.2.2.2
      have hexpand : (W + 1) * n = n * W + n := by
        rw [Nat.add_mul, Nat.one_mul, Nat.mul_comm W n]
      omega

/-! ## No hit is counted twice -/

/-- A hit of the key that is no older than a lifetime. -/
def Hit.Recent (W : Nat) (k : κ) (now : Nat) (h : Hit κ) : Prop := h.key = k ∧ now ≤ h.time + W

instance (now : Nat) : Decidable (h.Recent W k now) := inferInstanceAs (Decidable (_ ∧ _))

/-- The count of the next hit: the hits of its key that are recent, and itself,
    at most. -/
theorem Paced.next_le (hm : Paced W m) (k : κ) :
    m.next k ≤ m.hits.countP (fun h => decide (h.Recent W k m.clock)) + 1 := by
  cases hk : m.counters k with
  | none =>
      rw [next_of_none hk]
      exact Nat.le_add_left 1 _
  | some c =>
      obtain ⟨s, rfl, -, -, hclock, -⟩ := hm.current k c hk
      rw [next_of_some hk]
      refine Nat.succ_le_succ (List.countP_mono_left fun h hh htogether => ?_)
      obtain ⟨hkey, hopened⟩ := of_decide_eq_true htogether
      have hw := hm.within h hh
      refine decide_eq_true ⟨hkey, ?_⟩
      omega

end

end FixedWindow
