/-
  OneMinute.Lib.Keyspace

  One family of keys of an expiring key-value store.  A key is absent or holds
  a value with an optional expiry instant; a key whose instant has passed is
  absent (`lapse`).  The operations are those of the store's command set:

    * `put`     — SET with or without EX;
    * `del`     — DEL;
    * `expire`  — EXPIRE, without effect on an absent key;
    * `modify`  — a write into a compound value (HSET, HDEL), which creates the
                  key without an expiry when it is absent and keeps the expiry
                  otherwise.

  Two observations describe a family, `get` and `expiry`; the lemmas give both
  after every operation.  `mapAt` is no command: it compares a family with one
  in which the value at a key is seen through a function.
-/

import Mathlib.Data.Option.Basic

/-- A stored value and the instant after which it is gone, if any. -/
structure Cell (α : Type _) where
  value : α
  expiry : Option Nat
deriving Repr, DecidableEq

/-- A family of keys: absent, or present with a cell. -/
abbrev Keyspace (κ α : Type _) := κ → Option (Cell α)

namespace Keyspace

variable {κ α : Type _}

/-- No key is present. -/
def empty : Keyspace κ α := fun _ => none

/-- The value at a key. -/
def get (ks : Keyspace κ α) (k : κ) : Option α := (ks k).map Cell.value

/-- The instant a key lapses, if it is present and has one. -/
def expiry (ks : Keyspace κ α) (k : κ) : Option Nat := (ks k).bind Cell.expiry

/-- Replace one key's cell. -/
def set [DecidableEq κ] (ks : Keyspace κ α) (k : κ) (c : Option (Cell α)) : Keyspace κ α :=
  fun x => if x = k then c else ks x

/-- SET, with the instant of expiry if one is given. -/
def put [DecidableEq κ] (ks : Keyspace κ α) (k : κ) (v : α) (t : Option Nat) :
    Keyspace κ α :=
  ks.set k (some ⟨v, t⟩)

/-- DEL. -/
def del [DecidableEq κ] (ks : Keyspace κ α) (k : κ) : Keyspace κ α := ks.set k none

/-- EXPIRE at instant `t`. -/
def expire [DecidableEq κ] (ks : Keyspace κ α) (k : κ) (t : Nat) : Keyspace κ α :=
  ks.set k ((ks k).map fun c => { c with expiry := some t })

/-- Write into a compound value, creating it from `new` when the key is absent. -/
def modify [DecidableEq κ] (ks : Keyspace κ α) (k : κ) (new : α) (f : α → α) :
    Keyspace κ α :=
  ks.set k (some ⟨f ((ks.get k).getD new), ks.expiry k⟩)

/-- A key with this expiry is still there at instant `now`. -/
def Alive (now : Nat) (t : Option Nat) : Prop := ∀ e ∈ t, now ≤ e

instance (now : Nat) (t : Option Nat) : Decidable (Alive now t) :=
  inferInstanceAs (Decidable (∀ e ∈ t, now ≤ e))

/-- Drop every key whose instant has passed. -/
def lapse (ks : Keyspace κ α) (now : Nat) : Keyspace κ α :=
  fun k => if Alive now (ks.expiry k) then ks k else none

/-! ## What a read sees after an operation -/

@[simp] theorem get_empty (k : κ) : (empty : Keyspace κ α).get k = none := rfl

section
variable [DecidableEq κ] (ks : Keyspace κ α) (k x : κ)

theorem get_set (c : Option (Cell α)) :
    (ks.set k c).get x = if x = k then c.map Cell.value else ks.get x := by
  unfold get set
  split <;> rfl

theorem get_put (v : α) (t : Option Nat) :
    (ks.put k v t).get x = if x = k then some v else ks.get x :=
  get_set ks k x _

theorem get_del : (ks.del k).get x = if x = k then none else ks.get x :=
  get_set ks k x _

/-- EXPIRE changes no value. -/
@[simp] theorem get_expire (t : Nat) : (ks.expire k t).get x = ks.get x := by
  unfold expire
  rw [get_set]
  split
  · next h =>
      rw [h]
      unfold get
      cases ks k <;> rfl
  · rfl

theorem get_modify (new : α) (f : α → α) :
    (ks.modify k new f).get x = if x = k then some (f ((ks.get k).getD new)) else ks.get x :=
  get_set ks k x _

/-! ## Expiries after an operation -/

theorem expiry_set (c : Option (Cell α)) :
    (ks.set k c).expiry x = if x = k then c.bind Cell.expiry else ks.expiry x := by
  unfold expiry set
  split <;> rfl

theorem expiry_put (v : α) (t : Option Nat) :
    (ks.put k v t).expiry x = if x = k then t else ks.expiry x :=
  expiry_set ks k x _

theorem expiry_del : (ks.del k).expiry x = if x = k then none else ks.expiry x :=
  expiry_set ks k x _

theorem expiry_expire (t : Nat) :
    (ks.expire k t).expiry x =
      if x = k then (ks.get x).map fun _ => t else ks.expiry x := by
  unfold expire
  rw [expiry_set]
  split
  · next h =>
      rw [h]
      unfold get
      cases ks k <;> rfl
  · rfl

/-- A write keeps the expiry. -/
@[simp] theorem expiry_modify (new : α) (f : α → α) :
    (ks.modify k new f).expiry x = ks.expiry x := by
  unfold modify
  rw [expiry_set]
  split
  · next h => rw [h]; rfl
  · rfl

end

/-- Two writes into one value are one write. -/
theorem modify_modify [DecidableEq κ] (ks : Keyspace κ α) (k : κ) (new : α) (f g : α → α) :
    (ks.modify k new f).modify k new g = ks.modify k new (g ∘ f) := by
  funext x
  show (if x = k then some (Cell.mk (g (((ks.modify k new f).get k).getD new))
      ((ks.modify k new f).expiry k)) else ks.modify k new f x) = _
  rw [get_modify, if_pos rfl, expiry_modify]
  show _ = if x = k then _ else ks x
  split
  · rfl
  · next h => exact if_neg h

/-! ## One key seen through a function -/

/-- The same family with `f` applied to the value at one key. -/
def mapAt [DecidableEq κ] (ks : Keyspace κ α) (k : κ) (f : α → α) : Keyspace κ α :=
  ks.set k ((ks k).map fun c => { c with value := f c.value })

section
variable [DecidableEq κ] (ks : Keyspace κ α) (k x : κ) (f : α → α)

theorem get_mapAt :
    (ks.mapAt k f).get x = if x = k then (ks.get k).map f else ks.get x := by
  unfold mapAt
  rw [get_set]
  split
  · unfold get
    cases ks k <;> rfl
  · rfl

@[simp] theorem expiry_mapAt : (ks.mapAt k f).expiry x = ks.expiry x := by
  unfold mapAt
  rw [expiry_set]
  split
  · next h =>
      rw [h]
      unfold expiry
      cases ks k <;> rfl
  · rfl

theorem mapAt_expire (t : Nat) : (ks.mapAt k f).expire x t = (ks.expire x t).mapAt k f := by
  funext y
  unfold expire mapAt set
  by_cases hxk : x = k
  · subst hxk
    by_cases hy : y = x
    · subst hy
      simp only [if_true]
      cases ks y <;> rfl
    · simp only [if_neg hy]
  · by_cases hy : y = x
    · subst hy
      simp only [if_true, if_neg hxk]
    · by_cases hyk : y = k
      · subst hyk
        simp only [if_true, if_neg hy]
      · simp only [if_neg hy, if_neg hyk]

theorem mapAt_del : (ks.mapAt k f).del x = (ks.del x).mapAt k f := by
  funext y
  unfold del mapAt set
  by_cases hy : y = x
  · subst hy
    by_cases hyk : y = k
    · subst hyk
      simp only [if_true, Option.map_none]
    · simp only [if_true, if_neg hyk]
  · by_cases hyk : y = k
    · subst hyk
      simp only [if_true, if_neg hy]
    · simp only [if_neg hy, if_neg hyk]

/-- A write that the function commutes with, if it is at that key at all. -/
theorem mapAt_modify {new : α} {g : α → α} (hnew : f new = new)
    (hg : x = k → ∀ v, g (f v) = f (g v)) :
    (ks.mapAt k f).modify x new g = (ks.modify x new g).mapAt k f := by
  funext y
  by_cases hy : y = x
  · subst hy
    show (if y = y then some (Cell.mk (g (((ks.mapAt k f).get y).getD new))
      ((ks.mapAt k f).expiry y)) else ks.mapAt k f y) = _
    rw [if_pos rfl, expiry_mapAt, get_mapAt]
    by_cases hyk : y = k
    · subst hyk
      rw [if_pos rfl]
      show _ = if y = y then (ks.modify y new g y).map _ else _
      rw [if_pos rfl]
      show _ = (if y = y then some (Cell.mk (g ((ks.get y).getD new)) (ks.expiry y))
        else ks y).map _
      rw [if_pos rfl]
      cases ks.get y with
      | none => simp [← hg rfl, hnew]
      | some v => simp [← hg rfl]
    · rw [if_neg hyk]
      show _ = if y = k then _ else ks.modify y new g y
      rw [if_neg hyk]
      show _ = if y = y then _ else _
      rw [if_pos rfl]
  · show (if y = x then _ else ks.mapAt k f y) =
      if y = k then (ks.modify x new g k).map _ else if y = x then _ else ks y
    rw [if_neg hy, if_neg hy]
    show (if y = k then _ else ks y) = _
    by_cases hyk : y = k
    · subst hyk
      rw [if_pos rfl, if_pos rfl]
      show _ = (if y = x then _ else ks y).map _
      rw [if_neg hy]
    · rw [if_neg hyk, if_neg hyk]

/-- A write at that very key that the function does not see. -/
theorem modify_mapAt {v : α} {new : α} {g : α → α} (hget : ks.get k = some v)
    (hg : f (g v) = f v) : (ks.modify k new g).mapAt k f = ks.mapAt k f := by
  funext y
  show (if y = k then (ks.modify k new g k).map _ else if y = k then _ else ks y) =
    if y = k then _ else ks y
  by_cases hy : y = k
  · rw [if_pos hy, if_pos hy]
    show (if k = k then some (Cell.mk (g ((ks.get k).getD new)) (ks.expiry k)) else ks k).map _ = _
    rw [if_pos rfl]
    unfold get expiry at *
    cases hk : ks k with
    | none =>
        rw [hk] at hget
        cases hget
    | some c =>
        rw [hk] at hget
        cases hget
        simp [hg]
  · rw [if_neg hy, if_neg hy, if_neg hy]

end

/-! ## The passage of time -/

theorem get_lapse (ks : Keyspace κ α) (now : Nat) (k : κ) :
    (ks.lapse now).get k = if Alive now (ks.expiry k) then ks.get k else none := by
  unfold get lapse
  split <;> rfl

theorem expiry_lapse (ks : Keyspace κ α) (now : Nat) (k : κ) :
    (ks.lapse now).expiry k = if Alive now (ks.expiry k) then ks.expiry k else none := by
  show (if Alive now (ks.expiry k) then ks k else none).bind Cell.expiry = _
  split <;> rfl

/-- Time only removes keys. -/
theorem get_of_get_lapse {ks : Keyspace κ α} {now : Nat} {k : κ} {v : α}
    (h : (ks.lapse now).get k = some v) : ks.get k = some v ∧ Alive now (ks.expiry k) := by
  rw [get_lapse] at h
  split at h
  · next ha => exact ⟨h, ha⟩
  · cases h

theorem mapAt_lapse [DecidableEq κ] (ks : Keyspace κ α) (k : κ) (f : α → α) (now : Nat) :
    (ks.mapAt k f).lapse now = (ks.lapse now).mapAt k f := by
  funext y
  show (if Alive now ((ks.mapAt k f).expiry y) then ks.mapAt k f y else none) = _
  rw [expiry_mapAt]
  show (if Alive now (ks.expiry y) then if y = k then _ else ks y else none) =
    if y = k then (ks.lapse now k).map _ else ks.lapse now y
  by_cases hy : y = k
  · subst hy
    rw [if_pos rfl, if_pos rfl]
    unfold lapse
    split <;> rfl
  · rw [if_neg hy, if_neg hy]
    rfl

/-- A key with a later expiry is alive whenever one with an earlier expiry is. -/
theorem Alive.mono {now t u : Nat} (h : Alive now (some t)) (htu : t ≤ u) :
    Alive now (some u) := by
  intro e he
  cases he
  exact Nat.le_trans (h t rfl) htu

end Keyspace
