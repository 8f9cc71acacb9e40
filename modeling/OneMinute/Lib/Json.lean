/-
  OneMinute.Lib.Json

  JSON values as documents, and two readings of an object.

  A document keeps the members of an object in their order, with repetitions.
  What an object means depends on its reader:

    * `lookup` — keys are compared exactly and the last one wins, as in
      JavaScript;
    * `readField` — a key names the field that it spells, or else the one that
      it spells in other case, and the members are decoded in order into what is
      there, as `encoding/json` decodes into a struct.

  The readings agree on a field whose last exact spelling is not overridden
  (`readField_of_lookup`).
-/

import Mathlib.Data.List.Induction
import Mathlib.Data.String.Basic

/-- A JSON document.  A number is an integer, or a literal with a fraction, an
    exponent or the integer `-0`. -/
inductive Json where
  | null
  | bool (b : Bool)
  | int (n : Int)
  | decimal (literal : String)
  | string (s : String)
  | array (items : List Json)
  | object (members : List (String × Json))

namespace Json

/-! ## Exact keys, the last one wins -/

def lookup (members : List (String × Json)) (key : String) : Option Json :=
  (members.reverse.find? fun m => decide (m.1 = key)).map Prod.snd

/-- What `lookup` finds, with the members after it. -/
theorem lookup_eq_some {members : List (String × Json)} {key : String} {v : Json} :
    lookup members key = some v ↔
      ∃ pre post, members = pre ++ (key, v) :: post ∧ ∀ m ∈ post, m.1 ≠ key := by
  unfold lookup
  constructor
  · intro h
    obtain ⟨⟨k, w⟩, hfind, rfl⟩ := Option.map_eq_some_iff.mp h
    obtain ⟨hk, post, pre, hsplit, hpost⟩ := List.find?_eq_some_iff_append.mp hfind
    obtain rfl : k = key := of_decide_eq_true hk
    refine ⟨pre.reverse, post.reverse, ?_, fun m hm => ?_⟩
    · have hrev := congrArg List.reverse hsplit
      simpa using hrev
    · simpa using hpost m (List.mem_reverse.mp hm)
  · rintro ⟨pre, post, rfl, hpost⟩
    rw [Option.map_eq_some_iff]
    refine ⟨(key, v), ?_, rfl⟩
    rw [List.find?_eq_some_iff_append]
    refine ⟨decide_eq_true rfl, post.reverse, pre.reverse, by simp, fun m hm => ?_⟩
    simpa using hpost m (List.mem_reverse.mp hm)

/-! ## The fields of a struct -/

/-- The least character that folds to the same one.  Of the characters outside
    ASCII only these two fold into it. -/
def foldRune (c : Char) : Char :=
  if 'a' ≤ c ∧ c ≤ 'z' then Char.ofNat (c.toNat - 32)
  else if c = Char.ofNat 0x17f then 'S'
  else if c = Char.ofNat 0x212a then 'K'
  else c

def foldName (name : String) : List Char := name.toList.map foldRune

/-- The field that a key names: the one that it spells, else the first one that
    it spells in other case. -/
def field (fields : List String) (key : String) : Option String :=
  if fields.contains key then some key
  else fields.find? fun f => decide (foldName f = foldName key)

/-- Every key names a field. -/
def known (fields : List String) (members : List (String × Json)) : Bool :=
  members.all fun m => (field fields m.1).isSome

/-- The members of the field `name` are decoded one after another into what is
    there; `none` is an error. -/
def readField {β : Type _} (fields : List String) (name : String) (set : Json → β → Option β)
    (init : β) (members : List (String × Json)) : Option β :=
  members.foldlM (fun b m => if field fields m.1 = some name then set m.2 b else some b) init

/-! ## Values of fields -/

def isNull : Json → Bool
  | .null => true
  | _ => false

/-- A string; null leaves the field as it is. -/
def setString : Json → String → Option String
  | .null, old => some old
  | .string s, _ => some s
  | _, _ => none

/-- A pointer to a string; null makes it nil. -/
def setStringPointer : Json → Option String → Option (Option String)
  | .null, _ => some none
  | .string s, _ => some (some s)
  | _, _ => none

/-- A 64-bit integer. -/
def setInt : Json → Int → Option Int
  | .null, old => some old
  | .int n, _ => if -0x8000000000000000 ≤ n ∧ n < 0x8000000000000000 then some n else none
  | .decimal literal, _ => if literal = "-0" then some 0 else none
  | _, _ => none

/-- A pointer to an unsigned 16-bit integer. -/
def setUint16Pointer : Json → Option Nat → Option (Option Nat)
  | .null, _ => some none
  | .int n, _ => if 0 ≤ n ∧ n < 0x10000 then some (some n.toNat) else none
  | _, _ => none

/-- The document itself, undecoded. -/
def setRaw (v : Json) (_ : Option Json) : Option (Option Json) := some (some v)

/-- A slice of strings with its backing array, which a later decode reuses. -/
structure Strings where
  backing : List String
  length : Nat

def Strings.toList (s : Strings) : List String := s.backing.take s.length

/-- An element is decoded into the one of the backing array. -/
def setElements : List Json → List String → Option (List String)
  | [], _ => some []
  | v :: vs, old => do
    let s ← setString v (old.headD "")
    let rest ← setElements vs old.tail
    return s :: rest

/-- A slice of strings. -/
def setStrings : Json → Strings → Option Strings
  | .null, _ => some ⟨[], 0⟩
  | .array [], _ => some ⟨[], 0⟩
  | .array items, old =>
    (setElements items old.backing).map fun new =>
      ⟨new ++ old.backing.drop new.length, new.length⟩
  | _, _ => none

/-- Strings are decoded as they are, whatever was there. -/
theorem setElements_strings (l old : List String) :
    setElements (l.map .string) old = some l := by
  induction l generalizing old with
  | nil => rfl
  | cons s l ih =>
      rw [List.map_cons, setElements, ih]
      rfl

theorem setStrings_strings (l : List String) :
    (setStrings (.array (l.map .string)) ⟨[], 0⟩).map Strings.toList = some l := by
  cases l with
  | nil => rfl
  | cons s l =>
      show ((setElements ((s :: l).map .string) []).map _).map Strings.toList = _
      rw [setElements_strings]
      simp [Strings.toList]

/-! ## When the readings agree -/

section
variable {β : Type _} {fields : List String} {name : String} {set : Json → β → Option β}
  {init b : β} {members pre post : List (String × Json)} {v : Json}

/-- A field's own name is its exact spelling. -/
theorem field_self (h : name ∈ fields) : field fields name = some name := by
  unfold field
  rw [if_pos (by simpa using h)]

theorem readField_append :
    readField fields name set init (pre ++ post) =
      (readField fields name set init pre).bind fun b =>
        readField fields name set b post := by
  unfold readField
  rw [List.foldlM_append]
  rfl

theorem readField_cons {m : String × Json} :
    readField fields name set init (m :: members) =
      (if field fields m.1 = some name then set m.2 init else some init).bind fun b =>
        readField fields name set b members := by
  unfold readField
  rw [List.foldlM_cons]
  rfl

/-- Members that do not change the field. -/
theorem readField_of_idle
    (h : ∀ m ∈ members, field fields m.1 = some name → set m.2 b = some b) :
    readField fields name set b members = some b := by
  induction members with
  | nil => rfl
  | cons m members ih =>
      have hm : (if field fields m.1 = some name then set m.2 b else some b) = some b := by
        split
        · next hfield => exact h m List.mem_cons_self hfield
        · rfl
      rw [readField_cons, hm]
      exact ih fun m' hm' => h m' (List.mem_cons_of_mem _ hm')

/-- A field that is kept undecoded is the last member that names it. -/
theorem readField_setRaw (init : Option Json) :
    readField fields name setRaw init members =
      some (((members.reverse.find? fun m => decide (field fields m.1 = some name)).map
        Prod.snd).or init) := by
  induction members using List.reverseRecOn with
  | nil => rfl
  | append_singleton members m ih =>
      rw [readField_append, ih, Option.bind_some, readField_cons, List.reverse_append,
        List.reverse_singleton, List.singleton_append, List.find?_cons]
      by_cases hfield : field fields m.1 = some name
      · simp only [hfield, if_true, decide_true, setRaw, Option.bind_some]
        rfl
      · simp only [hfield, if_false, decide_false, Option.bind_some]
        rfl

/-- Every member of a field that is decoded has a value that can be set. -/
theorem set_of_readField {m : String × Json} {b : β}
    (h : readField fields name set init members = some b) (hm : m ∈ members)
    (hfield : field fields m.1 = some name) : ∃ old new, set m.2 old = some new := by
  obtain ⟨pre, post, rfl⟩ := List.append_of_mem hm
  rw [readField_append, Option.bind_eq_some_iff] at h
  obtain ⟨old, _, h⟩ := h
  rw [readField_cons, if_pos hfield, Option.bind_eq_some_iff] at h
  obtain ⟨new, hset, _⟩ := h
  exact ⟨old, new, hset⟩

/-- A member after the last exact spelling of `name` names the field by another
    spelling, and `counts`. -/
def Overridden (fields : List String) (name : String) (counts : Json → Bool)
    (members : List (String × Json)) : Prop :=
  ((members.reverse.takeWhile fun m => decide (m.1 ≠ name)).any fun m =>
    decide (field fields m.1 = some name) && counts m.2) = true

instance (fields : List String) (name : String) (counts : Json → Bool)
    (members : List (String × Json)) : Decidable (Overridden fields name counts members) :=
  inferInstanceAs (Decidable (_ = true))

/-- After the last exact spelling the field has its value, and keeps it unless it
    is overridden. -/
theorem readField_of_lookup {counts : Json → Bool} {b new : β} (hname : name ∈ fields)
    (hlookup : lookup members name = some v) (hset : ∀ old, set v old = some new)
    (hidle : ∀ w, counts w = false → ∀ old, set w old = some old)
    (hkeep : ¬ Overridden fields name counts members)
    (hread : readField fields name set init members = some b) : b = new := by
  obtain ⟨pre, post, rfl, hpost⟩ := lookup_eq_some.mp hlookup
  rw [readField_append, Option.bind_eq_some_iff] at hread
  obtain ⟨old, _, hread⟩ := hread
  rw [readField_cons, if_pos (field_self hname), hset, Option.bind_some] at hread
  -- the members after it are other spellings that do not count
  have htail : ((pre ++ (name, v) :: post).reverse.takeWhile fun m => decide (m.1 ≠ name)) =
      post.reverse := by
    rw [List.reverse_append, List.reverse_cons, List.append_assoc, List.takeWhile_append_of_pos]
    · simp
    · simpa using hpost
  have hafter : ∀ m ∈ post, field fields m.1 = some name → set m.2 new = some new := by
    intro m hm hfield
    refine hidle m.2 ?_ new
    by_contra hcounts
    refine hkeep (List.any_eq_true.mpr ⟨m, ?_, ?_⟩)
    · rw [htail]
      exact List.mem_reverse.mpr hm
    · simpa [hfield] using hcounts
  rw [readField_of_idle hafter] at hread
  exact (Option.some.inj hread).symm

end

end Json
