/-
  OneMinute.Social.Profiles

  `validProfile` against the schema: what the handler lets through, and what the
  tables of profiles take.

  The rule is written twice.  Go counts runes, looks interests up in a table and
  matches languages; the schema has CHECKs, NOT NULLs and primary keys.  What is
  valid meets every constraint (`not_violates_of_fits`), because the lists have no
  repetitions and are inserted into what was emptied.  A string with U+0000 is no
  TEXT, which is not a constraint of the schema.
-/

import Mathlib.Data.List.TakeWhile
import OneMinute.Discovery.Frames
import OneMinute.Lib.JsonString

namespace OneMinute.Social.Profiles

open Communication (trimSpace)
open Discovery (UserID)
open Discovery.Wire (allowedIntents allowedInterests isLanguage)

structure Profile where
  discoveryIntent : String
  id : UserID
  displayName : String
  avatarURL : String
  bio : String
  countryCode : String
  interests : List String
  languages : List String
deriving DecidableEq, Repr

/-! ## validProfile -/

/-- Each value is allowed and not seen before; `tag` keeps the lists apart. -/
def unseen (tag : String) (allowed : String → Bool) :
    List String → List String → Option (List String)
  | [], seen => some seen
  | v :: values, seen =>
    if ¬ allowed v ∨ seen.contains (tag ++ v) then none
    else unseen tag allowed values ((tag ++ v) :: seen)

def bytes (s : String) : List UInt8 := s.toList.flatMap String.utf8EncodeChar

def isCapital (b : UInt8) : Bool := decide (0x41 ≤ b.toNat) && decide (b.toNat ≤ 0x5a)

def country (v : String) : Bool :=
  decide (v = "") ||
    match bytes v with
    | [a, b] => isCapital a && isCapital b
    | _ => false

def validProfile (p : Profile) : Bool :=
  if ¬ allowedIntents.contains p.discoveryIntent then false
  else
    let displayName := trimSpace p.displayName
    if displayName.length < 1 ∨ 80 < displayName.length ∨ 500 < p.bio.length ∨
        ¬ country p.countryCode then false
    else if 12 < p.interests.length ∨ 5 < p.languages.length then false
    else
      match unseen "i:" allowedInterests.contains p.interests [] with
      | none => false
      | some seen => (unseen "l:" isLanguage p.languages seen).isSome

/-! ## The schema -/

/-- A row of `profiles`. -/
structure Row where
  displayName : String
  avatarURL : String
  bio : String
  countryCode : Option String
  discoveryIntent : String
deriving DecidableEq, Repr

inductive Constraint where
  | notNull (column : String)
  | check (column : String)
  | primaryKey (table : String)
deriving DecidableEq, Repr

inductive Failure where
  /-- The parameter is no TEXT. -/
  | encoding
  | violates (c : Constraint)
  /-- "profile unavailable": no row. -/
  | unavailable
deriving DecidableEq, Repr

/-- TEXT has no U+0000. -/
def Storable (s : String) : Prop := Char.ofNat 0 ∉ s.toList

instance (s : String) : Decidable (Storable s) := inferInstanceAs (Decidable (_ ∉ _))

def isSmall (c : Char) : Bool := 'a' ≤ c && c ≤ 'z'

def isLarge (c : Char) : Bool := 'A' ≤ c && c ≤ 'Z'

/-- `^[A-Z]{2}$` -/
def countryPattern (s : String) : Bool :=
  match s.toList with
  | [a, b] => isLarge a && isLarge b
  | _ => false

/-- `^[a-z][a-z0-9_]{0,39}$` -/
def interestPattern (s : String) : Bool :=
  match s.toList with
  | [] => false
  | a :: rest =>
    isSmall a && decide (rest.length ≤ 39) &&
      rest.all fun c => isSmall c || ('0' ≤ c && c ≤ '9') || c = '_'

/-- `^[a-z]{2,3}(-[A-Z]{2})?$` -/
def languagePattern (s : String) : Bool :=
  match s.toList with
  | [a, b] => isSmall a && isSmall b
  | [a, b, c] => isSmall a && isSmall b && isSmall c
  | [a, b, '-', d, e] => isSmall a && isSmall b && isLarge d && isLarge e
  | [a, b, c, '-', d, e] => isSmall a && isSmall b && isSmall c && isLarge d && isLarge e
  | _ => false

/-- The tables, by user. -/
structure Tables where
  active : UserID → Bool
  profiles : UserID → Option Row
  interests : UserID → List String
  languages : UserID → List String

/-- A parameter, which may be NULL. -/
def bindText : Option String → Except Failure Unit
  | some s => if Storable s then .ok () else .error .encoding
  | none => .ok ()

/-- A column that is NOT NULL and has a CHECK. -/
def required (column : String) (check : String → Bool) : Option String → Except Failure String
  | none => .error (.violates (.notNull column))
  | some s => if check s then .ok s else .error (.violates (.check column))

/-- A column that may be NULL; NULL passes a CHECK. -/
def optional (column : String) (check : String → Bool) :
    Option String → Except Failure (Option String)
  | none => .ok none
  | some s => if check s then .ok (some s) else .error (.violates (.check column))

/-- `NULLIF` with the empty string. -/
def nullIfEmpty (s : String) : Option String := if s = "" then none else some s

/-- The UPDATE of `profiles`. -/
def setProfile (t : Tables) (u : UserID)
    (displayName bio countryCode discoveryIntent : Option String) : Except Failure Tables := do
  bindText displayName
  bindText bio
  bindText countryCode
  bindText discoveryIntent
  match t.profiles u with
  | none => .error .unavailable
  | some row =>
    let displayName ← required "display_name"
      (fun s => decide (1 ≤ s.length) && decide (s.length ≤ 80)) displayName
    let bio ← required "bio" (fun s => decide (s.length ≤ 500)) bio
    let countryCode ← optional "country_code" countryPattern countryCode
    let discoveryIntent ← required "discovery_intent" allowedIntents.contains discoveryIntent
    return { t with
      profiles := Function.update t.profiles u
        (some { row with
          displayName := displayName, bio := bio, countryCode := countryCode,
          discoveryIntent := discoveryIntent }) }

/-- The INSERT of a row into a table of `table` whose rows for the user are `rows`. -/
def insertValue (table column : String) (check : String → Bool) (rows : List String)
    (value : String) : Except Failure (List String) := do
  bindText (some value)
  let value ← required column check (some value)
  if rows.contains value then .error (.violates (.primaryKey table))
  else return rows ++ [value]

/-- The DELETE of the user's rows and the INSERTs of the values. -/
def replaceValues (table column : String) (check : String → Bool) (values : List String) :
    Except Failure (List String) :=
  values.foldlM (insertValue table column check) []

/-! ## UpdateProfile -/

variable (order : String → String → Prop) [DecidableRel order]

/-- `Repository.Profile`; `order` is the collation. -/
def profile (t : Tables) (u : UserID) : Except Failure Profile :=
  match t.profiles u with
  | none => .error .unavailable
  | some row =>
    if t.active u then
      .ok ⟨row.discoveryIntent, u, row.displayName, row.avatarURL, row.bio,
        row.countryCode.getD "", (t.interests u).insertionSort order,
        (t.languages u).insertionSort order⟩
    else .error .unavailable

/-- The tables after the transaction, and the profile that is read back. -/
def updateProfile (t : Tables) (u : UserID) (p : Profile) : Except Failure (Tables × Profile) := do
  let discoveryIntent := if p.discoveryIntent = "" then "surprise_me" else p.discoveryIntent
  let displayName := trimSpace p.displayName
  let t ← setProfile t u (some displayName) (some p.bio) (nullIfEmpty p.countryCode)
    (some discoveryIntent)
  let interests ← replaceValues "profile_interests" "interest" interestPattern p.interests
  let t : Tables := { t with interests := Function.update t.interests u interests }
  let languages ← replaceValues "profile_languages" "language_code" languagePattern p.languages
  let t : Tables := { t with languages := Function.update t.languages u languages }
  let stored ← profile order t u
  return (t, stored)

/-! ## What is valid -/

/-- What `validProfile` makes sure of, in the terms of the schema. -/
structure Fits (p : Profile) : Prop where
  displayName : 1 ≤ (trimSpace p.displayName).length ∧ (trimSpace p.displayName).length ≤ 80
  bio : p.bio.length ≤ 500
  country : p.countryCode = "" ∨ countryPattern p.countryCode = true
  intent : allowedIntents.contains p.discoveryIntent = true
  interests : p.interests.Nodup ∧ ∀ v ∈ p.interests, interestPattern v = true
  languages : p.languages.Nodup ∧ ∀ v ∈ p.languages, languagePattern v = true

theorem unseen_eq_some {tag : String} {allowed : String → Bool} {values seen seen' : List String}
    (h : unseen tag allowed values seen = some seen') :
    values.Nodup ∧ (∀ v ∈ values, allowed v = true) ∧ ∀ v ∈ values, tag ++ v ∉ seen := by
  induction values generalizing seen with
  | nil => exact ⟨List.nodup_nil, by simp, by simp⟩
  | cons v values ih =>
      rw [unseen] at h
      split at h
      · cases h
      · next hcond =>
          simp only [not_or, not_not, List.contains_iff_mem] at hcond
          obtain ⟨hnodup, hallowed, hfresh⟩ := ih h
          refine ⟨List.nodup_cons.mpr ⟨fun hmem => ?_, hnodup⟩, ?_, ?_⟩
          · exact hfresh v hmem List.mem_cons_self
          · exact List.forall_mem_cons.mpr ⟨hcond.1, hallowed⟩
          · refine List.forall_mem_cons.mpr ⟨hcond.2, fun w hw hmem => ?_⟩
            exact hfresh w hw (List.mem_cons_of_mem _ hmem)

theorem interestPattern_of_allowed :
    ∀ v ∈ allowedInterests, interestPattern v = true ∧ Storable v := by decide

/-- A character is a byte of its own exactly if it is below 0x80. -/
theorem capital_char {c : Char} {tail : List UInt8} {b : UInt8}
    (h : String.utf8EncodeChar c = b :: tail) (hb : isCapital b = true) :
    isLarge c = true ∧ tail = [] := by
  unfold isCapital at hb
  simp only [Bool.and_eq_true, decide_eq_true_eq] at hb
  by_cases hc : c.toNat < 0x80
  · rw [JsonText.utf8EncodeChar_ascii hc] at h
    obtain ⟨rfl, rfl⟩ := List.cons.inj h
    rw [UInt8.toNat_ofNat', Nat.mod_eq_of_lt (by omega)] at hb
    refine ⟨?_, rfl⟩
    unfold isLarge
    rw [Bool.and_eq_true, decide_eq_true_eq, decide_eq_true_eq]
    exact hb
  · obtain ⟨first, rest, hencode, hfirst, _⟩ :=
      JsonText.utf8EncodeChar_multi (Nat.le_of_not_lt hc)
    rw [hencode] at h
    obtain ⟨rfl, _⟩ := List.cons.inj h
    omega

/-- A text whose bytes are capitals is as long as its bytes. -/
theorem capital_chars {l : List Char}
    (h : (l.flatMap String.utf8EncodeChar).all isCapital = true) :
    l.length = (l.flatMap String.utf8EncodeChar).length ∧ l.all isLarge = true := by
  induction l with
  | nil => exact ⟨rfl, rfl⟩
  | cons c l ih =>
      obtain ⟨b, tail, hc⟩ := List.exists_cons_of_ne_nil (String.utf8EncodeChar_ne_nil (c := c))
      rw [List.flatMap_cons, hc, List.cons_append, List.all_cons, Bool.and_eq_true] at h
      obtain ⟨hlarge, rfl⟩ := capital_char hc h.1
      obtain ⟨hlength, hall⟩ := ih h.2
      refine ⟨?_, by rw [List.all_cons, hlarge, hall]; rfl⟩
      rw [List.flatMap_cons, hc, List.length_cons, List.length_append, hlength,
        List.length_singleton, Nat.add_comm]

theorem countryPattern_of_country {v : String} (h : country v = true) :
    v = "" ∨ countryPattern v = true := by
  unfold country at h
  rw [Bool.or_eq_true, decide_eq_true_eq] at h
  refine h.imp_right fun h => ?_
  split at h
  · next a b hbytes =>
      have hall : (bytes v).all isCapital = true := by
        rw [hbytes, List.all_cons, List.all_cons, List.all_nil, Bool.and_true]
        exact h
      obtain ⟨hlength, hlarge⟩ := capital_chars hall
      change v.toList.length = (bytes v).length at hlength
      rw [hbytes] at hlength
      unfold countryPattern
      match hl : v.toList, hlength with
      | [c, d], _ =>
          rw [hl, List.all_cons, List.all_cons, List.all_nil, Bool.and_true] at hlarge
          exact hlarge
  · cases h

theorem isUpper_eq (c : Char) : c.isUpper = isLarge c := by
  rw [Bool.eq_iff_iff, Discovery.Wire.isUpper_iff]
  simp [isLarge, Char.le_def, UInt32.le_iff_toNat_le]

/-- A region is a hyphen and two capitals. -/
theorem region_eq {rest : List Char} (hhead : rest.head? = some '-')
    (hlength : rest.tail.length = 2) (hupper : rest.tail.all Char.isUpper = true) :
    ∃ d e, rest = ['-', d, e] ∧ isLarge d = true ∧ isLarge e = true := by
  match rest, hlength with
  | [c, d, e], _ =>
      obtain rfl : c = '-' := Option.some.inj hhead
      simp only [List.tail_cons, List.all_cons, List.all_nil, Bool.and_true, Bool.and_eq_true,
        isUpper_eq] at hupper
      exact ⟨d, e, rfl, hupper⟩

theorem languagePattern_of_isLanguage {s : String} (h : isLanguage s = true) :
    languagePattern s = true := by
  unfold isLanguage at h
  simp only [Bool.and_eq_true, Bool.or_eq_true, decide_eq_true_eq] at h
  obtain ⟨hlength, hrest⟩ := h
  have hsmall : (s.toList.takeWhile Char.isLower).all isSmall = true :=
    List.all_eq_true.mpr fun c hc => List.mem_takeWhile_imp (p := Char.isLower) hc
  have hsplit := List.takeWhile_append_dropWhile (p := Char.isLower) (l := s.toList)
  unfold languagePattern
  rw [← hsplit]
  clear hsplit
  -- two or three letters, and nothing or the region
  generalize s.toList.takeWhile Char.isLower = small at hlength hsmall ⊢
  generalize s.toList.dropWhile Char.isLower = rest at hrest ⊢
  have hcases : rest = [] ∨ ∃ d e, rest = ['-', d, e] ∧ isLarge d = true ∧ isLarge e = true := by
    rcases hrest with hnil | ⟨⟨hhead, htwo⟩, hupper⟩
    · exact Or.inl (List.isEmpty_iff.mp hnil)
    · exact Or.inr (region_eq hhead htwo hupper)
  match small, hlength with
  | [a, b], _ =>
      simp only [List.all_cons, List.all_nil, Bool.and_true, Bool.and_eq_true] at hsmall
      rcases hcases with rfl | ⟨d, e, rfl, hd, he⟩
      · simp [hsmall]
      · simp [hsmall, hd, he]
  | [a, b, c], _ =>
      simp only [List.all_cons, List.all_nil, Bool.and_true, Bool.and_eq_true] at hsmall
      rcases hcases with rfl | ⟨d, e, rfl, hd, he⟩
      · simp [hsmall]
      · simp [hsmall, hd, he]

theorem fits_of_valid {p : Profile} (h : validProfile p = true) : Fits p := by
  unfold validProfile at h
  simp only [] at h
  split at h
  · cases h
  · next hintent =>
      split at h
      · cases h
      · next hbounds =>
          split at h
          · cases h
          · split at h
            · cases h
            · next seen hinterests =>
                obtain ⟨seen', hlanguages⟩ := Option.isSome_iff_exists.mp h
                obtain ⟨hnodup, hallowed, _⟩ := unseen_eq_some hinterests
                obtain ⟨hnodup', hallowed', _⟩ := unseen_eq_some hlanguages
                simp only [not_or, not_lt, not_not] at hbounds hintent
                refine ⟨⟨hbounds.1, hbounds.2.1⟩, hbounds.2.2.1,
                  countryPattern_of_country hbounds.2.2.2, hintent, ⟨hnodup, fun v hv => ?_⟩,
                  hnodup', fun v hv => languagePattern_of_isLanguage (hallowed' v hv)⟩
                exact (interestPattern_of_allowed v (by simpa using hallowed v hv)).1

/-! ## What meets the constraints -/

/-- Of the characters of the patterns none is U+0000. -/
def isPatternChar (c : Char) : Bool :=
  isSmall c || isLarge c || ('0' ≤ c && c ≤ '9') || c = '_' || c = '-'

theorem storable_of_pattern {s : String} (h : s.toList.all isPatternChar = true) : Storable s := by
  intro hmem
  have hzero := List.all_eq_true.mp h _ hmem
  revert hzero
  decide

theorem storable_of_interestPattern {s : String} (h : interestPattern s = true) : Storable s := by
  refine storable_of_pattern ?_
  unfold interestPattern at h
  split at h
  · cases h
  · next a rest hl =>
      rw [Bool.and_eq_true, Bool.and_eq_true] at h
      have ha : isPatternChar a = true := by
        unfold isPatternChar
        rw [h.1.1]
        rfl
      have hrest : rest.all isPatternChar = true := by
        refine List.all_eq_true.mpr fun c hc => ?_
        have hclass := List.all_eq_true.mp h.2 c hc
        unfold isPatternChar
        simp only [Bool.or_eq_true] at hclass ⊢
        tauto
      rw [hl, List.all_cons, ha, hrest]
      rfl

theorem storable_of_languagePattern {s : String} (h : languagePattern s = true) : Storable s := by
  refine storable_of_pattern ?_
  have hsmall : ∀ c, isSmall c = true → isPatternChar c = true := fun c hc => by
    simp [isPatternChar, hc]
  have hlarge : ∀ c, isLarge c = true → isPatternChar c = true := fun c hc => by
    simp [isPatternChar, hc]
  have hhyphen : isPatternChar '-' = true := by decide
  unfold languagePattern at h
  split at h <;> try simp only [Bool.and_eq_true] at h
  · next a b hl => simp [hl, hsmall a h.1, hsmall b h.2]
  · next a b c hl => simp [hl, hsmall a h.1.1, hsmall b h.1.2, hsmall c h.2]
  · next a b d e hl =>
      simp [hl, hsmall a h.1.1.1, hsmall b h.1.1.2, hlarge d h.1.2, hlarge e h.2, hhyphen]
  · next a b c d e hl =>
      simp [hl, hsmall a h.1.1.1.1, hsmall b h.1.1.1.2, hsmall c h.1.1.2, hlarge d h.1.2,
        hlarge e h.2, hhyphen]
  · cases h

theorem storable_of_countryPattern {s : String} (h : countryPattern s = true) : Storable s := by
  refine storable_of_pattern ?_
  have hlarge : ∀ c, isLarge c = true → isPatternChar c = true := fun c hc => by
    simp [isPatternChar, hc]
  unfold countryPattern at h
  split at h
  · next a b hl =>
      rw [Bool.and_eq_true] at h
      simp [hl, hlarge a h.1, hlarge b h.2]
  · cases h

theorem storable_of_intent : ∀ s ∈ allowedIntents, Storable s := by decide

section
variable {table column : String} {check : String → Bool}

theorem insertValue_ok {rows : List String} {v : String} (hstorable : Storable v)
    (hcheck : check v = true) (hfresh : v ∉ rows) :
    insertValue table column check rows v = .ok (rows ++ [v]) := by
  have hcontains : rows.contains v = false := by simpa using hfresh
  unfold insertValue bindText required
  simp only [if_pos hstorable, if_pos hcheck]
  show (if rows.contains v = true then _ else _) = _
  rw [hcontains]
  rfl

/-- Values without repetition that pass the check are inserted as they are. -/
theorem replaceValues_ok {values : List String} (hnodup : values.Nodup)
    (hvalues : ∀ v ∈ values, check v = true ∧ Storable v) :
    replaceValues table column check values = .ok values := by
  have hfold : ∀ rows, (∀ v ∈ values, v ∉ rows) →
      values.foldlM (insertValue table column check) rows = .ok (rows ++ values) := by
    induction values with
    | nil =>
        intro rows _
        rw [List.append_nil]
        rfl
    | cons v values ih =>
        intro rows hfresh
        obtain ⟨hv, hnodup⟩ := List.nodup_cons.mp hnodup
        obtain ⟨⟨hcheck, hstorable⟩, hvalues⟩ := List.forall_mem_cons.mp hvalues
        have hnext : ∀ w ∈ values, w ∉ rows ++ [v] := by
          intro w hw hmem
          rcases List.mem_append.mp hmem with hmem | hmem
          · exact hfresh w (List.mem_cons_of_mem _ hw) hmem
          · rw [List.mem_singleton] at hmem
            exact hv (hmem ▸ hw)
        rw [List.foldlM_cons, insertValue_ok hstorable hcheck (hfresh v List.mem_cons_self)]
        exact (ih hnodup hvalues _ hnext).trans (by rw [List.append_assoc]; rfl)
  exact hfold [] fun v _ => List.not_mem_nil

end

section
variable {t : Tables} {u : UserID} {p : Profile} {row : Row}

/-- The row that the UPDATE leaves. -/
def updatedRow (row : Row) (p : Profile) : Row :=
  { row with
    displayName := trimSpace p.displayName, bio := p.bio
    countryCode := nullIfEmpty p.countryCode, discoveryIntent := p.discoveryIntent }

theorem bindText_ok {s : String} (h : Storable s) : bindText (some s) = .ok () := if_pos h

theorem bindText_error {s : String} (h : ¬ Storable s) :
    bindText (some s) = .error .encoding := if_neg h

/-- The country is NULL or passes. -/
theorem country_ok (h : Fits p) :
    bindText (nullIfEmpty p.countryCode) = .ok () ∧
      optional "country_code" countryPattern (nullIfEmpty p.countryCode) =
        .ok (nullIfEmpty p.countryCode) := by
  unfold nullIfEmpty
  split
  · exact ⟨rfl, rfl⟩
  · next hne =>
      have hpattern := h.country.resolve_left hne
      exact ⟨bindText_ok (storable_of_countryPattern hpattern), if_pos hpattern⟩

theorem setProfile_ok (h : Fits p) (hrow : t.profiles u = some row)
    (hname : Storable (trimSpace p.displayName)) (hbio : Storable p.bio) :
    setProfile t u (some (trimSpace p.displayName)) (some p.bio) (nullIfEmpty p.countryCode)
        (some p.discoveryIntent) =
      .ok { t with profiles := Function.update t.profiles u (some (updatedRow row p)) } := by
  have hintent := storable_of_intent p.discoveryIntent (by simpa using h.intent)
  unfold setProfile
  rw [bindText_ok hname, bindText_ok hbio, (country_ok h).1, bindText_ok hintent, hrow]
  simp only [required, h.displayName, h.bio, h.intent, (country_ok h).2, decide_true,
    Bool.and_true, if_true]
  rfl

/-- A parameter that is no TEXT is refused before anything is checked. -/
theorem setProfile_encoding (h : ¬ (Storable (trimSpace p.displayName) ∧ Storable p.bio))
    (countryCode discoveryIntent : Option String) :
    setProfile t u (some (trimSpace p.displayName)) (some p.bio) countryCode discoveryIntent =
      .error .encoding := by
  unfold setProfile
  by_cases hname : Storable (trimSpace p.displayName)
  · have hbio : ¬ Storable p.bio := fun hbio => h ⟨hname, hbio⟩
    rw [bindText_ok hname, bindText_error hbio]
    rfl
  · rw [bindText_error hname]
    rfl

theorem setProfile_unavailable (h : Fits p) (hrow : t.profiles u = none)
    (hname : Storable (trimSpace p.displayName)) (hbio : Storable p.bio) :
    setProfile t u (some (trimSpace p.displayName)) (some p.bio) (nullIfEmpty p.countryCode)
        (some p.discoveryIntent) = .error .unavailable := by
  have hintent := storable_of_intent p.discoveryIntent (by simpa using h.intent)
  unfold setProfile
  rw [bindText_ok hname, bindText_ok hbio, (country_ok h).1, bindText_ok hintent, hrow]
  rfl

/-- The default intent is never used after validation. -/
theorem intent_ne_empty (h : Fits p) : p.discoveryIntent ≠ "" := by
  intro hempty
  have hintent := h.intent
  rw [hempty] at hintent
  revert hintent
  decide

/-- The tables that the transaction leaves. -/
def updated (t : Tables) (u : UserID) (p : Profile) (row : Row) : Tables :=
  { t with
    profiles := Function.update t.profiles u (some (updatedRow row p))
    interests := Function.update t.interests u p.interests
    languages := Function.update t.languages u p.languages }

/-- With a row, the transaction comes down to reading back what was written. -/
theorem updateProfile_eq (h : Fits p) (hrow : t.profiles u = some row)
    (hname : Storable (trimSpace p.displayName)) (hbio : Storable p.bio) :
    updateProfile order t u p =
      (profile order (updated t u p row) u).map fun stored => (updated t u p row, stored) := by
  have hne := intent_ne_empty h
  have hinterests := fun table column => @replaceValues_ok table column _ _ h.interests.1
    fun v hv => ⟨h.interests.2 v hv, storable_of_interestPattern (h.interests.2 v hv)⟩
  have hlanguages := fun table column => @replaceValues_ok table column _ _ h.languages.1
    fun v hv => ⟨h.languages.2 v hv, storable_of_languagePattern (h.languages.2 v hv)⟩
  unfold updateProfile
  simp only [if_neg hne, setProfile_ok h hrow hname hbio, hinterests, hlanguages]
  show (profile order (updated t u p row) u).bind _ = _
  cases profile order (updated t u p row) u <;> rfl

/-- The country is read back as it was submitted. -/
theorem getD_nullIfEmpty (s : String) : (nullIfEmpty s).getD "" = s := by
  unfold nullIfEmpty
  split
  · next h => exact h.symm
  · rfl

theorem profile_updated (hactive : t.active u = true) :
    profile order (updated t u p row) u =
      .ok { p with
        id := u, avatarURL := row.avatarURL, displayName := trimSpace p.displayName
        interests := p.interests.insertionSort order
        languages := p.languages.insertionSort order } := by
  unfold profile updated updatedRow
  simp only [Function.update_self, hactive, if_true, getD_nullIfEmpty]

/-- No constraint stands against a valid profile. -/
theorem not_violates_of_fits (h : Fits p) (c : Constraint) :
    updateProfile order t u p ≠ .error (.violates c) := by
  by_cases hstorable : Storable (trimSpace p.displayName) ∧ Storable p.bio
  · cases hrow : t.profiles u with
    | none =>
        unfold updateProfile
        simp only [if_neg (intent_ne_empty h),
          setProfile_unavailable h hrow hstorable.1 hstorable.2]
        intro heq
        cases heq
    | some row =>
        rw [updateProfile_eq order h hrow hstorable.1 hstorable.2]
        unfold profile
        split
        · intro heq; cases heq
        · split <;> intro heq <;> cases heq
  · unfold updateProfile
    simp only [setProfile_encoding hstorable]
    intro heq
    cases heq

/-- Trimming keeps a text storable. -/
theorem storable_trimSpace {s : String} (h : Storable s) : Storable (trimSpace s) := by
  intro hmem
  unfold trimSpace at hmem
  rw [String.toList_ofList, List.mem_reverse] at hmem
  have hmem := (List.dropWhile_sublist _).subset hmem
  rw [List.mem_reverse] at hmem
  exact h ((List.dropWhile_sublist _).subset hmem)

end

/-- An accepted profile meets every constraint.  If its strings are TEXT, it is
    stored, and read back with the account's own id and avatar, the name trimmed and
    the lists sorted. -/
theorem accepted_profile_reads_back {t : Tables} {u : UserID} {p : Profile}
    (hvalid : validProfile p = true) :
    (∀ c, updateProfile order t u p ≠ .error (.violates c)) ∧
      ∀ row, t.profiles u = some row → t.active u = true →
        Storable p.displayName → Storable p.bio →
        ∃ t', updateProfile order t u p = .ok (t',
          { p with
            id := u, avatarURL := row.avatarURL, displayName := trimSpace p.displayName
            interests := p.interests.insertionSort order
            languages := p.languages.insertionSort order }) := by
  have hfits := fits_of_valid hvalid
  refine ⟨not_violates_of_fits order hfits, fun row hrow hactive hname hbio => ?_⟩
  refine ⟨updated t u p row, ?_⟩
  rw [updateProfile_eq order hfits hrow (storable_trimSpace hname) hbio,
    profile_updated order hactive]
  rfl

/-- Every field is read back as it was submitted. -/
def ReadsBack (t : Tables) (u : UserID) (p : Profile) : Prop :=
  ∃ t', updateProfile order t u p = .ok (t',
    { p with
      displayName := trimSpace p.displayName
      interests := p.interests.insertionSort order
      languages := p.languages.insertionSort order })

/-- Users with a row of their own. -/
def sampleTables : Tables :=
  ⟨fun _ => true, fun _ => some ⟨"Ana", "portrait", "", none, "surprise_me"⟩, fun _ => ["art"],
    fun _ => []⟩

def sampleProfile (bio : String) : Profile :=
  ⟨"dating", "", " Ana ", "", bio, "IN", ["music", "ai"], ["pt-BR", "en"]⟩

/-- A profile as the editor sends it, without the account's own fields. -/
theorem accepted_profile_reads_back_sample :
    ∃ t', updateProfile (· ≤ ·) sampleTables "u1" (sampleProfile "hello") =
      .ok (t', ⟨"dating", "u1", "Ana", "portrait", "hello", "IN", ["ai", "music"],
        ["en", "pt-BR"]⟩) := by
  obtain ⟨t', ht'⟩ := (accepted_profile_reads_back (· ≤ ·) (t := sampleTables) (u := "u1")
    (p := sampleProfile "hello") (by decide)).2 _ rfl rfl (by decide) (by decide)
  refine ⟨t', ht'.trans ?_⟩
  congr 1

/-- A submitted id is ignored, and a text with U+0000 is accepted but not stored. -/
theorem not_readsBack_sample :
    validProfile (sampleProfile "hello") = true ∧
      ¬ ReadsBack (· ≤ ·) sampleTables "u1" (sampleProfile "hello") ∧
      validProfile (sampleProfile "\x00") = true ∧
      updateProfile (· ≤ ·) sampleTables "u1" (sampleProfile "\x00") = .error .encoding := by
  refine ⟨by decide, ?_, by decide, rfl⟩
  rintro ⟨t', h⟩
  have hfits := fits_of_valid (p := sampleProfile "hello") (by decide)
  have hrow : sampleTables.profiles "u1" =
      some ⟨"Ana", "portrait", "", none, "surprise_me"⟩ := rfl
  rw [updateProfile_eq (· ≤ ·) hfits hrow (by decide) (by decide),
    profile_updated (· ≤ ·) rfl] at h
  have hid := congrArg (fun r => r.toOption.map fun s : Tables × Profile => s.2.id) h
  simp [Except.map, Except.toOption, sampleProfile] at hid

end OneMinute.Social.Profiles
