/-
  OneMinute.Discovery.Preferences

  `normalizePreferences` gives one form to all spellings of a choice.

  An item is lowered and trimmed before it is looked up, so case and spaces do
  not reach the result (`trimSpace_toLower_of_respelled`).  `unique` keeps the
  set of the normalized items in its sorted order, so repetitions and the order
  of the lists do not either (`unique_congr`).  An allowed item is its own
  normal form.
-/

import Mathlib.Data.List.Dedup
import Mathlib.Data.List.TakeWhile
import OneMinute.Discovery.Frames

namespace OneMinute.Discovery.Wire

open Communication (isSpace trimSpace)

/-! ## Spellings of a choice -/

/-- `s` with spaces around it. -/
def pad (m n : Nat) (s : String) : String :=
  String.ofList (List.replicate m ' ' ++ s.toList ++ List.replicate n ' ')

def Padded (s t : String) : Prop := ∃ m n, t = pad m n s

/-- Equal up to the case of ASCII letters. -/
def SameLetters (s t : String) : Prop :=
  s.toList.map Char.toLower = t.toList.map Char.toLower

instance (s t : String) : Decidable (SameLetters s t) :=
  inferInstanceAs (Decidable (_ = _))

/-- `t` is `s` in other case and with spaces around it. -/
def Respelled (s t : String) : Prop := ∃ s', SameLetters s s' ∧ Padded s' t

/-- The lists are permuted and their items respelled; the case of a language
    counts. -/
structure Variant (p p' : Preferences) : Prop where
  intent : Respelled p.intent p'.intent
  languages : ∃ l : List String, l.Perm p.languages ∧ List.Forall₂ Padded l p'.languages
  interests : ∃ l : List String, l.Perm p.interests ∧ List.Forall₂ Respelled l p'.interests

/-! ## Case and spaces -/

/-- The list behind `trimSpace`. -/
def trimList (l : List Char) : List Char :=
  ((l.dropWhile isSpace).reverse.dropWhile isSpace).reverse

theorem trimSpace_eq (s : String) : trimSpace s = String.ofList (trimList s.toList) := rfl

theorem dropWhile_spaces (n : Nat) (l : List Char) :
    (List.replicate n ' ' ++ l).dropWhile isSpace = l.dropWhile isSpace := by
  refine List.dropWhile_append_of_pos fun c hc => ?_
  rw [List.eq_of_mem_replicate hc]
  rfl

theorem trimList_spaces (m n : Nat) (l : List Char) :
    trimList (List.replicate m ' ' ++ l ++ List.replicate n ' ') = trimList l := by
  unfold trimList
  rw [List.append_assoc, dropWhile_spaces, List.dropWhile_append]
  split
  · next hall =>
      -- nothing but spaces
      rw [List.isEmpty_iff.mp hall]
      have hnone := dropWhile_spaces n []
      rw [List.append_nil] at hnone
      rw [hnone]
      rfl
  · rw [List.reverse_append, List.reverse_replicate, dropWhile_spaces]

theorem trimSpace_of_padded {s t : String} (h : Padded s t) : trimSpace t = trimSpace s := by
  obtain ⟨m, n, rfl⟩ := h
  rw [trimSpace_eq, pad, String.toList_ofList, trimList_spaces, trimSpace_eq]

/-- A text without a space is trimmed. -/
theorem trimSpace_of_no_space {s : String} (h : ∀ c ∈ s.toList, isSpace c = false) :
    trimSpace s = s := by
  have hdrop : ∀ l : List Char, (∀ c ∈ l, isSpace c = false) → l.dropWhile isSpace = l := by
    intro l hl
    cases l with
    | nil => rfl
    | cons c l => rw [List.dropWhile_cons, hl c List.mem_cons_self]; rfl
  have hreverse : ∀ c ∈ s.toList.reverse, isSpace c = false := fun c hc =>
    h c (List.mem_reverse.mp hc)
  rw [trimSpace_eq, trimList, hdrop _ h, hdrop _ hreverse, List.reverse_reverse,
    String.ofList_toList]

/-- Lowering reaches no character above the letters. -/
theorem toLower_eq_high {c d : Char} (hd : 'z'.toNat < d.toNat) : c.toLower = d ↔ c = d := by
  have hkeep : ∀ {c : Char}, ¬ (c.val ≥ 'A'.val ∧ c.val ≤ 'Z'.val) → c.toLower = c := by
    intro c hc
    unfold Char.toLower
    exact dif_neg hc
  have hz : 'z'.toNat = 122 := rfl
  constructor
  · rintro rfl
    by_cases hc : c.val ≥ 'A'.val ∧ c.val ≤ 'Z'.val
    · exfalso
      have hval : c.toLower.toNat = (c.val.toNat + 32) % 2 ^ 32 := by
        unfold Char.toLower
        rw [dif_pos hc]
        rfl
      have hle : c.val.toNat ≤ 90 := hc.2
      omega
    · exact (hkeep hc).symm
  · rintro rfl
    refine hkeep fun hc => ?_
    have hle : c.toNat ≤ 90 := hc.2
    omega

/-- `unicode.ToLower` does not see the case of an ASCII letter. -/
theorem lowerRune_of_toLower {c d : Char} (h : c.toLower = d.toLower) :
    lowerRune c = lowerRune d := by
  have hdot : c = Char.ofNat 0x130 ↔ d = Char.ofNat 0x130 := by
    rw [← toLower_eq_high (by decide), h, toLower_eq_high (by decide)]
  have hkelvin : c = Char.ofNat 0x212a ↔ d = Char.ofNat 0x212a := by
    rw [← toLower_eq_high (by decide), h, toLower_eq_high (by decide)]
  unfold lowerRune
  simp only [hdot, hkelvin, h]

theorem map_lowerRune_of_toLower {l l' : List Char}
    (h : l.map Char.toLower = l'.map Char.toLower) : l.map lowerRune = l'.map lowerRune := by
  induction l generalizing l' with
  | nil =>
      obtain rfl := List.map_eq_nil_iff.mp h.symm
      rfl
  | cons c l ih =>
      cases l' with
      | nil => cases h
      | cons d l' =>
          obtain ⟨hc, hl⟩ := List.cons.inj h
          rw [List.map_cons, List.map_cons, lowerRune_of_toLower hc, ih hl]

theorem toLower_of_sameLetters {s t : String} (h : SameLetters s t) : toLower s = toLower t :=
  congrArg String.ofList (map_lowerRune_of_toLower h)

/-- A space is its own lower case. -/
theorem toLower_of_padded {s t : String} (h : Padded s t) : Padded (toLower s) (toLower t) := by
  obtain ⟨m, n, rfl⟩ := h
  refine ⟨m, n, ?_⟩
  unfold toLower pad
  rw [String.toList_ofList, String.toList_ofList, List.map_append, List.map_append,
    List.map_replicate, List.map_replicate]
  rfl

theorem trimSpace_toLower_of_respelled {s t : String} (h : Respelled s t) :
    trimSpace (toLower t) = trimSpace (toLower s) := by
  obtain ⟨s', hletters, hpad⟩ := h
  rw [trimSpace_of_padded (toLower_of_padded hpad), toLower_of_sameLetters hletters]

/-! ## unique -/

section
variable {values values' l : List String} {normalize : String → String × Bool}

theorem unique_eq_some {items : List String} (h : unique values normalize = some items) :
    (∀ v ∈ values, (normalize v).2 = true) ∧
      items = (values.map fun v => (normalize v).1).dedup.insertionSort (· ≤ ·) := by
  unfold unique at h
  split at h
  · next hall =>
      rw [List.all_eq_true] at hall
      exact ⟨hall, (Option.some.inj h).symm⟩
  · cases h

theorem unique_eq_none_iff :
    unique values normalize = none ↔ ∃ v ∈ values, (normalize v).2 = false := by
  unfold unique
  split
  · next hall =>
      rw [List.all_eq_true] at hall
      simp only [false_iff, not_exists, not_and, Bool.not_eq_false, reduceCtorEq]
      exact hall
  · next hall =>
      simpa using hall

/-- The items are a set in its order. -/
theorem sorted_of_unique {items : List String} (h : unique values normalize = some items) :
    items.SortedLT ∧ ∀ x, x ∈ items ↔ x ∈ values.map fun v => (normalize v).1 := by
  obtain ⟨_, rfl⟩ := unique_eq_some h
  constructor
  · rw [List.sortedLT_iff_nodup_and_sortedLE]
    refine ⟨?_, List.sortedLE_insertionSort⟩
    exact (List.perm_insertionSort _ _).nodup_iff.mpr (List.nodup_dedup _)
  · intro x
    rw [List.mem_insertionSort, List.mem_dedup]

theorem length_of_unique {items : List String} (h : unique values normalize = some items) :
    items.length ≤ values.length ∧ (items.length = 0 → values.length = 0) := by
  obtain ⟨_, hmem⟩ := sorted_of_unique h
  obtain ⟨_, rfl⟩ := unique_eq_some h
  constructor
  · rw [List.length_insertionSort]
    exact (List.dedup_sublist _).length_le.trans (List.length_map _).le
  · intro hnil
    rw [List.length_eq_zero_iff] at hnil ⊢
    cases values with
    | nil => rfl
    | cons v values =>
        have hv := (hmem (normalize v).1).mpr List.mem_cons_self
        rw [hnil] at hv
        cases hv

/-- Only the set of the normalized items matters. -/
theorem unique_congr (hvalues : (values.map normalize).Perm (values'.map normalize)) :
    unique values' normalize = unique values normalize := by
  have hall : (values'.all fun v => (normalize v).2) = values.all fun v => (normalize v).2 := by
    have h := hvalues.symm.all_eq (f := Prod.snd)
    rwa [List.all_map, List.all_map] at h
  have hitems : (values'.map fun v => (normalize v).1).Perm
      (values.map fun v => (normalize v).1) := by
    have h := (hvalues.map Prod.fst).symm
    rwa [List.map_map, List.map_map] at h
  unfold unique
  rw [hall]
  congr 2
  refine List.Perm.eq_of_pairwise' (List.pairwise_insertionSort _ _)
    (List.pairwise_insertionSort _ _) ?_
  exact (List.perm_insertionSort _ _).trans
    (hitems.dedup.trans (List.perm_insertionSort _ _).symm)

/-- A permutation of the items, each in another spelling. -/
theorem unique_of_variant {R : String → String → Prop} (hperm : l.Perm values)
    (hrel : List.Forall₂ R l values') (hR : ∀ s t, R s t → normalize t = normalize s) :
    unique values' normalize = unique values normalize := by
  have hmap : values'.map normalize = l.map normalize := by
    clear hperm
    induction hrel with
    | nil => rfl
    | cons hst _ ih => rw [List.map_cons, List.map_cons, hR _ _ hst, ih]
  refine unique_congr ?_
  rw [hmap]
  exact (hperm.map normalize).symm

/-- A set in its order whose items are their own normal forms. -/
theorem unique_of_sorted (hsorted : values.SortedLT) (h : ∀ v ∈ values, normalize v = (v, true)) :
    unique values normalize = some values := by
  have hall : ∃ items, unique values normalize = some items := by
    rw [← Option.ne_none_iff_exists', ne_eq, unique_eq_none_iff]
    rintro ⟨v, hv, hrefused⟩
    rw [h v hv] at hrefused
    cases hrefused
  obtain ⟨items, hitems⟩ := hall
  obtain ⟨hsorted', hmem⟩ := sorted_of_unique hitems
  have hself : (values.map fun v => (normalize v).1) = values := by
    conv_rhs => rw [← List.map_id values]
    exact List.map_congr_left fun v hv => congrArg Prod.fst (h v hv)
  rw [hself] at hmem
  rw [hitems, hsorted'.eq_of_mem_iff hsorted hmem]

end

/-! ## normalizePreferences -/

/-- What is looked up of a language, and whether it is allowed. -/
def normalLanguage (item : String) : String × Bool :=
  (trimSpace item, isLanguage (trimSpace item))

def normalInterest (item : String) : String × Bool :=
  (trimSpace (toLower item), allowedInterests.contains (trimSpace (toLower item)))

theorem normalLanguage_fst (v : String) : (normalLanguage v).1 = trimSpace v := by
  simp only [normalLanguage]

theorem normalLanguage_snd (v : String) : (normalLanguage v).2 = isLanguage (trimSpace v) := by
  simp only [normalLanguage]

theorem normalInterest_fst (v : String) : (normalInterest v).1 = trimSpace (toLower v) := by
  simp only [normalInterest]

theorem normalInterest_snd (v : String) :
    (normalInterest v).2 = true ↔ trimSpace (toLower v) ∈ allowedInterests := by
  simp only [normalInterest, List.contains_iff_mem]

/-- `normalizePreferences` finds a fault in `p`. -/
def Refused (p : Preferences) : Prop :=
  trimSpace (toLower p.intent) ∉ allowedIntents ∨
    ¬ (1 ≤ p.languages.length ∧ p.languages.length ≤ 5) ∨ 12 < p.interests.length ∨
    (∃ v ∈ p.languages, isLanguage (trimSpace v) = false) ∨
    ∃ v ∈ p.interests, trimSpace (toLower v) ∉ allowedInterests

/-- `q` is the one form of `p`: sets in their order, a fixed point, and common to
    all variants. -/
structure Canonical (p q : Preferences) : Prop where
  intent : q.intent = trimSpace (toLower p.intent)
  languagesSorted : q.languages.SortedLT
  interestsSorted : q.interests.SortedLT
  languages : ∀ x, x ∈ q.languages ↔ x ∈ p.languages.map trimSpace
  interests : ∀ x, x ∈ q.interests ↔ x ∈ p.interests.map fun v => trimSpace (toLower v)
  fixed : normalizePreferences q = .ok q
  variants : ∀ p', Variant p p' → normalizePreferences p' = .ok q

section
variable {p p' q : Preferences}

/-- The checks on the counts and the intent. -/
def Admitted (p : Preferences) : Prop :=
  trimSpace (toLower p.intent) ∈ allowedIntents ∧
    (1 ≤ p.languages.length ∧ p.languages.length ≤ 5) ∧ p.interests.length ≤ 12

theorem normalizePreferences_eq_ok :
    normalizePreferences p = .ok q ↔
      Admitted p ∧ q.intent = trimSpace (toLower p.intent) ∧
        unique p.languages normalLanguage = some q.languages ∧
        unique p.interests normalInterest = some q.interests := by
  have hadmitted : ¬ (¬ allowedIntents.contains (trimSpace (toLower p.intent)) = true ∨
      p.languages.length = 0 ∨ 5 < p.languages.length ∨ 12 < p.interests.length) ↔
      Admitted p := by
    rw [List.contains_iff_mem, not_or, not_not]
    refine and_congr_right fun _ => ?_
    omega
  have hlanguage : (fun item => (trimSpace item, isLanguage (trimSpace item))) =
      normalLanguage := rfl
  have hinterest : (fun item => (trimSpace (toLower item),
      allowedInterests.contains (trimSpace (toLower item)))) = normalInterest := rfl
  unfold normalizePreferences
  dsimp only
  rw [hlanguage, hinterest]
  generalize unique p.languages normalLanguage = languages
  generalize unique p.interests normalInterest = interests
  generalize trimSpace (toLower p.intent) = intent at *
  by_cases h : Admitted p
  · rw [if_neg (hadmitted.mpr h)]
    cases q
    cases languages with
    | none => simp
    | some languages =>
        cases interests with
        | none => simp
        | some interests => simp [h, eq_comm]
  · rw [if_pos (not_not.mp (mt hadmitted.mp h))]
    simp [h]

/-- It fails exactly on what it refuses. -/
theorem normalizePreferences_error_iff :
    (∃ e, normalizePreferences p = .error e) ↔ Refused p := by
  have hok : (∃ e, normalizePreferences p = .error e) ↔ ¬ ∃ q, normalizePreferences p = .ok q := by
    cases normalizePreferences p with
    | error e => simp
    | ok q => simp
  have hrefused : Refused p ↔ ¬ (Admitted p ∧ unique p.languages normalLanguage ≠ none ∧
      unique p.interests normalInterest ≠ none) := by
    unfold Refused Admitted
    simp only [ne_eq, unique_eq_none_iff, normalLanguage_snd, ← Bool.not_eq_true,
      normalInterest_snd, not_and_or, not_not, not_le, or_assoc]
  rw [hok, hrefused, not_iff_not]
  simp only [normalizePreferences_eq_ok]
  constructor
  · rintro ⟨q, hadmitted, _, hlanguages, hinterests⟩
    exact ⟨hadmitted, by rw [hlanguages]; simp, by rw [hinterests]; simp⟩
  · rintro ⟨hadmitted, hlanguages, hinterests⟩
    obtain ⟨languages, hlanguages⟩ := Option.ne_none_iff_exists'.mp hlanguages
    obtain ⟨interests, hinterests⟩ := Option.ne_none_iff_exists'.mp hinterests
    exact ⟨⟨_, languages, interests⟩, hadmitted, rfl, hlanguages, hinterests⟩

/-! ## Allowed items are normal -/

theorem isSpace_of_letter {c : Char} (h : c.isLower = true ∨ c = '-' ∨ c.isUpper = true) :
    isSpace c = false := by
  have hbounds : (0x41 ≤ c.toNat ∧ c.toNat ≤ 0x7a) ∨ c.toNat = 0x2d := by
    rcases h with h | rfl | h
    · rw [isLower_iff] at h
      omega
    · exact Or.inr rfl
    · rw [isUpper_iff] at h
      omega
  unfold isSpace
  simp only [Bool.or_eq_false_iff, Bool.and_eq_false_iff, decide_eq_false_iff_not, not_le,
    List.contains_eq_mem, List.mem_cons, List.not_mem_nil, or_false, not_or]
  omega

theorem trimSpace_of_isLanguage {s : String} (h : isLanguage s = true) : trimSpace s = s := by
  refine trimSpace_of_no_space fun c hc => isSpace_of_letter ?_
  unfold isLanguage at h
  simp only [Bool.and_eq_true, Bool.or_eq_true, decide_eq_true_eq] at h
  obtain ⟨_, h⟩ := h
  rw [← List.takeWhile_append_dropWhile (p := Char.isLower) (l := s.toList), List.mem_append] at hc
  rcases hc with hc | hc
  · exact Or.inl (List.mem_takeWhile_imp hc)
  · refine Or.inr ?_
    rcases h with hnil | ⟨⟨hhead, _⟩, htail⟩
    · rw [List.isEmpty_iff.mp hnil] at hc
      cases hc
    · obtain ⟨rest, hrest⟩ := List.head?_eq_some_iff.mp hhead
      rw [hrest, List.mem_cons] at hc
      rw [hrest, List.tail_cons, List.all_eq_true] at htail
      exact hc.imp_right (htail c)

theorem normalInterest_of_allowed {v : String} (h : v ∈ allowedInterests) :
    normalInterest v = (v, true) := by
  have hall : ∀ v ∈ allowedInterests, normalInterest v = (v, true) := by decide
  exact hall v h

theorem trimSpace_toLower_of_allowed {v : String} (h : v ∈ allowedIntents) :
    trimSpace (toLower v) = v := by
  have hall : ∀ v ∈ allowedIntents, trimSpace (toLower v) = v := by decide
  exact hall v h

/-- What it returns it leaves as it is. -/
theorem normalizePreferences_fixed (h : normalizePreferences p = .ok q) :
    normalizePreferences q = .ok q := by
  obtain ⟨⟨hintent, ⟨hone, hfive⟩, htwelve⟩, hq, hlanguages, hinterests⟩ :=
    normalizePreferences_eq_ok.mp h
  obtain ⟨hlsorted, hlmem⟩ := sorted_of_unique hlanguages
  obtain ⟨hisorted, himem⟩ := sorted_of_unique hinterests
  have hllen := length_of_unique hlanguages
  have hilen := length_of_unique hinterests
  have hsame : trimSpace (toLower q.intent) = q.intent := by
    rw [hq]
    exact trimSpace_toLower_of_allowed hintent
  rw [normalizePreferences_eq_ok]
  refine ⟨⟨?_, ⟨?_, ?_⟩, ?_⟩, hsame.symm, ?_, ?_⟩
  · rw [hsame, hq]
    exact hintent
  · omega
  · omega
  · omega
  · refine unique_of_sorted hlsorted fun x hx => ?_
    obtain ⟨v, hv, rfl⟩ := List.mem_map.mp ((hlmem x).mp hx)
    have hok := (unique_eq_some hlanguages).1 v hv
    rw [normalLanguage_snd] at hok
    rw [normalLanguage_fst, normalLanguage, trimSpace_of_isLanguage hok, hok]
  · refine unique_of_sorted hisorted fun x hx => ?_
    obtain ⟨v, hv, rfl⟩ := List.mem_map.mp ((himem x).mp hx)
    have hok := (unique_eq_some hinterests).1 v hv
    rw [normalInterest_snd] at hok
    rw [normalInterest_fst]
    exact normalInterest_of_allowed hok

/-- A variant is normalized to the same preferences. -/
theorem normalizePreferences_of_variant (h : normalizePreferences p = .ok q)
    (hvariant : Variant p p') : normalizePreferences p' = .ok q := by
  obtain ⟨⟨hintent, hlength, htwelve⟩, hq, hlanguages, hinterests⟩ :=
    normalizePreferences_eq_ok.mp h
  obtain ⟨l, hlperm, hlrel⟩ := hvariant.languages
  obtain ⟨i, hiperm, hirel⟩ := hvariant.interests
  have hsame := trimSpace_toLower_of_respelled hvariant.intent
  rw [normalizePreferences_eq_ok, hsame]
  refine ⟨⟨by rwa [hsame], ?_, ?_⟩, hq, ?_, ?_⟩
  · rwa [← hlrel.length_eq, hlperm.length_eq]
  · rwa [← hirel.length_eq, hiperm.length_eq]
  · rw [unique_of_variant hlperm hlrel fun s t hst => ?_]
    · exact hlanguages
    · unfold normalLanguage
      rw [trimSpace_of_padded hst]
  · rw [unique_of_variant hiperm hirel fun s t hst => ?_]
    · exact hinterests
    · unfold normalInterest
      rw [trimSpace_toLower_of_respelled hst]

end

/-- Normalization gives every choice one form: sets in their order, which it
    leaves as they are and which it finds again from every variant; and it fails
    exactly on what it refuses. -/
theorem normalizePreferences_canonical (p : Preferences) :
    (∀ q, normalizePreferences p = .ok q → Canonical p q) ∧
      ((∃ e, normalizePreferences p = .error e) ↔ Refused p) := by
  refine ⟨fun q h => ?_, normalizePreferences_error_iff⟩
  obtain ⟨_, hq, hlanguages, hinterests⟩ := normalizePreferences_eq_ok.mp h
  obtain ⟨hlsorted, hlmem⟩ := sorted_of_unique hlanguages
  obtain ⟨hisorted, himem⟩ := sorted_of_unique hinterests
  exact
    { intent := hq
      languagesSorted := hlsorted
      interestsSorted := hisorted
      languages := hlmem
      interests := himem
      fixed := normalizePreferences_fixed h
      variants := fun p' hvariant => normalizePreferences_of_variant h hvariant }

/-- Two spellings of one choice. -/
theorem normalizePreferences_canonical_musicians :
    normalizePreferences ⟨" Dating", ["en", " fr "], ["Music", "MUSIC", "art  "]⟩ =
      .ok ⟨"dating", ["en", "fr"], ["art", "music"]⟩ := by
  have hok : normalizePreferences ⟨"dating", ["fr", "en"], ["music", "art", "music"]⟩ =
      .ok ⟨"dating", ["en", "fr"], ["art", "music"]⟩ := rfl
  refine ((normalizePreferences_canonical _).1 _ hok).variants _ ⟨?_, ?_, ?_⟩
  · exact ⟨"Dating", by decide, 1, 0, by decide⟩
  · refine ⟨["en", "fr"], by decide, ?_⟩
    exact .cons ⟨0, 0, by decide⟩ (.cons ⟨1, 1, by decide⟩ .nil)
  · refine ⟨["music", "music", "art"], by decide, ?_⟩
    exact .cons ⟨"Music", by decide, 0, 0, by decide⟩
      (.cons ⟨"MUSIC", by decide, 0, 0, by decide⟩ (.cons ⟨"art", by decide, 0, 2, by decide⟩ .nil))

end OneMinute.Discovery.Wire
