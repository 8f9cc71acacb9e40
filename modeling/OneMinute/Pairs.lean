/-
  OneMinute.Pairs

  The order of a pair of users, in Go and in PostgreSQL.

  PersistConnection and ReportMatch sort the two ids as texts; the CHECK of the
  tables and the LEAST and GREATEST of Block and ActivePair compare UUIDs, by
  their bytes.  The canonical text writes every byte as two digits whose order
  is that of the byte, and its hyphens stand at fixed places, so the orders
  agree (`text_lt_iff`).

  The tables hold the canonical texts of UUIDs.
-/

import Mathlib.Algebra.GroupWithZero.Nat
import Mathlib.Data.Fin.Basic
import Mathlib.Data.String.Basic
import OneMinute.Lib.Lexicographic
import OneMinute.Repository

namespace OneMinute

open Discovery (UserID MatchID UnixMilli MatchState sortPair)
open Lexicographic (append_lt_append_iff separate_lt_iff eq_iff_of_lt_iff flatMap_lt_iff
  length_flatMap)

/-! ## UUIDs -/

/-- Sixteen bytes. -/
structure UUID where
  bytes : List (Fin 256)
  size : bytes.length = 16
deriving DecidableEq

namespace UUID

theorem bytes_injective : Function.Injective bytes := by
  rintro ⟨a, _⟩ ⟨b, _⟩ rfl
  rfl

/-- PostgreSQL compares the bytes from the first on. -/
instance : LinearOrder UUID := LinearOrder.lift' bytes bytes_injective

/-! ## Texts -/

/-- A hexadecimal digit in lower case. -/
def hexDigit (n : Nat) : Char := if n < 10 then Char.ofNat (48 + n) else Char.ofNat (87 + n)

/-- The two digits of a byte. -/
def hexByte (b : Fin 256) : List Char := [hexDigit (b / 16), hexDigit (b % 16)]

/-- The digits of some bytes. -/
def hex (bytes : List (Fin 256)) : List Char := bytes.flatMap hexByte

/-- Groups of bytes with hyphens between them. -/
def hyphenate : List Nat → List (Fin 256) → List Char
  | [], bytes => hex bytes
  | n :: groups, bytes => hex (bytes.take n) ++ '-' :: hyphenate groups (bytes.drop n)

/-- 8, 4, 4, 4 and 12 digits. -/
def groups : List Nat := [4, 2, 2, 2]

/-- The canonical text. -/
def text (a : UUID) : String := String.ofList (hyphenate groups a.bytes)

/-! ## The order of texts -/

theorem hexDigit_lt_iff {m n : Nat} (hm : m < 16) (hn : n < 16) :
    hexDigit m < hexDigit n ↔ m < n := by
  have hall : ∀ m n : Fin 16, hexDigit m < hexDigit n ↔ m < n := by decide
  exact hall ⟨m, hm⟩ ⟨n, hn⟩

theorem length_hexByte (a b : Fin 256) : (hexByte a).length = (hexByte b).length := rfl

/-- Two digits are in the order of the byte. -/
theorem hexByte_lt_iff (a b : Fin 256) : hexByte a < hexByte b ↔ a < b := by
  have ha : (a : Nat) / 16 < 16 := by omega
  have hb : (b : Nat) / 16 < 16 := by omega
  have heq : hexDigit (a / 16) = hexDigit (b / 16) ↔ (a : Nat) / 16 = b / 16 :=
    eq_iff_of_lt_iff (hexDigit_lt_iff ha hb) (hexDigit_lt_iff hb ha)
  unfold hexByte
  rw [List.cons_lt_cons_iff, List.cons_lt_cons_iff, hexDigit_lt_iff ha hb, heq,
    hexDigit_lt_iff (Nat.mod_lt _ (by omega)) (Nat.mod_lt _ (by omega))]
  simp only [List.not_lt_nil, and_false, or_false, Fin.lt_def]
  omega

theorem hyphenate_lt_iff (ns : List Nat) {l l' : List (Fin 256)} (h : l.length = l'.length) :
    hyphenate ns l < hyphenate ns l' ↔ l < l' := by
  induction ns generalizing l l' with
  | nil => exact flatMap_lt_iff length_hexByte hexByte_lt_iff h
  | cons n ns ih =>
      have htake : (l.take n).length = (l'.take n).length := by
        rw [List.length_take, List.length_take, h]
      have hdrop : (l.drop n).length = (l'.drop n).length := by
        rw [List.length_drop, List.length_drop, h]
      have hlength : (hex (l.take n)).length = (hex (l'.take n)).length :=
        length_flatMap length_hexByte htake
      have hhex : hex (l.take n) < hex (l'.take n) ↔ l.take n < l'.take n :=
        flatMap_lt_iff length_hexByte hexByte_lt_iff htake
      have hhex' : hex (l'.take n) < hex (l.take n) ↔ l'.take n < l.take n :=
        flatMap_lt_iff length_hexByte hexByte_lt_iff htake.symm
      rw [hyphenate, hyphenate, separate_lt_iff hlength, ih hdrop, hhex,
        eq_iff_of_lt_iff hhex hhex', ← append_lt_append_iff htake, List.take_append_drop,
        List.take_append_drop]

/-- Texts and UUIDs are in the same order. -/
theorem text_lt_iff (a b : UUID) : a.text < b.text ↔ a < b := by
  unfold text
  rw [String.lt_iff_toList_lt, String.toList_ofList, String.toList_ofList,
    hyphenate_lt_iff groups (a.size.trans b.size.symm)]
  rfl

/-- `sort.Strings` puts the lesser UUID first. -/
theorem sortPair_text (a b : UUID) :
    sortPair a.text b.text = ((min a b).text, (max a b).text) := by
  unfold sortPair
  rcases lt_or_ge b a with hlt | hle
  · rw [if_pos ((text_lt_iff b a).mpr hlt), min_eq_right hlt.le, max_eq_left hlt.le]
  · rw [if_neg (mt (text_lt_iff b a).mp (not_lt.mpr hle)), min_eq_left hle, max_eq_right hle]

/-! ## The cast -/

/-- The value of a hexadecimal digit of either case. -/
def hexValue (c : Char) : Option Nat :=
  if '0' ≤ c ∧ c ≤ '9' then some (c.toNat - 48)
  else if 'a' ≤ c ∧ c ≤ 'f' then some (c.toNat - 87)
  else if 'A' ≤ c ∧ c ≤ 'F' then some (c.toNat - 55)
  else none

/-- The bytes of an even number of digits. -/
def unhex : List Char → Option (List (Fin 256))
  | [] => some []
  | [_] => none
  | c :: d :: rest => do
    let high ← hexValue c
    let low ← hexValue d
    let bytes ← unhex rest
    return Fin.ofNat 256 (16 * high + low) :: bytes

/-- The bytes of groups of digits with hyphens between them. -/
def unhyphenate : List Nat → List Char → Option (List (Fin 256))
  | [], cs => unhex cs
  | n :: groups, cs =>
    if (cs.drop (2 * n)).head? = some '-' then do
      let group ← unhex (cs.take (2 * n))
      let rest ← unhyphenate groups (cs.drop (2 * n)).tail
      return group ++ rest
    else none

/-- The cast of a text to UUID, for the spelling with the four hyphens. -/
def ofText (s : String) : Option UUID :=
  (unhyphenate groups s.toList).bind fun bytes =>
    if h : bytes.length = 16 then some ⟨bytes, h⟩ else none

/-- The cast, as the canonical text. -/
def canonicalText (s : String) : Option String := (ofText s).map text

theorem hexValue_hexDigit {n : Nat} (h : n < 16) : hexValue (hexDigit n) = some n := by
  have hall : ∀ n : Fin 16, hexValue (hexDigit n) = some (n : Nat) := by decide
  exact hall ⟨n, h⟩

theorem unhex_hex (l : List (Fin 256)) : unhex (hex l) = some l := by
  induction l with
  | nil => rfl
  | cons b l ih =>
      have hbyte : Fin.ofNat 256 (16 * ((b : Nat) / 16) + (b : Nat) % 16) = b := by
        rw [Nat.div_add_mod]
        exact Fin.ofNat_val_eq_self b
      show (do
        let high ← hexValue (hexDigit (b / 16))
        let low ← hexValue (hexDigit (b % 16))
        let bytes ← unhex (hex l)
        return Fin.ofNat 256 (16 * high + low) :: bytes) = _
      rw [hexValue_hexDigit (by omega), hexValue_hexDigit (Nat.mod_lt _ (by omega)), ih]
      exact congrArg some (congrArg (· :: l) hbyte)

theorem length_hex (l : List (Fin 256)) : (hex l).length = 2 * l.length := by
  induction l with
  | nil => rfl
  | cons b l ih =>
      show (hexByte b ++ hex l).length = _
      rw [List.length_append, ih, List.length_cons]
      show 2 + 2 * l.length = _
      omega

theorem unhyphenate_hyphenate (ns : List Nat) {l : List (Fin 256)} (h : ns.sum ≤ l.length) :
    unhyphenate ns (hyphenate ns l) = some l := by
  induction ns generalizing l with
  | nil => exact unhex_hex l
  | cons n ns ih =>
      rw [List.sum_cons] at h
      have hlen : (hex (l.take n)).length = 2 * n := by
        rw [length_hex, List.length_take]
        omega
      have hrest : ns.sum ≤ (l.drop n).length := by
        rw [List.length_drop]
        omega
      rw [hyphenate, unhyphenate, List.drop_left' hlen, List.take_left' hlen, List.head?_cons,
        if_pos rfl, List.tail_cons, unhex_hex, ih hrest]
      exact congrArg some (List.take_append_drop n l)

/-- A UUID is read back from its canonical text. -/
@[simp] theorem ofText_text (a : UUID) : ofText a.text = some a := by
  unfold ofText text
  rw [String.toList_ofList, unhyphenate_hyphenate groups (by rw [a.size]; decide),
    Option.bind_some, dif_pos a.size]

end UUID

/-! ## SQL on pairs -/

/-- CHECK (user_low < user_high). -/
def pairChecked (low high : String) : Bool :=
  match UUID.ofText low, UUID.ofText high with
  | some a, some b => decide (a < b)
  | _, _ => false

/-- user_low=LEAST($1::uuid,$2::uuid) AND user_high=GREATEST($1::uuid,$2::uuid),
    of Block and ActivePair. -/
def isPair (u v : String) (r : ConnectionRow) : Bool :=
  match UUID.ofText u, UUID.ofText v with
  | some a, some b =>
    decide (UUID.ofText r.userLow = some (min a b)) &&
      decide (UUID.ofText r.userHigh = some (max a b))
  | _, _ => false

namespace Database

/-- `ActivePair`. -/
def activePair (db : Database) (u v : UserID) : Bool :=
  db.connections.rows.any fun r => isPair u v r && r.active

/-- The UPDATE of `Block`. -/
def endPair (db : Database) (u target : UserID) (now : UnixMilli) : ConnectionTable :=
  db.connections.endWhere (isPair u target) now

end Database

/-! ## ReportMatch -/

/-- The categories of the table and of the handler. -/
def reportCategories : List String :=
  ["spam", "harassment", "sexual_content", "hate", "violence", "underage", "other"]

/-- A row of `reports`. -/
structure ReportRow where
  reporter : UserID
  reported : UserID
  encounterID : Option MatchID
  connectionID : Option String
  category : String
  details : String
deriving DecidableEq, Repr

/-- The CHECK constraints of `reports`. -/
def ReportRow.Checked (r : ReportRow) : Prop :=
  r.reporter ≠ r.reported ∧ (r.encounterID.isSome ^^ r.connectionID.isSome) = true ∧
    r.category ∈ reportCategories ∧ r.details.length ≤ 500

instance (r : ReportRow) : Decidable r.Checked := inferInstanceAs (Decidable (_ ∧ _ ∧ _ ∧ _))

/-- INSERT INTO encounters .. ON CONFLICT(id) DO NOTHING; the CHECKs are on the
    proposed row. -/
def EncounterTable.insert (t : EncounterTable) (r : EncounterRow) :
    Except DbError EncounterTable :=
  if r.Checked ∧ r.id ∈ t.rows.map EncounterRow.id then .ok t else t.upsert r

namespace Database

/-- The encounters row that ReportMatch proposes. -/
def reportOf (m : MatchState) (endedAt : UnixMilli) : EncounterRow :=
  { encounterOf m endedAt with outcome := .reported }

/-- `ReportMatch`, on the database and the rows of `reports`. -/
def reportMatch (db : Database) (reports : List ReportRow) (reporter target : UserID)
    (category details : String) (m : MatchState) (now : UnixMilli) :
    Except DbError (Database × List ReportRow) := do
  let users := sortPair m.userA m.userB
  -- one transaction: an error leaves both as they were
  if db.knows users.1 users.2 = false then throw .foreignKey
  let encounters ← db.encounters.insert (reportOf m now)
  let row : ReportRow := ⟨reporter, target, some m.id, none, category, details⟩
  if ¬ row.Checked then throw .check
  if db.knows reporter target = false then throw .foreignKey
  -- one report of a reporter for an encounter
  if reports.any fun r => decide (r.reporter = reporter ∧ r.encounterID = some m.id) then
    return ({ db with encounters }, reports)
  else return ({ db with encounters }, row :: reports)

end Database

/-! ## The orders agree -/

section
variable {a b : UUID}

theorem pairChecked_text : pairChecked a.text b.text = true ↔ a < b := by
  unfold pairChecked
  rw [UUID.ofText_text, UUID.ofText_text]
  exact decide_eq_true_iff

/-- The CHECK holds of two ids that `sort.Strings` has sorted. -/
theorem pairChecked_sortPair (hne : a ≠ b) :
    pairChecked (sortPair a.text b.text).1 (sortPair a.text b.text).2 = true := by
  rw [UUID.sortPair_text, pairChecked_text]
  exact min_lt_max.mpr hne

theorem isPair_sortPair {r : ConnectionRow} (h : r.pair = sortPair a.text b.text) :
    isPair a.text b.text r = true := by
  rw [UUID.sortPair_text, ConnectionRow.pair, Prod.mk.injEq] at h
  unfold isPair
  rw [h.1, h.2]
  simp only [UUID.ofText_text, decide_true, Bool.and_self]

theorem isPair_comm (u v : String) (r : ConnectionRow) : isPair u v r = isPair v u r := by
  unfold isPair
  cases UUID.ofText u with
  | none => cases UUID.ofText v <;> rfl
  | some a =>
      cases UUID.ofText v with
      | none => rfl
      | some b => simp only [min_comm, max_comm]

/-- A row that holds canonical texts is found by UUIDs exactly if it is found by
    the sorted texts. -/
theorem isPair_iff {r : ConnectionRow} {c d : UUID} (hlow : r.userLow = c.text)
    (hhigh : r.userHigh = d.text) :
    isPair a.text b.text r = true ↔ r.pair = sortPair a.text b.text := by
  refine ⟨fun h => ?_, isPair_sortPair⟩
  unfold isPair at h
  simp only [hlow, hhigh, UUID.ofText_text, Bool.and_eq_true, decide_eq_true_eq,
    Option.some.injEq] at h
  rw [UUID.sortPair_text, ConnectionRow.pair, hlow, hhigh, h.1, h.2]

/-- So `Block` ends what its UPDATE on UUIDs ends. -/
theorem Database.block_connections {db db' : Database} {now : UnixMilli}
    (hcanonical : ∀ r ∈ db.connections.rows, ∃ c d : UUID,
      r.userLow = c.text ∧ r.userHigh = d.text)
    (h : db.block a.text b.text now = .ok db') :
    db'.connections.rows = (db.endPair a.text b.text now).rows := by
  rw [(Database.block_eq_ok h).2]
  refine List.map_congr_left fun r hr => ?_
  obtain ⟨c, d, hlow, hhigh⟩ := hcanonical r hr
  have hsame : decide (r.pair = sortPair a.text b.text) = isPair a.text b.text r := by
    rw [Bool.eq_iff_iff, decide_eq_true_iff, isPair_iff hlow hhigh]
  unfold ConnectionRow.endIf
  simp only [hsame]

end

/-- The row `r` is the connection of `u` and `v`: it meets the CHECK, ActivePair
    finds it for either order of the two, and Block ends it for either order. -/
structure Database.JoinsPair (db : Database) (u v : UserID) (r : ConnectionRow) : Prop where
  row : r ∈ db.connections.rows
  active : r.active = true
  checked : pairChecked r.userLow r.userHigh = true
  found : db.activePair u v = true ∧ db.activePair v u = true
  ended : ∀ now, { r with endedAt := some now } ∈ (db.endPair u v now).rows ∧
    { r with endedAt := some now } ∈ (db.endPair v u now).rows

/-- An active row of the sorted pair joins the two. -/
theorem Database.joinsPair {db : Database} {a b : UUID} (hne : a ≠ b) {r : ConnectionRow}
    (hr : r ∈ db.connections.rows) (hactive : r.active = true)
    (hpair : r.pair = sortPair a.text b.text) : db.JoinsPair a.text b.text r := by
  have hwhere : isPair a.text b.text r = true := isPair_sortPair hpair
  have hwhere' : isPair b.text a.text r = true := by rw [isPair_comm, hwhere]
  have hchecked := pairChecked_sortPair hne
  rw [← hpair] at hchecked
  have hend : ∀ {u v now}, isPair u v r = true →
      { r with endedAt := some now } ∈ (db.endPair u v now).rows := by
    intro u v now h
    refine List.mem_map.mpr ⟨r, hr, ?_⟩
    unfold ConnectionRow.endIf
    rw [hactive, h]
    rfl
  refine ⟨hr, hactive, hchecked, ⟨?_, ?_⟩, fun now => ⟨hend hwhere, hend hwhere'⟩⟩
  · exact List.any_eq_true.mpr ⟨r, hr, by rw [hwhere, hactive]; rfl⟩
  · exact List.any_eq_true.mpr ⟨r, hr, by rw [hwhere', hactive]; rfl⟩

/-- A new row of `encounters` meets the CHECK on its users. -/
def Database.ChecksNew (db db' : Database) : Prop :=
  ∀ r ∈ db'.encounters.rows, r.id ∈ db.encounters.rows.map EncounterRow.id ∨
    pairChecked r.userLow r.userHigh = true

theorem EncounterTable.mem_upsert {t t' : EncounterTable} {r x : EncounterRow}
    (h : t.upsert r = .ok t') (hx : x ∈ t'.rows) :
    x.id ∈ t.rows.map EncounterRow.id ∨ x = r := by
  unfold EncounterTable.upsert at h
  split at h
  · split at h
    · cases h
      obtain ⟨y, hy, rfl⟩ := List.mem_map.mp hx
      refine Or.inl (List.mem_map.mpr ⟨y, hy, ?_⟩)
      split <;> rfl
    · cases h
      rcases List.mem_cons.mp hx with rfl | hx
      · exact Or.inr rfl
      · exact Or.inl (List.mem_map_of_mem hx)
  · cases h

theorem EncounterTable.mem_insert {t t' : EncounterTable} {r x : EncounterRow}
    (h : t.insert r = .ok t') (hx : x ∈ t'.rows) :
    x.id ∈ t.rows.map EncounterRow.id ∨ x = r := by
  unfold EncounterTable.insert at h
  split at h
  · cases h
    exact Or.inl (List.mem_map_of_mem hx)
  · exact EncounterTable.mem_upsert h hx

/-- A row that meets the CHECKs is inserted, or is there. -/
theorem EncounterTable.upsert_of_checked (t : EncounterTable) {r : EncounterRow}
    (h : r.Checked) : ∃ t', t.upsert r = .ok t' ∧ r.id ∈ t'.rows.map EncounterRow.id := by
  unfold EncounterTable.upsert
  rw [dif_pos h]
  split
  · next hmem =>
      refine ⟨_, rfl, ?_⟩
      obtain ⟨x, hx, hid⟩ := List.mem_map.mp hmem
      refine List.mem_map.mpr ⟨_, List.mem_map_of_mem hx, ?_⟩
      rw [if_pos hid]
      exact hid
  · exact ⟨_, rfl, List.mem_cons_self⟩

theorem EncounterTable.insert_of_checked (t : EncounterTable) {r : EncounterRow}
    (h : r.Checked) : ∃ t', t.insert r = .ok t' ∧ r.id ∈ t'.rows.map EncounterRow.id := by
  unfold EncounterTable.insert
  split
  · next hor => exact ⟨t, rfl, hor.2⟩
  · exact t.upsert_of_checked h

/-- A sorted pair is refused by no CHECK. -/
theorem ConnectionTable.connect_ne_check {t : ConnectionTable} {id : String}
    {pair : UserID × UserID} {encounterID : MatchID} {createdAt : UnixMilli}
    (hlt : pair.1 < pair.2) : t.connect id pair encounterID createdAt ≠ .error .check := by
  unfold ConnectionTable.connect
  rw [dif_pos hlt]
  intro hcheck
  split at hcheck
  · cases hcheck
  · split at hcheck <;> cases hcheck

theorem ConnectionTable.connect_of_free {t : ConnectionTable} {id : String}
    {pair : UserID × UserID} {encounterID : MatchID} {createdAt : UnixMilli}
    (hlt : pair.1 < pair.2) (hfree : t.activeRow pair = none →
      id ∉ t.rows.map ConnectionRow.id ∧ encounterID ∉ t.rows.map ConnectionRow.encounterID) :
    ∃ out, t.connect id pair encounterID createdAt = .ok out := by
  cases hact : t.activeRow pair with
  | none =>
      obtain ⟨hid, henc⟩ := hfree hact
      obtain ⟨t', hok, -⟩ := ConnectionTable.connect_of_new hlt hact hid henc
      exact ⟨_, hok⟩
  | some r =>
      refine ⟨(r.id, t), ?_⟩
      unfold ConnectionTable.connect
      rw [dif_pos hlt]
      split
      · next r' hr' =>
          obtain rfl := Option.some.inj (hact.symm.trans hr')
          rfl
      · next hnone =>
          rw [hact] at hnone
          cases hnone

namespace Database

variable {db db' : Database} {m : MatchState} {a b : UUID}

/-- The foreign keys hold of a pair in either order. -/
theorem knows_sortPair (db : Database) (u v : UserID) :
    db.knows (sortPair u v).1 (sortPair u v).2 = db.knows u v := by
  rcases sortPair_mem u v with h | h
  · rw [h]
  · rw [h]
    exact Bool.and_comm _ _

theorem encounters_of_persistConnection {endedAt : UnixMilli} {id durableID : String}
    (h : db.persistConnection m endedAt id = .ok (durableID, db')) :
    db.encounters.upsert (encounterOf m endedAt) = .ok db'.encounters := by
  unfold persistConnection at h
  simp only [bind, Except.bind] at h
  split at h
  · cases h
  · split at h
    · cases h
    · next encounters henc =>
        split at h
        · cases h
        · cases h
          exact henc

theorem encounters_of_reportMatch {reports reports' : List ReportRow} {reporter target : UserID}
    {category details : String} {now : UnixMilli}
    (h : db.reportMatch reports reporter target category details m now = .ok (db', reports')) :
    db.encounters.insert (reportOf m now) = .ok db'.encounters := by
  unfold reportMatch at h
  simp only [bind, Except.bind] at h
  split at h
  · cases h
  · split at h
    · cases h
    · next encounters henc =>
        split at h
        · cases h
        · split at h
          · cases h
          · split at h
            · cases h
              exact henc
            · cases h
              exact henc

theorem checksNew_of_pair (hne : a ≠ b) {r : EncounterRow}
    (hr : (r.userLow, r.userHigh) = sortPair a.text b.text)
    (hnew : ∀ x ∈ db'.encounters.rows, x.id ∈ db.encounters.rows.map EncounterRow.id ∨ x = r) :
    db.ChecksNew db' := by
  intro x hx
  refine (hnew x hx).imp_right ?_
  rintro rfl
  have hchecked := pairChecked_sortPair hne
  rwa [← hr] at hchecked

/-- What the match brings to the other CHECKs of `encounters`. -/
def Fits (m : MatchState) (endedAt : UnixMilli) : Prop :=
  m.startedAt ≤ endedAt ∧ 1 ≤ m.intent.length ∧ m.intent.length ≤ 40

instance (m : MatchState) (endedAt : UnixMilli) : Decidable (Fits m endedAt) :=
  inferInstanceAs (Decidable (_ ∧ _ ∧ _))

theorem sortPair_lt (hne : a ≠ b) : (sortPair a.text b.text).1 < (sortPair a.text b.text).2 := by
  rw [UUID.sortPair_text]
  exact (UUID.text_lt_iff _ _).mpr (min_lt_max.mpr hne)

/-- The users of a proposed row are in order, so only the rest of it is checked. -/
theorem checked_encounterOf (hne : a ≠ b) (hA : m.userA = a.text) (hB : m.userB = b.text)
    {endedAt : UnixMilli} : (encounterOf m endedAt).Checked ↔ Fits m endedAt := by
  have hlt : (encounterOf m endedAt).userLow < (encounterOf m endedAt).userHigh := by
    unfold encounterOf
    rw [hA, hB]
    exact sortPair_lt hne
  exact and_iff_right hlt

/-- `PersistConnection` is refused by no CHECK. -/
theorem persistConnection_ne_check (hne : a ≠ b) (hA : m.userA = a.text) (hB : m.userB = b.text)
    {endedAt : UnixMilli} (hfits : Fits m endedAt) (id : String) :
    db.persistConnection m endedAt id ≠ .error .check := by
  obtain ⟨encounters, henc, -⟩ :=
    db.encounters.upsert_of_checked ((checked_encounterOf hne hA hB).mpr hfits)
  have hconnect : db.connections.connect id (sortPair m.userA m.userB) m.id endedAt ≠
      .error .check := by
    rw [hA, hB]
    exact ConnectionTable.connect_ne_check (sortPair_lt hne)
  unfold persistConnection
  simp only [bind, Except.bind, henc]
  split
  · exact nofun
  · split
    · next err herr =>
        rintro h
        cases h
        exact hconnect herr
    · exact nofun

/-- For known users it goes through, unless another unique key is in the way. -/
theorem persistConnection_of_fits (hne : a ≠ b) (hA : m.userA = a.text) (hB : m.userB = b.text)
    {endedAt : UnixMilli} (hfits : Fits m endedAt) (hknows : db.knows a.text b.text = true)
    {id : String} (hfree : db.connections.activeRow (sortPair a.text b.text) = none →
      id ∉ db.connections.rows.map ConnectionRow.id ∧
        m.id ∉ db.connections.rows.map ConnectionRow.encounterID) :
    ∃ durableID db', db.persistConnection m endedAt id = .ok (durableID, db') ∧
      m.id ∈ db'.encounters.rows.map EncounterRow.id := by
  obtain ⟨encounters, henc, hmem⟩ :=
    db.encounters.upsert_of_checked ((checked_encounterOf hne hA hB).mpr hfits)
  obtain ⟨⟨durableID, connections⟩, hconnect⟩ :
      ∃ out, db.connections.connect id (sortPair a.text b.text) m.id endedAt = .ok out :=
    ConnectionTable.connect_of_free (sortPair_lt hne) hfree
  refine ⟨durableID, { db with encounters, connections }, ?_, hmem⟩
  unfold persistConnection
  rw [hA, hB]
  simp only [bind, Except.bind, knows_sortPair, hknows, henc, hconnect]
  rfl

/-- `ReportMatch` is refused by no CHECK that its report meets. -/
theorem reportMatch_ne_check (hne : a ≠ b) (hA : m.userA = a.text) (hB : m.userB = b.text)
    {reports : List ReportRow} {reporter target : UserID} {category details : String}
    {now : UnixMilli} (hfits : Fits m now)
    (hreport : (⟨reporter, target, some m.id, none, category, details⟩ : ReportRow).Checked) :
    db.reportMatch reports reporter target category details m now ≠ .error .check := by
  have hchecked : (reportOf m now).Checked := (checked_encounterOf hne hA hB).mpr hfits
  obtain ⟨encounters, henc, -⟩ := db.encounters.insert_of_checked hchecked
  unfold reportMatch
  simp only [bind, Except.bind, henc, hreport, not_true_eq_false, if_false]
  split
  · exact nofun
  · dsimp only [pure, Except.pure]
    split
    · exact nofun
    · split <;> exact nofun

/-- For known users it inserts its row, and the report is there. -/
theorem reportMatch_of_fits (hne : a ≠ b) (hA : m.userA = a.text) (hB : m.userB = b.text)
    {reports : List ReportRow} {reporter target : UserID} {category details : String}
    {now : UnixMilli} (hfits : Fits m now)
    (hreport : (⟨reporter, target, some m.id, none, category, details⟩ : ReportRow).Checked)
    (hknows : db.knows a.text b.text = true) (hparties : db.knows reporter target = true) :
    ∃ db' reports', db.reportMatch reports reporter target category details m now =
        .ok (db', reports') ∧ m.id ∈ db'.encounters.rows.map EncounterRow.id ∧
      ∃ row ∈ reports', row.reporter = reporter ∧ row.encounterID = some m.id := by
  have hchecked : (reportOf m now).Checked := (checked_encounterOf hne hA hB).mpr hfits
  obtain ⟨encounters, henc, hmem⟩ := db.encounters.insert_of_checked hchecked
  unfold reportMatch
  rw [hA, hB]
  simp only [bind, Except.bind, knows_sortPair, hknows, henc, hreport, hparties,
    not_true_eq_false, if_false, Bool.true_eq_false]
  dsimp only [pure, Except.pure]
  split
  · next hany =>
      obtain ⟨row, hrow, hsame⟩ := List.any_eq_true.mp hany
      exact ⟨_, _, rfl, hmem, row, hrow, of_decide_eq_true hsame⟩
  · exact ⟨_, _, rfl, hmem, _, List.mem_cons_self, rfl, rfl⟩

/-- What PersistConnection does for two users, whichever comes first in the match. -/
structure Persists (db : Database) (u v : UserID) (m : MatchState) (endedAt : UnixMilli)
    (id : String) : Prop where
  proposed : pairChecked (encounterOf m endedAt).userLow (encounterOf m endedAt).userHigh = true
  /-- No CHECK on the pair refuses its rows. -/
  check : Fits m endedAt → db.persistConnection m endedAt id ≠ .error .check
  inserts : Fits m endedAt → db.knows u v = true →
    (db.connections.activeRow (sortPair u v) = none →
      id ∉ db.connections.rows.map ConnectionRow.id ∧
        m.id ∉ db.connections.rows.map ConnectionRow.encounterID) →
    ∃ durableID db', db.persistConnection m endedAt id = .ok (durableID, db') ∧
      m.id ∈ db'.encounters.rows.map EncounterRow.id
  joins : ∀ durableID db', db.persistConnection m endedAt id = .ok (durableID, db') →
    db.ChecksNew db' ∧ ∃ r, r.id = durableID ∧ db'.JoinsPair u v r

/-- What ReportMatch does for a match of two users. -/
structure Reports (db : Database) (u v : UserID) (m : MatchState) (reports : List ReportRow)
    (reporter target : UserID) (category details : String) (now : UnixMilli) : Prop where
  proposed : pairChecked (reportOf m now).userLow (reportOf m now).userHigh = true
  /-- No CHECK on the pair refuses its row. -/
  check : Fits m now →
    (⟨reporter, target, some m.id, none, category, details⟩ : ReportRow).Checked →
    db.reportMatch reports reporter target category details m now ≠ .error .check
  inserts : Fits m now →
    (⟨reporter, target, some m.id, none, category, details⟩ : ReportRow).Checked →
    db.knows u v = true → db.knows reporter target = true →
    ∃ db' reports', db.reportMatch reports reporter target category details m now =
        .ok (db', reports') ∧ m.id ∈ db'.encounters.rows.map EncounterRow.id ∧
      ∃ row ∈ reports', row.reporter = reporter ∧ row.encounterID = some m.id
  checks : ∀ db' reports',
    db.reportMatch reports reporter target category details m now = .ok (db', reports') →
      db.ChecksNew db'

theorem persists (hne : a ≠ b) (hA : m.userA = a.text) (hB : m.userB = b.text)
    (endedAt : UnixMilli) (id : String) : db.Persists a.text b.text m endedAt id where
  proposed := by
    unfold encounterOf
    rw [hA, hB]
    exact pairChecked_sortPair hne
  check := fun hfits => persistConnection_ne_check hne hA hB hfits id
  inserts := fun hfits hknows hfree => persistConnection_of_fits hne hA hB hfits hknows hfree
  joins := by
    intro durableID db' h
    constructor
    · have hupsert := encounters_of_persistConnection h
      refine checksNew_of_pair hne ?_ fun x hx => EncounterTable.mem_upsert hupsert hx
      unfold encounterOf
      rw [hA, hB]
    · obtain ⟨_, _, _, hconnect⟩ := persistConnection_eq_ok h
      obtain ⟨r, hr, hid, hactive, hpair⟩ := ConnectionTable.connect_active hconnect
      rw [hA, hB] at hpair
      exact ⟨r, hid, joinsPair hne hr hactive hpair⟩

theorem reports (hne : a ≠ b) (hA : m.userA = a.text) (hB : m.userB = b.text)
    (reports : List ReportRow) (reporter target : UserID) (category details : String)
    (now : UnixMilli) :
    db.Reports a.text b.text m reports reporter target category details now where
  proposed := by
    unfold reportOf encounterOf
    rw [hA, hB]
    exact pairChecked_sortPair hne
  check := fun hfits hreport => reportMatch_ne_check hne hA hB hfits hreport
  inserts := fun hfits hreport hknows hparties =>
    reportMatch_of_fits hne hA hB hfits hreport hknows hparties
  checks := by
    intro db' reports' h
    have hinsert := encounters_of_reportMatch h
    refine checksNew_of_pair hne ?_ fun x hx => EncounterTable.mem_insert hinsert hx
    unfold reportOf encounterOf
    rw [hA, hB]

end Database

/-- For distinct users, in either order: texts and UUIDs are in the same order; the
    rows that PersistConnection and ReportMatch propose meet the CHECK, so that none
    of their statements fails by it, and are inserted; and the connection that
    PersistConnection returns is the one that Block ends and ActivePair finds. -/
theorem pair_order_agrees {a b : UUID} (hne : a ≠ b) :
    (a.text < b.text ↔ a < b) ∧
      sortPair a.text b.text = ((min a b).text, (max a b).text) ∧
      ∀ (db : Database) (m : MatchState), m.userA = a.text → m.userB = b.text →
        (∀ endedAt id, db.Persists a.text b.text m endedAt id) ∧
        ∀ reports reporter target category details now,
          db.Reports a.text b.text m reports reporter target category details now := by
  refine ⟨UUID.text_lt_iff a b, UUID.sortPair_text a b, fun db m hA hB => ⟨?_, ?_⟩⟩
  · exact fun endedAt id => Database.persists hne hA hB endedAt id
  · exact fun reports reporter target category details now =>
      Database.reports hne hA hB reports reporter target category details now

/-- The UUID whose bytes are all `b`. -/
def UUID.repeated (b : Fin 256) : UUID := ⟨List.replicate 16 b, List.length_replicate⟩

/-- In UUIDs, as in texts, `9...` is before `a...`. -/
theorem pair_order_agrees_digits :
    sortPair (UUID.repeated 0xaa).text (UUID.repeated 0x99).text =
      ((UUID.repeated 0x99).text, (UUID.repeated 0xaa).text) := by
  have h := (pair_order_agrees (a := UUID.repeated 0xaa) (b := UUID.repeated 0x99)
    (by decide)).2.1
  have hlt : UUID.repeated 0x99 < UUID.repeated 0xaa := by decide
  rw [h, min_eq_right (le_of_lt hlt), max_eq_left (le_of_lt hlt)]

end OneMinute
