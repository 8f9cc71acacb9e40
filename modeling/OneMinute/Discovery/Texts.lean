/-
  OneMinute.Discovery.Texts

  A match hash as Redis holds it: a text for each field.

  Claim passes the instants in decimal and the shared interests as a JSON array
  (`Claim.texts`), HGETALL returns what is there, and CurrentMatch parses it
  (`Texts.currentMatch`).  On the texts of a typed hash that is the read of the
  model (`currentMatch_texts`).  So of a hash that records a claim, whatever was
  written into it since, the texts give back the arguments of the claim
  (`currentMatch_of_records`).
-/

import OneMinute.Discovery.Votes
import OneMinute.Lib.JsonText

namespace OneMinute.Discovery

open Decimal (IsInt64)

/-! ## What is written -/

/-- The fields that CurrentMatch reads; a missing one reads as the empty text.
    Those that are parsed are bytes. -/
structure Texts where
  a : String
  b : String
  state : String
  intent : String
  connectionID : String
  sharedInterests : List UInt8
  startedAt : List UInt8
  expiresAt : List UInt8
deriving DecidableEq, Repr

def MatchStatus.text : MatchStatus → String
  | .active => "active"
  | .extended => "extended"

def MatchHash.texts (h : MatchHash) : Texts where
  a := h.a.getD ""
  b := h.b.getD ""
  state := (h.state.map MatchStatus.text).getD ""
  intent := h.intent.getD ""
  connectionID := h.connectionID.getD ""
  sharedInterests := (h.sharedInterests.map fun l => JsonText.print (JsonText.strings l)).getD []
  startedAt := (h.startedAt.map Decimal.formatInt).getD []
  expiresAt := (h.expiresAt.map Decimal.formatInt).getD []

/-- The arguments of the HSET in claimScript, as Claim encodes them. -/
def Claim.texts (k : Claim) : Texts where
  a := k.userA
  b := k.userB
  state := "active"
  intent := k.intent
  connectionID := ""
  -- json.Marshal of the list, UnixMilli in decimal
  sharedInterests := JsonText.print (JsonText.strings k.sharedInterests)
  startedAt := Decimal.formatInt k.now
  expiresAt := Decimal.formatInt (k.now + encounterLength)

/-- The typed hash of a new match stands for these texts. -/
theorem texts_hash (k : Claim) : (k.hash {}).texts = k.texts := rfl

/-- Of a hash that records a claim, the scripts since have changed at most the
    state and the connection. -/
theorem texts_of_records {h : MatchHash} {k : Claim} (hr : h.Records k) :
    h.texts = { k.texts with state := h.texts.state, connectionID := h.texts.connectionID } := by
  simp only [MatchHash.texts, Claim.texts, hr.a, hr.b, hr.intent, hr.sharedInterests,
    hr.startedAt, hr.expiresAt, Option.map_some, Option.getD_some]

/-! ## What is read -/

/-- `MatchState` as Go has it: without a connection its id is the empty string. -/
structure PlainMatch where
  id : MatchID
  userA : UserID
  userB : UserID
  intent : String
  connectionID : String
  sharedInterests : List String
  state : String
  startedAt : UnixMilli
  expiresAt : UnixMilli
deriving DecidableEq, Repr

def MatchState.plain (m : MatchState) : PlainMatch where
  id := m.id
  userA := m.userA
  userB := m.userB
  intent := m.intent
  connectionID := m.connectionID.getD ""
  sharedInterests := m.sharedInterests
  state := (m.state.map MatchStatus.text).getD ""
  startedAt := m.startedAt
  expiresAt := m.expiresAt

/-- CurrentMatch after its HGETALL. -/
def Texts.currentMatch (id : MatchID) (t : Texts) : Except DecodeError (Option PlainMatch) :=
  if t.a = "" ∨ t.b = "" then .ok none
  else
    match JsonText.readStrings t.sharedInterests with
    | none => .error .sharedInterests
    | some shared =>
      .ok <| some
        { id, userA := t.a, userB := t.b, intent := t.intent, connectionID := t.connectionID
          sharedInterests := shared, state := t.state
          -- an error of ParseInt is ignored
          startedAt := Decimal.clamped t.startedAt
          expiresAt := Decimal.clamped t.expiresAt }

section
variable {s : Store} {m : MatchID} {h : MatchHash}

/-- An instant that is missing reads as 0. -/
theorem clamped_getD {t : Option UnixMilli} (ht : ∀ n, t = some n → IsInt64 n) :
    Decimal.clamped ((t.map Decimal.formatInt).getD []) = t.getD 0 := by
  cases t with
  | none => rfl
  | some n => exact Decimal.clamped_formatInt (ht n rfl)

/-- The model's read of a hash is the read of its texts. -/
theorem currentMatch_texts (hh : s.matches_.get m = some h) (ha : h.a ≠ some "")
    (hb : h.b ≠ some "") (hstart : ∀ n, h.startedAt = some n → IsInt64 n)
    (hend : ∀ n, h.expiresAt = some n → IsInt64 n) :
    h.texts.currentMatch m = (s.matchState m).map (Option.map MatchState.plain) := by
  have hS := clamped_getD hstart
  have hE := clamped_getD hend
  unfold Store.matchState
  simp only [hget_of_some hh]
  -- CurrentMatch needs both participants, and then the list
  cases ha' : h.a with
  | none => simp [Texts.currentMatch, MatchHash.texts, ha', Except.map]
  | some a =>
      cases hb' : h.b with
      | none => simp [Texts.currentMatch, MatchHash.texts, hb', Except.map]
      | some b =>
          have hids : ¬ (h.texts.a = "" ∨ h.texts.b = "") := by
            rintro (e | e)
            · exact ha (by simpa [MatchHash.texts, ha'] using e)
            · exact hb (by simpa [MatchHash.texts, hb'] using e)
          unfold Texts.currentMatch
          rw [if_neg hids]
          cases hs' : h.sharedInterests with
          | none =>
              have hread : JsonText.readStrings h.texts.sharedInterests = none := by
                simp only [MatchHash.texts, hs']
                rfl
              rw [hread]
              rfl
          | some l =>
              have hread : JsonText.readStrings h.texts.sharedInterests = some l := by
                simp only [MatchHash.texts, hs']
                exact JsonText.readStrings_print l
              rw [hread]
              simp only [MatchHash.texts, ha', hb', hS, hE]
              rfl

/-- Whatever was written into it since, a hash reads back as its claim. -/
theorem currentMatch_of_records {k : Claim} (hh : s.matches_.get k.matchID = some h)
    (hr : h.Records k) (hstart : IsInt64 k.now) (hend : IsInt64 (k.now + encounterLength)) :
    ∃ found : Option MatchState,
      h.texts.currentMatch k.matchID = .ok (found.map MatchState.plain) ∧
      (found = none ↔ k.userA = "" ∨ k.userB = "") ∧ ∀ st ∈ found, st.Records k := by
  by_cases hids : k.userA = "" ∨ k.userB = ""
  · refine ⟨none, ?_, iff_of_true rfl hids, fun _ e => nomatch e⟩
    rw [texts_of_records hr]
    exact if_pos hids
  · obtain ⟨st, hst, hrec⟩ := matchState_of_records hh hr
    rw [not_or] at hids
    have hread := currentMatch_texts hh (by simpa [hr.a] using hids.1)
      (by simpa [hr.b] using hids.2) (fun n hn => ?_) (fun n hn => ?_)
    · refine ⟨some st, ?_, iff_of_false (Option.some_ne_none st) (not_or.mpr hids), ?_⟩
      · rw [hread, hst]
        rfl
      · rintro _ ⟨⟩
        exact hrec
    · rw [hr.startedAt] at hn
      cases hn
      exact hstart
    · rw [hr.expiresAt] at hn
      cases hn
      exact hend

end

end OneMinute.Discovery
