/-
  OneMinute.Discovery.Frames

  `decode`, which validates a client's frame, and what the peer reads of it.

  The payload of a signaling frame is decoded into a struct, the struct is
  checked, and the payload itself is forwarded.  The struct's fields are found
  without regard to case and null leaves a string as it is; the peer looks
  keys up exactly.  So what is checked is what the peer reads exactly if no
  other spelling stands in for a field (`peer_reads_iff`).  The sibling
  `queue.join` forwards what it has checked instead.

  A frame is given by its size and the document that its text is; other texts
  are refused.
-/

import OneMinute.Communication.Tables
import OneMinute.Lib.Json

namespace OneMinute.Discovery.Wire

open Communication (trimSpace)
open Json (lookup field known readField Overridden)

/-! ## Structs -/

structure Envelope where
  version : Int
  type : String
  requestID : String
  matchID : MatchID
  payload : Option Json

def maxFrameBytes : Nat := 64 * 1024

/-- `strict`: an object whose keys all name fields. -/
def strict {α : Type} (fields : List String) (read : List (String × Json) → Option α) :
    Json → Option α
  | .object members => if known fields members then read members else none
  | _ => none

def envelopeFields : List String := ["version", "type", "requestId", "matchId", "payload"]

def readEnvelope (members : List (String × Json)) : Option Envelope := do
  let version ← readField envelopeFields "version" Json.setInt 0 members
  let type ← readField envelopeFields "type" Json.setString "" members
  let requestID ← readField envelopeFields "requestId" Json.setString "" members
  let matchID ← readField envelopeFields "matchId" Json.setString "" members
  let payload ← readField envelopeFields "payload" Json.setRaw none members
  return ⟨version, type, requestID, matchID, payload⟩

def preferenceFields : List String := ["intent", "languages", "interests"]

def readPreferences (members : List (String × Json)) : Option Preferences := do
  let intent ← readField preferenceFields "intent" Json.setString "" members
  let languages ← readField preferenceFields "languages" Json.setStrings ⟨[], 0⟩ members
  let interests ← readField preferenceFields "interests" Json.setStrings ⟨[], 0⟩ members
  return ⟨intent, languages.toList, interests.toList⟩

/-- The payload of an offer or an answer. -/
structure Session where
  type : String
  sdp : String

def sessionFields : List String := ["type", "sdp"]

def readSession (members : List (String × Json)) : Option Session := do
  let type ← readField sessionFields "type" Json.setString "" members
  let sdp ← readField sessionFields "sdp" Json.setString "" members
  return ⟨type, sdp⟩

structure Candidate where
  candidate : String
  sdpMid : Option String
  sdpMLineIndex : Option Nat
  usernameFragment : Option String

def candidateFields : List String :=
  ["candidate", "sdpMid", "sdpMLineIndex", "usernameFragment"]

def readCandidate (members : List (String × Json)) : Option Candidate := do
  let candidate ← readField candidateFields "candidate" Json.setString "" members
  let sdpMid ← readField candidateFields "sdpMid" Json.setStringPointer none members
  let sdpMLineIndex ←
    readField candidateFields "sdpMLineIndex" Json.setUint16Pointer none members
  let usernameFragment ←
    readField candidateFields "usernameFragment" Json.setStringPointer none members
  return ⟨candidate, sdpMid, sdpMLineIndex, usernameFragment⟩

/-! ## Preferences -/

def allowedIntents : List String :=
  ["surprise_me", "new_friends", "dating", "gaming", "language_exchange", "tech_ideas",
    "professional_networking"]

def allowedInterests : List String :=
  ["ai", "art", "books", "films", "fitness", "gaming", "music", "nature", "photography",
    "science", "technology", "travel"]

/-- `unicode.ToLower`, as far as it reaches ASCII, of which the tables are. -/
def lowerRune (c : Char) : Char :=
  if c = Char.ofNat 0x130 then 'i'
  else if c = Char.ofNat 0x212a then 'k'
  else c.toLower

def toLower (s : String) : String := String.ofList (s.toList.map lowerRune)

/-- `languagePattern`: two or three small letters, and maybe a region. -/
def isLanguage (s : String) : Bool :=
  let small := s.toList.takeWhile Char.isLower
  let rest := s.toList.dropWhile Char.isLower
  (small.length = 2 || small.length = 3) &&
    (rest.isEmpty || (rest.head? = some '-' && rest.tail.length = 2 && rest.tail.all Char.isUpper))

theorem isLower_iff (c : Char) : c.isLower = true ↔ 0x61 ≤ c.toNat ∧ c.toNat ≤ 0x7a := by
  have hdef : c.isLower = (decide (0x61 ≤ c.val) && decide (c.val ≤ 0x7a)) := rfl
  rw [hdef, Bool.and_eq_true, decide_eq_true_eq, decide_eq_true_eq, UInt32.le_iff_toNat_le,
    UInt32.le_iff_toNat_le]
  rfl

theorem isUpper_iff (c : Char) : c.isUpper = true ↔ 0x41 ≤ c.toNat ∧ c.toNat ≤ 0x5a := by
  have hdef : c.isUpper = decide (0x41 ≤ c.val ∧ c.val ≤ 0x5a) := rfl
  rw [hdef, decide_eq_true_eq, UInt32.le_iff_toNat_le, UInt32.le_iff_toNat_le]
  rfl

/-- `unique`: the normalized items once each, in order; none if one is refused. -/
def unique (values : List String) (normalize : String → String × Bool) :
    Option (List String) :=
  if values.all fun v => (normalize v).2 then
    some ((values.map fun v => (normalize v).1).dedup.insertionSort (· ≤ ·))
  else none

def normalizePreferences (value : Preferences) : Except String Preferences :=
  let intent := trimSpace (toLower value.intent)
  if ¬ allowedIntents.contains intent ∨ value.languages.length = 0 ∨ 5 < value.languages.length
      ∨ 12 < value.interests.length then .error "invalid preferences"
  else
    match unique value.languages fun item => (trimSpace item, isLanguage (trimSpace item)) with
    | none => .error "invalid languages"
    | some languages =>
      match unique value.interests fun item =>
          (trimSpace (toLower item), allowedInterests.contains (trimSpace (toLower item))) with
      | none => .error "invalid interests"
      | some interests => .ok ⟨intent, languages, interests⟩

/-- `json.Marshal` of preferences. -/
def preferencesDocument (p : Preferences) : Json :=
  .object [("intent", .string p.intent), ("languages", .array (p.languages.map .string)),
    ("interests", .array (p.interests.map .string))]

/-! ## decode -/

/-- `strings.TrimPrefix`. -/
def trimPrefix (s head : String) : String :=
  if head.toList.isPrefixOf s.toList then String.ofList (s.toList.drop head.length) else s

def emptyTypes : List String :=
  ["queue.leave", "presence.heartbeat", "match.leave", "match.skip", "match.extend",
    "match.connect"]

/-- The check of an offer or an answer. -/
def Session.Valid (s : Session) (type : String) : Prop :=
  s.type = trimPrefix type "webrtc." ∧ s.sdp.utf8ByteSize ≠ 0 ∧ s.sdp.utf8ByteSize ≤ 60000

instance (s : Session) (type : String) : Decidable (s.Valid type) :=
  inferInstanceAs (Decidable (_ ∧ _ ∧ _))

/-- The check of a candidate. -/
def Candidate.Valid (c : Candidate) : Prop :=
  c.candidate.utf8ByteSize ≤ 4096 ∧ (∀ s ∈ c.sdpMid, s.utf8ByteSize ≤ 256) ∧
    ∀ s ∈ c.usernameFragment, s.utf8ByteSize ≤ 256

instance (c : Candidate) : Decidable c.Valid := inferInstanceAs (Decidable (_ ∧ _ ∧ _))

/-- The branch of an envelope's type. -/
def checkPayload (envelope : Envelope) : Except String Envelope :=
  if envelope.type = "queue.join" then
    match envelope.payload.bind (strict preferenceFields readPreferences) with
    | none => .error "invalid preferences"
    | some preferences =>
      (normalizePreferences preferences).map fun normalized =>
        { envelope with payload := some (preferencesDocument normalized) }
  else if emptyTypes.contains envelope.type then
    if (envelope.payload.bind (strict [] fun _ => some ())).isSome then .ok envelope
    else .error "invalid empty payload"
  else if envelope.type = "webrtc.offer" ∨ envelope.type = "webrtc.answer" then
    match envelope.payload.bind (strict sessionFields readSession) with
    | none => .error "invalid SDP"
    | some session =>
      if session.Valid envelope.type then .ok envelope else .error "invalid SDP"
  else if envelope.type = "webrtc.ice" then
    match envelope.payload.bind (strict candidateFields readCandidate) with
    | none => .error "invalid ICE candidate"
    | some candidate =>
      if candidate.Valid then .ok envelope else .error "invalid ICE candidate"
  else .error "unknown event type"

def decode (size : Nat) (document : Json) : Except String Envelope :=
  match strict envelopeFields readEnvelope document with
  | none => .error "invalid envelope"
  | some envelope =>
    if maxFrameBytes < size ∨ envelope.version ≠ 1 ∨ 128 < envelope.requestID.utf8ByteSize then
      .error "invalid envelope"
    else checkPayload envelope

/-! ## What the peer reads -/

/-- A member that `omitempty` leaves out. -/
def member (key value : String) : List (String × Json) :=
  if value = "" then [] else [(key, .string value)]

/-- `json.Marshal` of the envelope, which is published to the peer. -/
def Envelope.marshal (e : Envelope) : Json :=
  .object ([("version", .int e.version), ("type", .string e.type)]
    ++ member "requestId" e.requestID ++ member "matchId" e.matchID
    ++ [("payload", e.payload.getD .null)])

/-- `payload` of a frame that the peer parses. -/
def payloadOf : Json → Option (List (String × Json))
  | .object members =>
    match lookup members "payload" with
    | some (.object payload) => some payload
    | _ => none
  | _ => none

/-- A string that meets the bound. -/
def Text (bound : String → Prop) (v : Json) : Prop := ∃ s, v = .string s ∧ bound s

/-- `type` is the envelope's suffix and `sdp` a string of 1 to 60000 bytes. -/
def SessionRead (type : String) (payload : List (String × Json)) : Prop :=
  (∃ v, lookup payload "type" = some v ∧ Text (· = trimPrefix type "webrtc.") v) ∧
    ∃ v, lookup payload "sdp" = some v ∧
      Text (fun s => s.utf8ByteSize ≠ 0 ∧ s.utf8ByteSize ≤ 60000) v

/-- `candidate`, when present, is a string of at most 4096 bytes; `sdpMid` and
    `usernameFragment` are absent, null or strings of at most 256 bytes. -/
def CandidateRead (payload : List (String × Json)) : Prop :=
  (∀ v, lookup payload "candidate" = some v → Text (·.utf8ByteSize ≤ 4096) v) ∧
    (∀ v, lookup payload "sdpMid" = some v → v = .null ∨ Text (·.utf8ByteSize ≤ 256) v) ∧
    ∀ v, lookup payload "usernameFragment" = some v →
      v = .null ∨ Text (·.utf8ByteSize ≤ 256) v

/-- What the peer reads of the published envelope is what was validated. -/
def PeerReads (e : Envelope) : Prop :=
  ∃ payload, payloadOf e.marshal = some payload ∧
    if e.type = "webrtc.ice" then CandidateRead payload else SessionRead e.type payload

/-! ## When they agree -/

/-- The last exact spelling of a string is not null, and when a value in another
    spelling follows it, it meets the bound itself. -/
def Stands (fields : List String) (name : String) (bound : String → Prop)
    (payload : List (String × Json)) (v : Json) : Prop :=
  v ≠ .null ∧ (Overridden fields name (fun w => !w.isNull) payload → Text bound v)

/-- The last exact spelling of a pointer is null, or not overridden, or meets the
    bound itself. -/
def PointerStands (fields : List String) (name : String) (bound : String → Prop)
    (payload : List (String × Json)) (v : Json) : Prop :=
  v = .null ∨ (Overridden fields name (fun _ => true) payload → Text bound v)

/-- No other spelling stands in for a field of the payload. -/
def SpelledOut (e : Envelope) : Prop :=
  ∃ payload, e.payload = some (.object payload) ∧
    if e.type = "webrtc.ice" then
      (∀ v, lookup payload "candidate" = some v →
          Stands candidateFields "candidate" (·.utf8ByteSize ≤ 4096) payload v) ∧
        (∀ v, lookup payload "sdpMid" = some v →
          PointerStands candidateFields "sdpMid" (·.utf8ByteSize ≤ 256) payload v) ∧
        ∀ v, lookup payload "usernameFragment" = some v →
          PointerStands candidateFields "usernameFragment" (·.utf8ByteSize ≤ 256) payload v
    else
      (∃ v, lookup payload "type" = some v ∧
          Stands sessionFields "type" (· = trimPrefix e.type "webrtc.") payload v) ∧
        ∃ v, lookup payload "sdp" = some v ∧
          Stands sessionFields "sdp" (fun s => s.utf8ByteSize ≠ 0 ∧ s.utf8ByteSize ≤ 60000)
            payload v

section
variable {fields : List String} {name : String} {bound : String → Prop}
  {payload : List (String × Json)} {v : Json}

/-- What `lookup` finds is among the members, under the field's own name. -/
theorem mem_of_lookup (h : lookup payload name = some v) : (name, v) ∈ payload := by
  obtain ⟨pre, post, rfl, _⟩ := Json.lookup_eq_some.mp h
  exact List.mem_append_right _ List.mem_cons_self

theorem string_of_set {old new : String} (h : Json.setString v old = some new)
    (hv : v ≠ .null) : ∃ s, v = .string s := by
  cases v with
  | null => exact absurd rfl hv
  | string s => exact ⟨s, rfl⟩
  | bool b => cases h
  | int n => cases h
  | decimal literal => cases h
  | array items => cases h
  | object members => cases h

theorem string_of_setPointer {old new : Option String}
    (h : Json.setStringPointer v old = some new) (hv : v ≠ .null) : ∃ s, v = .string s := by
  cases v with
  | null => exact absurd rfl hv
  | string s => exact ⟨s, rfl⟩
  | bool b => cases h
  | int n => cases h
  | decimal literal => cases h
  | array items => cases h
  | object members => cases h

/-- A string field that was checked: the exact key meets the bound as well,
    exactly if it stands. -/
theorem text_iff_stands {t : String} (hname : name ∈ fields)
    (hlookup : lookup payload name = some v)
    (hread : readField fields name Json.setString "" payload = some t) (hbound : bound t) :
    Text bound v ↔ Stands fields name bound payload v := by
  constructor
  · rintro ⟨s, rfl, hs⟩
    exact ⟨by simp, fun _ => ⟨s, rfl, hs⟩⟩
  · rintro ⟨hv, hover⟩
    by_cases ho : Overridden fields name (fun w => !w.isNull) payload
    · exact hover ho
    · obtain ⟨old, new, hset⟩ :=
        Json.set_of_readField hread (mem_of_lookup hlookup) (Json.field_self hname)
      obtain ⟨s, rfl⟩ := string_of_set hset hv
      have ht : t = s := by
        refine Json.readField_of_lookup hname hlookup (fun _ => rfl) ?_ ho hread
        intro w hw old
        cases w with
        | null => rfl
        | bool b | int n | decimal literal | string s | array items | object members => cases hw
      exact ⟨s, rfl, ht ▸ hbound⟩

theorem pointer_iff_stands {t : Option String} (hname : name ∈ fields)
    (hlookup : lookup payload name = some v)
    (hread : readField fields name Json.setStringPointer none payload = some t)
    (hbound : ∀ s ∈ t, bound s) :
    (v = .null ∨ Text bound v) ↔ PointerStands fields name bound payload v := by
  refine or_congr_right' fun hv => ⟨fun h _ => h, fun hover => ?_⟩
  by_cases ho : Overridden fields name (fun _ => true) payload
  · exact hover ho
  · obtain ⟨old, new, hset⟩ :=
      Json.set_of_readField hread (mem_of_lookup hlookup) (Json.field_self hname)
    obtain ⟨s, rfl⟩ := string_of_setPointer hset hv
    have ht : t = some s :=
      Json.readField_of_lookup hname hlookup (fun _ => rfl) (fun w hw => by cases hw) ho hread
    exact ⟨s, rfl, hbound s ht⟩

end

/-! ## Accepted frames -/

section
variable {size : Nat} {document : Json} {e : Envelope}

theorem strict_eq_some {α : Type} {fields : List String}
    {read : List (String × Json) → Option α} {v : Json} {a : α}
    (h : strict fields read v = some a) :
    ∃ members, v = .object members ∧ read members = some a := by
  cases v with
  | object members =>
      obtain ⟨_, hread⟩ := Option.ite_none_right_eq_some.mp h
      exact ⟨members, rfl, hread⟩
  | null | bool b | int n | decimal literal | string s | array items => cases h

theorem checkPayload_of_decode (h : decode size document = .ok e) :
    ∃ received, checkPayload received = .ok e := by
  unfold decode at h
  split at h
  · cases h
  · next received _ =>
      split at h
      · cases h
      · exact ⟨received, h⟩

/-- What an accepted payload passed; only preferences are replaced. -/
theorem checkPayload_eq_ok {received : Envelope} (h : checkPayload received = .ok e) :
    (received.type = "queue.join" ∧ e.type = received.type) ∨
      (emptyTypes.contains received.type = true ∧ e = received) ∨
      ((received.type = "webrtc.offer" ∨ received.type = "webrtc.answer") ∧ e = received ∧
        ∃ session, received.payload.bind (strict sessionFields readSession) = some session ∧
          session.Valid received.type) ∨
      (received.type = "webrtc.ice" ∧ e = received ∧
        ∃ candidate, received.payload.bind (strict candidateFields readCandidate) = some candidate ∧
          candidate.Valid) := by
  unfold checkPayload at h
  split at h
  · next hjoin =>
      split at h
      · cases h
      · next preferences _ =>
          cases hn : normalizePreferences preferences with
          | error text =>
              rw [hn] at h
              cases h
          | ok normalized =>
              rw [hn] at h
              cases h
              exact Or.inl ⟨hjoin, rfl⟩
  · split at h
    · next hempty =>
        split at h
        · cases h
          exact Or.inr (Or.inl ⟨hempty, rfl⟩)
        · cases h
    · split at h
      · next htype =>
          split at h
          · cases h
          · next session hsession =>
              split at h
              · next hvalid =>
                  cases h
                  exact Or.inr (Or.inr (Or.inl ⟨htype, rfl, session, hsession, hvalid⟩))
              · cases h
      · split at h
        · next htype =>
            split at h
            · cases h
            · next candidate hcandidate =>
                split at h
                · next hvalid =>
                    cases h
                    exact Or.inr (Or.inr (Or.inr ⟨htype, rfl, candidate, hcandidate, hvalid⟩))
                · cases h
        · cases h

theorem payload_of_bind {α : Type} {fields : List String}
    {read : List (String × Json) → Option α} {payload : Option Json} {a : α}
    (h : payload.bind (strict fields read) = some a) :
    ∃ members, payload = some (.object members) ∧ read members = some a := by
  obtain ⟨v, hv, hstrict⟩ := Option.bind_eq_some_iff.mp h
  obtain ⟨members, rfl, hread⟩ := strict_eq_some hstrict
  exact ⟨members, hv, hread⟩

/-- An accepted offer or answer passed the check of its struct. -/
theorem session_of_decode (h : decode size document = .ok e)
    (htype : e.type = "webrtc.offer" ∨ e.type = "webrtc.answer") :
    ∃ payload session, e.payload = some (.object payload) ∧
      readSession payload = some session ∧ session.Valid e.type := by
  obtain ⟨received, h⟩ := checkPayload_of_decode h
  rcases checkPayload_eq_ok h with ⟨hjoin, he⟩ | ⟨hempty, rfl⟩ | ⟨_, rfl, session, hs, hvalid⟩ |
    ⟨hice, rfl, _⟩
  · rw [he, hjoin] at htype
    exact absurd htype (by decide)
  · rcases htype with htype | htype <;> rw [htype] at hempty <;>
      exact absurd hempty (by decide)
  · obtain ⟨payload, hpayload, hread⟩ := payload_of_bind hs
    exact ⟨payload, session, hpayload, hread, hvalid⟩
  · rw [hice] at htype
    exact absurd htype (by decide)

/-- An accepted candidate passed the check of its struct. -/
theorem candidate_of_decode (h : decode size document = .ok e) (htype : e.type = "webrtc.ice") :
    ∃ payload candidate, e.payload = some (.object payload) ∧
      readCandidate payload = some candidate ∧ candidate.Valid := by
  obtain ⟨received, h⟩ := checkPayload_of_decode h
  rcases checkPayload_eq_ok h with ⟨hjoin, he⟩ | ⟨hempty, rfl⟩ | ⟨hsession, rfl, _⟩ |
    ⟨_, rfl, candidate, hc, hvalid⟩
  · rw [he, hjoin] at htype
    exact absurd htype (by decide)
  · rw [htype] at hempty
    exact absurd hempty (by decide)
  · rw [htype] at hsession
    exact absurd hsession (by decide)
  · obtain ⟨payload, hpayload, hread⟩ := payload_of_bind hc
    exact ⟨payload, candidate, hpayload, hread, hvalid⟩

/-- The peer finds the payload where the envelope has it. -/
theorem payloadOf_marshal {payload : List (String × Json)}
    (h : e.payload = some (.object payload)) :
    payloadOf e.marshal = some payload := by
  have hlookup : ∀ pre : List (String × Json),
      lookup (pre ++ [("payload", Json.object payload)]) "payload" = some (.object payload) :=
    fun pre => Json.lookup_eq_some.mpr ⟨pre, [], rfl, fun m hm => (List.not_mem_nil hm).elim⟩
  unfold payloadOf Envelope.marshal
  simp only [h, Option.getD_some, hlookup]

theorem session_iff {payload : List (String × Json)} {session : Session} {type : String}
    (hread : readSession payload = some session) (hvalid : session.Valid type) :
    SessionRead type payload ↔
      (∃ v, lookup payload "type" = some v ∧
          Stands sessionFields "type" (· = trimPrefix type "webrtc.") payload v) ∧
        ∃ v, lookup payload "sdp" = some v ∧
          Stands sessionFields "sdp" (fun s => s.utf8ByteSize ≠ 0 ∧ s.utf8ByteSize ≤ 60000)
            payload v := by
  obtain ⟨t, ht, hread⟩ := Option.bind_eq_some_iff.mp hread
  obtain ⟨sdp, hsdp, hread⟩ := Option.bind_eq_some_iff.mp hread
  obtain rfl := Option.some.inj hread
  refine and_congr ?_ ?_
  · refine exists_congr fun v => and_congr_right fun hv => ?_
    exact text_iff_stands (by decide) hv ht hvalid.1
  · refine exists_congr fun v => and_congr_right fun hv => ?_
    exact text_iff_stands (by decide) hv hsdp hvalid.2

theorem candidate_iff {payload : List (String × Json)} {candidate : Candidate}
    (hread : readCandidate payload = some candidate) (hvalid : candidate.Valid) :
    CandidateRead payload ↔
      (∀ v, lookup payload "candidate" = some v →
          Stands candidateFields "candidate" (·.utf8ByteSize ≤ 4096) payload v) ∧
        (∀ v, lookup payload "sdpMid" = some v →
          PointerStands candidateFields "sdpMid" (·.utf8ByteSize ≤ 256) payload v) ∧
        ∀ v, lookup payload "usernameFragment" = some v →
          PointerStands candidateFields "usernameFragment" (·.utf8ByteSize ≤ 256) payload v := by
  obtain ⟨text, htext, hread⟩ := Option.bind_eq_some_iff.mp hread
  obtain ⟨mid, hmid, hread⟩ := Option.bind_eq_some_iff.mp hread
  obtain ⟨line, _, hread⟩ := Option.bind_eq_some_iff.mp hread
  obtain ⟨fragment, hfragment, hread⟩ := Option.bind_eq_some_iff.mp hread
  obtain rfl := Option.some.inj hread
  refine and_congr ?_ (and_congr ?_ ?_)
  · refine forall_congr' fun v => imp_congr_right fun hv => ?_
    exact text_iff_stands (by decide) hv htext hvalid.1
  · refine forall_congr' fun v => imp_congr_right fun hv => ?_
    exact pointer_iff_stands (by decide) hv hmid hvalid.2.1
  · refine forall_congr' fun v => imp_congr_right fun hv => ?_
    exact pointer_iff_stands (by decide) hv hfragment hvalid.2.2

end

/-- Of an accepted signaling frame, the peer reads what was validated exactly if
    every field is spelled out. -/
theorem peer_reads_iff {size : Nat} {document : Json} {e : Envelope}
    (h : decode size document = .ok e)
    (htype : e.type = "webrtc.offer" ∨ e.type = "webrtc.answer" ∨ e.type = "webrtc.ice") :
    PeerReads e ↔ SpelledOut e := by
  rw [← or_assoc] at htype
  unfold PeerReads SpelledOut
  rcases htype with hsession | hice
  · obtain ⟨payload, session, hpayload, hread, hvalid⟩ := session_of_decode h hsession
    have hnot : e.type ≠ "webrtc.ice" := by
      rcases hsession with ht | ht <;> rw [ht] <;> decide
    simp only [if_neg hnot, payloadOf_marshal hpayload, hpayload, Option.some.injEq,
      Json.object.injEq, exists_eq_left']
    exact session_iff hread hvalid
  · obtain ⟨payload, candidate, hpayload, hread, hvalid⟩ := candidate_of_decode h hice
    simp only [if_pos hice, payloadOf_marshal hpayload, hpayload, Option.some.injEq,
      Json.object.injEq, exists_eq_left']
    exact candidate_iff hread hvalid

/-- An offer with the members `payload`. -/
def offerFrame (payload : List (String × Json)) : Json :=
  .object [("version", .int 1), ("type", .string "webrtc.offer"), ("matchId", .string "m1"),
    ("payload", .object payload)]

def offerEnvelope (payload : List (String × Json)) : Envelope :=
  ⟨1, "webrtc.offer", "", "m1", some (.object payload)⟩

/-- An offer as the client sends it. -/
theorem peer_reads_iff_offer :
    ∃ e, decode 90 (offerFrame [("type", .string "offer"), ("sdp", .string "v=0")]) = .ok e ∧
      PeerReads e := by
  have hdecode : decode 90 (offerFrame [("type", .string "offer"), ("sdp", .string "v=0")]) =
      .ok (offerEnvelope [("type", .string "offer"), ("sdp", .string "v=0")]) := rfl
  refine ⟨_, hdecode, (peer_reads_iff hdecode (Or.inl rfl)).mpr ⟨_, rfl, ?_⟩⟩
  rw [if_neg (by decide)]
  constructor
  · exact ⟨.string "offer", rfl, by simp, fun _ => ⟨"offer", rfl, rfl⟩⟩
  · exact ⟨.string "v=0", rfl, by simp, fun _ => ⟨"v=0", rfl, by decide⟩⟩

/-- In other case the description is validated, and the peer finds none. -/
theorem not_peer_reads_otherCase :
    ∃ e, decode 90 (offerFrame [("type", .string "offer"), ("SDP", .string "v=0")]) = .ok e ∧
      e.type = "webrtc.offer" ∧ ¬ PeerReads e := by
  refine ⟨offerEnvelope [("type", .string "offer"), ("SDP", .string "v=0")], rfl, rfl, ?_⟩
  rintro ⟨payload, hpayload, hread⟩
  obtain rfl := Option.some.inj hpayload
  rw [if_neg (by decide)] at hread
  obtain ⟨_, v, hv, _⟩ := hread
  cases hv

end OneMinute.Discovery.Wire
