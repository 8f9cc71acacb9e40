/-
  OneMinute.Signaling.Forwarding

  Frames as texts: the lab's `Decode` and discovery's `decode` on the bytes that
  are received, and the envelope that is marshalled again for the peer.

  The envelope is accepted with the same contents (`strict_marshal`), since
  neither quoting nor the escaping of HTML changes what is read.  But its size is
  another one: space goes, and `<`, `>` and `&` take six bytes each.  The bound is
  checked on what was received, so a frame is forwarded within the protocol
  exactly if it still fits when it is written again (`forwarded_iff`).
-/

import OneMinute.Discovery.Frames
import OneMinute.Lib.JsonText

namespace OneMinute.Signaling

open Json (field readField)
open JsonText (Syntax Element parse print value unquote quote escape charLength growthOf)
open Discovery.Wire (Envelope strict envelopeFields readEnvelope sessionFields readSession
  candidateFields readCandidate maxFrameBytes)

/-! ## Decode -/

/-- A JSON error, or one of the texts of `Decode`. -/
inductive Refusal where
  | json
  | text (s : String)
deriving DecidableEq, Repr

def isRoomRune (c : Char) : Bool := ('a' ≤ c && c ≤ 'f') || ('0' ≤ c && c ≤ '9')

/-- `ValidRoom`: 32 small hexadecimal digits. -/
def ValidRoom (id : String) : Prop := id.toList.length = 32 ∧ id.toList.all isRoomRune = true

instance (id : String) : Decidable (ValidRoom id) := inferInstanceAs (Decidable (_ ∧ _))

def roomFields : List String := ["roomId"]

def readRoom (members : List (String × Json)) : Option String :=
  readField roomFields "roomId" Json.setString "" members

/-- The branch of an envelope's type. -/
def checkPayload (e : Envelope) : Except Refusal Envelope :=
  if e.type = "room.join" then
    match e.payload.bind (strict roomFields readRoom) with
    | none => .error (.text "invalid room")
    | some room => if ValidRoom room then .ok e else .error (.text "invalid room")
  else if e.type = "webrtc.offer" ∨ e.type = "webrtc.answer" then
    match e.payload.bind (strict sessionFields readSession) with
    | none => .error (.text "invalid SDP")
    | some session =>
      -- `e.Type[7:]` is the type without `webrtc.`
      if session.Valid e.type then .ok e else .error (.text "invalid SDP")
  else if e.type = "webrtc.ice" then
    match e.payload.bind (strict candidateFields readCandidate) with
    | none => .error (.text "invalid candidate")
    | some candidate =>
      if candidate.Valid then .ok e else .error (.text "invalid candidate")
  else if e.type = "presence.heartbeat" ∨ e.type = "match.leave" then
    if (e.payload.bind (strict [] fun _ => some ())).isSome then .ok e else .error .json
  else .error (.text "unknown event type")

def decodeEnvelope (document : Json) : Except Refusal Envelope :=
  match strict envelopeFields readEnvelope document with
  | none => .error .json
  | some e =>
    if e.version ≠ 1 ∨ 128 < e.requestID.utf8ByteSize ∨ (e.matchID ≠ "" ∧ ¬ ValidRoom e.matchID)
    then .error (.text "invalid envelope")
    else checkPayload e

/-! ## Frames -/

/-- An envelope, and its payload as it was received. -/
structure Frame where
  envelope : Envelope
  raw : Option Syntax

/-- `json.RawMessage`: the last member that names the field. -/
def rawPayload : Syntax → Option Syntax
  | .object members =>
    (members.reverse.find? fun m =>
      decide (field envelopeFields (unquote m.1) = some "payload")).map Prod.snd
  | _ => none

/-- The lab's decoder. -/
def Decode (data : List UInt8) : Except Refusal Frame :=
  if maxFrameBytes < data.length then .error (.text "message too large")
  else
    match parse data with
    | none => .error .json
    | some t => (decodeEnvelope (value t)).map fun e => ⟨e, rawPayload t⟩

/-- Discovery's decoder. -/
def decode (data : List UInt8) : Except String Frame :=
  match parse data with
  | none => .error "invalid envelope"
  | some t => (Discovery.Wire.decode data.length (value t)).map fun e => ⟨e, rawPayload t⟩

inductive Service where
  | lab
  | discovery
deriving DecidableEq, Repr

/-- What a service accepts a text as. -/
def Service.accepts : Service → List UInt8 → Option Frame
  | .lab, data => (Decode data).toOption
  | .discovery, data => (decode data).toOption

/-! ## json.Marshal -/

/-- A member that `omitempty` leaves out. -/
def textMember (key text : String) : List (List Element × Syntax) :=
  if text = "" then [] else [(quote key, .string (quote text))]

def nullSyntax : Syntax := .literal JsonText.nullWord rfl

/-- `json.Marshal` of an envelope. -/
def Frame.marshal (f : Frame) : Syntax :=
  .object ([(quote "version", JsonText.int f.envelope.version),
      (quote "type", .string (quote f.envelope.type))]
    ++ textMember "requestId" f.envelope.requestID ++ textMember "matchId" f.envelope.matchID
    ++ [(quote "payload", (f.raw.map escape).getD nullSyntax)])

/-- What is published to the peer. -/
def Frame.published (f : Frame) : List UInt8 := print f.marshal

/-- `SetReadLimit` of rtc-probe. -/
def probeReadLimit : Nat := 64 * 1024

/-- What is published is accepted with the same contents, and the probe reads it. -/
def Forwarded (service : Service) (f : Frame) : Prop :=
  (∃ f', service.accepts f.published = some f' ∧ f'.envelope = f.envelope) ∧
    f.published.length ≤ probeReadLimit

/-! ## The size of an envelope -/

/-- A quoted string. -/
def textSize (text : String) : Nat := (text.toList.map charLength).sum + 2

/-- A member after the first one, with its comma, quotes and colon. -/
def memberSize (key text : String) : Nat :=
  if text = "" then 0 else key.utf8ByteSize + 4 + textSize text

/-- A payload without space, in which `<`, `>`, `&`, U+2028 and U+2029 take six
    bytes each. -/
def payloadSize (raw : Option Syntax) : Nat :=
  match raw with
  | none => 4
  | some t => (print t).length + growthOf t

/-- The envelope around the payload takes 32 bytes beside its strings. -/
def Frame.size (f : Frame) : Nat :=
  32 + textSize f.envelope.type + memberSize "requestId" f.envelope.requestID
    + memberSize "matchId" f.envelope.matchID + payloadSize f.raw

/-- The envelope fits when it is written again. -/
def Frame.Fits (f : Frame) : Prop := f.size ≤ maxFrameBytes

theorem length_printString_quote (text : String) :
    (JsonText.printString (quote text)).length = textSize text := by
  unfold textSize
  rw [JsonText.length_printString, JsonText.length_quote]

/-- The bytes of a member and of those after it. -/
def membersSize (members : List (List Element × Syntax)) : Nat :=
  (members.map fun m => (JsonText.printString m.1).length + (print m.2).length + 2).sum

theorem membersSize_append (a b : List (List Element × Syntax)) :
    membersSize (a ++ b) = membersSize a + membersSize b := by
  unfold membersSize
  rw [List.map_append, List.sum_append]

theorem membersSize_textMember {key text : String} (h : textSize key = key.utf8ByteSize + 2) :
    membersSize (textMember key text) = memberSize key text := by
  unfold membersSize textMember memberSize
  split
  · rfl
  · rw [List.map_singleton, List.sum_singleton, print, length_printString_quote,
      length_printString_quote, h]
    omega

theorem length_payload (raw : Option Syntax) :
    (print ((raw.map escape).getD nullSyntax)).length = payloadSize raw := by
  cases raw with
  | none => rfl
  | some t => exact JsonText.length_print_escape t

/-- The size of an envelope is the length of its text. -/
theorem length_published {f : Frame} (hversion : f.envelope.version = 1) :
    f.published.length = f.size := by
  have hkeys : textSize "version" = 9 ∧ textSize "type" = 6 ∧ textSize "payload" = 9 := by decide
  have hone : (print (JsonText.int 1)).length = 1 := rfl
  have hlength : f.published.length = membersSize
      ([(quote "version", JsonText.int f.envelope.version),
          (quote "type", .string (quote f.envelope.type))]
        ++ textMember "requestId" f.envelope.requestID ++ textMember "matchId" f.envelope.matchID
        ++ [(quote "payload", (f.raw.map escape).getD nullSyntax)]) + 1 :=
    JsonText.length_print_object.trans (JsonText.length_printMembers _)
  rw [hlength, membersSize_append, membersSize_append, membersSize_append,
    membersSize_textMember (by decide), membersSize_textMember (by decide), hversion]
  unfold membersSize Frame.size
  simp only [List.map_cons, List.map_nil, List.sum_cons, List.sum_nil, length_printString_quote,
    length_payload, print, hkeys, hone]
  omega

/-! ## What the peer reads -/

section
variable {f : Frame} {e : Envelope} {data : List UInt8}

/-- The raw payload is the payload, undecoded. -/
theorem payload_eq_raw {t : Syntax} (h : strict envelopeFields readEnvelope (value t) = some e) :
    e.payload = (rawPayload t).map value := by
  obtain ⟨members, hvalue, hread⟩ := Discovery.Wire.strict_eq_some h
  cases t with
  | object syntaxes =>
      rw [value, Json.object.injEq] at hvalue
      subst hvalue
      obtain ⟨_, _, hread⟩ := Option.bind_eq_some_iff.mp hread
      obtain ⟨_, _, hread⟩ := Option.bind_eq_some_iff.mp hread
      obtain ⟨_, _, hread⟩ := Option.bind_eq_some_iff.mp hread
      obtain ⟨_, _, hread⟩ := Option.bind_eq_some_iff.mp hread
      obtain ⟨payload, hpayload, hread⟩ := Option.bind_eq_some_iff.mp hread
      obtain rfl := Option.some.inj hread
      rw [Json.readField_setRaw, JsonText.memberValues_eq_map, ← List.map_reverse,
        List.find?_map, Option.or_none, Option.some.injEq] at hpayload
      rw [← hpayload, rawPayload, Option.map_map, Option.map_map]
      rfl
  | literal l hl =>
      rw [value] at hvalue
      exact absurd hvalue (JsonText.literalValue_ne_object l members)
  | string s | array items =>
      rw [value] at hvalue
      cases hvalue

/-- What is marshalled has the members of the envelope. -/
theorem value_marshal (hversion : f.envelope.version = 1)
    (hpayload : f.envelope.payload = f.raw.map value) :
    value f.marshal = f.envelope.marshal := by
  have htext : ∀ key text, (textMember key text).map (fun m => (unquote m.1, value m.2)) =
      Discovery.Wire.member key text := by
    intro key text
    unfold textMember Discovery.Wire.member
    split
    · rfl
    · rw [List.map_singleton, JsonText.unquote_quote, value, JsonText.unquote_quote]
  have hraw : value ((f.raw.map escape).getD nullSyntax) = f.envelope.payload.getD .null := by
    rw [hpayload]
    cases f.raw with
    | none => rfl
    | some t => exact JsonText.value_escape t
  have hone : value (JsonText.int 1) = .int 1 := rfl
  unfold Frame.marshal Envelope.marshal
  rw [value, JsonText.memberValues_eq_map]
  simp only [List.map_append, htext, List.map_cons, List.map_nil, JsonText.unquote_quote, hraw,
    hversion, hone, value]

/-- The marshalled envelope is read as the envelope. -/
theorem strict_marshal (hversion : e.version = 1) {payload : Json}
    (hpayload : e.payload = some payload) :
    strict envelopeFields readEnvelope e.marshal = some e := by
  obtain ⟨version, type, requestID, matchID, p⟩ := e
  cases hversion
  cases hpayload
  unfold Envelope.marshal Discovery.Wire.member
  by_cases hrequest : requestID = "" <;> by_cases hmatch : matchID = "" <;>
    simp only [hrequest, hmatch, if_true, if_false] <;> rfl

theorem parse_published (hraw : ∀ t ∈ f.raw, JsonText.depth t < JsonText.maxNestingDepth) :
    parse f.published = some f.marshal := by
  refine JsonText.parse_print ?_
  unfold Frame.marshal
  rw [JsonText.depth, Nat.succ_le_iff, Nat.lt_iff_le_pred (by decide), JsonText.membersDepth_le]
  have htext : ∀ key text, ∀ m ∈ textMember key text, JsonText.depth m.2 = 0 := by
    intro key text m hm
    unfold textMember at hm
    split at hm
    · cases hm
    · rw [List.mem_singleton] at hm
      rw [hm, JsonText.depth]
  intro m hm
  simp only [List.mem_append, List.mem_cons, List.not_mem_nil, or_false] at hm
  rcases hm with (((rfl | rfl) | hm) | hm) | rfl
  · exact Nat.zero_le _
  · exact Nat.zero_le _
  · rw [htext _ _ m hm]
    exact Nat.zero_le _
  · rw [htext _ _ m hm]
    exact Nat.zero_le _
  · cases hf : f.raw with
    | none => exact Nat.zero_le _
    | some t =>
        show JsonText.depth (escape t) ≤ _
        rw [JsonText.depth_escape]
        exact Nat.le_pred_of_lt (hraw t hf)

/-- What is inside a text that was parsed is less deep. -/
theorem depth_rawPayload {t : Syntax} (h : parse data = some t) :
    ∀ p ∈ rawPayload t, JsonText.depth p < JsonText.maxNestingDepth := by
  intro p hp
  have hdepth := JsonText.depth_of_parse h
  cases t with
  | object members =>
      obtain ⟨m, hfind, rfl⟩ := Option.map_eq_some_iff.mp hp
      have hmem := List.mem_reverse.mp (List.mem_of_find?_eq_some hfind)
      have hle := JsonText.membersDepth_le.mp le_rfl m hmem
      rw [JsonText.depth] at hdepth
      omega
  | literal l hl | string s | array items => cases hp

/-! ## What a service accepts -/

/-- The types that are forwarded. -/
def IsWebrtc (type : String) : Prop :=
  type = "webrtc.offer" ∨ type = "webrtc.answer" ∨ type = "webrtc.ice"

/-- The lab's check leaves an envelope as it is, and needs a payload. -/
theorem checkPayload_eq_ok {received : Envelope} (h : checkPayload received = .ok e) :
    received = e ∧ e.payload ≠ none := by
  have heq : received = e := by
    have hok := h
    unfold checkPayload at hok
    repeat' split at hok
    all_goals first | exact Except.ok.inj hok | cases hok
  subst heq
  refine ⟨rfl, fun hnone => ?_⟩
  unfold checkPayload at h
  simp only [hnone, Option.bind_none, Option.isSome_none, Bool.false_eq_true, if_false] at h
  repeat' split at h
  all_goals cases h

theorem wire_checkPayload_payload {received : Envelope}
    (h : Discovery.Wire.checkPayload received = .ok e) : received.payload ≠ none := by
  intro hnone
  unfold Discovery.Wire.checkPayload at h
  simp only [hnone, Option.bind_none, Option.isSome_none, Bool.false_eq_true, if_false] at h
  repeat' split at h
  all_goals cases h

/-- The envelope that a service reads from a text of this size. -/
def Service.reads : Service → Nat → Json → Option Envelope
  | .lab, size, document =>
    if maxFrameBytes < size then none else (decodeEnvelope document).toOption
  | .discovery, size, document => (Discovery.Wire.decode size document).toOption

theorem toOption_map_frame {ε : Type} (raw : Option Syntax) (r : Except ε Envelope) :
    (r.map fun e => (⟨e, raw⟩ : Frame)).toOption = r.toOption.map fun e => ⟨e, raw⟩ := by
  cases r <;> rfl

/-- Both decoders parse the text, check the envelope and keep the raw payload. -/
theorem accepts_eq (service : Service) (data : List UInt8) :
    service.accepts data = (parse data).bind fun t =>
      (service.reads data.length (value t)).map fun e => ⟨e, rawPayload t⟩ := by
  cases service with
  | lab =>
      show (Decode data).toOption = _
      unfold Decode Service.reads
      by_cases hsize : maxFrameBytes < data.length
      · simp only [if_pos hsize]
        cases parse data <;> rfl
      · simp only [if_neg hsize]
        cases parse data with
        | none => rfl
        | some t => exact toOption_map_frame _ _
  | discovery =>
      show (decode data).toOption = _
      unfold decode Service.reads
      cases parse data with
      | none => rfl
      | some t => exact toOption_map_frame _ _

/-- A text that is too large is not accepted. -/
theorem accepts_none (service : Service) (hsize : maxFrameBytes < data.length) :
    service.accepts data = none := by
  have hreads : ∀ document, service.reads data.length document = none := by
    intro document
    cases service with
    | lab => exact if_pos hsize
    | discovery =>
        unfold Service.reads Discovery.Wire.decode
        simp only
        split
        · rfl
        · rw [if_pos (Or.inl hsize)]
          rfl
  rw [accepts_eq]
  cases parse data with
  | none => rfl
  | some t => rw [Option.bind_some, hreads, Option.map_none]

theorem eq_ok_of_toOption {ε α : Type} {r : Except ε α} {a : α} (h : r.toOption = some a) :
    r = .ok a := by
  cases r with
  | error x => cases h
  | ok b => exact congrArg Except.ok (Option.some.inj h)

/-- The lab reads an envelope again from any document with the same contents. -/
theorem lab_reads_again {document : Json} (h : decodeEnvelope document = .ok e) :
    strict envelopeFields readEnvelope document = some e ∧ e.version = 1 ∧ e.payload ≠ none ∧
      ∀ other, strict envelopeFields readEnvelope other = some e →
        decodeEnvelope other = .ok e := by
  unfold decodeEnvelope at h
  split at h
  · cases h
  · next received hstrict =>
      split at h
      · cases h
      · next hchecks =>
          obtain ⟨rfl, hpayload⟩ := checkPayload_eq_ok h
          have hversion : received.version = 1 := not_not.mp fun hv => hchecks (Or.inl hv)
          refine ⟨hstrict, hversion, hpayload, fun other hother => ?_⟩
          unfold decodeEnvelope
          rw [hother]
          exact (if_neg hchecks).trans h

/-- So does discovery, as long as the document fits; only `queue.join` is changed. -/
theorem wire_reads_again {size : Nat} {document : Json}
    (h : Discovery.Wire.decode size document = .ok e) (hjoin : e.type ≠ "queue.join") :
    strict envelopeFields readEnvelope document = some e ∧ e.version = 1 ∧ e.payload ≠ none ∧
      ∀ otherSize other, strict envelopeFields readEnvelope other = some e →
        (Discovery.Wire.decode otherSize other).toOption =
          if otherSize ≤ maxFrameBytes then some e else none := by
  unfold Discovery.Wire.decode at h
  split at h
  · cases h
  · next received hstrict =>
      split at h
      · cases h
      · next hchecks =>
          simp only [not_or, not_lt, ne_eq, not_not] at hchecks
          have heq : e = received := by
            rcases Discovery.Wire.checkPayload_eq_ok h with ⟨hreceived, he⟩ | ⟨_, he⟩ |
              ⟨_, he, _⟩ | ⟨_, he, _⟩
            · rw [he, hreceived] at hjoin
              exact absurd rfl hjoin
            · exact he
            · exact he
            · exact he
          subst heq
          have hpayload := wire_checkPayload_payload h
          refine ⟨hstrict, hchecks.2.1, hpayload, fun otherSize other hother => ?_⟩
          unfold Discovery.Wire.decode
          simp only [hother]
          by_cases hsize : otherSize ≤ maxFrameBytes
          · have hpasses : ¬ (maxFrameBytes < otherSize ∨ e.version ≠ 1 ∨
                128 < e.requestID.utf8ByteSize) := by
              simp only [not_or, not_lt, ne_eq, not_not]
              exact ⟨hsize, hchecks.2⟩
            rw [if_neg hpasses, if_pos hsize, h]
            rfl
          · rw [if_pos (Or.inl (Nat.lt_of_not_le hsize)), if_neg hsize]
            rfl

/-- What was read once is read again from any document with the same contents,
    as long as it fits. -/
theorem reads_again {service : Service} {size : Nat} {document : Json}
    (h : service.reads size document = some e) (htype : IsWebrtc e.type) :
    strict envelopeFields readEnvelope document = some e ∧ e.version = 1 ∧ e.payload ≠ none ∧
      ∀ otherSize other, strict envelopeFields readEnvelope other = some e →
        service.reads otherSize other = if otherSize ≤ maxFrameBytes then some e else none := by
  cases service with
  | lab =>
      obtain ⟨_, h⟩ := Option.ite_none_left_eq_some.mp h
      obtain ⟨hstrict, hversion, hpayload, hagain⟩ := lab_reads_again (eq_ok_of_toOption h)
      refine ⟨hstrict, hversion, hpayload, fun otherSize other hother => ?_⟩
      simp only [Service.reads, hagain other hother, ← Nat.not_le, ite_not]
      rfl
  | discovery =>
      refine wire_reads_again (eq_ok_of_toOption h) fun hjoin => ?_
      rw [hjoin] at htype
      rcases htype with htype | htype | htype <;> exact absurd htype (by decide)

end

/-- An accepted signaling frame is forwarded within the protocol exactly if it
    fits when it is written again. -/
theorem forwarded_iff {service : Service} {data : List UInt8} {f : Frame}
    (h : service.accepts data = some f) (htype : IsWebrtc f.envelope.type) :
    Forwarded service f ↔ f.Fits := by
  rw [accepts_eq] at h
  obtain ⟨t, hparse, h⟩ := Option.bind_eq_some_iff.mp h
  obtain ⟨e, hreads, rfl⟩ := Option.map_eq_some_iff.mp h
  obtain ⟨hstrict, hversion, hpayload, hagain⟩ := reads_again hreads htype
  obtain ⟨payload, hsome⟩ := Option.ne_none_iff_exists'.mp hpayload
  have hparsed : parse (Frame.published ⟨e, rawPayload t⟩) =
      some (Frame.marshal ⟨e, rawPayload t⟩) := parse_published (depth_rawPayload hparse)
  have hread : strict envelopeFields readEnvelope (value (Frame.marshal ⟨e, rawPayload t⟩)) =
      some e := by
    rw [value_marshal hversion (payload_eq_raw hstrict)]
    exact strict_marshal hversion hsome
  have haccepts := accepts_eq service (Frame.published ⟨e, rawPayload t⟩)
  rw [hparsed, Option.bind_some, hagain _ _ hread, length_published hversion] at haccepts
  unfold Forwarded Frame.Fits
  rw [haccepts, length_published hversion]
  constructor
  · rintro ⟨_, hsize⟩
    exact hsize
  · intro hsize
    rw [if_pos hsize]
    exact ⟨⟨_, rfl, rfl⟩, hsize⟩

/-! ## Offers -/

def offerRoom : String := "0123456789abcdef0123456789abcdef"

def offerPayload (sdp : List Element) : Syntax :=
  .object [(quote "type", .string (quote "offer")), (quote "sdp", .string sdp)]

def offerFrame (sdp : List Element) : Frame :=
  ⟨⟨1, "webrtc.offer", "", offerRoom,
    some (.object [("type", .string "offer"), ("sdp", .string (unquote sdp))])⟩,
    some (offerPayload sdp)⟩

/-- An offer as a client writes it, without escaping. -/
def offerSyntax (sdp : List Element) : Syntax :=
  .object [(quote "version", JsonText.int 1), (quote "type", .string (quote "webrtc.offer")),
    (quote "matchId", .string (quote offerRoom)), (quote "payload", offerPayload sdp)]

def offerText (sdp : List Element) : List UInt8 := print (offerSyntax sdp)

section
variable {sdp : List Element}

theorem parse_offerText (sdp : List Element) : parse (offerText sdp) = some (offerSyntax sdp) := by
  refine JsonText.parse_print ?_
  simp only [offerSyntax, offerPayload, JsonText.depth, JsonText.membersDepth, JsonText.int]
  decide

theorem value_offerSyntax (sdp : List Element) :
    value (offerSyntax sdp) = (offerFrame sdp).envelope.marshal := by
  simp only [offerSyntax, offerPayload, value, JsonText.memberValues_eq_map, List.map_cons,
    List.map_nil, JsonText.unquote_quote]
  rfl

theorem rawPayload_offerSyntax (sdp : List Element) :
    rawPayload (offerSyntax sdp) = some (offerPayload sdp) := by
  have hpayload : field envelopeFields "payload" = some "payload" := rfl
  simp only [offerSyntax, rawPayload, List.reverse_cons, List.reverse_nil, List.nil_append,
    List.cons_append, List.find?_cons, JsonText.unquote_quote, hpayload, decide_true]
  rfl

theorem reads_offer (service : Service) {size : Nat} (hpos : (unquote sdp).utf8ByteSize ≠ 0)
    (hsdp : (unquote sdp).utf8ByteSize ≤ 60000) (hsize : size ≤ maxFrameBytes) :
    service.reads size (offerFrame sdp).envelope.marshal = some (offerFrame sdp).envelope := by
  have hvalid : Discovery.Wire.Session.Valid ⟨"offer", unquote sdp⟩ "webrtc.offer" :=
    ⟨rfl, hpos, hsdp⟩
  have hsession : (offerFrame sdp).envelope.payload.bind (strict sessionFields readSession) =
      some ⟨"offer", unquote sdp⟩ := rfl
  have hstrict : strict envelopeFields readEnvelope (offerFrame sdp).envelope.marshal =
      some (offerFrame sdp).envelope := strict_marshal rfl rfl
  cases service with
  | lab =>
      have hcheck : checkPayload (offerFrame sdp).envelope = .ok (offerFrame sdp).envelope := by
        unfold checkPayload
        refine (if_neg (show ¬ "webrtc.offer" = "room.join" by decide)).trans ?_
        refine (if_pos (Or.inl rfl)).trans ?_
        rw [hsession]
        exact if_pos hvalid
      have hok : decodeEnvelope (offerFrame sdp).envelope.marshal =
          .ok (offerFrame sdp).envelope := by
        unfold decodeEnvelope
        rw [hstrict]
        refine (if_neg ?_).trans hcheck
        rintro (hversion | hrequest | hmatch)
        · exact hversion rfl
        · exact absurd hrequest (show ¬ 128 < "".utf8ByteSize by decide)
        · exact hmatch.2 (show ValidRoom offerRoom by decide)
      rw [Service.reads, if_neg (Nat.not_lt.mpr hsize), hok]
      rfl
  | discovery =>
      have hcheck : Discovery.Wire.checkPayload (offerFrame sdp).envelope =
          .ok (offerFrame sdp).envelope := by
        unfold Discovery.Wire.checkPayload
        refine (if_neg (show ¬ "webrtc.offer" = "queue.join" by decide)).trans ?_
        refine (if_neg (show ¬ Discovery.Wire.emptyTypes.contains "webrtc.offer" by
          decide)).trans ?_
        refine (if_pos (Or.inl rfl)).trans ?_
        rw [hsession]
        exact if_pos hvalid
      have hok : Discovery.Wire.decode size (offerFrame sdp).envelope.marshal =
          .ok (offerFrame sdp).envelope := by
        unfold Discovery.Wire.decode
        rw [hstrict]
        refine (if_neg ?_).trans hcheck
        rintro (hlarge | hversion | hrequest)
        · exact absurd hlarge (Nat.not_lt.mpr hsize)
        · exact hversion rfl
        · exact absurd hrequest (show ¬ 128 < "".utf8ByteSize by decide)
      rw [Service.reads, hok]
      rfl

theorem accepts_offerText (service : Service) (hpos : (unquote sdp).utf8ByteSize ≠ 0)
    (hsdp : (unquote sdp).utf8ByteSize ≤ 60000) (hsize : (offerText sdp).length ≤ maxFrameBytes) :
    service.accepts (offerText sdp) = some (offerFrame sdp) := by
  rw [accepts_eq, parse_offerText, Option.bind_some, value_offerSyntax,
    reads_offer service hpos hsdp hsize, rawPayload_offerSyntax]
  rfl

theorem length_offerPayload (sdp : List Element) :
    (print (offerPayload sdp)).length = 25 + (JsonText.stringBytes sdp).length := by
  have hsizes : textSize "type" = 6 ∧ textSize "offer" = 7 ∧ textSize "sdp" = 5 := by decide
  unfold offerPayload
  rw [JsonText.length_print_object, JsonText.length_printMembers]
  simp only [List.map_cons, List.map_nil, List.sum_cons, List.sum_nil, length_printString_quote,
    print, JsonText.length_printString sdp, hsizes]
  omega

theorem length_offerText (sdp : List Element) :
    (offerText sdp).length = 116 + (JsonText.stringBytes sdp).length := by
  have hsizes : textSize "version" = 9 ∧ textSize "type" = 6 ∧ textSize "webrtc.offer" = 14 ∧
      textSize "matchId" = 9 ∧ textSize offerRoom = 34 ∧ textSize "payload" = 9 := by decide
  have hone : (print (JsonText.int 1)).length = 1 := rfl
  unfold offerText offerSyntax
  rw [JsonText.length_print_object, JsonText.length_printMembers]
  simp only [List.map_cons, List.map_nil, List.sum_cons, List.sum_nil, length_printString_quote,
    print, length_offerPayload, hsizes, hone]
  omega

/-- An offer grows as its description does. -/
theorem size_offerFrame (sdp : List Element) :
    (offerFrame sdp).size =
      116 + (JsonText.stringBytes sdp).length + JsonText.growth sdp := by
  have hsizes : textSize "webrtc.offer" = 14 ∧ memberSize "requestId" "" = 0 ∧
      memberSize "matchId" offerRoom = 45 := by decide
  have hkeys : JsonText.growth (quote "type") = 0 ∧ JsonText.growth (quote "offer") = 0 ∧
      JsonText.growth (quote "sdp") = 0 := by decide
  have hgrowth : growthOf (offerPayload sdp) = JsonText.growth sdp := by
    unfold offerPayload
    simp only [growthOf, JsonText.membersGrowth, hkeys]
    omega
  show 32 + textSize "webrtc.offer" + memberSize "requestId" "" + memberSize "matchId" offerRoom
    + ((print (offerPayload sdp)).length + growthOf (offerPayload sdp)) = _
  rw [hsizes.1, hsizes.2.1, hsizes.2.2, length_offerPayload, hgrowth]
  omega

end

/-- Small offers of either service. -/
theorem forwarded_iff_offer :
    Forwarded .lab (offerFrame (quote "v=0")) ∧
      Forwarded .discovery (offerFrame (quote "v=0")) := by
  have hsdp : unquote (quote "v=0") = "v=0" := JsonText.unquote_quote _
  have hbytes : (JsonText.stringBytes (quote "v=0")).length = 3 ∧
      JsonText.growth (quote "v=0") = 0 := by decide
  have haccepts : ∀ service : Service,
      service.accepts (offerText (quote "v=0")) = some (offerFrame (quote "v=0")) := by
    intro service
    refine accepts_offerText service (by rw [hsdp]; decide) (by rw [hsdp]; decide) ?_
    rw [length_offerText, hbytes.1]
    decide
  have hfits : (offerFrame (quote "v=0")).Fits := by
    unfold Frame.Fits
    rw [size_offerFrame, hbytes.1, hbytes.2]
    decide
  exact ⟨(forwarded_iff (haccepts .lab) (Or.inl rfl)).mpr hfits,
    (forwarded_iff (haccepts .discovery) (Or.inl rfl)).mpr hfits⟩

/-- A description of `n` bytes `<`. -/
def angles (n : Nat) : List Element := List.replicate n (.byte 0x3c rfl)

theorem unquote_angles (n : Nat) : (unquote (angles n)).utf8ByteSize = n := by
  have hread : JsonText.unquoteFrom 0 (angles n) = List.replicate n '<' := by
    induction n with
    | zero => rfl
    | succ n ih =>
        show (JsonText.rune _ _ _).1 :: JsonText.unquoteFrom (JsonText.rune _ _ _).2 (angles n) = _
        rw [show ∀ continuation low, JsonText.rune continuation low (.byte 0x3c rfl) = ('<', 0) from
          fun continuation _ => JsonText.decodeRune_ascii (by decide) continuation, ih]
        rfl
  unfold unquote
  rw [hread]
  clear hread
  induction n with
  | zero => rfl
  | succ n ih =>
      rw [List.replicate_succ, ← List.singleton_append, String.ofList_append,
        String.utf8ByteSize_append, ih, Nat.add_comm]
      rfl

theorem growth_angles (n : Nat) :
    (JsonText.stringBytes (angles n)).length = n ∧ JsonText.growth (angles n) = 5 * n := by
  induction n with
  | zero => exact ⟨rfl, rfl⟩
  | succ n ih =>
      have hcons : angles (n + 1) = .byte 0x3c rfl :: angles n := rfl
      rw [hcons, JsonText.stringBytes_cons, JsonText.growth_cons, List.length_append, ih.1, ih.2]
      refine ⟨Nat.add_comm 1 n, ?_⟩
      show 5 + 3 * 0 + 5 * n = 5 * (n + 1)
      omega

/-- An offer of 11116 bytes is accepted, and what is published of it takes 66116. -/
theorem not_forwarded_angles :
    Service.lab.accepts (offerText (angles 11000)) = some (offerFrame (angles 11000)) ∧
      Service.discovery.accepts (offerText (angles 11000)) = some (offerFrame (angles 11000)) ∧
      (offerFrame (angles 11000)).envelope.type = "webrtc.offer" ∧
      (offerFrame (angles 11000)).published.length = 66116 ∧
      ¬ Forwarded .lab (offerFrame (angles 11000)) ∧
      ¬ Forwarded .discovery (offerFrame (angles 11000)) := by
  have hsdp := unquote_angles 11000
  obtain ⟨hbytes, hgrowth⟩ := growth_angles 11000
  have haccepts : ∀ service : Service,
      service.accepts (offerText (angles 11000)) = some (offerFrame (angles 11000)) := by
    intro service
    refine accepts_offerText service (by omega) (by omega) ?_
    rw [length_offerText, hbytes]
    decide
  have hlength : (offerFrame (angles 11000)).published.length = 66116 := by
    rw [length_published rfl, size_offerFrame, hbytes, hgrowth]
  have hnot : ∀ service : Service, ¬ Forwarded service (offerFrame (angles 11000)) := by
    rintro service ⟨⟨f', haccept, _⟩, _⟩
    rw [accepts_none service (by rw [hlength]; decide)] at haccept
    cases haccept
  exact ⟨haccepts .lab, haccepts .discovery, rfl, hlength, hnot .lab, hnot .discovery⟩

end OneMinute.Signaling
