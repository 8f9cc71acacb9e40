/-
  OneMinute.Lib.JsonString

  JSON strings as texts: what stands between the quotes, what it is read as and
  how it is written.

  A string is read from its bytes rune by rune, as `encoding/json` does: what is
  no UTF-8 and half a surrogate pair are replaced.  The number of elements that a
  rune takes depends on what follows, and what follows counts only as far as it
  consists of continuation bytes, or is the second half of a pair
  (`rune`).  So neither a quoted string (`unquote_quote`) nor the escaping of
  HTML (`unquote_escapeHTML`) changes what is read.
-/

import Mathlib.Algebra.GroupWithZero.Nat
import Mathlib.Data.List.Basic
import Mathlib.Data.String.Basic

namespace JsonText

/-! ## Elements -/

/-- A byte that stands for itself: no control character, quote or backslash. -/
def isPlain (b : UInt8) : Bool :=
  decide (0x20 ≤ b.toNat) && decide (b ≠ 0x22) && decide (b ≠ 0x5c)

/-- What follows a backslash, other than `u`. -/
def isEscape (c : UInt8) : Bool :=
  [0x22, 0x5c, 0x2f, 0x62, 0x66, 0x6e, 0x72, 0x74].contains c

/-- A hexadecimal digit of either case. -/
def isHex (c : UInt8) : Bool :=
  (decide (0x30 ≤ c.toNat) && decide (c.toNat ≤ 0x39)) ||
    (decide (0x41 ≤ c.toNat) && decide (c.toNat ≤ 0x46)) ||
    (decide (0x61 ≤ c.toNat) && decide (c.toNat ≤ 0x66))

/-- What a string consists of, between its quotes. -/
inductive Element where
  | byte (b : UInt8) (h : isPlain b = true)
  | escaped (c : UInt8) (h : isEscape c = true)
  /-- Four hexadecimal digits. -/
  | unicode (p q r s : UInt8) (h : [p, q, r, s].all isHex = true)
deriving DecidableEq

/-- How an element is written. -/
def Element.bytes : Element → List UInt8
  | .byte b _ => [b]
  | .escaped c _ => [0x5c, c]
  | .unicode p q r s _ => [0x5c, 0x75, p, q, r, s]

/-! ## Reading -/

/-- The value of a hexadecimal digit. -/
def hexValue (c : UInt8) : Nat :=
  if c.toNat ≤ 0x39 then c.toNat - 0x30
  else if c.toNat ≤ 0x46 then c.toNat - 0x37
  else c.toNat - 0x57

/-- `getu4` -/
def code (p q r s : UInt8) : Nat :=
  ((hexValue p * 16 + hexValue q) * 16 + hexValue r) * 16 + hexValue s

/-- The character that a short escape stands for. -/
def escapedChar (c : UInt8) : Char :=
  if c = 0x62 then Char.ofNat 0x08
  else if c = 0x66 then Char.ofNat 0x0c
  else if c = 0x6e then '\n'
  else if c = 0x72 then '\r'
  else if c = 0x74 then '\t'
  else Char.ofNat c.toNat

/-- A byte inside of a character. -/
def isContinuation (b : UInt8) : Bool := decide (0x80 ≤ b.toNat) && decide (b.toNat ≤ 0xbf)

/-- The continuation bytes that come first. -/
def continuations : List Element → List UInt8
  | .byte b _ :: rest => if isContinuation b then b :: continuations rest else []
  | _ => []

/-- The second half of a surrogate pair, if it comes first. -/
def lowSurrogate : List Element → Option Nat
  | .unicode p q r s _ :: _ =>
    if 0xdc00 ≤ code p q r s ∧ code p q r s < 0xe000 then some (code p q r s) else none
  | _ => none

/-- U+FFFD -/
def replacement : Char := Char.ofNat 0xfffd

/-- `utf8.DecodeRune` -/
def decodeRune (b : UInt8) (continuation : List UInt8) : Char × Nat :=
  match (b :: continuation).toByteArray.utf8DecodeChar? 0 with
  | some c => (c, c.utf8Size - 1)
  | none => (replacement, 0)

/-- `utf16.DecodeRune` -/
def decodePair (high low : Nat) : Char :=
  Char.ofNat (0x10000 + (high - 0xd800) * 0x400 + (low - 0xdc00))

/-- The rune that starts with an element, and how many of those after it belong to
    it, which are the continuation bytes `continuation` and maybe half a pair. -/
def rune (continuation : List UInt8) (low : Option Nat) : Element → Char × Nat
  | .byte b _ => decodeRune b continuation
  | .escaped c _ => (escapedChar c, 0)
  | .unicode p q r s _ =>
    if code p q r s < 0xd800 ∨ 0xe000 ≤ code p q r s then (Char.ofNat (code p q r s), 0)
    else if code p q r s < 0xdc00 then
      match low with
      | some v => (decodePair (code p q r s) v, 1)
      | none => (replacement, 0)
    else (replacement, 0)

/-- What is read after the first `skip` elements. -/
def unquoteFrom : Nat → List Element → List Char
  | _, [] => []
  | 0, e :: rest =>
    (rune (continuations rest) (lowSurrogate rest) e).1 ::
      unquoteFrom (rune (continuations rest) (lowSurrogate rest) e).2 rest
  | skip + 1, _ :: rest => unquoteFrom skip rest

/-- `unquote` -/
def unquote (s : List Element) : String := String.ofList (unquoteFrom 0 s)

/-! ## Writing -/

/-- A hexadecimal digit in lower case. -/
def hexDigit (n : Nat) : UInt8 := UInt8.ofNat (if n < 10 then 0x30 + n else 0x57 + n)

theorem isHex_hexDigit : ∀ n < 16, isHex (hexDigit n) = true := by decide

theorem hexValue_hexDigit : ∀ n < 16, hexValue (hexDigit n) = n := by decide

theorem isHex_unicodeByte (b : UInt8) :
    [0x30, 0x30, hexDigit (b.toNat / 16), hexDigit (b.toNat % 16)].all isHex = true := by
  have hb := b.toNat_lt
  have hhigh := isHex_hexDigit (b.toNat / 16) (by omega)
  have hlow := isHex_hexDigit (b.toNat % 16) (by omega)
  simp only [List.all_cons, List.all_nil, hhigh, hlow, Bool.and_true]
  decide

/-- `\u00` and the two digits of a byte. -/
def unicodeByte (b : UInt8) : Element :=
  .unicode 0x30 0x30 (hexDigit (b.toNat / 16)) (hexDigit (b.toNat % 16)) (isHex_unicodeByte b)

/-- `<`, `>` or `&`. -/
def isHTML (b : UInt8) : Bool := [0x3c, 0x3e, 0x26].contains b

/-- U+2028, or else U+2029. -/
def separator (line : Bool) : Element :=
  if line then .unicode 0x32 0x30 0x32 0x38 rfl else .unicode 0x32 0x30 0x32 0x39 rfl

/-- The short escape that `encoding/json` writes, if it has one. -/
def shortEscape (c : Char) : Option Element :=
  if c = '"' then some (.escaped 0x22 rfl)
  else if c = '\\' then some (.escaped 0x5c rfl)
  else if c = Char.ofNat 0x08 then some (.escaped 0x62 rfl)
  else if c = Char.ofNat 0x0c then some (.escaped 0x66 rfl)
  else if c = '\n' then some (.escaped 0x6e rfl)
  else if c = '\r' then some (.escaped 0x72 rfl)
  else if c = '\t' then some (.escaped 0x74 rfl)
  else none

/-- A byte that is written as it is, or else in hexadecimal. -/
def safeByte (b : UInt8) : Element :=
  if h : isPlain b = true ∧ isHTML b = false then .byte b h.1 else unicodeByte b

/-- How a character is written. -/
def quoteChar (c : Char) : List Element :=
  match shortEscape c with
  | some e => [e]
  | none =>
    if c = Char.ofNat 0x2028 then [separator true]
    else if c = Char.ofNat 0x2029 then [separator false]
    else (String.utf8EncodeChar c).map safeByte

/-- `appendString`, with HTML escaped. -/
def quote (s : String) : List Element := s.toList.flatMap quoteChar

/-- The separator that starts with an element, before these continuation bytes. -/
def separatorAt (continuation : List UInt8) : Element → Option Bool
  | .byte b _ =>
    if b = 0xe2 ∧ continuation.take 2 = [0x80, 0xa8] then some true
    else if b = 0xe2 ∧ continuation.take 2 = [0x80, 0xa9] then some false
    else none
  | _ => none

/-- An element in which HTML is escaped. -/
def escapeElement : Element → Element
  | .byte b h => if isHTML b then unicodeByte b else .byte b h
  | e => e

/-- What is written after the first `skip` elements. -/
def escapeFrom : Nat → List Element → List Element
  | _, [] => []
  | 0, e :: rest =>
    match separatorAt (continuations rest) e with
    | some line => separator line :: escapeFrom 2 rest
    | none => escapeElement e :: escapeFrom 0 rest
  | skip + 1, _ :: rest => escapeFrom skip rest

/-- `appendCompact` with `escape`, within a string. -/
def escapeHTML (s : List Element) : List Element := escapeFrom 0 s

/-! ## UTF-8 -/

theorem decodeRune_encoded {c : Char} {b : UInt8} {tail more : List UInt8}
    (h : String.utf8EncodeChar c = b :: tail) :
    decodeRune b (tail ++ more) = (c, tail.length) := by
  have hsize : c.utf8Size - 1 = tail.length := by
    rw [← String.length_utf8EncodeChar, h]
    rfl
  have hdecode : (b :: (tail ++ more)).toByteArray.utf8DecodeChar? 0 = some c := by
    rw [← List.cons_append, ← h, List.toByteArray_append]
    exact ByteArray.utf8DecodeChar?_utf8EncodeChar_append
  unfold decodeRune
  rw [hdecode, ← hsize]

theorem decodeRune_le (b : UInt8) (continuation : List UInt8) :
    (decodeRune b continuation).2 ≤ continuation.length := by
  unfold decodeRune
  split
  · next c h =>
      have hsize := ByteArray.le_size_of_utf8DecodeChar?_eq_some h
      rw [List.size_toByteArray, List.length_cons] at hsize
      show c.utf8Size - 1 ≤ continuation.length
      omega
  · exact Nat.zero_le _

/-- A byte below 0x80 is a rune of its own. -/
theorem utf8EncodeChar_ascii {c : Char} (h : c.toNat < 0x80) :
    String.utf8EncodeChar c = [UInt8.ofNat c.toNat] := by
  unfold String.utf8EncodeChar
  rw [Char.toNat] at h ⊢
  simp only []
  rw [if_pos (by omega)]

theorem toNat_ofNat_byte (b : UInt8) : (Char.ofNat b.toNat).toNat = b.toNat := by
  have hb := b.toNat_lt
  unfold Char.ofNat
  rw [dif_pos (Or.inl (by omega))]
  rfl

theorem decodeRune_ascii {b : UInt8} (h : b.toNat < 0x80) (continuation : List UInt8) :
    decodeRune b continuation = (Char.ofNat b.toNat, 0) := by
  have hencode : String.utf8EncodeChar (Char.ofNat b.toNat) = [b] := by
    rw [utf8EncodeChar_ascii (by rw [toNat_ofNat_byte]; exact h), toNat_ofNat_byte,
      UInt8.ofNat_toNat]
  exact @decodeRune_encoded _ _ [] _ hencode

theorem le_of_continuation {b : UInt8} (h : isContinuation b = true) : 0x80 ≤ b.toNat := by
  unfold isContinuation at h
  exact of_decide_eq_true (Bool.and_eq_true_iff.mp h).1

/-- From 0x80 on, a character is a first byte and continuation bytes. -/
theorem utf8EncodeChar_multi {c : Char} (h : 0x80 ≤ c.toNat) :
    ∃ b tail, String.utf8EncodeChar c = b :: tail ∧ 0x80 ≤ b.toNat ∧
      ∀ x ∈ tail, isContinuation x = true := by
  have hcont : ∀ n, isContinuation (UInt8.ofNat (n % 0x40 + 0x80)) = true := by
    intro n
    unfold isContinuation
    rw [UInt8.toNat_ofNat', Bool.and_eq_true, decide_eq_true_eq, decide_eq_true_eq]
    omega
  rw [Char.toNat] at h
  unfold String.utf8EncodeChar
  simp only []
  rw [if_neg (by omega)]
  split
  · refine ⟨_, _, rfl, ?_, List.forall_mem_cons.mpr ⟨hcont _, fun _ hx => nomatch hx⟩⟩
    rw [UInt8.toNat_ofNat']
    omega
  · split
    · refine ⟨_, _, rfl, ?_, List.forall_mem_cons.mpr
        ⟨hcont _, List.forall_mem_cons.mpr ⟨hcont _, fun _ hx => nomatch hx⟩⟩⟩
      rw [UInt8.toNat_ofNat']
      omega
    · refine ⟨_, _, rfl, ?_, List.forall_mem_cons.mpr
        ⟨hcont _, List.forall_mem_cons.mpr ⟨hcont _, List.forall_mem_cons.mpr
          ⟨hcont _, fun _ hx => nomatch hx⟩⟩⟩⟩
      rw [UInt8.toNat_ofNat']
      omega

/-! ## Reading what was quoted -/

theorem unquoteFrom_eq_drop (skip : Nat) (s : List Element) :
    unquoteFrom skip s = unquoteFrom 0 (s.drop skip) := by
  induction s generalizing skip with
  | nil =>
      rw [List.drop_nil]
      cases skip <;> rfl
  | cons e rest ih =>
      cases skip with
      | zero => rfl
      | succ skip => exact ih skip

theorem safeByte_plain {b : UInt8} (h : 0x80 ≤ b.toNat) :
    ∃ hb, safeByte b = .byte b hb := by
  have hplain : isPlain b = true ∧ isHTML b = false := by
    have hne : ∀ x : UInt8, x.toNat < 0x80 → b ≠ x := by
      rintro x hx rfl
      omega
    unfold isPlain isHTML
    simp only [Bool.and_eq_true, decide_eq_true_eq, List.contains_cons, List.contains_nil,
      Bool.or_false, Bool.or_eq_false_iff, beq_eq_false_iff_ne, ne_eq]
    exact ⟨⟨⟨by omega, hne _ (by decide)⟩, hne _ (by decide)⟩, hne _ (by decide),
      hne _ (by decide), hne _ (by decide)⟩
  exact ⟨hplain.1, dif_pos hplain⟩

theorem continuations_map {tail : List UInt8} (h : ∀ x ∈ tail, isContinuation x = true)
    (rest : List Element) :
    continuations (tail.map safeByte ++ rest) = tail ++ continuations rest := by
  induction tail with
  | nil => rfl
  | cons b tail ih =>
      have hb := h b List.mem_cons_self
      obtain ⟨hplain, heq⟩ := safeByte_plain (le_of_continuation hb)
      rw [List.map_cons, heq, List.cons_append]
      rw [continuations, if_pos hb, ih fun x hx => h x (List.mem_cons_of_mem _ hx)]
      rfl

theorem code_unicodeByte (b : UInt8) :
    code 0x30 0x30 (hexDigit (b.toNat / 16)) (hexDigit (b.toNat % 16)) = b.toNat := by
  have hb := b.toNat_lt
  have hzero : hexValue 0x30 = 0 := rfl
  unfold code
  rw [hexValue_hexDigit _ (by omega), hexValue_hexDigit _ (by omega), hzero]
  omega

/-- A byte in hexadecimal is the character of that number. -/
theorem rune_unicodeByte (b : UInt8) (continuation : List UInt8) (low : Option Nat) :
    rune continuation low (unicodeByte b) = (Char.ofNat b.toNat, 0) := by
  have hb := b.toNat_lt
  unfold unicodeByte rune
  simp only [code_unicodeByte]
  rw [if_pos (Or.inl (by omega))]

theorem rune_separator (line : Bool) (continuation : List UInt8) (low : Option Nat) :
    rune continuation low (separator line) =
      (if line then Char.ofNat 0x2028 else Char.ofNat 0x2029, 0) := by
  cases line <;> rfl

theorem rune_shortEscape {c : Char} {e : Element} (h : shortEscape c = some e)
    (continuation : List UInt8) (low : Option Nat) : rune continuation low e = (c, 0) := by
  unfold shortEscape at h
  split at h
  · next hc => cases h; rw [hc]; rfl
  · split at h
    · next hc => cases h; rw [hc]; rfl
    · split at h
      · next hc => cases h; rw [hc]; rfl
      · split at h
        · next hc => cases h; rw [hc]; rfl
        · split at h
          · next hc => cases h; rw [hc]; rfl
          · split at h
            · next hc => cases h; rw [hc]; rfl
            · split at h
              · next hc => cases h; rw [hc]; rfl
              · cases h

theorem unquoteFrom_utf8 (c : Char) (rest : List Element) :
    unquoteFrom 0 ((String.utf8EncodeChar c).map safeByte ++ rest) =
      c :: unquoteFrom 0 rest := by
  by_cases hc : c.toNat < 0x80
  · have hbyte : (UInt8.ofNat c.toNat).toNat = c.toNat := by
      rw [UInt8.toNat_ofNat']
      omega
    have hrune : ∀ continuation low,
        rune continuation low (safeByte (UInt8.ofNat c.toNat)) = (c, 0) := by
      intro continuation low
      have hchar : Char.ofNat (UInt8.ofNat c.toNat).toNat = c := by
        rw [hbyte]
        exact Char.ofNat_toNat c
      unfold safeByte
      split
      · show decodeRune _ _ = _
        rw [decodeRune_ascii (by omega), hchar]
      · rw [rune_unicodeByte, hchar]
    rw [utf8EncodeChar_ascii hc, List.map_singleton, List.singleton_append]
    show (rune _ _ _).1 :: unquoteFrom (rune _ _ _).2 rest = _
    rw [hrune]
  · obtain ⟨b, tail, hencode, hb, htail⟩ := utf8EncodeChar_multi (Nat.le_of_not_lt hc)
    obtain ⟨hplain, hsafe⟩ := safeByte_plain hb
    have hrune : ∀ low, rune (tail ++ continuations rest) low (.byte b hplain) =
        (c, tail.length) := fun low => decodeRune_encoded hencode
    rw [hencode, List.map_cons, hsafe, List.cons_append]
    show (rune _ _ _).1 :: unquoteFrom (rune _ _ _).2 _ = _
    rw [continuations_map htail, hrune, unquoteFrom_eq_drop, List.drop_left' (by simp)]

theorem unquoteFrom_quoteChar (c : Char) (rest : List Element) :
    unquoteFrom 0 (quoteChar c ++ rest) = c :: unquoteFrom 0 rest := by
  unfold quoteChar
  split
  · next e he =>
      rw [List.singleton_append]
      show (rune _ _ e).1 :: unquoteFrom (rune _ _ e).2 rest = _
      rw [rune_shortEscape he]
  · split
    · next hc => rw [hc]; rfl
    · split
      · next hc => rw [hc]; rfl
      · exact unquoteFrom_utf8 c rest

/-- A quoted string is read as the string. -/
@[simp] theorem unquote_quote (s : String) : unquote (quote s) = s := by
  have hchars : ∀ chars : List Char, unquoteFrom 0 (chars.flatMap quoteChar) = chars := by
    intro chars
    induction chars with
    | nil => rfl
    | cons c chars ih => rw [List.flatMap_cons, unquoteFrom_quoteChar, ih]
  unfold unquote quote
  rw [hchars, String.ofList_toList]

/-! ## Escaping HTML -/

section
variable {e : Element} {s rest : List Element} {line : Bool}

theorem escapeFrom_eq_drop (skip : Nat) (s : List Element) :
    escapeFrom skip s = escapeHTML (s.drop skip) := by
  induction s generalizing skip with
  | nil =>
      rw [List.drop_nil]
      cases skip <;> rfl
  | cons e rest ih =>
      cases skip with
      | zero => rfl
      | succ skip => exact ih skip

theorem escapeHTML_separator (h : separatorAt (continuations rest) e = some line) :
    escapeHTML (e :: rest) = separator line :: escapeHTML (rest.drop 2) := by
  rw [← escapeFrom_eq_drop]
  unfold escapeHTML
  rw [escapeFrom, h]

theorem escapeHTML_cons (h : separatorAt (continuations rest) e = none) :
    escapeHTML (e :: rest) = escapeElement e :: escapeHTML rest := by
  unfold escapeHTML
  rw [escapeFrom, h]

/-- A separator is the byte 0xe2 and two of the bytes after it. -/
theorem separatorAt_eq_some {continuation : List UInt8}
    (h : separatorAt continuation e = some line) :
    ∃ hb more, e = .byte 0xe2 hb ∧
      continuation = 0x80 :: (if line then 0xa8 else 0xa9) :: more := by
  have htake : ∀ x, continuation.take 2 = [0x80, x] →
      continuation = 0x80 :: x :: continuation.drop 2 := by
    intro x hx
    conv_lhs => rw [← List.take_append_drop 2 continuation, hx]
    rfl
  cases e with
  | byte b hb =>
      rw [separatorAt] at h
      split at h
      · next hcond =>
          obtain ⟨rfl, hx⟩ := hcond
          cases h
          exact ⟨hb, _, rfl, htake _ hx⟩
      · split at h
        · next hcond =>
            obtain ⟨rfl, hx⟩ := hcond
            cases h
            exact ⟨hb, _, rfl, htake _ hx⟩
        · cases h
  | escaped c hc | unicode p q r t hd => cases h

theorem separatorAt_of_continuation {b : UInt8} {hb : isPlain b = true}
    {continuation : List UInt8} (h : isContinuation b = true) :
    separatorAt continuation (.byte b hb) = none := by
  by_contra hne
  obtain ⟨line, hline⟩ := Option.ne_none_iff_exists'.mp hne
  obtain ⟨_, _, heq, _⟩ := separatorAt_eq_some hline
  cases heq
  revert h
  decide

theorem isHTML_of_continuation {b : UInt8} (h : isContinuation b = true) : isHTML b = false := by
  obtain ⟨hplain, hsafe⟩ := safeByte_plain (le_of_continuation h)
  unfold safeByte at hsafe
  split at hsafe
  · next hb => exact hb.2
  · cases hsafe

theorem isHTML_lt {b : UInt8} (h : isHTML b = true) : b.toNat < 0x80 := by
  unfold isHTML at h
  rw [List.contains_iff_mem] at h
  simp only [List.mem_cons, List.not_mem_nil, or_false] at h
  rcases h with rfl | rfl | rfl <;> decide

/-- An element is read the same when it is escaped. -/
theorem rune_escapeElement (e : Element) (continuation : List UInt8) (low : Option Nat) :
    rune continuation low (escapeElement e) = rune continuation low e := by
  cases e with
  | byte b hb =>
      rw [escapeElement]
      split
      · next h => rw [rune_unicodeByte]; exact (decodeRune_ascii (isHTML_lt h) continuation).symm
      · rfl
  | escaped c hc | unicode p q r t hd => rfl

/-! What follows counts as far as it is not escaped. -/

theorem continuations_escapeHTML (s : List Element) :
    continuations (escapeHTML s) = continuations s := by
  induction s with
  | nil => rfl
  | cons e rest ih =>
      cases hsep : separatorAt (continuations rest) e with
      | some line =>
          obtain ⟨hb, more, rfl, _⟩ := separatorAt_eq_some hsep
          rw [escapeHTML_separator hsep]
          cases line <;> rfl
      | none =>
          rw [escapeHTML_cons hsep]
          cases e with
          | byte b hb =>
              rw [escapeElement]
              split
              · next hhtml =>
                  have hnot : isContinuation b = false := by
                    by_contra hc
                    rw [isHTML_of_continuation (by simpa using hc)] at hhtml
                    cases hhtml
                  rw [continuations, if_neg (by simp [hnot])]
                  rfl
              · rw [continuations, continuations, ih]
          | escaped c hc | unicode p q r t hd => rfl

theorem lowSurrogate_escapeHTML (s : List Element) :
    lowSurrogate (escapeHTML s) = lowSurrogate s := by
  cases s with
  | nil => rfl
  | cons e rest =>
      cases hsep : separatorAt (continuations rest) e with
      | some line =>
          obtain ⟨hb, more, rfl, _⟩ := separatorAt_eq_some hsep
          rw [escapeHTML_separator hsep]
          cases line <;> rfl
      | none =>
          rw [escapeHTML_cons hsep]
          cases e with
          | byte b hb =>
              rw [escapeElement]
              split
              · have hlt := b.toNat_lt
                unfold unicodeByte lowSurrogate
                simp only [code_unicodeByte]
                rw [if_neg (by omega)]
              · rfl
          | escaped c hc | unicode p q r t hd => rfl

/-- The first `skip` elements are continuation bytes, or half a pair. -/
def Within (skip : Nat) (s : List Element) : Prop :=
  skip ≤ (continuations s).length ∨ (skip = 1 ∧ lowSurrogate s ≠ none)

/-- What belongs to a rune is what follows it. -/
theorem within_rune (e : Element) (s : List Element) :
    Within (rune (continuations s) (lowSurrogate s) e).2 s := by
  have hzero : Within 0 s := Or.inl (Nat.zero_le _)
  cases e with
  | byte b hb => exact Or.inl (decodeRune_le b _)
  | escaped c hc => exact hzero
  | unicode p q r t hd =>
      simp only [rune]
      split
      · exact hzero
      · split
        · split
          · next v hv => exact Or.inr ⟨rfl, by simp [hv]⟩
          · exact hzero
        · exact hzero

/-- An element that belongs to the rune before it is not escaped. -/
theorem escapeHTML_within {skip : Nat} (h : Within (skip + 1) (e :: rest)) :
    escapeHTML (e :: rest) = e :: escapeHTML rest ∧ Within skip rest := by
  rcases h with hlen | ⟨hskip, hlow⟩
  · cases e with
    | byte b hb =>
        rw [continuations] at hlen
        split at hlen
        · next hc =>
            refine ⟨?_, Or.inl (by simpa using hlen)⟩
            rw [escapeHTML_cons (separatorAt_of_continuation hc)]
            rw [escapeElement]
            rw [if_neg (by simp [isHTML_of_continuation hc])]
        · cases hlen
    | escaped c hc | unicode p q r t hd => cases hlen
  · obtain rfl : skip = 0 := by omega
    refine ⟨?_, Or.inl (Nat.zero_le _)⟩
    cases e with
    | unicode p q r t hd => rw [escapeHTML_cons rfl]; rfl
    | byte b hb | escaped c hc => exact absurd rfl hlow

theorem unquoteFrom_escapeHTML {skip : Nat} {s : List Element} (h : Within skip s) :
    unquoteFrom skip (escapeHTML s) = unquoteFrom skip s := by
  -- a separator is left out as a whole, so the induction is on the length
  induction hn : s.length using Nat.strong_induction_on generalizing skip s with
  | _ n ih =>
      subst hn
      cases s with
      | nil => rfl
      | cons e rest =>
          cases skip with
          | succ skip =>
              obtain ⟨heq, hrest⟩ := escapeHTML_within h
              rw [heq]
              exact ih rest.length (by simp) hrest rfl
          | zero =>
              cases hsep : separatorAt (continuations rest) e with
              | some line =>
                  obtain ⟨hb, more, rfl, hcont⟩ := separatorAt_eq_some hsep
                  have hrune : decodeRune 0xe2 (0x80 :: (if line then 0xa8 else 0xa9) :: more) =
                      (if line then Char.ofNat 0x2028 else Char.ofNat 0x2029, 2) := by
                    cases line
                    · exact @decodeRune_encoded (Char.ofNat 0x2029) _ [0x80, 0xa9] _ rfl
                    · exact @decodeRune_encoded (Char.ofNat 0x2028) _ [0x80, 0xa8] _ rfl
                  rw [escapeHTML_separator hsep]
                  show (rune _ _ _).1 :: unquoteFrom (rune _ _ _).2 _ =
                    (decodeRune 0xe2 (continuations rest)).1 ::
                      unquoteFrom (decodeRune 0xe2 (continuations rest)).2 rest
                  rw [rune_separator, hcont, hrune, unquoteFrom_eq_drop 2]
                  congr 1
                  have hshorter : (rest.drop 2).length < (Element.byte 0xe2 hb :: rest).length := by
                    rw [List.length_drop, List.length_cons]
                    omega
                  exact ih (rest.drop 2).length hshorter (Or.inl (Nat.zero_le _)) rfl
              | none =>
                  rw [escapeHTML_cons hsep]
                  show (rune _ _ _).1 :: unquoteFrom (rune _ _ _).2 _ =
                    (rune _ _ _).1 :: unquoteFrom (rune _ _ _).2 rest
                  rw [rune_escapeElement, continuations_escapeHTML, lowSurrogate_escapeHTML,
                    ih rest.length (by simp) (within_rune e rest) rfl]

end

/-- Escaping HTML does not change what is read. -/
@[simp] theorem unquote_escapeHTML (s : List Element) : unquote (escapeHTML s) = unquote s := by
  unfold unquote
  rw [unquoteFrom_escapeHTML (Or.inl (Nat.zero_le _))]

/-! ## Lengths -/

/-- The bytes between the quotes. -/
def stringBytes (s : List Element) : List UInt8 := s.flatMap Element.bytes

/-- An element that `escapeElement` changes. -/
def Element.isHTML : Element → Bool
  | .byte b _ => JsonText.isHTML b
  | _ => false

/-- How many separators there are. -/
def separators : List Element → Nat
  | [] => 0
  | e :: rest => (separatorAt (continuations rest) e).toList.length + separators rest

/-- `<`, `>` and `&` grow by five bytes, U+2028 and U+2029 by three. -/
def growth (s : List Element) : Nat := 5 * s.countP Element.isHTML + 3 * separators s

theorem stringBytes_cons (e : Element) (s : List Element) :
    stringBytes (e :: s) = e.bytes ++ stringBytes s := List.flatMap_cons

theorem length_escapeElement (e : Element) :
    (escapeElement e).bytes.length = e.bytes.length + if e.isHTML then 5 else 0 := by
  cases e with
  | byte b hb =>
      show (if isHTML b then unicodeByte b else .byte b hb : Element).bytes.length =
        1 + if isHTML b then 5 else 0
      split <;> rfl
  | escaped c hc | unicode p q r t hd => rfl

/-- A continuation byte is an element that neither escape is about. -/
theorem eq_cons_of_continuations {s : List Element} {b : UInt8} {more : List UInt8}
    (h : continuations s = b :: more) :
    ∃ hb rest, s = .byte b hb :: rest ∧ continuations rest = more ∧ isContinuation b = true := by
  cases s with
  | nil => cases h
  | cons e rest =>
      cases e with
      | byte x hx =>
          rw [continuations] at h
          split at h
          · next hc =>
              obtain ⟨rfl, hmore⟩ := List.cons.inj h
              exact ⟨hx, rest, rfl, hmore, hc⟩
          · cases h
      | escaped c hc | unicode p q r t hd => cases h

theorem growth_cons (e : Element) (rest : List Element) :
    growth (e :: rest) = (if e.isHTML then 5 else 0) +
      3 * (separatorAt (continuations rest) e).toList.length + growth rest := by
  unfold growth
  rw [List.countP_cons, separators]
  split <;> omega

theorem growth_continuation {b : UInt8} {hb : isPlain b = true} {rest : List Element}
    (h : isContinuation b = true) : growth (.byte b hb :: rest) = growth rest := by
  have hhtml : Element.isHTML (.byte b hb) = false := isHTML_of_continuation h
  rw [growth_cons, separatorAt_of_continuation h, hhtml]
  simp

theorem length_escapeHTML (s : List Element) :
    (stringBytes (escapeHTML s)).length = (stringBytes s).length + growth s := by
  induction hn : s.length using Nat.strong_induction_on generalizing s with
  | _ n ih =>
      subst hn
      cases s with
      | nil => rfl
      | cons e rest =>
          cases hsep : separatorAt (continuations rest) e with
          | some line =>
              obtain ⟨hb, more, rfl, hcont⟩ := separatorAt_eq_some hsep
              obtain ⟨h1, rest, rfl, hcont, hc1⟩ := eq_cons_of_continuations hcont
              obtain ⟨h2, rest, rfl, _, hc2⟩ := eq_cons_of_continuations hcont
              have hrest := ih rest.length (by simp; omega) rest rfl
              have hsix : (separator line).bytes.length = 6 := by cases line <;> rfl
              have hhtml : Element.isHTML (.byte 0xe2 hb) = false := rfl
              rw [escapeHTML_separator hsep, stringBytes_cons, List.length_append, hsix,
                growth_cons, hsep, hhtml, growth_continuation hc1, growth_continuation hc2]
              simp only [List.drop_succ_cons, List.drop_zero, hrest, stringBytes_cons,
                Element.bytes, List.length_append, List.length_singleton, Option.toList_some,
                Bool.false_eq_true, if_false]
              omega
          | none =>
              have hrest := ih rest.length (by simp) rest rfl
              rw [escapeHTML_cons hsep, stringBytes_cons, stringBytes_cons, List.length_append,
                List.length_append, length_escapeElement, hrest, growth_cons, hsep]
              simp only [Option.toList_none, List.length_nil]
              omega

/-- How many bytes a character takes when it is quoted. -/
def charLength (c : Char) : Nat :=
  if (shortEscape c).isSome then 2
  else if c.toNat < 0x20 ∨ c = '<' ∨ c = '>' ∨ c = '&' ∨ c = Char.ofNat 0x2028 ∨
      c = Char.ofNat 0x2029 then 6
  else c.utf8Size

theorem length_shortEscape {c : Char} {e : Element} (h : shortEscape c = some e) :
    e.bytes.length = 2 := by
  cases e with
  | escaped x hx => rfl
  | byte b hb | unicode p q r s hd =>
      unfold shortEscape at h
      repeat' split at h
      all_goals cases h

theorem length_quoteChar_ascii :
    ∀ n < 0x80, (stringBytes (quoteChar (Char.ofNat n))).length = charLength (Char.ofNat n) := by
  decide

theorem length_stringBytes_map {bytes : List UInt8} (h : ∀ b ∈ bytes, 0x80 ≤ b.toNat) :
    (stringBytes (bytes.map safeByte)).length = bytes.length := by
  induction bytes with
  | nil => rfl
  | cons b bytes ih =>
      obtain ⟨_, hsafe⟩ := safeByte_plain (h b List.mem_cons_self)
      rw [List.map_cons, stringBytes_cons, List.length_append, hsafe,
        ih fun x hx => h x (List.mem_cons_of_mem _ hx), List.length_cons]
      exact Nat.add_comm 1 _

theorem length_quoteChar (c : Char) : (stringBytes (quoteChar c)).length = charLength c := by
  by_cases hc : c.toNat < 0x80
  · have h := length_quoteChar_ascii c.toNat hc
    rwa [Char.ofNat_toNat] at h
  · have hne : ∀ x : Char, x.toNat < 0x80 → c ≠ x := by
      rintro x hx rfl
      exact hc hx
    unfold quoteChar charLength
    cases he : shortEscape c with
    | some e =>
        show (e.bytes ++ []).length = 2
        rw [List.append_nil, length_shortEscape he]
    | none =>
        simp only [Option.isSome_none, Bool.false_eq_true, if_false, hne '<' (by decide),
          hne '>' (by decide), hne '&' (by decide), false_or]
        by_cases hline : c = Char.ofNat 0x2028
        · rw [if_pos hline, if_pos (Or.inr (Or.inl hline))]
          rfl
        · by_cases hparagraph : c = Char.ofNat 0x2029
          · rw [if_neg hline, if_pos hparagraph, if_pos (Or.inr (Or.inr hparagraph))]
            rfl
          · obtain ⟨b, tail, hencode, hb, htail⟩ := utf8EncodeChar_multi (Nat.le_of_not_lt hc)
            have hbytes : ∀ x ∈ String.utf8EncodeChar c, 0x80 ≤ x.toNat := by
              intro x hx
              rw [hencode] at hx
              rcases List.mem_cons.mp hx with rfl | hx
              · exact hb
              · exact le_of_continuation (htail x hx)
            rw [if_neg hline, if_neg hparagraph, length_stringBytes_map hbytes,
              String.length_utf8EncodeChar, if_neg]
            rintro (hlow | hsep | hsep)
            · omega
            · exact hline hsep
            · exact hparagraph hsep

/-- How many bytes a string takes between its quotes. -/
theorem length_quote (s : String) :
    (stringBytes (quote s)).length = (s.toList.map charLength).sum := by
  unfold quote stringBytes
  rw [List.flatMap_assoc, List.length_flatMap]
  congr 1
  exact List.map_congr_left fun c _ => length_quoteChar c

end JsonText
