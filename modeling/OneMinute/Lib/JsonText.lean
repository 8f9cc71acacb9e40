/-
  OneMinute.Lib.JsonText

  JSON texts: their syntax, the scanner that reads a text byte by byte, and the
  compact form that is written.

  The scanner keeps the arrays and objects that are open on a stack, as
  `encoding/json` does, and builds the tree on the way.  On the compact form of a
  tree it ends with that tree, whatever is open around it (`run_print`); so what
  is written is read back (`parse_print`).
-/

import OneMinute.Lib.Decimal
import OneMinute.Lib.Json
import OneMinute.Lib.JsonString
import Mathlib.Data.List.TakeWhile

namespace JsonText

/-! ## Syntax -/

/-- The bytes of which words and numbers consist. -/
def isLiteralByte (b : UInt8) : Bool :=
  (decide (0x61 ≤ b.toNat) && decide (b.toNat ≤ 0x7a)) ||
    (decide (0x30 ≤ b.toNat) && decide (b.toNat ≤ 0x39)) ||
    [0x2b, 0x2d, 0x2e, 0x45].contains b

/-- A decimal digit. -/
def isDigit (b : UInt8) : Bool := decide (0x30 ≤ b.toNat) && decide (b.toNat ≤ 0x39)

/-- Digits, and at least one. -/
def isDigits (l : List UInt8) : Bool := !l.isEmpty && l.all isDigit

/-- `e`, maybe a sign, and digits; or nothing. -/
def isExponent : List UInt8 → Bool
  | [] => true
  | e :: rest =>
    (decide (e = 0x65) || decide (e = 0x45)) &&
      match rest with
      | 0x2b :: digits | 0x2d :: digits => isDigits digits
      | digits => isDigits digits

/-- A point and digits, or nothing; then maybe an exponent. -/
def isFraction : List UInt8 → Bool
  | 0x2e :: rest =>
    !(rest.takeWhile isDigit).isEmpty && isExponent (rest.dropWhile isDigit)
  | rest => isExponent rest

/-- What a number's sign is followed by: no digit follows a leading zero. -/
def isUnsigned (l : List UInt8) : Bool :=
  let whole := l.takeWhile isDigit
  !whole.isEmpty && (decide (whole.length = 1) || decide (whole.head? ≠ some 0x30)) &&
    isFraction (l.dropWhile isDigit)

/-- A number: maybe a minus sign, then digits with what may follow them. -/
def isNumber : List UInt8 → Bool
  | 0x2d :: rest => isUnsigned rest
  | l => isUnsigned l

/-- `null` -/
def nullWord : List UInt8 := [0x6e, 0x75, 0x6c, 0x6c]

/-- `true` -/
def trueWord : List UInt8 := [0x74, 0x72, 0x75, 0x65]

/-- `false` -/
def falseWord : List UInt8 := [0x66, 0x61, 0x6c, 0x73, 0x65]

/-- A word or a number. -/
def isLiteral (l : List UInt8) : Bool :=
  !l.isEmpty && l.all isLiteralByte &&
    (decide (l = nullWord) || decide (l = trueWord) || decide (l = falseWord) || isNumber l)

/-- A JSON text without the space between its tokens. -/
inductive Syntax where
  | literal (l : List UInt8) (h : isLiteral l = true)
  | string (s : List Element)
  | array (items : List Syntax)
  | object (members : List (List Element × Syntax))

/-! ## The compact form -/

/-- A string between its quotes. -/
def printString (s : List Element) : List UInt8 := 0x22 :: stringBytes s ++ [0x22]

mutual

/-- The compact form of a tree: nothing stands between its tokens. -/
def print : Syntax → List UInt8
  | .literal l _ => l
  | .string s => printString s
  | .array [] => [0x5b, 0x5d]
  | .array (t :: items) => 0x5b :: print t ++ printItems items
  | .object [] => [0x7b, 0x7d]
  | .object ((key, t) :: members) =>
    0x7b :: printString key ++ 0x3a :: print t ++ printMembers members

/-- The items after the first one, and the end of the array. -/
def printItems : List Syntax → List UInt8
  | [] => [0x5d]
  | t :: items => 0x2c :: print t ++ printItems items

/-- The members after the first one, and the end of the object. -/
def printMembers : List (List Element × Syntax) → List UInt8
  | [] => [0x7d]
  | (key, t) :: members => 0x2c :: printString key ++ 0x3a :: print t ++ printMembers members

end

/-! ## The scanner -/

/-- An array or an object that is open, with what it has so far, the last one
    first. -/
inductive Frame where
  | array (items : List Syntax)
  | member (members : List (List Element × Syntax)) (key : List Element)

/-- Whose string is being read. -/
inductive Owner where
  | value
  | key (members : List (List Element × Syntax))

/-- What has been read of an escape. -/
inductive Escape where
  | none
  | backslash
  | digits (read : List UInt8)

/-- What the scanner expects next, with what it has of the token under way. -/
inductive Mode where
  | beginValue
  /-- After `[`. -/
  | beginItems
  /-- After `{`. -/
  | beginMembers
  /-- After the comma of an object. -/
  | beginKey (members : List (List Element × Syntax))
  | inString (owner : Owner) (read : List Element) (escape : Escape)
  | endKey (members : List (List Element × Syntax)) (key : List Element)
  | inLiteral (read : List UInt8)
  | endValue (t : Syntax)

/-- The scanner: what is open, the innermost first, and its mode. -/
structure Scanner where
  stack : List Frame
  mode : Mode

/-- The space that may stand between tokens. -/
def isSpace (c : UInt8) : Bool := [0x20, 0x09, 0x0d, 0x0a].contains c

/-- The first byte of a value. -/
def beginValue (stack : List Frame) (c : UInt8) : Option Scanner :=
  if c = 0x22 then some ⟨stack, .inString .value [] .none⟩
  else if c = 0x5b then some ⟨stack, .beginItems⟩
  else if c = 0x7b then some ⟨stack, .beginMembers⟩
  else if isLiteralByte c then some ⟨stack, .inLiteral [c]⟩
  else none

/-- The first byte of a key, which is a quote. -/
def beginKey (stack : List Frame) (members : List (List Element × Syntax)) (c : UInt8) :
    Option Scanner :=
  if c = 0x22 then some ⟨stack, .inString (.key members) [] .none⟩ else none

/-- What a byte after a value closes or continues. -/
def endValue (stack : List Frame) (t : Syntax) (c : UInt8) : Option Scanner :=
  match stack with
  | [] => none
  | .array items :: stack =>
    if c = 0x2c then some ⟨.array (t :: items) :: stack, .beginValue⟩
    else if c = 0x5d then some ⟨stack, .endValue (.array (t :: items).reverse)⟩
    else none
  | .member members key :: stack =>
    if c = 0x2c then some ⟨stack, .beginKey ((key, t) :: members)⟩
    else if c = 0x7d then some ⟨stack, .endValue (.object ((key, t) :: members).reverse)⟩
    else none

/-- The closing quote of a string: a value has ended, or a key. -/
def endString (stack : List Frame) (s : List Element) : Owner → Scanner
  | .value => ⟨stack, .endValue (.string s)⟩
  | .key members => ⟨stack, .endKey members s⟩

/-- A byte inside of a string. -/
def inString (stack : List Frame) (owner : Owner) (read : List Element) (c : UInt8) :
    Escape → Option Scanner
  | .none =>
    if c = 0x22 then some (endString stack read.reverse owner)
    else if c = 0x5c then some ⟨stack, .inString owner read .backslash⟩
    else if h : isPlain c = true then some ⟨stack, .inString owner (.byte c h :: read) .none⟩
    else none
  | .backslash =>
    if c = 0x75 then some ⟨stack, .inString owner read (.digits [])⟩
    else if h : isEscape c = true then
      some ⟨stack, .inString owner (.escaped c h :: read) .none⟩
    else none
  | .digits [p, q, r] =>
    if h : [p, q, r, c].all isHex = true then
      some ⟨stack, .inString owner (.unicode p q r c h :: read) .none⟩
    else none
  | .digits digits =>
    if isHex c then some ⟨stack, .inString owner read (.digits (digits ++ [c]))⟩ else none

/-- The end of a literal. -/
def settle (read : List UInt8) : Option Syntax :=
  if h : isLiteral read.reverse = true then some (.literal read.reverse h) else none

/-- One byte.  The byte that ends a literal belongs to what follows it, as in
    `stateEndValue`. -/
def step (scanner : Scanner) (c : UInt8) : Option Scanner :=
  match scanner.mode with
  | .inString owner read escape => inString scanner.stack owner read c escape
  | .inLiteral read =>
    if isLiteralByte c then some ⟨scanner.stack, .inLiteral (c :: read)⟩
    else
      (settle read).bind fun t =>
        if isSpace c then some ⟨scanner.stack, .endValue t⟩ else endValue scanner.stack t c
  | .beginValue => if isSpace c then some scanner else beginValue scanner.stack c
  | .beginItems =>
    if isSpace c then some scanner
    else if c = 0x5d then some ⟨scanner.stack, .endValue (.array [])⟩
    else beginValue (.array [] :: scanner.stack) c
  | .beginMembers =>
    if isSpace c then some scanner
    else if c = 0x7d then some ⟨scanner.stack, .endValue (.object [])⟩
    else beginKey scanner.stack [] c
  | .beginKey members => if isSpace c then some scanner else beginKey scanner.stack members c
  | .endKey members key =>
    if isSpace c then some scanner
    else if c = 0x3a then some ⟨.member members key :: scanner.stack, .beginValue⟩
    else none
  | .endValue t => if isSpace c then some scanner else endValue scanner.stack t c

/-- The scanner along a text; none when a byte is refused. -/
def run (scanner : Scanner) (text : List UInt8) : Option Scanner := text.foldlM step scanner

/-- The value at the end of the text, when nothing is open. -/
def finish (scanner : Scanner) : Option Syntax :=
  match scanner.stack, scanner.mode with
  | [], .endValue t => some t
  | [], .inLiteral read => settle read
  | _, _ => none

/-! ## Depth -/

mutual

/-- How many arrays and objects are open at once. -/
def depth : Syntax → Nat
  | .literal _ _ => 0
  | .string _ => 0
  | .array items => itemsDepth items + 1
  | .object members => membersDepth members + 1

/-- The depth of the deepest item. -/
def itemsDepth : List Syntax → Nat
  | [] => 0
  | t :: items => max (depth t) (itemsDepth items)

/-- The depth of the deepest member. -/
def membersDepth : List (List Element × Syntax) → Nat
  | [] => 0
  | (_, t) :: members => max (depth t) (membersDepth members)

end

/-- `maxNestingDepth` of `encoding/json`. -/
def maxNestingDepth : Nat := 10000

/-- The one value of a text, with space around it. -/
def parse (text : List UInt8) : Option Syntax :=
  match (run ⟨[], .beginValue⟩ text).bind finish with
  | some t => if depth t ≤ maxNestingDepth then some t else none
  | none => none

/-! ## Scanning what was written -/

theorem run_append (scanner : Scanner) (a b : List UInt8) :
    run scanner (a ++ b) = (run scanner a).bind fun s => run s b := by
  unfold run
  rw [List.foldlM_append]
  rfl

theorem run_cons (scanner : Scanner) (c : UInt8) (text : List UInt8) :
    run scanner (c :: text) = (step scanner c).bind fun s => run s text := by
  unfold run
  rw [List.foldlM_cons]
  rfl

theorem run_cons_of_step {scanner next : Scanner} {c : UInt8} (h : step scanner c = some next)
    (text : List UInt8) : run scanner (c :: text) = run next text := by
  rw [run_cons, h, Option.bind_some]

section
variable {stack : List Frame} {owner : Owner} {c : UInt8} {t : Syntax} {scanner : Scanner}

theorem run_element (e : Element) (read : List Element) (text : List UInt8) :
    run ⟨stack, .inString owner read .none⟩ (e.bytes ++ text) =
      run ⟨stack, .inString owner (e :: read) .none⟩ text := by
  cases e with
  | byte b h =>
      refine run_cons_of_step ?_ text
      have hb := h
      unfold isPlain at hb
      simp only [Bool.and_eq_true, decide_eq_true_eq] at hb
      simp only [step, inString, if_neg hb.1.2, if_neg hb.2, dif_pos h]
  | escaped c h =>
      have hc : c ≠ 0x75 := by
        rintro rfl
        revert h
        decide
      refine (run_cons_of_step rfl _).trans (run_cons_of_step ?_ text)
      simp only [step, inString, if_neg hc, dif_pos h]
  | unicode p q r s h =>
      have hall := h
      simp only [List.all_cons, List.all_nil, Bool.and_true, Bool.and_eq_true] at hall
      obtain ⟨hp, hq, hr, _⟩ := hall
      have hdigit : ∀ (digits : List UInt8) (x : UInt8), digits.length < 3 → isHex x = true →
          step ⟨stack, .inString owner read (.digits digits)⟩ x =
            some ⟨stack, .inString owner read (.digits (digits ++ [x]))⟩ := by
        intro digits x hlen hx
        rcases digits with _ | ⟨a, _ | ⟨b, _ | ⟨d, rest⟩⟩⟩
        · simp only [step, inString, hx, if_true]
        · simp only [step, inString, hx, if_true]
        · simp only [step, inString, hx, if_true]
        · simp only [List.length_cons] at hlen
          omega
      refine (run_cons_of_step rfl _).trans ((run_cons_of_step rfl _).trans ?_)
      refine (run_cons_of_step (hdigit [] p (by simp) hp) _).trans ?_
      refine (run_cons_of_step (hdigit [p] q (by simp) hq) _).trans ?_
      refine (run_cons_of_step (hdigit [p, q] r (by simp) hr) _).trans ?_
      refine run_cons_of_step ?_ text
      simp only [step, inString, List.cons_append, List.nil_append, dif_pos h]

/-- After the opening quote, a string is read up to the closing one. -/
theorem run_stringBytes (s read : List Element) (text : List UInt8) :
    run ⟨stack, .inString owner read .none⟩ (stringBytes s ++ 0x22 :: text) =
      run (endString stack (read.reverse ++ s) owner) text := by
  induction s generalizing read with
  | nil =>
      rw [List.append_nil]
      exact run_cons_of_step rfl text
  | cons e s ih =>
      rw [stringBytes_cons, List.append_assoc, run_element, ih, List.reverse_cons,
        List.append_assoc]
      rfl

theorem ne_of_isLiteralByte (h : isLiteralByte c = true) :
    c ≠ 0x22 ∧ c ≠ 0x5b ∧ c ≠ 0x7b ∧ c ≠ 0x5d ∧ isSpace c = false := by
  have hspace : isSpace c = false := by
    by_contra hc
    unfold isSpace at hc
    simp only [Bool.not_eq_false, List.contains_iff_mem, List.mem_cons, List.not_mem_nil,
      or_false] at hc
    rcases hc with rfl | rfl | rfl | rfl <;> revert h <;> decide
  refine ⟨?_, ?_, ?_, ?_, hspace⟩ <;> rintro rfl <;> revert h <;> decide

theorem run_inLiteral (l read : List UInt8) (h : l.all isLiteralByte = true) :
    run ⟨stack, .inLiteral read⟩ l = some ⟨stack, .inLiteral (l.reverse ++ read)⟩ := by
  induction l generalizing read with
  | nil => rfl
  | cons c l ih =>
      rw [List.all_cons, Bool.and_eq_true] at h
      have hstep : step ⟨stack, .inLiteral read⟩ c = some ⟨stack, .inLiteral (c :: read)⟩ :=
        if_pos h.1
      rw [run_cons_of_step hstep, ih _ h.2, List.reverse_cons, List.append_assoc]
      rfl

/-- The scanner is at the end of the value `t`.  A literal ends only with the byte
    after it. -/
inductive Ends (stack : List Frame) : Scanner → Syntax → Prop where
  | value (t : Syntax) : Ends stack ⟨stack, .endValue t⟩ t
  | literal (l : List UInt8) (h : isLiteral l = true) :
      Ends stack ⟨stack, .inLiteral l.reverse⟩ (.literal l h)

theorem settle_reverse {l : List UInt8} (h : isLiteral l = true) :
    settle l.reverse = some (.literal l h) := by
  unfold settle
  simp only [List.reverse_reverse, dif_pos h]

theorem Ends.step (h : Ends stack scanner t) (hspace : isSpace c = false)
    (hliteral : isLiteralByte c = false) : step scanner c = endValue stack t c := by
  cases h with
  | value => exact if_neg (by simp [hspace])
  | literal l h =>
      simp only [JsonText.step, hliteral, hspace, settle_reverse h, Option.bind_some,
        Bool.false_eq_true, if_false]

theorem Ends.finish (h : Ends [] scanner t) : finish scanner = some t := by
  cases h with
  | value => rfl
  | literal l h => exact settle_reverse h

/-- The first byte of a value. -/
theorem print_eq_cons (t : Syntax) :
    ∃ c rest, print t = c :: rest ∧ isSpace c = false ∧ c ≠ 0x5d := by
  cases t with
  | literal l h =>
      have hl := h
      unfold isLiteral at hl
      cases l with
      | nil => cases hl
      | cons c l =>
          simp only [List.all_cons, Bool.and_eq_true] at hl
          have hc := ne_of_isLiteralByte hl.1.2.1
          exact ⟨c, l, by rw [print], hc.2.2.2.2, hc.2.2.2.1⟩
  | string s => exact ⟨0x22, _, by rw [print]; rfl, by decide, by decide⟩
  | array items =>
      cases items with
      | nil => exact ⟨0x5b, _, by rw [print], by decide, by decide⟩
      | cons t items => exact ⟨0x5b, _, by rw [print]; rfl, by decide, by decide⟩
  | object members =>
      cases members with
      | nil => exact ⟨0x7b, _, by rw [print], by decide, by decide⟩
      | cons m members => exact ⟨0x7b, _, by rw [print]; rfl, by decide, by decide⟩

/-- The first item of an array is read as the others are. -/
theorem run_beginItems (t : Syntax) (text : List UInt8) :
    run ⟨stack, .beginItems⟩ (print t ++ text) =
      run ⟨.array [] :: stack, .beginValue⟩ (print t ++ text) := by
  obtain ⟨c, rest, heq, hspace, hend⟩ := print_eq_cons t
  rw [heq, List.cons_append, run_cons, run_cons]
  simp only [JsonText.step, hspace, if_neg hend, Bool.false_eq_true, if_false]

/-- A key and the colon after it. -/
theorem run_key (members : List (List Element × Syntax)) (key : List Element)
    (text : List UInt8) :
    run ⟨stack, .beginKey members⟩ (printString key ++ 0x3a :: text) =
      run ⟨.member members key :: stack, .beginValue⟩ text := by
  unfold printString
  rw [List.append_assoc, List.cons_append]
  refine (run_cons_of_step rfl _).trans ?_
  exact (run_stringBytes key [] _).trans (run_cons_of_step rfl text)

/-- The first member of an object is read as the others are. -/
theorem run_beginMembers (key : List Element) (text : List UInt8) :
    run ⟨stack, .beginMembers⟩ (printString key ++ text) =
      run ⟨stack, .beginKey []⟩ (printString key ++ text) := rfl

end

/-! The induction is on the tree; what is open around a value does not matter. -/

mutual

theorem run_print (t : Syntax) (stack : List Frame) :
    ∃ scanner, run ⟨stack, .beginValue⟩ (print t) = some scanner ∧ Ends stack scanner t := by
  match t with
  | .literal l h =>
      refine ⟨_, ?_, Ends.literal l h⟩
      have hl := h
      unfold isLiteral at hl
      cases l with
      | nil => cases hl
      | cons c l =>
          simp only [List.all_cons, Bool.and_eq_true] at hl
          have hc := ne_of_isLiteralByte hl.1.2.1
          have hstep : step ⟨stack, .beginValue⟩ c = some ⟨stack, .inLiteral [c]⟩ := by
            simp only [step, beginValue, hc.2.2.2.2, if_neg hc.1, if_neg hc.2.1,
              if_neg hc.2.2.1, if_pos hl.1.2.1, Bool.false_eq_true, if_false]
          rw [print, run_cons_of_step hstep, run_inLiteral _ _ hl.1.2.2, List.reverse_cons]
  | .string s =>
      refine ⟨_, ?_, Ends.value _⟩
      rw [print, printString]
      exact (run_cons_of_step rfl _).trans (run_stringBytes s [] [])
  | .array [] =>
      refine ⟨_, ?_, Ends.value _⟩
      rw [print]
      rfl
  | .array (t :: items) =>
      refine ⟨_, ?_, Ends.value _⟩
      obtain ⟨scanner, hrun, hends⟩ := run_print t (.array [] :: stack)
      have hbegin : run ⟨stack, .beginValue⟩ (print (.array (t :: items))) =
          run ⟨stack, .beginItems⟩ (print t ++ printItems items) := by
        rw [print]
        exact run_cons_of_step rfl _
      rw [hbegin, run_beginItems, run_append, hrun, Option.bind_some]
      exact run_printItems items t [] stack scanner hends
  | .object [] =>
      refine ⟨_, ?_, Ends.value _⟩
      rw [print]
      rfl
  | .object ((key, t) :: members) =>
      refine ⟨_, ?_, Ends.value _⟩
      obtain ⟨scanner, hrun, hends⟩ := run_print t (.member [] key :: stack)
      have hbegin : run ⟨stack, .beginValue⟩ (print (.object ((key, t) :: members))) =
          run ⟨stack, .beginMembers⟩
            (printString key ++ 0x3a :: (print t ++ printMembers members)) := by
        rw [print, List.append_assoc]
        exact run_cons_of_step rfl _
      rw [hbegin, run_beginMembers, run_key, run_append, hrun, Option.bind_some]
      exact run_printMembers members key t [] stack scanner hends

theorem run_printItems (items : List Syntax) (t : Syntax) (read : List Syntax)
    (stack : List Frame) (scanner : Scanner) (h : Ends (.array read :: stack) scanner t) :
    run scanner (printItems items) =
      some ⟨stack, .endValue (.array ((t :: read).reverse ++ items))⟩ := by
  match items with
  | [] =>
      rw [printItems, run_cons, h.step (by decide) (by decide), List.append_nil]
      rfl
  | u :: items =>
      obtain ⟨next, hrun, hends⟩ := run_print u (.array (t :: read) :: stack)
      have hcomma : run scanner (printItems (u :: items)) =
          run ⟨.array (t :: read) :: stack, .beginValue⟩ (print u ++ printItems items) := by
        rw [printItems, List.cons_append]
        exact run_cons_of_step (h.step (by decide) (by decide)) _
      rw [hcomma, run_append, hrun, Option.bind_some,
        run_printItems items u (t :: read) stack next hends, List.reverse_cons, List.append_assoc]
      rfl

theorem run_printMembers (members : List (List Element × Syntax)) (key : List Element)
    (t : Syntax) (read : List (List Element × Syntax)) (stack : List Frame) (scanner : Scanner)
    (h : Ends (.member read key :: stack) scanner t) :
    run scanner (printMembers members) =
      some ⟨stack, .endValue (.object (((key, t) :: read).reverse ++ members))⟩ := by
  match members with
  | [] =>
      rw [printMembers, run_cons, h.step (by decide) (by decide), List.append_nil]
      rfl
  | (name, u) :: members =>
      obtain ⟨next, hrun, hends⟩ := run_print u (.member ((key, t) :: read) name :: stack)
      have hcomma : run scanner (printMembers ((name, u) :: members)) =
          run ⟨stack, .beginKey ((key, t) :: read)⟩
            (printString name ++ 0x3a :: (print u ++ printMembers members)) := by
        rw [printMembers, List.append_assoc]
        exact run_cons_of_step (h.step (by decide) (by decide)) _
      rw [hcomma, run_key, run_append, hrun, Option.bind_some,
        run_printMembers members name u ((key, t) :: read) stack next hends, List.reverse_cons,
        List.append_assoc]
      rfl

end

/-- What is written is read back. -/
theorem parse_print {t : Syntax} (h : depth t ≤ maxNestingDepth) : parse (print t) = some t := by
  obtain ⟨scanner, hrun, hends⟩ := run_print t []
  unfold parse
  rw [hrun, Option.bind_some, hends.finish]
  exact if_pos h

theorem depth_of_parse {text : List UInt8} {t : Syntax} (h : parse text = some t) :
    depth t ≤ maxNestingDepth := by
  unfold parse at h
  split at h
  · next u _ =>
      obtain ⟨hdepth, htree⟩ := Option.ite_none_right_eq_some.mp h
      exact Option.some.inj htree ▸ hdepth
  · cases h

/-! ## Values -/

/-- The number that digits stand for, maybe after a sign. -/
def integerValue : List UInt8 → Int
  | 0x2d :: digits => -((Decimal.parseNat digits).getD 0 : Nat)
  | digits => ((Decimal.parseNat digits).getD 0 : Nat)

/-- A word or a number as a value; what is no plain integer keeps its text. -/
def literalValue (l : List UInt8) : Json :=
  if l = nullWord then .null
  else if l = trueWord then .bool true
  else if l = falseWord then .bool false
  else if l.any [0x2e, 0x45, 0x65].contains ∨ l = [0x2d, 0x30] then
    .decimal (String.ofList (l.map fun b => Char.ofNat b.toNat))
  else .int (integerValue l)

theorem formatNat_leading (n : Nat) :
    (Decimal.formatNat n).length = 1 ∨ (Decimal.formatNat n).head? ≠ some 0x30 := by
  by_cases hn : n = 0
  · subst hn
    exact Or.inl rfl
  · refine Or.inr fun h => ?_
    unfold Decimal.formatNat Decimal.digitsOf at h
    rw [if_neg hn, List.head?_map, List.head?_reverse, Option.map_eq_some_iff] at h
    obtain ⟨d, hlast, hd⟩ := h
    have hne : Nat.digits 10 n ≠ [] := Nat.digits_ne_nil_iff_ne_zero.mpr hn
    have hmem : d ∈ Nat.digits 10 n := List.mem_of_getLast? hlast
    have hdigit := Decimal.toNat_digit (Nat.digits_lt_base (by omega) hmem)
    rw [hd] at hdigit
    rw [List.getLast?_eq_some_getLast hne, Option.some.injEq] at hlast
    refine Nat.getLast_digit_ne_zero 10 hn ?_
    rw [hlast]
    exact (Nat.add_left_cancel (hdigit : 48 + 0 = 48 + d)).symm

/-- A printed natural number is a number without a sign. -/
theorem isUnsigned_formatNat (n : Nat) : isUnsigned (Decimal.formatNat n) = true := by
  have hdigits : ∀ c ∈ Decimal.formatNat n, isDigit c = true := fun c hc =>
    Decimal.isDigit_of_mem_formatNat hc
  have hne : (Decimal.formatNat n).isEmpty = false := by
    simpa using Decimal.formatNat_ne_nil n
  unfold isUnsigned
  simp only [List.takeWhile_eq_self_iff.mpr hdigits, List.dropWhile_eq_nil_iff.mpr hdigits, hne]
  simpa [isFraction, isExponent] using formatNat_leading n

theorem isLiteralByte_of_isDigit {c : UInt8} (h : isDigit c = true) : isLiteralByte c = true := by
  unfold isLiteralByte
  unfold isDigit at h
  rw [h, Bool.or_true, Bool.true_or]

theorem isLiteral_formatInt (n : Int) : isLiteral (Decimal.formatInt n) = true := by
  have hbytes : (Decimal.formatInt n).all isLiteralByte = true := by
    refine List.all_eq_true.mpr fun c hc => ?_
    rcases Decimal.mem_formatInt hc with hdigit | rfl
    · exact isLiteralByte_of_isDigit hdigit
    · rfl
  have hnumber : isNumber (Decimal.formatInt n) = true := by
    unfold Decimal.formatInt
    split
    · exact isUnsigned_formatNat _
    · unfold isNumber
      split
      · next rest heq =>
          exact absurd (congrArg List.head? heq)
            (Decimal.head?_formatNat_ne (n := n.natAbs) (c := 0x2d) rfl)
      · exact isUnsigned_formatNat _
  have hne : (Decimal.formatInt n).isEmpty = false := by
    unfold Decimal.formatInt
    split
    · rfl
    · simpa using Decimal.formatNat_ne_nil n.natAbs
  unfold isLiteral
  rw [hne, hbytes, hnumber, Bool.or_true]
  rfl

/-- `strconv.AppendInt` -/
def int (n : Int) : Syntax := .literal (Decimal.formatInt n) (isLiteral_formatInt n)

mutual

/-- What a tree stands for. -/
def value : Syntax → Json
  | .literal l _ => literalValue l
  | .string s => .string (unquote s)
  | .array items => .array (itemValues items)
  | .object members => .object (memberValues members)

/-- What the items stand for. -/
def itemValues : List Syntax → List Json
  | [] => []
  | t :: items => value t :: itemValues items

/-- What the members stand for, their keys unquoted. -/
def memberValues : List (List Element × Syntax) → List (String × Json)
  | [] => []
  | (key, t) :: members => (unquote key, value t) :: memberValues members

end

theorem memberValues_eq_map (members : List (List Element × Syntax)) :
    memberValues members = members.map fun m => (unquote m.1, value m.2) := by
  induction members with
  | nil => rfl
  | cons m members ih =>
      show memberValues ((m.1, m.2) :: members) = _
      rw [memberValues, ih]
      rfl

/-- A literal is no object. -/
theorem literalValue_ne_object (l : List UInt8) (members : List (String × Json)) :
    literalValue l ≠ .object members := by
  unfold literalValue
  repeat' split
  all_goals simp

theorem membersDepth_le {members : List (List Element × Syntax)} {n : Nat} :
    membersDepth members ≤ n ↔ ∀ m ∈ members, depth m.2 ≤ n := by
  induction members with
  | nil => simp [membersDepth]
  | cons m members ih =>
      have hcons : membersDepth (m :: members) = max (depth m.2) (membersDepth members) := by
        show membersDepth ((m.1, m.2) :: members) = _
        rw [membersDepth]
      rw [hcons, Nat.max_le, ih, List.forall_mem_cons]

/-! ## Lists of strings -/

/-- A slice of strings that is not nil. -/
def strings (l : List String) : Syntax := .array (l.map fun s => .string (quote s))

/-- `json.Unmarshal` into a nil slice of strings. -/
def readStrings (text : List UInt8) : Option (List String) := do
  let t ← parse text
  let s ← Json.setStrings (value t) ⟨[], 0⟩
  return s.toList

theorem value_strings (l : List String) : value (strings l) = .array (l.map .string) := by
  have hitems : itemValues (l.map fun s => .string (quote s)) = l.map .string := by
    induction l with
    | nil => rfl
    | cons s l ih => rw [List.map_cons, itemValues, value, unquote_quote, ih, List.map_cons]
  rw [strings, value, hitems]

theorem depth_strings (l : List String) : depth (strings l) = 1 := by
  have hitems : itemsDepth (l.map fun s => .string (quote s)) = 0 := by
    induction l with
    | nil => rfl
    | cons s l ih => rw [List.map_cons, itemsDepth, ih, depth, Nat.max_self]
  rw [strings, depth, hitems]

/-- A list of strings is read back. -/
theorem readStrings_print (l : List String) : readStrings (print (strings l)) = some l := by
  have hdepth : depth (strings l) ≤ maxNestingDepth := by
    rw [depth_strings]
    decide
  have hset := Json.setStrings_strings l
  unfold readStrings
  rw [parse_print hdepth, Option.bind_eq_bind, Option.bind_some, value_strings]
  rw [Option.map_eq_some_iff] at hset
  obtain ⟨s, hs, hl⟩ := hset
  rw [hs, Option.bind_eq_bind, Option.bind_some, hl]
  rfl

/-! ## Escaping HTML -/

mutual

/-- `appendCompact` with `escape`. -/
def escape : Syntax → Syntax
  | .literal l h => .literal l h
  | .string s => .string (escapeHTML s)
  | .array items => .array (escapeItems items)
  | .object members => .object (escapeMembers members)

/-- The items, each escaped. -/
def escapeItems : List Syntax → List Syntax
  | [] => []
  | t :: items => escape t :: escapeItems items

/-- The members, each escaped with its key. -/
def escapeMembers : List (List Element × Syntax) → List (List Element × Syntax)
  | [] => []
  | (key, t) :: members => (escapeHTML key, escape t) :: escapeMembers members

end

mutual

/-- How many bytes escaping adds. -/
def growthOf : Syntax → Nat
  | .literal _ _ => 0
  | .string s => growth s
  | .array items => itemsGrowth items
  | .object members => membersGrowth members

/-- How many bytes escaping adds to the items. -/
def itemsGrowth : List Syntax → Nat
  | [] => 0
  | t :: items => growthOf t + itemsGrowth items

/-- How many bytes escaping adds to the members and their keys. -/
def membersGrowth : List (List Element × Syntax) → Nat
  | [] => 0
  | (key, t) :: members => growth key + growthOf t + membersGrowth members

end

mutual

/-- What is escaped has the same value. -/
theorem value_escape (t : Syntax) : value (escape t) = value t := by
  match t with
  | .literal l h => rw [escape]
  | .string s => rw [escape, value, value, unquote_escapeHTML]
  | .array items => rw [escape, value, value, itemValues_escape items]
  | .object members => rw [escape, value, value, memberValues_escape members]

theorem itemValues_escape (items : List Syntax) :
    itemValues (escapeItems items) = itemValues items := by
  match items with
  | [] => rw [escapeItems]
  | t :: items => rw [escapeItems, itemValues, itemValues, value_escape t, itemValues_escape items]

theorem memberValues_escape (members : List (List Element × Syntax)) :
    memberValues (escapeMembers members) = memberValues members := by
  match members with
  | [] => rw [escapeMembers]
  | (key, t) :: members =>
      rw [escapeMembers, memberValues, memberValues, unquote_escapeHTML, value_escape t,
        memberValues_escape members]

end

mutual

theorem depth_escape (t : Syntax) : depth (escape t) = depth t := by
  match t with
  | .literal l h => rw [escape]
  | .string s => rw [escape, depth, depth]
  | .array items => rw [escape, depth, depth, itemsDepth_escape items]
  | .object members => rw [escape, depth, depth, membersDepth_escape members]

theorem itemsDepth_escape (items : List Syntax) :
    itemsDepth (escapeItems items) = itemsDepth items := by
  match items with
  | [] => rw [escapeItems]
  | t :: items => rw [escapeItems, itemsDepth, itemsDepth, depth_escape t, itemsDepth_escape items]

theorem membersDepth_escape (members : List (List Element × Syntax)) :
    membersDepth (escapeMembers members) = membersDepth members := by
  match members with
  | [] => rw [escapeMembers]
  | (key, t) :: members =>
      rw [escapeMembers, membersDepth, membersDepth, depth_escape t, membersDepth_escape members]

end

theorem length_printString (s : List Element) :
    (printString s).length = (stringBytes s).length + 2 := by
  unfold printString
  rw [List.length_append, List.length_cons, List.length_singleton]

/-- A member takes its key and its value, and a comma and a colon. -/
theorem length_printMembers (members : List (List Element × Syntax)) :
    (printMembers members).length =
      (members.map fun m => (printString m.1).length + (print m.2).length + 2).sum + 1 := by
  induction members with
  | nil => rfl
  | cons m members ih =>
      show (printMembers ((m.1, m.2) :: members)).length = _
      rw [printMembers, List.map_cons, List.sum_cons]
      simp only [List.length_append, List.length_cons, ih]
      omega

/-- The opening brace stands for the first comma. -/
theorem length_print_object {m : List Element × Syntax}
    {members : List (List Element × Syntax)} :
    (print (.object (m :: members))).length = (printMembers (m :: members)).length := by
  show (print (.object ((m.1, m.2) :: members))).length =
    (printMembers ((m.1, m.2) :: members)).length
  rw [print, printMembers]
  rfl

theorem length_printString_escape (s : List Element) :
    (printString (escapeHTML s)).length = (printString s).length + growth s := by
  rw [length_printString, length_printString, length_escapeHTML]
  omega

mutual

theorem length_print_escape (t : Syntax) :
    (print (escape t)).length = (print t).length + growthOf t := by
  match t with
  | .literal l h => rw [escape, growthOf, Nat.add_zero]
  | .string s => rw [escape, print, print, growthOf, length_printString_escape]
  | .array [] => rw [escape, escapeItems, growthOf, itemsGrowth, Nat.add_zero]
  | .array (t :: items) =>
      have ht := length_print_escape t
      have hitems := length_printItems_escape items
      rw [escape, escapeItems, print, print, growthOf, itemsGrowth]
      simp only [List.length_append, List.length_cons, ht, hitems]
      omega
  | .object [] => rw [escape, escapeMembers, growthOf, membersGrowth, Nat.add_zero]
  | .object ((key, t) :: members) =>
      have ht := length_print_escape t
      have hmembers := length_printMembers_escape members
      rw [escape, escapeMembers, print, print, growthOf, membersGrowth]
      simp only [List.length_append, List.length_cons, length_printString_escape, ht, hmembers]
      omega

theorem length_printItems_escape (items : List Syntax) :
    (printItems (escapeItems items)).length = (printItems items).length + itemsGrowth items := by
  match items with
  | [] => rw [escapeItems, itemsGrowth, Nat.add_zero]
  | t :: items =>
      have ht := length_print_escape t
      have hitems := length_printItems_escape items
      rw [escapeItems, printItems, printItems, itemsGrowth]
      simp only [List.length_append, List.length_cons, ht, hitems]
      omega

theorem length_printMembers_escape (members : List (List Element × Syntax)) :
    (printMembers (escapeMembers members)).length =
      (printMembers members).length + membersGrowth members := by
  match members with
  | [] => rw [escapeMembers, membersGrowth, Nat.add_zero]
  | (key, t) :: members =>
      have ht := length_print_escape t
      have hmembers := length_printMembers_escape members
      rw [escapeMembers, printMembers, printMembers, membersGrowth]
      simp only [List.length_append, List.length_cons, length_printString_escape, ht, hmembers]
      omega

end

end JsonText
