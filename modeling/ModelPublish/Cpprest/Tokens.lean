import ModelPublish.Cpprest.Value

/-!
# The tokens of JSON

`GetNextToken` of `json_parsing.cpp`, as the parser of a string runs it.
-/

namespace Cpprest

inductive JsonError where
  | leftOverCharacterInStream
  | malformedArrayLiteral
  | malformedComment
  | malformedLiteral
  | malformedObjectLiteral
  | malformedNumericLiteral
  | malformedStringLiteral
  | malformedToken
  | mismatchedBrances
  | nesting
  deriving DecidableEq

def JsonError.message : JsonError → String
  | leftOverCharacterInStream => "Left-over characters in stream after parsing a JSON value"
  | malformedArrayLiteral => "Malformed array literal"
  | malformedComment => "Malformed comment"
  | malformedLiteral => "Malformed literal"
  | malformedObjectLiteral => "Malformed object literal"
  | malformedNumericLiteral => "Malformed numeric literal"
  | malformedStringLiteral => "Malformed string literal"
  | malformedToken => "Malformed token"
  | mismatchedBrances => "Mismatched braces"
  | nesting => "Nesting too deep"

/-- The C library: what it takes for white space, and its `double`s. -/
structure CLibrary (D : Type) where
  iswspace : UInt16 → Bool
  /-- `anystod`. -/
  wcstod : WString → D
  /-- `0 - static_cast<double> ( val64 )`. -/
  negated : UInt64 → D
  /-- `-token.double_val`. -/
  neg : D → D
  iswspace_ascii : ∀ ch < 128, iswspace ch = true ↔ ch = 32 ∨ (9 ≤ ch ∧ ch ≤ 13)

/-- `m_position` and `m_currentParsingDepth`. The line and the column are known from what is left. -/
structure Cursor where
  rest : WString
  depth : Nat

/-- `eof<wchar_t> ()`, which a character of a text may be. -/
def eof : UInt16 := 0xFFFF

def peekCharacter : WString → UInt16
  | [] => eof
  | ch :: _ => ch

inductive Kind (D : Type) where
  | eof
  | openBrace
  | closeBrace
  | openBracket
  | closeBracket
  | comma
  | colon
  | stringLiteral (s : Text)
  | numberLiteral (d : D)
  | integerLiteral (i : Integral)
  | booleanLiteral (b : Bool)
  | nullLiteral

/-- A token, with what was left of the text behind its first character. -/
structure Token (D : Type) where
  kind : Kind D
  start : WString

inductive Failure where
  | thrown (error : JsonError) (start : WString)
  /-- The loops went on as often as they were let. -/
  | endless

/-! ### White space and comments -/

variable {D : Type} (lib : CLibrary D)

/-- The first character that is no white space, and what is behind it. -/
def eatWhitespace : WString → UInt16 × WString
  | [] => (eof, [])
  | ch :: rest => if ch ≠ eof ∧ lib.iswspace ch = true then eatWhitespace rest else (ch, rest)

/-- A comment to the end of its line. -/
def lineComment : WString → WString
  | [] => []
  | ch :: rest => if ch ≠ eof ∧ ch ≠ 10 then lineComment rest else rest

/-- A comment to the next `*` with a `/` behind it. -/
def blockComment : WString → Option WString
  | [] => none
  | ch :: rest =>
    if ch = eof then none
    else if ch = 42 then
      if peekCharacter rest = eof then none
      else if peekCharacter rest = 47 then some (rest.drop 1)
      else blockComment rest
    else blockComment rest

def completeComment : WString → Option WString
  | [] => none
  | ch :: rest => if ch = 47 then some (lineComment rest) else if ch = 42 then blockComment rest else none

/-! ### Strings -/

/-- `_hexval`, where `isxdigit` holds. -/
def hexval (ch : UInt16) : Option Nat :=
  if 48 ≤ ch ∧ ch ≤ 57 then some (ch.toNat - 48)
  else if 65 ≤ ch ∧ ch ≤ 70 then some (ch.toNat - 55)
  else if 97 ≤ ch ∧ ch ≤ 102 then some (ch.toNat - 87)
  else none

/-- `handle_unescape_char` for one character behind the backslash. -/
def unescaped (ch : UInt16) : Option UInt16 :=
  if ch = 34 then some 34
  else if ch = 92 then some 92
  else if ch = 47 then some 47
  else if ch = 98 then some 8
  else if ch = 102 then some 12
  else if ch = 114 then some 13
  else if ch = 110 then some 10
  else if ch = 116 then some 9
  else none

/-- `handle_unescape_char` for the four digits behind `\\u`. -/
def decoded (a b c d : UInt16) : Option UInt16 := do
  let bits := (← hexval a) <<< 12 ||| (← hexval b) <<< 8 ||| (← hexval c) <<< 4 ||| (← hexval d)
  some bits.toUInt16

/-- `string_val`, one character on. -/
def Text.copy (s : Text) (ch : UInt16) (plain : mustEscape ch = false) : Text where
  m_string := s.m_string ++ [ch]
  m_has_escape_char := s.m_has_escape_char
  copied escaped := by
    rw [hasEscapeChars, List.any_append, List.any_cons, plain]
    exact (Bool.or_false _).trans (s.copied escaped)

def Text.unescape (s : Text) (ch : UInt16) : Text :=
  ⟨s.m_string ++ [ch], true, fun plain => (Bool.false_ne_true plain.symm).elim⟩

theorem mustEscape_copied {ch : UInt16} (quote : ch ≠ 34) (backslash : ch ≠ 92) (control : ¬ ch < 0x20) :
    mustEscape ch = false := by
  simp only [mustEscape, Bool.or_eq_false_iff, decide_eq_false_iff_not, UInt16.le_iff_toNat_le,
    UInt16.lt_iff_toNat_lt, UInt16.reduceToNat] at control ⊢
  exact ⟨⟨by omega, quote⟩, backslash⟩

/-- `CompleteStringLiteral`, with the text so far. -/
def completeStringLiteral (s : Text) : WString → Option (Text × WString)
  | [] => none
  | ch :: rest =>
    if quote : ch = 34 then some (s, rest)
    else if ch = eof then none
    else if backslash : ch = 92 then
      match rest with
      | [] => none
      | c :: rest =>
        if c = 117 then
          match rest with
          | c1 :: c2 :: c3 :: c4 :: rest =>
            (decoded c1 c2 c3 c4).bind fun c => completeStringLiteral (s.unescape c) rest
          | _ => none
        else (unescaped c).bind fun c => completeStringLiteral (s.unescape c) rest
    else if control : ch < 0x20 then none
    else completeStringLiteral (s.copy ch (mustEscape_copied quote backslash control)) rest

/-! ### Numbers -/

def isDigit (ch : UInt16) : Bool := decide (48 ≤ ch) && decide (ch ≤ 57)

def ullongMax : UInt64 := 0xFFFFFFFFFFFFFFFF

/-- `ParseInt64`: whether all the digits went in, the value so far and what is left. -/
def parseInt64 (value : UInt64) : WString → Bool × UInt64 × WString
  | [] => (true, value, [])
  | ch :: rest =>
    if isDigit ch then
      let next_digit := (ch - 48).toUInt64
      if ullongMax / 10 < value ∨ (value = ullongMax / 10 ∧ ullongMax % 10 < next_digit) then
        (false, value, ch :: rest)
      else parseInt64 (value * 10 + next_digit) rest
    else (true, value, ch :: rest)

/-- The run of digits in front, and what is left. -/
def digits (rest : WString) : WString × WString := (rest.takeWhile isDigit, rest.dropWhile isDigit)

/-- The exponent, behind the `e`. -/
def exponent (rest : WString) : Option (WString × WString) :=
  let sign := if peekCharacter rest = 43 ∨ peekCharacter rest = 45 then rest.take 1 else []
  let rest := rest.drop sign.length
  if isDigit (peekCharacter rest) then some (sign ++ (digits rest).1, (digits rest).2) else none

/-- The characters of a number behind its first digits, as `anystod` is given them. -/
def fraction (decimal : Bool) : WString → Option (WString × WString)
  | [] => some ([], [])
  | ch :: rest =>
    if ch = eof then some ([], ch :: rest)
    else if isDigit ch then (fraction decimal rest).map fun (buf, rest) => (ch :: buf, rest)
    else if ch = 46 then
      if decimal ∨ ¬ isDigit (peekCharacter rest) then none
      else (fraction true rest).map fun (buf, rest) => (ch :: buf, rest)
    else if ch = 69 ∨ ch = 101 then (exponent rest).map fun (buf, rest) => (ch :: buf, rest)
    else some ([], ch :: rest)

/-- `uint64_val`. -/
def Integral.ofUInt64 (val64 : UInt64) : Integral where
  value := val64.toNat
  lower := by omega
  upper := by
    have := val64.toNat_lt
    omega

/-- `int64_val`, for a number with a sign in front. -/
def Integral.negated (val64 : UInt64) (fits : ¬ 0x8000000000000000 < val64) : Integral where
  value := -val64.toNat
  lower := by
    simp only [UInt64.lt_iff_toNat_lt, UInt64.reduceToNat] at fits
    omega
  upper := by omega

/-- `CompleteNumberLiteral`, behind its first character. -/
def completeNumberLiteral (first : UInt16) (rest : WString) : Option (Kind D × WString) :=
  let minus_sign := first = 45
  let (first, rest) := if minus_sign then (peekCharacter rest, rest.drop 1) else (first, rest)
  if ¬ isDigit first then none
  else if first = 48 ∧ peekCharacter rest = 48 then none
  else
    let (complete, val64, rest) := parseInt64 (first - 48).toUInt64 rest
    let ch := peekCharacter rest
    if complete ∧ ch ≠ 46 ∧ ch ≠ 69 ∧ ch ≠ 101 then
      if minus_sign then
        if fits : 0x8000000000000000 < val64 then some (.numberLiteral (lib.negated val64), rest)
        else some (.integerLiteral (.negated val64 fits), rest)
      else some (.integerLiteral (.ofUInt64 val64), rest)
    else (fraction false rest).map fun (buf, rest) =>
      let double_val := lib.wcstod (decimal val64.toNat ++ buf)
      (.numberLiteral (if minus_sign then lib.neg double_val else double_val), rest)

/-! ### The next token -/

/-- `CompleteKeywordTrue`, `CompleteKeywordFalse` and `CompleteKeywordNull`, behind their first letters. -/
def completeKeyword (letters : WString) (kind : Kind D) (rest : WString) : Option (Kind D × WString) :=
  if rest.take letters.length = letters then some (kind, rest.drop letters.length) else none

def completeKeywordTrue : WString → Option (Kind D × WString) :=
  completeKeyword (literal "rue") (.booleanLiteral true)

def completeKeywordFalse : WString → Option (Kind D × WString) :=
  completeKeyword (literal "alse") (.booleanLiteral false)

def completeKeywordNull : WString → Option (Kind D × WString) := completeKeyword (literal "ull") .nullLiteral

def maxParsingDepth : Nat := 128

/-- A token that its first character does not make. -/
def complete (error : JsonError) (rest : WString) (depth : Nat) :
    Option (Kind D × WString) → Except Failure (Token D × Cursor)
  | none => .error (.thrown error rest)
  | some (kind, behind) => .ok (⟨kind, rest⟩, ⟨behind, depth⟩)

/-- The `switch` of `GetNextToken`, but for comments. -/
def tokenFrom (ch : UInt16) (rest : WString) (depth : Nat) : Except Failure (Token D × Cursor) :=
  if ch = eof then .ok (⟨.eof, rest⟩, ⟨rest, depth⟩)
  else if ch = 123 ∨ ch = 91 then
    if maxParsingDepth < depth + 1 then .error (.thrown .nesting rest)
    else .ok (⟨if ch = 123 then .openBrace else .openBracket, rest⟩, ⟨rest, depth + 1⟩)
  else if ch = 125 ∨ ch = 93 then
    if depth = 0 then .error (.thrown .mismatchedBrances rest)
    else .ok (⟨if ch = 125 then .closeBrace else .closeBracket, rest⟩, ⟨rest, depth - 1⟩)
  else if ch = 44 then .ok (⟨.comma, rest⟩, ⟨rest, depth⟩)
  else if ch = 58 then .ok (⟨.colon, rest⟩, ⟨rest, depth⟩)
  else if ch = 116 then complete .malformedLiteral rest depth (completeKeywordTrue rest)
  else if ch = 102 then complete .malformedLiteral rest depth (completeKeywordFalse rest)
  else if ch = 110 then complete .malformedLiteral rest depth (completeKeywordNull rest)
  else if ch = 34 then
    complete .malformedStringLiteral rest depth
      ((completeStringLiteral (.of []) rest).map fun (s, rest) => (.stringLiteral s, rest))
  else if ch = 45 ∨ isDigit ch then
    complete .malformedNumericLiteral rest depth (completeNumberLiteral lib ch rest)
  else .error (.thrown .malformedToken rest)

/-- `GetNextToken`, which starts again behind a comment. -/
def nextToken : Nat → Cursor → Except Failure (Token D × Cursor)
  | rounds, cursor =>
    let found := eatWhitespace lib cursor.rest
    if found.1 = 47 then
      match completeComment found.2, rounds with
      | none, _ => .error (.thrown .malformedComment found.2)
      | some _, 0 => .error .endless
      | some behind, rounds + 1 => nextToken rounds ⟨behind, cursor.depth⟩
    else tokenFrom lib found.1 found.2 cursor.depth

/-- A comment takes two characters, which bounds the rounds. -/
def getNextToken (cursor : Cursor) : Except Failure (Token D × Cursor) :=
  nextToken lib cursor.rest.length cursor

end Cpprest
