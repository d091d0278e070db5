import ModelPublish.Cpprest.Parser

/-!
# Tokens that were written

What `GetNextToken` makes of the texts that `format` writes: of the characters between values, of the
names of constants, of strings and of whole numbers.
-/

namespace Cpprest

variable {D : Type} (lib : CLibrary D)

/-! ### Single characters -/

/-- No white space of the first 128 characters. -/
theorem eatWhitespace_cons {ch : UInt16} (small : ch < 128) (control : 32 < ch) (rest : WString) :
    eatWhitespace lib (ch :: rest) = (ch, rest) := by
  rw [eatWhitespace, if_neg]
  rintro ⟨-, white⟩
  rcases (lib.iswspace_ascii ch small).mp white with rfl | ⟨-, below⟩
  · exact absurd control (UInt16.lt_irrefl 32)
  · exact absurd (UInt16.lt_of_lt_of_le control below) (by decide)

theorem getNextToken_cons {ch : UInt16} (small : ch < 128) (control : 32 < ch) (comment : ch ≠ 47)
    (rest : WString) (depth : Nat) : getNextToken lib ⟨ch :: rest, depth⟩ = tokenFrom lib ch rest depth := by
  have found : eatWhitespace lib (ch :: rest) = (ch, rest) := eatWhitespace_cons lib small control rest
  rw [getNextToken, nextToken.eq_def]
  simp only [found, if_neg comment]

variable (depth : Nat) (rest : WString)

theorem getNextToken_nil : getNextToken lib ⟨[], depth⟩ = .ok (⟨.eof, []⟩, ⟨[], depth⟩) := by
  rw [getNextToken, nextToken.eq_def]
  rfl

theorem getNextToken_openBracket (room : depth < 128) :
    getNextToken lib ⟨91 :: rest, depth⟩ = .ok (⟨.openBracket, rest⟩, ⟨rest, depth + 1⟩) := by
  rw [getNextToken_cons lib (by decide) (by decide) (by decide)]
  exact if_neg (Nat.not_lt.mpr room)

theorem getNextToken_openBrace (room : depth < 128) :
    getNextToken lib ⟨123 :: rest, depth⟩ = .ok (⟨.openBrace, rest⟩, ⟨rest, depth + 1⟩) := by
  rw [getNextToken_cons lib (by decide) (by decide) (by decide)]
  exact if_neg (Nat.not_lt.mpr room)

theorem getNextToken_nesting {ch : UInt16} (opens : ch = 123 ∨ ch = 91) (full : 128 ≤ depth) :
    getNextToken lib ⟨ch :: rest, depth⟩ = .error (.thrown .nesting rest) := by
  have tooDeep : maxParsingDepth < depth + 1 := by
    rw [maxParsingDepth]
    omega
  rcases opens with rfl | rfl
  · rw [getNextToken_cons lib (by decide) (by decide) (by decide)]
    exact if_pos tooDeep
  · rw [getNextToken_cons lib (by decide) (by decide) (by decide)]
    exact if_pos tooDeep

theorem getNextToken_closeBracket :
    getNextToken lib ⟨93 :: rest, depth + 1⟩ = .ok (⟨.closeBracket, rest⟩, ⟨rest, depth⟩) := by
  rw [getNextToken_cons lib (by decide) (by decide) (by decide)]
  rfl

theorem getNextToken_closeBrace :
    getNextToken lib ⟨125 :: rest, depth + 1⟩ = .ok (⟨.closeBrace, rest⟩, ⟨rest, depth⟩) := by
  rw [getNextToken_cons lib (by decide) (by decide) (by decide)]
  rfl

theorem getNextToken_comma :
    getNextToken lib ⟨44 :: rest, depth⟩ = .ok (⟨.comma, rest⟩, ⟨rest, depth⟩) := by
  rw [getNextToken_cons lib (by decide) (by decide) (by decide)]
  rfl

theorem getNextToken_colon :
    getNextToken lib ⟨58 :: rest, depth⟩ = .ok (⟨.colon, rest⟩, ⟨rest, depth⟩) := by
  rw [getNextToken_cons lib (by decide) (by decide) (by decide)]
  rfl

/-! ### Constants -/

theorem completeKeyword_append (letters : WString) (kind : Kind D) :
    completeKeyword letters kind (letters ++ rest) = some (kind, rest) := by
  rw [completeKeyword, List.take_left, List.drop_left, if_pos rfl]

theorem getNextToken_null : ∃ start,
    getNextToken lib ⟨literal "null" ++ rest, depth⟩ = .ok (⟨.nullLiteral, start⟩, ⟨rest, depth⟩) := by
  refine ⟨literal "ull" ++ rest, ?_⟩
  rw [show literal "null" ++ rest = 110 :: (literal "ull" ++ rest) from rfl,
    getNextToken_cons lib (by decide) (by decide) (by decide)]
  exact congrArg (complete .malformedLiteral _ depth) (completeKeyword_append rest (literal "ull") .nullLiteral)

theorem getNextToken_boolean (b : Bool) : ∃ start,
    getNextToken lib ⟨literal (if b then "true" else "false") ++ rest, depth⟩ =
      .ok (⟨.booleanLiteral b, start⟩, ⟨rest, depth⟩) := by
  cases b with
  | true =>
    refine ⟨literal "rue" ++ rest, ?_⟩
    rw [if_pos rfl, show literal "true" ++ rest = 116 :: (literal "rue" ++ rest) from rfl,
      getNextToken_cons lib (by decide) (by decide) (by decide)]
    exact congrArg (complete .malformedLiteral _ depth)
      (completeKeyword_append rest (literal "rue") (.booleanLiteral true))
  | false =>
    refine ⟨literal "alse" ++ rest, ?_⟩
    rw [if_neg Bool.false_ne_true, show literal "false" ++ rest = 102 :: (literal "alse" ++ rest) from rfl,
      getNextToken_cons lib (by decide) (by decide) (by decide)]
    exact congrArg (complete .malformedLiteral _ depth)
      (completeKeyword_append rest (literal "alse") (.booleanLiteral false))

/-! ### Strings -/

@[ext]
theorem Text.ext {s t : Text} (string : s.m_string = t.m_string)
    (escape : s.m_has_escape_char = t.m_has_escape_char) : s = t := by
  cases s
  cases t
  cases string
  cases escape
  rfl

variable (s : Text)

theorem decoded_control (n : Fin 32) :
    decoded 48 48 (intToHex ((n.val.toUInt16 &&& 0xF0) >>> 4)) (intToHex (n.val.toUInt16 &&& 0x0F)) =
      some n.val.toUInt16 := by
  revert n
  decide +kernel

theorem completeStringLiteral_backslash {c u : UInt16} (pair : unescaped c = some u) :
    completeStringLiteral s (92 :: c :: rest) = completeStringLiteral (s.unescape u) rest := by
  have plain : c ≠ 117 := by
    rintro rfl
    cases pair
  rw [completeStringLiteral.eq_def]
  simp only [show ¬ (92 : UInt16) = 34 by decide, show ¬ (92 : UInt16) = eof by decide, dif_pos, dif_neg,
    if_neg plain, pair, Option.bind_some, not_false_eq_true, if_false]

theorem completeStringLiteral_unicode {a b c d u : UInt16} (code : decoded a b c d = some u) :
    completeStringLiteral s (92 :: 117 :: a :: b :: c :: d :: rest) =
      completeStringLiteral (s.unescape u) rest := by
  rw [completeStringLiteral.eq_def]
  simp only [show ¬ (92 : UInt16) = 34 by decide, show ¬ (92 : UInt16) = eof by decide, dif_pos, dif_neg,
    code, Option.bind_some, not_false_eq_true, if_false, if_true]

theorem completeStringLiteral_escape {ch : UInt16} (must : mustEscape ch = true) :
    completeStringLiteral s (escapeChar ch ++ rest) = completeStringLiteral (s.unescape ch) rest := by
  rw [escapeChar]
  split
  · rename_i h
    subst h
    exact completeStringLiteral_backslash rest s rfl
  split
  · rename_i h
    subst h
    exact completeStringLiteral_backslash rest s rfl
  split
  · rename_i h
    subst h
    exact completeStringLiteral_backslash rest s rfl
  split
  · rename_i h
    subst h
    exact completeStringLiteral_backslash rest s rfl
  split
  · rename_i h
    subst h
    exact completeStringLiteral_backslash rest s rfl
  split
  · rename_i h
    subst h
    exact completeStringLiteral_backslash rest s rfl
  split
  · rename_i h
    subst h
    exact completeStringLiteral_backslash rest s rfl
  split
  · rename_i control
    have code := decoded_control ⟨ch.toNat, Nat.lt_succ_of_le (UInt16.le_iff_toNat_le.mp control)⟩
    rw [show ch.toNat.toUInt16 = ch from UInt16.ofNat_toNat] at code
    exact completeStringLiteral_unicode rest s code
  · simp_all [mustEscape]

theorem completeStringLiteral_copy {ch : UInt16} (plain : mustEscape ch = false) (known : ch ≠ eof) :
    completeStringLiteral s (ch :: rest) = completeStringLiteral (s.copy ch plain) rest := by
  have kept := plain
  simp only [mustEscape, Bool.or_eq_false_iff, decide_eq_false_iff_not] at kept
  have control : ¬ ch < 0x20 := by
    have := kept.1.1
    simp only [UInt16.le_iff_toNat_le, UInt16.lt_iff_toNat_lt, UInt16.reduceToNat] at this ⊢
    omega
  rw [completeStringLiteral.eq_def]
  simp only [dif_neg kept.1.2, dif_neg kept.2, dif_neg control, if_neg known]

theorem completeStringLiteral_quote : completeStringLiteral s (34 :: rest) = some (s, rest) := by
  rw [completeStringLiteral.eq_def]
  rfl

/-- The characters of a text up to the quote, whether it is written the one way or the other. -/
theorem completeStringLiteral_appendEscapeString {string : WString} (known : eof ∉ string) :
    ∃ t, completeStringLiteral s (appendEscapeString string ++ 34 :: rest) = some (t, rest) ∧
      t.m_string = s.m_string ++ string ∧
      t.m_has_escape_char = (s.m_has_escape_char || hasEscapeChars string) := by
  induction string generalizing s with
  | nil => exact ⟨s, completeStringLiteral_quote rest s, (List.append_nil _).symm, (Bool.or_false _).symm⟩
  | cons ch string ih =>
    obtain ⟨first, known⟩ := not_or.mp (mt List.mem_cons.mpr known)
    rw [appendEscapeString, List.flatMap_cons, List.append_assoc]
    rcases must : mustEscape ch with _ | _
    · obtain ⟨t, read, text, flag⟩ := ih (s.copy ch must) known
      rw [escapeChar_plain must, List.singleton_append, completeStringLiteral_copy _ _ must (Ne.symm first)]
      refine ⟨t, read, text.trans (List.append_assoc _ _ _), flag.trans ?_⟩
      rw [hasEscapeChars_cons, must, Bool.false_or]
      rfl
    · obtain ⟨t, read, text, flag⟩ := ih (s.unescape ch) known
      rw [completeStringLiteral_escape _ _ must]
      refine ⟨t, read, text.trans (List.append_assoc _ _ _), flag.trans ?_⟩
      rw [hasEscapeChars_cons, must, Bool.true_or, Bool.or_true]
      exact Bool.true_or _

theorem getNextToken_string {string : WString} (known : eof ∉ string) : ∃ start,
    getNextToken lib ⟨formatString string ++ rest, depth⟩ =
      .ok (⟨.stringLiteral (.of string), start⟩, ⟨rest, depth⟩) := by
  obtain ⟨t, read, text, flag⟩ := completeStringLiteral_appendEscapeString rest (.of []) known
  obtain rfl : t = .of string := Text.ext text flag
  refine ⟨appendEscapeString string ++ 34 :: rest, ?_⟩
  rw [formatString, List.cons_append, List.append_assoc, List.singleton_append,
    getNextToken_cons lib (by decide) (by decide) (by decide)]
  exact congrArg (fun found => complete .malformedStringLiteral _ depth
    (Option.map (fun text => (Kind.stringLiteral text.1, text.2)) found)) read

/-! ### Whole numbers -/

/-- What may stand behind a number without changing it. -/
def Stops (rest : WString) : Prop :=
  let ch := peekCharacter rest
  isDigit ch = false ∧ ch ≠ 46 ∧ ch ≠ 69 ∧ ch ≠ 101

theorem isDigit_iff (ch : UInt16) : isDigit ch = true ↔ 48 ≤ ch.toNat ∧ ch.toNat ≤ 57 := by
  simp only [isDigit, Bool.and_eq_true, decide_eq_true_eq, UInt16.le_iff_toNat_le, UInt16.reduceToNat]

/-- The character of a digit. -/
def digitUnit (n : Nat) : UInt16 := (48 + n).toUInt16

theorem toNat_digitUnit {n : Nat} (small : n < 10) : (digitUnit n).toNat = 48 + n := by
  simp only [digitUnit, Nat.toUInt16_eq, UInt16.toNat_ofNat']
  omega

theorem isDigit_digitUnit {n : Nat} (small : n < 10) : isDigit (digitUnit n) = true := by
  rw [isDigit_iff, toNat_digitUnit small]
  omega

theorem toNat_digitUnit_sub {n : Nat} (small : n < 10) : (digitUnit n - 48).toUInt64.toNat = n := by
  have above : (48 : UInt16) ≤ digitUnit n := by
    rw [UInt16.le_iff_toNat_le, toNat_digitUnit small]
    exact Nat.le_add_right _ _
  rw [UInt16.toNat_toUInt64, UInt16.toNat_sub_of_le _ _ above, toNat_digitUnit small]
  exact Nat.add_sub_cancel_left 48 n

theorem decimal_digit {n : Nat} (small : n < 10) : decimal n = [digitUnit n] := by
  rw [decimal, Nat.toDigits_of_lt_base small, List.map_singleton, Nat.toNat_digitChar_of_lt_ten small]
  rfl

theorem decimal_step {n : Nat} (long : 10 ≤ n) : decimal n = decimal (n / 10) ++ [digitUnit (n % 10)] := by
  have digit : n % 10 < 10 := Nat.mod_lt _ (by decide)
  have split := Nat.toDigits_append_toDigits (b := 10) (n := n / 10) (d := n % 10) (by decide)
    (by omega) digit
  rw [show 10 * (n / 10) + n % 10 = n by omega] at split
  rw [decimal, ← split, List.map_append]
  exact congrArg (decimal (n / 10) ++ ·) (decimal_digit digit)

theorem parseInt64_stop {value : UInt64} {rest : WString} (stops : isDigit (peekCharacter rest) = false) :
    parseInt64 value rest = (true, value, rest) := by
  cases rest with
  | nil => rfl
  | cons ch rest => exact if_neg (ne_true_of_eq_false stops)

/-- A digit more, where the value still has room for it. -/
theorem parseInt64_digit {n : Nat} (fits : n < 2 ^ 64) (long : 10 ≤ n) (more : WString) :
    parseInt64 (n / 10).toUInt64 (digitUnit (n % 10) :: more) = parseInt64 n.toUInt64 more := by
  have digit : n % 10 < 10 := Nat.mod_lt _ (by decide)
  have small : (n / 10).toUInt64.toNat = n / 10 := by
    simp only [Nat.toUInt64_eq, UInt64.toNat_ofNat']
    omega
  have room : ¬ (ullongMax / 10 < (n / 10).toUInt64 ∨ ((n / 10).toUInt64 = ullongMax / 10 ∧
      ullongMax % 10 < (digitUnit (n % 10) - 48).toUInt64)) := by
    rw [UInt64.lt_iff_toNat_lt, UInt64.lt_iff_toNat_lt, ← UInt64.toNat_inj, toNat_digitUnit_sub digit, small,
      show (ullongMax / 10).toNat = 1844674407370955161 from rfl, show (ullongMax % 10).toNat = 5 from rfl]
    omega
  have next : (n / 10).toUInt64 * 10 + (digitUnit (n % 10) - 48).toUInt64 = n.toUInt64 := by
    rw [← UInt64.toNat_inj, UInt64.toNat_add, UInt64.toNat_mul, toNat_digitUnit_sub digit, small]
    simp only [Nat.toUInt64_eq, UInt64.toNat_ofNat', UInt64.reduceToNat]
    omega
  rw [parseInt64, if_pos (isDigit_digitUnit digit)]
  simp only [if_neg room, next]

/-- The digits of a number: the first one, and those behind it. -/
theorem parseInt64_decimal (n : Nat) (fits : n < 2 ^ 64) : ∃ d < 10, ∃ tail,
    decimal n = digitUnit d :: tail ∧ (d = 0 → n = 0) ∧
      ∀ more, parseInt64 (digitUnit d - 48).toUInt64 (tail ++ more) = parseInt64 n.toUInt64 more := by
  induction n using Nat.strong_induction_on with
  | _ n ih =>
    by_cases short : n < 10
    · refine ⟨n, short, [], decimal_digit short, id, fun more => ?_⟩
      have value : (digitUnit n - 48).toUInt64 = n.toUInt64 := by
        rw [← UInt64.toNat_inj, toNat_digitUnit_sub short]
        simp only [Nat.toUInt64_eq, UInt64.toNat_ofNat']
        omega
      rw [value, List.nil_append]
    · obtain ⟨d, digit, tail, front, zero, read⟩ := ih (n / 10) (by omega) (by omega)
      refine ⟨d, digit, tail ++ [digitUnit (n % 10)], ?_, fun isZero => ?_, fun more => ?_⟩
      · rw [decimal_step (by omega), front, List.cons_append]
      · have := zero isZero
        omega
      · rw [List.append_assoc, List.singleton_append, read, parseInt64_digit fits (by omega)]

theorem decimal_zero : decimal 0 = [48] := rfl

/-- All the digits of a number, behind which it stops. -/
theorem completeDigits {n : Nat} (fits : n < 2 ^ 64) {rest : WString} (stops : Stops rest) :
    ∃ d < 10, ∃ tail, decimal n = digitUnit d :: tail ∧
      ¬ (digitUnit d = 48 ∧ peekCharacter (tail ++ rest) = 48) ∧
        parseInt64 (digitUnit d - 48).toUInt64 (tail ++ rest) = (true, n.toUInt64, rest) := by
  obtain ⟨d, digit, tail, front, zero, read⟩ := parseInt64_decimal n fits
  refine ⟨d, digit, tail, front, ?_, (read rest).trans (parseInt64_stop stops.1)⟩
  rintro ⟨first, second⟩
  have isZero : d = 0 := by
    have := congrArg UInt16.toNat first
    rw [toNat_digitUnit digit] at this
    exact Nat.add_left_cancel this
  obtain rfl := zero isZero
  obtain ⟨-, rfl⟩ := List.cons.inj (decimal_zero.symm.trans front)
  rw [List.nil_append] at second
  have := stops.1
  rw [second] at this
  cases this

theorem tokenFrom_number {ch : UInt16} (starts : ch = 45 ∨ isDigit ch = true) :
    tokenFrom lib ch rest depth =
      complete .malformedNumericLiteral rest depth (completeNumberLiteral lib ch rest) := by
  have range : 45 ≤ ch.toNat ∧ ch.toNat ≤ 57 := by
    rcases starts with rfl | digit
    · decide
    · have := (isDigit_iff ch).mp digit
      omega
  have other {k : UInt16} (far : k.toNat < 45 ∨ 57 < k.toNat) : ch ≠ k := by
    rintro rfl
    omega
  rw [tokenFrom, if_neg (other (by decide)), if_neg (not_or.mpr ⟨other (by decide), other (by decide)⟩),
    if_neg (not_or.mpr ⟨other (by decide), other (by decide)⟩), if_neg (other (by decide)),
    if_neg (other (by decide)), if_neg (other (by decide)), if_neg (other (by decide)),
    if_neg (other (by decide)), if_neg (other (by decide)), if_pos starts]

theorem completeNumberLiteral_positive {n : Nat} {d : UInt16} {tail : WString} (digit : isDigit d = true)
    (zeros : ¬ (d = 48 ∧ peekCharacter (tail ++ rest) = 48)) (stops : Stops rest)
    (read : parseInt64 (d - 48).toUInt64 (tail ++ rest) = (true, n.toUInt64, rest)) :
    completeNumberLiteral lib d (tail ++ rest) = some (.integerLiteral (.ofUInt64 n.toUInt64), rest) := by
  have unsigned : d ≠ 45 := by
    rintro rfl
    cases digit
  rw [completeNumberLiteral]
  simp only [if_neg unsigned, digit, not_true, if_false, zeros, read, stops.2.1, stops.2.2.1, stops.2.2.2,
    ne_eq, not_false_eq_true, and_self, if_true]

theorem completeNumberLiteral_negative {n : Nat} {d : UInt16} {tail : WString} (digit : isDigit d = true)
    (zeros : ¬ (d = 48 ∧ peekCharacter (tail ++ rest) = 48)) (stops : Stops rest)
    (read : parseInt64 (d - 48).toUInt64 (tail ++ rest) = (true, n.toUInt64, rest))
    (fits : ¬ 0x8000000000000000 < n.toUInt64) :
    completeNumberLiteral lib 45 (d :: (tail ++ rest)) =
      some (.integerLiteral (.negated n.toUInt64 fits), rest) := by
  rw [completeNumberLiteral]
  simp only [if_true, peekCharacter, List.drop_one, List.tail_cons, digit, not_true, if_false, read,
    dif_neg fits]
  rw [if_neg (by simpa only [peekCharacter] using zeros)]
  have behind := stops.2
  simp only [peekCharacter] at behind
  simp only [behind.1, behind.2.1, behind.2.2, ne_eq, not_false_eq_true, and_self, if_true]

@[ext]
theorem Integral.ext {i j : Integral} (value : i.value = j.value) : i = j := by
  cases i
  cases j
  cases value
  rfl

theorem getNextToken_integral (i : Integral) (stops : Stops rest) : ∃ start,
    getNextToken lib ⟨i.format ++ rest, depth⟩ = .ok (⟨.integerLiteral i, start⟩, ⟨rest, depth⟩) := by
  have lower := i.lower
  have upper := i.upper
  have fits : i.value.natAbs < 2 ^ 64 := by omega
  have value : i.value.natAbs.toUInt64.toNat = i.value.natAbs := by
    simp only [Nat.toUInt64_eq, UInt64.toNat_ofNat']
    omega
  obtain ⟨d, digit, tail, front, zeros, read⟩ := completeDigits fits stops
  have isDigit := isDigit_digitUnit digit
  by_cases negative : i.value < 0
  · have small : ¬ 0x8000000000000000 < i.value.natAbs.toUInt64 := by
      simp only [UInt64.lt_iff_toNat_lt, value, UInt64.reduceToNat]
      omega
    have same : Integral.negated i.value.natAbs.toUInt64 small = i :=
      Integral.ext (by simp only [Integral.negated, value]; omega)
    have literal := completeNumberLiteral_negative lib rest isDigit zeros stops read small
    refine ⟨digitUnit d :: (tail ++ rest), ?_⟩
    rw [Integral.format, if_pos negative, front, List.append_assoc, List.singleton_append, List.cons_append,
      getNextToken_cons lib (by decide) (by decide) (by decide),
      tokenFrom_number lib depth _ (.inl rfl), literal, same]
    rfl
  · have same : Integral.ofUInt64 i.value.natAbs.toUInt64 = i :=
      Integral.ext (by simp only [Integral.ofUInt64, value]; omega)
    have literal := completeNumberLiteral_positive lib rest isDigit zeros stops read
    have range := (isDigit_iff _).mp isDigit
    refine ⟨tail ++ rest, ?_⟩
    rw [Integral.format, if_neg negative, List.nil_append, front, List.cons_append,
      getNextToken_cons lib (UInt16.lt_iff_toNat_lt.mpr (Nat.lt_of_le_of_lt range.2 (by decide)))
        (UInt16.lt_iff_toNat_lt.mpr (Nat.lt_of_lt_of_le (by decide) range.1)) ?_,
      tokenFrom_number lib depth _ (.inr isDigit), literal, same]
    · rfl
    · intro comment
      rw [comment] at range
      exact absurd range.1 (by decide)

end Cpprest
