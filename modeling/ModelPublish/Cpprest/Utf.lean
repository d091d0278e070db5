import Mathlib

/-!
# UTF-8 and UTF-16

`utf8_to_utf16` and `utf16_to_utf8` of `asyncrt_utils.cpp`. Each goes over its source twice: once
to count what it will write and to throw, and once more to write without any check.
`utf8ToUtf16_utf16ToUtf8` shows that the bytes of a text are read back as the text.
-/

namespace Cpprest

/-- `wstring`. -/
abbrev WString : Type := List UInt16

/-- What `std::range_error` is thrown with. -/
inductive RangeError where
  | neverStarts
  | missingBytes
  | missingLeadingByte
  | invalidCodePoint
  | missingLowSurrogate
  | invalidLowSurrogate
  deriving DecidableEq

/-- What a conversion comes to. -/
inductive Converted (α : Type) where
  | done (dest : List α)
  | thrown (error : RangeError)
  /-- A read behind the source, or a write behind the destination. -/
  | undefined

/-- What is written into a destination of `destSize` zeros, unless the source ended too soon. -/
def fill {α : Type} (zero : α) (destSize : Nat) : Option (List α) → Converted α
  | none => .undefined
  | some written =>
    if written.length ≤ destSize then .done (written ++ List.replicate (destSize - written.length) zero)
    else .undefined

/-! ### From UTF-16 -/

def isHighSurrogate (ch : UInt16) : Prop := 0xD800 ≤ ch ∧ ch ≤ 0xDBFF

def isLowSurrogate (ch : UInt16) : Prop := 0xDC00 ≤ ch ∧ ch ≤ 0xDFFF

instance decidableIsHighSurrogate (ch : UInt16) : Decidable (isHighSurrogate ch) :=
  inferInstanceAs (Decidable (_ ∧ _))

instance decidableIsLowSurrogate (ch : UInt16) : Decidable (isLowSurrogate ch) :=
  inferInstanceAs (Decidable (_ ∧ _))

/-- From `destSize` on. -/
def countUtf16ToUtf8 : WString → Nat → Except RangeError Nat
  | [], destSize => .ok destSize
  | ch :: rest, destSize =>
    if ch ≤ 0x7FF then countUtf16ToUtf8 rest (if 0x7F < ch then destSize + 1 else destSize)
    else if isHighSurrogate ch then
      match rest with
      | [] => .error .missingLowSurrogate
      | lowSurrogate :: rest =>
        if isLowSurrogate lowSurrogate then countUtf16ToUtf8 rest (destSize + 2)
        else .error .invalidLowSurrogate
    else countUtf16ToUtf8 rest (destSize + 2)

/-- `( src & LOW_6BITS ) | BIT8`. -/
def trailing (bits : Nat) : UInt8 := (bits &&& 0x3F ||| 0x80).toUInt8

/-- The code point of a pair. -/
def fromPair (highSurrogate lowSurrogate : UInt16) : Nat :=
  ((highSurrogate.toNat - 0xD800) <<< 10 ||| (lowSurrogate.toNat - 0xDC00)) + 0x10000

def writeUtf8 : WString → Option (List UInt8)
  | [] => some []
  | src :: rest =>
    let n := src.toNat
    if src ≤ 0x7FF then
      if src ≤ 0x7F then (writeUtf8 rest).map ([src.toUInt8] ++ ·)
      else (writeUtf8 rest).map ([(n >>> 6 ||| 0xC0).toUInt8, trailing n] ++ ·)
    else if isHighSurrogate src then
      match rest with
      | [] => none
      | lowSurrogate :: rest =>
        let codePoint := fromPair src lowSurrogate
        (writeUtf8 rest).map ([(codePoint >>> 18 ||| 0xF0).toUInt8, trailing (codePoint >>> 12),
          trailing (codePoint >>> 6), trailing codePoint] ++ ·)
    else (writeUtf8 rest).map ([(n >>> 12 ||| 0xE0).toUInt8, trailing (n >>> 6), trailing n] ++ ·)

def utf16ToUtf8 (w : WString) : Converted UInt8 :=
  match countUtf16ToUtf8 w w.length with
  | .error error => .thrown error
  | .ok destSize => fill 0 destSize (writeUtf8 w)

/-! ### From UTF-8 -/

/-- The code point in a character of four bytes. -/
def fromFour (c c2 c3 c4 : UInt8) : Nat :=
  (c.toNat &&& 0x7) <<< 18 ||| (c2.toNat &&& 0x3F) <<< 12 ||| (c3.toNat &&& 0x3F) <<< 6 |||
    (c4.toNat &&& 0x3F)

/-- From `result` on, which is never less than the bytes that are left. -/
def countUtf8ToUtf16 : List UInt8 → Nat → Except RangeError Nat
  | [], result => .ok result
  | c :: rest, result =>
    if c &&& 0x80 = 0 then countUtf8ToUtf16 rest result
    else if c &&& 0x40 = 0 then .error .neverStarts
    else if c &&& 0x20 = 0 then
      match rest with
      | [] => .error .missingBytes
      | c2 :: rest =>
        if c2 &&& 0xC0 = 0x80 then countUtf8ToUtf16 rest (result - 1) else .error .missingLeadingByte
    else if c &&& 0x10 = 0 then
      match rest with
      | c2 :: c3 :: rest =>
        if (c2 ||| c3) &&& 0xC0 = 0x80 then countUtf8ToUtf16 rest (result - 2)
        else .error .missingLeadingByte
      | _ => .error .missingBytes
    else if c &&& 0x8 = 0 then
      match rest with
      | c2 :: c3 :: c4 :: rest =>
        if (c2 ||| c3 ||| c4) &&& 0xC0 = 0x80 then
          countUtf8ToUtf16 rest (result - if 0x10000 ≤ fromFour c c2 c3 c4 then 2 else 3)
        else .error .missingLeadingByte
      | _ => .error .missingBytes
    else .error .invalidCodePoint

/-- The unit of a character of two bytes, and of three. -/
def fromTwo (c c2 : UInt8) : UInt16 := ((c.toNat &&& 0x1F) <<< 6 ||| (c2.toNat &&& 0x3F)).toUInt16

def fromThree (c c2 c3 : UInt8) : UInt16 :=
  ((c.toNat &&& 0xF) <<< 12 ||| (c2.toNat &&& 0x3F) <<< 6 ||| (c3.toNat &&& 0x3F)).toUInt16

/-- The units of a code point. -/
def toUnits (codePoint : Nat) : WString :=
  if 0x10000 ≤ codePoint then
    [((codePoint - 0x10000) >>> 10 ||| 0xD800).toUInt16,
      ((codePoint - 0x10000) &&& 0x3FF ||| 0xDC00).toUInt16]
  else [codePoint.toUInt16]

def writeUtf16 : List UInt8 → Option WString
  | [] => some []
  | src :: rest =>
    if src &&& 0xF0 = 0xF0 then
      match rest with
      | c2 :: c3 :: c4 :: rest => (writeUtf16 rest).map (toUnits (fromFour src c2 c3 c4) ++ ·)
      | _ => none
    else if src &&& 0xF0 = 0xE0 then
      match rest with
      | c2 :: c3 :: rest => (writeUtf16 rest).map ([fromThree src c2 c3] ++ ·)
      | _ => none
    else if src &&& 0xF0 = 0xD0 ∨ src &&& 0xF0 = 0xC0 then
      match rest with
      | c2 :: rest => (writeUtf16 rest).map ([fromTwo src c2] ++ ·)
      | _ => none
    else (writeUtf16 rest).map ([src.toInt8.toInt16.toUInt16] ++ ·)

def utf8ToUtf16 (s : List UInt8) : Converted UInt16 :=
  match countUtf8ToUtf16 s s.length with
  | .error error => .thrown error
  | .ok destSize => fill 0 destSize (writeUtf16 s)

/-! ### Bits as arithmetic -/

theorem or_eq_add {b i : Nat} (small : b < 2 ^ i) (a : Nat) : b ||| 2 ^ i * a = 2 ^ i * a + b := by
  rw [Nat.lor_comm, Nat.two_pow_add_eq_or_of_lt small]

theorem shift_or_eq_add {a b i : Nat} (small : b < 2 ^ i) : a <<< i ||| b = a * 2 ^ i + b := by
  rw [← Nat.shiftLeft_add_eq_or_of_lt small, Nat.shiftLeft_eq]

theorem and_ones (n i : Nat) : n &&& (2 ^ i - 1) = n % 2 ^ i := Nat.and_two_pow_sub_one_eq_mod n i

theorem forall_byte {p : UInt8 → Prop} (h : ∀ v : BitVec 8, p ⟨v⟩) (c : UInt8) : p c := h c.toBitVec

/-- The bits of a byte that the conversions look at, as arithmetic. -/
theorem byte_bits : ∀ c : UInt8,
    ((c &&& 0x80 = 0 ↔ c.toNat < 128) ∧ (c &&& 0x40 = 0 ↔ c.toNat / 64 % 2 = 0) ∧
      (c &&& 0x20 = 0 ↔ c.toNat / 32 % 2 = 0) ∧ (c &&& 0x10 = 0 ↔ c.toNat / 16 % 2 = 0) ∧
      (c &&& 0x8 = 0 ↔ c.toNat / 8 % 2 = 0)) ∧
    (c &&& 0xF0).toNat = c.toNat / 16 * 16 ∧ (c &&& 0xC0 = 0x80 ↔ c.toNat / 64 = 2) ∧
    (c.toNat < 128 → c.toInt8.toInt16.toUInt16.toNat = c.toNat) := forall_byte (by decide +kernel)

theorem and_bit8 (c : UInt8) : c &&& 0x80 = 0 ↔ c.toNat < 128 := (byte_bits c).1.1

theorem and_bit7 (c : UInt8) : c &&& 0x40 = 0 ↔ c.toNat / 64 % 2 = 0 := (byte_bits c).1.2.1

theorem and_bit6 (c : UInt8) : c &&& 0x20 = 0 ↔ c.toNat / 32 % 2 = 0 := (byte_bits c).1.2.2.1

theorem and_bit5 (c : UInt8) : c &&& 0x10 = 0 ↔ c.toNat / 16 % 2 = 0 := (byte_bits c).1.2.2.2.1

theorem and_bit4 (c : UInt8) : c &&& 0x8 = 0 ↔ c.toNat / 8 % 2 = 0 := (byte_bits c).1.2.2.2.2

theorem and_high (c : UInt8) : (c &&& 0xF0).toNat = c.toNat / 16 * 16 := (byte_bits c).2.1

theorem continues_iff (c : UInt8) : c &&& 0xC0 = 0x80 ↔ c.toNat / 64 = 2 := (byte_bits c).2.2.1

theorem toNat_signExtended (c : UInt8) : c.toNat < 128 → c.toInt8.toInt16.toUInt16.toNat = c.toNat :=
  (byte_bits c).2.2.2

theorem and_high_eq {c d : UInt8} : c &&& 0xF0 = d ↔ c.toNat / 16 * 16 = d.toNat := by
  rw [← UInt8.toNat_inj, and_high]

theorem or_and_distrib (c d e : UInt8) : (c ||| d) &&& e = c &&& e ||| d &&& e := by
  apply UInt8.toBitVec_inj.mp
  ext i
  simp [Bool.and_or_distrib_right]

theorem or_continues {c d : UInt8} (first : c &&& 0xC0 = 0x80) (second : d &&& 0xC0 = 0x80) :
    (c ||| d) &&& 0xC0 = 0x80 := by
  rw [or_and_distrib, first, second]
  rfl

theorem toNat_trailing (bits : Nat) : (trailing bits).toNat = 128 + bits % 64 := by
  have bounded : bits % 2 ^ 6 < 2 ^ 6 := Nat.mod_lt _ (by decide)
  rw [trailing, show (0x3F : Nat) = 2 ^ 6 - 1 from rfl, and_ones, show (0x80 : Nat) = 2 ^ 6 * 2 from rfl,
    or_eq_add bounded]
  simp only [Nat.toUInt8_eq, UInt8.toNat_ofNat']
  omega

theorem trailing_continues (bits : Nat) : trailing bits &&& 0xC0 = 0x80 := by
  rw [continues_iff, toNat_trailing]
  omega

/-! ### The sizes are exact -/

theorem fill_exact {α : Type} (zero : α) (written : List α) :
    fill zero written.length (some written) = .done written := by
  rw [fill, if_pos (Nat.le_refl _), Nat.sub_self, List.replicate_zero, List.append_nil]

/-- What is counted is written, where the count does not throw. -/
theorem countUtf16ToUtf8_exact {w : WString} {destSize n : Nat}
    (counted : countUtf16ToUtf8 w destSize = .ok n) :
    ∃ bytes, writeUtf8 w = some bytes ∧ n + w.length = destSize + bytes.length := by
  fun_induction countUtf16ToUtf8 w destSize with
  | case1 destSize =>
    cases counted
    exact ⟨[], rfl, rfl⟩
  | case2 ch rest destSize short ih =>
    obtain ⟨bytes, written, length⟩ := ih counted
    rw [writeUtf8.eq_def]
    simp only [if_pos short, written, Option.map_some]
    by_cases single : ch ≤ 0x7F
    · have : ¬ 0x7F < ch := UInt16.not_lt.mpr single
      rw [if_neg this] at length
      exact ⟨_, if_pos single, by simp only [List.length_append, List.length_cons, List.length_nil]; omega⟩
    · have : 0x7F < ch := UInt16.not_le.mp single
      rw [if_pos this] at length
      exact ⟨_, if_neg single, by simp only [List.length_append, List.length_cons, List.length_nil]; omega⟩
  | case3 => cases counted
  | case4 ch destSize long high lowSurrogate rest low ih =>
    obtain ⟨bytes, written, length⟩ := ih counted
    rw [writeUtf8.eq_def]
    simp only [if_neg long, if_pos high, written, Option.map_some]
    exact ⟨_, rfl, by simp only [List.length_append, List.length_cons, List.length_nil]; omega⟩
  | case5 => cases counted
  | case6 ch rest destSize long alone ih =>
    obtain ⟨bytes, written, length⟩ := ih counted
    rw [writeUtf8.eq_def]
    simp only [if_neg long, if_neg alone, written, Option.map_some]
    exact ⟨_, rfl, by simp only [List.length_append, List.length_cons, List.length_nil]; omega⟩

theorem length_toUnits (codePoint : Nat) :
    (toUnits codePoint).length = if 0x10000 ≤ codePoint then 2 else 1 := by
  unfold toUnits
  split <;> rfl

/-- The same for the other way. The count starts from the bytes and goes down with them. -/
theorem countUtf8ToUtf16_exact {s : List UInt8} {result n : Nat} (enough : s.length ≤ result)
    (counted : countUtf8ToUtf16 s result = .ok n) :
    ∃ units, writeUtf16 s = some units ∧ n + s.length = result + units.length := by
  fun_induction countUtf8ToUtf16 s result with
  | case1 result =>
    cases counted
    exact ⟨[], rfl, rfl⟩
  | case2 c rest result single ih =>
    rw [List.length_cons] at enough
    obtain ⟨units, written, length⟩ := ih (by omega) counted
    rw [and_bit8] at single
    have plain : c &&& 0xF0 ≠ 0xF0 ∧ c &&& 0xF0 ≠ 0xE0 ∧ ¬ (c &&& 0xF0 = 0xD0 ∨ c &&& 0xF0 = 0xC0) := by
      simp only [ne_eq, and_high_eq, UInt8.reduceToNat]
      omega
    rw [writeUtf16.eq_def]
    simp only [if_neg plain.1, if_neg plain.2.1, if_neg plain.2.2, written, Option.map_some]
    exact ⟨_, rfl, by simp only [List.length_append, List.length_cons, List.length_nil]; omega⟩
  | case3 => cases counted
  | case4 => cases counted
  | case5 c result starts leads two c2 rest continues ih =>
    simp only [List.length_cons] at enough
    obtain ⟨units, written, length⟩ := ih (by omega) counted
    rw [and_bit8] at starts
    rw [and_bit7] at leads
    rw [and_bit6] at two
    have := c.toNat_lt
    have plain : c &&& 0xF0 ≠ 0xF0 ∧ c &&& 0xF0 ≠ 0xE0 ∧ (c &&& 0xF0 = 0xD0 ∨ c &&& 0xF0 = 0xC0) := by
      simp only [ne_eq, and_high_eq, UInt8.reduceToNat]
      omega
    rw [writeUtf16.eq_def]
    simp only [if_neg plain.1, if_neg plain.2.1, if_pos plain.2.2, written, Option.map_some]
    exact ⟨_, rfl, by simp only [List.length_append, List.length_cons, List.length_nil]; omega⟩
  | case6 => cases counted
  | case7 c result starts leads notTwo three c2 c3 rest continues ih =>
    simp only [List.length_cons] at enough
    obtain ⟨units, written, length⟩ := ih (by omega) counted
    rw [and_bit8] at starts
    rw [and_bit7] at leads
    rw [and_bit6] at notTwo
    rw [and_bit5] at three
    have := c.toNat_lt
    have plain : c &&& 0xF0 ≠ 0xF0 ∧ c &&& 0xF0 = 0xE0 := by
      simp only [ne_eq, and_high_eq, UInt8.reduceToNat]
      omega
    rw [writeUtf16.eq_def]
    simp only [if_neg plain.1, if_pos plain.2, written, Option.map_some]
    exact ⟨_, rfl, by simp only [List.length_append, List.length_cons, List.length_nil]; omega⟩
  | case8 => cases counted
  | case9 => cases counted
  | case10 c result starts leads notTwo notThree four c2 c3 c4 rest continues ih =>
    simp only [List.length_cons] at enough
    have small : (if 0x10000 ≤ fromFour c c2 c3 c4 then 2 else 3) ≤ 3 := by split <;> decide
    obtain ⟨units, written, length⟩ := ih (by omega) counted
    rw [and_bit8] at starts
    rw [and_bit7] at leads
    rw [and_bit6] at notTwo
    rw [and_bit5] at notThree
    have := c.toNat_lt
    have plain : c &&& 0xF0 = 0xF0 := by
      simp only [and_high_eq, UInt8.reduceToNat]
      omega
    rw [writeUtf16.eq_def]
    simp only [if_pos plain, written, Option.map_some]
    refine ⟨_, rfl, ?_⟩
    have two := length_toUnits (fromFour c c2 c3 c4)
    simp only [List.length_append, List.length_cons]
    split at two <;> simp_all <;> omega
  | case11 => cases counted
  | case12 => cases counted
  | case13 => cases counted

/-! ### A character that was written is read -/

/-- The first byte of a character: ones in front, and the leading bits. -/
theorem toNat_leading {bits i ones : Nat} (small : bits < 2 ^ i) (fits : 2 ^ i * (ones + 1) ≤ 256) :
    (bits ||| 2 ^ i * ones).toUInt8.toNat = 2 ^ i * ones + bits := by
  rw [or_eq_add small]
  simp only [Nat.toUInt8_eq, UInt8.toNat_ofNat']
  rw [Nat.mul_succ] at fits
  omega

variable (rest : List UInt8)

theorem read_one {src : UInt16} (single : src ≤ 0x7F) :
    (∀ result, countUtf8ToUtf16 (src.toUInt8 :: rest) result = countUtf8ToUtf16 rest result) ∧
      writeUtf16 (src.toUInt8 :: rest) = (writeUtf16 rest).map ([src] ++ ·) := by
  have small : src.toNat ≤ 127 := UInt16.le_iff_toNat_le.mp single
  have value : src.toUInt8.toNat = src.toNat := by
    rw [UInt16.toNat_toUInt8]
    omega
  have back : src.toUInt8.toInt8.toInt16.toUInt16 = src := by
    rw [← UInt16.toNat_inj, toNat_signExtended _ (by omega), value]
  have plain : src.toUInt8 &&& 0xF0 ≠ 0xF0 ∧ src.toUInt8 &&& 0xF0 ≠ 0xE0 ∧
      ¬ (src.toUInt8 &&& 0xF0 = 0xD0 ∨ src.toUInt8 &&& 0xF0 = 0xC0) := by
    simp only [ne_eq, and_high_eq, UInt8.reduceToNat]
    omega
  constructor
  · intro result
    rw [countUtf8ToUtf16.eq_def]
    exact if_pos ((and_bit8 _).mpr (by omega))
  · rw [writeUtf16.eq_def]
    simp only [if_neg plain.1, if_neg plain.2.1, if_neg plain.2.2, back]

theorem read_two {src : UInt16} (long : 0x7F < src) (short : src ≤ 0x7FF) :
    (∀ result, countUtf8ToUtf16 ([(src.toNat >>> 6 ||| 0xC0).toUInt8, trailing src.toNat] ++ rest)
        result = countUtf8ToUtf16 rest (result - 1)) ∧
      writeUtf16 ([(src.toNat >>> 6 ||| 0xC0).toUInt8, trailing src.toNat] ++ rest) =
        (writeUtf16 rest).map ([src] ++ ·) := by
  have lower : 127 < src.toNat := UInt16.lt_iff_toNat_lt.mp long
  have upper : src.toNat ≤ 2047 := UInt16.le_iff_toNat_le.mp short
  have shifted : src.toNat >>> 6 = src.toNat / 64 := Nat.shiftRight_eq_div_pow _ 6
  have leading := @toNat_leading (src.toNat >>> 6) 6 3 (by omega) (by decide)
  simp only [Nat.reducePow, Nat.reduceMul, shifted] at leading
  rw [shifted]
  generalize (src.toNat / 64 ||| 0xC0).toUInt8 = c at leading
  have value : fromTwo c (trailing src.toNat) = src := by
    have bounded : (128 + src.toNat % 64) % 2 ^ 6 < 2 ^ 6 := Nat.mod_lt _ (by decide)
    rw [fromTwo, ← UInt16.toNat_inj, toNat_trailing, leading, show (0x1F : Nat) = 2 ^ 5 - 1 from rfl,
      show (0x3F : Nat) = 2 ^ 6 - 1 from rfl, and_ones, and_ones, shift_or_eq_add bounded]
    simp only [Nat.toUInt16_eq, UInt16.toNat_ofNat']
    omega
  have plain : c &&& 0xF0 ≠ 0xF0 ∧ c &&& 0xF0 ≠ 0xE0 ∧ (c &&& 0xF0 = 0xD0 ∨ c &&& 0xF0 = 0xC0) := by
    simp only [ne_eq, and_high_eq, UInt8.reduceToNat]
    omega
  constructor
  · intro result
    rw [countUtf8ToUtf16.eq_def]
    simp only [List.cons_append, List.nil_append]
    rw [if_neg (by rw [and_bit8]; omega), if_neg (by rw [and_bit7]; omega),
      if_pos (by rw [and_bit6]; omega), if_pos (trailing_continues _)]
  · rw [writeUtf16.eq_def]
    simp only [List.cons_append, List.nil_append, if_neg plain.1, if_neg plain.2.1, if_pos plain.2.2,
      value]

theorem read_three (src : UInt16) :
    (∀ result, countUtf8ToUtf16
        ([(src.toNat >>> 12 ||| 0xE0).toUInt8, trailing (src.toNat >>> 6), trailing src.toNat] ++ rest)
        result = countUtf8ToUtf16 rest (result - 2)) ∧
      writeUtf16
        ([(src.toNat >>> 12 ||| 0xE0).toUInt8, trailing (src.toNat >>> 6), trailing src.toNat] ++ rest) =
        (writeUtf16 rest).map ([src] ++ ·) := by
  have upper := src.toNat_lt
  have shifted : src.toNat >>> 12 = src.toNat / 4096 := Nat.shiftRight_eq_div_pow _ 12
  have middle : src.toNat >>> 6 = src.toNat / 64 := Nat.shiftRight_eq_div_pow _ 6
  have leading := @toNat_leading (src.toNat >>> 12) 4 14 (by omega) (by decide)
  simp only [Nat.reducePow, Nat.reduceMul, shifted] at leading
  rw [shifted, middle]
  generalize (src.toNat / 4096 ||| 0xE0).toUInt8 = c at leading
  have value : fromThree c (trailing (src.toNat / 64)) (trailing src.toNat) = src := by
    have bounded : (128 + src.toNat % 64) % 2 ^ 6 < 2 ^ 6 := Nat.mod_lt _ (by decide)
    have first : ((128 + src.toNat / 64 % 64) % 2 ^ 6) <<< 6 ||| (128 + src.toNat % 64) % 2 ^ 6 =
        (128 + src.toNat / 64 % 64) % 2 ^ 6 * 2 ^ 6 + (128 + src.toNat % 64) % 2 ^ 6 :=
      shift_or_eq_add bounded
    rw [fromThree, ← UInt16.toNat_inj, toNat_trailing, toNat_trailing, leading,
      show (0xF : Nat) = 2 ^ 4 - 1 from rfl, show (0x3F : Nat) = 2 ^ 6 - 1 from rfl, and_ones, and_ones,
      and_ones, Nat.lor_assoc, first, shift_or_eq_add (by omega)]
    simp only [Nat.toUInt16_eq, UInt16.toNat_ofNat']
    omega
  have plain : c &&& 0xF0 ≠ 0xF0 ∧ c &&& 0xF0 = 0xE0 := by
    simp only [ne_eq, and_high_eq, UInt8.reduceToNat]
    omega
  constructor
  · intro result
    rw [countUtf8ToUtf16.eq_def]
    simp only [List.cons_append, List.nil_append]
    rw [if_neg (by rw [and_bit8]; omega), if_neg (by rw [and_bit7]; omega),
      if_neg (by rw [and_bit6]; omega), if_pos (by rw [and_bit5]; omega),
      if_pos (or_continues (trailing_continues _) (trailing_continues _))]
  · rw [writeUtf16.eq_def]
    simp only [List.cons_append, List.nil_append, if_neg plain.1, if_pos plain.2, value]

theorem toNat_fromPair {high low : UInt16} (isHigh : isHighSurrogate high) (isLow : isLowSurrogate low) :
    fromPair high low = (high.toNat - 0xD800) * 1024 + (low.toNat - 0xDC00) + 0x10000 ∧
      fromPair high low < 0x110000 := by
  have upper := UInt16.le_iff_toNat_le.mp isHigh.2
  have lowest := UInt16.le_iff_toNat_le.mp isLow.1
  have highest := UInt16.le_iff_toNat_le.mp isLow.2
  simp only [UInt16.reduceToNat] at upper lowest highest
  have bounded : low.toNat - 0xDC00 < 2 ^ 10 := by omega
  rw [fromPair, shift_or_eq_add bounded]
  omega

theorem toUnits_fromPair {high low : UInt16} (isHigh : isHighSurrogate high) (isLow : isLowSurrogate low) :
    toUnits (fromPair high low) = [high, low] := by
  obtain ⟨value, -⟩ := toNat_fromPair isHigh isLow
  have lower := UInt16.le_iff_toNat_le.mp isHigh.1
  have upper := UInt16.le_iff_toNat_le.mp isHigh.2
  have lowest := UInt16.le_iff_toNat_le.mp isLow.1
  have highest := UInt16.le_iff_toNat_le.mp isLow.2
  simp only [UInt16.reduceToNat] at lower upper lowest highest
  have leading : (fromPair high low - 0x10000) >>> 10 = high.toNat - 0xD800 := by
    rw [Nat.shiftRight_eq_div_pow]
    omega
  have last : (fromPair high low - 0x10000) % 2 ^ 10 = low.toNat - 0xDC00 := by omega
  have first := or_eq_add (b := high.toNat - 0xD800) (i := 11) (by omega) 27
  have second := or_eq_add (b := low.toNat - 0xDC00) (i := 10) (by omega) 55
  simp only [Nat.reducePow, Nat.reduceMul] at first second
  rw [toUnits, if_pos (by omega), show (0x3FF : Nat) = 2 ^ 10 - 1 from rfl, and_ones, leading, last, first,
    second]
  simp only [List.cons.injEq, and_true, ← UInt16.toNat_inj, Nat.toUInt16_eq, UInt16.toNat_ofNat']
  omega

theorem read_four {high low : UInt16} (isHigh : isHighSurrogate high) (isLow : isLowSurrogate low) :
    (∀ result, countUtf8ToUtf16 ([(fromPair high low >>> 18 ||| 0xF0).toUInt8,
        trailing (fromPair high low >>> 12), trailing (fromPair high low >>> 6),
        trailing (fromPair high low)] ++ rest) result = countUtf8ToUtf16 rest (result - 2)) ∧
      writeUtf16 ([(fromPair high low >>> 18 ||| 0xF0).toUInt8, trailing (fromPair high low >>> 12),
        trailing (fromPair high low >>> 6), trailing (fromPair high low)] ++ rest) =
        (writeUtf16 rest).map ([high, low] ++ ·) := by
  have units := toUnits_fromPair isHigh isLow
  obtain ⟨value, upper⟩ := toNat_fromPair isHigh isLow
  generalize fromPair high low = n at units value upper
  have first : n >>> 18 = n / 262144 := Nat.shiftRight_eq_div_pow _ 18
  have second : n >>> 12 = n / 4096 := Nat.shiftRight_eq_div_pow _ 12
  have third : n >>> 6 = n / 64 := Nat.shiftRight_eq_div_pow _ 6
  have leading := @toNat_leading (n >>> 18) 3 30 (by omega) (by decide)
  simp only [Nat.reducePow, Nat.reduceMul, first] at leading
  rw [first, second, third]
  generalize (n / 262144 ||| 0xF0).toUInt8 = c at leading
  have together : fromFour c (trailing (n / 4096)) (trailing (n / 64)) (trailing n) = n := by
    have last : (128 + n % 64) % 2 ^ 6 < 2 ^ 6 := Nat.mod_lt _ (by decide)
    have before : (128 + n / 64 % 64) % 2 ^ 6 < 2 ^ 6 := Nat.mod_lt _ (by decide)
    have low12 : ((128 + n / 64 % 64) % 2 ^ 6) <<< 6 ||| (128 + n % 64) % 2 ^ 6 =
        (128 + n / 64 % 64) % 2 ^ 6 * 2 ^ 6 + (128 + n % 64) % 2 ^ 6 := shift_or_eq_add last
    have low18 : ((128 + n / 4096 % 64) % 2 ^ 6) <<< 12 |||
        ((128 + n / 64 % 64) % 2 ^ 6 * 2 ^ 6 + (128 + n % 64) % 2 ^ 6) =
        (128 + n / 4096 % 64) % 2 ^ 6 * 2 ^ 12 +
          ((128 + n / 64 % 64) % 2 ^ 6 * 2 ^ 6 + (128 + n % 64) % 2 ^ 6) := shift_or_eq_add (by omega)
    rw [fromFour, toNat_trailing, toNat_trailing, toNat_trailing, leading,
      show (0x7 : Nat) = 2 ^ 3 - 1 from rfl, show (0x3F : Nat) = 2 ^ 6 - 1 from rfl, and_ones, and_ones,
      and_ones, and_ones, Nat.lor_assoc, Nat.lor_assoc, low12, low18, shift_or_eq_add (by omega)]
    omega
  have plain : c &&& 0xF0 = 0xF0 := by
    simp only [and_high_eq, UInt8.reduceToNat]
    omega
  constructor
  · intro result
    rw [countUtf8ToUtf16.eq_def]
    simp only [List.cons_append, List.nil_append]
    rw [if_neg (by rw [and_bit8]; omega), if_neg (by rw [and_bit7]; omega),
      if_neg (by rw [and_bit6]; omega), if_neg (by rw [and_bit5]; omega), if_pos (by rw [and_bit4]; omega),
      if_pos (or_continues (or_continues (trailing_continues _) (trailing_continues _))
        (trailing_continues _)), together, if_pos (by omega)]
  · rw [writeUtf16.eq_def]
    simp only [List.cons_append, List.nil_append, if_pos plain, together, units]

/-! ### A whole text -/

/-- Every high surrogate is in front of a low one. A low one may stand alone. -/
def Paired : WString → Prop
  | [] => True
  | ch :: rest =>
    if isHighSurrogate ch then
      match rest with
      | [] => False
      | lowSurrogate :: rest => isLowSurrogate lowSurrogate ∧ Paired rest
    else Paired rest

theorem short_not_high {ch : UInt16} (short : ch ≤ 0x7FF) : ¬ isHighSurrogate ch := by
  intro high
  have := UInt16.le_iff_toNat_le.mp short
  have := UInt16.le_iff_toNat_le.mp high.1
  simp only [UInt16.reduceToNat] at *
  omega

theorem paired_alone {ch : UInt16} (alone : ¬ isHighSurrogate ch) (rest : WString) :
    Paired (ch :: rest) ↔ Paired rest := by
  rw [Paired.eq_def]
  simp only [if_neg alone]

theorem paired_pair {ch : UInt16} (high : isHighSurrogate ch) (lowSurrogate : UInt16) (rest : WString) :
    Paired (ch :: lowSurrogate :: rest) ↔ isLowSurrogate lowSurrogate ∧ Paired rest := by
  rw [Paired.eq_def]
  simp only [if_pos high]

theorem countUtf16ToUtf8_ok_iff (w : WString) (destSize : Nat) :
    (∃ n, countUtf16ToUtf8 w destSize = .ok n) ↔ Paired w := by
  fun_induction countUtf16ToUtf8 w destSize with
  | case1 destSize => exact ⟨fun _ => trivial, fun _ => ⟨_, rfl⟩⟩
  | case2 ch rest destSize short ih => rw [ih, paired_alone (short_not_high short)]
  | case3 ch destSize long high =>
    rw [Paired.eq_def]
    simp only [if_pos high, reduceCtorEq, exists_false]
  | case4 ch destSize long high lowSurrogate rest low ih =>
    rw [ih, paired_pair high, and_iff_right low]
  | case5 ch destSize long high lowSurrogate rest low =>
    rw [paired_pair high]
    simp only [low, false_and, reduceCtorEq, exists_false]
  | case6 ch rest destSize long alone ih => rw [ih, paired_alone alone]

/-- The bytes of a text are counted and read without an error. -/
theorem read_written {w : WString} (paired : Paired w) {bytes : List UInt8}
    (written : writeUtf8 w = some bytes) :
    (∀ result, ∃ n, countUtf8ToUtf16 bytes result = .ok n) ∧ writeUtf16 bytes = some w := by
  fun_induction writeUtf8 w generalizing bytes with
  | case1 =>
    cases written
    exact ⟨fun result => ⟨result, rfl⟩, rfl⟩
  | case2 src rest short single ih =>
    obtain ⟨behind, last, rfl⟩ := Option.map_eq_some_iff.mp written
    rw [paired_alone (short_not_high short)] at paired
    obtain ⟨counted, read⟩ := ih paired last
    obtain ⟨count, one⟩ := read_one behind single
    rw [List.singleton_append, one, read]
    exact ⟨fun result => by rw [count]; exact counted result, rfl⟩
  | case3 src rest n short double ih =>
    obtain ⟨behind, last, rfl⟩ := Option.map_eq_some_iff.mp written
    rw [paired_alone (short_not_high short)] at paired
    obtain ⟨counted, read⟩ := ih paired last
    obtain ⟨count, two⟩ := read_two behind (UInt16.not_le.mp double) short
    rw [two, read]
    exact ⟨fun result => by rw [count]; exact counted _, rfl⟩
  | case4 => cases written
  | case5 src long high lowSurrogate rest codePoint ih =>
    obtain ⟨behind, last, rfl⟩ := Option.map_eq_some_iff.mp written
    rw [paired_pair high] at paired
    obtain ⟨counted, read⟩ := ih paired.2 last
    obtain ⟨count, four⟩ := read_four behind high paired.1
    rw [four, read]
    exact ⟨fun result => by rw [count]; exact counted _, rfl⟩
  | case6 src rest n long alone ih =>
    obtain ⟨behind, last, rfl⟩ := Option.map_eq_some_iff.mp written
    rw [paired_alone alone] at paired
    obtain ⟨counted, read⟩ := ih paired last
    obtain ⟨count, three⟩ := read_three behind src
    rw [three, read]
    exact ⟨fun result => by rw [count]; exact counted _, rfl⟩

/-- A text without a high surrogate alone. -/
theorem utf16ToUtf8_paired {w : WString} (paired : Paired w) :
    ∃ bytes, utf16ToUtf8 w = .done bytes ∧ writeUtf8 w = some bytes := by
  obtain ⟨n, counted⟩ := (countUtf16ToUtf8_ok_iff w w.length).mpr paired
  obtain ⟨bytes, written, length⟩ := countUtf16ToUtf8_exact counted
  obtain rfl : n = bytes.length := by omega
  exact ⟨bytes, by rw [utf16ToUtf8, counted, written]; exact fill_exact 0 bytes, written⟩

theorem utf16ToUtf8_unpaired {w : WString} (unpaired : ¬ Paired w) : ∃ error, utf16ToUtf8 w = .thrown error := by
  rcases counted : countUtf16ToUtf8 w w.length with error | n
  · exact ⟨error, by rw [utf16ToUtf8, counted]⟩
  · exact absurd ((countUtf16ToUtf8_ok_iff w w.length).mp ⟨n, counted⟩) unpaired

theorem utf8ToUtf16_written {s : List UInt8} {n : Nat} (counted : countUtf8ToUtf16 s s.length = .ok n) :
    ∃ units, utf8ToUtf16 s = .done units ∧ writeUtf16 s = some units := by
  obtain ⟨units, written, length⟩ := countUtf8ToUtf16_exact (Nat.le_refl _) counted
  obtain rfl : n = units.length := by omega
  exact ⟨units, by rw [utf8ToUtf16, counted, written]; exact fill_exact 0 units, written⟩

theorem utf8ToUtf16_utf16ToUtf8 {w : WString} {bytes : List UInt8} (written : utf16ToUtf8 w = .done bytes) :
    utf8ToUtf16 bytes = .done w := by
  by_cases paired : Paired w
  · obtain ⟨bytes', written', units⟩ := utf16ToUtf8_paired paired
    obtain rfl := Converted.done.inj (written.symm.trans written')
    obtain ⟨counted, read⟩ := read_written paired units
    obtain ⟨n, counted⟩ := counted bytes.length
    obtain ⟨w', done, read'⟩ := utf8ToUtf16_written counted
    obtain rfl := Option.some.inj (read.symm.trans read')
    exact done
  · obtain ⟨error, thrown⟩ := utf16ToUtf8_unpaired paired
    cases written.symm.trans thrown

/-- Neither conversion reads behind its source or writes behind its destination, whatever it is given. -/
theorem conversions_defined (s : List UInt8) (w : WString) :
    utf8ToUtf16 s ≠ .undefined ∧ utf16ToUtf8 w ≠ .undefined := by
  refine ⟨fun undefined => ?_, fun undefined => ?_⟩
  · rcases counted : countUtf8ToUtf16 s s.length with error | n
    · rw [utf8ToUtf16, counted] at undefined
      cases undefined
    · obtain ⟨units, done, -⟩ := utf8ToUtf16_written counted
      cases undefined.symm.trans done
  · by_cases paired : Paired w
    · obtain ⟨bytes, done, -⟩ := utf16ToUtf8_paired paired
      cases undefined.symm.trans done
    · obtain ⟨error, thrown⟩ := utf16ToUtf8_unpaired paired
      cases undefined.symm.trans thrown

/-- The bytes of a text are read back as the text. They exist unless a high surrogate stands alone. -/
theorem utf8_round_trip (w : WString) :
    (Paired w → ∃ bytes, utf16ToUtf8 w = .done bytes ∧ utf8ToUtf16 bytes = .done w) ∧
      (¬ Paired w → ∃ error, utf16ToUtf8 w = .thrown error) := by
  refine ⟨fun paired => ?_, utf16ToUtf8_unpaired⟩
  obtain ⟨bytes, written, -⟩ := utf16ToUtf8_paired paired
  exact ⟨bytes, written, utf8ToUtf16_utf16ToUtf8 written⟩

end Cpprest
