import Mathlib

/-!
# Percent-encoded text

Text in UTF-16 as bytes, and bytes as ASCII text: each as its own character, or as `%` with two
hexadecimal digits.
-/

namespace Percent

/-! ### UTF-8 -/

def toUtf8 : List UInt16 → Option (List UInt8)
  | [] => some []
  | c :: s =>
    if c < 0x80 then (toUtf8 s).map fun raw => c.toUInt8 :: raw
    else if c < 0x800 then (toUtf8 s).map fun raw => [(c >>> 6 ||| 0xC0).toUInt8, (c &&& 0x3F ||| 0x80).toUInt8] ++ raw
    else if 0xD800 ≤ c ∧ c ≤ 0xDBFF then
      match s with
      | low :: s =>
        if 0xDC00 ≤ low ∧ low ≤ 0xDFFF then
          let codePoint := ((c - 0xD800).toUInt32 <<< 10 ||| (low - 0xDC00).toUInt32) + 0x10000
          (toUtf8 s).map fun raw =>
            [(codePoint >>> 18 ||| 0xF0).toUInt8, (codePoint >>> 12 &&& 0x3F ||| 0x80).toUInt8,
              (codePoint >>> 6 &&& 0x3F ||| 0x80).toUInt8, (codePoint &&& 0x3F ||| 0x80).toUInt8] ++ raw
        else none
      | [] => none
    else (toUtf8 s).map fun raw =>
      [(c >>> 12 ||| 0xE0).toUInt8, (c >>> 6 &&& 0x3F ||| 0x80).toUInt8, (c &&& 0x3F ||| 0x80).toUInt8] ++ raw

/-- A code point that is given in four bytes, as a pair of surrogates when it needs one. -/
def surrogates (codePoint : UInt32) : List UInt16 :=
  if 0x10000 ≤ codePoint then
    [((codePoint - 0x10000) >>> 10 ||| 0xD800).toUInt16, ((codePoint - 0x10000) &&& 0x3FF ||| 0xDC00).toUInt16]
  else [codePoint.toUInt16]

def ofUtf8 : List UInt8 → Option (List UInt16)
  | [] => some []
  | c :: s =>
    if c < 0x80 then (ofUtf8 s).map fun text => c.toUInt16 :: text
    else if c &&& 0x40 = 0 then none
    else if c &&& 0x20 = 0 then
      match s with
      | c2 :: s =>
        if c2 &&& 0xC0 = 0x80 then
          (ofUtf8 s).map fun text => ((c &&& 0x1F).toUInt16 <<< 6 ||| (c2 &&& 0x3F).toUInt16) :: text
        else none
      | [] => none
    else if c &&& 0x10 = 0 then
      match s with
      | c2 :: c3 :: s =>
        if (c2 ||| c3) &&& 0xC0 = 0x80 then
          (ofUtf8 s).map fun text =>
            ((c &&& 0x0F).toUInt16 <<< 12 ||| (c2 &&& 0x3F).toUInt16 <<< 6 ||| (c3 &&& 0x3F).toUInt16) :: text
        else none
      | _ => none
    else if c &&& 0x08 = 0 then
      match s with
      | c2 :: c3 :: c4 :: s =>
        if (c2 ||| c3 ||| c4) &&& 0xC0 = 0x80 then
          let codePoint := (c &&& 0x07).toUInt32 <<< 18 ||| (c2 &&& 0x3F).toUInt32 <<< 12 |||
            (c3 &&& 0x3F).toUInt32 <<< 6 ||| (c4 &&& 0x3F).toUInt32
          (ofUtf8 s).map fun text => surrogates codePoint ++ text
        else none
      | _ => none
    else none

def widen (raw : List UInt8) : List UInt16 := raw.map UInt8.toUInt16

def narrow (s : List UInt16) : List UInt8 := s.map UInt16.toUInt8

theorem toUInt16_toUInt8 {c : UInt16} (small : c < 128) : c.toUInt8.toUInt16 = c := by
  have low : c.toNat < 128 := by simpa [UInt16.lt_iff_toNat_lt] using small
  apply UInt16.toNat_inj.mp
  rw [UInt8.toNat_toUInt16, UInt16.toNat_toUInt8]
  omega

theorem toUInt16_lt {ch : UInt8} (ascii : ch < 128) : ch.toUInt16 < 128 := by
  simpa [UInt16.lt_iff_toNat_lt, UInt8.lt_iff_toNat_lt] using ascii

theorem widen_narrow {s : List UInt16} (ascii : ∀ c ∈ s, c < 128) : widen (narrow s) = s := by
  rw [widen, narrow, List.map_map]
  conv_rhs => rw [← List.map_id s]
  exact List.map_congr_left fun c member => toUInt16_toUInt8 (ascii c member)

@[simp] theorem widen_append (p q : List UInt8) : widen (p ++ q) = widen p ++ widen q := List.map_append

@[simp] theorem narrow_append (s t : List UInt16) : narrow (s ++ t) = narrow s ++ narrow t := List.map_append

theorem toUtf8_ascii {s : List UInt16} (ascii : ∀ c ∈ s, c < 128) : toUtf8 s = some (narrow s) := by
  induction s with
  | nil => rfl
  | cons c s ih =>
    have small : c < 0x80 := ascii c List.mem_cons_self
    rw [toUtf8.eq_def]
    simp only [if_pos small, ih fun d member => ascii d (List.mem_cons_of_mem c member)]
    rfl

theorem ofUtf8_ascii {raw : List UInt8} (ascii : ∀ c ∈ raw, c < 128) : ofUtf8 raw = some (widen raw) := by
  induction raw with
  | nil => rfl
  | cons c s ih =>
    have small : c < 0x80 := ascii c List.mem_cons_self
    rw [ofUtf8.eq_def]
    simp only [if_pos small, ih fun d member => ascii d (List.mem_cons_of_mem c member)]
    rfl

theorem narrow_ascii {s : List UInt16} (ascii : ∀ c ∈ s, c < 128) {ch : UInt8} (member : ch ∈ narrow s) :
    ch < 128 ∧ ch.toUInt16 ∈ s := by
  obtain ⟨c, among, rfl⟩ := List.mem_map.mp member
  have small := ascii c among
  rw [toUInt16_toUInt8 small]
  refine ⟨?_, among⟩
  rw [UInt8.lt_iff_toNat_lt, UInt16.toNat_toUInt8]
  rw [UInt16.lt_iff_toNat_lt] at small
  exact Nat.lt_of_le_of_lt (Nat.mod_le _ _) small

theorem ofUtf8_narrow {s : List UInt16} (ascii : ∀ c ∈ s, c < 128) : ofUtf8 (narrow s) = some s := by
  rw [ofUtf8_ascii fun ch member => (narrow_ascii ascii member).1, widen_narrow ascii]

theorem high_byte (n : Nat) : 128 ≤ (n ||| 128) % 256 := by
  have top : Nat.testBit 128 7 = true := by decide
  have bit : ((n ||| 128) % 2 ^ 8).testBit 7 = true := by
    rw [Nat.testBit_mod_two_pow, Nat.testBit_or, top]
    simp
  exact Nat.ge_two_pow_of_testBit bit

theorem last_byte (c : UInt16) : ¬ (c ||| 0x80).toUInt8 < 128 := by
  have high := high_byte c.toNat
  rw [UInt8.lt_iff_toNat_lt, UInt16.toNat_toUInt8, UInt16.toNat_or]
  simpa using high

theorem last_byte32 (c : UInt32) : ¬ (c ||| 0x80).toUInt8 < 128 := by
  have high := high_byte c.toNat
  rw [UInt8.lt_iff_toNat_lt, UInt32.toNat_toUInt8, UInt32.toNat_or]
  simpa using high

/-- Only ASCII text is ASCII in UTF-8. -/
theorem eq_widen_of_toUtf8 {s : List UInt16} {raw : List UInt8} (encoded : toUtf8 s = some raw)
    (ascii : ∀ c ∈ raw, c < 128) : s = widen raw := by
  fun_induction toUtf8 s generalizing raw with
  | case1 =>
    cases encoded
    rfl
  | case2 c s small ih =>
    obtain ⟨rest, encodedRest, rfl⟩ := Option.map_eq_some_iff.mp encoded
    rw [ih encodedRest fun b member => ascii b (List.mem_cons_of_mem _ member)]
    rw [widen, widen, List.map_cons, toUInt16_toUInt8 small]
  | case3 c s _ _ ih =>
    obtain ⟨rest, _, rfl⟩ := Option.map_eq_some_iff.mp encoded
    exact absurd (ascii _ (by simp)) (last_byte (c &&& 0x3F))
  | case4 c _ _ _ low s _ codePoint =>
    obtain ⟨rest, _, rfl⟩ := Option.map_eq_some_iff.mp encoded
    exact absurd (ascii _ (by simp)) (last_byte32 (codePoint &&& 0x3F))
  | case5 => cases encoded
  | case6 => cases encoded
  | case7 c s _ _ _ ih =>
    obtain ⟨rest, _, rfl⟩ := Option.map_eq_some_iff.mp encoded
    exact absurd (ascii _ (by simp)) (last_byte (c &&& 0x3F))

/-! ### Percent-encoding -/

def percent : UInt16 := 37

def hexDigit (n : Nat) : UInt16 := if n < 10 then (n + 48).toUInt16 else (n + 55).toUInt16

def hexValue (c : UInt16) : Option Nat :=
  if 48 ≤ c ∧ c ≤ 57 then some (c.toNat - 48)
  else if 65 ≤ c ∧ c ≤ 70 then some (c.toNat - 55)
  else if 97 ≤ c ∧ c ≤ 102 then some (c.toNat - 87)
  else none

theorem hexValue_hexDigit : ∀ n < 16, hexValue (hexDigit n) = some n := by decide

def escape (ch : UInt8) : List UInt16 := [percent, hexDigit (ch.toNat / 16), hexDigit (ch.toNat % 16)]

/-- Each byte as its own character, or escaped. -/
def encode (escaped : UInt8 → Bool) (raw : List UInt8) : List UInt16 :=
  raw.flatMap fun ch => if escaped ch then escape ch else [ch.toUInt16]

/-- The bytes of an ASCII text. Two hexadecimal digits must follow each `%`. -/
def decode : List UInt16 → Option (List UInt8)
  | [] => some []
  | c :: s =>
    if c = percent then
      match s with
      | high :: low :: s =>
        match hexValue high, hexValue low with
        | some h, some l => (decode s).map fun raw => (16 * h + l).toUInt8 :: raw
        | _, _ => none
      | _ => none
    else if c < 128 then (decode s).map fun raw => c.toUInt8 :: raw
    else none

theorem decode_escape (ch : UInt8) (s : List UInt16) :
    decode (escape ch ++ s) = (decode s).map fun raw => ch :: raw := by
  have below := ch.toNat_lt
  have high := hexValue_hexDigit (ch.toNat / 16) (by omega)
  have low := hexValue_hexDigit (ch.toNat % 16) (by omega)
  have whole : (16 * (ch.toNat / 16) + ch.toNat % 16).toUInt8 = ch := by
    rw [Nat.div_add_mod]
    exact UInt8.ofNat_toNat
  rw [escape, List.cons_append, decode.eq_def]
  simp only [List.cons_append, List.nil_append, if_true, high, low, whole]

theorem decode_plain {c : UInt16} (plain : c ≠ percent) (ascii : c < 128) (s : List UInt16) :
    decode (c :: s) = (decode s).map fun raw => c.toUInt8 :: raw := by
  rw [decode.eq_def]
  simp only [if_neg plain, if_pos ascii]

/-- What is plain in a text stays as it is. -/
theorem decode_plain_append {p : List UInt16} (plain : ∀ c ∈ p, c ≠ percent ∧ c < 128) (s : List UInt16) :
    decode (p ++ s) = (decode s).map fun raw => narrow p ++ raw := by
  induction p with
  | nil => simp [narrow]
  | cons c p ih =>
    obtain ⟨other, ascii⟩ := plain c List.mem_cons_self
    rw [List.cons_append, decode_plain other ascii, ih fun d member => plain d (List.mem_cons_of_mem c member),
      Option.map_map]
    rfl

theorem toUInt16_ne_percent {escaped : UInt8 → Bool} (sign : escaped 37 = true) {ch : UInt8}
    (plain : escaped ch = false) : ch.toUInt16 ≠ percent := by
  intro same
  have signed : ch = 37 := UInt8.toUInt16_inj.mp same
  rw [signed, sign] at plain
  cases plain

/-- ASCII characters of which `%` is escaped are decoded to themselves. -/
theorem decode_encode_append {escaped : UInt8 → Bool} (sign : escaped 37 = true) {raw : List UInt8}
    (ascii : ∀ ch ∈ raw, ch < 128) (s : List UInt16) :
    decode (encode escaped raw ++ s) = (decode s).map fun rest => raw ++ rest := by
  induction raw with
  | nil => simp [encode]
  | cons ch raw ih =>
    have tail : decode (encode escaped (ch :: raw) ++ s) =
        (decode (encode escaped raw ++ s)).map fun rest => ch :: rest := by
      rw [encode, List.flatMap_cons, List.append_assoc]
      by_cases e : escaped ch = true
      · rw [if_pos e]
        exact decode_escape ch _
      · have other := toUInt16_ne_percent sign (by simpa using e)
        rw [if_neg e, List.singleton_append, decode_plain other (toUInt16_lt (ascii ch List.mem_cons_self))]
        simp [encode]
    rw [tail, ih fun b member => ascii b (List.mem_cons_of_mem ch member), Option.map_map]
    rfl

@[simp] theorem encode_append (escaped : UInt8 → Bool) (p q : List UInt8) :
    encode escaped (p ++ q) = encode escaped p ++ encode escaped q := List.flatMap_append

theorem encode_plain {escaped : UInt8 → Bool} {raw : List UInt8} (plain : ∀ ch ∈ raw, escaped ch = false) :
    encode escaped raw = widen raw := by
  induction raw with
  | nil => rfl
  | cons ch raw ih =>
    have rest := ih fun d member => plain d (List.mem_cons_of_mem ch member)
    rw [encode] at rest
    rw [encode, List.flatMap_cons, rest, plain ch List.mem_cons_self]
    rfl

/-- ASCII text that is nowhere escaped. -/
theorem encode_narrow {escaped : UInt8 → Bool} {s : List UInt16} (ascii : ∀ c ∈ s, c < 128)
    (plain : ∀ c ∈ s, escaped c.toUInt8 = false) : encode escaped (narrow s) = s := by
  rw [encode_plain, widen_narrow ascii]
  intro ch member
  obtain ⟨c, among, rfl⟩ := List.mem_map.mp member
  exact plain c among

theorem length_encode (escaped : UInt8 → Bool) (raw : List UInt8) :
    (encode escaped raw).length = raw.length + 2 * raw.countP escaped := by
  induction raw with
  | nil => rfl
  | cons ch raw ih =>
    rw [encode] at ih
    rw [encode, List.flatMap_cons, List.length_append, ih, List.countP_cons, List.length_cons]
    by_cases e : escaped ch = true
    · rw [if_pos e, if_pos e, escape]
      simp only [List.length_cons, List.length_nil]
      omega
    · rw [if_neg e, if_neg e, List.length_singleton]
      omega

/-- A text comes out of it as it was only when nothing of it is escaped. -/
theorem encode_eq_widen_iff {escaped : UInt8 → Bool} {raw : List UInt8} :
    encode escaped raw = widen raw ↔ ∀ ch ∈ raw, escaped ch = false := by
  constructor
  · intro same
    have lengths := congrArg List.length same
    rw [length_encode, widen, List.length_map] at lengths
    have none : raw.countP escaped = 0 := by omega
    simpa using List.countP_eq_zero.mp none
  · exact encode_plain

/-- What holds of `%`, of the digits and of what is not escaped holds of every character. -/
theorem forall_encode {escaped : UInt8 → Bool} {P : UInt16 → Prop} (sign : P percent)
    (digit : ∀ n < 16, P (hexDigit n)) {raw : List UInt8}
    (plain : ∀ ch ∈ raw, escaped ch = false → P ch.toUInt16) : ∀ c ∈ encode escaped raw, P c := by
  intro c member
  obtain ⟨ch, among, member⟩ := List.mem_flatMap.mp member
  have below := ch.toNat_lt
  by_cases e : escaped ch = true
  · rw [if_pos e, escape] at member
    rcases List.mem_cons.mp member with rfl | member
    · exact sign
    rcases List.mem_cons.mp member with rfl | member
    · exact digit _ (by omega)
    rcases List.mem_singleton.mp member with rfl
    exact digit _ (by omega)
  · rw [if_neg e] at member
    rcases List.mem_singleton.mp member with rfl
    exact plain ch among (by simpa using e)

end Percent
