import ModelPublish.Lz4.Optimal

/-!
# What the optimal parser writes decodes to its source

Prices only choose between ways. Every position priced is reached by a literal or by a match that
repeats the source, so whichever way the walk back takes, its sequences tile the bytes it covers.
-/

namespace Lz4

variable {src : List UInt8}

/-! ### One sequence -/

theorem runBytes_eq (len : Nat) : runBytes len = extraBytes len := by
  induction len using runBytes.induct with
  | case1 len more ih =>
    rw [runBytes, if_pos more, ih, extraBytes, extraBytes,
      show len / 255 = (len - 255) / 255 + 1 by omega, show len % 255 = (len - 255) % 255 by omega,
      List.replicate_succ, List.cons_append]
  | case2 len more =>
    rw [runBytes, if_neg more, extraBytes, Nat.div_eq_of_lt (Nat.lt_of_not_le more),
      Nat.mod_eq_of_lt (Nat.lt_of_not_le more)]
    rfl

theorem matchBytes_eq (length : Nat) : matchBytes length = extraBytes length := by
  induction length using matchBytes.induct with
  | case1 length more ih =>
    rw [matchBytes, if_pos more, ih, extraBytes, extraBytes,
      show length / 255 = (length - 510) / 255 + 1 + 1 by omega,
      show length % 255 = (length - 510) % 255 by omega, List.replicate_succ, List.replicate_succ,
      List.cons_append, List.cons_append]
  | case2 length less more =>
    rw [matchBytes, if_neg less, if_pos more, extraBytes, show length / 255 = 1 by omega,
      show length % 255 = length - 255 by omega]
    rfl
  | case3 length less more =>
    rw [matchBytes, if_neg less, if_neg more, extraBytes,
      Nat.div_eq_of_lt (Nat.lt_of_not_le more), Nat.mod_eq_of_lt (Nat.lt_of_not_le more)]
    rfl

/-- The token is written with the literals and completed with the match. -/
theorem token_eq (literals length : Nat) :
    ((if 15 ≤ literals then 0xF0 else UInt8.ofNat (16 * literals)) +
      if 15 ≤ length then 15 else UInt8.ofNat length : UInt8) = tokenOf literals length := by
  rw [← UInt8.toNat_inj, toNat_tokenOf, UInt8.toNat_add]
  have high : (0xF0 : UInt8).toNat = 240 := rfl
  have low : (15 : UInt8).toNat = 15 := rfl
  simp only [nibble]
  split <;> split <;> simp only [high, low, UInt8.toNat_ofNat'] <;> omega

theorem behindNibble_eq (length : Nat) :
    (if 15 ≤ length then extraBytes (length - 15) else []) = behindNibble length := rfl

/-- A match the block format admits at a place of the source. -/
structure Usable (src : List UInt8) (pos offset length : Nat) : Prop where
  repeats : Repeats src pos offset length
  long : minMatch ≤ length
  early : pos + mfLimit < src.length
  ends : pos + length + lastLiteralsLength ≤ src.length

theorem Usable.shorter {pos offset length shorter : Nat} (h : Usable src pos offset length)
    (le : shorter ≤ length) (long : minMatch ≤ shorter) : Usable src pos offset shorter where
  repeats := h.repeats.shorter le
  long := long
  early := h.early
  ends := by have := h.ends; omega

/-- What the parser keeps true of its output. -/
structure Output.Sound (src : List UInt8) (out : Output) : Prop where
  ordered : out.anchor ≤ out.ip
  inside : out.anchor ≤ src.length
  stands : StandsFor src out.op out.anchor
  compact : 255 * out.op.length ≤ 256 * out.anchor
  touched : out.touched ≤ src.length + src.length / 255 + 16

theorem Output.sound_nil : Output.Sound src ⟨0, 0, [], 0⟩ where
  ordered := Nat.le_refl _
  inside := Nat.zero_le _
  stands := standsFor_nil src
  compact := Nat.le_refl _
  touched := Nat.zero_le _

theorem Output.Sound.literal {out : Output} (h : out.Sound src) :
    Output.Sound src { out with ip := out.ip + 1 } where
  ordered := Nat.le_succ_of_le h.ordered
  inside := h.inside
  stands := h.stands
  compact := h.compact
  touched := h.touched

/-- A sequence that fits is written as the format has it. -/
theorem encodeSequence_op {limit : Option Nat} {out next : Output} {matchLength offset : Nat}
    (repeats : Repeats src out.ip offset matchLength)
    (written : encodeSequence src limit out matchLength (out.ip - offset) = some next) :
    next.ip = out.ip + matchLength ∧ next.anchor = out.ip + matchLength ∧
    next.op = out.op ++ sequenceBytes ((src.drop out.anchor).take (out.ip - out.anchor)) offset
      matchLength ∧
    next.touched ≤ max out.touched (max
      (wildCopyEnd (out.op.length + 1 + (behindNibble (out.ip - out.anchor)).length)
        (out.ip - out.anchor)) next.op.length) := by
  have within := repeats.within
  have near := repeats.near
  have inside := repeats.inside
  have count : ((src.drop out.anchor).take (out.ip - out.anchor)).length = out.ip - out.anchor := by
    rw [List.length_take, List.length_drop]
    omega
  have word : (out.ip - (out.ip - offset)) % 65536 = offset := by
    simp only [maxDistance] at near
    omega
  unfold encodeSequence at written
  simp only [runBytes_eq, matchBytes_eq, token_eq, behindNibble_eq, word] at written
  split at written
  · cases written
  · split at written
    · cases written
    · obtain rfl := Option.some.inj written
      refine ⟨rfl, rfl, ?_, ?_⟩
      · simp only [sequenceBytes, count, List.append_assoc]
      · simp only [List.length_append, List.length_cons]
        omega

theorem Output.Sound.sequence {limit : Option Nat} {out next : Output} {matchLength offset : Nat}
    (h : out.Sound src) (usable : Usable src out.ip offset matchLength)
    (written : encodeSequence src limit out matchLength (out.ip - offset) = some next) :
    next.Sound src ∧ next.ip = out.ip + matchLength := by
  obtain ⟨ip, anchor, op, touched⟩ := encodeSequence_op usable.repeats written
  have ordered := h.ordered
  have early := usable.early
  have ends := usable.ends
  have compact := h.compact
  have before := h.touched
  have count : ((src.drop out.anchor).take (out.ip - out.anchor)).length = out.ip - out.anchor := by
    rw [List.length_take, List.length_drop]
    omega
  have cost := length_sequenceBytes ((src.drop out.anchor).take (out.ip - out.anchor)) offset
    matchLength usable.long
  simp only [mfLimit, lastLiteralsLength] at early ends
  have length : 255 * next.op.length ≤ 256 * next.anchor := by
    rw [op, anchor, List.length_append]
    omega
  refine ⟨⟨by omega, by omega, ?_, length, ?_⟩, ip⟩
  · rw [op, anchor]
    exact h.stands.snoc ordered usable.long usable.repeats usable.early usable.ends
  · have wild : wildCopyEnd (out.op.length + 1 + (behindNibble (out.ip - out.anchor)).length)
        (out.ip - out.anchor) ≤ src.length + src.length / 255 + 16 := by
      rw [wildCopyEnd, length_behindNibble]
      split <;> omega
    omega

theorem encodeSequence_noLimit (src : List UInt8) (out : Output) (matchLength matchPos : Nat) :
    (encodeSequence src none out matchLength matchPos).isSome := by
  unfold encodeSequence exceeds
  simp

end Lz4
