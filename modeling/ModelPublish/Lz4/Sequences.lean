import ModelPublish.Lz4.Block

/-!
# Sequences and what they decode to

A block is a run of sequences, literals followed by a match, and a last run of literals. What is
written so far stands for the prefix of the source it decodes to, whatever comes after it.
-/

namespace Lz4

def minMatch : Nat := 4
def lastLiteralsLength : Nat := 5
def mfLimit : Nat := 12
def maxDistance : Nat := 65535

/-- The byte of `src` at a place. -/
def byteAt (src : List UInt8) (place : Nat) : UInt8 := src.getD place 0

/-- The `length` bytes at `pos` repeat those `offset` back. -/
structure Repeats (src : List UInt8) (pos offset length : Nat) : Prop where
  back : 0 < offset
  near : offset ≤ maxDistance
  within : offset ≤ pos
  inside : pos + length ≤ src.length
  same : ∀ i < length, byteAt src (pos + i - offset) = byteAt src (pos + i)

theorem Repeats.shorter {src : List UInt8} {pos offset length shorter : Nat}
    (h : Repeats src pos offset length) (le : shorter ≤ length) :
    Repeats src pos offset shorter where
  back := h.back
  near := h.near
  within := h.within
  inside := by have := h.inside; omega
  same i small := h.same i (by omega)

/-- A repeat that was compared extends the prefix before it. -/
theorem copyMatch_take {src : List UInt8} {pos offset length : Nat}
    (h : Repeats src pos offset length) :
    copyMatch (src.take pos) offset length = src.take (pos + length) := by
  induction length generalizing pos with
  | zero => rfl
  | succ length ih =>
    have inside := h.inside
    have within := h.within
    have short : (src.take pos).length = pos := by rw [List.length_take]; omega
    have first : (src.take pos).getD (pos - offset) 0 = src.getD pos 0 := by
      have same : src.getD (pos - offset) 0 = src.getD pos 0 := h.same 0 (Nat.succ_pos _)
      have back := h.back
      rw [← same, List.getD_eq_getElem?_getD, List.getElem?_take_of_lt (by omega),
        List.getD_eq_getElem?_getD]
    have next : src.take pos ++ [src.getD pos 0] = src.take (pos + 1) := by
      rw [List.take_add_one, List.getD_eq_getElem?_getD, List.getElem?_eq_getElem (by omega)]
      rfl
    have rest : Repeats src (pos + 1) offset length :=
      { back := h.back
        near := h.near
        within := by omega
        inside := by omega
        same := fun i small => by
          have same := h.same (i + 1) (by omega)
          rwa [show pos + (i + 1) = pos + 1 + i by omega] at same }
    rw [copyMatch, short, first, next, ih rest, Nat.add_right_comm, Nat.add_assoc]

/-! ### Tokens and lengths -/

/-- The four bits a length puts into its token. -/
def nibble (length : Nat) : Nat := min length 15

/-- The bytes behind the token for a length of 15 and more. -/
def behindNibble (length : Nat) : List UInt8 := if 15 ≤ length then extraBytes (length - 15) else []

def tokenOf (literals length : Nat) : UInt8 := UInt8.ofNat (16 * nibble literals + nibble length)

theorem toNat_tokenOf (literals length : Nat) :
    (tokenOf literals length).toNat = 16 * nibble literals + nibble length := by
  have : nibble literals ≤ 15 := Nat.min_le_right _ _
  have : nibble length ≤ 15 := Nat.min_le_right _ _
  rw [tokenOf, UInt8.toNat_ofNat']
  omega

theorem tokenOf_literals (literals length : Nat) :
    (tokenOf literals length).toNat / 16 = nibble literals := by
  have : nibble length ≤ 15 := Nat.min_le_right _ _
  rw [toNat_tokenOf]
  omega

theorem tokenOf_length (literals length : Nat) :
    (tokenOf literals length).toNat % 16 = nibble length := by
  have : nibble length ≤ 15 := Nat.min_le_right _ _
  rw [toNat_tokenOf]
  omega

theorem fieldLength_behind (length : Nat) (rest : List UInt8) :
    fieldLength (nibble length) (behindNibble length ++ rest) = some (length, rest) := by
  unfold fieldLength behindNibble nibble
  split
  · rename_i long
    rw [if_pos (by omega), extraLength_extraBytes, Option.map_some,
      show 15 + (length - 15) = length by omega]
  · rename_i short
    rw [if_neg (by omega), List.nil_append, Nat.min_eq_left (by omega)]

theorem length_behindNibble (length : Nat) :
    (behindNibble length).length = if 15 ≤ length then 1 + (length - 15) / 255 else 0 := by
  unfold behindNibble extraBytes
  split
  · simp only [List.length_append, List.length_replicate, List.length_cons, List.length_nil]
    omega
  · rfl

/-- One sequence as it lies in the block. -/
def sequenceBytes (literals : List UInt8) (offset matchLength : Nat) : List UInt8 :=
  tokenOf literals.length (matchLength - minMatch) :: (behindNibble literals.length ++ literals
    ++ [UInt8.ofNat offset, UInt8.ofNat (offset / 256)] ++ behindNibble (matchLength - minMatch))

theorem length_sequenceBytes (literals : List UInt8) (offset matchLength : Nat)
    (long : minMatch ≤ matchLength) :
    255 * (sequenceBytes literals offset matchLength).length ≤
      256 * (literals.length + matchLength) := by
  simp only [sequenceBytes, minMatch, List.length_cons, List.length_append, List.length_nil,
    length_behindNibble] at long ⊢
  split <;> split <;> omega

/-- A sequence whose match repeats the source takes the prefix at its literals to the prefix behind
its match. -/
theorem sequence_sequenceBytes {src : List UInt8} {anchor ip offset matchLength : Nat}
    (ordered : anchor ≤ ip) (long : minMatch ≤ matchLength)
    (repeats : Repeats src ip offset matchLength) (early : ip + mfLimit < src.length)
    (ends : ip + matchLength + lastLiteralsLength ≤ src.length) (rest : List UInt8) :
    let literals := (src.drop anchor).take (ip - anchor)
    sequence src.length (tokenOf literals.length (matchLength - minMatch))
      (behindNibble literals.length ++ literals ++ [UInt8.ofNat offset, UInt8.ofNat (offset / 256)]
        ++ behindNibble (matchLength - minMatch) ++ rest) (src.take anchor)
      = .inr (rest, src.take (ip + matchLength)) := by
  intro literals
  simp only [minMatch, mfLimit, lastLiteralsLength] at long early ends
  have near : offset < 65536 := Nat.lt_succ_of_le repeats.near
  have within := repeats.within
  have count : literals.length = ip - anchor := by
    simp only [literals, List.length_take, List.length_drop]
    omega
  have before : (src.take anchor).length = anchor := by rw [List.length_take]; omega
  have upTo : src.take anchor ++ literals = src.take ip := by
    conv => rhs; rw [show ip = anchor + (ip - anchor) by omega, List.take_add]
  have behind : (src.take ip).length = ip := by rw [List.length_take]; omega
  have offsetBytes : (UInt8.ofNat offset).toNat + 256 * (UInt8.ofNat (offset / 256)).toNat =
      offset := by
    rw [UInt8.toNat_ofNat', UInt8.toNat_ofNat']
    omega
  have taken (tail : List UInt8) : (literals ++ tail).take literals.length = literals :=
    List.take_left
  have dropped (tail : List UInt8) : (literals ++ tail).drop literals.length = tail :=
    List.drop_left
  simp only [List.append_assoc]
  rw [sequence, tokenOf_literals, fieldLength_behind]
  simp only [taken, dropped, upTo, before, behind, tokenOf_length, fieldLength_behind,
    List.cons_append, List.nil_append, List.length_append, offsetBytes, minMatch]
  rw [if_neg (by omega), if_neg (by omega), if_neg (by omega), if_neg (by omega),
    show matchLength - 4 + 4 = matchLength by omega, copyMatch_take repeats]

/-! ### What is written so far -/

/-- `written` decodes to the first `pos` bytes of `src`, in a number of rounds that its own bytes
pay for, and leaves what follows it to be decoded from there. -/
structure StandsFor (src written : List UInt8) (pos : Nat) : Prop where
  nothing : src = [] → written = []
  runs : ∃ used ≤ written.length, ∀ rounds rest,
    sequences src.length (rounds + used) (written ++ rest) [] =
      sequences src.length rounds rest (src.take pos)

theorem standsFor_nil (src : List UInt8) : StandsFor src [] 0 where
  nothing _ := rfl
  runs := ⟨0, Nat.le_refl _, fun _ _ => rfl⟩

theorem StandsFor.snoc {src written : List UInt8} {anchor ip offset matchLength : Nat}
    (h : StandsFor src written anchor) (ordered : anchor ≤ ip) (long : minMatch ≤ matchLength)
    (repeats : Repeats src ip offset matchLength) (early : ip + mfLimit < src.length)
    (ends : ip + matchLength + lastLiteralsLength ≤ src.length) :
    StandsFor src (written ++ sequenceBytes ((src.drop anchor).take (ip - anchor)) offset
      matchLength) (ip + matchLength) where
  nothing empty := by
    subst empty
    exact absurd early (Nat.not_lt_zero _)
  runs := by
    obtain ⟨used, few, run⟩ := h.runs
    refine ⟨used + 1, ?_, fun rounds rest => ?_⟩
    · simp only [sequenceBytes, List.length_append, List.length_cons]
      omega
    · rw [List.append_assoc, show rounds + (used + 1) = rounds + 1 + used by omega, run,
        sequenceBytes, List.cons_append, sequences,
        sequence_sequenceBytes ordered long repeats early ends rest]

/-- The last literals of a block, with the sequences before them already decoded. -/
theorem sequence_literals (out literals : List UInt8) (rest : List UInt8) :
    sequence (out.length + literals.length : Nat) (tokenOf literals.length 0)
      (behindNibble literals.length ++ literals ++ rest) out =
      .inl (.done rest.length (out ++ literals)) := by
  rw [List.append_assoc, sequence, tokenOf_literals, fieldLength_behind]
  simp only
  rw [if_pos (by omega), if_neg (by omega), if_neg (by simp), List.take_left]
  simp

theorem lastLiterals_eq (literals : List UInt8) :
    lastLiterals literals =
      tokenOf literals.length 0 :: (behindNibble literals.length ++ literals) := by
  unfold lastLiterals tokenOf behindNibble nibble
  split
  · rename_i long
    rw [Nat.min_eq_right long]
    rfl
  · rename_i short
    rw [Nat.min_eq_left (by omega)]
    rfl

/-- Sequences and the literals that are left decode to the source. -/
theorem StandsFor.decodes {src written : List UInt8} {anchor : Nat}
    (h : StandsFor src written anchor) (inside : anchor ≤ src.length) :
    decompressFast (written ++ lastLiterals (src.drop anchor)) src.length =
      .done (written ++ lastLiterals (src.drop anchor)).length src := by
  by_cases empty : src = []
  · rw [h.nothing empty, empty, List.drop_nil]
    rfl
  obtain ⟨used, few, run⟩ := h.runs
  have some : 0 < (lastLiterals (src.drop anchor)).length := (length_lastLiterals _).1
  obtain ⟨rounds, enough⟩ : ∃ rounds, (written ++ lastLiterals (src.drop anchor)).length =
      rounds + 1 + used := ⟨(written ++ lastLiterals (src.drop anchor)).length - 1 - used, by
    rw [List.length_append]; omega⟩
  have size : src.length = (src.take anchor).length + (src.drop anchor).length := by
    rw [List.length_take, List.length_drop]
    omega
  have last : sequences src.length (rounds + 1) (lastLiterals (src.drop anchor)) (src.take anchor) =
      .done 0 src := by
    have step := sequence_literals (src.take anchor) (src.drop anchor) []
    rw [List.append_nil, ← size] at step
    rw [lastLiterals_eq, sequences, step, List.take_append_drop]
    rfl
  have positive := List.length_pos_iff.mpr empty
  unfold decompressFast
  rw [if_neg (by omega), enough, run, last]
  rfl

end Lz4
