import Mathlib

/-!
# LZ4 blocks

`LZ4_decompress_fast` as the loader calls it, with the buffer of the source made explicit: the C
function is told only how many bytes to produce, so it may leave either buffer. The compressor is
known by its contract.
-/

namespace Lz4

def maxInputSize : Nat := 0x7E000000

/-- `LZ4_compressBound`, for sizes the macro accepts. -/
def compressBound (size : Nat) : Nat := if maxInputSize < size then 0 else size + size / 255 + 16

/-- What a call of `LZ4_decompress_fast` comes to. -/
inductive Decoded where
  | done (consumed : Nat) (out : List UInt8)
  | malformed
  | overrun
  deriving DecidableEq, Repr

/-- `do { s = *ip++; length += s; } while (s == 255)`. -/
def extraLength : List UInt8 → Option (Nat × List UInt8)
  | [] => none
  | s :: ip => if s = 255 then (extraLength ip).map fun r => (255 + r.1, r.2) else some (s.toNat, ip)

/-- A length whose first four bits are `nibble`. -/
def fieldLength (nibble : Nat) (ip : List UInt8) : Option (Nat × List UInt8) :=
  if nibble = 15 then (extraLength ip).map fun r => (15 + r.1, r.2) else some (nibble, ip)

/-- `length` bytes from `offset` back, each already written when it is read. Offset 0 repeats the
zero bytes that the offset word itself left there. -/
def copyMatch (out : List UInt8) (offset : Nat) : Nat → List UInt8
  | 0 => out
  | length + 1 => copyMatch (out ++ [out.getD (out.length - offset) 0]) offset length

/-- One sequence after its token: the end of the block, or the input and output that remain. -/
def sequence (originalSize : Int) (token : UInt8) (ip out : List UInt8) :
    Decoded ⊕ (List UInt8 × List UInt8) :=
  match fieldLength (token.toNat / 16) ip with
  | none => .inl .overrun
  | some (length, ip) =>
    let cpy : Int := out.length + length
    if originalSize - 8 < cpy then
      if cpy ≠ originalSize then .inl .malformed
      else if ip.length < length then .inl .overrun
      else .inl (.done (ip.length - length) (out ++ ip.take length))
    else if ip.length < length then .inl .overrun
    else
      let out := out ++ ip.take length
      match ip.drop length with
      | low :: high :: ip =>
        let offset := low.toNat + 256 * high.toNat
        match fieldLength (token.toNat % 16) ip with
        | none => .inl .overrun
        | some (matchLength, ip) =>
          if out.length < offset then .inl .overrun
          else if originalSize - 5 < out.length + (matchLength + 4) then .inl .malformed
          else .inr (ip, copyMatch out offset (matchLength + 4))
      | _ => .inl .overrun

/-- The sequence loop. Every sequence takes its token from the input, which bounds the number of
rounds. `done` carries the bytes left over. -/
def sequences (originalSize : Int) : Nat → List UInt8 → List UInt8 → Decoded
  | 0, _, _ => .overrun
  | _ + 1, [], _ => .overrun
  | rounds + 1, token :: ip, out =>
    match sequence originalSize token ip out with
    | .inl decoded => decoded
    | .inr (ip, out) => sequences originalSize rounds ip out

/-- `LZ4_decompress_fast` on a source buffer that ends where `src` ends. The spare bytes that its
eight-byte copies touch and never use are not counted as reads. -/
def decompressFast (src : List UInt8) (originalSize : Int) : Decoded :=
  if originalSize = 0 then
    match src with
    | [] => .overrun
    | first :: _ => if first = 0 then .done 1 [] else .malformed
  else
    match sequences originalSize src.length src [] with
    | .done left out => .done (src.length - left) out
    | other => other

/-- A block that decodes to exactly `size` bytes within the source buffer. -/
def Decodes (src : List UInt8) (size : Int) : Prop :=
  ∃ consumed out, decompressFast src size = .done consumed out

instance (src : List UInt8) (size : Int) : Decidable (Decodes src size) :=
  match h : decompressFast src size with
  | .done consumed out => isTrue ⟨consumed, out, h⟩
  | .malformed => isFalse fun ⟨_, _, same⟩ => by rw [h] at same; cases same
  | .overrun => isFalse fun ⟨_, _, same⟩ => by rw [h] at same; cases same

theorem sequence_done {originalSize : Int} {token : UInt8} {ip out : List UInt8} {left : Nat}
    {result : List UInt8} (h : sequence originalSize token ip out = .inl (.done left result)) :
    (result.length : Int) = originalSize := by
  unfold sequence at h
  split at h
  · cases h
  · rename_i length ip' _
    simp only at h
    split at h
    · split at h
      · cases h
      · rename_i exact
        split at h
        · cases h
        · cases h
          simp only [List.length_append, List.length_take]
          omega
    · repeat' split at h
      all_goals cases h

theorem sequences_done {originalSize : Int} {rounds : Nat} {ip out : List UInt8} {left : Nat}
    {result : List UInt8} (h : sequences originalSize rounds ip out = .done left result) :
    (result.length : Int) = originalSize := by
  induction rounds generalizing ip out with
  | zero => cases h
  | succ rounds ih =>
    cases ip with
    | nil => cases h
    | cons token ip =>
      rw [sequences] at h
      split at h
      · rename_i decoded stop
        subst h
        exact sequence_done stop
      · exact ih h

theorem decompressFast_done {src : List UInt8} {size : Int} {consumed : Nat} {out : List UInt8}
    (h : decompressFast src size = .done consumed out) :
    (out.length : Int) = size ∧ consumed ≤ src.length := by
  unfold decompressFast at h
  split at h
  · rename_i empty
    cases src with
    | nil => cases h
    | cons first rest =>
      simp only at h
      split at h
      · cases h
        exact ⟨by simp [empty], Nat.succ_le_succ (Nat.zero_le _)⟩
      · cases h
  · split at h
    · rename_i left result inner
      cases h
      exact ⟨sequences_done inner, Nat.sub_le _ _⟩
    · rename_i other
      exact (other _ _ h).elim

/-! ### Blocks of literals -/

/-- The bytes after a token whose length does not fit its four bits. -/
def extraBytes (length : Nat) : List UInt8 :=
  List.replicate (length / 255) 255 ++ [UInt8.ofNat (length % 255)]

/-- The last sequence of a block: literals and no match. -/
def lastLiterals (lastRun : List UInt8) : List UInt8 :=
  if 15 ≤ lastRun.length then 0xF0 :: (extraBytes (lastRun.length - 15) ++ lastRun)
  else UInt8.ofNat (16 * lastRun.length) :: lastRun

theorem extraLength_replicate (count : Nat) (last : UInt8) (small : last ≠ 255) (rest : List UInt8) :
    extraLength (List.replicate count 255 ++ last :: rest) = some (255 * count + last.toNat, rest) := by
  induction count with
  | zero => simp [extraLength, small]
  | succ count ih =>
    rw [List.replicate_succ, List.cons_append, extraLength, if_pos rfl, ih]
    simp only [Option.map_some]
    congr 2
    omega

theorem extraLength_extraBytes (length : Nat) (rest : List UInt8) :
    extraLength (extraBytes length ++ rest) = some (length, rest) := by
  have digit : (UInt8.ofNat (length % 255)).toNat = length % 255 := by
    rw [UInt8.toNat_ofNat']; omega
  have small : UInt8.ofNat (length % 255) ≠ 255 := by
    intro same
    have value : (255 : UInt8).toNat = length % 255 := same ▸ digit
    have : (255 : UInt8).toNat = 255 := rfl
    omega
  rw [extraBytes, List.append_assoc, List.singleton_append, extraLength_replicate _ _ small, digit,
    Nat.div_add_mod]

theorem sequence_lastLiterals (bs : List UInt8) (token : UInt8) (ip : List UInt8)
    (split : lastLiterals bs = token :: ip) :
    sequence bs.length token ip [] = .inl (.done 0 bs) := by
  have length : fieldLength (token.toNat / 16) ip = some (bs.length, bs) := by
    unfold lastLiterals at split
    split at split
    · rename_i long
      obtain ⟨rfl, rfl⟩ := List.cons.inj split
      have nibble : (0xF0 : UInt8).toNat / 16 = 15 := rfl
      rw [fieldLength, if_pos nibble, extraLength_extraBytes]
      simp only [Option.map_some]
      congr 2
      omega
    · obtain ⟨rfl, rfl⟩ := List.cons.inj split
      have nibble : (UInt8.ofNat (16 * bs.length)).toNat / 16 = bs.length := by
        rw [UInt8.toNat_ofNat']; omega
      rw [nibble, fieldLength, if_neg (by omega)]
  simp only [sequence, length, List.length_nil, List.nil_append]
  rw [if_pos (by omega), if_neg (by omega), if_neg (by omega), Nat.sub_self, List.take_length]

theorem decompressFast_lastLiterals (bs : List UInt8) :
    decompressFast (lastLiterals bs) bs.length = .done (lastLiterals bs).length bs := by
  unfold decompressFast
  split
  · rename_i empty
    have none : bs = [] := List.length_eq_zero_iff.mp (by omega)
    subst none
    rfl
  · cases block : lastLiterals bs with
    | nil => unfold lastLiterals at block; split at block <;> cases block
    | cons token ip => rw [List.length_cons, sequences, sequence_lastLiterals bs token ip block]; rfl

theorem length_lastLiterals (bs : List UInt8) :
    0 < (lastLiterals bs).length ∧ (lastLiterals bs).length ≤ bs.length + bs.length / 255 + 16 := by
  unfold lastLiterals extraBytes
  split
  · simp only [List.length_cons, List.length_append, List.length_replicate, List.length_nil]
    omega
  · simp only [List.length_cons]
    omega

/-! ### The compressor -/

/-- The contract of `LZ4_compress_HC`: given the capacity `LZ4_compressBound` asks for it succeeds,
and what it writes is a whole block of the source. The result stands for the bytes written, so a
return value of 0 is the empty list. -/
structure CompressHC (compress : List UInt8 → Nat → List UInt8) : Prop where
  written : ∀ src capacity, src.length ≤ maxInputSize → compressBound src.length ≤ capacity →
    0 < (compress src capacity).length ∧ (compress src capacity).length ≤ compressBound src.length
  restores : ∀ src capacity, src.length ≤ maxInputSize → compressBound src.length ≤ capacity →
    decompressFast (compress src capacity) src.length = .done (compress src capacity).length src

/-- Storing the source as literals meets the contract. -/
theorem compressHC_lastLiterals : CompressHC fun src _ => lastLiterals src where
  written src _ small _ := by
    have := length_lastLiterals src
    rw [compressBound, if_neg (by omega)]
    exact this
  restores src _ _ _ := decompressFast_lastLiterals src

end Lz4
