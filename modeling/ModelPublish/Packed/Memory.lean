import Mathlib

/-!
# Buffers and C strings

Bytes as a C program moves them: blocks whose content it did not choose, copies to the front of a
buffer, and strings that end at their first NUL.
-/

namespace Packed

def cells (f : Nat → UInt8) (n : Nat) : List UInt8 := (List.range n).map f

@[simp] theorem length_cells (f : Nat → UInt8) (n : Nat) : (cells f n).length = n := by
  simp [cells]

/-- The buffer after `bytes` were copied to its front. What does not fit is not written here. -/
def overlay (buf bytes : List UInt8) : List UInt8 := (bytes ++ buf.drop bytes.length).take buf.length

@[simp] theorem length_overlay (buf bytes : List UInt8) : (overlay buf bytes).length = buf.length := by
  simp only [overlay, List.length_take, List.length_append, List.length_drop]
  omega

theorem overlay_full {buf bytes : List UInt8} (h : bytes.length = buf.length) :
    overlay buf bytes = bytes := by
  rw [overlay, h, List.drop_length, List.append_nil, ← h, List.take_length]

theorem overlay_cells {f : Nat → UInt8} {n : Nat} {bytes : List UInt8} (h : bytes.length = n) :
    overlay (cells f n) bytes = bytes := overlay_full (by simpa using h)

/-- `len` bytes from `ofs` on. Past the end of the block lies `beyond`. -/
def fetch (block : List UInt8) (beyond : Nat → UInt8) (ofs len : Nat) : List UInt8 :=
  (block.drop ofs).take len ++ cells beyond (len - (block.length - ofs))

@[simp] theorem length_fetch (block : List UInt8) (beyond : Nat → UInt8) (ofs len : Nat) :
    (fetch block beyond ofs len).length = len := by
  simp only [fetch, List.length_append, List.length_take, List.length_drop, length_cells]
  omega

theorem fetch_inside {block : List UInt8} {beyond : Nat → UInt8} {ofs len : Nat}
    (h : ofs + len ≤ block.length) : fetch block beyond ofs len = (block.drop ofs).take len := by
  rw [fetch, Nat.sub_eq_zero_of_le (by omega)]
  exact List.append_nil _

/-- The content of a file after `data` was written `ofs` bytes into it. A gap reads as zeros. -/
def patch (content : List UInt8) (ofs : Nat) (data : List UInt8) : List UInt8 :=
  (content ++ List.replicate (ofs - content.length) 0).take ofs ++ data ++ content.drop (ofs + data.length)

theorem patch_end (content data : List UInt8) : patch content content.length data = content ++ data := by
  have past : content.length ≤ content.length + data.length := Nat.le_add_right _ _
  rw [patch, Nat.sub_self, List.replicate_zero, List.append_nil, List.take_length,
    List.drop_eq_nil_of_le past, List.append_nil]

theorem patch_start (content data : List UInt8) :
    patch content 0 data = data ++ content.drop data.length := by
  simp [patch]

theorem patch_inside (before : List UInt8) {old data : List UInt8} (after : List UInt8)
    (same : data.length = old.length) :
    patch (before ++ old ++ after) before.length data = before ++ data ++ after := by
  have inside : before.length - (before ++ old ++ after).length = 0 := by
    simp only [List.length_append]
    omega
  have rest : (before ++ old ++ after).drop (before.length + data.length) = after :=
    List.drop_left' (by rw [List.length_append, same])
  rw [patch, inside, List.replicate_zero, List.append_nil, rest, List.append_assoc before old after,
    List.take_left' rfl]

/-- One write behind another is one write of both. -/
theorem patch_append (content : List UInt8) (ofs : Nat) (a b : List UInt8) :
    patch (patch content ofs a) (ofs + a.length) b = patch content ofs (a ++ b) := by
  have front : ((content ++ List.replicate (ofs - content.length) 0).take ofs).length = ofs := by
    simp only [List.length_take, List.length_append, List.length_replicate]
    omega
  unfold patch
  generalize (content ++ List.replicate (ofs - content.length) 0).take ofs = before at front
  have inside : ofs + a.length - (before ++ a ++ content.drop (ofs + a.length)).length = 0 := by
    simp only [List.length_append]
    omega
  have rest : (before ++ a ++ content.drop (ofs + a.length)).drop (ofs + a.length + b.length) =
      content.drop (ofs + (a ++ b).length) := by
    rw [List.drop_append, List.drop_eq_nil_of_le (by simp only [List.length_append]; omega),
      List.nil_append, List.drop_drop, List.length_append, List.length_append]
    congr 1
    omega
  have kept : (before ++ a ++ content.drop (ofs + a.length)).take (ofs + a.length) = before ++ a :=
    List.take_left' (by rw [List.length_append, front])
  rw [inside, List.replicate_zero, List.append_nil, kept, rest, List.append_assoc before a b]

/-! ### C strings -/

/-- What a `char*` to the start of `bs` reads as. -/
def cstr (bs : List UInt8) : List UInt8 := bs.takeWhile (· ≠ 0)

def NulFree (s : List UInt8) : Prop := 0 ∉ s

instance (s : List UInt8) : Decidable (NulFree s) := inferInstanceAs (Decidable (0 ∉ s))

theorem cstr_nulFree (bs : List UInt8) : NulFree (cstr bs) := by
  intro member
  have nonzero := List.mem_takeWhile_imp member
  simp at nonzero

theorem cstr_append {s : List UInt8} (h : NulFree s) (rest : List UInt8) :
    cstr (s ++ rest) = s ++ cstr rest := by
  apply List.takeWhile_append_of_pos
  intro b member
  have nonzero : b ≠ 0 := fun zero => h (zero ▸ member)
  simpa using nonzero

theorem cstr_of_nulFree {s : List UInt8} (h : NulFree s) : cstr s = s := by
  simpa [cstr] using cstr_append h []

theorem cstr_zero (rest : List UInt8) : cstr (0 :: rest) = [] := rfl

theorem cstr_append_of_mem {s : List UInt8} (h : 0 ∈ s) (rest : List UInt8) :
    cstr (s ++ rest) = cstr s := by
  induction s with
  | nil => cases h
  | cons b s ih =>
    by_cases zero : b = 0
    · rw [zero, List.cons_append, cstr_zero, cstr_zero]
    · have inner : 0 ∈ s := (List.mem_cons.mp h).resolve_left (Ne.symm zero)
      simp [cstr, zero] at ih ⊢
      exact ih inner

/-- The field after `strncpy(field, s, n)`: cut at `n` bytes, padded with NUL. -/
def strncpy (n : Nat) (s : List UInt8) : List.Vector UInt8 n :=
  ⟨(cstr s ++ List.replicate n 0).take n, by simp⟩

theorem toList_strncpy (n : Nat) (s : List UInt8) :
    (strncpy n s).toList = (cstr s ++ List.replicate n 0).take n := rfl

theorem cstr_strncpy_short {n : Nat} {s : List UInt8} (free : NulFree s) (short : s.length < n)
    (rest : List UInt8) : cstr ((strncpy n s).toList ++ rest) = s := by
  obtain ⟨pad, room⟩ : ∃ pad, n = s.length + (pad + 1) := ⟨n - s.length - 1, by omega⟩
  have front : (s ++ List.replicate n (0 : UInt8)).take n = s ++ 0 :: List.replicate pad 0 := by
    rw [List.take_append, List.take_of_length_le (Nat.le_of_lt short), List.take_replicate,
      show min (n - s.length) n = pad + 1 by omega, List.replicate_succ]
  rw [toList_strncpy, cstr_of_nulFree free, front, List.append_assoc, cstr_append free,
    List.cons_append, cstr_zero, List.append_nil]

/-- A string that fills the field runs on into the bytes behind it. -/
theorem cstr_strncpy_long {n : Nat} {s : List UInt8} (free : NulFree s) (long : n ≤ s.length)
    (rest : List UInt8) : cstr ((strncpy n s).toList ++ rest) = s.take n ++ cstr rest := by
  have front : (s ++ List.replicate n (0 : UInt8)).take n = s.take n :=
    List.take_append_of_le_length long
  have cut : NulFree (s.take n) := fun member => free (List.mem_of_mem_take member)
  rw [toList_strncpy, cstr_of_nulFree free, front, cstr_append cut]

end Packed
