import Mathlib

/-!
# Packed records

Byte layouts of fixed size: how a value lies in memory and how it is read back. A `Codec`
carries the proofs that both directions agree, so a record layout is built by composing
codecs and every offset and round trip follows from its parts.
-/

namespace Packed

/-- A layout of fixed size. `dec` reads the front of a byte string of any length. -/
structure Codec (α : Type) where
  size : Nat
  enc : α → List UInt8
  dec : List UInt8 → α
  length_enc : ∀ a, (enc a).length = size
  dec_append : ∀ a rest, dec (enc a ++ rest) = a
  enc_dec : ∀ bs, size ≤ bs.length → enc (dec bs) = bs.take size

attribute [simp] Codec.length_enc Codec.dec_append

namespace Codec
variable {α β : Type}

@[simp] theorem dec_enc (c : Codec α) (a : α) : c.dec (c.enc a) = a := by
  simpa using c.dec_append a []

theorem enc_dec_of_length (c : Codec α) {bs : List UInt8} (h : bs.length = c.size) :
    c.enc (c.dec bs) = bs := by
  rw [c.enc_dec bs (Nat.le_of_eq h.symm), ← h, List.take_length]

/-! ### Little-endian words -/

/-- The `n` low bytes of `k`, least significant first. -/
def leBytes : Nat → Nat → List UInt8
  | 0, _ => []
  | n + 1, k => UInt8.ofNat k :: leBytes n (k / 256)

/-- The number whose little-endian bytes are `bs`. -/
def leNat : List UInt8 → Nat
  | [] => 0
  | b :: bs => b.toNat + 256 * leNat bs

@[simp] theorem length_leBytes (n k : Nat) : (leBytes n k).length = n := by
  induction n generalizing k with
  | zero => rfl
  | succ n ih => simp [leBytes, ih]

theorem leNat_leBytes (n k : Nat) (h : k < 256 ^ n) : leNat (leBytes n k) = k := by
  induction n generalizing k with
  | zero => simp only [Nat.pow_zero] at h; simp [leBytes, leNat]; omega
  | succ n ih =>
    rw [Nat.pow_succ] at h
    rw [leBytes, leNat, ih (k / 256) (by omega), UInt8.toNat_ofNat']
    omega

theorem leNat_lt (bs : List UInt8) : leNat bs < 256 ^ bs.length := by
  induction bs with
  | nil => simp [leNat]
  | cons b bs ih =>
    have := b.toNat_lt
    rw [leNat, List.length_cons, Nat.pow_succ]
    omega

theorem leBytes_leNat (bs : List UInt8) : leBytes bs.length (leNat bs) = bs := by
  induction bs with
  | nil => rfl
  | cons b bs ih =>
    have hb := b.toNat_lt
    have quotient : (b.toNat + 256 * leNat bs) / 256 = leNat bs := by omega
    have digit : UInt8.ofNat (b.toNat + 256 * leNat bs) = b := by
      apply UInt8.toNat_inj.mp
      rw [UInt8.toNat_ofNat']
      omega
    rw [List.length_cons, leNat, leBytes, quotient, ih, digit]

/-- A machine word of `n` bytes, given by its conversions to and from `Nat`. -/
def word (n : Nat) (toNat : α → Nat) (ofNat : Nat → α) (bound : ∀ a, toNat a < 256 ^ n)
    (ofNat_toNat : ∀ a, ofNat (toNat a) = a)
    (toNat_ofNat : ∀ k, k < 256 ^ n → toNat (ofNat k) = k) : Codec α where
  size := n
  enc a := leBytes n (toNat a)
  dec bs := ofNat (leNat (bs.take n))
  length_enc a := length_leBytes n _
  dec_append a rest := by
    rw [List.take_left' (length_leBytes n _), leNat_leBytes n _ (bound a), ofNat_toNat]
  enc_dec bs h := by
    have length : (bs.take n).length = n := List.length_take_of_le h
    generalize bs.take n = front at length ⊢
    subst length
    rw [toNat_ofNat _ (leNat_lt front), leBytes_leNat]

def u16 : Codec UInt16 :=
  word 2 UInt16.toNat UInt16.ofNat (fun a => a.toNat_lt) (fun _ => UInt16.ofNat_toNat)
    (fun _ h => UInt16.toNat_ofNat_of_lt' h)

def u32 : Codec UInt32 :=
  word 4 UInt32.toNat UInt32.ofNat (fun a => a.toNat_lt) (fun _ => UInt32.ofNat_toNat)
    (fun _ h => UInt32.toNat_ofNat_of_lt' h)

/-- Two's complement. -/
def i32 : Codec Int32 :=
  word 4 (fun a => a.toUInt32.toNat) (fun k => (UInt32.ofNat k).toInt32)
    (fun a => a.toUInt32.toNat_lt)
    (fun a => by rw [UInt32.ofNat_toNat, Int32.toInt32_toUInt32])
    (fun k h => by rw [UInt32.toUInt32_toInt32, UInt32.toNat_ofNat_of_lt' h])

@[simp] theorem size_u16 : u16.size = 2 := rfl
@[simp] theorem size_u32 : u32.size = 4 := rfl
@[simp] theorem size_i32 : i32.size = 4 := rfl

/-! ### Raw bytes and arrays -/

/-- `n` raw bytes. A shorter input is read as if zeros followed it. -/
def bytes (n : Nat) : Codec (List.Vector UInt8 n) where
  size := n
  enc v := v.toList
  dec bs := ⟨(bs ++ List.replicate n 0).take n, by simp⟩
  length_enc v := v.toList_length
  dec_append v rest := by
    apply Subtype.ext
    show ((v.toList ++ rest) ++ List.replicate n 0).take n = v.toList
    rw [List.append_assoc, List.take_left' v.toList_length]
  enc_dec bs h := by
    show (bs ++ List.replicate n 0).take n = bs.take n
    rw [List.take_append_of_le_length h]

@[simp] theorem size_bytes (n : Nat) : (bytes n).size = n := rfl

@[simp] theorem enc_bytes {n : Nat} (v : List.Vector UInt8 n) : (bytes n).enc v = v.toList := rfl

/-- The first `n` records of a byte string. -/
def decMany (c : Codec α) : Nat → List UInt8 → List α
  | 0, _ => []
  | n + 1, bs => c.dec bs :: c.decMany n (bs.drop c.size)

def encMany (c : Codec α) (as : List α) : List UInt8 := as.flatMap c.enc

@[simp] theorem encMany_nil (c : Codec α) : c.encMany [] = [] := rfl

@[simp] theorem encMany_cons (c : Codec α) (a : α) (as : List α) :
    c.encMany (a :: as) = c.enc a ++ c.encMany as := rfl

theorem encMany_append (c : Codec α) (as bs : List α) :
    c.encMany (as ++ bs) = c.encMany as ++ c.encMany bs := by
  simp [encMany]

@[simp] theorem length_encMany (c : Codec α) (as : List α) :
    (c.encMany as).length = as.length * c.size := by
  induction as with
  | nil => simp
  | cons a as ih => rw [encMany_cons, List.length_append, ih, c.length_enc, List.length_cons,
      Nat.succ_mul, Nat.add_comm]

@[simp] theorem length_decMany (c : Codec α) (n : Nat) (bs : List UInt8) :
    (c.decMany n bs).length = n := by
  induction n generalizing bs with
  | zero => rfl
  | succ n ih => simp [decMany, ih]

theorem decMany_encMany (c : Codec α) (as : List α) (rest : List UInt8) :
    c.decMany as.length (c.encMany as ++ rest) = as := by
  induction as with
  | nil => rfl
  | cons a as ih =>
    rw [List.length_cons, decMany, encMany_cons, List.append_assoc, c.dec_append,
      List.drop_left' (c.length_enc a), ih]

theorem encMany_injective (c : Codec α) {as bs : List α} (size : 0 < c.size) (same : c.encMany as = c.encMany bs) :
    as = bs := by
  have lengths := congrArg List.length same
  rw [length_encMany, length_encMany] at lengths
  have length : as.length = bs.length := Nat.eq_of_mul_eq_mul_right size lengths
  have all (cs : List α) : c.decMany cs.length (c.encMany cs) = cs := by
    have whole := c.decMany_encMany cs []
    rw [List.append_nil] at whole
    exact whole
  calc as = c.decMany as.length (c.encMany as) := (all as).symm
    _ = c.decMany bs.length (c.encMany bs) := by rw [length, same]
    _ = bs := all bs

/-- Whether records end in others is a matter of their bytes. -/
theorem encMany_suffix (c : Codec α) {as bs : List α} (size : 0 < c.size) :
    c.encMany as <:+ c.encMany bs ↔ as <:+ bs := by
  constructor
  · intro ⟨before, bytes⟩
    have lengths := congrArg List.length bytes
    rw [List.length_append, length_encMany, length_encMany] at lengths
    have shorter : as.length ≤ bs.length := Nat.le_of_mul_le_mul_right (by omega) size
    have tail : (bs.drop (bs.length - as.length)).length = as.length := by
      rw [List.length_drop]
      omega
    refine ⟨bs.take (bs.length - as.length), ?_⟩
    have parts := List.take_append_drop (bs.length - as.length) bs
    rw [← parts, encMany_append] at bytes
    have same := List.append_inj_right' bytes (by rw [length_encMany, length_encMany, tail])
    exact (congrArg _ (c.encMany_injective size same).symm).symm.trans parts
  · intro ⟨before, records⟩
    exact ⟨c.encMany before, by rw [← records, encMany_append]⟩

theorem decMany_append_encMany (c : Codec α) (as : List α) (n : Nat) (rest : List UInt8) :
    c.decMany (as.length + n) (c.encMany as ++ rest) = as ++ c.decMany n rest := by
  induction as with
  | nil => rw [List.length_nil, Nat.zero_add, encMany_nil, List.nil_append, List.nil_append]
  | cons a as ih =>
    have count : (a :: as).length + n = (as.length + n) + 1 := by
      rw [List.length_cons]
      omega
    have behind : (c.enc a ++ (c.encMany as ++ rest)).drop c.size = c.encMany as ++ rest :=
      List.drop_left' (c.length_enc a)
    rw [count, decMany, encMany_cons, List.append_assoc, c.dec_append, behind, ih, List.cons_append]

theorem encMany_decMany (c : Codec α) (n : Nat) (bs : List UInt8) (h : n * c.size ≤ bs.length) :
    c.encMany (c.decMany n bs) = bs.take (n * c.size) := by
  induction n generalizing bs with
  | zero => simp [decMany]
  | succ n ih =>
    rw [Nat.succ_mul] at h
    rw [decMany, encMany_cons, c.enc_dec bs (by omega), ih _ (by rw [List.length_drop]; omega),
      Nat.succ_mul, Nat.add_comm, List.take_add]

def array (c : Codec α) (n : Nat) : Codec (List.Vector α n) where
  size := n * c.size
  enc v := c.encMany v.toList
  dec bs := ⟨c.decMany n bs, c.length_decMany n bs⟩
  length_enc v := by rw [length_encMany, v.toList_length]
  dec_append v rest := by
    apply Subtype.ext
    have same := c.decMany_encMany v.toList rest
    rw [v.toList_length] at same
    exact same
  enc_dec bs h := c.encMany_decMany n bs h

@[simp] theorem size_array (c : Codec α) (n : Nat) : (c.array n).size = n * c.size := rfl

/-! ### Records -/

def seq (a : Codec α) (b : Codec β) : Codec (α × β) where
  size := a.size + b.size
  enc v := a.enc v.1 ++ b.enc v.2
  dec bs := (a.dec bs, b.dec (bs.drop a.size))
  length_enc v := by simp
  dec_append v rest := by
    rw [List.append_assoc, a.dec_append, List.drop_left' (a.length_enc _), b.dec_append]
  enc_dec bs h := by
    rw [a.enc_dec bs (by omega), b.enc_dec _ (by rw [List.length_drop]; omega), List.take_add]

/-- The same bytes under another view of the value. -/
def equiv (c : Codec α) (e : β ≃ α) : Codec β where
  size := c.size
  enc b := c.enc (e b)
  dec bs := e.symm (c.dec bs)
  length_enc b := c.length_enc _
  dec_append b rest := by rw [c.dec_append, e.symm_apply_apply]
  enc_dec bs h := by rw [e.apply_symm_apply, c.enc_dec bs h]

@[simp] theorem size_seq (a : Codec α) (b : Codec β) : (a.seq b).size = a.size + b.size := rfl

@[simp] theorem size_equiv (c : Codec α) (e : β ≃ α) : (c.equiv e).size = c.size := rfl

/-- `d` lies `ofs` bytes into every record of `c`, and holds what `get` reads. -/
def HasField (c : Codec α) (d : Codec β) (ofs : Nat) (get : α → β) : Prop :=
  ∀ a, (c.enc a).drop ofs = d.enc (get a) ++ (c.enc a).drop (ofs + d.size)

theorem HasField.whole (c : Codec α) : HasField c c 0 id := fun a => by
  rw [Nat.zero_add, List.drop_zero, List.drop_of_length_le (Nat.le_of_eq (c.length_enc a)),
    List.append_nil]
  rfl

theorem HasField.head (a : Codec α) (b : Codec β) : HasField (a.seq b) a 0 Prod.fst := fun v => by
  show a.enc v.1 ++ b.enc v.2 = a.enc v.1 ++ (a.enc v.1 ++ b.enc v.2).drop (0 + a.size)
  rw [Nat.zero_add, List.drop_left' (a.length_enc _)]

theorem HasField.tail {γ : Type} {b : Codec β} {d : Codec γ} {ofs : Nat} {get : β → γ}
    (h : HasField b d ofs get) (a : Codec α) :
    HasField (a.seq b) d (a.size + ofs) (get ∘ Prod.snd) := fun v => by
  have skip (n : Nat) : (a.enc v.1 ++ b.enc v.2).drop (a.size + n) = (b.enc v.2).drop n := by
    rw [← List.drop_drop, List.drop_left' (a.length_enc _)]
  show (a.enc v.1 ++ b.enc v.2).drop _ = _ ++ (a.enc v.1 ++ b.enc v.2).drop _
  rw [Nat.add_assoc, skip, skip, h v.2]
  rfl

theorem HasField.equiv {γ : Type} {c : Codec α} {d : Codec γ} {ofs : Nat} {get : α → γ}
    (h : HasField c d ofs get) (e : β ≃ α) : HasField (c.equiv e) d ofs (get ∘ e) :=
  fun b => h (e b)

end Codec
end Packed
