import Mathlib

/-!
# 32-bit words as integers

The value of a word after the conversions C++ makes between `int32_t` and `uint32_t`.
-/

namespace Packed

theorem toInt_toInt32 (u : UInt32) :
    u.toInt32.toInt = if u.toNat < 2 ^ 31 then (u.toNat : Int) else u.toNat - 2 ^ 32 := by
  show u.toBitVec.toInt = _
  rw [BitVec.toInt_eq_toNat_cond]
  show (if 2 * u.toNat < 2 ^ 32 then (u.toNat : Int) else u.toNat - (2 ^ 32 : Nat)) = _
  split <;> split <;> omega

theorem toInt_toInt32_small {u : UInt32} (h : u.toNat < 2 ^ 31) : u.toInt32.toInt = u.toNat := by
  rw [toInt_toInt32, if_pos h]

theorem toInt_eq (i : Int32) :
    i.toInt = if i.toUInt32.toNat < 2 ^ 31 then (i.toUInt32.toNat : Int)
      else i.toUInt32.toNat - 2 ^ 32 := by
  rw [← toInt_toInt32, Int32.toInt32_toUInt32]

theorem toNat_toUInt32 {i : Int32} (h : 0 ≤ i.toInt) : (i.toUInt32.toNat : Int) = i.toInt := by
  have value := toInt_eq i
  have bound := i.toUInt32.toNat_lt
  split at value <;> omega

theorem toInt_ofNat {n : Nat} (h : n < 2 ^ 31) : (UInt32.ofNat n).toInt32.toInt = n := by
  have value : (UInt32.ofNat n).toNat = n := UInt32.toNat_ofNat_of_lt' (Nat.lt_trans h (by decide))
  rw [toInt_toInt32_small (by rw [value]; exact h), value]

theorem toInt_add_toUInt32 {u : UInt32} {i : Int32} {v : Int} (sum : u.toNat + i.toInt = v)
    (lower : -2 ^ 31 ≤ v) (upper : v < 2 ^ 31) : (u + i.toUInt32).toInt32.toInt = v := by
  have offset := toInt_eq i
  have bound := i.toUInt32.toNat_lt
  have base := u.toNat_lt
  rw [toInt_toInt32, UInt32.toNat_add]
  split at offset <;> split <;> omega

theorem toInt_mul_eight {i : Int32} (nonneg : 0 ≤ i.toInt) (small : i.toInt < 2 ^ 28) :
    (i * 8).toInt = i.toInt * 8 := by
  have eight : (8 : Int32).toInt = 8 := rfl
  rw [Int32.toInt_mul, eight]
  exact Int.bmod_eq_of_le (by omega) (by omega)

theorem toInt_div_ten {i : Int32} (nonneg : 0 ≤ i.toInt) : (i / 10).toInt = i.toInt / 10 := by
  have ten : (10 : Int32).toInt = 10 := rfl
  have upper := i.toInt_lt
  rw [Int32.toInt_div, ten, Int.tdiv_eq_ediv_of_nonneg nonneg]
  exact Int.bmod_eq_of_le (by omega) (by omega)

theorem int32_neg_iff {i : Int32} : i < 0 ↔ i.toInt < 0 := by
  rw [Int32.lt_iff_toInt_lt, Int32.toInt_zero]

theorem int32_pos_iff {i : Int32} : 0 < i ↔ 0 < i.toInt := by
  rw [Int32.lt_iff_toInt_lt, Int32.toInt_zero]

end Packed
