import Mathlib

/-!
# 64-bit words

The operations of `Int64` wrap; these lemmas say what they compute when nothing wraps.
-/

namespace Word

/-- The value of a signed word converted to an unsigned one. -/
def u64 (x : Int64) : ℤ := x.toUInt64.toNat

variable {x y : Int64}

lemma toInt_add_of_mem (hlo : -2 ^ 63 ≤ x.toInt + y.toInt) (hhi : x.toInt + y.toInt < 2 ^ 63) :
    (x + y).toInt = x.toInt + y.toInt := by
  grind [Int64.toInt_add]

lemma toInt_sub_of_mem (hlo : -2 ^ 63 ≤ x.toInt - y.toInt) (hhi : x.toInt - y.toInt < 2 ^ 63) :
    (x - y).toInt = x.toInt - y.toInt := by
  grind [Int64.toInt_sub]

lemma toInt_mul_of_mem (hlo : -2 ^ 63 ≤ x.toInt * y.toInt) (hhi : x.toInt * y.toInt < 2 ^ 63) :
    (x * y).toInt = x.toInt * y.toInt := by
  grind [Int64.toInt_mul]

lemma exists_bmod_eq (n : ℤ) : ∃ k : ℤ, n.bmod (2 ^ 64) = n + k * 2 ^ 64 ∧
    -2 ^ 63 ≤ n.bmod (2 ^ 64) ∧ n.bmod (2 ^ 64) < 2 ^ 63 := by
  refine ⟨(n.bmod (2 ^ 64) - n) / 2 ^ 64, ?_⟩
  rw [Int.bmod_def]
  split <;> omega

lemma bmod_le_self {n : ℤ} (h : 0 ≤ n) : n.bmod (2 ^ 64) ≤ n := by
  rw [Int.bmod_def]
  split <;> omega

lemma toInt_ofNat_of_lt {n : ℕ} (h : n < 2 ^ 63) : (Int64.ofNat n).toInt = n :=
  Int64.toInt_ofNat_of_lt h

lemma toInt_toInt64_of_lt {x : UInt64} (h : x.toNat < 2 ^ 63) : x.toInt64.toInt = x.toNat := by
  have hlt : x.toBitVec.toNat < 2 ^ 63 := h
  show x.toBitVec.toInt = _
  rw [BitVec.toInt_eq_toNat_of_lt (by omega)]
  rfl

lemma u64_of_nonneg (h : 0 ≤ x.toInt) : u64 x = x.toInt := by
  have hle : 0 ≤ x := Int64.le_iff_toInt_le.mpr h
  rw [u64, Int64.toNat_toUInt64_of_le hle, Int64.toNatClampNeg, Int.toNat_of_nonneg h]

lemma u64_nonneg (x : Int64) : 0 ≤ u64 x := by
  unfold u64
  omega

lemma toNat_sub_of_le (h : y.toInt ≤ x.toInt) :
    ((x - y).toUInt64.toNat : ℤ) = x.toInt - y.toInt := by
  have hle : y.toBitVec.toInt ≤ x.toBitVec.toInt := h
  show ((x.toBitVec - y.toBitVec).toNat : ℤ) = x.toBitVec.toInt - y.toBitVec.toInt
  have hx := x.toBitVec.isLt
  have hy := y.toBitVec.isLt
  grind

lemma toInt_add_one (h : x.toInt < y.toInt) : (x + 1).toInt = x.toInt + 1 := by
  have hx := Int64.le_toInt x
  have hy := Int64.toInt_lt y
  have hone : (1 : Int64).toInt = 1 := rfl
  rw [toInt_add_of_mem (by omega) (by omega), hone]

lemma toInt_add_of_nonneg (hx : 0 ≤ x.toInt) (hsum : 0 ≤ (x + y).toInt) :
    (x + y).toInt = x.toInt + y.toInt := by
  have hxlt := x.toInt_lt
  have hlt := (x + y).toInt_lt
  have hdiff : (x + y - x).toInt = (x + y).toInt - x.toInt := toInt_sub_of_mem (by omega) (by omega)
  grind [Int64.add_comm, Int64.add_sub_cancel]

lemma toInt_sub_one (h : y.toInt < x.toInt) : (x - 1).toInt = x.toInt - 1 := by
  have hx := Int64.toInt_lt x
  have hy := Int64.le_toInt y
  have hone : (1 : Int64).toInt = 1 := rfl
  rw [toInt_sub_of_mem (by omega) (by omega), hone]

lemma toNat_sub_add_one (h : x.toInt < y.toInt) :
    ((y - (x + 1)).toUInt64.toNat : ℤ) = y.toInt - x.toInt - 1 := by
  have hsucc := toInt_add_one h
  rw [toNat_sub_of_le (by omega), hsucc]
  omega

lemma add_ofNat_inj {a : UInt64} {c k : ℕ} (hc : c < 2 ^ 64) (hk : k < 2 ^ 64) :
    a + UInt64.ofNat c = a + UInt64.ofNat k ↔ c = k := by
  grind [UInt64.add_right_inj, UInt64.toNat_inj, UInt64.toNat_ofNat_of_lt']

lemma le_of_lt_add_one (h : x < y + 1) : x ≤ y := by
  grind

end Word
