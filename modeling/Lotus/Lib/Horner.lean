import Mathlib

/-!
# Horner's method in fixed point

A number `n` stands for `n / 2 ^ p`.
-/

namespace Horner

variable (p : ℕ)

/-- A turn of the method at `x`, with the coefficient `c`. -/
def turn (x res c : ℤ) : ℤ := res * x / 2 ^ p + c

/-- Bounds of a turn at the points from `lo` to `hi`, if `b` bounds the value before it. -/
def enclose (lo hi : ℤ) (b : ℤ × ℤ) (c : ℤ) : ℤ × ℤ :=
  (min (b.1 * lo) (b.1 * hi) / 2 ^ p + c, max (b.2 * lo) (b.2 * hi) / 2 ^ p + c)

variable {p} {lo hi x : ℤ}

lemma turn_mem_enclose {b : ℤ × ℤ} {res : ℤ} (c : ℤ) (hlo : 0 ≤ lo) (hx : x ∈ Set.Icc lo hi)
    (hres : res ∈ Set.Icc b.1 b.2) :
    turn p x res c ∈ Set.Icc (enclose p lo hi b c).1 (enclose p lo hi b c).2 := by
  have hx0 : 0 ≤ x := hlo.trans hx.1
  have hlower : min (b.1 * lo) (b.1 * hi) ≤ res * x := by
    refine le_trans ?_ (mul_le_mul_of_nonneg_right hres.1 hx0)
    rcases le_total 0 b.1 with hb | hb
    · exact (min_le_left _ _).trans (mul_le_mul_of_nonneg_left hx.1 hb)
    · exact (min_le_right _ _).trans (mul_le_mul_of_nonpos_left hx.2 hb)
  have hupper : res * x ≤ max (b.2 * lo) (b.2 * hi) := by
    refine (mul_le_mul_of_nonneg_right hres.2 hx0).trans ?_
    rcases le_total 0 b.2 with hb | hb
    · exact (mul_le_mul_of_nonneg_left hx.2 hb).trans (le_max_right _ _)
    · exact (mul_le_mul_of_nonpos_left hx.1 hb).trans (le_max_left _ _)
  have hpos : (0 : ℤ) < 2 ^ p := by positivity
  exact ⟨add_le_add_left (Int.ediv_le_ediv hpos hlower) c,
    add_le_add_left (Int.ediv_le_ediv hpos hupper) c⟩

lemma foldl_mem_enclose (cs : List ℤ) {b : ℤ × ℤ} {res : ℤ} (hlo : 0 ≤ lo)
    (hx : x ∈ Set.Icc lo hi) (hres : res ∈ Set.Icc b.1 b.2) :
    cs.foldl (turn p x) res ∈
      Set.Icc (cs.foldl (enclose p lo hi) b).1 (cs.foldl (enclose p lo hi) b).2 := by
  induction cs generalizing b res with
  | nil => exact hres
  | cons c cs ih => exact ih (turn_mem_enclose c hlo hx hres)

/-- A point of a range that is cut into `n` pieces of the width `w` lies in one of them. -/
lemma exists_piece {n : ℕ} {w : ℤ} (hw : 0 < w) (hx : 0 ≤ x) (hlt : x < n * w) :
    ∃ i < n, x ∈ Set.Icc (i * w) ((i + 1) * w) := by
  have hdiv : 0 ≤ x / w := Int.ediv_nonneg hx hw.le
  have hn : x / w < n := Int.ediv_lt_of_lt_mul hw hlt
  refine ⟨(x / w).toNat, by omega, ?_⟩
  rw [Int.toNat_of_nonneg hdiv]
  exact ⟨Int.ediv_mul_le x hw.ne', (Int.lt_ediv_add_one_mul_self x hw).le⟩

end Horner
