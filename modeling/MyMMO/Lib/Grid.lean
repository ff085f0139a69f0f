/-
# Cells of a line

A line that is divided into `n` cells of width `w`: what is outside belongs to the first or the last
cell. Two points no farther apart than a cell is wide are in the same cell or in neighbouring ones
(`cell_near`), also when only what is kept of them on the line is (`cell_near_of_keep`).
-/
import MyMMO.Lib.Descent

namespace Grid

open Descent (keep)

variable {K : Type*} [Field K] [LinearOrder K] [IsStrictOrderedRing K] {w lo hi x y : K} {n : ℤ}

/-- Two points come no farther apart when they are kept in an interval. -/
theorem abs_keep_sub_le (h : lo ≤ hi) (x y : K) : |keep x lo hi - keep y lo hi| ≤ |x - y| := by
  have hmono : ∀ {a b : K}, a ≤ b →
      0 ≤ keep b lo hi - keep a lo hi ∧ keep b lo hi - keep a lo hi ≤ b - a := by
    intro a b hab
    unfold keep
    split_ifs <;> constructor <;> linarith
  rcases le_total x y with hxy | hxy
  · obtain ⟨h0, h1⟩ := hmono hxy
    rw [abs_sub_comm, abs_sub_comm x, abs_of_nonneg h0]
    exact h1.trans (le_abs_self _)
  · obtain ⟨h0, h1⟩ := hmono hxy
    rw [abs_of_nonneg h0]
    exact h1.trans (le_abs_self _)

variable [FloorRing K]

/-- The cell of `x`. -/
def cell (w : K) (n : ℤ) (x : K) : ℤ := max 0 (min ⌊x / w⌋ (n - 1))

/-- A cell ends where the line does. -/
theorem cell_keep (hw : 0 < w) (hn : 0 < n) (x : K) : cell w n (keep x 0 (n * w)) = cell w n x := by
  unfold cell keep
  split_ifs with hx hx'
  · have hfloor : ⌊x / w⌋ < 0 :=
      Int.floor_lt.mpr (by rw [Int.cast_zero]; exact div_neg_of_neg_of_pos hx hw)
    rw [zero_div, Int.floor_zero]
    omega
  · have hfloor : n ≤ ⌊x / w⌋ := Int.le_floor.mpr ((le_div_iff₀ hw).mpr hx'.le)
    rw [mul_div_cancel_right₀ _ hw.ne', Int.floor_intCast]
    omega
  · rfl

theorem cell_near (hw : 0 < w) (h : |x - y| ≤ w) : |cell w n x - cell w n y| ≤ 1 := by
  have hfloor : ∀ {a b : K}, a - b ≤ w → ⌊a / w⌋ ≤ ⌊b / w⌋ + 1 := by
    intro a b hab
    rw [← Int.floor_add_one]
    apply Int.floor_le_floor
    rw [div_add_one hw.ne']
    exact div_le_div_of_nonneg_right (by linarith) hw.le
  obtain ⟨hle, hge⟩ := abs_le.mp h
  have h1 := hfloor hge
  have h2 : ⌊y / w⌋ ≤ ⌊x / w⌋ + 1 := hfloor (by linarith)
  unfold cell
  rw [abs_le]
  omega

theorem cell_near_of_keep (hw : 0 < w) (hn : 0 < n)
    (h : |keep x 0 (n * w) - keep y 0 (n * w)| ≤ w) :
    |cell w n x - cell w n y| ≤ 1 := by
  rw [← cell_keep hw hn x, ← cell_keep hw hn y]
  exact cell_near hw h

end Grid
