/-
# The world in exact arithmetic

The `float` of exact real numbers, with the facts about `std::clamp` and `Position::operator-` that
hold of it. A distance is compared by its square (`sq`).
-/
import MyMMO.Contents
import MyMMO.Lib.Descent
import Mathlib.Analysis.Complex.Norm

namespace MyMMO
namespace Field

open Machine

/-- Exact arithmetic. -/
noncomputable instance : Machine ℝ where
  lit x := x
  ofInt n := n
  sqrt := Real.sqrt
  lt x y := decide (x < y)
  le x y := decide (x ≤ y)
  eq x y := decide (x = y)
  toInt32 x := if 0 ≤ x then ⌊x⌋ else ⌈x⌉
  toUInt64 x := ⌊x⌋.toNat
  ofBytes bs := singleOfBytes bs
  beyond _ := (0, 0)

/-- The square of the distance. -/
def Position.sq (p q : Position ℝ) : ℝ := (p.x - q.x) ^ 2 + (p.y - q.y) ^ 2

theorem nonneg_sq (p q : Position ℝ) : 0 ≤ p.sq q := by
  unfold Position.sq
  positivity

theorem dist_real (p q : Position ℝ) : p.dist q = Real.sqrt (p.sq q) := by
  have hsq : p.sq q = (p.x - q.x) * (p.x - q.x) + (p.y - q.y) * (p.y - q.y) := by
    unfold Position.sq
    ring
  rw [hsq]
  rfl

/-- A distance is that of the complex plane. -/
theorem dist_norm (p q : Position ℝ) : p.dist q = ‖(⟨p.x - q.x, p.y - q.y⟩ : ℂ)‖ := by
  rw [dist_real, Complex.norm_eq_sqrt_sq_add_sq]
  rfl

theorem pos_dist_self (p : Position ℝ) : p.dist p = 0 := by
  rw [dist_real]
  unfold Position.sq
  simp

theorem pos_dist_triangle (p q r : Position ℝ) : p.dist r ≤ p.dist q + q.dist r := by
  have hsum : (⟨p.x - r.x, p.y - r.y⟩ : ℂ) = ⟨p.x - q.x, p.y - q.y⟩ + ⟨q.x - r.x, q.y - r.y⟩ := by
    apply Complex.ext <;> simp
  rw [dist_norm, dist_norm, dist_norm, hsum]
  exact norm_add_le _ _

theorem le_real {x y : ℝ} : le x y = true ↔ x ≤ y := decide_eq_true_iff

theorem lt_real {x y : ℝ} : lt x y = true ↔ x < y := decide_eq_true_iff

theorem dist_le_iff {p q : Position ℝ} {r : ℝ} (h : 0 ≤ r) : le (p.dist q) r = true ↔
    p.sq q ≤ r ^ 2 := by
  rw [le_real, dist_real]
  exact Real.sqrt_le_left h

theorem clamp_real (x lo hi : ℝ) : MyMMO.clamp x lo hi = Descent.keep x lo hi := by
  unfold MyMMO.clamp Descent.keep
  simp only [lt_real]

theorem origin_real : (lit 0 : ℝ) = 0 := Rat.cast_zero

theorem width_real : (ofInt (SECTOR_WORLD_W * SECTOR_COL_CNT) : ℝ) = 6400 := by
  show (((SECTOR_WORLD_W * SECTOR_COL_CNT : ℤ)) : ℝ) = 6400
  norm_num [SECTOR_WORLD_W, SECTOR_COL_CNT]

theorem height_real : (ofInt (SECTOR_WORLD_H * SECTOR_ROW_CNT) : ℝ) = 4700 := by
  show (((SECTOR_WORLD_H * SECTOR_ROW_CNT : ℤ)) : ℝ) = 4700
  norm_num [SECTOR_WORLD_H, SECTOR_ROW_CNT]

theorem inWorld_real {p : Position ℝ} : p.InWorld ↔
    (0 ≤ p.x ∧ p.x ≤ 6400) ∧ 0 ≤ p.y ∧ p.y ≤ 4700 := by
  unfold Position.InWorld
  rw [le_real, le_real, le_real, le_real, origin_real, width_real, height_real, and_assoc]

theorem clamp_pos_real (x y : ℝ) :
    Position.clamp x y = ⟨Descent.keep x 0 6400, Descent.keep y 0 4700⟩ := by
  unfold Position.clamp
  rw [clamp_real, clamp_real, origin_real, width_real, height_real]

/-- A position that is kept in the world is in it. -/
theorem clamp_inWorld (x y : ℝ) : (Position.clamp x y).InWorld := by
  rw [inWorld_real, clamp_pos_real]
  exact ⟨Descent.keep_mem (by norm_num), Descent.keep_mem (by norm_num)⟩

theorem clamp_of_inWorld {p : Position ℝ} (h : p.InWorld) : Position.clamp p.x p.y = p := by
  obtain ⟨⟨hx, hx'⟩, hy, hy'⟩ := inWorld_real.mp h
  rw [clamp_pos_real, Descent.keep_of_mem hx hx', Descent.keep_of_mem hy hy']

/-- The world does not take a position away from what is in it. -/
theorem sq_clamp_le {q : Position ℝ} (h : q.InWorld) (x y : ℝ) :
    (Position.clamp x y).sq q ≤ (⟨x, y⟩ : Position ℝ).sq q := by
  obtain ⟨⟨hx, hx'⟩, hy, hy'⟩ := inWorld_real.mp h
  rw [clamp_pos_real]
  exact add_le_add (Descent.sq_keep_sub_le hx hx') (Descent.sq_keep_sub_le hy hy')

end Field
end MyMMO
