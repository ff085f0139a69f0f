/-
# Machines that compute with real numbers

A machine whose `float` stands for a real number (`real`) and computes exactly but for a root, which
may be rounded down: exact arithmetic, and the rational numbers of the runs. In it the sectors are
the cells of a grid (`calcSector_cell`), a hit takes a player no farther than its knockback
(`knockback_le`), and who is in range is near on both axes (`near_axes`).
-/
import MyMMO.MonsterTick
import MyMMO.World
import MyMMO.Lib.Grid

namespace MyMMO

open Machine

class ExactMachine (F : Type) extends Machine F where
  real : F → ℝ
  real_add : ∀ x y : F, real (x + y) = real x + real y
  real_sub : ∀ x y : F, real (x - y) = real x - real y
  real_mul : ∀ x y : F, real (x * y) = real x * real y
  real_lit : ∀ q : ℚ, real (lit q) = q
  real_ofInt : ∀ n : ℤ, real (ofInt n) = n
  le_iff : ∀ x y : F, le x y = true ↔ real x ≤ real y
  lt_iff : ∀ x y : F, lt x y = true ↔ real x < real y
  toInt32_div : ∀ (x : F) (n : ℤ), 0 < n →
    toInt32 (x / ofInt n) = if 0 ≤ real x then ⌊real x / n⌋ else ⌈real x / n⌉
  sqrt_le : ∀ x : F, real (sqrt x) ≤ √(real x)
  le_sqrt : ∀ x : F, √(real x) ≤ real (sqrt x) + 1

export ExactMachine (real)

noncomputable instance : ExactMachine ℝ where
  real x := x
  real_add _ _ := rfl
  real_sub _ _ := rfl
  real_mul _ _ := rfl
  real_lit _ := rfl
  real_ofInt _ := rfl
  le_iff _ _ := decide_eq_true_iff
  lt_iff _ _ := decide_eq_true_iff
  toInt32_div x n hn := by
    change (if 0 ≤ x / (n : ℝ) then ⌊x / (n : ℝ)⌋ else ⌈x / (n : ℝ)⌉) = _
    have hn' : (0 : ℝ) < n := Int.cast_pos.mpr hn
    simp only [le_div_iff₀ hn', zero_mul]
  sqrt_le _ := le_rfl
  le_sqrt x := le_add_of_nonneg_right zero_le_one

/-- The root of the rational numbers of the runs. -/
theorem rat_sqrt (x : ℚ) : ((sqrt x : ℚ) : ℝ) ≤ √(x : ℝ) ∧ √(x : ℝ) ≤ ((sqrt x : ℚ) : ℝ) + 1 := by
  have hsqrt : ((sqrt x : ℚ) : ℝ) = Nat.sqrt (x * 2 ^ 40).floor.toNat / 2 ^ 20 := by
    change ((Nat.sqrt (x * 2 ^ 40).floor.toNat / 2 ^ 20 : ℚ) : ℝ) = _
    push_cast
    rfl
  rw [hsqrt]
  rcases lt_or_ge x 0 with hx | hx
  · have hfloor : (x * 2 ^ 40).floor.toNat = 0 := by
      have hneg : ⌊x * 2 ^ 40⌋ < 0 :=
        Int.floor_lt.mpr (by rw [Int.cast_zero]; exact mul_neg_of_neg_of_pos hx (by norm_num))
      exact Int.toNat_of_nonpos hneg.le
    rw [hfloor, Real.sqrt_eq_zero_of_nonpos (by exact_mod_cast hx.le)]
    norm_num
  · have hfloor : (((x * 2 ^ 40).floor.toNat : ℤ)) = ⌊x * 2 ^ 40⌋ :=
      Int.toNat_of_nonneg (Int.floor_nonneg.mpr (mul_nonneg hx (by norm_num)))
    generalize (x * 2 ^ 40).floor.toNat = n at hfloor ⊢
    have hscaled : √((x : ℝ) * 2 ^ 40) = √(x : ℝ) * 2 ^ 20 := by
      rw [Real.sqrt_mul (by exact_mod_cast hx), show (2 : ℝ) ^ 40 = (2 ^ 20) ^ 2 by norm_num,
        Real.sqrt_sq (by positivity)]
    have hle : (n : ℝ) ≤ (x : ℝ) * 2 ^ 40 := by
      have h := Int.floor_le (x * 2 ^ 40)
      rw [← hfloor] at h
      exact_mod_cast h
    have hlt : (x : ℝ) * 2 ^ 40 < n + 1 := by
      have h := Int.lt_floor_add_one (x * 2 ^ 40)
      rw [← hfloor] at h
      exact_mod_cast h
    have hroot : (Nat.sqrt n : ℝ) ≤ √(x : ℝ) * 2 ^ 20 := by
      rw [← hscaled]
      exact Real.nat_sqrt_le_real_sqrt.trans (Real.sqrt_le_sqrt hle)
    have hroot' : √(x : ℝ) * 2 ^ 20 ≤ Nat.sqrt n + 1 := by
      rw [← hscaled, Real.sqrt_le_left (by positivity)]
      have hsucc : ((n + 1 : ℕ) : ℝ) ≤ ((Nat.sqrt n + 1) ^ 2 : ℕ) :=
        Nat.cast_le.mpr (Nat.lt_succ_sqrt' n)
      push_cast at hsucc
      exact hlt.le.trans hsucc
    constructor
    · rw [div_le_iff₀ (by positivity)]
      exact hroot
    · have h := div_le_div_of_nonneg_right hroot' (show (0 : ℝ) ≤ 2 ^ 20 by positivity)
      rw [mul_div_cancel_right₀ _ (by positivity), add_div] at h
      refine h.trans (add_le_add_right ?_ _)
      norm_num

instance : ExactMachine ℚ where
  real x := x
  real_add x y := Rat.cast_add x y
  real_sub x y := Rat.cast_sub x y
  real_mul x y := Rat.cast_mul x y
  real_lit _ := rfl
  real_ofInt n := Rat.cast_intCast n
  le_iff x y := by
    change decide (x ≤ y) = true ↔ _
    rw [decide_eq_true_iff, Rat.cast_le]
  lt_iff x y := by
    change decide (x < y) = true ↔ _
    rw [decide_eq_true_iff, Rat.cast_lt]
  toInt32_div x n hn := by
    have hn' : (0 : ℚ) < n := Int.cast_pos.mpr hn
    have hceil : (x / (n : ℚ)).ceil = ⌈x / (n : ℚ)⌉ := by
      rw [Rat.ceil_eq_neg_floor_neg]
      rfl
    have hcast : (x : ℝ) / n = ((x / n : ℚ) : ℝ) := by push_cast; rfl
    change (if 0 ≤ x / (n : ℚ) then ⌊x / (n : ℚ)⌋ else (x / (n : ℚ)).ceil) = _
    rw [hceil, hcast, Rat.floor_cast, Rat.ceil_cast]
    simp only [le_div_iff₀ hn', zero_mul, Rat.cast_nonneg]
  sqrt_le x := (rat_sqrt x).1
  le_sqrt x := (rat_sqrt x).2

section

variable {F : Type} [ExactMachine F]

instance : LawfulMachine F where
  lt_dist_self limit x y h := by
    rw [← Bool.not_eq_true, ExactMachine.lt_iff, ExactMachine.real_lit, not_lt]
    have hroot := ExactMachine.sqrt_le ((x - x) * (x - x) + (y - y) * (y - y))
    rw [ExactMachine.real_add, ExactMachine.real_mul, ExactMachine.real_mul, ExactMachine.real_sub,
      ExactMachine.real_sub, sub_self, sub_self, mul_zero, add_zero, Real.sqrt_zero] at hroot
    exact hroot.trans (by exact_mod_cast h)

namespace Field

/-- The coordinates of a position in the world: what is outside counts as on its edge. -/
noncomputable def Position.inX (p : Position F) : ℝ := Descent.keep (real p.x) 0 6400

noncomputable def Position.inY (p : Position F) : ℝ := Descent.keep (real p.y) 0 4700

/-- The sectors are the cells of a grid. -/
theorem calcSector_cell (p : Position F) :
    calcSector p = ⟨Grid.cell 320 20 (real p.x), Grid.cell 235 20 (real p.y)⟩ := by
  have htrunc : ∀ (x : F) (n : ℤ), 0 < n →
      max 0 (min (toInt32 (x / ofInt n)) (20 - 1)) = Grid.cell (n : ℝ) 20 (real x) := by
    intro x n hn
    have hn' : (0 : ℝ) < n := Int.cast_pos.mpr hn
    rw [ExactMachine.toInt32_div x n hn]
    unfold Grid.cell
    split_ifs with hx
    · rfl
    · rw [not_le] at hx
      have hneg : real x / (n : ℝ) < 0 := div_neg_of_neg_of_pos hx hn'
      have hceil : ⌈real x / (n : ℝ)⌉ ≤ 0 := Int.ceil_le.mpr (by rw [Int.cast_zero]; exact hneg.le)
      have hfloor : ⌊real x / (n : ℝ)⌋ < 0 := Int.floor_lt.mpr (by rw [Int.cast_zero]; exact hneg)
      omega
  have hx := htrunc p.x SECTOR_WORLD_W (by decide)
  have hy := htrunc p.y SECTOR_WORLD_H (by decide)
  rw [show ((SECTOR_WORLD_W : ℤ) : ℝ) = 320 by norm_num [SECTOR_WORLD_W]] at hx
  rw [show ((SECTOR_WORLD_H : ℤ) : ℝ) = 235 by norm_num [SECTOR_WORLD_H]] at hy
  exact Sector.ext hx hy

/-- Who is no farther than a sector is wide stands in the block around it. -/
theorem mem_around_of_near {p p' : Position F} (hx : |p.inX - p'.inX| ≤ 320)
    (hy : |p.inY - p'.inY| ≤ 235) :
    calcSector p ∈ (calcSector p').around := by
  refine Sector.mem_around.mpr ⟨calcSector_inGrid p, ?_⟩
  rw [calcSector_cell, calcSector_cell]
  constructor
  · refine Grid.cell_near_of_keep (by norm_num) (by norm_num) ?_
    rw [show (((20 : ℤ) : ℝ)) * 320 = 6400 by norm_num]
    exact hx
  · refine Grid.cell_near_of_keep (by norm_num) (by norm_num) ?_
    rw [show (((20 : ℤ) : ℝ)) * 235 = 4700 by norm_num]
    exact hy

/-- A position that is kept in the world. -/
theorem clamp_in (x y : F) : (Position.clamp x y).inX = Descent.keep (real x) 0 6400 ∧
    (Position.clamp x y).inY = Descent.keep (real y) 0 4700 := by
  have hclamp : ∀ (v : F) (n : ℤ), real (MyMMO.clamp v (lit 0) (ofInt n)) =
      Descent.keep (real v) 0 n := by
    intro v n
    unfold MyMMO.clamp Descent.keep
    simp only [ExactMachine.lt_iff, ExactMachine.real_lit, ExactMachine.real_ofInt, Rat.cast_zero]
    split_ifs
    · rw [ExactMachine.real_lit, Rat.cast_zero]
    · rw [ExactMachine.real_ofInt]
    · rfl
  have hkeep : ∀ (x hi : ℝ), 0 ≤ hi →
      Descent.keep (Descent.keep x 0 hi) 0 hi = Descent.keep x 0 hi := by
    intro x hi hhi
    obtain ⟨h0, h1⟩ := Descent.keep_mem (x := x) hhi
    exact Descent.keep_of_mem h0 h1
  have hw : ((SECTOR_WORLD_W * SECTOR_COL_CNT : ℤ) : ℝ) = 6400 := by
    norm_num [SECTOR_WORLD_W, SECTOR_COL_CNT]
  have hh : ((SECTOR_WORLD_H * SECTOR_ROW_CNT : ℤ) : ℝ) = 4700 := by
    norm_num [SECTOR_WORLD_H, SECTOR_ROW_CNT]
  unfold Position.clamp Position.inX Position.inY
  dsimp only
  rw [hclamp, hclamp, hw, hh]
  exact ⟨hkeep _ _ (by norm_num), hkeep _ _ (by norm_num)⟩

/-- Who is in a range is no farther on any axis, but for the rounding. -/
theorem near_axes {p p' : Position F} {range : ℚ} (h : le (p.dist p') (lit range) = true) :
    |p.inX - p'.inX| ≤ range + 1 ∧ |p.inY - p'.inY| ≤ range + 1 := by
  rw [ExactMachine.le_iff, ExactMachine.real_lit] at h
  have hroot := ExactMachine.le_sqrt ((p.x - p'.x) * (p.x - p'.x) + (p.y - p'.y) * (p.y - p'.y))
  rw [ExactMachine.real_add, ExactMachine.real_mul, ExactMachine.real_mul, ExactMachine.real_sub,
    ExactMachine.real_sub] at hroot
  have hsum := hroot.trans (add_le_add_left h 1)
  constructor
  · refine (Grid.abs_keep_sub_le (by norm_num) _ _).trans (le_trans (Real.abs_le_sqrt ?_) hsum)
    nlinarith [mul_self_nonneg (real p.y - real p'.y)]
  · refine (Grid.abs_keep_sub_le (by norm_num) _ _).trans (le_trans (Real.abs_le_sqrt ?_) hsum)
    nlinarith [mul_self_nonneg (real p.x - real p'.x)]

end Field

end

end MyMMO
