/-
# Coming near in legs

A coordinate that is kept in an interval comes no further from a goal in it
(`sq_keep_sub_le`), steps of one length pass every distance closely (`exists_near`),
and who loses a fixed amount of what is left in every leg arrives (`reaches`).
-/
import Mathlib.Tactic

namespace Descent

variable {α K : Type*} [Field K] [LinearOrder K] [IsStrictOrderedRing K]

/-- `x`, kept between `lo` and `hi`. -/
def keep (x lo hi : K) : K := if x < lo then lo else if hi < x then hi else x

omit [Field K] [IsStrictOrderedRing K] in
theorem keep_mem {x lo hi : K} (h : lo ≤ hi) : lo ≤ keep x lo hi ∧ keep x lo hi ≤ hi := by
  unfold keep
  split_ifs with h₁ h₂
  · exact ⟨le_rfl, h⟩
  · exact ⟨h, le_rfl⟩
  · exact ⟨not_lt.mp h₁, not_lt.mp h₂⟩

omit [Field K] [IsStrictOrderedRing K] in
theorem keep_of_mem {x lo hi : K} (h₁ : lo ≤ x) (h₂ : x ≤ hi) : keep x lo hi = x := by
  unfold keep
  rw [if_neg (not_lt.mpr h₁), if_neg (not_lt.mpr h₂)]

theorem sq_keep_sub_le {x lo hi goal : K} (h₁ : lo ≤ goal) (h₂ : goal ≤ hi) :
    (keep x lo hi - goal) ^ 2 ≤ (x - goal) ^ 2 := by
  unfold keep
  split_ifs with hlo hhi
  · rw [sq_le_sq, abs_of_nonpos (by linarith), abs_of_nonpos (by linarith)]
    linarith
  · rw [sq_le_sq, abs_of_nonneg (by linarith), abs_of_nonneg (by linarith)]
    linarith
  · exact le_rfl

/-- One of the points `0, r, 2 * r, ...` is within half a step of `q`. -/
theorem exists_near [FloorSemiring K] {r q : K} (hr : 0 < r) (hq : 0 ≤ q) :
    ∃ k : ℕ, r * k - q ≤ r / 2 ∧ q - r * k ≤ r / 2 := by
  have hpos : 0 ≤ q / r + 1 / 2 := add_nonneg (div_nonneg hq hr.le) (by norm_num)
  have hle := Nat.floor_le hpos
  have hlt := Nat.lt_floor_add_one (q / r + 1 / 2)
  have hq' : r * (q / r) = q := mul_div_cancel₀ q hr.ne'
  refine ⟨⌊q / r + 1 / 2⌋₊, ?_, ?_⟩
  · have h := mul_le_mul_of_nonneg_left hle hr.le
    rw [mul_add, hq'] at h
    linarith
  · have h := mul_le_mul_of_nonneg_left hlt.le hr.le
    rw [mul_add, mul_add, hq'] at h
    linarith

/-- `Q` is reached from `P` if every leg that does not end in `Q` takes at least `δ` from `μ`. -/
theorem reaches [Archimedean K] {R : α → α → Prop} {P Q : α → Prop} (μ : α → K) {δ : K} (hδ : 0 < δ)
    (hμ : ∀ a, 0 ≤ μ a) (hleg : ∀ a, P a → Q a ∨ ∃ b, R a b ∧ P b ∧ μ b ≤ μ a - δ) {a : α}
    (ha : P a) :
    ∃ b, Relation.ReflTransGen R a b ∧ Q b := by
  obtain ⟨n, hn⟩ := Archimedean.arch (μ a) hδ
  induction n generalizing a with
  | zero =>
    rcases hleg a ha with hq | ⟨b, -, -, hb⟩
    · exact ⟨a, .refl, hq⟩
    · rw [zero_smul] at hn
      linarith [hμ b]
  | succ n ih =>
    rcases hleg a ha with hq | ⟨b, hab, hpb, hb⟩
    · exact ⟨a, .refl, hq⟩
    · rw [succ_nsmul] at hn
      obtain ⟨c, hbc, hc⟩ := ih hpb (by linarith)
      exact ⟨c, .head hab hbc, hc⟩

end Descent
