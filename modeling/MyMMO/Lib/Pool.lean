/-
# Pools of threads

Any number of threads that take steps one at a time: a list of program
counters, of which a step replaces one. `weigh` adds up what every thread
holds of some resource (a reference, a token), so that a step of one thread
changes the sum by what that thread gains or gives up (`weigh_set`), and a
thread that holds all there is excludes the others (`weigh_others`).
-/
import Mathlib.Tactic

namespace Pool

variable {α : Type*}

/-- What all threads hold together. -/
def weigh (w : α → ℕ) (ts : List α) : ℕ := (ts.map w).sum

variable {w : α → ℕ} {ts : List α} {i : ℕ} {a : α}

theorem weigh_append (us : List α) : weigh w (ts ++ us) = weigh w ts + weigh w us := by simp [weigh]

@[simp] theorem weigh_singleton (b : α) : weigh w [b] = w b := by simp [weigh]

theorem weigh_eq_zero : weigh w ts = 0 ↔ ∀ b ∈ ts, w b = 0 := by simp [weigh, List.sum_eq_zero_iff]

/-- A pool is what stands before a thread, the thread, and what stands behind it. -/
theorem split_of_getElem? (h : ts[i]? = some a) :
    ∃ us vs, ts = us ++ a :: vs ∧ us.length = i ∧ ∀ b, ts.set i b = us ++ b :: vs := by
  obtain ⟨hi, rfl⟩ := List.getElem?_eq_some_iff.mp h
  refine ⟨ts.take i, ts.drop (i + 1), ?_, by simp; omega, fun b => ?_⟩
  · rw [← List.drop_eq_getElem_cons hi, List.take_append_drop]
  · rw [List.set_eq_take_append_cons_drop, if_pos hi]

/-- A step of one thread changes the sum by what that thread gains or gives up. -/
theorem weigh_set (h : ts[i]? = some a) (b : α) :
    weigh w (ts.set i b) + w a = weigh w ts + w b := by
  obtain ⟨us, vs, h1, -, h2⟩ := split_of_getElem? h
  rw [h2, h1]
  simp only [weigh, List.map_append, List.map_cons, List.sum_append, List.sum_cons]
  omega

theorem le_weigh (h : ts[i]? = some a) : w a ≤ weigh w ts := by
  obtain ⟨us, vs, h1, -, -⟩ := split_of_getElem? h
  rw [h1]
  simp only [weigh, List.map_append, List.map_cons, List.sum_append, List.sum_cons]
  omega

theorem weigh_eraseIdx (h : ts[i]? = some a) : weigh w (ts.eraseIdx i) + w a = weigh w ts := by
  obtain ⟨us, vs, h1, h2, -⟩ := split_of_getElem? h
  rw [h1, List.eraseIdx_append_of_length_le (by omega), h2, Nat.sub_self, List.eraseIdx_zero,
    List.tail_cons]
  simp only [weigh, List.map_append, List.map_cons, List.sum_append, List.sum_cons]
  omega

/-- If one thread holds all there is, the others hold nothing. -/
theorem weigh_others (h : ts[i]? = some a) (hall : weigh w ts ≤ w a) {j : ℕ} {b : α} (hne : j ≠ i)
    (hb : ts[j]? = some b) : w b = 0 := by
  obtain ⟨us, vs, h1, h2, -⟩ := split_of_getElem? h
  rw [h1] at hall hb
  simp only [weigh, List.map_append, List.map_cons, List.sum_append, List.sum_cons] at hall
  have hu : weigh w us = 0 := by simp only [weigh]; omega
  have hv : weigh w vs = 0 := by simp only [weigh]; omega
  rw [List.getElem?_append] at hb
  split_ifs at hb with hlt
  · exact weigh_eq_zero.mp hu b (List.mem_of_getElem? hb)
  · rcases hk : j - us.length with _ | k
    · omega
    · rw [hk, List.getElem?_cons_succ] at hb
      exact weigh_eq_zero.mp hv b (List.mem_of_getElem? hb)

/-- What holds of every thread holds after a step, if it holds of the thread
that moved and is kept for the others. -/
theorem forall_set {P Q : α → Prop} (h : ts[i]? = some a) {b : α} (hP : ∀ c ∈ ts, P c)
    (hkeep : ∀ j c, j ≠ i → ts[j]? = some c → P c → Q c) (hb : Q b) : ∀ c ∈ ts.set i b, Q c := by
  intro c hc
  obtain ⟨j, hj⟩ := List.mem_iff_getElem?.mp hc
  by_cases hji : j = i
  · subst hji
    obtain ⟨hi, -⟩ := List.getElem?_eq_some_iff.mp h
    rw [List.getElem?_set_self hi] at hj
    cases hj; exact hb
  · rw [List.getElem?_set_ne (Ne.symm hji)] at hj
    exact hkeep j c hji hj (hP c (List.mem_of_getElem? hj))

end Pool
