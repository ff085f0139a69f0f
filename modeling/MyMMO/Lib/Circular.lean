/-
# Cells around a circle

A memory of `N` cells used as a circle: position `i` of an unbounded count is
cell `i % N`. `window mem N h n` is what the `n` cells from position `h` on
hold, in order, so a queue whose reader stands at `h` and whose writer stands
at `h + n` holds exactly `window mem N h n`. Two different positions less than
`N` apart are different cells (`mod_ne`), hence a write at a position outside
a window leaves the window alone (`window_update_ne`), and one right behind it
extends it (`window_update_snoc`).

`load` and `store` are the straight copies a program makes; as long as they
stop at the end of the memory they agree with windows (`load_eq_window`,
`window_store`).
-/
import Mathlib.Tactic
import Mathlib.Data.List.Basic
import Mathlib.Logic.Function.Basic

namespace Circular

variable {α : Type*}

/-- What the `n` cells from position `h` on hold. -/
def window (mem : ℕ → α) (N h n : ℕ) : List α := (List.range n).map fun i => mem ((h + i) % N)

/-- Copies `n` cells out of the memory, from cell `f` upwards. -/
def load (mem : ℕ → α) (f : ℕ) : ℕ → List α
  | 0 => []
  | n + 1 => mem f :: load mem (f + 1) n

/-- Copies a list into the memory, from cell `r` upwards. -/
def store (mem : ℕ → α) (r : ℕ) : List α → (ℕ → α)
  | [] => mem
  | x :: xs => store (Function.update mem r x) (r + 1) xs

/-! ### Positions -/

/-- Positions less than a turn apart are different cells. -/
theorem mod_ne {N a b : ℕ} (h : a < b) (hN : b < a + N) : a % N ≠ b % N := by
  intro he
  have hd : N ∣ b - a := (Nat.modEq_iff_dvd' h.le).mp he
  have := Nat.le_of_dvd (by omega) hd
  omega

/-- A position less than a turn behind the memory's start. -/
theorem mod_wrap {N p : ℕ} (h1 : N ≤ p) (h2 : p < 2 * N) : p % N = p - N := by
  rw [Nat.mod_eq_sub_mod h1, Nat.mod_eq_of_lt (by omega)]

/-! ### Windows -/

variable (mem : ℕ → α) (N : ℕ)

@[simp] theorem window_length (h n : ℕ) : (window mem N h n).length = n := by simp [window]

@[simp] theorem window_zero (h : ℕ) : window mem N h 0 = [] := rfl

theorem window_add (h a b : ℕ) :
    window mem N h (a + b) = window mem N h a ++ window mem N (h + a) b := by
  simp [window, List.range_add, Function.comp_def, Nat.add_assoc]

theorem window_succ (h n : ℕ) :
    window mem N h (n + 1) = window mem N h n ++ [mem ((h + n) % N)] := by
  rw [window_add]
  simp [window]

/-- A window depends on its position only up to turns. -/
theorem window_mod (h n : ℕ) : window mem N (h % N) n = window mem N h n := by
  simp [window, Nat.add_mod]

theorem window_congr_mod {a b : ℕ} (h : a % N = b % N) (n : ℕ) :
    window mem N a n = window mem N b n := by
  rw [← window_mod, h, window_mod]

theorem window_drop (h n k : ℕ) : (window mem N h n).drop k = window mem N (h + k) (n - k) := by
  rcases Nat.le_total k n with hk | hk
  · obtain ⟨m, rfl⟩ := Nat.exists_eq_add_of_le hk
    rw [window_add, Nat.add_sub_cancel_left]
    simp
  · rw [Nat.sub_eq_zero_of_le hk, window_zero, List.drop_eq_nil_of_le (by simpa using hk)]

theorem window_take (h n k : ℕ) (hk : k ≤ n) : (window mem N h n).take k = window mem N h k := by
  obtain ⟨m, rfl⟩ := Nat.exists_eq_add_of_le hk
  rw [window_add]
  simp

variable {mem N}

theorem window_congr {mem' : ℕ → α} {h n : ℕ}
    (he : ∀ i < n, mem ((h + i) % N) = mem' ((h + i) % N)) :
    window mem N h n = window mem' N h n := by
  refine List.map_congr_left fun i hi => he i ?_
  simpa using hi

/-- A write outside the window leaves it alone. -/
theorem window_update_ne {h n p : ℕ} {x : α} (hp : ∀ i < n, (h + i) % N ≠ p) :
    window (Function.update mem p x) N h n = window mem N h n :=
  window_congr fun i hi => Function.update_of_ne (hp i hi) ..

/-- A write at a position that is ahead of the window, by less than a turn
from its start, leaves it alone. -/
theorem window_update_ahead {h n p : ℕ} {x : α} (h1 : h + n ≤ p) (h2 : p < h + N) :
    window (Function.update mem (p % N) x) N h n = window mem N h n :=
  window_update_ne fun i hi => mod_ne (by omega) (by omega)

/-- A write right behind the window extends it. -/
theorem window_update_snoc {h n : ℕ} {x : α} (hn : n < N) :
    window (Function.update mem ((h + n) % N) x) N h (n + 1) = window mem N h n ++ [x] := by
  rw [window_succ, window_update_ahead (by omega) (by omega)]
  simp

/-! ### Straight copies -/

@[simp] theorem load_length (f n : ℕ) : (load mem f n).length = n := by
  induction n generalizing f with
  | zero => rfl
  | succ n ih => simp [load, ih]

theorem load_add (f a b : ℕ) : load mem f (a + b) = load mem f a ++ load mem (f + a) b := by
  induction a generalizing f with
  | zero => simp [load]
  | succ a ih =>
    rw [Nat.succ_add, load, ih, load, List.cons_append]
    congr 3; omega

theorem load_take (f : ℕ) {n k : ℕ} (hk : k ≤ n) : (load mem f n).take k = load mem f k := by
  obtain ⟨m, rfl⟩ := Nat.exists_eq_add_of_le hk
  rw [load_add, List.take_left' (load_length f k)]

theorem load_drop (f : ℕ) {n k : ℕ} (hk : k ≤ n) :
    (load mem f n).drop k = load mem (f + k) (n - k) := by
  obtain ⟨m, rfl⟩ := Nat.exists_eq_add_of_le hk
  rw [load_add, List.drop_left' (load_length f k), Nat.add_sub_cancel_left]

/-- A straight copy that stops at the memory's end reads a window. -/
theorem load_eq_window {f n : ℕ} (h : f + n ≤ N) : load mem f n = window mem N f n := by
  induction n generalizing f with
  | zero => rfl
  | succ n ih =>
    rw [load, ih (by omega), Nat.add_comm n 1, window_add]
    simp [window, Nat.mod_eq_of_lt (show f < N by omega)]

theorem store_apply_of_lt (xs : List α) {r p : ℕ} (h : p < r) : store mem r xs p = mem p := by
  induction xs generalizing mem r with
  | nil => rfl
  | cons x xs ih => rw [store, ih (by omega), Function.update_of_ne (by omega)]

theorem store_apply_of_ge (xs : List α) {r p : ℕ} (h : r + xs.length ≤ p) :
    store mem r xs p = mem p := by
  induction xs generalizing mem r with
  | nil => rfl
  | cons x xs ih =>
    simp only [List.length_cons] at h
    rw [store, ih (by omega), Function.update_of_ne (by omega)]

theorem load_store (mem : ℕ → α) (xs : List α) (r : ℕ) :
    load (store mem r xs) r xs.length = xs := by
  induction xs generalizing mem r with
  | nil => rfl
  | cons x xs ih =>
    rw [List.length_cons, load, store, ih]
    rw [store_apply_of_lt xs (by omega), Function.update_self]

/-- A copy right behind what is read extends it. -/
theorem load_store_snoc (mem : ℕ → α) (xs : List α) (f n : ℕ) :
    load (store mem (f + n) xs) f (n + xs.length) = load mem f n ++ xs := by
  rw [load_add, load_store]
  congr 1
  induction n generalizing f with
  | zero => rfl
  | succ n ih =>
    rw [load, load, store_apply_of_lt xs (by omega), show f + (n + 1) = f + 1 + n by omega, ih]

/-- A straight copy that stops at the memory's end fills a window. -/
theorem window_store {xs : List α} {r : ℕ} (h : r + xs.length ≤ N) :
    window (store mem r xs) N r xs.length = xs := by
  rw [← load_eq_window h, load_store]

/-- A straight copy leaves every window alone whose cells it does not touch. -/
theorem window_store_ne {xs : List α} {r h n : ℕ}
    (hd : ∀ i < n, (h + i) % N < r ∨ r + xs.length ≤ (h + i) % N) :
    window (store mem r xs) N h n = window mem N h n := by
  refine window_congr fun i hi => ?_
  rcases hd i hi with h1 | h1
  · exact store_apply_of_lt xs h1
  · exact store_apply_of_ge xs h1

end Circular
