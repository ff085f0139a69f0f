/-
# The bounded queue

What a queue between one writer and one reader is for: pushes append, pops
take the oldest, and never more than `cap` elements are held. The state keeps
everything ever pushed and popped, so that "first in, first out, nothing lost
and nothing twice" is one equation, `pushed = popped ++ held` (`accounted`).
-/
import MyMMO.Lib.System

variable {α : Type*}

/-- A queue and its history. -/
structure Fifo (α : Type*) where
  held : List α
  pushed : List α
  popped : List α

namespace Fifo

/-- The steps: push a block, pop a number of elements. -/
inductive Op (α : Type*)
  | push (xs : List α)
  | pop (n : ℕ)

def empty : Fifo α := ⟨[], [], []⟩

def push (q : Fifo α) (xs : List α) : Fifo α := ⟨q.held ++ xs, q.pushed ++ xs, q.popped⟩

def pop (q : Fifo α) (n : ℕ) : Fifo α := ⟨q.held.drop n, q.pushed, q.popped ++ q.held.take n⟩

/-- The bounded queue: a push needs room, a pop needs elements. -/
def bounded (α : Type*) (cap : ℕ) : System (Fifo α) (Op α) where
  init q := q = empty
  next q
    | .push xs => if q.held.length + xs.length ≤ cap then some (q.push xs) else none
    | .pop n => if n ≤ q.held.length then some (q.pop n) else none

/-- What was pushed is what was popped and what is held, in this order. -/
structure Accounted (cap : ℕ) (q : Fifo α) : Prop where
  pushed_eq : q.pushed = q.popped ++ q.held
  length_le : q.held.length ≤ cap

theorem accounted (cap : ℕ) : (bounded α cap).Invariant (Accounted cap) where
  init h := by
    subst h
    exact ⟨rfl, Nat.zero_le _⟩
  step a h he := by
    cases a with
    | push xs =>
      obtain ⟨hc, he⟩ := Option.ite_none_right_eq_some.mp he
      cases he
      exact ⟨by simp [push, h.pushed_eq], by simpa [push] using hc⟩
    | pop n =>
      obtain ⟨-, he⟩ := Option.ite_none_right_eq_some.mp he
      cases he
      have := h.length_le
      exact ⟨by simp [pop, h.pushed_eq], by simp only [pop, List.length_drop]; omega⟩

/-- First in, first out: what came out is the beginning of what went in. -/
theorem Accounted.prefix {cap : ℕ} {q : Fifo α} (h : Accounted cap q) : q.popped <+: q.pushed :=
  ⟨q.held, h.pushed_eq.symm⟩

end Fifo
