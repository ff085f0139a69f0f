/-
# What is in flight

A sender and a receiver that go the same way: `R a r b` is that the message `r` leads from `a` to
`b`, and what is in flight leads from where the receiver is to where the sender is (`Follows`).
Sending and receiving one keep that, and when all has arrived both are in one place.
-/
import Mathlib.Tactic

namespace InFlight

variable {α ρ : Type*}

/-- The messages `l` lead from `a` to `b`, one by one. -/
inductive Follows (R : α → ρ → α → Prop) : α → List ρ → α → Prop
  | nil (a : α) : Follows R a [] a
  | cons {a b c : α} {r : ρ} {l : List ρ} : R a r b → Follows R b l c → Follows R a (r :: l) c

variable {R : α → ρ → α → Prop} {a b c : α} {r : ρ} {l m : List ρ}

theorem Follows.one (h : R a r b) : Follows R a [r] b := .cons h (.nil b)

theorem Follows.append (h : Follows R a l b) (h' : Follows R b m c) : Follows R a (l ++ m) c := by
  induction h with
  | nil a => exact h'
  | cons hr _ ih => exact .cons hr (ih h')

/-- The first of them arrives. -/
theorem Follows.arrives (h : Follows R a (r :: l) c) : ∃ b, R a r b ∧ Follows R b l c := by
  cases h with
  | cons hr h => exact ⟨_, hr, h⟩

theorem Follows.arrived (h : Follows R a [] b) : a = b := by
  cases h
  rfl

end InFlight
