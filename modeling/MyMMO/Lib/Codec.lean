/-
# Readers that take back what was written

A reader is a program over the input it has not read yet, `StateT σ (Except ε) β`, where `left` is
what is left of the input in a state. `Takes left read bs x` says that `read` takes `bs` off the
front, whatever comes behind it, and makes `x` of it. Readers compose as the texts they take
(`Takes.bind`), and a reader that is run again and again takes a list (`Takes.many`).
-/
import Mathlib.Tactic

namespace Codec

universe u v w

variable {σ β γ : Type u} {ε : Type v} {α : Type w} {left : σ → List α}

/-- From the front of what is left, `read` takes `bs` and makes `x` of it. -/
def Takes (left : σ → List α) (read : StateT σ (Except ε) β) (bs : List α) (x : β) : Prop :=
  ∀ s rest, left s = bs ++ rest → ∃ t, read.run s = .ok (x, t) ∧ left t = rest

/-- `read` once for each of `n`. -/
def many (read : StateT σ (Except ε) β) : ℕ → StateT σ (Except ε) (List β)
  | 0 => return []
  | n + 1 => do
    let x ← read
    let xs ← many read n
    return x :: xs

section

variable {read : StateT σ (Except ε) β} {f : β → StateT σ (Except ε) γ} {bs cs : List α}
    {x : β} {y : γ}

theorem takes_pure (x : β) : Takes left (pure x : StateT σ (Except ε) β) [] x := by
  intro s rest hs
  exact ⟨s, rfl, hs⟩

theorem Takes.bind (h : Takes left read bs x) (hf : Takes left (f x) cs y) :
    Takes left (read >>= f) (bs ++ cs) y := by
  intro s rest hs
  rw [List.append_assoc] at hs
  obtain ⟨t, ht, hleft⟩ := h s _ hs
  obtain ⟨u, hu, hrest⟩ := hf t rest hleft
  refine ⟨u, ?_, hrest⟩
  rw [StateT.run_bind, ht]
  exact hu

/-- The last of a chain. -/
theorem Takes.bind_pure {g : β → γ} (h : Takes left read bs x) :
    Takes left (read >>= fun x => pure (g x)) bs (g x) := by
  have hbind := h.bind (f := fun x => pure (g x)) (takes_pure (g x))
  rw [List.append_nil] at hbind
  exact hbind

/-- Everything that is left is taken. -/
theorem Takes.run (h : Takes left read bs x) {s : σ} (hs : left s = bs) :
    ∃ t, read.run s = .ok (x, t) ∧ left t = [] :=
  h s [] (by rw [hs, List.append_nil])

theorem Takes.many {enc : β → List α} {xs : List β} (h : ∀ x ∈ xs, Takes left read (enc x) x) :
    Takes left (many read xs.length) (xs.flatMap enc) xs := by
  induction xs with
  | nil => exact takes_pure []
  | cons x xs ih =>
    have hrest := ih fun x' hx' => h x' (List.mem_cons_of_mem _ hx')
    rw [List.flatMap_cons]
    exact (h x List.mem_cons_self).bind hrest.bind_pure

end

end Codec
