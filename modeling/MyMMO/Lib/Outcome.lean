/-
# Programs that may fail

A function into `Except ε σ` either fails or ends in a state. What is known of a result
`.ok t` is taken apart along the binds (`bind_ok`), and a loop is
`List.foldlM`: `foldlM_keeps` and `foldlM_rel` are what a loop that ends has kept, a
property or a relation to where it began, and `foldlM_runs` is the rule for a
loop that cannot fail. `foldlM_each` is the rule for a loop
that treats different things one by one. `FailsIn` says which errors are left.
-/
import Mathlib.Tactic

namespace Outcome

universe u v w

variable {ε : Type u} {σ τ : Type v} {α : Type w}

theorem bind_ok {x : Except ε σ} {f : σ → Except ε τ} {t : τ} (h : x >>= f = .ok t) :
    ∃ s, x = .ok s ∧ f s = .ok t := by
  cases x with
  | error e => cases h
  | ok s => exact ⟨s, rfl, h⟩

theorem toOption_ok {x : Except ε σ} {s : σ} (h : x.toOption = some s) : x = .ok s := by
  cases x with
  | error e => cases h
  | ok s' => cases h; rfl

theorem map_ok {x : Except ε σ} {f : σ → τ} {t : τ} (h : x.map f = .ok t) :
    ∃ s, x = .ok s ∧ f s = t := by
  cases x with
  | error e => cases h
  | ok s =>
    cases h
    exact ⟨s, rfl, rfl⟩

theorem foldlM_cons_ok {f : σ → α → Except ε σ} {a : α} {l : List α} {s t : σ}
    (h : (a :: l).foldlM f s = .ok t) : ∃ u, f s a = .ok u ∧ l.foldlM f u = .ok t := by
  rw [List.foldlM_cons] at h
  exact bind_ok h

/-- What every pass keeps, a loop that ends has kept. -/
theorem foldlM_keeps {f : σ → α → Except ε σ} {P : σ → Prop} {l : List α}
    (hf : ∀ s t, ∀ a ∈ l, P s → f s a = .ok t → P t) {s t : σ} (hs : P s)
    (h : l.foldlM f s = .ok t) : P t := by
  induction l generalizing s with
  | nil =>
    cases h
    exact hs
  | cons a l ih =>
    obtain ⟨u, hu, h⟩ := foldlM_cons_ok h
    exact ih (fun s t b hb => hf s t b (List.mem_cons_of_mem _ hb))
      (hf s u a List.mem_cons_self hs hu) h

/-- A loop whose passes go along a preorder goes along it. -/
theorem foldlM_rel {f : σ → α → Except ε σ} {R : σ → σ → Prop} (hrefl : ∀ s, R s s)
    (htrans : ∀ s t u, R s t → R t u → R s u) (hf : ∀ s t a, f s a = .ok t → R s t) {l : List α}
    {s t : σ} (h : l.foldlM f s = .ok t) : R s t := by
  induction l generalizing s with
  | nil =>
    cases h
    exact hrefl _
  | cons a l ih =>
    obtain ⟨u, hu, h⟩ := foldlM_cons_ok h
    exact htrans s u t (hf s u a hu) (ih h)

/-- A loop whose passes succeed where `P` holds, and keep it, succeeds. -/
theorem foldlM_runs {f : σ → α → Except ε σ} {P : σ → Prop} {l : List α}
    (hf : ∀ s, ∀ a ∈ l, P s → ∃ t, f s a = .ok t ∧ P t) {s : σ} (hs : P s) :
    ∃ t, l.foldlM f s = .ok t ∧ P t := by
  induction l generalizing s with
  | nil => exact ⟨s, rfl, hs⟩
  | cons a l ih =>
    obtain ⟨u, hu, hpu⟩ := hf s a List.mem_cons_self hs
    rw [List.foldlM_cons, hu]
    exact ih (fun s b hb => hf s b (List.mem_cons_of_mem _ hb)) hpu

/-- A loop over different things that takes each of them from `A` to `B`, and the others not out of
what they are in. -/
theorem foldlM_each {f : σ → α → Except ε σ} {I : σ → Prop} {A B : σ → α → Prop} {l : List α}
    (hnd : l.Nodup)
    (hf : ∀ s t, ∀ a ∈ l, I s → A s a → f s a = .ok t → I t ∧ B t a ∧ ∀ b ∈ l, b ≠ a →
      (A s b → A t b) ∧ (B s b → B t b)) {s t : σ} (hI : I s) (hA : ∀ a ∈ l, A s a)
    (h : l.foldlM f s = .ok t) :
    I t ∧ ∀ a ∈ l, B t a := by
  suffices hall : ∀ done rest : List α, (∀ a, a ∈ done ∨ a ∈ rest ↔ a ∈ l) →
      (∀ a ∈ rest, a ∉ done) → rest.Nodup →
      ∀ s, I s → (∀ a ∈ done, B s a) → (∀ a ∈ rest, A s a) → rest.foldlM f s = .ok t →
        I t ∧ ∀ a ∈ l, B t a from
    hall [] l (by simp) (by simp) hnd s hI (by simp) hA h
  intro done rest
  induction rest generalizing done with
  | nil =>
    intro hmem _ _ s hI hB _ h
    cases h
    exact ⟨hI, fun a ha => hB a (((hmem a).mpr ha).resolve_right (by simp))⟩
  | cons a rest ih =>
    intro hmem hnew hnd s hI hB hA h
    obtain ⟨u, hu, h⟩ := foldlM_cons_ok h
    obtain ⟨hnot, hnd⟩ := List.nodup_cons.mp hnd
    have hal : a ∈ l := (hmem a).mp (Or.inr List.mem_cons_self)
    obtain ⟨hIu, hBa, hothers⟩ := hf s u a hal hI (hA a List.mem_cons_self) hu
    refine ih (a :: done) (fun b => ?_) (fun b hb => ?_) hnd u hIu (fun b hb => ?_)
      (fun b hb => ?_) h
    · rw [← hmem b, List.mem_cons, List.mem_cons]
      tauto
    · rw [List.mem_cons, not_or]
      refine ⟨?_, hnew b (List.mem_cons_of_mem _ hb)⟩
      rintro rfl
      exact hnot hb
    · rcases List.mem_cons.mp hb with rfl | hold
      · exact hBa
      · have hbl : b ∈ l := (hmem b).mp (Or.inl hold)
        have hne : b ≠ a := by
          rintro rfl
          exact hnew b List.mem_cons_self hold
        exact (hothers b hbl hne).2 (hB b hold)
    · have hbl : b ∈ l := (hmem b).mp (Or.inr (List.mem_cons_of_mem _ hb))
      have hne : b ≠ a := by
        rintro rfl
        exact hnot hb
      exact (hothers b hbl hne).1 (hA b (List.mem_cons_of_mem _ hb))

/-! ### Which errors are left -/

/-- If `x` fails, it fails in `P`. -/
def FailsIn (P : ε → Prop) (x : Except ε σ) : Prop := ∀ e, x = .error e → P e

section

variable {P : ε → Prop}

theorem FailsIn.ok (s : σ) : FailsIn P (.ok s) := fun _ h => by cases h

theorem FailsIn.error {e : ε} (h : P e) : FailsIn P (.error e : Except ε σ) := by
  intro e' he'
  cases he'
  exact h

theorem FailsIn.bind {x : Except ε σ} {f : σ → Except ε τ} (hx : FailsIn P x)
    (hf : ∀ s, x = .ok s → FailsIn P (f s)) : FailsIn P (x >>= f) := by
  intro e he
  cases x with
  | error e' =>
    cases he
    exact hx e rfl
  | ok s => exact hf s rfl e he

theorem FailsIn.map {x : Except ε σ} (hx : FailsIn P x) (f : σ → τ) : FailsIn P (x.map f) := by
  intro e he
  cases x with
  | error e' =>
    cases he
    exact hx e rfl
  | ok s => cases he

/-- A loop, where `I` is what its passes keep. -/
theorem FailsIn.foldlM {f : σ → α → Except ε σ} {I : σ → Prop} {l : List α}
    (hf : ∀ s, ∀ a ∈ l, I s → FailsIn P (f s a)) (hI : ∀ s t, ∀ a ∈ l, I s → f s a = .ok t → I t)
    {s : σ} (hs : I s) :
    FailsIn P (l.foldlM f s) := by
  induction l generalizing s with
  | nil => exact .ok s
  | cons a l ih =>
    rw [List.foldlM_cons]
    refine (hf s a List.mem_cons_self hs).bind fun t ht => ?_
    exact ih (fun s b hb => hf s b (List.mem_cons_of_mem _ hb))
      (fun s t b hb => hI s t b (List.mem_cons_of_mem _ hb)) (hI s t a List.mem_cons_self hs ht)

end

/-! ### Programs that do not fail -/

/-- `x` ends in a state. -/
def Succeeds (x : Except ε σ) : Prop := ∃ s, x = .ok s

@[simp] theorem succeeds_pure (s : σ) : Succeeds (pure s : Except ε σ) := ⟨s, rfl⟩

@[simp] theorem not_succeeds_error (e : ε) : ¬Succeeds (.error e : Except ε σ) := by
  rintro ⟨s, h⟩
  cases h

theorem succeeds_bind {x : Except ε σ} {f : σ → Except ε τ} : Succeeds (x >>= f) ↔
    ∃ s, x = .ok s ∧ Succeeds (f s) := by
  constructor
  · rintro ⟨t, h⟩
    obtain ⟨s, hs, ht⟩ := bind_ok h
    exact ⟨s, hs, t, ht⟩
  · rintro ⟨s, rfl, t, ht⟩
    exact ⟨t, ht⟩

/-- A first step that is known to end in `s`. -/
theorem succeeds_bind_ok {x : Except ε σ} {s : σ} (h : x = .ok s) {f : σ → Except ε τ} :
    Succeeds (x >>= f) ↔ Succeeds (f s) := by
  rw [h]
  exact Iff.rfl

end Outcome
