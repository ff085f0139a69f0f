/-
# Step systems and their runs

A step system has initial states and a partial step function: `next s l` is
the state that step `l` leads to, or `none` if `l` cannot happen in `s`. All
choices (which thread moves, what the environment answers) are in the label,
so a run is a list of labels and can be evaluated (`exec`). `Reachable` is
every state some run ends in; `Invariant.reachable` is the induction over
runs, done once. `restrict` keeps only the steps that meet a condition, for
results about the runs all of whose steps meet it, and `Simulation` carries
runs of one system to runs of another.
-/
import Mathlib.Tactic

/-- A step system over states `σ` and step labels `l`. -/
structure System (σ l : Type*) where
  init : σ → Prop
  next : σ → l → Option σ

namespace System

variable {σ l τ m : Type*}

/-- The state after the steps `ls`, if every one of them can happen. -/
def exec (S : System σ l) : σ → List l → Option σ
  | s, [] => some s
  | s, a :: ls => (S.next s a).bind fun t => S.exec t ls

/-- The states that runs end in. -/
inductive Reachable (S : System σ l) : σ → Prop
  | start {s : σ} : S.init s → Reachable S s
  | step {s t : σ} (a : l) : Reachable S s → S.next s a = some t → Reachable S t

theorem Reachable.exec {S : System σ l} : ∀ {s t : σ} (ls : List l), S.Reachable s →
    S.exec s ls = some t → S.Reachable t
  | _, _, [], h, he => by cases he; exact h
  | s, t, a :: ls, h, he => by
    obtain ⟨u, hu, he⟩ := Option.bind_eq_some_iff.mp he
    exact (h.step a hu).exec ls he

/-- Some steps lead from `s` to `t`. -/
def Leads (S : System σ l) (s t : σ) : Prop := ∃ ls, S.exec s ls = some t

theorem exec_cons {S : System σ l} {s t : σ} {a : l} (h : S.next s a = some t) (ls : List l) :
    S.exec s (a :: ls) = S.exec t ls := by
  rw [System.exec, h, Option.bind_some]

theorem exec_append (S : System σ l) (s : σ) (ls ms : List l) :
    S.exec s (ls ++ ms) = (S.exec s ls).bind fun t => S.exec t ms := by
  induction ls generalizing s with
  | nil => rfl
  | cons a ls ih =>
    rw [List.cons_append, System.exec, System.exec, Option.bind_assoc]
    exact congrArg _ (funext ih)

theorem Leads.refl {S : System σ l} (s : σ) : S.Leads s s := ⟨[], rfl⟩

theorem Leads.step {S : System σ l} {s t : σ} (a : l) (h : S.next s a = some t) : S.Leads s t :=
  ⟨[a], by simp [System.exec, h]⟩

theorem Leads.trans {S : System σ l} {s t u : σ} (h1 : S.Leads s t) (h2 : S.Leads t u) :
    S.Leads s u := by
  obtain ⟨ls, h1⟩ := h1
  obtain ⟨ms, h2⟩ := h2
  exact ⟨ls ++ ms, by rw [exec_append, h1]; exact h2⟩

/-- What every step keeps, some steps keep. -/
theorem Leads.keeps {S : System σ l}
    {P : σ → Prop} (hstep : ∀ s t a, P s → S.next s a = some t → P t) {s t : σ} (h : S.Leads s t)
    (hs : P s) : P t := by
  obtain ⟨ls, h⟩ := h
  induction ls generalizing s with
  | nil =>
    cases h
    exact hs
  | cons a ls ih =>
    obtain ⟨u, hu, h⟩ := Option.bind_eq_some_iff.mp h
    exact ih (hstep s u a hs hu) h

theorem Reachable.leads {S : System σ l} {s t : σ} (h : S.Reachable s) (ht : S.Leads s t) :
    S.Reachable t := by
  obtain ⟨ls, hls⟩ := ht
  exact h.exec ls hls

/-- A property that holds initially and is kept by every step. -/
structure Invariant (S : System σ l) (P : σ → Prop) : Prop where
  init : ∀ {s}, S.init s → P s
  step : ∀ {s t} (a : l), P s → S.next s a = some t → P t

/-- An invariant holds in every reachable state. -/
theorem Invariant.reachable {S : System σ l} {P : σ → Prop} (h : S.Invariant P) {s : σ}
    (hs : S.Reachable s) : P s := by
  induction hs with
  | start hi => exact h.init hi
  | step a _ he ih => exact h.step a ih he

/-! ### Runs whose steps meet a condition -/

open Classical in
/-- The system with only the steps that meet `G`. -/
noncomputable def restrict (S : System σ l) (G : σ → l → Prop) : System σ l where
  init := S.init
  next s a := if G s a then S.next s a else none

theorem restrict_next {S : System σ l} {G : σ → l → Prop} {s t : σ} {a : l} :
    (S.restrict G).next s a = some t ↔ G s a ∧ S.next s a = some t := by
  simp only [restrict]
  split_ifs with h <;> simp [h]

theorem Reachable.of_restrict {S : System σ l} {G : σ → l → Prop} {s : σ}
    (h : (S.restrict G).Reachable s) : S.Reachable s := by
  induction h with
  | start hi => exact .start hi
  | step a _ he ih => exact ih.step a (restrict_next.mp he).2

theorem Reachable.restrict_mono {S : System σ l} {G H : σ → l → Prop}
    (hGH : ∀ s a, S.Reachable s → G s a → H s a) {s : σ} (h : (S.restrict G).Reachable s) :
    (S.restrict H).Reachable s := by
  induction h with
  | start hi => exact .start hi
  | step a hr he ih =>
    obtain ⟨hg, he⟩ := restrict_next.mp he
    exact ih.step a (restrict_next.mpr ⟨hGH _ a hr.of_restrict hg, he⟩)

/-- The state after the steps `ls`, if every one of them can happen and passes the test `g`. -/
def execIf (S : System σ l) (g : σ → l → Bool) : σ → List l → Option σ
  | s, [] => some s
  | s, a :: ls => if g s a then (S.next s a).bind fun t => S.execIf g t ls else none

theorem exec_of_execIf {S : System σ l} {G : σ → l → Prop} {g : σ → l → Bool}
    (hg : ∀ s a, g s a = true → G s a) {s t : σ} {ls : List l} (h : S.execIf g s ls = some t) :
    (S.restrict G).exec s ls = some t := by
  induction ls generalizing s with
  | nil => exact h
  | cons a ls ih =>
    simp only [System.execIf] at h
    split_ifs at h with hga
    obtain ⟨u, hu, h⟩ := Option.bind_eq_some_iff.mp h
    exact Option.bind_eq_some_iff.mpr ⟨u, restrict_next.mpr ⟨hg s a hga, hu⟩, ih h⟩

theorem Reachable.execIf {S : System σ l} {G : σ → l → Prop} {g : σ → l → Bool}
    (hg : ∀ s a, g s a = true → G s a) {s t : σ} (ls : List l) (h : (S.restrict G).Reachable s)
    (he : S.execIf g s ls = some t) : (S.restrict G).Reachable t :=
  h.exec ls (exec_of_execIf hg he)

/-- An invariant may use the condition on the step. -/
theorem restrict_invariant {S : System σ l} {G : σ → l → Prop} {P : σ → Prop}
    (h0 : ∀ {s}, S.init s → P s) (h1 : ∀ {s t} (a : l), P s → G s a → S.next s a = some t → P t) :
    (S.restrict G).Invariant P where
  init := h0
  step a hp he := h1 a hp (restrict_next.mp he).1 (restrict_next.mp he).2

/-! ### Simulation -/

/-- `R` relates every state of `S` to a state of `T`, and every step of `S`
to a step of `T` or to no step at all. -/
structure Simulation (S : System σ l) (T : System τ m) (R : σ → τ → Prop) : Prop where
  init : ∀ {s}, S.init s → ∃ t, T.init t ∧ R s t
  step : ∀ {s s' t} (a : l), R s t → S.next s a = some s' →
    R s' t ∨ ∃ b t', T.next t b = some t' ∧ R s' t'

/-- Every reachable state of `S` stands for a reachable state of `T`. -/
theorem Simulation.reachable {S : System σ l} {T : System τ m} {R : σ → τ → Prop}
    (h : S.Simulation T R) {s : σ} (hs : S.Reachable s) : ∃ t, T.Reachable t ∧ R s t := by
  induction hs with
  | start hi =>
    obtain ⟨t, ht, hr⟩ := h.init hi
    exact ⟨t, .start ht, hr⟩
  | step a _ he ih =>
    obtain ⟨t, ht, hr⟩ := ih
    rcases h.step a hr he with hr' | ⟨b, t', hb, hr'⟩
    · exact ⟨t, ht, hr'⟩
    · exact ⟨t', ht.step b hb, hr'⟩

end System
