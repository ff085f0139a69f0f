/-
# Positions in sorted lists

The position of an element is the number of those before it (`idxOf_eq_countP`), and where a
list is sorted those are the ones the order puts before it. `StdSort` is what is
known of `std::sort`: it puts what is equivalent in some order.
-/
import Mathlib.Tactic

namespace Positions

variable {α : Type*}

/-- The position of `a` counts what stands before it. -/
theorem idxOf_eq_countP [BEq α] [LawfulBEq α] {l : List α} {a : α} (ha : a ∈ l)
    {p : α → Bool} (hself : p a = false) (hbefore : ∀ b, [b, a].Sublist l → b ≠ a → p b = true)
    (hafter : ∀ b, [a, b].Sublist l → p b = false) :
    l.idxOf a = l.countP p := by
  induction l with
  | nil => cases ha
  | cons c l ih =>
    by_cases hc : c = a
    · subst hc
      have hnone : l.countP p = 0 := by
        rw [List.countP_eq_zero]
        intro b hb hp
        have hpair : [c, b].Sublist (c :: l) := (List.singleton_sublist.mpr hb).cons_cons c
        rw [hafter b hpair] at hp
        cases hp
      rw [List.idxOf_cons_self,
        List.countP_cons_of_neg (by rw [hself]; exact Bool.false_ne_true), hnone]
    · have hmem : a ∈ l := (List.mem_cons.mp ha).resolve_left fun he => hc he.symm
      have hpc : p c = true := hbefore c ((List.singleton_sublist.mpr hmem).cons_cons c) hc
      rw [List.idxOf_cons_ne _ hc, List.countP_cons_of_pos hpc,
        ih hmem (fun b hb => hbefore b (hb.cons c)) fun b hb => hafter b (hb.cons c)]

/-- The same where the list is sorted by `R`. -/
theorem idxOf_eq_countP_of_pairwise [BEq α] [LawfulBEq α] {R : α → α → Prop} {l : List α}
    (h : l.Pairwise R) {a : α} (ha : a ∈ l) {p : α → Bool} (hself : p a = false)
    (hbefore : ∀ b ∈ l, R b a → b ≠ a → p b = true) (hafter : ∀ b ∈ l, R a b → p b = false) :
    l.idxOf a = l.countP p := by
  apply idxOf_eq_countP ha hself
  · intro b hb hne
    exact hbefore b (hb.subset List.mem_cons_self) (List.pairwise_pair.mp (h.sublist hb)) hne
  · intro b hb
    exact hafter b (hb.subset (List.mem_cons_of_mem _ List.mem_cons_self))
      (List.pairwise_pair.mp (h.sublist hb))

/-- What stands before in a list without repetitions does not stand behind. -/
theorem idxOf_lt_of_pair [BEq α] [LawfulBEq α] {l : List α} (hnd : l.Nodup) {a b : α}
    (h : [a, b].Sublist l) :
    l.idxOf a < l.idxOf b := by
  induction l with
  | nil => cases h
  | cons c l ih =>
    obtain ⟨hnot, hnd⟩ := List.nodup_cons.mp hnd
    cases h with
    | cons _ h =>
      have hne : ∀ x ∈ [a, b], c ≠ x := by
        rintro x hx rfl
        exact hnot (h.subset hx)
      rw [List.idxOf_cons_ne _ (hne a List.mem_cons_self),
        List.idxOf_cons_ne _ (hne b (List.mem_cons_of_mem _ List.mem_cons_self))]
      exact Nat.succ_lt_succ (ih hnd h)
    | cons_cons _ h =>
      have hne : a ≠ b := by
        rintro rfl
        exact hnot (List.singleton_sublist.mp h)
      rw [List.idxOf_cons_self, List.idxOf_cons_ne _ hne]
      exact Nat.succ_pos _

theorem not_pair_swap {l : List α} (hnd : l.Nodup) {a b : α} (h : [a, b].Sublist l) :
    ¬[b, a].Sublist l := by
  classical
  intro hswap
  exact lt_asymm (idxOf_lt_of_pair hnd h) (idxOf_lt_of_pair hnd hswap)

theorem countP_or {l : List α} {p q : α → Prop} [DecidablePred p] [DecidablePred q]
    (h : ∀ a, p a → ¬q a) :
    (l.countP fun a => p a ∨ q a) = (l.countP fun a => p a) + l.countP fun a => q a := by
  induction l with
  | nil => rfl
  | cons a l ih =>
    rw [List.countP_cons, List.countP_cons, List.countP_cons, ih]
    by_cases hp : p a
    · simp [hp, h a hp]
      omega
    · simp [hp]
      omega

/-! ### Sorting -/

/-- A strict weak order. -/
structure Weak (lt : α → α → Bool) : Prop where
  irrefl : ∀ a, lt a a = false
  trans : ∀ a b c, lt a b = true → lt b c = true → lt a c = true
  cotrans : ∀ a b c, lt a b = false → lt b c = false → lt a c = false

theorem weak_key {κ : Type*} [LinearOrder κ] (key : α → κ) :
    Weak fun a b => decide (key a < key b) := by
  constructor
  · intro a
    exact decide_eq_false (lt_irrefl _)
  · intro a b c hab hbc
    exact decide_eq_true ((of_decide_eq_true hab).trans (of_decide_eq_true hbc))
  · intro a b c hab hbc
    have hba := not_lt.mp (of_decide_eq_false hab)
    have hcb := not_lt.mp (of_decide_eq_false hbc)
    exact decide_eq_false (not_lt.mpr (hcb.trans hba))

/-- A sort that need not be stable. -/
structure StdSort (sort : (α → α → Bool) → List α → List α) : Prop where
  perm : ∀ lt l, (sort lt l).Perm l
  sorted : ∀ lt l, Weak lt → (sort lt l).Pairwise fun a b => lt b a = false

/-- Stable sorting after `arrange` has put the list in some order. -/
def arrangedSort (arrange : List α → List α) (lt : α → α → Bool) (l : List α) : List α :=
  (arrange l).mergeSort fun a b => !lt b a

theorem Weak.trans_not {lt : α → α → Bool} (h : Weak lt) (a b c : α) (hab : (!lt b a) = true)
    (hbc : (!lt c b) = true) :
    (!lt c a) = true := by
  rw [Bool.not_eq_true'] at *
  exact h.cotrans c b a hbc hab

theorem Weak.total_not {lt : α → α → Bool} (h : Weak lt) (a b : α) :
    ((!lt b a) || (!lt a b)) = true := by
  by_contra hno
  rw [Bool.not_eq_true, Bool.or_eq_false_iff, Bool.not_eq_false', Bool.not_eq_false'] at hno
  have := h.trans b a b hno.1 hno.2
  rw [h.irrefl] at this
  cases this

theorem stdSort_arranged {arrange : List α → List α} (h : ∀ l, (arrange l).Perm l) :
    StdSort (arrangedSort arrange) where
  perm lt l := (List.mergeSort_perm _ _).trans (h l)
  sorted lt l hlt := by
    have hsorted := List.pairwise_mergeSort hlt.trans_not hlt.total_not (arrange l)
    exact hsorted.imp fun hab => Bool.not_eq_true' _ |>.mp hab

/-- What is equivalent stays in the order it was arranged in. -/
theorem pair_arranged {arrange : List α → List α} {lt : α → α → Bool}
    (hlt : Weak lt) {l : List α} {a b : α} (hab : [a, b].Sublist (arrange l)) (h : lt b a = false) :
    [a, b].Sublist (arrangedSort arrange lt l) :=
  List.pair_sublist_mergeSort hlt.trans_not hlt.total_not (by rw [h]; rfl) hab

end Positions
