/-
# Buffers that keep the extremes

A buffer of `k` cells for the first `k`, by an order `r`, of all values there have been. A new value
that comes before the last cell goes where it belongs, and the cells from there on move up by one,
the last one out (`keep`, loop by loop). A buffer that starts with a value behind all others in
every cell always holds the beginning of the sorted values (`Keeps.cells_eq`).
-/
import Mathlib.Tactic
import Mathlib.Data.List.Sort

namespace Extremes

variable {α : Type*} (r : α → α → Prop) [DecidableRel r]

/-- The first `k` cells. -/
def cells (a : ℕ → α) (k : ℕ) : List α := (List.range k).map a

/-- From `j` down to `i`, every cell takes the one below it. -/
def shiftUp (a : ℕ → α) (i : ℕ) : ℕ → ℕ → α
  | 0 => a
  | j + 1 => if j + 1 = i then a else shiftUp (Function.update a (j + 1) (a j)) i j

/-- From the cell `i` on, `x` takes the place of the first that it comes before. -/
def place (k : ℕ) (a : ℕ → α) (x : α) (i : ℕ) : ℕ → α :=
  if i < k then
    if r (a i) x then place k a x (i + 1) else Function.update (shiftUp a i (k - 1)) i x
  else a
  termination_by k - i

/-- A new value. -/
def keep (k : ℕ) (a : ℕ → α) (x : α) : ℕ → α := if r (a (k - 1)) x then a else place r k a x 0

theorem cells_length (a : ℕ → α) (k : ℕ) : (cells a k).length = k := by simp [cells]

theorem cells_add (a : ℕ → α) (m n : ℕ) :
    cells a (m + n) = cells a m ++ (List.range n).map fun i => a (m + i) := by
  unfold cells
  rw [List.range_add, List.map_append, List.map_map]
  rfl

theorem cells_succ (a : ℕ → α) (k : ℕ) : cells a (k + 1) = cells a k ++ [a k] := by
  rw [cells_add]
  rfl

theorem cells_const (x : α) (k : ℕ) : cells (fun _ => x) k = List.replicate k x := by
  unfold cells
  rw [List.map_const', List.length_range]

theorem shiftUp_apply {a : ℕ → α} {i j : ℕ} (h : i ≤ j) (n : ℕ) :
    shiftUp a i j n = if i < n ∧ n ≤ j then a (n - 1) else a n := by
  induction j generalizing a with
  | zero =>
    rw [if_neg (by omega)]
    rfl
  | succ j ih =>
    unfold shiftUp
    by_cases hlast : j + 1 = i
    · rw [if_pos hlast, if_neg (by omega)]
    · rw [if_neg hlast, ih (by omega)]
      by_cases htop : n = j + 1
      · rw [if_neg (by omega), if_pos (by omega), htop, Function.update_self]
        rfl
      · rw [Function.update_of_ne htop]
        by_cases hn : i < n ∧ n ≤ j
        · rw [if_pos hn, if_pos (by omega), Function.update_of_ne (by omega)]
        · rw [if_neg hn, if_neg (by omega)]

/-- Where `x` goes, everything before it stays, and everything behind it moves up. -/
theorem place_apply {k : ℕ} {a : ℕ → α} {x : α} {i : ℕ} (hi : i < k) (hlast : ¬r (a (k - 1)) x)
    (hbefore : ∀ n < i, r (a n) x) : ∃ m < k, (∀ n < m, r (a n) x) ∧ ¬r (a m) x ∧
      ∀ n < k, place r k a x i n = if n < m then a n else if n = m then x else a (n - 1) := by
  rw [place, if_pos hi]
  by_cases h : r (a i) x
  · rw [if_pos h]
    have hnext : i + 1 < k := by
      by_contra hend
      obtain rfl : i = k - 1 := by omega
      exact hlast h
    apply place_apply hnext hlast
    intro n hn
    rcases Nat.lt_succ_iff_lt_or_eq.mp hn with hn | rfl
    · exact hbefore n hn
    · exact h
  · rw [if_neg h]
    refine ⟨i, hi, hbefore, h, fun n hn => ?_⟩
    by_cases heq : n = i
    · rw [heq, Function.update_self, if_neg (lt_irrefl i), if_pos rfl]
    · rw [Function.update_of_ne heq, shiftUp_apply (by omega)]
      by_cases hlt : n < i
      · rw [if_pos hlt, if_neg (by omega)]
      · rw [if_neg hlt, if_neg heq, if_pos (by omega)]
  termination_by k - i

/-- A value that comes before the last cell is put between those before it and those behind, of
which the last one goes. -/
theorem keep_cells {k : ℕ} {a : ℕ → α} {x : α} (hlast : ¬r (a k) x) :
    ∃ before after, cells a (k + 1) = before ++ after ++ [a k] ∧
      cells (keep r (k + 1) a x) (k + 1) = before ++ x :: after ∧
      (∀ b ∈ before, r b x) ∧ ∃ b rest, after ++ [a k] = b :: rest ∧ ¬r b x := by
  obtain ⟨m, hm, hbefore, hplace, happly⟩ :=
    place_apply r (Nat.succ_pos k) (a := a) hlast (fun n hn => absurd hn (by omega))
  obtain ⟨q, rfl⟩ := Nat.exists_eq_add_of_le (Nat.le_of_lt_succ hm)
  obtain ⟨kept, hkept⟩ : ∃ kept, kept = keep r (m + q + 1) a x := ⟨_, rfl⟩
  have hcell : ∀ n < m + q + 1, kept n = if n < m then a n else if n = m then x else a (n - 1) := by
    intro n hn
    rw [hkept]
    unfold keep
    rw [if_neg (by exact hlast)]
    exact happly n hn
  have hsplit : cells a (m + q + 1) = cells a m ++ ((List.range q).map fun i => a (m + i)) ++
      [a (m + q)] := by
    rw [cells_succ, cells_add]
  refine ⟨cells a m, (List.range q).map fun i => a (m + i), hsplit, ?_, ?_, ?_⟩
  · rw [← hkept, Nat.add_right_comm, cells_add, cells_succ, List.append_assoc,
      List.singleton_append]
    congr 1
    · apply List.map_congr_left
      intro n hn
      have hlt := List.mem_range.mp hn
      rw [hcell n (by omega), if_pos hlt]
    · congr 1
      · rw [hcell m (by omega), if_neg (lt_irrefl m), if_pos rfl]
      · apply List.map_congr_left
        intro n hn
        have hlt := List.mem_range.mp hn
        rw [hcell _ (by omega), if_neg (by omega), if_neg (by omega)]
        congr 1
        omega
  · intro b hb
    obtain ⟨n, hn, rfl⟩ := List.mem_map.mp hb
    exact hbefore n (List.mem_range.mp hn)
  · -- behind them comes the cell that was there
    have hrange : ((List.range q).map fun i => a (m + i)) ++ [a (m + q)] =
        (List.range (q + 1)).map fun i => a (m + i) := by
      rw [List.range_succ, List.map_append]
      rfl
    rw [hrange, List.range_succ_eq_map]
    exact ⟨a m, _, rfl, hplace⟩

/-- What the buffer knows of the values `l`: its cells are sorted, and come before the rest of the
values. -/
structure Keeps (k : ℕ) (pad : α) (a : ℕ → α) (l : List α) : Prop where
  sorted : (cells a k).Pairwise r
  rest : ∃ rest, (cells a k ++ rest).Perm (l ++ List.replicate k pad) ∧
    ∀ c ∈ cells a k, ∀ d ∈ rest, r c d

variable {r} {k : ℕ} {pad : α} {a : ℕ → α} {l : List α} [Std.Total r] [IsTrans α r]

omit [DecidableRel r] [IsTrans α r] in
theorem Keeps.start (k : ℕ) (pad : α) : Keeps r k pad (fun _ => pad) [] := by
  constructor
  · rw [cells_const]
    exact List.pairwise_replicate.mpr (Or.inr (Std.Refl.refl pad))
  · refine ⟨[], ?_, fun c _ d hd => by cases hd⟩
    rw [cells_const, List.append_nil, List.nil_append]

theorem Keeps.keep (h : Keeps r (k + 1) pad a l) (x : α) :
    Keeps r (k + 1) pad (keep r (k + 1) a x) (l ++ [x]) := by
  obtain ⟨hsorted, rest, hperm, hrest⟩ := h
  have hvalues :
      (x :: (cells a (k + 1) ++ rest)).Perm (l ++ [x] ++ List.replicate (k + 1) pad) := by
    rw [List.append_assoc, List.singleton_append]
    exact (hperm.cons x).trans List.perm_middle.symm
  by_cases hlast : r (a k) x
  · -- it comes behind the last cell, and so behind all
    have hsame : Extremes.keep r (k + 1) a x = a := if_pos hlast
    rw [hsame]
    refine ⟨hsorted, x :: rest, List.perm_middle.trans hvalues, fun c hc d hd => ?_⟩
    rcases List.mem_cons.mp hd with rfl | hd
    · rw [cells_succ] at hc hsorted
      rcases List.mem_append.mp hc with hc | hc
      · exact IsTrans.trans _ _ _
          ((List.pairwise_append.mp hsorted).2.2 c hc (a k) (List.mem_singleton_self _)) hlast
      · rw [List.mem_singleton.mp hc]
        exact hlast
    · exact hrest c hc d hd
  · obtain ⟨before, after, hcells, hkeep, hbefore, b, tail, htail, hb⟩ := keep_cells r hlast
    rw [hcells] at hsorted hperm hrest hvalues
    rw [List.append_assoc, List.pairwise_append] at hsorted
    obtain ⟨hsortedBefore, hsortedAfter, hcross⟩ := hsorted
    have hafter : ∀ c ∈ after ++ [a k], r x c := by
      have hxb : r x b := (Std.Total.total b x).resolve_left hb
      intro c hc
      rw [htail] at hc hsortedAfter
      rcases List.mem_cons.mp hc with rfl | hc
      · exact hxb
      · exact IsTrans.trans _ _ _ hxb ((List.pairwise_cons.mp hsortedAfter).1 c hc)
    obtain ⟨hsortedAfter, -, hend⟩ := List.pairwise_append.mp hsortedAfter
    constructor
    · rw [hkeep, List.pairwise_append, List.pairwise_cons]
      refine ⟨hsortedBefore, ⟨fun c hc => hafter c (List.mem_append_left _ hc), hsortedAfter⟩,
        fun c hc d hd => ?_⟩
      rcases List.mem_cons.mp hd with rfl | hd
      · exact hbefore c hc
      · exact hcross c hc d (List.mem_append_left _ hd)
    · refine ⟨a k :: rest, ?_, fun c hc d hd => ?_⟩
      · rw [hkeep]
        refine List.Perm.trans ?_ hvalues
        have hleft : before ++ x :: after ++ a k :: rest = before ++
            x :: (after ++ a k :: rest) := by simp
        have hright : before ++ after ++ [a k] ++ rest = before ++ (after ++ a k :: rest) := by simp
        rw [hleft, hright]
        exact List.perm_middle
      · have hend' : r c (a k) := by
          rw [hkeep] at hc
          rcases List.mem_append.mp hc with hc | hc
          · exact hcross c hc (a k) (List.mem_append_right _ (List.mem_singleton_self _))
          · rcases List.mem_cons.mp hc with rfl | hc
            · exact hafter _ (List.mem_append_right _ (List.mem_singleton_self _))
            · exact hend c hc (a k) (List.mem_singleton_self _)
        rcases List.mem_cons.mp hd with rfl | hd
        · exact hend'
        · exact IsTrans.trans _ _ _ hend'
            (hrest (a k) (List.mem_append_right _ (List.mem_singleton_self _)) d hd)

/-- The cells are the beginning of the sorted values, filled up with `pad`. -/
theorem Keeps.cells_eq [Std.Antisymm r] (h : Keeps r k pad a l) (hpad : ∀ b ∈ l, r b pad) :
    cells a k = (l.insertionSort r ++ List.replicate k pad).take k := by
  obtain ⟨hsorted, rest, hperm, hrest⟩ := h
  have hleft : (cells a k ++ rest.insertionSort r).Pairwise r := by
    rw [List.pairwise_append]
    exact ⟨hsorted, List.pairwise_insertionSort r rest,
      fun c hc d hd => hrest c hc d ((List.mem_insertionSort r).mp hd)⟩
  have hright : (l.insertionSort r ++ List.replicate k pad).Pairwise r := by
    rw [List.pairwise_append]
    refine ⟨List.pairwise_insertionSort r l,
      List.pairwise_replicate.mpr (Or.inr (Std.Refl.refl pad)), fun b hb d hd => ?_⟩
    rw [List.eq_of_mem_replicate hd]
    exact hpad b ((List.mem_insertionSort r).mp hb)
  have hsame :
      (cells a k ++ rest.insertionSort r).Perm (l.insertionSort r ++ List.replicate k pad) :=
    calc
      (cells a k ++ rest.insertionSort r).Perm (cells a k ++ rest) :=
        (List.perm_insertionSort r rest).append_left _
      List.Perm _ (l ++ List.replicate k pad) := hperm
      List.Perm _ (l.insertionSort r ++ List.replicate k pad) :=
        (List.perm_insertionSort r l).symm.append_right _
  rw [← hsame.eq_of_pairwise' hleft hright]
  exact (List.take_left' (cells_length a k)).symm

end Extremes
