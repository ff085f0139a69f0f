/-
# Lists that are kept by cell

A collection is held twice: as the list of its members, and cell by cell for those who look for what
is near. `Cells` says that the two agree and that neither holds anything twice; the lemmas are what
insertion, removal, a move from one cell into another and a reordering do.
-/
import Mathlib.Tactic

/-- `cells c` holds the `members` that are located in `c`. -/
structure Cells {α κ : Type*} (members : List α) (cells : κ → List α) (loc : α → κ) : Prop where
  nodup : members.Nodup
  mem : ∀ c a, a ∈ cells c ↔ a ∈ members ∧ loc a = c
  cells_nodup : ∀ c, (cells c).Nodup

namespace Cells

variable {α κ : Type*} {members : List α} {cells : κ → List α} {loc loc' : α → κ}

theorem nil : Cells ([] : List α) (fun _ : κ => []) loc := ⟨.nil, by simp, fun _ => .nil⟩

theorem congr (h : Cells members cells loc) (hloc : ∀ a ∈ members, loc' a = loc a) :
    Cells members cells loc' := by
  refine ⟨h.nodup, fun c a => ?_, h.cells_nodup⟩
  rw [h.mem]
  constructor
  · rintro ⟨ha, hc⟩
    exact ⟨ha, (hloc a ha).trans hc⟩
  · rintro ⟨ha, hc⟩
    exact ⟨ha, (hloc a ha).symm.trans hc⟩

theorem perm {members' : List α} {cells' : κ → List α} (h : Cells members cells loc)
    (hm : members'.Perm members) (hc : ∀ c, (cells' c).Perm (cells c)) :
    Cells members' cells' loc := by
  refine ⟨hm.nodup_iff.mpr h.nodup, fun c a => ?_, fun c => (hc c).nodup_iff.mpr (h.cells_nodup c)⟩
  rw [(hc c).mem_iff, hm.mem_iff]
  exact h.mem c a

theorem self_mem (h : Cells members cells loc) {a : α} (ha : a ∈ members) : a ∈ cells (loc a) :=
  (h.mem _ a).mpr ⟨ha, rfl⟩

/-! ### What is near -/

theorem mem_near (h : Cells members cells loc) {near : List κ} {a : α} :
    a ∈ near.flatMap cells ↔ a ∈ members ∧ loc a ∈ near := by
  rw [List.mem_flatMap]
  constructor
  · rintro ⟨c, hc, ha⟩
    obtain ⟨hm, rfl⟩ := (h.mem c a).mp ha
    exact ⟨hm, hc⟩
  · rintro ⟨ha, hc⟩
    exact ⟨_, hc, h.self_mem ha⟩

theorem near_nodup (h : Cells members cells loc) {near : List κ} (hnd : near.Nodup) :
    (near.flatMap cells).Nodup := by
  rw [List.nodup_flatMap]
  refine ⟨fun c _ => h.cells_nodup c, ?_⟩
  apply hnd.imp
  intro c c' hne a ha ha'
  have h1 := ((h.mem c a).mp ha).2
  have h2 := ((h.mem c' a).mp ha').2
  exact hne (h1.symm.trans h2)

/-! ### Changes -/

theorem mem_erase [DecidableEq α] (h : Cells members cells loc) {a b : α} :
    b ∈ members.erase a ↔ b ≠ a ∧ b ∈ members := h.nodup.mem_erase_iff

variable [DecidableEq κ]

theorem insert (h : Cells members cells loc) {a : α} (ha : a ∉ members)
    (hloc : ∀ b ∈ members, loc' b = loc b) :
    Cells (a :: members) (Function.update cells (loc' a) (a :: cells (loc' a))) loc' := by
  have hcell : ∀ c, a ∉ cells c := fun c hc => ha ((h.mem c a).mp hc).1
  refine ⟨h.nodup.cons ha, fun c b => ?_, fun c => ?_⟩
  · rw [List.mem_cons, Function.update_apply]
    have hold := (h.congr hloc).mem c b
    split_ifs with hc
    · subst hc
      rw [List.mem_cons, hold]
      constructor
      · rintro (rfl | ⟨hb, hc⟩)
        · exact ⟨Or.inl rfl, rfl⟩
        · exact ⟨Or.inr hb, hc⟩
      · rintro ⟨rfl | hb, hc⟩
        · exact Or.inl rfl
        · exact Or.inr ⟨hb, hc⟩
    · rw [hold]
      constructor
      · rintro ⟨hb, hc'⟩
        exact ⟨Or.inr hb, hc'⟩
      · rintro ⟨rfl | hb, hc'⟩
        · exact absurd hc'.symm hc
        · exact ⟨hb, hc'⟩
  · rw [Function.update_apply]
    split_ifs
    · exact (h.cells_nodup _).cons (hcell _)
    · exact h.cells_nodup c

variable [DecidableEq α]

theorem erase (h : Cells members cells loc) (a : α) :
    Cells (members.erase a) (Function.update cells (loc a) ((cells (loc a)).erase a)) loc := by
  refine ⟨h.nodup.erase a, fun c b => ?_, fun c => ?_⟩
  · rw [h.mem_erase, Function.update_apply]
    split_ifs with hc
    · subst hc
      rw [(h.cells_nodup _).mem_erase_iff, h.mem, and_assoc]
    · rw [h.mem]
      constructor
      · rintro ⟨hb, hc'⟩
        refine ⟨⟨?_, hb⟩, hc'⟩
        rintro rfl
        exact hc hc'.symm
      · rintro ⟨⟨-, hb⟩, hc'⟩
        exact ⟨hb, hc'⟩
  · rw [Function.update_apply]
    split_ifs
    · exact (h.cells_nodup _).erase a
    · exact h.cells_nodup c

/-- `a` is taken from its cell and put into the cell where `loc'` has it. -/
theorem move (h : Cells members cells loc) {a : α} (ha : a ∈ members)
    (hloc : ∀ b ∈ members, b ≠ a → loc' b = loc b) :
    Cells members (Function.update (Function.update cells (loc a) ((cells (loc a)).erase a))
      (loc' a) (a :: Function.update cells (loc a) ((cells (loc a)).erase a) (loc' a))) loc' := by
  have hnot : a ∉ members.erase a := fun hm => (h.mem_erase.mp hm).1 rfl
  have hkeep : ∀ b ∈ members.erase a, loc' b = loc b :=
    fun b hb => hloc b (h.mem_erase.mp hb).2 (h.mem_erase.mp hb).1
  have hmove := (h.erase a).insert hnot hkeep
  refine ⟨h.nodup, fun c b => ?_, hmove.cells_nodup⟩
  rw [hmove.mem, List.mem_cons, h.mem_erase]
  constructor
  · rintro ⟨rfl | ⟨-, hb⟩, hc⟩
    · exact ⟨ha, hc⟩
    · exact ⟨hb, hc⟩
  · rintro ⟨hb, hc⟩
    by_cases hba : b = a
    · exact ⟨Or.inl hba, hc⟩
    · exact ⟨Or.inr ⟨hba, hb⟩, hc⟩

end Cells
