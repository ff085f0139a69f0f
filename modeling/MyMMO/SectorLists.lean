/-
# The sectors that come into view and go out of it

`calcDespawnAndSpawnSector` and `calcMonsterDespawnAndSpawnSector` erase from two vectors while they
go through them: for every sector of `spawnSector` an inner loop looks for it in `despawnSector`,
and what is found is erased from both. Here the loops run on positions, as the iterators do; what
they leave is what the recursion of `calcDespawnAndSpawn` leaves (`spawnLoop_eq`), the differences
of the two lists (`lists_differ`).
-/
import MyMMO.Field
import Mathlib.Data.Multiset.AddSub

namespace MyMMO

section

variable {α : Type*} [DecidableEq α]

/-- The inner loop, with `destIter` at a position of `despawnSector`; `true` is `bErase`. -/
def despawnLoop (currentSector : α) (despawnSector : List α) (destIter : ℕ) : Bool × List α :=
  if h : destIter < despawnSector.length then
    if currentSector = despawnSector[destIter] then (true, despawnSector.eraseIdx destIter)
    else despawnLoop currentSector despawnSector (destIter + 1)
  else (false, despawnSector)
  termination_by despawnSector.length - destIter

/-- The outer loop, with `currentIter` at a position of `spawnSector`. -/
def spawnLoop (spawnSector despawnSector : List α) (currentIter : ℕ) : List α × List α :=
  if h : currentIter < spawnSector.length then
    let (bErase, despawnSector) := despawnLoop spawnSector[currentIter] despawnSector 0
    if bErase then spawnLoop (spawnSector.eraseIdx currentIter) despawnSector currentIter
    else spawnLoop spawnSector despawnSector (currentIter + 1)
  else (spawnSector, despawnSector)
  termination_by spawnSector.length - currentIter
  decreasing_by
    · rw [List.length_eraseIdx_of_lt h]
      omega
    · omega

/-- Behind what it has passed, the inner loop erases the first that is equal. -/
theorem despawnLoop_append {current : α} (passed rest : List α) (h : current ∉ passed) :
    despawnLoop current (passed ++ rest) passed.length =
      (decide (current ∈ rest), passed ++ rest.erase current) := by
  induction rest generalizing passed with
  | nil =>
    rw [despawnLoop, dif_neg (by simp)]
    simp
  | cons b rest ih =>
    rw [despawnLoop, dif_pos (by simp)]
    rw [List.getElem_append_right le_rfl]
    simp only [Nat.sub_self, List.getElem_cons_zero]
    by_cases hb : current = b
    · subst hb
      rw [if_pos rfl, List.eraseIdx_append_of_length_le le_rfl]
      simp
    · rw [if_neg hb]
      have hpassed : current ∉ passed ++ [b] := by
        rw [List.mem_append, List.mem_singleton]
        exact not_or.mpr ⟨h, hb⟩
      have hnext := ih (passed ++ [b]) hpassed
      rw [List.length_append, List.length_singleton, List.append_assoc,
        List.singleton_append] at hnext
      rw [hnext, List.append_assoc, List.singleton_append,
        List.erase_cons_tail (by simpa using Ne.symm hb)]
      simp [hb]

theorem despawnLoop_eq (current : α) (despawnSector : List α) :
    despawnLoop current despawnSector 0 =
      (decide (current ∈ despawnSector), despawnSector.erase current) := by
  have h := @despawnLoop_append _ _ current [] despawnSector List.not_mem_nil
  simpa using h

/-- Behind what it has kept, the outer loop does what the recursion does. -/
theorem spawnLoop_append (kept spawnSector despawnSector : List α) :
    spawnLoop (kept ++ spawnSector) despawnSector kept.length =
      (kept ++ (calcDespawnAndSpawn spawnSector despawnSector).1,
        (calcDespawnAndSpawn spawnSector despawnSector).2) := by
  induction spawnSector generalizing kept despawnSector with
  | nil =>
    rw [spawnLoop, dif_neg (by simp)]
    simp [calcDespawnAndSpawn]
  | cons current spawnSector ih =>
    rw [spawnLoop, dif_pos (by simp)]
    rw [List.getElem_append_right le_rfl]
    simp only [Nat.sub_self, List.getElem_cons_zero]
    rw [despawnLoop_eq]
    unfold calcDespawnAndSpawn
    by_cases h : current ∈ despawnSector
    · rw [if_pos h, if_pos (decide_eq_true h), List.eraseIdx_append_of_length_le le_rfl,
        Nat.sub_self]
      exact ih kept _
    · rw [if_neg h, if_neg (by simpa using h), List.erase_of_not_mem h]
      have hnext := ih (kept ++ [current]) despawnSector
      rw [List.length_append, List.length_singleton, List.append_assoc,
        List.singleton_append] at hnext
      rw [hnext, List.append_assoc, List.singleton_append]

/-- The loops leave what the recursion leaves. -/
theorem spawnLoop_eq (spawnSector despawnSector : List α) :
    spawnLoop spawnSector despawnSector 0 = calcDespawnAndSpawn spawnSector despawnSector :=
  spawnLoop_append [] spawnSector despawnSector

/-- The loops of both functions, from `spawnSector.begin()` on, leave the two differences as
multisets, each in its order; of lists without duplicates, every sector is in one of them or in both
lists. -/
theorem lists_differ (around current : List α) :
    let (spawnSector, despawnSector) := spawnLoop around current 0
    (spawnSector : Multiset α) = (around : Multiset α) - (current : Multiset α) ∧
      spawnSector.Sublist around ∧
      (despawnSector : Multiset α) = (current : Multiset α) - (around : Multiset α) ∧
        despawnSector.Sublist current ∧
      (around.Nodup → current.Nodup → spawnSector.Disjoint despawnSector ∧
        ∀ c, c ∈ around ∨ c ∈ current →
          c ∈ spawnSector ∧ c ∉ despawnSector ∧ ¬(c ∈ around ∧ c ∈ current) ∨
          c ∉ spawnSector ∧ c ∈ despawnSector ∧ ¬(c ∈ around ∧ c ∈ current) ∨
          c ∉ spawnSector ∧ c ∉ despawnSector ∧ c ∈ around ∧ c ∈ current) := by
  rw [spawnLoop_eq, calcDespawnAndSpawn_eq]
  refine ⟨(Multiset.coe_sub _ _).symm, List.diff_sublist _ _, (Multiset.coe_sub _ _).symm,
    List.diff_sublist _ _, fun haround hcurrent => ⟨fun c hspawn hdespawn => ?_, fun c hc => ?_⟩⟩
  · exact (hcurrent.mem_sdiff_iff.mp hdespawn).2 (haround.mem_sdiff_iff.mp hspawn).1
  · rw [haround.mem_sdiff_iff, hcurrent.mem_sdiff_iff]
    tauto

end

/-- Both functions run the loops on the sectors around the two. -/
theorem calcDespawnAndSpawnSector_loops (dest current : Sector) :
    Field.calcDespawnAndSpawnSector dest current = do
    let spawnSector ← dest.getAroundSectors
    let despawnSector ← current.getAroundSectors
    return spawnLoop spawnSector despawnSector 0 := by
  unfold Field.calcDespawnAndSpawnSector
  simp only [spawnLoop_eq]

theorem calcMonsterDespawnAndSpawnSector_loops (dest current : Sector) :
    Field.calcMonsterDespawnAndSpawnSector dest current = do
    let spawnSector ← dest.getAroundSectors
    let despawnSector ← current.getAroundSectors
    return spawnLoop spawnSector despawnSector 0 := by
  unfold Field.calcMonsterDespawnAndSpawnSector
  simp only [spawnLoop_eq]

/-- Two rows that share two sectors. -/
theorem lists_differ_rows :
    (spawnLoop [1, 2, 3] [2, 3, 4] 0).1.Disjoint (spawnLoop [1, 2, 3] [2, 3, 4] 0).2 :=
  ((lists_differ [1, 2, 3] [2, 3, 4]).2.2.2.2 (by decide) (by decide)).1

end MyMMO
