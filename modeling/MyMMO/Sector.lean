/-
# Sectors

The world is a grid of `SECTOR_COL_CNT` by `SECTOR_ROW_CNT` sectors.
`nearSectorInitalization` caches for every sector the block of at most nine
around it, and `calcDespawnAndSpawnSector` takes out of the blocks around two
sectors what they share.
-/
import MyMMO.Common

namespace MyMMO

/-- `map::Sector`. -/
@[ext] structure Sector where
  x : ℤ
  y : ℤ
  deriving DecidableEq, Repr

def SECTOR_COL_CNT : ℤ := 20
def SECTOR_ROW_CNT : ℤ := 20

namespace Sector

/-- A sector that is in `mAroundSectorCache`. -/
def InGrid (c : Sector) : Prop := 0 ≤ c.x ∧ c.x < SECTOR_COL_CNT ∧ 0 ≤ c.y ∧ c.y < SECTOR_ROW_CNT

instance (c : Sector) : Decidable c.InGrid := inferInstanceAs (Decidable (_ ∧ _))

/-- The offsets `dx` and `dy` of `nearSectorInitalization`. -/
def offsets : List (ℤ × ℤ) :=
  [(-1, -1), (-1, 0), (-1, 1), (0, -1), (0, 0), (0, 1), (1, -1), (1, 0), (1, 1)]

/-- The entry of `mAroundSectorCache` for `center`. -/
def around (center : Sector) : List Sector :=
  (offsets.map fun d => ⟨center.x + d.1, center.y + d.2⟩).filter fun c => c.InGrid

def getAroundSectors (center : Sector) : Except Stop (List Sector) := do
  myAssert center.InGrid "캐싱된 주변 섹터를 찾지못함."
  return center.around

theorem getAroundSectors_ok {center : Sector} (h : center.InGrid) :
    getAroundSectors center = .ok center.around := by
  unfold getAroundSectors
  rw [myAssert_true (decide_eq_true h)]
  rfl

theorem getAroundSectors_eq {center : Sector} {nearSector : List Sector}
    (h : getAroundSectors center = .ok nearSector) :
    center.InGrid ∧ nearSector = center.around := by
  unfold getAroundSectors at h
  by_cases hc : center.InGrid
  · rw [myAssert_true (decide_eq_true hc)] at h
    cases h
    exact ⟨hc, rfl⟩
  · rw [myAssert, if_neg (by simpa using hc)] at h
    cases h

theorem mem_around {c center : Sector} :
    c ∈ center.around ↔ c.InGrid ∧ |c.x - center.x| ≤ 1 ∧ |c.y - center.y| ≤ 1 := by
  obtain ⟨x, y⟩ := c
  obtain ⟨x', y'⟩ := center
  simp only [around, offsets, List.mem_filter, List.mem_map, List.mem_cons, List.not_mem_nil,
    or_false, decide_eq_true_eq, abs_le]
  constructor
  · rintro ⟨⟨d, hd, he⟩, hin⟩
    simp only [Sector.mk.injEq] at he
    refine ⟨hin, ?_⟩
    rcases hd with rfl | rfl | rfl | rfl | rfl | rfl | rfl | rfl | rfl <;> omega
  · rintro ⟨hin, ⟨h1, h2⟩, h3, h4⟩
    refine ⟨⟨(x - x', y - y'), ?_, by simp⟩, hin⟩
    simp only [Prod.mk.injEq]
    omega

/-- Two sectors of the grid are around each other. -/
theorem mem_around_comm {c c' : Sector} (h : c.InGrid) (h' : c'.InGrid) : c ∈ c'.around ↔
    c' ∈ c.around := by
  rw [mem_around, mem_around, abs_sub_comm c.x, abs_sub_comm c.y]
  simp [h, h']

theorem around_nodup (c : Sector) : c.around.Nodup := by
  unfold around
  apply List.Nodup.filter
  apply List.Nodup.map _ (by decide)
  intro d d' he
  simp only [Sector.mk.injEq] at he
  exact Prod.ext (by omega) (by omega)

/-- What is left of one block beside another. -/
theorem around_diff_nodup (c c' : Sector) : (c.around.diff c'.around).Nodup := c.around_nodup.diff

theorem mem_around_diff {c c' c'' : Sector} :
    c'' ∈ c.around.diff c'.around ↔ c'' ∈ c.around ∧ c'' ∉ c'.around := c.around_nodup.mem_sdiff_iff

end Sector

section

variable {α : Type*} [DecidableEq α]

/-- The loops of `calcDespawnAndSpawnSector` and `calcMonsterDespawnAndSpawnSector`:
what both lists have is erased from both. -/
def calcDespawnAndSpawn : List α → List α → List α × List α
  | [], despawnSector => ([], despawnSector)
  | current :: spawnSector, despawnSector =>
    if current ∈ despawnSector then calcDespawnAndSpawn spawnSector (despawnSector.erase current)
    else
      let (spawnSector, despawnSector) := calcDespawnAndSpawn spawnSector despawnSector
      (current :: spawnSector, despawnSector)

/-- The loops leave the two differences. -/
theorem calcDespawnAndSpawn_eq (as bs : List α) :
    calcDespawnAndSpawn as bs = (as.diff bs, bs.diff as) := by
  induction as generalizing bs with
  | nil =>
    unfold calcDespawnAndSpawn
    rw [List.nil_diff, List.diff_nil]
  | cons a as ih =>
    unfold calcDespawnAndSpawn
    rw [List.diff_cons]
    split_ifs with h
    · rw [ih, List.cons_diff_of_mem h]
    · rw [ih, List.cons_diff_of_not_mem h, List.erase_of_not_mem h]

end

end MyMMO
