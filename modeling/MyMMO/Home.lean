/-
# A returning monster gets home

`returnUpdate` walks in legs of 14 steps of 3 and turns to the spawn position between them. The best
of the eight directions is off by a quarter of a right angle at most, so that a leg from further off
than 25 takes at least 167 from the square of the distance, and a leg from nearer passes the spawn
position within 10 (`monster_home`).
-/
import MyMMO.World
import MyMMO.Lib.Outcome

namespace MyMMO
namespace Field

open Machine Outcome

/-! ### The direction -/

/-- The scalar product with the vector of a direction. -/
noncomputable def along (dx dy : ℝ) (direction : ℤ) : ℝ :=
  dx * (directionVector (F := ℝ) direction).1 + dy * (directionVector (F := ℝ) direction).2

theorem bestDirection_max (dx dy : ℝ) (is : List ℤ) (bestDot : ℝ) (best : ℤ)
    (h : bestDot ≤ along dx dy best) :
    bestDot ≤ along dx dy (bestDirection dx dy is bestDot best) ∧
      (∀ i ∈ is, along dx dy i ≤ along dx dy (bestDirection dx dy is bestDot best)) ∧
      (bestDirection dx dy is bestDot best = best ∨ bestDirection dx dy is bestDot best ∈ is) := by
  induction is generalizing bestDot best with
  | nil => exact ⟨h, by simp, .inl rfl⟩
  | cons i is ih =>
    have hdot : ∀ x : ℝ, lt bestDot (along dx dy i) = true ↔ bestDot < along dx dy i :=
      fun _ => lt_real
    have hcons : bestDirection dx dy (i :: is) bestDot best =
        if bestDot < along dx dy i then bestDirection dx dy is (along dx dy i) i
        else bestDirection dx dy is bestDot best := by
      rw [← if_congr (hdot 0) rfl rfl]
      rfl
    rw [hcons]
    split_ifs with hlt
    · obtain ⟨hle, hall, hmem⟩ := ih (along dx dy i) i le_rfl
      refine ⟨hlt.le.trans hle, ?_, .inr ?_⟩
      · intro j hj
        rcases List.mem_cons.mp hj with rfl | hj
        · exact hle
        · exact hall j hj
      · rcases hmem with he | hmem
        · rw [he]
          exact List.mem_cons_self
        · exact List.mem_cons_of_mem _ hmem
    · obtain ⟨hle, hall, hmem⟩ := ih bestDot best h
      refine ⟨hle, ?_, hmem.imp_right (List.mem_cons_of_mem _)⟩
      intro j hj
      rcases List.mem_cons.mp hj with rfl | hj
      · exact (not_lt.mp hlt).trans hle
      · exact hall j hj

/-- The directions of the table. -/
abbrev directions : List ℤ := [0, 1, 2, 3, 4, 5, 6, 7]

theorem directionVector_table {F : Type} [Machine F] : directionVector (F := F) 0 = (lit 0, lit 1) ∧
    directionVector (F := F) 1 = (lit (-0.707107), lit 0.707107) ∧
    directionVector (F := F) 2 = (lit 0.707107, lit 0.707107) ∧ directionVector (F := F) 3 =
        (lit (-1), lit 0) ∧
    directionVector (F := F) 4 = (lit 1, lit 0) ∧ directionVector (F := F) 5 = (lit 0, lit (-1)) ∧
    directionVector (F := F) 6 = (lit (-0.707107), lit (-0.707107)) ∧
    directionVector (F := F) 7 = (lit 0.707107, lit (-0.707107)) :=
  ⟨rfl, rfl, rfl, rfl, rfl, rfl, rfl, rfl⟩

theorem along_real (dx dy : ℝ) : along dx dy 0 = dy ∧ along dx dy 1 = 0.707107 * (dy - dx) ∧
    along dx dy 2 = 0.707107 * (dx + dy) ∧ along dx dy 3 = -dx ∧ along dx dy 4 = dx ∧
      along dx dy 5 = -dy ∧
    along dx dy 6 = -0.707107 * (dx + dy) ∧ along dx dy 7 = 0.707107 * (dx - dy) := by
  obtain ⟨h0, h1, h2, h3, h4, h5, h6, h7⟩ := directionVector_table (F := ℝ)
  unfold along
  rw [h0, h1, h2, h3, h4, h5, h6, h7]
  simp only [lit]
  push_cast
  refine ⟨by ring, by ring, by ring, by ring, by ring, by ring, by ring, by ring⟩

theorem vector_sq {i : ℤ} (h : i ∈ directions) :
    (directionVector (F := ℝ) i).1 ^ 2 + (directionVector (F := ℝ) i).2 ^ 2 ≤ 1.000001 := by
  obtain ⟨h0, h1, h2, h3, h4, h5, h6, h7⟩ := directionVector_table (F := ℝ)
  unfold directions at h
  simp only [List.mem_cons, List.not_mem_nil, or_false] at h
  rcases h with rfl | rfl | rfl | rfl | rfl | rfl | rfl | rfl
  all_goals
    simp only [h0, h1, h2, h3, h4, h5, h6, h7, lit]
    norm_num

/-- Two numbers that are not large have a large sum. -/
theorem large_sum {a b : ℝ} (ha : 0 ≤ a) (hb : 0 ≤ b) (h : a ^ 2 + b ^ 2 = 1) (ha' : a < 0.92)
    (hb' : b < 0.92) :
    0.92 ≤ 0.707107 * (a + b) := by
  have hone : 1 ≤ a + b := by nlinarith [mul_nonneg ha hb]
  have hroot : 0 ≤ (a + b) ^ 2 - 1.84 * (a + b) + 0.6928 := by
    nlinarith [mul_nonneg (sub_nonneg.mpr ha'.le) (sub_nonneg.mpr hb'.le)]
  by_contra hlt
  have hsmall : a + b < 1.3011 := by linarith
  nlinarith

/-- One of the eight directions is close to every direction. -/
theorem exists_along {a b : ℝ} (h : a ^ 2 + b ^ 2 = 1) : ∃ i ∈ directions, 0.92 ≤ along a b i := by
  obtain ⟨h0, h1, h2, h3, h4, h5, h6, h7⟩ := along_real a b
  by_cases ha : 0.92 ≤ |a|
  · rcases le_abs.mp ha with ha | ha
    · exact ⟨4, by simp, by rwa [h4]⟩
    · exact ⟨3, by simp, by rwa [h3]⟩
  by_cases hb : 0.92 ≤ |b|
  · rcases le_abs.mp hb with hb | hb
    · exact ⟨0, by simp, by rwa [h0]⟩
    · exact ⟨5, by simp, by rwa [h5]⟩
  have hsum : 0.92 ≤ 0.707107 * (|a| + |b|) :=
    large_sum (abs_nonneg a) (abs_nonneg b) (by rwa [sq_abs, sq_abs]) (not_le.mp ha) (not_le.mp hb)
  rcases le_total 0 a with ha₀ | ha₀
  · rw [abs_of_nonneg ha₀] at hsum
    rcases le_total 0 b with hb₀ | hb₀
    · rw [abs_of_nonneg hb₀] at hsum
      exact ⟨2, by simp, by rw [h2]; linarith⟩
    · rw [abs_of_nonpos hb₀] at hsum
      exact ⟨7, by simp, by rw [h7]; linarith⟩
  · rw [abs_of_nonpos ha₀] at hsum
    rcases le_total 0 b with hb₀ | hb₀
    · rw [abs_of_nonneg hb₀] at hsum
      exact ⟨1, by simp, by rw [h1]; linarith⟩
    · rw [abs_of_nonpos hb₀] at hsum
      exact ⟨6, by simp, by rw [h6]; linarith⟩

/-- `getDirectionTo` takes a direction of the table that is close to the way to the target. -/
theorem getDirectionTo_close {p target : Position ℝ} (h : 100 < p.sq target) :
    getDirectionTo p target ∈ directions ∧
      0.92 * Real.sqrt (p.sq target) ≤ along (target.x - p.x) (target.y - p.y)
        (getDirectionTo p target) := by
  obtain ⟨dx, hdx⟩ : ∃ dx, dx = target.x - p.x := ⟨_, rfl⟩
  obtain ⟨dy, hdy⟩ : ∃ dy, dy = target.y - p.y := ⟨_, rfl⟩
  obtain ⟨len, hlen⟩ : ∃ len, len = Real.sqrt (p.sq target) := ⟨_, rfl⟩
  have hsq : dx * dx + dy * dy = p.sq target := by
    unfold Position.sq
    rw [hdx, hdy]
    ring
  have hlen₀ : 10 < len := by
    rw [hlen, show (10 : ℝ) = Real.sqrt (10 ^ 2) from (Real.sqrt_sq (by norm_num)).symm]
    exact Real.sqrt_lt_sqrt (by norm_num) (by linarith)
  have hlen₂ : len ^ 2 = dx * dx + dy * dy := by
    rw [hlen, hsq, Real.sq_sqrt (nonneg_sq p target)]
  have hpos : 0 < len := by linarith
  have hget : getDirectionTo p target = bestDirection (dx / len) (dy / len) directions (-2) 0 := by
    have hfar : lt len (lit 0.0001) = false := by
      show decide (len < ((0.0001 : ℚ) : ℝ)) = false
      rw [decide_eq_false_iff_not, not_lt]
      norm_num
      linarith
    have hroot : (sqrt ((target.x - p.x) * (target.x - p.x) + (target.y - p.y) * (target.y - p.y)) :
        ℝ) = len := by
      show Real.sqrt _ = len
      rw [← hdx, ← hdy, hlen, hsq]
    have htwo : (lit (-2) : ℝ) = -2 := by
      show ((-2 : ℚ) : ℝ) = -2
      norm_num
    unfold getDirectionTo
    dsimp only
    rw [hroot, hfar, htwo, ← hdx, ← hdy]
    rfl
  have hunit : (dx / len) ^ 2 + (dy / len) ^ 2 = 1 := by
    rw [div_pow, div_pow, ← add_div, hlen₂, ← sq, ← sq, div_self]
    rw [sq, sq, ← hlen₂]
    positivity
  have hstart : (-2 : ℝ) ≤ along (dx / len) (dy / len) 0 := by
    rw [(along_real _ _).1]
    nlinarith [sq_nonneg (dx / len)]
  obtain ⟨-, hall, hmem⟩ := bestDirection_max (dx / len) (dy / len) directions (-2) 0 hstart
  rw [hget, ← hdx, ← hdy, ← hlen]
  refine ⟨?_, ?_⟩
  · rcases hmem with he | hmem
    · rw [he]
      simp
    · exact hmem
  · obtain ⟨i, hi, hclose⟩ := exists_along hunit
    have hbest := hclose.trans (hall i hi)
    have hscale : ∀ j, along dx dy j = len * along (dx / len) (dy / len) j := by
      intro j
      unfold along
      field_simp
    rw [hscale]
    nlinarith

/-! ### Legs -/

/-- `n` times `Monster::Update`. -/
def Monster.updates {F : Type} [Machine F] : ℕ → Monster F → Rands → Except Stop (Monster F × Rands)
  | 0, m, rands => return (m, rands)
  | n + 1, m, rands => do
    let (m, rands) ← m.update rands
    updates n m rands

/-- Some updates make `m'` of `m`. -/
def Later (m m' : Monster ℝ) : Prop := ∃ n, ∀ rands, m.updates n rands = .ok (m', rands)

/-- The monster is within 10 of its spawn position. -/
def Monster.Near (m : Monster ℝ) : Prop := m.pos.sq m.spawnPos ≤ 100

/-- It gets there, and is idle. -/
def Monster.Arrives (m : Monster ℝ) : Prop :=
  ∃ m', Later m m' ∧ m'.state = .idle ∧ m'.spawnPos = m.spawnPos ∧ m'.Near

/-- A returning monster at the beginning of a leg. -/
structure Monster.Returns (m : Monster ℝ) : Prop where
  state : m.state = .return
  speed : m.speed = lit 3
  frame : m.animFrame = 0
  start : m.startMovePos = m.pos
  pos : m.pos.InWorld
  spawn : m.spawnPos.InWorld

/-- The monster after `k` steps of a leg. -/
noncomputable def Monster.walk (m : Monster ℝ) (k : ℕ) : Monster ℝ :=
  { m with animFrame := k }.moveUpdate

variable {m m' m'' : Monster ℝ}

theorem Later.refl (m : Monster ℝ) : Later m m := ⟨0, fun _ => rfl⟩

theorem updates_add (n k : ℕ) (m : Monster ℝ) (rands : Rands) :
    m.updates (n + k) rands = m.updates n rands >>= fun r => r.1.updates k r.2 := by
  induction n generalizing m rands with
  | zero => rw [Nat.zero_add]; rfl
  | succ n ih =>
    calc m.updates (n + 1 + k) rands = m.updates (n + k + 1) rands := by rw [Nat.succ_add]
      _ = m.update rands >>= fun r => r.1.updates (n + k) r.2 := rfl
      _ = m.update rands >>= fun r => r.1.updates n r.2 >>= fun r => r.1.updates k r.2 :=
          congrArg _ (funext fun r => ih r.1 r.2)
      _ = (m.update rands >>= fun r => r.1.updates n r.2) >>= fun r => r.1.updates k r.2 :=
        (bind_assoc _ _ _).symm
      _ = m.updates (n + 1) rands >>= fun r => r.1.updates k r.2 := rfl

theorem Later.trans (h : Later m m') (h' : Later m' m'') : Later m m'' := by
  obtain ⟨n, hn⟩ := h
  obtain ⟨k, hk⟩ := h'
  refine ⟨n + k, fun rands => ?_⟩
  rw [updates_add, hn]
  exact hk rands

theorem Later.of_path (h : Relation.ReflTransGen Later m m') : Later m m' := by
  induction h with
  | refl => exact .refl m
  | tail _ hc ih => exact ih.trans hc

theorem Later.one (h : ∀ rands, m.update rands = .ok (m', rands)) : Later m m' := by
  refine ⟨1, fun rands => ?_⟩
  unfold Monster.updates
  rw [h]
  rfl

theorem Later.arrives (h : Later m m') (hspawn : m'.spawnPos = m.spawnPos) (h' : m'.Arrives) :
    m.Arrives := by
  obtain ⟨m'', hlater, hstate, hspawn', hnear⟩ := h'
  exact ⟨m'', h.trans hlater, hstate, hspawn'.trans hspawn, hnear⟩

theorem near_iff : le (m.pos.dist m.spawnPos) (lit 10) = true ↔ m.Near := by
  have hten : (lit 10 : ℝ) = 10 := by
    show ((10 : ℚ) : ℝ) = 10
    norm_num
  rw [hten, dist_le_iff (by norm_num)]
  unfold Monster.Near
  norm_num

/-- Where the steps of a leg lead. -/
theorem moveUpdate_real (m : Monster ℝ) : m.moveUpdate.pos = .clamp
    (m.startMovePos.x + (directionVector (F := ℝ) m.direction).1 * m.speed * m.animFrame)
    (m.startMovePos.y + (directionVector (F := ℝ) m.direction).2 * m.speed * m.animFrame) := rfl

/-- On the spot, only the world is looked at. -/
theorem moveUpdate_zero (hframe : m.animFrame = 0) :
    m.moveUpdate = { m with pos := .clamp m.startMovePos.x m.startMovePos.y } := by
  have hpos : m.moveUpdate.pos = .clamp m.startMovePos.x m.startMovePos.y := by
    rw [moveUpdate_real, hframe]
    norm_num
  calc m.moveUpdate = { m with pos := m.moveUpdate.pos } := rfl
    _ = { m with pos := .clamp m.startMovePos.x m.startMovePos.y } := by rw [hpos]

theorem walk_zero (h : m.Returns) : m.walk 0 = m := by
  have hframe : { m with animFrame := ((0 : ℕ) : ℤ) } = m := by
    rw [Nat.cast_zero, ← h.frame]
  have hclamp : Position.clamp m.startMovePos.x m.startMovePos.y = m.pos := by
    rw [h.start, clamp_of_inWorld h.pos]
  unfold Monster.walk
  rw [hframe, moveUpdate_zero h.frame, hclamp]

theorem update_return (h : m.state = .return) (rands : Rands) :
    m.update rands = do return (← { m with animFrame := m.animFrame + 1 }.returnUpdate, rands) := by
  obtain ⟨u, hu⟩ : ∃ u : Monster ℝ, u = { m with animFrame := m.animFrame + 1 } := ⟨_, rfl⟩
  unfold Monster.update
  dsimp only
  rw [← hu, h]

/-- The monster is home. -/
theorem arrives_of_near (hstate : m.state = .return) (hspawn : m.spawnPos.InWorld) (h : m.Near) :
    m.Arrives := by
  obtain ⟨i, hi⟩ : ∃ i : Monster ℝ, i = { m with
      state := .idle, animFrame := 0, startMovePos := m.pos } := ⟨_, rfl⟩
  refine ⟨i.moveUpdate, .one fun rands => ?_, ?_, ?_, ?_⟩
  · rw [update_return hstate]
    unfold Monster.returnUpdate
    rw [if_pos (by exact near_iff.mpr h)]
    unfold Monster.changeState
    rw [myAssert_true (by simp [hstate]), hi]
    rfl
  · rw [hi]
    rfl
  · rw [hi]
    rfl
  · unfold Monster.Near
    rw [moveUpdate_zero (by rw [hi]), hi]
    exact (sq_clamp_le hspawn m.pos.x m.pos.y).trans h

/-- A step of a leg. -/
theorem walk_step (h : m.Returns) {k : ℕ} (hk : k < 14) (hfar : ¬(m.walk k).Near) :
    Later (m.walk k) (m.walk (k + 1)) := by
  refine .one fun rands => ?_
  have hnear : ¬le ((m.walk k).pos.dist m.spawnPos) (lit 10) = true :=
    fun hle => hfar (near_iff.mp hle)
  have hstate : (m.walk k).state = .return := h.state
  have hframe : (m.walk k).animFrame = k := rfl
  rw [update_return hstate]
  unfold Monster.returnUpdate
  rw [if_neg (by exact hnear), if_neg (by dsimp only; rw [hframe]; omega)]
  show Except.ok ({ m with animFrame := (k : ℤ) + 1 }.moveUpdate, rands) =
    .ok (m.walk (k + 1), rands)
  unfold Monster.walk
  rw [Nat.cast_succ]

/-- The monster arrives, or makes all steps of the leg. -/
theorem walk_later (h : m.Returns) {k : ℕ} (hk : k ≤ 14) : m.Arrives ∨ Later m (m.walk k) := by
  induction k with
  | zero =>
    rw [walk_zero h]
    exact .inr (.refl m)
  | succ k ih =>
    rcases ih (by omega) with harr | hlater
    · exact .inl harr
    · by_cases hnear : (m.walk k).Near
      · exact .inl (hlater.arrives rfl (arrives_of_near h.state h.spawn hnear))
      · exact .inr (hlater.trans (walk_step h (by omega) hnear))

/-- The monster has turned to its spawn position, and is not there. -/
structure Monster.Aimed (m : Monster ℝ) : Prop where
  direction : m.direction = getDirectionTo m.pos m.spawnPos
  far : ¬m.Near

/-- Between two legs the monster turns. -/
theorem turn (h : m.Returns) (hfar : ¬(m.walk 14).Near) :
    ∃ m', Later (m.walk 14) m' ∧ m'.Returns ∧ m'.Aimed ∧ m'.spawnPos = m.spawnPos ∧ m'.pos =
      (m.walk 14).pos := by
  obtain ⟨w, hw⟩ : ∃ w, w = m.walk 14 := ⟨_, rfl⟩
  have hstate : w.state = .return := by rw [hw]; exact h.state
  have hspeed : w.speed = lit 3 := by rw [hw]; exact h.speed
  have hspawn : w.spawnPos = m.spawnPos := by rw [hw]; rfl
  have hframe : w.animFrame = 14 := by rw [hw]; rfl
  have hpos : w.pos.InWorld := by
    rw [hw]
    exact clamp_inWorld _ _
  rw [← hw] at hfar ⊢
  obtain ⟨t, ht⟩ : ∃ t, t = { w with
      direction := getDirectionTo w.pos w.spawnPos, animFrame := 0, startMovePos := w.pos } :=
    ⟨_, rfl⟩
  have hstay : t.moveUpdate = t := by
    have hclamp : Position.clamp t.startMovePos.x t.startMovePos.y = t.pos := by
      rw [ht]
      exact clamp_of_inWorld hpos
    rw [moveUpdate_zero (by rw [ht]), hclamp]
  refine ⟨t, .one fun rands => ?_, ?_, ?_, ?_, ?_⟩
  · rw [update_return hstate]
    unfold Monster.returnUpdate
    rw [if_neg (by exact fun hle => hfar (near_iff.mp hle)),
      if_pos (by dsimp only; rw [hframe]; norm_num)]
    show Except.ok ({ w with
      direction := getDirectionTo w.pos w.spawnPos, animFrame := 0,
      startMovePos := w.pos }.moveUpdate, rands) = .ok (t, rands)
    rw [← ht, hstay]
  · rw [ht]
    exact ⟨hstate, hspeed, rfl, rfl, hpos, by rw [hspawn]; exact h.spawn⟩
  · rw [ht]
    exact ⟨rfl, hfar⟩
  · rw [ht, hspawn]
  · rw [ht]

/-- Where a leg has led to after `k` steps. -/
theorem sq_walk_le (h : m.Returns) (k : ℕ) : (m.walk k).pos.sq m.spawnPos ≤ m.pos.sq m.spawnPos -
    6 * k * along (m.spawnPos.x - m.pos.x) (m.spawnPos.y - m.pos.y) m.direction +
    9 * k ^ 2 * ((directionVector (F := ℝ) m.direction).1 ^ 2 +
      (directionVector (F := ℝ) m.direction).2 ^ 2) := by
  have hspeed : m.speed = 3 := by
    rw [h.speed]
    show ((3 : ℚ) : ℝ) = 3
    norm_num
  refine (sq_clamp_le h.spawn _ _).trans (le_of_eq ?_)
  show (m.startMovePos.x + (directionVector (F := ℝ) m.direction).1 *
    m.speed * ((k : ℤ) : ℝ) - m.spawnPos.x) ^ 2 + (m.startMovePos.y +
    (directionVector (F := ℝ) m.direction).2 * m.speed * ((k : ℤ) : ℝ) - m.spawnPos.y) ^ 2 = _
  rw [h.start, hspeed]
  unfold along Position.sq
  push_cast
  ring

theorem sq_along_le (p target : Position ℝ) (i : ℤ) :
    along (target.x - p.x) (target.y - p.y) i ^ 2 ≤
    p.sq target * ((directionVector (F := ℝ) i).1 ^ 2 + (directionVector (F := ℝ) i).2 ^ 2) := by
  obtain ⟨x, hx⟩ : ∃ x, x = (directionVector (F := ℝ) i).1 := ⟨_, rfl⟩
  obtain ⟨y, hy⟩ : ∃ y, y = (directionVector (F := ℝ) i).2 := ⟨_, rfl⟩
  unfold along Position.sq
  rw [← hx, ← hy]
  nlinarith [sq_nonneg ((target.x - p.x) * y - (target.y - p.y) * x)]

/-- A leg of a monster that has turned. -/
theorem leg (h : m.Returns) (ha : m.Aimed) : m.Arrives ∨
    ∃ m', Later m m' ∧ (m'.Returns ∧ m'.Aimed ∧ m'.spawnPos = m.spawnPos) ∧
      m'.pos.sq m'.spawnPos ≤ m.pos.sq m.spawnPos - 167 := by
  obtain ⟨d, hd⟩ : ∃ d, d = m.pos.sq m.spawnPos := ⟨_, rfl⟩
  obtain ⟨q, hq⟩ : ∃ q, q = along (m.spawnPos.x - m.pos.x) (m.spawnPos.y - m.pos.y) m.direction :=
    ⟨_, rfl⟩
  have hfar : 100 < d := by
    rw [hd]
    exact not_le.mp ha.far
  obtain ⟨hdir, hclose⟩ := getDirectionTo_close (hd ▸ hfar)
  rw [← ha.direction] at hdir hclose
  rw [← hq, ← hd] at hclose
  have hunit := vector_sq hdir
  have hwalk : ∀ k : ℕ, (m.walk k).pos.sq m.spawnPos ≤ d - 6 * k * q + 9 * k ^ 2 * 1.000001 := by
    intro k
    have hle := sq_walk_le h k
    rw [← hd, ← hq] at hle
    have hmul := mul_le_mul_of_nonneg_left hunit (show (0 : ℝ) ≤ 9 * k ^ 2 by positivity)
    linarith
  have hroot := Real.sqrt_nonneg d
  have hroot₂ : Real.sqrt d ^ 2 = d := Real.sq_sqrt (by linarith)
  have hq₀ : 0 ≤ q := by linarith
  rcases le_or_gt d 625 with hnear | hlong
  · -- one of the steps comes within 10
    left
    have hcauchy : q ^ 2 ≤ d * 1.000001 := by
      rw [hq, hd]
      exact (sq_along_le _ _ _).trans (mul_le_mul_of_nonneg_left hunit (nonneg_sq _ _))
    have hlarge : 0.8464 * d ≤ q ^ 2 := by nlinarith
    have hq₁ : q ≤ 25.1 := by nlinarith
    obtain ⟨k, hk₁, hk₂⟩ := Descent.exists_near (show (0 : ℝ) < 3 by norm_num) hq₀
    have hk : k ≤ 8 := by
      have hlt : (k : ℝ) < 9 := by linarith
      have := Nat.cast_lt.mp (hlt.trans_eq (by norm_num : (9 : ℝ) = ((9 : ℕ) : ℝ)))
      omega
    have hk₈ : (k : ℝ) ≤ 8 := by exact_mod_cast hk
    have hstep : (3 * (k : ℝ) - q) ^ 2 ≤ 2.25 := by nlinarith
    have harr : (m.walk k).Near := by
      refine (hwalk k).trans ?_
      nlinarith
    rcases walk_later h (show k ≤ 14 by omega) with harr' | hlater
    · exact harr'
    · exact hlater.arrives rfl (arrives_of_near h.state h.spawn harr)
  · -- the leg shortens the way
    rcases walk_later h le_rfl with harr | hlater
    · exact .inl harr
    by_cases hhome : (m.walk 14).Near
    · exact .inl (hlater.arrives rfl (arrives_of_near h.state h.spawn hhome))
    obtain ⟨m', hturn, hreturns, haimed, hspawn, hpos⟩ := turn h hhome
    refine .inr ⟨m', hlater.trans hturn, ⟨hreturns, haimed, hspawn⟩, ?_⟩
    have hroot₁ : 25 ≤ Real.sqrt d := by nlinarith
    have hle := hwalk 14
    rw [hspawn, hpos, ← hd]
    norm_num at hle
    linarith

/-- A monster that begins to return gets home. -/
theorem Monster.Returns.arrives (h : m.Returns) : m.Arrives := by
  rcases walk_later h le_rfl with harr | hlater
  · exact harr
  by_cases hhome : (m.walk 14).Near
  · exact hlater.arrives rfl (arrives_of_near h.state h.spawn hhome)
  obtain ⟨m', hturn, hreturns, haimed, hspawn, -⟩ := turn h hhome
  obtain ⟨m'', hpath, hspawn', harr⟩ :=
    Descent.reaches (Q := fun b : Monster ℝ => b.spawnPos = m.spawnPos ∧ b.Arrives) (P := fun b =>
    (b.Returns ∧ b.Aimed) ∧ b.spawnPos = m.spawnPos) (R := Later) (fun b => b.pos.sq b.spawnPos)
    (show (0 : ℝ) < 167 by norm_num) (fun b => nonneg_sq _ _) (fun b hb => by
      rcases leg hb.1.1 hb.1.2 with harr | ⟨c, hc, ⟨hreturns, haimed, hspawn⟩, hle⟩
      · exact .inl ⟨hb.2, harr⟩
      · exact .inr ⟨c, hc, ⟨⟨hreturns, haimed⟩, hspawn.trans hb.2⟩, hle⟩)
    ⟨⟨hreturns, haimed⟩, hspawn⟩
  exact ((hlater.trans hturn).trans (.of_path hpath)).arrives hspawn' harr

/-- From wherever in the world and in whatever direction a monster begins to return, after finitely
many updates it is idle within 10 of its spawn position. -/
theorem monster_home (hspeed : m.speed = lit 3) (hpos : m.pos.InWorld) (hspawn : m.spawnPos.InWorld)
    (h : m.changeState .return = .ok m') :
        ∃ n home, (∀ rands, m'.updates n rands = .ok (home, rands)) ∧
      home.state = .idle ∧ home.spawnPos = m'.spawnPos ∧ le (home.pos.dist home.spawnPos)
        (lit 10) = true := by
  unfold Monster.changeState at h
  obtain ⟨_, -, h⟩ := bind_ok h
  cases h
  have hreturns : Monster.Returns { m with state := .return }.resetAnimStart :=
    ⟨rfl, hspeed, rfl, rfl, hpos, hspawn⟩
  obtain ⟨home, ⟨n, hn⟩, hidle, hspawn', hnear⟩ := hreturns.arrives
  exact ⟨n, home, hn, hidle, hspawn', near_iff.mpr hnear⟩

/-- A monster at (1000, 1000), two hundred below its spawn position. -/
noncomputable def strayed : Monster ℝ :=
  { Monster.new 1 ⟨1000, 1200⟩ 0 with pos := ⟨1000, 1000⟩, state := .chase }

theorem monster_home_strayed : ∃ m', strayed.changeState .return = .ok m' ∧
    ∃ n home, (∀ rands, m'.updates n rands = .ok (home, rands)) ∧ home.state = .idle ∧
      home.spawnPos = m'.spawnPos ∧
      le (home.pos.dist home.spawnPos) (lit 10) = true := by
  have hreturn : strayed.changeState .return = .ok { strayed with
      state := .return }.resetAnimStart := rfl
  refine ⟨_, hreturn, monster_home rfl ?_ ?_ hreturn⟩
  · rw [inWorld_real]
    norm_num [strayed]
  · rw [inWorld_real]
    norm_num [strayed, Monster.new]

end Field
end MyMMO
