/-
# The tick of a monster

`Monster::Update` as a transition of `mState`: from which state which others can be reached
(`nextMonster_next`), how a dead monster comes back (`nextMonster_dead`), and that one that sets out
does not leave its place yet (`nextMonster_setsOut`).
-/
import MyMMO.Acts

namespace MyMMO

open Machine

/-- A machine whose subtraction is that of numbers: what is left of `x - x` is 0 or no number, and
neither is beyond a limit. -/
class LawfulMachine (F : Type) extends Machine F where
  lt_dist_self : ∀ (limit : ℚ) (x y : F), 0 ≤ limit →
    lt (lit limit) (sqrt ((x - x) * (x - x) + (y - y) * (y - y))) = false

instance : LawfulMachine ℚ where
  lt_dist_self limit x y h := by
    change decide (limit < Nat.sqrt (((x - x) * (x - x) + (y - y) * (y - y)) * 2 ^ 40).floor.toNat /
      2 ^ 20) = false
    have hzero : ((x - x) * (x - x) + (y - y) * (y - y)) * 2 ^ 40 = 0 := by ring
    have hroot : Nat.sqrt (0 : ℚ).floor.toNat = 0 := by decide +kernel
    rw [hzero, hroot]
    simpa using h

namespace Field

open Outcome

variable {F : Type}

/-- The states that a tick can lead to. -/
def MonsterState.next : MonsterState → List MonsterState
  | .idle => [.idle, .move]
  | .move => [.move, .idle, .return]
  | .chase => [.chase, .attack, .idle, .move, .return]
  | .attack => [.attack, .chase]
  | .stun => [.stun, .chase]
  | .dead => [.dead, .idle]
  | .return => [.return, .idle]

section

variable [Machine F] {s : State F} {m m' : Monster F} {rands rands' : Rands}

omit [Machine F] in
theorem monster_changeState_state {state : MonsterState} (h : m.changeState state = .ok m') :
    m'.state = state := by
  rw [(monster_changeState_eq h).2]

theorem moveUpdate_state (m : Monster F) : m.moveUpdate.state = m.state := rfl

theorem giveUpChase_state (h : m.giveUpChase = .ok m') : m'.state = .idle ∨ m'.state = .return := by
  unfold Monster.giveUpChase at h
  split_ifs at h
  · exact Or.inr (monster_changeState_state h)
  · exact Or.inl (monster_changeState_state h)

/-- An idle monster stays where it is. -/
theorem idleUpdate_cases (h : m.idleUpdate rands = .ok (m', rands')) :
    m' = m ∨ m'.state = .move ∧ m'.pos = m.pos ∧
      (lt Monster.PATROL_RADIUS (m.pos.dist m.spawnPos) = true ∨ 10 ≤ m.animFrame) := by
  unfold Monster.idleUpdate at h
  dsimp only at h
  split_ifs at h with hfar hrand
  · obtain ⟨m1, h1, h⟩ := bind_ok h
    cases h
    rw [(monster_changeState_eq h1).2]
    exact Or.inr ⟨rfl, rfl, Or.inl hfar⟩
  · obtain ⟨m1, h1, h⟩ := bind_ok h
    cases h
    rw [(monster_changeState_eq h1).2]
    exact Or.inr ⟨rfl, rfl, Or.inr hrand.2⟩
  · cases h
    exact Or.inl rfl

theorem patrolUpdate_state (h : m.patrolUpdate rands = .ok (m', rands')) (hm : m.state = .move) :
    m'.state = .move ∨ m'.state = .idle ∨ m'.state = .return := by
  unfold Monster.patrolUpdate at h
  dsimp only at h
  split_ifs at h
  · obtain ⟨m1, h1, h⟩ := bind_ok h
    cases h
    exact Or.inr (Or.inr (monster_changeState_state h1))
  · obtain ⟨m1, h1, h⟩ := bind_ok h
    cases h
    exact Or.inr (Or.inl (monster_changeState_state h1))
  · cases h
    exact Or.inl hm

theorem chaseUpdate_state {target : Position F} (h : m.chaseUpdate target = .ok m')
    (hm : m.state = .chase) :
    m'.state = .chase ∨ m'.state = .attack ∨ m'.state = .idle ∨ m'.state = .return := by
  unfold Monster.chaseUpdate at h
  dsimp only at h
  split_ifs at h
  · exact Or.inr (Or.inr (giveUpChase_state h))
  · exact Or.inr (Or.inl (monster_changeState_state h))
  · cases h
    exact Or.inl hm
  · cases h
    exact Or.inl hm

omit [Machine F] in
theorem attackUpdate_cases (h : m.attackUpdate = .ok m') :
    m' = m ∨ m'.state = .chase ∧ m'.pos = m.pos := by
  unfold Monster.attackUpdate at h
  split_ifs at h
  · rw [(monster_changeState_eq h).2]
    exact Or.inr ⟨rfl, rfl⟩
  · cases h
    exact Or.inl rfl

omit [Machine F] in
theorem stunUpdate_cases (h : m.stunUpdate = .ok m') :
    m' = { m with hitStunFrame := m.hitStunFrame - 1 } ∨ m.hitStunFrame ≤ 0 ∧ m'.state = .chase ∧
      m'.pos = m.pos := by
  unfold Monster.stunUpdate at h
  split_ifs at h with hstun
  · cases h
    exact Or.inl rfl
  · rw [(monster_changeState_eq h).2]
    exact Or.inr ⟨not_lt.mp hstun, rfl, rfl⟩

omit [Machine F] in
theorem deadUpdate_cases (h : m.deadUpdate = .ok m') :
    m' = m ∨ m'.state = .idle ∧ m'.animFrame = 0 ∧ m'.pos = m'.spawnPos := by
  unfold Monster.deadUpdate at h
  split_ifs at h
  · obtain ⟨m1, h1, h⟩ := bind_ok h
    cases h
    rw [(monster_changeState_eq h1).2]
    exact Or.inr ⟨rfl, rfl, rfl⟩
  · cases h
    exact Or.inl rfl

theorem returnUpdate_state (h : m.returnUpdate = .ok m') (hm : m.state = .return) :
    m'.state = .return ∨ m'.state = .idle := by
  unfold Monster.returnUpdate at h
  split_ifs at h
  · obtain ⟨m1, h1, h⟩ := bind_ok h
    cases h
    right
    rw [moveUpdate_state]
    exact monster_changeState_state h1
  · obtain ⟨m1, h1, h⟩ := bind_ok h
    cases h1
    cases h
    exact Or.inl hm
  · obtain ⟨m1, h1, h⟩ := bind_ok h
    cases h1
    cases h
    exact Or.inl hm

theorem update_next (h : m.update rands = .ok (m', rands')) : m'.state ∈ m.state.next := by
  unfold Monster.update at h
  dsimp only at h
  split at h
  · next hstate =>
    rw [hstate]
    rcases idleUpdate_cases h with rfl | ⟨he, -, -⟩
    · simp [MonsterState.next, hstate]
    · simp [MonsterState.next, he]
  · next hstate =>
    rw [hstate]
    rcases patrolUpdate_state h hstate with he | he | he <;> simp [MonsterState.next, he]
  · next hstate =>
    rw [hstate]
    obtain ⟨m1, h1, h⟩ := bind_ok h
    cases h
    rcases chaseUpdate_state h1 hstate with he | he | he | he <;> simp [MonsterState.next, he]
  · next hstate =>
    rw [hstate]
    obtain ⟨m1, h1, h⟩ := bind_ok h
    cases h
    rcases attackUpdate_cases h1 with rfl | ⟨he, -⟩
    · simp [MonsterState.next, hstate]
    · simp [MonsterState.next, he]
  · next hstate =>
    rw [hstate]
    obtain ⟨m1, h1, h⟩ := bind_ok h
    cases h
    rcases stunUpdate_cases h1 with rfl | ⟨-, he, -⟩
    · simp [MonsterState.next, hstate]
    · simp [MonsterState.next, he]
  · next hstate =>
    rw [hstate]
    obtain ⟨m1, h1, h⟩ := bind_ok h
    cases h
    rcases deadUpdate_cases h1 with rfl | ⟨he, -, -⟩
    · simp [MonsterState.next, hstate]
    · simp [MonsterState.next, he]
  · next hstate =>
    rw [hstate]
    obtain ⟨m1, h1, h⟩ := bind_ok h
    cases h
    rcases returnUpdate_state h1 hstate with he | he <;> simp [MonsterState.next, he]

/-! ### In the field -/

variable {id : ℤ}

/-- The tick of a monster that is not chasing is `Monster::Update`. -/
theorem nextMonster_update (h : nextMonster s id = .ok (m, rands))
    (hstate : (s.monster id).state ≠ .chase) :
    { s.monster id with
      beforeState := (s.monster id).state
      beforeDirection := (s.monster id).direction }.update s.rands = .ok (m, rands) := by
  unfold nextMonster at h
  dsimp only at h
  rw [if_neg hstate] at h
  obtain ⟨m1, h1, h⟩ := bind_ok h
  cases h1
  exact h

theorem nextMonster_next (h : nextMonster s id = .ok (m, rands)) :
    m.state ∈ (s.monster id).state.next := by
  by_cases hchase : (s.monster id).state = .chase
  · unfold nextMonster at h
    dsimp only at h
    rw [if_pos hchase] at h
    rw [hchase]
    split at h
    · obtain ⟨m1, h1, h⟩ := bind_ok h
      cases h1
      have hnext := update_next h
      dsimp only at hnext
      rw [hchase] at hnext
      exact hnext
    · obtain ⟨m1, h1, h⟩ := bind_ok h
      have hnext := update_next h
      rcases giveUpChase_state h1 with he | he
      · rw [he] at hnext
        simp [MonsterState.next] at hnext ⊢
        tauto
      · rw [he] at hnext
        simp [MonsterState.next] at hnext ⊢
        tauto
  · have hnext := update_next (nextMonster_update h hchase)
    exact hnext

/-- Nobody dies of a tick. -/
theorem nextMonster_dies (h : nextMonster s id = .ok (m, rands)) (hm : m.state = .dead) :
    (s.monster id).state = .dead := by
  have hnext := nextMonster_next h
  rw [hm] at hnext
  generalize (s.monster id).state = state at hnext
  revert hnext
  cases state <;> decide

/-- A dead monster stays dead, or is idle where it was spawned. -/
theorem nextMonster_dead (h : nextMonster s id = .ok (m, rands))
    (hdead : (s.monster id).state = .dead) :
    m.state = .dead ∨ m.state = .idle ∧ m.animFrame = 0 ∧ m.pos = m.spawnPos := by
  have hupdate := nextMonster_update h (by rw [hdead]; decide)
  unfold Monster.update at hupdate
  dsimp only at hupdate
  rw [hdead] at hupdate
  obtain ⟨m1, h1, hupdate⟩ := bind_ok hupdate
  cases hupdate
  exact (deadUpdate_cases h1).imp (fun he => by rw [he]) fun he => he

end

/-- A monster that sets out is still where it was, and was neither stunned nor just respawned. -/
theorem nextMonster_setsOut [LawfulMachine F] {s : State F} {id : ℤ} {m : Monster F} {rands : Rands}
    (h : nextMonster s id = .ok (m, rands)) (hbefore : ¬(s.monster id).state.Moving)
    (hm : m.state.Moving) :
    m.pos = (s.monster id).pos ∧ ((s.monster id).state = .stun → (s.monster id).hitStunFrame ≤ 0) ∧
      ((s.monster id).state = .idle → (s.monster id).pos = (s.monster id).spawnPos →
        9 ≤ (s.monster id).animFrame) := by
  have hupdate := nextMonster_update h fun he => hbefore (Or.inr (Or.inl he))
  unfold Monster.update at hupdate
  dsimp only at hupdate
  split at hupdate
  · next hstate =>
    have hidle : ¬m.state = .idle := by
      intro he
      rw [he] at hm
      exact absurd hm (by decide)
    rcases idleUpdate_cases hupdate with rfl | ⟨-, hpos, hwhy⟩
    · exact absurd hstate hidle
    · refine ⟨hpos, fun he => (by rw [hstate] at he; cases he), fun _ hspawn => ?_⟩
      rcases hwhy with hfar | hframe
      · -- it is where it was spawned
        dsimp only at hfar
        rw [hspawn] at hfar
        unfold Position.dist Monster.PATROL_RADIUS at hfar
        rw [LawfulMachine.lt_dist_self _ _ _ (by norm_num)] at hfar
        cases hfar
      · dsimp only at hframe
        omega
  · next hstate => exact absurd (Or.inl hstate) hbefore
  · next hstate => exact absurd (Or.inr (Or.inl hstate)) hbefore
  · next hstate =>
    obtain ⟨m1, h1, hupdate⟩ := bind_ok hupdate
    cases hupdate
    refine ⟨?_, fun he => (by rw [hstate] at he; cases he),
      fun he => (by rw [hstate] at he; cases he)⟩
    rcases attackUpdate_cases h1 with rfl | ⟨-, hpos⟩
    · rfl
    · exact hpos
  · next hstate =>
    obtain ⟨m1, h1, hupdate⟩ := bind_ok hupdate
    cases hupdate
    rcases stunUpdate_cases h1 with rfl | ⟨hzero, -, hpos⟩
    · dsimp only at hm
      rw [hstate] at hm
      exact absurd hm (by decide)
    · exact ⟨hpos, fun _ => hzero, fun he => (by rw [hstate] at he; cases he)⟩
  · next hstate =>
    rcases nextMonster_dead h hstate with he | ⟨he, -, -⟩
    · rw [he] at hm
      exact absurd hm (by decide)
    · rw [he] at hm
      exact absurd hm (by decide)
  · next hstate => exact absurd (Or.inr (Or.inr hstate)) hbefore

end Field
end MyMMO
