/-
# The sectors that the hit of a monster looks through

`processMonsterAttackHit` looks for the closest player in the 3x3 block around the monster's sector
only. It finds who is closest of all players exactly if one of those is registered in the block
(`Visited`). A player is registered where it stood before the monsters' turn, and every hit takes it
100 away, so who has been hit twice may be missed (`overlooks`); who has been hit no more than once
is found (`pruned`).
-/
import MyMMO.Exact
import MyMMO.Kinematics
import MyMMO.SectorIndex

namespace MyMMO
namespace Field

open Machine Outcome

/-! ### The search -/

section

variable {F : Type} [Machine F]

/-- A living player in the range of the monster. -/
def InRange (s : State F) (m : Monster F) (q : ℕ) : Prop :=
  q ∈ s.players ∧ (s.player q).state ≠ .dead ∧
    le (m.pos.dist (s.player q).pos) Monster.MONSTER_ATTACK_RANGE = true

instance (s : State F) (m : Monster F) (q : ℕ) : Decidable (InRange s m q) :=
  inferInstanceAs (Decidable (_ ∧ _ ∧ _))

/-- None of those in range is closer. -/
def Nearest (s : State F) (m : Monster F) (q : ℕ) : Prop :=
  InRange s m q ∧ ∀ q', InRange s m q' →
    le (m.pos.dist (s.player q).pos) (m.pos.dist (s.player q').pos) = true

/-- If there is anybody in range, one of the closest is registered in the block. -/
def Visited (s : State F) (m : Monster F) : Prop :=
  (∃ q, InRange s m q) → ∃ q, Nearest s m q ∧ (s.player q).currentSector ∈ m.sector.around

/-- The hit takes the step from `s` to `t` by damaging `q`. -/
def Damages (s : State F) (m : Monster F) (t : State F) (q : ℕ) : Prop :=
  ∃ p, (s.player q).takeDamage MONSTER_ATTACK_DAMAGE m = .ok p ∧
    t.player = Function.update s.player q p ∧
    t.history = s.history ++ [.damaged q]

/-- The hit is that of a search through all players. -/
structure Accurate (s : State F) (m : Monster F) (t : State F) : Prop where
  damages : ∀ q, Damages s m t q → Nearest s m q
  nobody : t = s ↔ ∀ q, ¬InRange s m q

theorem processMonsterAttackHit_struck {s t : State F} {m : Monster F}
    (h : processMonsterAttackHit s m = .ok t) :
    struck s m = none ∧ t = s ∨ ∃ q, struck s m = some q ∧ Damages s m t q := by
  unfold processMonsterAttackHit at h
  obtain ⟨near, hnear, h⟩ := bind_ok h
  obtain ⟨-, rfl⟩ := Sector.getAroundSectors_eq hnear
  split at h
  · next hclosest =>
    cases h
    exact Or.inl ⟨hclosest, rfl⟩
  · next q hclosest =>
    obtain ⟨p, hp, h⟩ := bind_ok h
    obtain ⟨near, -, h⟩ := bind_ok h
    cases h
    exact Or.inr ⟨q, hclosest, p, hp, rfl, rfl⟩

end

section

variable {F : Type} [ExactMachine F] {s t : State F} {m : Monster F} {q : ℕ}

/-- What the loop over `qs` finds. -/
theorem closestPlayer_spec (pos : Position F) (qs : List ℕ) (limit : F) (closest : Option ℕ) :
    closestPlayer s pos qs limit closest = closest ∧
        (∀ q ∈ qs, (s.player q).state ≠ .dead → real limit < real (pos.dist (s.player q).pos)) ∨
      ∃ q ∈ qs, closestPlayer s pos qs limit closest = some q ∧ (s.player q).state ≠ .dead ∧
        real (pos.dist (s.player q).pos) ≤ real limit ∧
        ∀ q' ∈ qs, (s.player q').state ≠ .dead → real (pos.dist (s.player q).pos) ≤ real
          (pos.dist (s.player q').pos) := by
  induction qs generalizing limit closest with
  | nil => exact Or.inl ⟨rfl, nofun⟩
  | cons q qs ih =>
    unfold closestPlayer
    dsimp only
    split_ifs with hq
    · obtain ⟨halive, hle⟩ := hq
      rw [ExactMachine.le_iff] at hle
      rcases ih (pos.dist (s.player q).pos) (some q) with ⟨hsame, hfar⟩ |
          ⟨q', hq', hfound, halive', hle', hmin⟩
      · refine Or.inr ⟨q, List.mem_cons_self, hsame, halive, hle, fun q' hq' halive' => ?_⟩
        rcases List.mem_cons.mp hq' with rfl | hq'
        · exact le_rfl
        · exact (hfar q' hq' halive').le
      · refine Or.inr ⟨q', List.mem_cons_of_mem _ hq', hfound, halive', hle'.trans hle,
          fun q'' hq'' halive'' => ?_⟩
        rcases List.mem_cons.mp hq'' with rfl | hq''
        · exact hle'
        · exact hmin q'' hq'' halive''
    · have hfar : (s.player q).state ≠ .dead → real limit < real (pos.dist (s.player q).pos) := by
        intro halive
        rw [← not_le, ← ExactMachine.le_iff]
        exact fun hle => hq ⟨halive, hle⟩
      rcases ih limit closest with ⟨hsame, hfars⟩ | ⟨q', hq', hfound, halive', hle', hmin⟩
      · refine Or.inl ⟨hsame, fun q' hq' halive' => ?_⟩
        rcases List.mem_cons.mp hq' with rfl | hq'
        · exact hfar halive'
        · exact hfars q' hq' halive'
      · refine Or.inr ⟨q', List.mem_cons_of_mem _ hq', hfound, halive', hle',
          fun q'' hq'' halive'' => ?_⟩
        rcases List.mem_cons.mp hq'' with rfl | hq''
        · exact hle'.trans (hfar halive'').le
        · exact hmin q'' hq'' halive''

/-- The search misses everybody, or it finds one of the closest that are registered in the block. -/
theorem struck_spec (hs : Index s) :
    struck s m = none ∧ (∀ q, InRange s m q → (s.player q).currentSector ∉ m.sector.around) ∨
      ∃ q, struck s m = some q ∧ InRange s m q ∧ (s.player q).currentSector ∈ m.sector.around ∧
        ∀ q', InRange s m q' → (s.player q').currentSector ∈ m.sector.around →
          le (m.pos.dist (s.player q).pos) (m.pos.dist (s.player q').pos) = true := by
  unfold struck
  rcases closestPlayer_spec (s := s) m.pos
    (s.near m.sector.around) Monster.MONSTER_ATTACK_RANGE none with
    ⟨hnone, hfar⟩ | ⟨q, hq, hfound, halive, hle, hmin⟩
  · refine Or.inl ⟨hnone, fun q hq hcell => ?_⟩
    have hlt := hfar q (hs.mem_near.mpr ⟨hq.1, hcell⟩) hq.2.1
    exact absurd ((ExactMachine.le_iff _ _).mp hq.2.2) (not_le.mpr hlt)
  · obtain ⟨hplayer, hcell⟩ := hs.mem_near.mp hq
    refine Or.inr ⟨q, hfound, ⟨hplayer, halive, (ExactMachine.le_iff _ _).mpr hle⟩, hcell,
      fun q' hq' hcell' => ?_⟩
    exact (ExactMachine.le_iff _ _).mpr (hmin q' (hs.mem_near.mpr ⟨hq'.1, hcell'⟩) hq'.2.1)

theorem damages_unique {q' : ℕ} (h : Damages s m t q) (h' : Damages s m t q') : q = q' := by
  obtain ⟨p, -, -, hq⟩ := h
  obtain ⟨p', -, -, hq'⟩ := h'
  rw [hq] at hq'
  have hlast := List.append_cancel_left hq'
  cases hlast
  rfl

theorem Damages.ne (h : Damages s m t q) : t ≠ s := by
  rintro rfl
  obtain ⟨p, -, -, hq⟩ := h
  have hlength := congrArg List.length hq
  simp at hlength

/-- The hit is that of a search through all players if and only if one of the closest is registered
in the block. -/
theorem accurate_iff (hs : Index s) (h : processMonsterAttackHit s m = .ok t) : Accurate s m t ↔
    Visited s m := by
  rcases processMonsterAttackHit_struck h with ⟨hnone, rfl⟩ | ⟨q, hq, hdamages⟩
  · rcases struck_spec (m := m) hs with ⟨-, hmissed⟩ | ⟨q, hq, -⟩
    · constructor
      · exact fun hacc hex => (hacc.nobody.mp rfl _ hex.choose_spec).elim
      · intro hvisited
        have hnobody : ∀ q, ¬InRange t m q := fun q hq => by
          obtain ⟨q', hq', hcell⟩ := hvisited ⟨q, hq⟩
          exact hmissed q' hq'.1 hcell
        exact ⟨fun q hq => absurd rfl hq.ne, fun _ => hnobody, fun _ => rfl⟩
    · rw [hnone] at hq
      cases hq
  · rcases struck_spec (m := m) hs with ⟨hnone, -⟩ | ⟨q', hq', hrange, hcell, hmin⟩
    · rw [hnone] at hq
      cases hq
    · rw [hq] at hq'
      cases hq'
      constructor
      · exact fun hacc _ => ⟨q, hacc.damages q hdamages, hcell⟩
      · intro hvisited
        refine ⟨fun q' hq' => ?_, fun ht => absurd ht hdamages.ne,
          fun hnobody => absurd hrange (hnobody q)⟩
        obtain rfl := damages_unique hdamages hq'
        obtain ⟨q₀, hnearest, hcell₀⟩ := hvisited ⟨q, hrange⟩
        have hle := (ExactMachine.le_iff _ _).mp (hmin q₀ hnearest.1 hcell₀)
        refine ⟨hrange, fun q' hq' => ?_⟩
        exact (ExactMachine.le_iff _ _).mpr
          (hle.trans ((ExactMachine.le_iff _ _).mp (hnearest.2 q' hq')))

end

/-! ### How far a player drifts from its cell -/

/-- How often `q` has been hit in the tick so far. -/
def hits {F : Type} (s : State F) (q : ℕ) : ℕ :=
  (s.history.reverse.takeWhile fun e => e ≠ .fieldUpdate).count (.damaged q)

section

variable {F : Type} {s t : State F} {q : ℕ}

theorem hits_append {es : List Event} (h : t.history = s.history ++ es) (hes : .fieldUpdate ∉ es) :
    hits t q = hits s q + es.count (.damaged q) := by
  unfold hits
  rw [h, List.reverse_append, List.takeWhile_append_of_pos, List.count_append, List.count_reverse,
    Nat.add_comm]
  intro e he
  rw [decide_eq_true_iff]
  rintro rfl
  exact hes (List.mem_reverse.mp he)

end

section

variable {F : Type} [ExactMachine F] {s t u v : State F} {m : Monster F} {p p' : Player F}
    {q : ℕ} {id : ℤ}

/-- A row of `kDirectionVectorTable` is no longer than 1 on each axis. -/
theorem directionVector_le {direction : ℤ} (h : Direction.Valid direction) :
    |real (directionVector direction : F × F).1| ≤ 1 ∧
      |real (directionVector direction : F × F).2| ≤ 1 := by
  have hmem := directionVector_mem (F := F) h
  generalize (directionVector direction : F × F) = v at hmem
  have hlit : ∀ x : ℚ, |x| ≤ 1 → |real (lit x : F)| ≤ 1 := by
    intro x hx
    rw [ExactMachine.real_lit]
    exact_mod_cast hx
  simp only [kDirectionVectorTable, List.mem_cons, List.not_mem_nil, or_false] at hmem
  rcases hmem with rfl | rfl | rfl | rfl | rfl | rfl | rfl |
      rfl <;> exact ⟨hlit _ (by norm_num), hlit _ (by norm_num)⟩

/-- A hit takes a player no farther than the knockback. -/
theorem knockback_le (hm : Direction.Valid m.direction) {damage : ℤ}
    (h : p.takeDamage damage m = .ok p') :
    |p.pos.inX - p'.pos.inX| ≤ 100 ∧ |p.pos.inY - p'.pos.inY| ≤ 100 := by
  obtain ⟨hx, hy⟩ := directionVector_le (F := F) hm
  have hpushed : ∀ x v : F, |real v| ≤ 1 →
      |real x - real (x + v * PLAYER_ATTACK_KNOCKBACK_DIST)| ≤ 100 := by
    intro x v hv
    rw [ExactMachine.real_add, ExactMachine.real_mul,
      show real (PLAYER_ATTACK_KNOCKBACK_DIST : F) = 100 by
      unfold PLAYER_ATTACK_KNOCKBACK_DIST; rw [ExactMachine.real_lit]; norm_num]
    rw [sub_add_cancel_left, abs_neg, abs_mul, abs_of_nonneg (show (0 : ℝ) ≤ 100 by norm_num)]
    linarith
  have hclamped : p'.pos = .clamp
      (p.pos.x + (directionVector m.direction : F × F).1 * PLAYER_ATTACK_KNOCKBACK_DIST) (p.pos.y +
      (directionVector m.direction : F × F).2 * PLAYER_ATTACK_KNOCKBACK_DIST) ∨ p' = p := by
    unfold Player.takeDamage at h
    dsimp only at h
    split_ifs at h
    · cases h
      exact Or.inr rfl
    · rw [(changeState_eq h).2]
      exact Or.inl rfl
    · cases h
      exact Or.inl rfl
    · rw [(changeState_eq h).2]
      exact Or.inl rfl
  rcases hclamped with hpos | rfl
  · rw [hpos, (clamp_in _ _).1, (clamp_in _ _).2]
    exact ⟨(Grid.abs_keep_sub_le (by norm_num) _ _).trans (hpushed _ _ hx),
      (Grid.abs_keep_sub_le (by norm_num) _ _).trans (hpushed _ _ hy)⟩
  · simp

/-- `q` is registered where it stood, and has been knocked away from there as often as it has been
hit. -/
def Drifted (q : ℕ) (s : State F) : Prop :=
  ∃ start : Position F, (s.player q).currentSector = calcSector start ∧
    |start.inX - (s.player q).pos.inX| ≤ (100 * hits s q : ℕ) ∧
      |start.inY - (s.player q).pos.inY| ≤ (100 * hits s q : ℕ)

theorem Drifted.same (h : Drifted q s) (hplayer : t.player q = s.player q)
    (hhits : hits s q ≤ hits t q) : Drifted q t := by
  obtain ⟨start, hsector, hx, hy⟩ := h
  have hcast : ((100 * hits s q : ℕ) : ℝ) ≤ (100 * hits t q : ℕ) :=
    Nat.cast_le.mpr (Nat.mul_le_mul_left 100 hhits)
  refine ⟨start, ?_, ?_, ?_⟩ <;> rw [hplayer]
  · exact hsector
  · exact hx.trans hcast
  · exact hy.trans hcast

theorem Drifted.hit (h : Drifted q s) (hm : Direction.Valid m.direction)
    (hp : (s.player q).takeDamage MONSTER_ATTACK_DAMAGE m = .ok p) (hplayer : t.player q = p)
    (hhits : hits t q = hits s q + 1) :
    Drifted q t := by
  obtain ⟨start, hsector, hx, hy⟩ := h
  obtain ⟨hx', hy'⟩ := knockback_le hm hp
  refine ⟨start, ?_, ?_, ?_⟩ <;> rw [hplayer]
  · rw [takeDamage_eq hp]
    exact hsector
  · rw [hhits, Nat.mul_succ, Nat.cast_add, Nat.cast_ofNat]
    have htriangle := abs_sub_le start.inX (s.player q).pos.inX p.pos.inX
    linarith
  · rw [hhits, Nat.mul_succ, Nat.cast_add, Nat.cast_ofNat]
    have htriangle := abs_sub_le start.inY (s.player q).pos.inY p.pos.inY
    linarith

/-- A monster's turn in the third loop. -/
theorem Drifted.updateMonster (h : Drifted q u) (hm : Direction.Valid (u.monster id).direction)
    (he : updateMonster u id = .ok v) : Drifted q v := by
  obtain ⟨m, rands, hnext, w, rfl, hw⟩ := updateMonster_next he
  have hdirection := nextMonster_direction hm hnext
  have hticked : hits (u.ticked id m rands) q = hits u q :=
    hits_append (t := u.ticked id m rands) rfl (by simp)
  have hstart : Drifted q (u.ticked id m rands) := h.same rfl hticked.ge
  have hset : hits (w.setMonster id (updateMonsterSectorCheck m)) q = hits w q := rfl
  rcases hw with ⟨-, -, hw⟩ | ⟨-, rfl⟩
  · rcases processMonsterAttackHit_struck hw with ⟨-, rfl⟩ | ⟨q', -, p, hp, hplayer, hhistory⟩
    · exact hstart.same rfl le_rfl
    · have hhits := hits_append (q := q) hhistory (by simp)
      by_cases hq : q = q'
      · subst hq
        refine hstart.hit hdirection hp ?_ ?_
        · change w.player q = p
          rw [hplayer, Function.update_self]
        · rw [hset, hhits, List.count_singleton_self]
      · refine hstart.same ?_ ?_
        · change w.player q = (u.ticked id m rands).player q
          rw [hplayer, Function.update_of_ne hq]
        · rw [hset, hhits]
          exact Nat.le_add_right _ _
  · exact hstart.same rfl le_rfl

end

/-! ### Where a player is registered -/

section

variable {F : Type} [Machine F] {s s1 s2 t : State F} {q : ℕ}

/-- Who was where it was to be, is to be where it stands. -/
theorem updatePlayer_dest (hstill : (s.player q).destSector = (s.player q).currentSector)
    (h : updatePlayer s q = .ok t) :
    (t.player q).destSector = calcSector (t.player q).pos := by
  obtain ⟨p, targets, u, hp, hu, rfl⟩ := updatePlayer_check h
  have hstill' : (u.player q).destSector = (u.player q).currentSector := by
    rw [hu.self, update_eq hp]
    exact hstill
  unfold updateSectorChechk
  dsimp only
  split_ifs with hsame
  · rw [hstill', hsame]
  · change (Function.update u.player q _ q).destSector =
      calcSector (Function.update u.player q _ q).pos
    rw [Function.update_self]

/-- The first two loops of `fieldUpdate` register every player where it stands. -/
theorem players_registered (hs : Sound s) (hstill : Still s)
    (h1 : s.players.foldlM updatePlayer (s.record .fieldUpdate) = .ok s1)
    (h2 : s1.players.foldlM updateSector s1 = .ok s2) :
    ∀ q ∈ s2.players, (s2.player q).currentSector = calcSector (s2.player q).pos := by
  have hnd := hs.players.cells.nodup
  have hloop1 := foldlM_each (s := s.record .fieldUpdate) (I := fun u : State F => u.players =
    s.players) (A := fun u q => (u.player q).destSector = (u.player q).currentSector)
    (B := fun u q => (u.player q).destSector = calcSector (u.player q).pos) hnd ?_ rfl hstill h1
  · rw [← hloop1.1] at hnd
    have hloop2 := foldlM_each (I := fun u : State F => u.players = s1.players)
      (A := fun u q => (u.player q).destSector = calcSector (u.player q).pos)
      (B := fun u q => (u.player q).currentSector = calcSector (u.player q).pos) hnd ?_ rfl ?_ h2
    · intro q hq
      rw [hloop2.1] at hq
      exact hloop2.2 q hq
    · intro u v q _ hu hdest hv
      have hrewrites := updateSector_player hv
      refine ⟨hrewrites.players.trans hu, ?_, fun q' _ hne => ?_⟩
      · rw [hrewrites.self]
        exact hdest
      · rw [hrewrites.of_ne hne]
        exact ⟨fun h => h, fun h => h⟩
    · intro q hq
      rw [hloop1.1] at hq
      exact hloop1.2 q hq
  · intro u v q _ hu hstay hv
    obtain ⟨p, targets, destSector, -, hrewrites⟩ := updatePlayer_self hv
    refine ⟨hrewrites.players.trans hu, updatePlayer_dest hstay hv, fun q' _ hne => ?_⟩
    rw [hrewrites.of_ne hne]
    exact ⟨fun h => h, fun h => h⟩

/-- An attack begins with its first frame. -/
theorem chaseUpdate_attack {m m' : Monster F} {target : Position F}
    (h : m.chaseUpdate target = .ok m') (hm : m.state = .chase) (hm' : m'.state = .attack) :
    m'.animFrame = 0 := by
  unfold Monster.chaseUpdate at h
  dsimp only at h
  split_ifs at h
  · rcases giveUpChase_state h with he | he <;> rw [he] at hm' <;> cases hm'
  · rw [(monster_changeState_eq h).2]
  · cases h
    rfl
  · cases h
    rw [moveUpdate_state, hm] at hm'
    cases hm'

/-- Who attacks in a later frame than the first attacked before. -/
theorem nextMonster_attack {id : ℤ} {m : Monster F} {rands : Rands}
    (h : nextMonster s id = .ok (m, rands)) (hstate : m.state = .attack)
    (hframe : m.animFrame ≠ 0) : (s.monster id).state = .attack ∧ m.pos = (s.monster id).pos := by
  have hnext := nextMonster_next h
  rw [hstate] at hnext
  have hbefore : (s.monster id).state = .chase ∨ (s.monster id).state = .attack := by
    generalize (s.monster id).state = state at hnext
    revert hnext
    cases state <;> decide
  rcases hbefore with hchase | hattack
  · unfold nextMonster at h
    dsimp only at h
    rw [if_pos hchase] at h
    split at h
    · obtain ⟨m1, h1, h⟩ := bind_ok h
      cases h1
      unfold Monster.update at h
      dsimp only at h
      rw [hchase] at h
      obtain ⟨m2, h2, h⟩ := bind_ok h
      cases h
      exact absurd (chaseUpdate_attack h2 rfl hstate) hframe
    · obtain ⟨m1, h1, h⟩ := bind_ok h
      have hupdate := update_next h
      rw [hstate] at hupdate
      rcases giveUpChase_state h1 with he |
          he <;> rw [he] at hupdate <;> exact absurd hupdate (by decide)
  · have hupdate := nextMonster_update h (by rw [hattack]; decide)
    unfold Monster.update at hupdate
    dsimp only at hupdate
    rw [hattack] at hupdate
    obtain ⟨m1, h1, hupdate⟩ := bind_ok hupdate
    cases hupdate
    rcases attackUpdate_cases h1 with rfl | ⟨he, -⟩
    · exact ⟨hattack, rfl⟩
    · rw [he] at hstate
      cases hstate

/-- The monster that hits is registered where it stands: it has not moved since its attack began. -/
theorem attacker_registered {id : ℤ} {m : Monster F} {rands : Rands} (h : (s.monster id).AtRest)
    (hm : nextMonster s id = .ok (m, rands)) (hstate : m.state = .attack)
    (hframe : m.animFrame = MONSTER_ATTACK_WINDUP_FRAME) :
    m.sector = calcSector m.pos := by
  obtain ⟨hattack, hpos⟩ := nextMonster_attack hm hstate (by rw [hframe]; decide)
  have hsector : m.sector = (s.monster id).sector := by rw [nextMonster_eq hm]
  rw [hsector, hpos]
  rcases h with hdead | ⟨-, hcalc | ⟨hstun, -⟩ | ⟨hidle, -⟩⟩
  · rw [hdead] at hattack
    cases hattack
  · exact hcalc.symm
  · rw [hstun] at hattack
    cases hattack
  · rw [hidle] at hattack
    cases hattack

end

/-! ### The third loop -/

section

variable {F : Type} [Machine F]

/-- In the tick that begins in `s`, the monster `id` has its turn in `u`, behind the monsters
`done`. -/
def HasTurn (s : State F) (done : List ℤ) (id : ℤ) (u : State F) : Prop :=
  ∃ s1 s2 todo, s.players.foldlM updatePlayer (s.record .fieldUpdate) = .ok s1 ∧
    s1.players.foldlM updateSector s1 = .ok s2 ∧
    s2.monsters = done ++ id :: todo ∧ done.foldlM updateMonster s2 = .ok u

/-- In the tick that begins in `s`, the attack of the monster `m` hits in `u`. -/
def Swings (s u : State F) (m : Monster F) : Prop :=
  ∃ done id w rands, HasTurn s done id w ∧ nextMonster w id = .ok (m, rands) ∧
    u = w.ticked id m rands ∧ m.state = .attack ∧
    m.animFrame = MONSTER_ATTACK_WINDUP_FRAME

/-- The hit of the monster `id` in the tick that begins in `s`: where it begins, the monster, and
where it leads. -/
def swing (s : State F) (done : List ℤ) (id : ℤ) : Option (State F × Monster F × State F) := do
  let s1 ← (s.players.foldlM updatePlayer (s.record .fieldUpdate)).toOption
  let s2 ← (s1.players.foldlM updateSector s1).toOption
  let w ← (done.foldlM updateMonster s2).toOption
  let (m, rands) ← (nextMonster w id).toOption
  let t ← (processMonsterAttackHit (w.ticked id m rands) m).toOption
  guard (s2.monsters = done ++ id :: s2.monsters.drop (done.length + 1) ∧ m.state = .attack ∧
    m.animFrame = MONSTER_ATTACK_WINDUP_FRAME)
  return (w.ticked id m rands, m, t)

theorem swing_swings {s u t : State F} {m : Monster F} {done : List ℤ} {id : ℤ}
    (h : swing s done id = some (u, m, t)) :
    Swings s u m ∧ processMonsterAttackHit u m = .ok t := by
  unfold swing at h
  simp only [Option.bind_eq_bind, Option.bind_eq_some_iff] at h
  obtain ⟨s1, h1, s2, h2, w, hw, ⟨m', rands⟩, hm, t', ht, ⟨⟩, hguard, h⟩ := h
  obtain ⟨hmonsters, hstate, hframe⟩ := (Option.guard_eq_some' _).mp hguard
  cases h
  exact ⟨⟨done, id, w, rands, ⟨s1, s2, _, toOption_ok h1, toOption_ok h2, hmonsters,
    toOption_ok hw⟩, toOption_ok hm, rfl, hstate, hframe⟩, toOption_ok ht⟩

end

section

variable {F : Type} [ExactMachine F] {s u : State F} {m : Monster F} {id : ℤ} {done : List ℤ}

/-- What a monster's turn finds. -/
structure Midloop (s : State F) (id : ℤ) (u : State F) : Prop where
  along : Along s u
  headed : Headed u
  rest : Rest id u
  drifted : ∀ q ∈ u.players, Drifted q u

theorem headed_updateMonster {v : State F} (h : Headed u) {id : ℤ} (hid : id ∈ u.monsters)
    (he : updateMonster u id = .ok v) :
    Headed v := by
  obtain ⟨m, rands, hm, hreplies⟩ := updateMonster_cases he
  exact hreplies.spares.headed (MonsterAct.headed (.update m rands hid hm) h)

theorem updateMonster_players {v : State F} {id : ℤ} (he : updateMonster u id = .ok v) :
    v.players = u.players := by
  rcases updateMonster_player he with hsame | ⟨_, _, _, _, -, -, -, -, -, hrewrites⟩
  · exact hsame.players
  · exact hrewrites.players

theorem midloop (hs : Rested s) (hheaded : Headed s) (hstill : Still s) (h : HasTurn s done id u) :
    ∃ s2, Midloop s2 id u ∧
    id ∈ s2.monsters := by
  obtain ⟨s1, s2, todo, h1, h2, hmonsters, h3⟩ := h
  have hrest := hs.playerLoops h1 h2
  have hnd := hrest.sound.monsters.cells.nodup
  rw [hmonsters] at hnd
  obtain ⟨hdone, -, hnew⟩ := List.nodup_append'.mp hnd
  have hin : ∀ id' ∈ done ++ id :: todo, id' ∈ s2.monsters := fun id' hid' => hmonsters ▸ hid'
  have hid := hin id (List.mem_append_right _ List.mem_cons_self)
  have hheaded1 : Headed s1 :=
    Ticks.headed (ticks_updatePlayers (s := s.record .fieldUpdate) h1).1 hheaded
  have hheaded2 : Headed s2 := (acts_updateSectors h2).1.calms.ticks.headed hheaded1
  have hregistered := players_registered hs.sound hstill h1 h2
  have hstart : Midloop s2 id s2 := by
    refine ⟨.refl hrest.sound, hheaded2, hrest.rest id hid,
      fun q hq => ⟨(s2.player q).pos, hregistered q hq, ?_, ?_⟩⟩
    · rw [sub_self, abs_zero]
      positivity
    · rw [sub_self, abs_zero]
      positivity
  refine ⟨s2,
    (foldlM_each (I := Midloop s2 id) (A := fun u id' => Rest id' u) (B := fun _ _ => True) hdone ?_
    hstart (fun id' hid' => hrest.rest id' (hin id' (List.mem_append_left _ hid'))) h3).1, hid⟩
  intro u v id' hid' hu hrest' hv
  have hids := hin id' (List.mem_append_left _ hid')
  have hidu : id' ∈ u.monsters := by
    rw [hu.along.monsters]
    exact hids
  have hne : id ≠ id' := by
    rintro rfl
    exact hnew hid' List.mem_cons_self
  obtain ⟨-, hothers⟩ := hrest'.tick hv
  refine ⟨⟨updateMonster_along hu.along hids hv hothers, headed_updateMonster hu.headed hidu hv,
    hu.rest.untouched (hothers id hne), fun q hq => ?_⟩, trivial, fun id'' _ hne' =>
      ⟨fun hrest'' => hrest''.untouched (hothers id'' hne'), fun h => h⟩⟩
  rw [updateMonster_players hv] at hq
  exact (hu.drifted q hq).updateMonster (hu.headed id' hidu) hv

/-- Who has been hit no more than once in the tick is registered in the block around the monster in
whose range it stands. -/
theorem Drifted.visited {q : ℕ} (h : Drifted q s) (hhits : hits s q ≤ 1) (hrange : InRange s m q)
    (hm : m.sector = calcSector m.pos) :
    (s.player q).currentSector ∈ m.sector.around := by
  obtain ⟨start, hsector, hx, hy⟩ := h
  obtain ⟨hx', hy'⟩ := near_axes hrange.2.2
  have hcast : ((100 * hits s q : ℕ) : ℝ) ≤ (100 : ℕ) := Nat.cast_le.mpr (by omega)
  rw [hsector, hm]
  apply mem_around_of_near
  · have htriangle := abs_sub_le start.inX (s.player q).pos.inX m.pos.inX
    rw [abs_sub_comm (s.player q).pos.inX] at htriangle
    have hmoved := hx.trans hcast
    norm_num at hx' hmoved
    linarith
  · have htriangle := abs_sub_le start.inY (s.player q).pos.inY m.pos.inY
    rw [abs_sub_comm (s.player q).pos.inY] at htriangle
    have hmoved := hy.trans hcast
    norm_num at hy' hmoved
    linarith

/-- Among those in range there is a closest one. -/
theorem exists_nearest {q : ℕ} (h : InRange s m q) : ∃ q', Nearest s m q' := by
  classical
  have hmem : ∀ q', q' ∈ s.players.toFinset.filter (InRange s m) ↔ InRange s m q' := by
    intro q'
    rw [Finset.mem_filter, List.mem_toFinset, and_iff_right_iff_imp]
    exact And.left
  obtain ⟨q', hq', hmin⟩ := Finset.exists_min_image (s.players.toFinset.filter (InRange s m))
    (fun q' => real (m.pos.dist (s.player q').pos)) ⟨q, (hmem q).mpr h⟩
  exact ⟨q', (hmem q').mp hq',
    fun q'' hq'' => (ExactMachine.le_iff _ _).mpr (hmin q'' ((hmem q'').mpr hq''))⟩

end

/-! ### Runs -/

section

variable {F : Type} [ExactMachine F] {s t u : State F} {m : Monster F}

theorem headed_reachable (h : field.Reachable s) : Headed s := by
  refine (field_invariant (P := Headed) headed_spawnMonsters (fun _ hs ha => ha.headed hs)
    (fun _ hs ha => ha.headed hs) (fun _ hs ha => ?_) (fun _ hs ha => ?_) (fun _ hs => hs)
    (fun _ hs => hs) (fun _ hs _ => hs) h).2
  · cases ha <;> exact hs
  · cases ha <;> exact hs

/-- The hit of a monster is that of a search through all players if and only if there is nobody in
range or one of the closest is registered in the block around the monster; and that is so when
nobody in range has been hit twice before in the tick. -/
theorem pruned {c : Phase × State F} (h : fieldThread.Reachable c) (hphase : c.1 = .messages)
    (hswing : Swings c.2 u m) (hhit : processMonsterAttackHit u m = .ok t) :
    (Accurate u m t ↔ Visited u m) ∧ ((∀ q, InRange u m q → hits u q ≤ 1) → Accurate u m t) := by
  obtain ⟨done, id, w, rands, hturn, hm, rfl, hstate, hframe⟩ := hswing
  have hreachable := fieldThread_reachable h
  have hinv := phase_inv h
  rw [hphase] at hinv
  obtain ⟨s2, hmid, hid⟩ :=
    midloop hinv (headed_reachable hreachable) (still_reachable hreachable) hturn
  have hindex : Index (w.ticked id m rands) :=
    hmid.along.sound.players.of_sent rfl rfl rfl rfl (List.append_nil _).symm nofun
  have hvisited := accurate_iff hindex hhit
  refine ⟨hvisited, fun honce => hvisited.mpr ?_⟩
  rintro ⟨q, hq⟩
  obtain ⟨q', hnearest⟩ := exists_nearest hq
  have hticked : hits (w.ticked id m rands) q' = hits w q' :=
    hits_append (t := w.ticked id m rands) rfl (by simp)
  have hdrifted : Drifted q' (w.ticked id m rands) :=
    (hmid.drifted q' hnearest.1.1).same rfl hticked.ge
  exact ⟨q', hnearest, hdrifted.visited (honce q' hnearest.1) hnearest.1
    (attacker_registered hmid.rest.place hm hstate hframe)⟩

end

/-! ### Two hits in a tick -/

/-- Monsters at (319, 160), (319, 385) and (320, 475). -/
def threeMonsters : State ℚ := spawnMonsters (empty fun n =>
  if n = 0 then 1 else if n = 1 then 319 else if n = 2 then 160
  else if n = 22 then 1 else if n = 23 then 319 else if n = 24 then 25
  else if n = 25 then 1 else if n = 26 then 0 else if n = 27 then 210
  else if n < 406 then 0 else 1)

/-- ATTACK_REQ of the monster `id`. -/
def attackMonsterMsg (id : UInt8) : Message := packet [113, 0, 0, 1, 0, id, 0, 0, 0, 0, 0, 0, 0]

/-- Each of three players attacks a monster, and all three strike back in the same tick. -/
def threeStrikes : List (Step ℚ) :=
  [.rehashMonsters [0, 1, 2], .registerPlayer 1 7 11 ⟨319, 230⟩ [],
    .registerPlayer 2 8 12 ⟨319, 335⟩ [], .registerPlayer 3 9 13 ⟨320, 523⟩ []] ++
    pass [.contentsPacket 1 (attackMonsterMsg 0), .contentsPacket 2 (attackMonsterMsg 1),
    .contentsPacket 3 (attackMonsterMsg 2)] ++ (List.replicate 78 (pass [])).flatten

theorem threeStrikes_swings : ∃ c : Phase × State ℚ, fieldThread.Reachable c ∧ c.1 = .messages ∧
    (∃ u m t, swing c.2 [] 0 = some (u, m, t) ∧ InRange u m 1 ∧ ∀ q ∈ u.players, hits u q ≤ 1) ∧
    ∃ u m t, swing c.2 [0, 1] 2 = some (u, m, t) ∧ InRange u m 1 ∧ t.history.getLast? = some
        (.damaged 3) ∧
      le (m.pos.dist (u.player 3).pos) (m.pos.dist (u.player 1).pos) = false := by
  have hrun : (fieldThread.exec (Phase.messages, threeMonsters) threeStrikes).any
      (fun c => c.1 = .messages ∧
      (swing c.2 [] 0).any (fun (u, m, _) => InRange u m 1 ∧ ∀ q ∈ u.players, hits u q ≤ 1) ∧
      (swing c.2 [0, 1] 2).any (fun (u, m, t) => InRange u m 1 ∧
          t.history.getLast? = some (.damaged 3) ∧
        le (m.pos.dist (u.player 3).pos) (m.pos.dist (u.player 1).pos) = false)) = true := by
    decide +kernel
  obtain ⟨c, hc, hp⟩ := (Option.any_eq_true _ _).mp hrun
  obtain ⟨hphase, hfirst, hlast⟩ := of_decide_eq_true hp
  obtain ⟨⟨u, m, t⟩, hswing, hfirst⟩ := (Option.any_eq_true _ _).mp hfirst
  obtain ⟨⟨u', m', t'⟩, hswing', hlast⟩ := (Option.any_eq_true _ _).mp hlast
  exact ⟨c, .exec _ (.start (fieldThread_init ⟨_, rfl⟩)) hc, hphase,
    ⟨u, m, t, hswing, of_decide_eq_true hfirst⟩, ⟨u', m', t', hswing', of_decide_eq_true hlast⟩⟩

/-- The first of the three hits is accurate. -/
theorem pruned_threeStrikes : ∃ u t : State ℚ, ∃ m : Monster ℚ, InRange u m 1 ∧ Accurate u m t := by
  obtain ⟨c, hc, hphase, ⟨u, m, t, hswing, hrange, honce⟩, -⟩ := threeStrikes_swings
  obtain ⟨hswings, hhit⟩ := swing_swings hswing
  exact ⟨u, t, m, hrange, (pruned hc hphase hswings hhit).2 fun q hq => honce q hq.1⟩

/-- The third overlooks session 1, which the two before have knocked over a row of sectors, and hits
session 3 behind it. -/
theorem overlooks : ¬ ∀ (c : Phase × State ℚ) (u t : State ℚ) (m : Monster ℚ),
    fieldThread.Reachable c → c.1 = .messages →
    Swings c.2 u m → processMonsterAttackHit u m = .ok t → Accurate u m t := by
  intro hall
  obtain ⟨c, hc, hphase, -, u, m, t, hswing, hrange, hlast, hfar⟩ := threeStrikes_swings
  obtain ⟨hswings, hhit⟩ := swing_swings hswing
  have hacc := hall c u t m hc hphase hswings hhit
  rcases processMonsterAttackHit_struck hhit with ⟨-, rfl⟩ | ⟨q, -, hdamages⟩
  · exact hacc.nobody.mp rfl 1 hrange
  · have hnearest := hacc.damages q hdamages
    obtain ⟨p, -, -, hhistory⟩ := hdamages
    rw [hhistory, List.getLast?_append_of_ne_nil _ (List.cons_ne_nil _ _)] at hlast
    cases hlast
    rw [hnearest.2 1 hrange] at hfar
    cases hfar

end Field
end MyMMO
