/-
# The states of monsters and players

`Monster::Update`, `giveUpChase` and `takeDamage` never come to `changeState` with the state the
monster is in, a monster is dead exactly while its `mHp` is 0, and it leaves `Dead` in the
MONSTER_RESPAWN_FRAME-th update after its death only, with all of its HP where it was spawned
(`monster_sound`). The same holds of a player under `update`, `takeDamage` and its packets, but that
it stays dead (`player_sound`).
-/
import MyMMO.Players

namespace MyMMO
namespace Field

open Machine Outcome
open Sector (getAroundSectors)

/-- What the assertion of `changeState` says. -/
def Stop.changeState : Stop := .myAssert "상태 전이 실패"

/-! ### Monsters -/

/-- What happens to a monster: `Update`, `giveUpChase` of the field while it chases, another target,
a hit. -/
inductive MonsterOp (F : Type)
  | update (rands : Rands)
  | giveUpChase
  | target (targetPlayerID : Option ℕ) (targetPos : Position F)
  | takeDamage (damage : ℤ) (attacker : Player F) (attackerId : ℕ)

def MonsterOp.isUpdate {F : Type} : MonsterOp F → Bool
  | .update _ => true
  | _ => false

/-- A monster, and how many times `Update` has run since it died last. -/
structure Life (F : Type) where
  monster : Monster F
  updates : ℕ

section

variable {F : Type} [Machine F]

def Monster.apply (m : Monster F) : MonsterOp F → Option (Except Stop (Monster F))
  | .update rands => some ((m.update rands).map Prod.fst)
  | .giveUpChase => if m.state = .chase then some m.giveUpChase else none
  | .target targetPlayerID targetPos => some (return { m with targetPlayerID, targetPos })
  | .takeDamage damage attacker attackerId =>
      if 0 < damage then some (m.takeDamage damage attacker attackerId) else none

/-- The updates since the death, in the step from `l` to `m`. -/
def Life.count (l : Life F) (op : MonsterOp F) (m : Monster F) : ℕ :=
  if m.state = .dead ∧ l.monster.state ≠ .dead then 0 else if op.isUpdate then l.updates + 1
    else l.updates

def lives : System (Life F) (MonsterOp F) where
  init l := ∃ monsterID pos monsterType, l = ⟨.new monsterID pos monsterType, 0⟩
  next l op := match l.monster.apply op with
    | some (.ok m) => some ⟨m, l.count op m⟩
    | _ => none

/-- Nothing that happens to the monster fails, it is dead when it has no HP, and how it leaves
`Dead`. -/
structure Monster.Sound (l : Life F) : Prop where
  runs : ∀ op r, l.monster.apply op = some r → ∃ m, r = .ok m
  hp : 0 ≤ l.monster.hp ∧ l.monster.hp ≤ l.monster.maxHp
  dead : l.monster.state = .dead ↔ l.monster.hp = 0
  respawn : l.monster.state = .dead → ∀ op m, l.monster.apply op = some (.ok m) → m.state ≠ .dead →
    op.isUpdate = true ∧ l.updates + 1 = MONSTER_RESPAWN_FRAME ∧ m.hp = m.maxHp ∧
      m.pos = l.monster.spawnPos
  wake : l.monster.state = .dead → ∀ rands m, l.monster.apply (.update rands) = some (.ok m) →
    l.updates + 1 = MONSTER_RESPAWN_FRAME → m.state ≠ .dead

/-- What the operations keep. -/
structure Monster.Sane (m : Monster F) : Prop where
  max : 0 < m.maxHp
  hp : 0 ≤ m.hp ∧ m.hp ≤ m.maxHp
  dead : m.state = .dead ↔ m.hp = 0

/-- Alive as before. -/
structure Monster.Goes (m m' : Monster F) : Prop where
  maxHp : m'.maxHp = m.maxHp
  hp : m'.hp = m.hp
  alive : m'.state ≠ .dead

variable {m : Monster F}

omit [Machine F] in
theorem monster_changeState_ok {state : MonsterState} (h : state ≠ m.state) :
    m.changeState state = .ok { m with state, animFrame := 0, startMovePos := m.pos } := by
  unfold Monster.changeState
  rw [myAssert_true (decide_eq_true h)]
  rfl

omit [Machine F] in
/-- A transition into another state than `Dead`. -/
theorem goes_changeState {state : MonsterState} (h : state ≠ m.state) (hne : state ≠ .dead) :
    ∃ m', m.changeState state = .ok m' ∧ m.Goes m' := ⟨_, monster_changeState_ok h, rfl, rfl, hne⟩

theorem goes_giveUpChase (h : m.state = .chase) : ∃ m', m.giveUpChase = .ok m' ∧ m.Goes m' := by
  unfold Monster.giveUpChase
  split_ifs
  · exact goes_changeState (by rw [h]; decide) (by decide)
  · exact goes_changeState (by rw [h]; decide) (by decide)

theorem goes_idleUpdate (h : m.state = .idle) (rands : Rands) :
    ∃ r, m.idleUpdate rands = .ok r ∧ m.Goes r.1 := by
  unfold Monster.idleUpdate
  dsimp only
  split_ifs
  · rw [monster_changeState_ok (by rw [h]; decide)]
    exact ⟨_, rfl, rfl, rfl, by simp⟩
  · rw [monster_changeState_ok (by rw [h]; decide)]
    exact ⟨_, rfl, rfl, rfl, by simp⟩
  · exact ⟨_, rfl, rfl, rfl, by simp [h]⟩

theorem goes_patrolUpdate (h : m.state = .move) (rands : Rands) :
    ∃ r, m.patrolUpdate rands = .ok r ∧ m.Goes r.1 := by
  unfold Monster.patrolUpdate
  dsimp only
  split_ifs
  · rw [monster_changeState_ok (by rw [h]; decide)]
    exact ⟨_, rfl, rfl, rfl, by simp⟩
  · rw [monster_changeState_ok (by rw [h]; decide)]
    exact ⟨_, rfl, rfl, rfl, by simp⟩
  · exact ⟨_, rfl, rfl, rfl, by simp [Monster.moveUpdate, h]⟩

theorem goes_chaseUpdate (h : m.state = .chase) (target : Position F) :
    ∃ m', m.chaseUpdate target = .ok m' ∧ m.Goes m' := by
  unfold Monster.chaseUpdate
  dsimp only
  split_ifs
  · exact goes_giveUpChase h
  · rw [monster_changeState_ok (by simp [Monster.changeDirection, h])]
    exact ⟨_, rfl, rfl, rfl, by simp⟩
  · exact ⟨_, rfl, rfl, rfl, by simp [Monster.changeDirection, Monster.moveUpdate, h]⟩
  · exact ⟨_, rfl, rfl, rfl, by simp [Monster.moveUpdate, h]⟩

omit [Machine F] in
theorem goes_attackUpdate (h : m.state = .attack) : ∃ m', m.attackUpdate = .ok m' ∧ m.Goes m' := by
  unfold Monster.attackUpdate
  split_ifs
  · exact goes_changeState (by rw [h]; decide) (by decide)
  · exact ⟨_, rfl, rfl, rfl, by simp [h]⟩

omit [Machine F] in
theorem goes_stunUpdate (h : m.state = .stun) : ∃ m', m.stunUpdate = .ok m' ∧ m.Goes m' := by
  unfold Monster.stunUpdate
  split_ifs
  · exact ⟨_, rfl, rfl, rfl, by simp [h]⟩
  · exact goes_changeState (by rw [h]; decide) (by decide)

theorem goes_returnUpdate (h : m.state = .return) : ∃ m', m.returnUpdate = .ok m' ∧ m.Goes m' := by
  unfold Monster.returnUpdate
  split_ifs
  · rw [monster_changeState_ok (by rw [h]; decide)]
    exact ⟨_, rfl, rfl, rfl, by simp [Monster.moveUpdate]⟩
  · exact ⟨_, rfl, rfl, rfl, by simp [Monster.changeDirection, Monster.moveUpdate, h]⟩
  · exact ⟨_, rfl, rfl, rfl, by simp [Monster.moveUpdate, h]⟩

/-- A living monster goes on. -/
theorem goes_update (h : m.state ≠ .dead) (rands : Rands) :
    ∃ r, m.update rands = .ok r ∧ m.Goes r.1 := by
  obtain ⟨u, hu⟩ : ∃ u : Monster F, u = { m with animFrame := m.animFrame + 1 } := ⟨_, rfl⟩
  have hsame : u.state = m.state ∧ u.maxHp = m.maxHp ∧ u.hp = m.hp := by
    rw [hu]
    exact ⟨rfl, rfl, rfl⟩
  obtain ⟨hstate, hmax, hhp⟩ := hsame
  have hgoes : ∀ {m' : Monster F}, u.Goes m' → m.Goes m' :=
    fun hg => ⟨hg.maxHp.trans hmax, hg.hp.trans hhp, hg.alive⟩
  have hpair : ∀ {x : Except Stop (Monster F)}, (∃ m', x = .ok m' ∧ u.Goes m') →
      ∃ r : Monster F × Rands, (do return (← x, rands)) = .ok r ∧ m.Goes r.1 := by
    rintro x ⟨m', rfl, hg⟩
    exact ⟨(m', rands), rfl, hgoes hg⟩
  unfold Monster.update
  dsimp only
  rw [← hu]
  split
  · next hs =>
    obtain ⟨r, hr, hg⟩ := goes_idleUpdate (hstate.trans hs) rands
    exact ⟨r, hr, hgoes hg⟩
  · next hs =>
    obtain ⟨r, hr, hg⟩ := goes_patrolUpdate (hstate.trans hs) rands
    exact ⟨r, hr, hgoes hg⟩
  · next hs => exact hpair (goes_chaseUpdate (hstate.trans hs) _)
  · next hs => exact hpair (goes_attackUpdate (hstate.trans hs))
  · next hs => exact hpair (goes_stunUpdate (hstate.trans hs))
  · next hs => exact absurd hs h
  · next hs => exact hpair (goes_returnUpdate (hstate.trans hs))

/-- A dead monster waits, and then it is spawned again. -/
theorem update_dead (h : m.state = .dead) (rands : Rands) : m.update rands = .ok
    (if MONSTER_RESPAWN_FRAME ≤ m.animFrame + 1 then
      { m with
        state := .idle, animFrame := 0, startMovePos := m.spawnPos, pos := m.spawnPos,
        hp := m.maxHp }
    else { m with animFrame := m.animFrame + 1 }, rands) := by
  unfold Monster.update
  simp only [h]
  unfold Monster.deadUpdate
  dsimp only
  split_ifs
  · rw [monster_changeState_ok (by simp)]
    rfl
  · rfl

/-- A hit. -/
theorem sane_takeDamage (h : m.Sane) (halive : m.state ≠ .dead) {damage : ℤ} (hdamage : 0 < damage)
    (attacker : Player F) (attackerId : ℕ) :
    ∃ m', m.takeDamage damage attacker attackerId = .ok m' ∧ m'.Sane ∧
      (m'.state = .dead → m'.animFrame = 0) := by
  obtain ⟨hmax, hhp, hdead⟩ := h
  unfold Monster.takeDamage
  rw [if_neg halive]
  dsimp only
  split_ifs with hzero hstun
  · rw [monster_changeState_ok (by exact Ne.symm halive)]
    exact ⟨_, rfl, ⟨hmax, by simp only [hzero]; omega, by simp [hzero]⟩, fun _ => rfl⟩
  · refine ⟨_, rfl, ⟨hmax, ?_, ?_⟩, fun hd => absurd hd halive⟩
    · simp only [Monster.resetAnimStart]
      omega
    · simp only [Monster.resetAnimStart, iff_of_false halive hzero]
  · rw [monster_changeState_ok (by exact Ne.symm hstun)]
    exact ⟨_, rfl, ⟨hmax, by dsimp only; omega, by simp [hzero]⟩, by simp⟩

omit [Machine F] in
theorem Monster.Goes.sane {m' : Monster F} (hg : m.Goes m') (h : m.Sane)
    (halive : m.state ≠ .dead) : m'.Sane := by
  have hne : m.hp ≠ 0 := fun hz => halive (h.dead.mpr hz)
  exact ⟨by rw [hg.maxHp]; exact h.max, by rw [hg.maxHp, hg.hp]; exact h.hp,
    iff_of_false hg.alive (by rw [hg.hp]; exact hne)⟩

/-- What a life keeps: while the monster is dead, `mAnimFrame` counts the updates. -/
structure Life.Inv (l : Life F) : Prop where
  sane : l.monster.Sane
  frame : l.monster.state = .dead → l.monster.animFrame = l.updates ∧ l.updates < 500

/-- The rule for every operation: none fails, and how it goes on. -/
theorem apply_cases {l : Life F} (h : l.Inv) {op : MonsterOp F} {r : Except Stop (Monster F)}
    (hr : l.monster.apply op = some r) : ∃ m, r = .ok m ∧ Life.Inv ⟨m, l.count op m⟩ ∧
      (l.monster.state = .dead → m.state = .dead ∧
          (op.isUpdate = true → l.updates + 1 < MONSTER_RESPAWN_FRAME) ∨
        op.isUpdate = true ∧ l.updates + 1 = MONSTER_RESPAWN_FRAME ∧ m.state ≠ .dead ∧
          m.hp = m.maxHp ∧
          m.pos = l.monster.spawnPos) := by
  obtain ⟨hsane, hframe⟩ := h
  have halive : ∀ {m : Monster F}, m.Sane → m.state ≠ .dead → Life.Inv ⟨m, l.count op m⟩ :=
    fun hs hne => ⟨hs, fun hd => absurd hd hne⟩
  cases op with
  | update rands =>
    cases hr
    by_cases hdead : l.monster.state = .dead
    · rw [update_dead hdead]
      obtain ⟨hanim, hlt⟩ := hframe hdead
      refine ⟨_, rfl, ?_, fun _ => ?_⟩
      · split_ifs with hrespawn
        · refine halive ⟨hsane.max, ⟨hsane.max.le, le_rfl⟩, ?_⟩ (by simp)
          simp [hsane.max.ne']
        · refine ⟨⟨hsane.max, hsane.hp, hsane.dead⟩, fun _ => ?_⟩
          have hcount : l.count (.update rands) { l.monster with
              animFrame := l.monster.animFrame + 1 } = l.updates + 1 := by
            simp [Life.count, hdead, MonsterOp.isUpdate]
          simp only [hcount]
          unfold MONSTER_RESPAWN_FRAME at hrespawn
          push_cast
          omega
      · unfold MONSTER_RESPAWN_FRAME
        split_ifs with hrespawn
        · exact .inr ⟨rfl, by omega, by simp, rfl, rfl⟩
        · exact .inl ⟨hdead, fun _ => by omega⟩
    · obtain ⟨⟨m, rands'⟩, hm, hg⟩ := goes_update hdead rands
      rw [hm]
      exact ⟨m, rfl, halive (hg.sane hsane hdead) hg.alive, fun hd => absurd hd hdead⟩
  | giveUpChase =>
    simp only [Monster.apply] at hr
    split_ifs at hr with hchase
    cases hr
    have hdead : l.monster.state ≠ .dead := by rw [hchase]; decide
    obtain ⟨m, hm, hg⟩ := goes_giveUpChase hchase
    exact ⟨m, hm, halive (hg.sane hsane hdead) hg.alive, fun hd => absurd hd hdead⟩
  | target targetPlayerID targetPos =>
    cases hr
    refine ⟨_, rfl, ⟨⟨hsane.max, hsane.hp, hsane.dead⟩, fun hd => ?_⟩,
      fun hd => .inl ⟨hd, by simp [MonsterOp.isUpdate]⟩⟩
    have hdead : l.monster.state = .dead := hd
    simpa [Life.count, hdead, MonsterOp.isUpdate] using hframe hdead
  | takeDamage damage attacker attackerId =>
    simp only [Monster.apply] at hr
    split_ifs at hr with hdamage
    cases hr
    by_cases hdead : l.monster.state = .dead
    · refine ⟨l.monster, by unfold Monster.takeDamage; rw [if_pos hdead]; rfl, ⟨hsane, fun _ => ?_⟩,
        fun hd => .inl ⟨hd, by simp [MonsterOp.isUpdate]⟩⟩
      simpa [Life.count, hdead, MonsterOp.isUpdate] using hframe hdead
    · obtain ⟨m, hm, hs, hzero⟩ := sane_takeDamage hsane hdead hdamage attacker attackerId
      refine ⟨m, hm, ⟨hs, fun hd => ?_⟩, fun hd => absurd hd hdead⟩
      have hd' : m.state = .dead := hd
      simp [Life.count, hdead, hd', hzero hd']

theorem lives_invariant : (lives (F := F)).Invariant Life.Inv where
  init hi := by
    obtain ⟨monsterID, pos, monsterType, rfl⟩ := hi
    refine ⟨⟨by simp [Monster.new, MONSTER_MAX_HP], by simp [Monster.new, MONSTER_MAX_HP], ?_⟩,
      fun hd => by cases hd⟩
    simp [Monster.new, MONSTER_MAX_HP]
  step op h he := by
    unfold lives at he
    dsimp only at he
    split at he
    · next m hm =>
      cases he
      obtain ⟨m', hm', hinv, -⟩ := apply_cases h hm
      cases hm'
      exact hinv
    · cases he

theorem monster_sound {l : Life F} (h : lives.Reachable l) : Monster.Sound l := by
  have hinv := lives_invariant.reachable h
  refine ⟨fun op r hr => ?_, hinv.sane.hp, hinv.sane.dead, fun hdead op m hm hne => ?_,
    fun hdead rands m hm hlast => ?_⟩
  · obtain ⟨m, hm, -⟩ := apply_cases hinv hr
    exact ⟨m, hm⟩
  · obtain ⟨m', hm', -, hcases⟩ := apply_cases hinv hm
    cases hm'
    rcases hcases hdead with ⟨hd, -⟩ | ⟨hop, hlast, -, hhp, hpos⟩
    · exact absurd hd hne
    · exact ⟨hop, hlast, hhp, hpos⟩
  · obtain ⟨m', hm', -, hcases⟩ := apply_cases hinv hm
    cases hm'
    rcases hcases hdead with ⟨-, hlt⟩ | ⟨-, -, hne, -⟩
    · exact absurd (hlt rfl) (by omega)
    · exact hne

end

/-! ### Players -/

/-- What happens to a player: a tick, a hit, the packets that change its state. -/
inductive PlayerOp (F : Type)
  | update
  | takeDamage (damage : ℤ) (attacker : Monster F)
  | moveStart (msg : Message)
  | moveStop (msg : Message)
  | attackReq (msg : Message)

section

variable {F : Type} [Machine F]

/-- An operation on player `q` of the field `s`. -/
def State.apply (s : State F) (q : ℕ) : PlayerOp F → Option (Except Stop (State F))
  | .update => some ((s.player q).update.map (s.setPlayer q))
  | .takeDamage damage attacker =>
    if 0 < damage then some (((s.player q).takeDamage damage attacker).map (s.setPlayer q)) else
      none
  | .moveStart msg => if (s.player q).connect then some (handleMoveStart s msg q) else none
  | .moveStop msg => if (s.player q).connect then some (handleMoveStop s msg q) else none
  | .attackReq msg => if (s.player q).connect then some (handleAttackReq s msg q) else none

def plays (q : ℕ) : System (State F) (PlayerOp F) where
  init s := ∃ accountNo characterID pos nickname,
    s.player q = entered q accountNo characterID pos nickname
  next s op := match s.apply q op with
    | some (.ok t) => some t
    | _ => none

/-- `changeState` does not fail, the player is dead when it has no HP, and it stays dead. -/
structure Player.Sound (q : ℕ) (s : State F) : Prop where
  runs : ∀ op r, s.apply q op = some r → r ≠ .error Stop.changeState
  hp : 0 ≤ (s.player q).hp ∧ (s.player q).hp ≤ (s.player q).maxHp
  dead : (s.player q).state = .dead ↔ (s.player q).hp = 0
  stays : (s.player q).state = .dead → ∀ op t, s.apply q op = some (.ok t) →
    (t.player q).state = .dead

/-- What the operations keep. -/
structure Player.Sane (p : Player F) : Prop where
  max : p.maxHp = PLAYER_MAX_HP
  hp : 0 ≤ p.hp ∧ p.hp ≤ p.maxHp
  dead : p.state = .dead ↔ p.hp = 0

variable {p : Player F} {s t : State F} {q : ℕ} {msg : Message}

/-- Not the assertion of `changeState`. -/
abbrev Transits {σ : Type} (x : Except Stop σ) : Prop := FailsIn (· ≠ Stop.changeState) x

omit [Machine F] in
theorem player_changeState_ok {state : PlayerState} (h : state ≠ p.state) :
    p.changeState state = .ok { p with state, animFrame := 0, startMovePos := p.pos } := by
  unfold Player.changeState
  rw [myAssert_true (decide_eq_true h)]
  rfl

omit [Machine F] in
theorem transits_changeState {state : PlayerState} (h : state ≠ p.state) :
    Transits (p.changeState state) := by
  rw [player_changeState_ok h]
  exact .ok _

theorem transits_myAssert {x : Bool} {str : String} (h : str ≠ "상태 전이 실패") :
    Transits (myAssert x str) := by
  unfold myAssert
  split_ifs
  · exact .ok _
  · exact .error fun he => h (Stop.myAssert.inj he)

theorem transits_readInt (size : ℕ) : Transits (msg.readInt size) := by
  unfold Message.readInt Message.getData
  split_ifs
  · exact .error (by simp [Stop.changeState])
  · exact .ok _

theorem transits_readFloat : Transits (readFloat (F := F) msg) := by
  unfold readFloat Message.getData
  split_ifs
  · exact .error (by simp [Stop.changeState])
  · exact .ok _

omit [Machine F] in
theorem transits_hasPlayer {str : String} (h : str ≠ "상태 전이 실패") : Transits (s.hasPlayer q str) :=
  transits_myAssert h

theorem transits_getAroundSectors (c : Sector) : Transits (getAroundSectors c) := by
  unfold getAroundSectors
  exact (transits_myAssert (by decide)).bind fun _ _ => .ok _

theorem place_state (p : Player F) (packetPos : Position F) (direction : ℤ) :
    (p.place packetPos direction).state = p.state := by
  unfold Player.place
  rw [syncCheck_eq]

theorem transits_handleMoveStart : Transits (handleMoveStart s msg q) := by
  have hstart : ∀ {x y speed : F} {direction : ℤ}, (s.player q).state ≠ .move →
      Transits (handleMoveStart.start s q x y direction speed (s.player q)) := by
    intro x y speed direction hne
    unfold handleMoveStart.start
    refine (transits_myAssert (by decide)).bind fun _ _ => ?_
    refine (transits_changeState (by rw [place_state]; exact Ne.symm hne)).bind fun p _ => ?_
    refine (transits_myAssert (by decide)).bind fun _ _ => ?_
    exact (transits_getAroundSectors _).bind fun _ _ => .ok _
  unfold handleMoveStart
  refine (transits_readInt 8).bind fun _ _ => ?_
  refine transits_readFloat.bind fun _ _ => ?_
  refine transits_readFloat.bind fun _ _ => ?_
  refine (transits_readInt 1).bind fun _ _ => ?_
  refine transits_readFloat.bind fun _ _ => ?_
  refine (transits_hasPlayer (by decide)).bind fun _ _ => ?_
  dsimp only
  split
  · exact .ok _
  · exact .ok _
  · exact .ok _
  · next hs =>
    split_ifs
    · exact .ok _
    · exact .ok _
    · exact hstart (by rw [hs]; decide)
  · next hs => exact hstart (by rw [hs]; decide)

theorem transits_handleMoveStop : Transits (handleMoveStop s msg q) := by
  unfold handleMoveStop
  refine (transits_readInt 8).bind fun _ _ => ?_
  refine transits_readFloat.bind fun _ _ => ?_
  refine transits_readFloat.bind fun _ _ => ?_
  refine (transits_readInt 1).bind fun _ _ => ?_
  refine (transits_hasPlayer (by decide)).bind fun _ _ => ?_
  dsimp only
  split
  · exact .ok _
  · exact .ok _
  · exact .ok _
  all_goals
    refine (transits_myAssert (by decide)).bind fun _ _ => ?_
    refine (transits_myAssert (by decide)).bind fun _ _ => ?_
    refine (transits_myAssert (by decide)).bind fun _ _ => ?_
    refine (transits_myAssert (by decide)).bind fun _ _ => ?_
    split_ifs with _ hidle
    · exact .ok _
    · refine (transits_changeState (Ne.symm hidle)).bind fun p _ => ?_
      exact (transits_getAroundSectors _).bind fun _ _ => .ok _
    · exact (transits_getAroundSectors _).bind fun _ _ => .ok _

theorem transits_readTargets (n : ℕ) : ∀ msg : Message, Transits (readTargets n msg) := by
  induction n with
  | zero => exact fun _ => .ok _
  | succ n ih =>
    intro msg
    unfold readTargets
    refine (transits_readInt 8).bind fun r _ => ?_
    exact (ih r.2).bind fun _ _ => .ok _

theorem transits_handleAttackReq : Transits (handleAttackReq s msg q) := by
  unfold handleAttackReq
  refine (transits_readInt 1).bind fun _ _ => ?_
  refine (transits_readInt 2).bind fun _ _ => ?_
  dsimp only
  split
  · exact .ok _
  · split_ifs
    · exact .ok _
    · refine (transits_hasPlayer (by decide)).bind fun _ _ => ?_
      split
      · exact .ok _
      · exact .ok _
      · exact .ok _
      all_goals
        next hs =>
        refine (transits_getAroundSectors _).bind fun _ _ => ?_
        refine (transits_changeState (by rw [hs]; decide)).bind fun p _ => ?_
        exact (transits_readTargets _ _).bind fun _ _ => .ok _

theorem place_maxHp (p : Player F) (packetPos : Position F) (direction : ℤ) :
    (p.place packetPos direction).maxHp = p.maxHp := by
  unfold Player.place
  rw [syncCheck_eq]

/-- `mMaxHp` is given in the constructor. -/
theorem maxHp_act (h : (s.player q).maxHp = PLAYER_MAX_HP) (ha : Act s t) :
    (t.player q).maxHp = PLAYER_MAX_HP := by
  have hset : ∀ {q' : ℕ} {p : Player F}, p.maxHp = (s.player q').maxHp →
      ((s.setPlayer q' p).player q).maxHp = PLAYER_MAX_HP := by
    intro q' p hp
    rw [setPlayer_player]
    split_ifs with hq
    · rw [hp, ← hq, h]
    · exact h
  cases ha with
  | fieldUpdate | hit | dbDequeue | dbAnswer | rehash | send | disconnectSession
  | request => exact h
  | kill q' id m t' _ _ _ _ _ _ ht =>
    cases ht with
    | nothing => exact h
    | item => exact h
  | adjust | aim | save | loot => exact hset rfl
  | cross q' =>
    rw [cross_player]
    split_ifs with hq
    · exact hq ▸ h
    · exact h
  | damaged q' m p _ _ hp =>
    refine hset ?_
    rw [takeDamage_eq hp]
  | enter q' accountNo characterID pos nickname =>
    rw [sendSpawns_player]
    unfold State.enter
    dsimp only
    rw [Function.update_apply]
    split_ifs
    · rfl
    · exact h
  | moveStart q' p packetPos direction _ _ _ hp =>
    refine hset ?_
    rw [(changeState_eq hp).2]
    exact place_maxHp (s.player q') packetPos direction
  | moveStop q' p packetPos direction _ _ hp =>
    refine hset ?_
    rcases hp with ⟨-, rfl⟩ | ⟨-, hp⟩
    · exact place_maxHp (s.player q') packetPos direction
    · rw [(changeState_eq hp).2]
      exact place_maxHp (s.player q') packetPos direction
  | attackReq q' p skillId _ _ hp =>
    refine hset ?_
    rw [(changeState_eq hp).2]

/-- The packets of a player neither hurt nor kill it. -/
theorem sane_handled (h : (s.player q).Sane) (hh : Handled q s t) (ha : Acts s t) :
    (t.player q).Sane := by
  have hmax : (t.player q).maxHp = PLAYER_MAX_HP := Acts.keeps maxHp_act h.max ha
  obtain ⟨p, hp, hr⟩ := hh
  have hself := hr.self
  refine ⟨hmax, ?_, ?_⟩
  · rw [hmax, hself, hp.hp, ← h.max]
    exact h.hp
  · rw [hself, hp.hp, hp.dead]
    exact h.dead

/-- A tick of a player. -/
theorem player_update (p : Player F) : ∃ p', p.update = .ok p' ∧ p'.maxHp = p.maxHp ∧ p'.hp = p.hp ∧
    (p'.state = .dead ↔ p.state = .dead) := by
  unfold Player.update
  dsimp only
  by_cases hconnect : p.connect = false
  · rw [if_pos hconnect]
    exact ⟨p, rfl, rfl, rfl, Iff.rfl⟩
  · rw [if_neg hconnect]
    split
    · exact ⟨_, rfl, rfl, rfl, Iff.rfl⟩
    · next hs =>
      split_ifs
      · rw [player_changeState_ok (by simp [hs])]
        exact ⟨_, rfl, rfl, rfl, by simp [hs]⟩
      · exact ⟨_, rfl, rfl, rfl, Iff.rfl⟩
    · next hs =>
      split_ifs
      · exact ⟨_, rfl, rfl, rfl, Iff.rfl⟩
      · rw [player_changeState_ok (by simp [hs])]
        exact ⟨_, rfl, rfl, rfl, by simp [hs]⟩
    · exact ⟨_, rfl, rfl, rfl, Iff.rfl⟩
    · exact ⟨_, rfl, rfl, rfl, Iff.rfl⟩

/-- A hit. -/
theorem player_takeDamage (h : p.Sane) {damage : ℤ} (hdamage : 0 < damage) (attacker : Monster F) :
    ∃ p', p.takeDamage damage attacker = .ok p' ∧ p'.Sane ∧
      (p.state = .dead → p'.state = .dead) := by
  obtain ⟨hmax, hhp, hdead⟩ := h
  by_cases halive : p.state = .dead
  · unfold Player.takeDamage
    rw [if_pos halive]
    exact ⟨p, rfl, ⟨hmax, hhp, hdead⟩, id⟩
  · unfold Player.takeDamage
    rw [if_neg halive]
    dsimp only
    split_ifs with hzero hstun
    · rw [player_changeState_ok (by exact Ne.symm halive)]
      refine ⟨_, rfl, ⟨hmax, ?_, ?_⟩, fun hd => absurd hd halive⟩
      · simp only [hzero]
        omega
      · simp [hzero]
    · refine ⟨_, rfl, ⟨hmax, ?_, ?_⟩, fun hd => absurd hd halive⟩
      · simp only [Player.resetAnimStart]
        omega
      · simp only [Player.resetAnimStart, iff_of_false halive hzero]
    · rw [player_changeState_ok (by exact Ne.symm hstun)]
      refine ⟨_, rfl, ⟨hmax, ?_, ?_⟩, fun hd => absurd hd halive⟩
      · dsimp only
        omega
      · simp [hzero]

/-- The rule for every operation. -/
theorem player_apply_cases (h : (s.player q).Sane) {op : PlayerOp F} {r : Except Stop (State F)}
    (hr : s.apply q op = some r) : r ≠ .error Stop.changeState ∧ ∀ t, r = .ok t →
    (t.player q).Sane ∧
      ((s.player q).state = .dead → (t.player q).state = .dead) := by
  have hpacket : ∀ {t : State F}, Handled q s t → Acts s t →
      (t.player q).Sane ∧ ((s.player q).state = .dead → (t.player q).state = .dead) := by
    intro t hh ha
    refine ⟨sane_handled h hh ha, fun hd => ?_⟩
    obtain ⟨p, hp, hrw⟩ := hh
    rw [hrw.self]
    exact hp.dead.mpr hd
  have hself : ∀ p : Player F, (s.setPlayer q p).player q = p := fun p => Function.update_self _ _ _
  cases op with
  | update =>
    cases hr
    obtain ⟨p, hp, hmax, hhp, hdead⟩ := player_update (s.player q)
    rw [hp]
    refine ⟨nofun, fun t ht => ?_⟩
    cases ht
    rw [hself]
    exact ⟨⟨hmax.trans h.max, by rw [hmax, hhp]; exact h.hp, by rw [hdead, hhp]; exact h.dead⟩,
      hdead.mpr⟩
  | takeDamage damage attacker =>
    simp only [State.apply] at hr
    split_ifs at hr with hdamage
    cases hr
    obtain ⟨p, hp, hsane, hdead⟩ := player_takeDamage h hdamage attacker
    rw [hp]
    refine ⟨nofun, fun t ht => ?_⟩
    cases ht
    rw [hself]
    exact ⟨hsane, hdead⟩
  | moveStart msg =>
    simp only [State.apply] at hr
    split_ifs at hr with hconnect
    cases hr
    exact ⟨fun he => transits_handleMoveStart _ he rfl, fun t ht =>
      hpacket (handled_handleMoveStart ht)
        ((replies_handleMoveStart hconnect ht).elim Replies.acts fun h => acts_one h.act)⟩
  | moveStop msg =>
    simp only [State.apply] at hr
    split_ifs at hr with hconnect
    cases hr
    exact ⟨fun he => transits_handleMoveStop _ he rfl, fun t ht =>
      hpacket (handled_handleMoveStop ht) (replies_handleMoveStop hconnect ht).acts⟩
  | attackReq msg =>
    simp only [State.apply] at hr
    split_ifs at hr with hconnect
    cases hr
    exact ⟨fun he => transits_handleAttackReq _ he rfl, fun t ht =>
      hpacket (handled_handleAttackReq ht) (replies_handleAttackReq ht).acts⟩

theorem plays_invariant : (plays (F := F) q).Invariant fun s => (s.player q).Sane where
  init hi := by
    obtain ⟨accountNo, characterID, pos, nickname, hp⟩ := hi
    rw [hp]
    exact ⟨rfl, by simp [entered, Player.login, PLAYER_MAX_HP],
      by simp [entered, Player.login, PLAYER_MAX_HP]⟩
  step op h he := by
    unfold plays at he
    dsimp only at he
    split at he
    · next t' ht =>
      cases he
      exact ((player_apply_cases h ht).2 _ rfl).1
    · cases he

theorem player_sound (h : (plays q).Reachable s) : Player.Sound q s := by
  have hsane := plays_invariant.reachable h
  refine ⟨fun op r hr => (player_apply_cases hsane hr).1, hsane.hp, hsane.dead,
    fun hdead op u hu => ?_⟩
  exact ((player_apply_cases hsane hu).2 u rfl).2 hdead

/-- Monsters and players, in every run. -/
theorem states_sound : (∀ l : Life F, lives.Reachable l → Monster.Sound l) ∧
    ∀ (q : ℕ) (s : State F), (plays q).Reachable s → Player.Sound q s :=
  ⟨fun _ => monster_sound, fun _ _ => player_sound⟩

end

/-- A monster that has just been killed, in one blow. -/
def killedLife : Option (Life ℚ) :=
  lives.exec ⟨.new 1 ⟨10, 10⟩ 0, 0⟩ [.takeDamage 100 (.login 1 0 0 ⟨10, 10⟩ []) 1]

/-- A player that has just logged in and is hit. -/
def stunnedField : Option (State ℚ) :=
  (plays 1).exec { empty 0 with
    player := fun _ => entered 1 0 0 ⟨10, 10⟩ [] } [.takeDamage 10 (.new 1 ⟨10, 10⟩ 0)]

/-- The first is dead, the second is stunned. -/
theorem states_sound_killed :
    (∃ l, killedLife = some l ∧ l.monster.state = .dead ∧ Monster.Sound l) ∧
    ∃ s, stunnedField = some s ∧ (s.player 1).state = .stun ∧ Player.Sound 1 s := by
  have hkilled : killedLife.map (·.monster.state) = some .dead := by decide +kernel
  have hstunned : stunnedField.map (fun s => (s.player 1).state) = some .stun := by decide +kernel
  obtain ⟨l, hl, hdead⟩ := Option.map_eq_some_iff.mp hkilled
  obtain ⟨s, hs, hstun⟩ := Option.map_eq_some_iff.mp hstunned
  exact ⟨⟨l, hl, hdead, states_sound.1 l (.exec _ (.start ⟨1, ⟨10, 10⟩, 0, rfl⟩) hl)⟩, s, hs, hstun,
    states_sound.2 1 s (.exec _ (.start ⟨0, 0, ⟨10, 10⟩, [], rfl⟩) hs)⟩

end Field
end MyMMO
