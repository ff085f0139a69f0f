/-
# Players, monsters and items

`Contents/Player.cpp`, `Contents/Monster.cpp` and `Contents/FieldItem.cpp`: what an
object of the field does by itself. A `float` is a `Machine`'s: nothing is assumed about its
arithmetic, so what is proved holds of IEEE numbers as well as of exact ones.
-/
import MyMMO.Message
import MyMMO.Sector

namespace MyMMO

/-- The `float` of the machine, and what it reads beyond `kDirectionVectorTable`.
`lit` is a literal of the source, `toInt32` and `toUInt64` are the conversions
of C++, `ofBytes` is four bytes of memory. -/
class Machine (F : Type) extends Add F, Sub F, Mul F, Div F where
  lit : ℚ → F
  ofInt : ℤ → F
  sqrt : F → F
  lt : F → F → Bool
  le : F → F → Bool
  eq : F → F → Bool
  toInt32 : F → ℤ
  toUInt64 : F → ℕ
  ofBytes : List UInt8 → F
  beyond : ℤ → F × F

open Machine

/-- The value of an IEEE single; infinities and what is not a number are 0. -/
def singleOfBytes (bs : List UInt8) : ℚ :=
  let n : ℕ := bs.foldr (fun b n => b.toNat + 256 * n) 0
  let exponent : ℕ := n / 2 ^ 23 % 256
  let mantissa : ℕ := n % 2 ^ 23
  let magnitude : ℚ :=
    if exponent = 0 then mantissa / 2 ^ 149
    else if exponent = 255 then 0
    else (2 ^ 23 + mantissa) * 2 ^ exponent / 2 ^ 150
  if n / 2 ^ 31 = 0 then magnitude else -magnitude

/-- Exact arithmetic, for the runs below; a root is rounded down to twenty binary places. -/
instance : Machine ℚ where
  lit x := x
  ofInt n := n
  sqrt x := Nat.sqrt (x * 2 ^ 40).floor.toNat / 2 ^ 20
  lt x y := decide (x < y)
  le x y := decide (x ≤ y)
  eq x y := decide (x = y)
  toInt32 x := if 0 ≤ x then x.floor else x.ceil
  toUInt64 x := x.floor.toNat
  ofBytes := singleOfBytes
  beyond _ := (0, 0)

/-- `std::clamp`. -/
def clamp {F : Type} [Machine F] (v lo hi : F) : F :=
  if lt v lo then lo else if lt hi v then hi else v

/-- The numbers `rand()` returns from here on. -/
abbrev Rands := ℕ → ℕ

def Rands.rand (rands : Rands) : ℕ × Rands := (rands 0, fun n => rands (n + 1))

def SECTOR_WORLD_W : ℤ := 320
def SECTOR_WORLD_H : ℤ := 235

namespace Field

/-- `map::Position`. -/
structure Position (F : Type) where
  x : F
  y : F

def PLAYER_HIT_STUN_FRAME : ℤ := 30
def PLAYER_ATTACK_TOTAL_FRAME : ℤ := 30
def MONSTER_HIT_STUN_FRAME : ℤ := 50
def MONSTER_ATTACK_TOTAL_FRAME : ℤ := 80
def ALLOW_DELAY_FRAME : ℤ := 25
def PLAYER_ATTACK_AWINDUP_FRAME : ℤ := 8
def PLAYER_ATTACK_DAMAGE : ℤ := 35
def MONSTER_ATTACK_WINDUP_FRAME : ℤ := 20
def MONSTER_ATTACK_DAMAGE : ℤ := 10
def PLAYER_MAX_HP : ℤ := 100
def MONSTER_MAX_HP : ℤ := 100
def MONSTER_RESPAWN_FRAME : ℤ := 500
def ITEM_DESPAWN_FRAME : ℤ := 1500

inductive PlayerState
  | idle
  | move
  | attack
  | dead
  | stun
  deriving DecidableEq, Repr

inductive MonsterState
  | idle
  | move
  | chase
  | attack
  | stun
  | dead
  | return
  deriving DecidableEq, Repr

/-- A state in which the monster moves. -/
def MonsterState.Moving (state : MonsterState) : Prop :=
  state = .move ∨ state = .chase ∨ state = .return

instance (state : MonsterState) : Decidable state.Moving := inferInstanceAs (Decidable (_ ∨ _))

/-- `eItemId`. -/
inductive ItemId
  | gold
  | potion
  | max
  deriving DecidableEq, Repr

/-- `eDirection::Down` and `eDirection::Max`; a direction is any `int8_t`. -/
def Direction.down : ℤ := 0
def Direction.max : ℤ := 8

section

variable {F : Type} [Machine F]

/-- `map::Position::operator-`, the distance. -/
def Position.dist (p other : Position F) : F :=
  sqrt ((p.x - other.x) * (p.x - other.x) + (p.y - other.y) * (p.y - other.y))

/-- A position kept in the world. -/
def Position.clamp (x y : F) : Position F :=
  ⟨MyMMO.clamp x (lit 0) (ofInt (SECTOR_WORLD_W * SECTOR_COL_CNT)),
    MyMMO.clamp y (lit 0) (ofInt (SECTOR_WORLD_H * SECTOR_ROW_CNT))⟩

/-- The position is in the world. -/
def Position.InWorld (p : Position F) : Prop :=
  le (lit 0) p.x = true ∧ le p.x (ofInt (SECTOR_WORLD_W * SECTOR_COL_CNT)) = true ∧
    le (lit 0) p.y = true ∧ le p.y (ofInt (SECTOR_WORLD_H * SECTOR_ROW_CNT)) = true

instance (p : Position F) : Decidable p.InWorld := inferInstanceAs (Decidable (_ ∧ _))

/-- `kDirectionVectorTable`. -/
def kDirectionVectorTable : List (F × F) :=
  [(lit 0, lit 1), (lit (-0.707107), lit 0.707107), (lit 0.707107, lit 0.707107), (lit (-1), lit 0),
    (lit 1, lit 0), (lit 0, lit (-1)), (lit (-0.707107), lit (-0.707107)),
    (lit 0.707107, lit (-0.707107))]

/-- `kDirectionVectorTable[direction]`. -/
def directionVector (direction : ℤ) : F × F :=
  if 0 ≤ direction then (kDirectionVectorTable[direction.toNat]?).getD (beyond direction) else
    beyond direction

/-- The loop of `getDirectionTo`. -/
def bestDirection (dx dy : F) : List ℤ → F → ℤ → ℤ
  | [], _, best => best
  | i :: is, bestDot, best =>
    let v : F × F := directionVector i
    let dot := dx * v.1 + dy * v.2
    if lt bestDot dot then bestDirection dx dy is dot i else bestDirection dx dy is bestDot best

def getDirectionTo (p target : Position F) : ℤ :=
  let dx := target.x - p.x
  let dy := target.y - p.y
  let len := sqrt (dx * dx + dy * dy)
  if lt len (lit 0.0001) then Direction.down
  else bestDirection (dx / len) (dy / len) [0, 1, 2, 3, 4, 5, 6, 7] (lit (-2)) Direction.down

/-- `FieldServer::calcSector`. -/
def calcSector (pos : Position F) : Sector :=
  let col := toInt32 (pos.x / ofInt SECTOR_WORLD_W)
  let row := toInt32 (pos.y / ofInt SECTOR_WORLD_H)
  ⟨max 0 (min col (SECTOR_COL_CNT - 1)), max 0 (min row (SECTOR_ROW_CNT - 1))⟩

theorem calcSector_inGrid (pos : Position F) : (calcSector pos).InGrid := by
  unfold calcSector Sector.InGrid SECTOR_COL_CNT SECTOR_ROW_CNT
  dsimp only
  omega

end

/-! ### Players -/

/-- What the field uses of a `Player`. `savePending` is the bit DB_POSITION_SAVE_PENDING_BIT. -/
structure Player (F : Type) where
  seqID : ℕ
  accountNo : ℤ
  characterID : ℤ
  pos : Position F
  startMovePos : Position F
  speed : F
  animFrame : ℤ
  currentSector : Sector
  destSector : Sector
  direction : ℤ
  state : PlayerState
  characterType : ℤ
  nickname : List UInt8
  connect : Bool
  syncCnt : ℕ
  attackPower : ℤ
  pendingAttackTargets : List ℤ
  pendingAttackSkillId : ℤ
  hitStunFrame : ℤ
  hp : ℤ
  maxHp : ℤ
  inventory : ItemId → ℤ
  savePending : Bool

namespace Player

variable {F : Type} [Machine F]

/-- The constructor, then `SetPosition`, `InitPlayerInfo` and the nickname of `handleAuthReq`. -/
def login (seqID : ℕ) (accountNo characterID : ℤ) (pos : Position F) (nickname : List UInt8) :
    Player F where
  seqID
  accountNo
  characterID
  pos
  startMovePos := ⟨lit 0, lit 0⟩
  speed := lit 4.5
  animFrame := 0
  currentSector := ⟨0, 0⟩
  destSector := ⟨0, 0⟩
  direction := Direction.down
  state := .idle
  characterType := 0
  nickname
  connect := true
  syncCnt := 0
  attackPower := PLAYER_ATTACK_DAMAGE
  pendingAttackTargets := []
  pendingAttackSkillId := 0
  hitStunFrame := 0
  hp := PLAYER_MAX_HP
  maxHp := PLAYER_MAX_HP
  inventory _ := 0
  savePending := false

def resetAnimStart (p : Player F) : Player F := { p with animFrame := 0, startMovePos := p.pos }

def changeState (p : Player F) (state : PlayerState) : Except Stop (Player F) := do
  myAssert (state ≠ p.state) "상태 전이 실패"
  return { p with state }.resetAnimStart

def moveUpdate (p : Player F) : Player F :=
  let d : F × F := directionVector p.direction
  { p with
    pos := .clamp (p.startMovePos.x + d.1 * p.speed * ofInt p.animFrame)
      (p.startMovePos.y + d.2 * p.speed * ofInt p.animFrame) }

def update (p : Player F) : Except Stop (Player F) :=
  if p.connect = false then return p
  else
    let p := { p with animFrame := p.animFrame + 1 }
    match p.state with
    | .move => return p.moveUpdate
    | .attack => if PLAYER_ATTACK_TOTAL_FRAME ≤ p.animFrame then p.changeState .idle else return p
    | .stun =>
      if 0 < p.hitStunFrame then return { p with hitStunFrame := p.hitStunFrame - 1 } else
        p.changeState .idle
    | .dead | .idle => return p

end Player

/-! ### Monsters -/

structure Monster (F : Type) where
  monsterID : ℤ
  pos : Position F
  spawnPos : Position F
  startMovePos : Position F
  sector : Sector
  destSector : Sector
  monsterType : ℤ
  direction : ℤ
  beforeDirection : ℤ
  state : MonsterState
  beforeState : MonsterState
  animFrame : ℤ
  speed : F
  hp : ℤ
  maxHp : ℤ
  hitStunFrame : ℤ
  -- none: -1
  targetPlayerID : Option ℕ
  targetPos : Position F
  knockbackDist : F

section

variable {F : Type} [Machine F]

namespace Monster

/-- The constructor. -/
def new (monsterID : ℤ) (pos : Position F) (monsterType : ℤ) : Monster F where
  monsterID
  pos
  spawnPos := pos
  startMovePos := pos
  sector := ⟨0, 0⟩
  destSector := ⟨0, 0⟩
  monsterType
  direction := Direction.down
  beforeDirection := Direction.down
  state := .idle
  beforeState := .idle
  animFrame := 0
  speed := lit 3
  hp := MONSTER_MAX_HP
  maxHp := MONSTER_MAX_HP
  hitStunFrame := 0
  targetPlayerID := none
  targetPos := pos
  knockbackDist := lit 30

def PATROL_RADIUS : F := lit 150
def CHASE_LEASH_RADIUS : F := lit 2400
def MONSTER_ATTACK_RANGE : F := lit 50

def resetAnimStart (m : Monster F) : Monster F := { m with animFrame := 0, startMovePos := m.pos }

def changeState (m : Monster F) (state : MonsterState) : Except Stop (Monster F) := do
  myAssert (state ≠ m.state) "상태 전이 실패"
  return { m with state }.resetAnimStart

def changeDirection (m : Monster F) (direction : ℤ) : Monster F :=
  { m with direction, animFrame := 0, startMovePos := m.pos }

def moveUpdate (m : Monster F) : Monster F :=
  let d : F × F := directionVector m.direction
  { m with
    pos := .clamp (m.startMovePos.x + d.1 * m.speed * ofInt m.animFrame)
      (m.startMovePos.y + d.2 * m.speed * ofInt m.animFrame) }

/-- The direction in which `idleUpdate` turns back to the spawn position. -/
def homeDirection (m : Monster F) : ℤ :=
  let leftDir := lt m.spawnPos.x m.pos.x
  let upDir := lt m.spawnPos.y m.pos.y
  if eq m.spawnPos.x m.pos.x then if upDir then 5 else 0
  else if eq m.spawnPos.y m.pos.y then if leftDir then 3 else 4
  else if leftDir then if upDir then 6 else 1
  else if upDir then 7 else 2

def idleUpdate (m : Monster F) (rands : Rands) : Except Stop (Monster F × Rands) :=
  if lt PATROL_RADIUS (m.pos.dist m.spawnPos) then do
    return (← { m with direction := m.homeDirection }.changeState .move, rands)
  else
    let (r, rands) := rands.rand
    if r % 100 = 0 ∧ 10 ≤ m.animFrame then
      let (r, rands) := rands.rand
      do return (← { m with direction := (r : ℤ) % Direction.max }.changeState .move, rands)
    else return (m, rands)

def patrolUpdate (m : Monster F) (rands : Rands) : Except Stop (Monster F × Rands) :=
  if le PATROL_RADIUS (m.pos.dist m.spawnPos) then do return (← m.changeState .return, rands)
  else
    let (r, rands) := rands.rand
    if r % 100 = 0 ∧ 10 ≤ m.animFrame then do return (← m.changeState .idle, rands)
    else return (m.moveUpdate, rands)

def giveUpChase (m : Monster F) : Except Stop (Monster F) :=
  if lt PATROL_RADIUS (m.pos.dist m.spawnPos) then m.changeState .return else m.changeState .idle

def chaseUpdate (m : Monster F) (target : Position F) : Except Stop (Monster F) :=
  if lt CHASE_LEASH_RADIUS (m.pos.dist m.spawnPos) then m.giveUpChase
  else
    let newDirection := getDirectionTo m.pos target
    if le (m.pos.dist target) MONSTER_ATTACK_RANGE then
      (m.changeDirection newDirection).changeState .attack
    else if newDirection ≠ m.direction ∧ 10 ≤ m.animFrame then
      return (m.changeDirection newDirection).moveUpdate
    else return m.moveUpdate

def attackUpdate (m : Monster F) : Except Stop (Monster F) :=
  if MONSTER_ATTACK_TOTAL_FRAME ≤ m.animFrame then m.changeState .chase else return m

def stunUpdate (m : Monster F) : Except Stop (Monster F) :=
  if 0 < m.hitStunFrame then return { m with hitStunFrame := m.hitStunFrame - 1 } else
    m.changeState .chase

def deadUpdate (m : Monster F) : Except Stop (Monster F) :=
  if MONSTER_RESPAWN_FRAME ≤ m.animFrame then do
    let m ← m.changeState .idle
    return { m with startMovePos := m.spawnPos, pos := m.spawnPos, hp := m.maxHp }
  else return m

def returnUpdate (m : Monster F) : Except Stop (Monster F) := do
  let m ←
    if le (m.pos.dist m.spawnPos) (lit 10) then m.changeState .idle
    else if 15 ≤ m.animFrame then pure (m.changeDirection (getDirectionTo m.pos m.spawnPos))
    else pure m
  return m.moveUpdate

/-- `Monster::Update`. -/
def update (m : Monster F) (rands : Rands) : Except Stop (Monster F × Rands) :=
  let m := { m with animFrame := m.animFrame + 1 }
  match m.state with
  | .idle => m.idleUpdate rands
  | .move => m.patrolUpdate rands
  | .chase => do return (← m.chaseUpdate m.targetPos, rands)
  | .attack => do return (← m.attackUpdate, rands)
  | .stun => do return (← m.stunUpdate, rands)
  | .dead => do return (← m.deadUpdate, rands)
  | .return => do return (← m.returnUpdate, rands)

def takeDamage (m : Monster F) (damage : ℤ) (attacker : Player F) (attackerId : ℕ) :
    Except Stop (Monster F) :=
  if m.state = .dead then return m
  else
    let facing : F × F := directionVector attacker.direction
    let m := { m with
      direction := getDirectionTo m.pos attacker.pos
      pos := .clamp (m.pos.x + facing.1 * m.knockbackDist) (m.pos.y + facing.2 * m.knockbackDist)
      hp := max (m.hp - damage) 0 }
    if m.hp = 0 then m.changeState .dead
    else
      let m := { m with hitStunFrame := MONSTER_HIT_STUN_FRAME, targetPlayerID := some attackerId }
      if m.state = .stun then return m.resetAnimStart else m.changeState .stun

end Monster

/-- `PLAYER_ATTACK_KNOCKBACK_DIST`. -/
def PLAYER_ATTACK_KNOCKBACK_DIST : F := lit 100

def Player.takeDamage (p : Player F) (damage : ℤ) (attacker : Monster F) : Except Stop (Player F) :=
  if p.state = .dead then return p
  else
    let facing : F × F := directionVector attacker.direction
    let p := { p with
      direction := getDirectionTo p.pos attacker.pos
      pos := .clamp (p.pos.x + facing.1 * PLAYER_ATTACK_KNOCKBACK_DIST)
        (p.pos.y + facing.2 * PLAYER_ATTACK_KNOCKBACK_DIST)
      hp := max (p.hp - damage) 0 }
    if p.hp = 0 then p.changeState .dead
    else
      let p := { p with hitStunFrame := PLAYER_HIT_STUN_FRAME }
      if p.state = .stun then return p.resetAnimStart else p.changeState .stun

end

/-! ### Items -/

structure FieldItem (F : Type) where
  itemUniqueId : ℤ
  itemId : ItemId
  count : ℤ
  pos : Position F
  sector : Sector
  lifeFrame : ℤ

namespace FieldItem

variable {F : Type}

/-- The constructor. -/
def new (itemUniqueId : ℤ) (itemId : ItemId) (count : ℤ) (pos : Position F) : FieldItem F :=
  ⟨itemUniqueId, itemId, count, pos, ⟨0, 0⟩, 0⟩

def update (item : FieldItem F) : FieldItem F := { item with lifeFrame := item.lifeFrame + 1 }

def isExpired (item : FieldItem F) : Bool := ITEM_DESPAWN_FRAME ≤ item.lifeFrame

end FieldItem

/-- `kDropTable`: item, count and weight. -/
def kDropTable : List (ItemId × ℤ × ℕ) :=
  [(.gold, 1, 50), (.gold, 5, 20), (.gold, 10, 10), (.potion, 1, 20)]

/-- The loop of `rollDrop`. -/
def dropEntry (roll : ℕ) : List (ItemId × ℤ × ℕ) → ℕ → Option (ItemId × ℤ)
  | [], _ => none
  | (itemId, count, dropRate) :: entries, acc =>
    if roll < acc + dropRate then some (itemId, count) else dropEntry roll entries (acc + dropRate)

/-- `rollDrop`. The numbers from 32700 on, which it draws again, are not among `rands`. -/
def rollDrop (rands : Rands) : Option (ItemId × ℤ) × Rands :=
  let (randVal, rands) := rands.rand
  (dropEntry (randVal % 100) kDropTable 0, rands)

/-- `getSkillConfig`: the range and the number of targets. -/
def getSkillConfig {F : Type} [Machine F] (skillId : ℤ) : Option (F × ℤ) :=
  if skillId = 0 then some (lit 160, 1) else none

end Field
end MyMMO
