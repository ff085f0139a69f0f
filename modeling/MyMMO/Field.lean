/-
# The field thread

`FieldServer::fieldThread` as the operations it is made of: `handleRegisterPlayer`,
`fieldContentsPacketProc`, `fieldUpdate`, `monsterProc`, `checkDisConnectedAndLeavePlayer` and
`dbResultPacketProc`. A container of pointers is the list of the ids of its objects, in the order in
which it is gone through; a packet that is sent is appended to `sent`, with the session it goes to.
-/
import MyMMO.Contents

namespace MyMMO
namespace Field

open Machine

/-- A player in OTHER_CHARACTER_SPAWN and OTHER_CHARACTER_SPAWN_BATCH. -/
structure CharacterRecord (F : Type) where
  characterID : ℤ
  pos : Position F
  state : PlayerState
  direction : ℤ
  speed : F
  animFrame : ℤ
  characterType : ℤ
  nickname : List UInt8

/-- A monster in MONSTER_SPAWN and MONSTER_SPAWN_BATCH. -/
structure MonsterRecord (F : Type) where
  monsterID : ℤ
  pos : Position F
  state : MonsterState
  direction : ℤ
  hp : ℤ
  monsterType : ℤ
  animFrame : ℤ

/-- An item in ITEM_SPAWN and ITEM_SPAWN_BATCH. -/
structure ItemRecord (F : Type) where
  itemUniqueId : ℤ
  itemId : ItemId
  pos : Position F

/-- A packet of the field. -/
inductive Packet (F : Type)
  | otherCharacterSpawn (record : CharacterRecord F)
  | otherCharacterSpawnBatch (cnt : ℕ) (records : List (CharacterRecord F))
  | characterDespawn (characterID : ℤ)
  | moveStart (characterID : ℤ) (pos : Position F) (direction : ℤ) (speed : F)
  | moveStop (characterID : ℤ) (pos : Position F) (direction : ℤ)
  | monsterSpawn (record : MonsterRecord F)
  | monsterSpawnBatch (cnt : ℕ) (records : List (MonsterRecord F))
  | monsterDespawn (monsterID : ℤ)
  | monsterMoveStart (monsterID : ℤ) (pos : Position F) (direction : ℤ) (speed : F)
  | monsterMoveStop (monsterID : ℤ) (pos : Position F) (direction : ℤ)
  | otherCharacterAttack (characterID : ℤ)
  | monsterDamaged (monsterID : ℤ) (hp : ℤ) (pos : Position F) (direction : ℤ)
  | monsterAttack (monsterID : ℤ)
  | characterDamaged (characterID : ℤ) (hp : ℤ) (pos : Position F) (direction : ℤ) (monsterID : ℤ)
  | itemSpawn (record : ItemRecord F)
  | itemSpawnBatch (cnt : ℕ) (records : List (ItemRecord F))
  | itemDespawn (itemUniqueId : ℤ)
  | lootRes (result : ℤ) (itemId : ItemId) (count : ℤ)
  | rankingRes (topCnt : ℕ) (entries : List (List UInt8 × ℤ)) (myRank myKillCount : ℤ)

/-- A job of `dbThread`. -/
inductive DBJob (F : Type)
  | positionSave (seqID : ℕ) (accountNo : ℤ) (pos : Position F)
  | killCountUpdate (seqID : ℕ) (accountNo : ℤ) (nickname : List UInt8) (killCnt : ℤ)
  | rankingQuery (seqID : ℕ) (accountNo : ℤ) (nickname : List UInt8)

/-- The result of a job. -/
inductive DBResult
  | positionSave (seqID : ℕ)
  | killCountUpdate (seqID : ℕ)
  | rankingQuery (seqID : ℕ) (entries : List (List UInt8 × ℤ)) (myRank myKillCount : ℤ)

/-- What has happened, as far as the containers do not tell. `monsterState` is a change of `mState`
(or none), by whose attack if by one; `killCountUpdate` is the job that a kill of `monsterID` came
to, `positionSave` a job too, and `playerDisconnected` the notice PLAYER_DISCONNECTED. -/
inductive Event
  | fieldUpdate
  | monsterState (attacker : Option ℕ) (monsterID : ℤ) (old new : MonsterState)
  | dropItem (monsterID : ℤ)
  | killCountUpdate (monsterID : ℤ) (q : ℕ) (accountNo : ℤ) (nickname : List UInt8)
  | itemCreated (itemUniqueId : ℤ) (itemId : ItemId) (count : ℤ)
  | looted (q : ℕ) (itemUniqueId : ℤ)
  | expired (itemUniqueId : ℤ)
  | moveStart (q : ℕ)
  | moveStop (q : ℕ)
  | damaged (q : ℕ)
  | attackAccepted (q : ℕ)
  | attackHit (q : ℕ)
  | positionSave (q : ℕ)
  | playerDisconnected (q : ℕ)
  deriving DecidableEq

/-- `player`, `monster` and `item` are the objects, by `mSeqID`, `mMonsterID` and `mItemUniqueId`;
`dbJob` is the job that `dbThread` is at; `met` is the sessions that were ever registered and
`disconnects` the calls of `disconnectSession`. The program does not keep `met` and `history`. -/
structure State (F : Type) where
  player : ℕ → Player F
  players : List ℕ
  sectors : Sector → List ℕ
  monster : ℤ → Monster F
  monsters : List ℤ
  monsterSectors : Sector → List ℤ
  item : ℤ → FieldItem F
  items : List ℤ
  itemSectors : Sector → List ℤ
  itemUniqueID : ℤ
  dbReqQ : List (DBJob F)
  dbJob : Option (DBJob F)
  dbResQ : List DBResult
  notifyMsgQ : List ℤ
  sent : List (ℕ × Packet F)
  disconnects : List ℕ
  rands : Rands
  met : List ℕ
  history : List Event

namespace State

variable {F : Type}

def setPlayer (s : State F) (q : ℕ) (p : Player F) : State F :=
  { s with player := Function.update s.player q p }

def setMonster (s : State F) (id : ℤ) (m : Monster F) : State F :=
  { s with monster := Function.update s.monster id m }

def record (s : State F) (e : Event) : State F := { s with history := s.history ++ [e] }

def sendPost (s : State F) (q : ℕ) (packet : Packet F) : State F :=
  { s with sent := s.sent ++ [(q, packet)] }

def disconnectSession (s : State F) (q : ℕ) : State F :=
  { s with disconnects := s.disconnects ++ [q] }

/-- `mDBReqQ`'s `Enqueue`. -/
def enqueueJob (s : State F) (job : DBJob F) : State F := { s with dbReqQ := s.dbReqQ ++ [job] }

def notifyDisconnect (s : State F) (q : ℕ) (accountNo : ℤ) : State F :=
  { s.record (.playerDisconnected q) with notifyMsgQ := s.notifyMsgQ ++ [accountNo] }

/-- The players of the sectors `near`, in the order of the loops over them. -/
def near (s : State F) (nearSector : List Sector) : List ℕ := nearSector.flatMap s.sectors

/-- One packet to every player of `nearSector` that is not to be skipped. -/
def broadcast (s : State F) (nearSector : List Sector) (skip : ℕ → Bool)
    (packet : Packet F) : State F :=
  { s with
    sent := s.sent ++ ((s.near nearSector).filter fun q => !skip q).map fun q => (q, packet) }

end State

/-! ### Packets -/

section

variable {F : Type} [Machine F]

def Player.record (p : Player F) : CharacterRecord F :=
  ⟨p.characterID, p.pos, p.state, p.direction, p.speed, p.animFrame, p.characterType, p.nickname⟩

def Monster.record (m : Monster F) : MonsterRecord F :=
  ⟨m.monsterID, m.pos, m.state, m.direction, m.hp, m.monsterType, m.animFrame⟩

def FieldItem.record (item : FieldItem F) : ItemRecord F :=
  ⟨item.itemUniqueId, item.itemId, item.pos⟩

/-- The loop of the batch functions: `cnt` entities are to come, `left` of them fit in the
message `msg`, whose first component is its `cnt` field. -/
def batchLoop {ρ : Type} (maxBatch : ℕ) : List ρ → ℕ → ℕ → Option (ℕ × List ρ) → List (ℕ × List ρ)
  | [], _, _, msg => msg.toList
  | e :: es, cnt, left, msg =>
    if left = 0 then
      let n := min cnt maxBatch
      msg.toList ++ batchLoop maxBatch es (cnt - 1) (n - 1) (some (n, [e]))
    else batchLoop maxBatch es (cnt - 1) (left - 1) (msg.map fun m => (m.1, m.2 ++ [e]))

/-- The messages of a batch function; `recordSize` is its RECORD_SIZE. -/
def batches {ρ : Type} (recordSize : ℕ) (es : List ρ) : List (ℕ × List ρ) :=
  batchLoop ((BufferSize - 2 - 2 - Header.size) / recordSize) es es.length 0 none

namespace State

variable (s : State F)

def sendAll (q : ℕ) (packets : List (Packet F)) : State F :=
  { s with sent := s.sent ++ packets.map fun k => (q, k) }

def broadcastSpawn (q : ℕ) (nearSector : List Sector) : State F :=
  s.broadcast nearSector (· = q) (.otherCharacterSpawn (s.player q).record)

def sendSpawnBatch (q : ℕ) (nearSector : List Sector) : State F :=
  s.sendAll q ((batches 47 (((s.near nearSector).filter (· ≠ q)).map fun q' =>
    (s.player q').record)).map fun m =>
    .otherCharacterSpawnBatch m.1 m.2)

def broadcastDespawn (q : ℕ) (nearSector : List Sector) : State F :=
  s.broadcast nearSector (fun q' => (s.player q').characterID = (s.player q).characterID)
    (.characterDespawn (s.player q).characterID)

def sendDespawnBatch (q : ℕ) (nearSector : List Sector) : State F :=
  s.sendAll q (((s.near nearSector).filter fun q' => (s.player q').characterID ≠
    (s.player q).characterID).map fun q' =>
    .characterDespawn (s.player q').characterID)

/-- The monsters of the sectors `nearSector`. -/
def nearMonsters (nearSector : List Sector) : List ℤ := nearSector.flatMap s.monsterSectors

def nearItems (nearSector : List Sector) : List ℤ := nearSector.flatMap s.itemSectors

def sendMonsterSpawnBatch (q : ℕ) (nearSector : List Sector) : State F :=
  s.sendAll q
    ((batches 27 ((s.nearMonsters nearSector).map fun id => (s.monster id).record)).map fun m =>
    .monsterSpawnBatch m.1 m.2)

def sendMonsterDespawnBatch (q : ℕ) (nearSector : List Sector) : State F :=
  s.sendAll q ((s.nearMonsters nearSector).map fun id => .monsterDespawn (s.monster id).monsterID)

def sendItemSpawnBatch (q : ℕ) (nearSector : List Sector) : State F :=
  s.sendAll q ((batches 17 ((s.nearItems nearSector).map fun id => (s.item id).record)).map fun m =>
    .itemSpawnBatch m.1 m.2)

def sendItemDespawnBatch (q : ℕ) (nearSector : List Sector) : State F :=
  s.sendAll q ((s.nearItems nearSector).map fun id => .itemDespawn (s.item id).itemUniqueId)

/-- What is sent when `q` comes to `spawnSector`. -/
def sendSpawns (q : ℕ) (spawnSector : List Sector) : State F :=
  let s := s.broadcastSpawn q spawnSector
  let s := s.sendSpawnBatch q spawnSector
  let s := s.sendMonsterSpawnBatch q spawnSector
  s.sendItemSpawnBatch q spawnSector

/-- What is sent when `q` leaves `despawnSector`. -/
def sendDespawns (q : ℕ) (despawnSector : List Sector) : State F :=
  let s := s.broadcastDespawn q despawnSector
  let s := s.sendDespawnBatch q despawnSector
  let s := s.sendMonsterDespawnBatch q despawnSector
  s.sendItemDespawnBatch q despawnSector

def broadcastItemSpawn (item : FieldItem F) (nearSector : List Sector) : State F :=
  s.broadcast nearSector (fun _ => false) (.itemSpawn item.record)

def broadcastItemDespawn (item : FieldItem F) (nearSector : List Sector) : State F :=
  s.broadcast nearSector (fun _ => false) (.itemDespawn item.itemUniqueId)

def broadcastMonsterDamaged (m : Monster F) (nearSector : List Sector) : State F :=
  s.broadcast nearSector (fun _ => false) (.monsterDamaged m.monsterID m.hp m.pos m.direction)

def broadcastCharacterDamaged (damaged : Player F) (attacker : Monster F)
    (nearSector : List Sector) : State F :=
  s.broadcast nearSector (fun _ => false)
    (.characterDamaged damaged.characterID damaged.hp damaged.pos damaged.direction
      attacker.monsterID)

def broadcastMoveStart (q : ℕ) (nearSector : List Sector) : State F :=
  let p := s.player q
  s.broadcast nearSector (· = q) (.moveStart p.characterID p.pos p.direction p.speed)

def broadcastMoveStop (q : ℕ) (nearSector : List Sector) : State F :=
  let p := s.player q
  s.broadcast nearSector (· = q) (.moveStop p.characterID p.pos p.direction)

def broadcastPlayerAttack (q : ℕ) (nearSector : List Sector) : State F :=
  s.broadcast nearSector (· = q) (.otherCharacterAttack (s.player q).characterID)

def broadcastMonsterMoveStart (m : Monster F) (nearSector : List Sector) : State F :=
  s.broadcast nearSector (fun _ => false) (.monsterMoveStart m.monsterID m.pos m.direction m.speed)

def broadcastMonsterMoveStop (m : Monster F) (nearSector : List Sector) : State F :=
  s.broadcast nearSector (fun _ => false) (.monsterMoveStop m.monsterID m.pos m.direction)

def broadcastMonsterAttack (m : Monster F) (nearSector : List Sector) : State F :=
  s.broadcast nearSector (fun _ => false) (.monsterAttack m.monsterID)

def broadcastMonsterSpawn (m : Monster F) (nearSector : List Sector) : State F :=
  s.broadcast nearSector (fun _ => false) (.monsterSpawn m.record)

def broadcastMonsterDespawn (m : Monster F) (nearSector : List Sector) : State F :=
  s.broadcast nearSector (fun _ => false) (.monsterDespawn m.monsterID)

def sendLootRes (q : ℕ) (bSuccess : Bool) (itemId : ItemId) (count : ℤ) : State F :=
  s.sendPost q (.lootRes (if bSuccess then 0 else 1) itemId count)

end State

/-! ### Entering, and the packets of a player -/

open Sector (getAroundSectors)

/-- The `MY_ASSERT` behind `players.find`. -/
def State.hasPlayer (s : State F) (q : ℕ) (str : String) : Except Stop Unit :=
  myAssert (q ∈ s.players) str

def enterSector (s : State F) (q : ℕ) : Except Stop (State F) := do
  let p := s.player q
  let newSector := calcSector p.pos
  let s := s.setPlayer q { p with destSector := newSector, currentSector := newSector }
  myAssert (q ∉ s.sectors newSector) "섹터에 넣으려고했더니. 이미 존재함."
  return { s with sectors := Function.update s.sectors newSector (q :: s.sectors newSector) }

/-- `handleRegisterPlayer` for the new player `p`. -/
def handleRegisterPlayer (s : State F) (p : Player F) : Except Stop (State F) := do
  let q := p.seqID
  myAssert (q ∉ s.players) "같은 Player가 이미 존재하는 상황"
  let s := { s.setPlayer q p with players := q :: s.players, met := q :: s.met }
  let s ← enterSector s q
  let nearSector ← getAroundSectors (s.player q).currentSector
  return s.sendSpawns q nearSector

def CONFIG_SINK_MAXCOUNT : ℕ := 300

/-- `syncDistance`. -/
def syncDistance : F := lit 100

/-- `player.mSyncCnt += n` on a `uint64_t`. -/
def Player.addSync (p : Player F) (n : ℕ) : Player F :=
  { p with syncCnt := (p.syncCnt + n) % 2 ^ 64 }

/-- `msg >> x` for a `float`. -/
def readFloat (msg : Message) : Except Stop (F × Message) := do
  let (bs, msg) ← msg.getData 4
  return (ofBytes bs, msg)

/-- The position check that both move handlers make. -/
def Player.syncCheck (p : Player F) (packetPos : Position F) : Player F :=
  let distance := p.pos.dist packetPos
  if lt syncDistance distance then p.addSync (toUInt64 (distance - syncDistance))
  else if 10 < p.syncCnt then { p with syncCnt := p.syncCnt - 10 }
  else p

/-- It finds the client too far off. -/
def Player.outOfSync (p : Player F) (packetPos : Position F) : Bool :=
  lt syncDistance (p.pos.dist packetPos) && CONFIG_SINK_MAXCOUNT < (p.syncCheck packetPos).syncCnt

/-- The position is accepted. -/
def Player.place (p : Player F) (packetPos : Position F) (direction : ℤ) : Player F :=
  { p.syncCheck packetPos with pos := packetPos, direction }

def handleMoveStart (s : State F) (msg : Message) (q : ℕ) : Except Stop (State F) := do
  let (_, msg) ← msg.readInt 8
  let (x, msg) ← readFloat msg
  let (y, msg) ← readFloat msg
  let (direction, msg) ← msg.readInt 1
  let (speed, _) ← readFloat msg
  s.hasPlayer q "Player가 현재 스레드가 없는 상황이므로 말이 안됨."
  let p := s.player q
  match p.state with
  | .stun | .dead | .move => return s
  | .attack =>
    if ALLOW_DELAY_FRAME ≤ PLAYER_ATTACK_TOTAL_FRAME - p.animFrame then
      let p := p.addSync (PLAYER_ATTACK_TOTAL_FRAME - p.animFrame).toNat
      let s := s.setPlayer q p
      return if CONFIG_SINK_MAXCOUNT < p.syncCnt then s.disconnectSession q else s
    else start x y direction speed p
  | .idle => start x y direction speed p
where
  /-- What follows the switch over the states. -/
  start (x y : F) (direction : ℤ) (speed : F) (p : Player F) : Except Stop (State F) := do
    let packetPos : Position F := ⟨x, y⟩
    myAssert (!p.outOfSync packetPos) "클라이언트가 보낸 위치가 서버와 다르다."
    let p ← (p.place packetPos direction).changeState .move
    let s := (s.setPlayer q p).record (.moveStart q)
    myAssert (eq p.speed speed) "클라이언트가 보낸 스피드가 서버와 다르다."
    let nearSector ← getAroundSectors p.currentSector
    return s.broadcastMoveStart q nearSector

def handleMoveStop (s : State F) (msg : Message) (q : ℕ) : Except Stop (State F) := do
  let (_, msg) ← msg.readInt 8
  let (x, msg) ← readFloat msg
  let (y, msg) ← readFloat msg
  let (direction, _) ← msg.readInt 1
  s.hasPlayer q "패킷이 왔는데 현재 쓰레드에 Player가 없는 말이안되는 상황"
  let p := s.player q
  match p.state with
  | .attack | .dead | .stun => return s
  | .idle | .move =>
    let packetPos : Position F := ⟨x, y⟩
    myAssert (le (lit 0) packetPos.x) "클라이언트가 잘못보냄."
    myAssert (le (lit 0) packetPos.y) "클라이언트가 잘못보냄."
    myAssert (le packetPos.x (ofInt (SECTOR_WORLD_W * SECTOR_COL_CNT))) "클라이언트가 잘못보냄."
    myAssert (le packetPos.y (ofInt (SECTOR_WORLD_H * SECTOR_ROW_CNT))) "클라이언트가 잘못보냄."
    if p.outOfSync packetPos then return (s.setPlayer q (p.syncCheck packetPos)).disconnectSession q
    else
      let p := p.place packetPos direction
      let p ← if p.state ≠ .idle then p.changeState .idle else pure p
      let s := (s.setPlayer q p).record (.moveStop q)
      let nearSector ← getAroundSectors p.currentSector
      return s.broadcastMoveStop q nearSector

/-- The loop of `handleAttackReq` that reads `targetCnt` monster ids. -/
def readTargets : ℕ → Message → Except Stop (List ℤ)
  | 0, _ => return []
  | n + 1, msg => do
    let (monsterId, msg) ← msg.readInt 8
    return monsterId :: (← readTargets n msg)

def handleAttackReq (s : State F) (msg : Message) (q : ℕ) : Except Stop (State F) := do
  let (skillId, msg) ← msg.readInt 1
  let (targetCnt, msg) ← msg.readInt 2
  match (getSkillConfig skillId : Option (F × ℤ)) with
  | none => return s.disconnectSession q
  | some (_, maxTargetCnt) =>
    if maxTargetCnt < targetCnt then return s.disconnectSession q
    else
      s.hasPlayer q "패킷이 왔는데 현재 쓰레드에 Player가 없는 말이안되는 상황"
      let p := s.player q
      match p.state with
      | .dead | .attack | .stun => return s
      | .idle | .move =>
        let nearSector ← getAroundSectors p.currentSector
        let p ← p.changeState .attack
        let s :=
          (s.setPlayer q { p with pendingAttackSkillId := skillId }).record (.attackAccepted q)
        let s := s.broadcastPlayerAttack q nearSector
        let targets ← readTargets targetCnt.toNat msg
        return s.setPlayer q { s.player q with pendingAttackTargets := targets }

/-- `mInventory[itemId] += count` on an `int32_t`. -/
def Player.addItem (p : Player F) (item : FieldItem F) : Player F :=
  { p with inventory := Function.update p.inventory item.itemId ((p.inventory item.itemId +
    item.count).bmod (2 ^ 32)) }

def LOOT_RANGE : F := lit 50

def handleLootReq (s : State F) (msg : Message) (q : ℕ) : Except Stop (State F) := do
  let (itemUniqueId, _) ← msg.readInt 8
  s.hasPlayer q "패킷이 왔는데 현재 쓰레드에 Player가 없는 말이안되는 상황"
  let p := s.player q
  if itemUniqueId ∉ s.items then return s.sendLootRes q false .max 0
  else
    let item := s.item itemUniqueId
    if lt LOOT_RANGE (p.pos.dist item.pos) then return s.sendLootRes q false .max 0
    else
      let s := s.setPlayer q (p.addItem item)
      let nearSector ← getAroundSectors item.sector
      let s := s.broadcastItemDespawn item nearSector
      let s := s.sendLootRes q true item.itemId item.count
      myAssert (itemUniqueId ∈ s.itemSectors item.sector) "섹터에 아이템이 없음"
      return { s.record (.looted q itemUniqueId) with
        itemSectors := Function.update s.itemSectors item.sector
          ((s.itemSectors item.sector).erase itemUniqueId)
        items := s.items.erase itemUniqueId }

def handleRankingReq (s : State F) (_msg : Message) (q : ℕ) : Except Stop (State F) := do
  s.hasPlayer q "패킷이 왔는데 현재 쓰레드에 Player가 없는 말이안되는 상황"
  let p := s.player q
  return s.enqueueJob (.rankingQuery q p.accountNo p.nickname)

/-- `stats::RecordRecv`; `kTableSize` is 128. -/
def recordRecv (type : ℤ) : Except Stop Unit := rtAssert (0 ≤ type ∧ type < 128)

/-- `PacketType`, what a client may send. -/
def PacketType.FIELD_AUTH_REQ : ℤ := 100
def PacketType.MOVE_START : ℤ := 106
def PacketType.MOVE_STOP : ℤ := 107
def PacketType.PLAYER_ATTACK_REQ : ℤ := 113
def PacketType.LOOT_REQ : ℤ := 121
def PacketType.RANKING_REQ : ℤ := 123

def fieldContentsPacketProc (s : State F) (msg : Message) (q : ℕ) : Except Stop (State F) := do
  let (type, msg) ← msg.readInt 2
  recordRecv type
  if type = PacketType.MOVE_START then handleMoveStart s msg q
  else if type = PacketType.MOVE_STOP then handleMoveStop s msg q
  else if type = PacketType.PLAYER_ATTACK_REQ then handleAttackReq s msg q
  else if type = PacketType.LOOT_REQ then handleLootReq s msg q
  else if type = PacketType.RANKING_REQ then handleRankingReq s msg q
  else return s.disconnectSession q

/-! ### `fieldUpdate` -/

/-- `requestKillCountUpdate`, for a kill of `monsterID`. -/
def requestKillCountUpdate (s : State F) (q : ℕ) (killCnt : ℤ) (monsterID : ℤ) : State F :=
  let p := s.player q
  (s.record (.killCountUpdate monsterID q p.accountNo p.nickname)).enqueueJob
    (.killCountUpdate q p.accountNo p.nickname killCnt)

def dropItem (s : State F) (m : Monster F) : Except Stop (State F) :=
  let s := s.record (.dropItem m.monsterID)
  match rollDrop s.rands with
  | (none, rands) => return { s with rands }
  | (some (itemId, count), rands) => do
    let itemUniqueId := s.itemUniqueID + 1
    let sector := calcSector m.pos
    let item := { FieldItem.new itemUniqueId itemId count m.pos with sector }
    let s := { s.record (.itemCreated itemUniqueId itemId count) with
      rands
      itemUniqueID := itemUniqueId
      item := Function.update s.item itemUniqueId item
      items := itemUniqueId :: s.items
      itemSectors := Function.update s.itemSectors sector (itemUniqueId :: s.itemSectors sector) }
    let nearSector ← getAroundSectors sector
    return s.broadcastItemSpawn item nearSector

/-- The order of the `sort` in `processPlayerAttackHit`. -/
def closer (s : State F) (p : Player F) (a b : ℤ) : Bool :=
  let disA := p.pos.dist (s.monster a).pos
  let disB := p.pos.dist (s.monster b).pos
  if eq disA disB then a < b else lt disA disB

/-- The last loop of `processPlayerAttackHit`. -/
def hitTargets (q : ℕ) (rangeLen : F) : List ℤ → ℤ → State F → Except Stop (State F)
  | [], _, s => return s
  | id :: ids, maxTargetCnt, s =>
    let p := s.player q
    if id ∉ s.monsters ∨ !le (p.pos.dist (s.monster id).pos) rangeLen then
      hitTargets q rangeLen ids maxTargetCnt s
    else do
      let m ← (s.monster id).takeDamage p.attackPower p q
      let s := (s.setMonster id m).record (.monsterState (some q) id (s.monster id).state m.state)
      let monsterNearSector ← getAroundSectors m.sector
      let s := s.broadcastMonsterDamaged m monsterNearSector
      let s ← if m.state = .dead then
          (dropItem s m).map (requestKillCountUpdate · q 1 id) else pure s
      if maxTargetCnt - 1 = 0 then return s else hitTargets q rangeLen ids (maxTargetCnt - 1) s

def processPlayerAttackHit (s : State F) (q : ℕ) : Except Stop (State F) :=
  let s := s.record (.attackHit q)
  let p := s.player q
  match (getSkillConfig p.pendingAttackSkillId : Option (F × ℤ)) with
  | none => return s
  | some (rangeLen, maxTargetCnt) =>
    let targets := p.pendingAttackTargets.filter fun id =>
      id ∈ s.monsters ∧ (s.monster id).state ≠ .dead ∧ (s.monster id).state ≠ .return
    let targets := targets.mergeSort fun a b => !closer s p b a
    hitTargets q rangeLen targets maxTargetCnt (s.setPlayer q { p with
      pendingAttackTargets := targets })

def updateSectorChechk (s : State F) (q : ℕ) : State F :=
  let p := s.player q
  let newSector := calcSector p.pos
  if newSector = p.currentSector then s else s.setPlayer q { p with destSector := newSector }

/-- The first loop of `fieldUpdate`. -/
def updatePlayer (s : State F) (q : ℕ) : Except Stop (State F) := do
  let p ← (s.player q).update
  let s := s.setPlayer q p
  let s ← if p.state = .attack ∧ p.animFrame = PLAYER_ATTACK_AWINDUP_FRAME then
      processPlayerAttackHit s q else pure s
  return updateSectorChechk s q

def calcDespawnAndSpawnSector (dest current : Sector) :
    Except Stop (List Sector × List Sector) := do
  let spawnSector ← getAroundSectors dest
  let despawnSector ← getAroundSectors current
  return calcDespawnAndSpawn spawnSector despawnSector

/-- A player is taken from one cell of `sectors` and put into another. -/
def State.movePlayer (s : State F) (q : ℕ) (p : Player F) : State F :=
  let sectors := Function.update s.sectors p.currentSector ((s.sectors p.currentSector).erase q)
  { s.setPlayer q { p with currentSector := p.destSector } with
    sectors := Function.update sectors p.destSector (q :: sectors p.destSector) }

/-- The second loop of `fieldUpdate`. -/
def updateSector (s : State F) (q : ℕ) : Except Stop (State F) :=
  let p := s.player q
  if p.currentSector = p.destSector then return s
  else do
    myAssert (q ∈ s.sectors p.currentSector) "이동전 섹터에 player이 없다."
    let (spawnSector, despawnSector) ← calcDespawnAndSpawnSector p.destSector p.currentSector
    return ((s.sendSpawns q spawnSector).sendDespawns q despawnSector).movePlayer q p

/-- The position of the target, if it can be chased. -/
def possibleChasePlayer (s : State F) (playerID : Option ℕ) : Option (Position F) :=
  match playerID with
  | none => none
  | some q => if q ∈ s.players ∧ (s.player q).state ≠ .dead then some (s.player q).pos else none

/-- The loop of `processMonsterAttackHit`. -/
def closestPlayer (s : State F) (pos : Position F) : List ℕ → F → Option ℕ → Option ℕ
  | [], _, closest => closest
  | q :: qs, closestDist, closest =>
    let dist := pos.dist (s.player q).pos
    if (s.player q).state ≠ .dead ∧ le dist closestDist then closestPlayer s pos qs dist (some q)
    else closestPlayer s pos qs closestDist closest

def processMonsterAttackHit (s : State F) (m : Monster F) : Except Stop (State F) := do
  let nearSector ← getAroundSectors m.sector
  match closestPlayer s m.pos (s.near nearSector) Monster.MONSTER_ATTACK_RANGE none with
  | none => return s
  | some q => do
    let p ← (s.player q).takeDamage MONSTER_ATTACK_DAMAGE m
    let s := (s.setPlayer q p).record (.damaged q)
    let targetNearSector ← getAroundSectors p.currentSector
    return s.broadcastCharacterDamaged p m targetNearSector

def updateMonsterSectorCheck (m : Monster F) : Monster F :=
  let newSector := calcSector m.pos
  if newSector = m.sector then m else { m with destSector := newSector }

/-- The third loop of `fieldUpdate`. -/
def updateMonster (s : State F) (id : ℤ) : Except Stop (State F) := do
  let m := s.monster id
  let m := { m with beforeState := m.state, beforeDirection := m.direction }
  let m ←
    if m.state = .chase then
      match possibleChasePlayer s m.targetPlayerID with
      | some targetPos => pure { m with targetPos }
      | none => m.giveUpChase
    else pure m
  let (m, rands) ← m.update s.rands
  let s := { (s.setMonster id m).record (.monsterState none id (s.monster id).state m.state) with
    rands }
  let s ←
    if m.state = .attack ∧ m.animFrame = MONSTER_ATTACK_WINDUP_FRAME then
      processMonsterAttackHit s m else pure s
  return s.setMonster id (updateMonsterSectorCheck m)

def calcMonsterDespawnAndSpawnSector (dest current : Sector) :
    Except Stop (List Sector × List Sector) := do
  let spawnSector ← getAroundSectors dest
  let despawnSector ← getAroundSectors current
  return calcDespawnAndSpawn spawnSector despawnSector

/-- A monster is taken from one cell of `monsterSectors` and put into another. -/
def State.moveMonster (s : State F) (id : ℤ) (m : Monster F) : State F :=
  let sectors := Function.update s.monsterSectors m.sector ((s.monsterSectors m.sector).erase id)
  { s.setMonster id { m with sector := m.destSector } with
    monsterSectors := Function.update sectors m.destSector (id :: sectors m.destSector) }

/-- The fourth loop of `fieldUpdate`. -/
def updateMonsterSector (s : State F) (id : ℤ) : Except Stop (State F) :=
  let m := s.monster id
  if m.beforeState ≠ .dead ∧ m.sector ≠ m.destSector then do
    myAssert (id ∈ s.monsterSectors m.sector) "이동전 섹터에 monster가 없다."
    let (spawnSector, despawnSector) ← calcMonsterDespawnAndSpawnSector m.destSector m.sector
    let s := s.broadcastMonsterSpawn m spawnSector
    let s := s.broadcastMonsterDespawn m despawnSector
    return s.moveMonster id m
  else return s

/-- The last loop of `fieldUpdate`. -/
def updateItem (s : State F) (id : ℤ) : Except Stop (State F) :=
  let item := (s.item id).update
  let s := { s with item := Function.update s.item id item }
  if item.isExpired then do
    let nearSector ← getAroundSectors item.sector
    let s := s.broadcastItemDespawn item nearSector
    return { s.record (.expired id) with
      itemSectors := Function.update s.itemSectors item.sector
        ((s.itemSectors item.sector).erase id)
      items := s.items.erase id }
  else return s

def fieldUpdate (s : State F) : Except Stop (State F) := do
  let s ← s.players.foldlM updatePlayer (s.record .fieldUpdate)
  let s ← s.players.foldlM updateSector s
  let s ← s.monsters.foldlM updateMonster s
  let s ← s.monsters.foldlM updateMonsterSector s
  s.items.foldlM updateItem s

/-! ### `monsterProc` -/

/-- The body of the loop of `monsterProc`, its last two assignments apart. -/
def monsterPackets (s : State F) (id : ℤ) : Except Stop (State F) := do
  let m := s.monster id
  match m.state with
  | .move | .chase | .return => do
    let nearSector ← getAroundSectors m.sector
    let wasMoving := m.beforeState = .move ∨ m.beforeState = .chase ∨ m.beforeState = .return
    let s := if wasMoving then s.broadcastMonsterMoveStop m nearSector else s
    return s.broadcastMonsterMoveStart m nearSector
  | .attack => do
    let nearSector ← getAroundSectors m.sector
    return (s.broadcastMonsterMoveStop m nearSector).broadcastMonsterAttack m nearSector
  | .idle =>
    if m.beforeState = .dead then do
      let oldNearSector ← getAroundSectors m.sector
      let s := s.broadcastMonsterDespawn m oldNearSector
      let s ←
        if m.sector ≠ m.destSector then do
          myAssert (id ∈ s.monsterSectors m.sector) "부활 전 섹터에 monster가 없다."
          pure (s.moveMonster id m)
        else pure s
      let newNearSector ← getAroundSectors (s.monster id).sector
      return s.broadcastMonsterSpawn (s.monster id) newNearSector
    else do
      let nearSector ← getAroundSectors m.sector
      return s.broadcastMonsterMoveStop m nearSector
  | .stun | .dead => return s

def procMonster (s : State F) (id : ℤ) : Except Stop (State F) :=
  let m := s.monster id
  if m.state = m.beforeState ∧ m.direction = m.beforeDirection then return s
  else do
    let s ← monsterPackets s id
    let m := s.monster id
    return s.setMonster id { m with beforeState := m.state, beforeDirection := m.direction }

def monsterProc (s : State F) : Except Stop (State F) := s.monsters.foldlM procMonster s

/-! ### Leaving -/

def CONFIG_DISCONNECT_AND_LEAVE_CAP : ℕ := 1000

def requestPositionSave (s : State F) (q : ℕ) : Except Stop (State F) := do
  let p := s.player q
  myAssert (p.savePending = false) "이미 저장 요청을 보낸 Player에게 중복 요청"
  let s := s.setPlayer q { p with savePending := true }
  return (s.record (.positionSave q)).enqueueJob (.positionSave p.seqID p.accountNo p.pos)

/-- The second loop of `checkDisConnectedAndLeavePlayer`. -/
def saveDisconnected (s : State F) (q : ℕ) : Except Stop (State F) := do
  myAssert (q ∈ s.players) "현재 스레드가 소유하지않은 Player"
  if (s.player q).savePending then return s else requestPositionSave s q

def checkDisConnectedAndLeavePlayer (s : State F) : Except Stop (State F) :=
  let disconnectSession :=
    (s.players.filter fun q => !(s.player q).connect).take CONFIG_DISCONNECT_AND_LEAVE_CAP
  disconnectSession.foldlM saveDisconnected s

/-- The result of a PositionSave. -/
def positionSaved (s : State F) (q : ℕ) : Except Stop (State F) :=
  if q ∉ s.players then return s
  else do
    let p := { s.player q with savePending := false }
    let s := (s.setPlayer q p).notifyDisconnect q p.accountNo
    myAssert (q ∈ s.sectors p.currentSector) "못찾으면 말이안 됨."
    return { s with
      sectors := Function.update s.sectors p.currentSector ((s.sectors p.currentSector).erase q)
      players := s.players.erase q }

/-- The body of the loop of `dbResultPacketProc`. -/
def dbResult (s : State F) (result : DBResult) : Except Stop (State F) :=
  match result with
  | .positionSave q => positionSaved s q
  | .killCountUpdate _ => return s
  | .rankingQuery q entries myRank myKillCount =>
    return if q ∈ s.players then
      s.sendPost q (.rankingRes entries.length entries myRank myKillCount) else s

def dbResultPacketProc (s : State F) : Except Stop (State F) :=
  s.dbResQ.foldlM dbResult { s with dbResQ := [] }

/-! ### The system -/

/-- A pass of the loops of `spawnMonsters`. -/
def spawnMonster (s : State F) (cell : ℤ × ℤ) : State F :=
  let (row, col) := cell
  let (cnt, rands) := s.rands.rand
  if cnt % 2 = 0 then { s with rands }
  else
    let (x, rands) := rands.rand
    let (y, rands) := rands.rand
    let pos : Position F := ⟨ofInt (col * SECTOR_WORLD_W + x % SECTOR_WORLD_W),
      ofInt (row * SECTOR_WORLD_H + y % SECTOR_WORLD_H)⟩
    let sector := calcSector pos
    let id : ℤ := s.monsters.length
    { s.setMonster id { Monster.new id pos 0 with sector, destSector := sector } with
      rands
      monsters := id :: s.monsters
      monsterSectors := Function.update s.monsterSectors sector (id :: s.monsterSectors sector) }

def cells : List (ℤ × ℤ) :=
  (List.range 20).flatMap fun row => (List.range 20).map fun col => ((row : ℤ), (col : ℤ))

/-- The field before `spawnMonsters`. -/
def empty (rands : Rands) : State F where
  player q := .login q 0 0 ⟨lit 0, lit 0⟩ []
  players := []
  sectors _ := []
  monster id := .new id ⟨lit 0, lit 0⟩ 0
  monsters := []
  monsterSectors _ := []
  item id := .new id .max 0 ⟨lit 0, lit 0⟩
  items := []
  itemSectors _ := []
  itemUniqueID := 0
  dbReqQ := []
  dbJob := none
  dbResQ := []
  notifyMsgQ := []
  sent := []
  disconnects := []
  rands
  met := []
  history := []

def spawnMonsters (s : State F) : State F := cells.foldl spawnMonster s

/-- What `dbThread` finds out for a RankingQuery. -/
structure Ranking where
  entries : List (List UInt8 × ℤ)
  myRank : ℤ
  myKillCount : ℤ

def answer (ranking : Ranking) : DBJob F → DBResult
  | .positionSave q _ _ => .positionSave q
  | .killCountUpdate q _ _ _ => .killCountUpdate q
  | .rankingQuery q _ _ => .rankingQuery q ranking.entries ranking.myRank ranking.myKillCount

/-- The operations of the field thread, what `dbThread` and the workers do beside it, and a
container that is gone through in another order from now on. -/
inductive Step (F : Type)
  | registerPlayer (q : ℕ) (accountNo characterID : ℤ) (pos : Position F) (nickname : List UInt8)
  | contentsPacket (q : ℕ) (msg : Message)
  | fieldUpdate
  | monsterProc
  | checkDisConnected
  | dbResults
  | onRelease (q : ℕ)
  | dbDequeue
  | dbAnswer (ranking : Ranking)
  | rehashPlayers (players : List ℕ)
  | rehashSector (c : Sector) (players : List ℕ)
  | rehashMonsters (monsters : List ℤ)
  | rehashMonsterSector (c : Sector) (monsters : List ℤ)
  | rehashItems (items : List ℤ)
  | rehashItemSector (c : Sector) (items : List ℤ)

/-- One step; `Except` says whether the process survives it. -/
def step (s : State F) : Step F → Option (Except Stop (State F))
  | .registerPlayer q accountNo characterID pos nickname =>
    if q ∉ s.met ∧ ∀ q' ∈ s.players, (s.player q').characterID ≠ characterID then
      some (handleRegisterPlayer s (.login q accountNo characterID pos nickname))
    else none
  | .contentsPacket q msg =>
    -- `DeQueueMsgOrNull` has no message of a player whose session has ended
    if q ∈ s.players ∧ (s.player q).connect = true then
      some (fieldContentsPacketProc s msg q) else none
  | .fieldUpdate => some (fieldUpdate s)
  | .monsterProc => some (monsterProc s)
  | .checkDisConnected => some (checkDisConnectedAndLeavePlayer s)
  | .dbResults => some (dbResultPacketProc s)
  | .onRelease q => some (return s.setPlayer q { s.player q with connect := false })
  | .dbDequeue =>
    match s.dbJob, s.dbReqQ with
    | none, job :: dbReqQ => some (return { s with dbReqQ, dbJob := some job })
    | _, _ => none
  | .dbAnswer ranking =>
    match s.dbJob with
    | none => none
    | some job => some (return { s with dbJob := none, dbResQ := s.dbResQ ++ [answer ranking job] })
  | .rehashPlayers players =>
      if players.Perm s.players then some (return { s with players }) else none
  | .rehashSector c players =>
    if players.Perm (s.sectors c) then
      some (return { s with sectors := Function.update s.sectors c players })
    else none
  | .rehashMonsters monsters =>
      if monsters.Perm s.monsters then some (return { s with monsters }) else none
  | .rehashMonsterSector c monsters =>
    if monsters.Perm (s.monsterSectors c) then
      some (return { s with monsterSectors := Function.update s.monsterSectors c monsters })
    else none
  | .rehashItems items => if items.Perm s.items then some (return { s with items }) else none
  | .rehashItemSector c items =>
    if items.Perm (s.itemSectors c) then
      some (return { s with itemSectors := Function.update s.itemSectors c items })
    else none

end

end Field
end MyMMO
