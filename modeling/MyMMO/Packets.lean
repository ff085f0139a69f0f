/-
# The packets

What FieldServer writes for each PacketType it sends, value by value, with the `header.Len` it
computes beside; and what the client (`LoginScene`, `FieldScene`) and the bot read. Nothing checks
that the two agree. They do, for every packet whose values have the types they are written as:
`header.Len` is what is written behind the header, the message fits, and either end reads the packet
back and nothing is left (`packet_read_back`).
-/
import MyMMO.Payload
import MyMMO.ClientRecv
import MyMMO.Batch
import MyMMO.Login
import MyMMO.Ranking
import MyMMO.Lib.Codec

namespace MyMMO
namespace Wire

open Codec Message FloatBytes Batch MyMMO.Field

/-! ### Writing -/

/-- What is put into a message: `header.Len`, and the values behind the header in their order. -/
structure Written where
  len : ℤ
  values : List (List UInt8)

/-- `PutData(&header, sizeof(header))`, then the values. -/
def Written.message (w : Written) (sessionID : SeqAndIdx) : Except Stop Message :=
  (Message.initMessage sessionID 0).putAll
    ((intToBytes 2 (int16 w.len) ++ intToBytes 1 0) :: w.values)

def Written.payload (w : Written) : List UInt8 := w.values.flatten

/-- `header.Len` is right, positive and not too large. -/
structure Written.Sound (w : Written) : Prop where
  len : w.len = w.payload.length
  pos : 0 < w.payload.length
  fits : Header.size + w.payload.length ≤ BufferSize

/-- The header of a sound message, as it is in memory. -/
theorem Written.Sound.header {w : Written} (h : w.Sound) :
    intToBytes 2 (int16 w.len) ++ intToBytes 1 0 = Header.bytes w.payload.length 0 := by
  have hfits := h.fits
  unfold BufferSize Header.size at hfits
  rw [h.len, int16_of_lt (by omega) (by omega), header_bytes]

/-- It says how long the rest is. -/
theorem Written.Sound.message {w : Written} (h : w.Sound) (sessionID : SeqAndIdx) :
    w.message sessionID = .ok ⟨sessionID, 0, Header.bytes w.payload.length 0 ++ w.payload, 0⟩ := by
  have hfits := h.fits
  unfold Written.message
  rw [h.header, Message.putAll_ok]
  · simp only [Message.initMessage, List.flatten_cons, List.nil_append]
    rfl
  · simp only [Message.initMessage, List.flatten_cons, List.length_append, Header.bytes_length,
      List.length_nil, Nat.zero_add]
    exact hfits

/-! ### Reading -/

/-- What is read from a message, `msg >> x`. -/
abbrev Reader := StateT Message (Except Stop)

def int (size : ℕ) : Reader ℤ := fun msg => msg.readInt size

def float {F : Type} [Machine F] : Reader F := fun msg => readFloat msg

/-- `msg.GetData(x, sizeof(x))` for an array of `char`. -/
def chars (size : ℕ) : Reader (List UInt8) := fun msg => msg.getData size

/-- A value of a signed type of `size` bytes. -/
def InRange (size : ℕ) (n : ℤ) : Prop := -2 ^ (8 * size - 1) ≤ n ∧ n < 2 ^ (8 * size - 1)

instance (size : ℕ) (n : ℤ) : Decidable (InRange size n) := inferInstanceAs (Decidable (_ ∧ _))

/-- A value that a `float` has. -/
def IsFloat {F : Type} [Machine F] [FloatBytes F] (x : F) : Prop :=
  Machine.ofBytes (floatBytes x) = x

section

variable {F : Type} [Machine F]

theorem takes_chars {bs : List UInt8} (h : 0 < bs.length) :
    Takes Message.rest (chars bs.length) bs bs := by
  intro msg rest hrest
  have hlen := congrArg List.length hrest
  rw [rest_length, List.length_append] at hlen
  refine ⟨msg.skip bs.length, ?_, ?_⟩
  · show msg.getData bs.length = _
    rw [getData_ok (by omega)]
    change Except.ok ((msg.rest.take bs.length), msg.skip bs.length) = _
    rw [hrest, List.take_left]
  · rw [rest_skip, hrest, List.drop_left]

theorem takes_int {size : ℕ} (hsize : 0 < size) {n : ℤ} (h : InRange size n) :
    Takes Message.rest (int size) (intToBytes size n) n := by
  intro msg rest hrest
  obtain ⟨t, ht, hleft⟩ := takes_chars (by rw [intToBytes_length]; exact hsize) msg rest hrest
  rw [intToBytes_length] at ht
  refine ⟨t, ?_, hleft⟩
  show (msg.getData size >>= fun p => pure (intOfBytes p.1, p.2)) = _
  rw [show msg.getData size = .ok (intToBytes size n, t) from ht]
  show Except.ok (intOfBytes (intToBytes size n), t) = _
  rw [intOfBytes_intToBytes hsize h.1 h.2]

theorem takes_float [FloatBytes F] {x : F} (h : IsFloat x) :
    Takes Message.rest float (floatBytes x) x := by
  intro msg rest hrest
  obtain ⟨t, ht, hleft⟩ := takes_chars (by rw [floatBytes_length]; decide) msg rest hrest
  rw [floatBytes_length] at ht
  refine ⟨t, ?_, hleft⟩
  show (msg.getData 4 >>= fun p => pure (Machine.ofBytes p.1, p.2)) = _
  rw [show msg.getData 4 = .ok (floatBytes x, t) from ht]
  show Except.ok (Machine.ofBytes (floatBytes x), t) = _
  rw [h]

end

/-! ### What FieldServer writes -/

/-- `PacketType`, what a server sends. -/
def PacketType.FIELD_AUTH_FAIL : ℤ := 101
def PacketType.FIELD_AUTH_RES : ℤ := 102
def PacketType.OTHER_CHARACTER_SPAWN : ℤ := 103
def PacketType.OTHER_CHARACTER_SPAWN_BATCH : ℤ := 104
def PacketType.CHARACTER_DESPAWN : ℤ := 105
def PacketType.MONSTER_SPAWN : ℤ := 108
def PacketType.MONSTER_SPAWN_BATCH : ℤ := 109
def PacketType.MONSTER_DESPAWN : ℤ := 110
def PacketType.MONSTER_MOVE_START : ℤ := 111
def PacketType.MONSTER_MOVE_STOP : ℤ := 112
def PacketType.OTHER_CHARACTER_ATTACK : ℤ := 114
def PacketType.MONSTER_DAMAGED : ℤ := 115
def PacketType.MONSTER_ATTACK : ℤ := 116
def PacketType.CHARACTER_DAMAGED : ℤ := 117
def PacketType.ITEM_SPAWN : ℤ := 118
def PacketType.ITEM_SPAWN_BATCH : ℤ := 119
def PacketType.ITEM_DESPAWN : ℤ := 120
def PacketType.LOOT_RES : ℤ := 122
def PacketType.RANKING_RES : ℤ := 124

section

variable {F : Type} [FloatBytes F]

/-- A packet of nothing but an id. -/
def writeId (type id : ℤ) : Written := ⟨2 + 8, [intToBytes 2 type, intToBytes 8 id]⟩

/-- An id, a position and a direction. -/
def writeMoveStop (type id : ℤ) (pos : Position F) (direction : ℤ) : Written :=
  ⟨2 + 8 + 4 + 4 + 1, [intToBytes 2 type, intToBytes 8 id, floatBytes pos.x, floatBytes pos.y,
    intToBytes 1 direction]⟩

/-- The same and a speed. -/
def writeMoveStart (type id : ℤ) (pos : Position F) (direction : ℤ) (speed : F) : Written :=
  ⟨2 + 8 + 4 + 4 + 1 + 4,
    [intToBytes 2 type, intToBytes 8 id, floatBytes pos.x, floatBytes pos.y, intToBytes 1 direction,
      floatBytes speed]⟩

/-- The type, the number of the records and the records. -/
def writeBatch {ε : Type} (type : ℤ) (recordSize : ℕ) (values : ε → List (List UInt8)) (cnt : ℕ)
    (records : List ε) : Written :=
  ⟨2 + 2 + recordSize * cnt, intToBytes 2 type :: intToBytes 2 cnt :: records.flatMap values⟩

/-- `maxBatch` for records of this size. -/
def maxBatch (recordSize : ℕ) : ℕ := (BufferSize - 2 - 2 - Header.size) / recordSize

/-- Of OTHER_CHARACTER_SPAWN and its batch. -/
def characterValues (record : CharacterRecord F) : List (List UInt8) :=
  [intToBytes 8 record.characterID, floatBytes record.pos.x, floatBytes record.pos.y,
    intToBytes 1 record.state.toInt8, intToBytes 1 record.direction, floatBytes record.speed,
    intToBytes 4 record.animFrame, intToBytes 1 record.characterType, nicknameBytes record.nickname]

def monsterValues (record : MonsterRecord F) : List (List UInt8) :=
  [intToBytes 8 record.monsterID, floatBytes record.pos.x, floatBytes record.pos.y,
    intToBytes 1 record.state.toInt8, intToBytes 1 record.direction, intToBytes 4 record.hp,
    intToBytes 1 record.monsterType, intToBytes 4 record.animFrame]

def itemValues (record : ItemRecord F) : List (List UInt8) :=
  [intToBytes 8 record.itemUniqueId, intToBytes 1 record.itemId.toInt8, floatBytes record.pos.x,
    floatBytes record.pos.y]

def CHARACTER_RECORD_SIZE : ℕ := 8 + 4 + 4 + 1 + 1 + 4 + 4 + 1 + 20
def MONSTER_RECORD_SIZE : ℕ := 8 + 4 + 4 + 1 + 1 + 4 + 1 + 4
def ITEM_RECORD_SIZE : ℕ := 8 + 1 + 4 + 4

def sendAuthFail : Written := ⟨2 + 1, [intToBytes 2 PacketType.FIELD_AUTH_FAIL, intToBytes 1 0]⟩

/-- The response of `handleAuthReq`. -/
def sendAuthRes (characterId : ℤ) (pos : Position F) : Written :=
  ⟨2 + 8 + 4 + 4, [intToBytes 2 PacketType.FIELD_AUTH_RES, intToBytes 8 characterId,
    floatBytes pos.x, floatBytes pos.y]⟩

def broadcastSpawn (record : CharacterRecord F) : Written :=
  ⟨2 + 8 + 4 + 4 + 1 + 1 + 4 + 4 + 1 + 20,
    intToBytes 2 PacketType.OTHER_CHARACTER_SPAWN :: characterValues record⟩

def sendSpawnBatch (cnt : ℕ) (records : List (CharacterRecord F)) : Written :=
  writeBatch PacketType.OTHER_CHARACTER_SPAWN_BATCH CHARACTER_RECORD_SIZE
    characterValues cnt records

/-- Of `broadcastDespawn` and `sendDespawnBatch`. -/
def broadcastDespawn (characterID : ℤ) : Written := writeId PacketType.CHARACTER_DESPAWN characterID

def broadcastMoveStart (characterID : ℤ) (pos : Position F) (direction : ℤ) (speed : F) : Written :=
  writeMoveStart PacketType.MOVE_START characterID pos direction speed

def broadcastMoveStop (characterID : ℤ) (pos : Position F) (direction : ℤ) : Written :=
  writeMoveStop PacketType.MOVE_STOP characterID pos direction

def broadcastPlayerAttack (characterID : ℤ) : Written :=
  writeId PacketType.OTHER_CHARACTER_ATTACK characterID

def broadcastMonsterSpawn (record : MonsterRecord F) : Written :=
  ⟨2 + 8 + 4 + 4 + 1 + 1 + 4 + 1 + 4, intToBytes 2 PacketType.MONSTER_SPAWN :: monsterValues record⟩

def sendMonsterSpawnBatch (cnt : ℕ) (records : List (MonsterRecord F)) : Written :=
  writeBatch PacketType.MONSTER_SPAWN_BATCH MONSTER_RECORD_SIZE monsterValues cnt records

/-- Of `broadcastMonsterDespawn` and `sendMonsterDespawnBatch`. -/
def broadcastMonsterDespawn (monsterID : ℤ) : Written :=
  writeId PacketType.MONSTER_DESPAWN monsterID

def broadcastMonsterMoveStart (monsterID : ℤ) (pos : Position F) (direction : ℤ)
    (speed : F) : Written :=
  writeMoveStart PacketType.MONSTER_MOVE_START monsterID pos direction speed

def broadcastMonsterMoveStop (monsterID : ℤ) (pos : Position F) (direction : ℤ) : Written :=
  writeMoveStop PacketType.MONSTER_MOVE_STOP monsterID pos direction

def broadcastMonsterAttack (monsterID : ℤ) : Written := writeId PacketType.MONSTER_ATTACK monsterID

def broadcastMonsterDamaged (monsterID hp : ℤ) (pos : Position F) (direction : ℤ) : Written :=
  ⟨2 + (8 + 4 + 4 + 4 + 1), [intToBytes 2 PacketType.MONSTER_DAMAGED, intToBytes 8 monsterID,
    intToBytes 4 hp, floatBytes pos.x, floatBytes pos.y, intToBytes 1 direction]⟩

def broadcastCharacterDamaged (characterID hp : ℤ) (pos : Position F)
    (direction monsterID : ℤ) : Written :=
  ⟨2 + 8 + 4 + 4 + 4 + 1 + 8,
    [intToBytes 2 PacketType.CHARACTER_DAMAGED, intToBytes 8 characterID, intToBytes 4 hp,
    floatBytes pos.x, floatBytes pos.y, intToBytes 1 direction, intToBytes 8 monsterID]⟩

def broadcastItemSpawn (record : ItemRecord F) : Written :=
  ⟨2 + 8 + 1 + 4 + 4, intToBytes 2 PacketType.ITEM_SPAWN :: itemValues record⟩

def sendItemSpawnBatch (cnt : ℕ) (records : List (ItemRecord F)) : Written :=
  writeBatch PacketType.ITEM_SPAWN_BATCH ITEM_RECORD_SIZE itemValues cnt records

/-- Of `broadcastItemDespawn` and `sendItemDespawnBatch`. -/
def broadcastItemDespawn (itemUniqueId : ℤ) : Written :=
  writeId PacketType.ITEM_DESPAWN itemUniqueId

def sendLootRes (result : ℤ) (itemId : ItemId) (count : ℤ) : Written :=
  ⟨2 + 1 + 1 + 4, [intToBytes 2 PacketType.LOOT_RES, intToBytes 1 result,
    intToBytes 1 itemId.toInt8, intToBytes 4 count]⟩

/-- A `RankEntry`. -/
def entryValues (entry : List UInt8 × ℤ) : List (List UInt8) :=
  [nicknameBytes entry.1, intToBytes 8 entry.2]

/-- RANKING_RES, which `dbResultPacketProc` sends. -/
def sendRankingRes (topCnt : ℕ) (entries : List (List UInt8 × ℤ))
    (myRank myKillCount : ℤ) : Written :=
  ⟨2 + 2 + topCnt * (20 + 8) + 8 * 2, intToBytes 2 PacketType.RANKING_RES :: intToBytes 2 topCnt ::
    (entries.flatMap entryValues ++ [intToBytes 8 myRank, intToBytes 8 myKillCount])⟩

/-- A packet of either thread. -/
inductive ServerPacket (F : Type)
  | auth (packet : Login.Packet F)
  | field (packet : Field.Packet F)

def writeAuth : Login.Packet F → Written
  | .fieldAuthFail => sendAuthFail
  | .fieldAuthRes characterId pos => sendAuthRes characterId pos

def writeField : Field.Packet F → Written
  | .otherCharacterSpawn record => broadcastSpawn record
  | .otherCharacterSpawnBatch cnt records => sendSpawnBatch cnt records
  | .characterDespawn characterID => broadcastDespawn characterID
  | .moveStart characterID pos direction speed => broadcastMoveStart characterID pos direction speed
  | .moveStop characterID pos direction => broadcastMoveStop characterID pos direction
  | .monsterSpawn record => broadcastMonsterSpawn record
  | .monsterSpawnBatch cnt records => sendMonsterSpawnBatch cnt records
  | .monsterDespawn monsterID => broadcastMonsterDespawn monsterID
  | .monsterMoveStart monsterID pos direction speed =>
      broadcastMonsterMoveStart monsterID pos direction speed
  | .monsterMoveStop monsterID pos direction => broadcastMonsterMoveStop monsterID pos direction
  | .otherCharacterAttack characterID => broadcastPlayerAttack characterID
  | .monsterDamaged monsterID hp pos direction => broadcastMonsterDamaged monsterID hp pos direction
  | .monsterAttack monsterID => broadcastMonsterAttack monsterID
  | .characterDamaged characterID hp pos direction monsterID =>
      broadcastCharacterDamaged characterID hp pos direction monsterID
  | .itemSpawn record => broadcastItemSpawn record
  | .itemSpawnBatch cnt records => sendItemSpawnBatch cnt records
  | .itemDespawn itemUniqueId => broadcastItemDespawn itemUniqueId
  | .lootRes result itemId count => sendLootRes result itemId count
  | .rankingRes topCnt entries myRank myKillCount =>
      sendRankingRes topCnt entries myRank myKillCount

def ServerPacket.written : ServerPacket F → Written
  | .auth packet => writeAuth packet
  | .field packet => writeField packet

end

/-! ### What the client reads -/

/-- `static_cast` to an enumeration, as far as the handlers look at the value. -/
def playerStateOf (state : ℤ) : PlayerState :=
  if state = 1 then .move else if state = 2 then .attack else if state = 3 then .dead else
    if state = 4 then .stun else .idle

def monsterStateOf (state : ℤ) : MonsterState :=
  if state = 1 then .move else if state = 2 then .chase else if state = 3 then .attack else
    if state = 4 then .stun
  else if state = 5 then .dead else if state = 6 then .return else .idle

def itemIdOf (itemId : ℤ) : ItemId :=
  if itemId = 0 then .gold else if itemId = 1 then .potion else .max

section

variable {F : Type} [Machine F]

/-- `msg >> x >> y`. -/
def position : Reader (Position F) := do
  let x ← float
  let y ← float
  return ⟨x, y⟩

def readId (make : ℤ → Field.Packet F) : Reader (Field.Packet F) := do
  let id ← int 8
  return make id

def readMoveStop (make : ℤ → Position F → ℤ → Field.Packet F) : Reader (Field.Packet F) := do
  let id ← int 8
  let pos ← position
  let direction ← int 1
  return make id pos direction

def readMoveStart (make : ℤ → Position F → ℤ → F → Field.Packet F) : Reader (Field.Packet F) := do
  let id ← int 8
  let pos ← position
  let direction ← int 1
  let speed ← float
  return make id pos direction speed

/-- `cnt`, and so many records. -/
def readBatch {ε : Type} (record : Reader ε) (make : ℕ → List ε → Field.Packet F) :
    Reader (Field.Packet F) := do
  let cnt ← int 2
  let records ← many record cnt.toNat
  return make cnt.toNat records

def characterRecord : Reader (CharacterRecord F) := do
  let characterID ← int 8
  let pos ← position
  let state ← int 1
  let direction ← int 1
  let speed ← float
  let animFrame ← int 4
  let characterType ← int 1
  let nickname ← chars 20
  return {
    characterID, pos, state := playerStateOf state, direction, speed, animFrame, characterType,
    nickname }

def monsterRecord : Reader (MonsterRecord F) := do
  let monsterID ← int 8
  let pos ← position
  let state ← int 1
  let direction ← int 1
  let hp ← int 4
  let monsterType ← int 1
  let animFrame ← int 4
  return { monsterID, pos, state := monsterStateOf state, direction, hp, monsterType, animFrame }

def itemRecord : Reader (ItemRecord F) := do
  let itemUniqueId ← int 8
  let itemId ← int 1
  let pos ← position
  return { itemUniqueId, itemId := itemIdOf itemId, pos }

def rankEntry : Reader (List UInt8 × ℤ) := do
  let nickname ← chars 20
  let killCount ← int 8
  return (nickname, killCount)

namespace FieldScene

def onOtherCharacterSpawn : Reader (Field.Packet F) := do
  let record ← characterRecord
  return .otherCharacterSpawn record

def onOtherCharacterSpawnBatch : Reader (Field.Packet F) :=
  readBatch characterRecord .otherCharacterSpawnBatch

def onCharacterDespawn : Reader (Field.Packet F) := readId .characterDespawn

def onCharacterMoveStart : Reader (Field.Packet F) := readMoveStart .moveStart

def onCharacterMoveStop : Reader (Field.Packet F) := readMoveStop .moveStop

def onOtherCharacterAttack : Reader (Field.Packet F) := readId .otherCharacterAttack

def onMonsterSpawn : Reader (Field.Packet F) := do
  let record ← monsterRecord
  return .monsterSpawn record

def onMonsterSpawnBatch : Reader (Field.Packet F) := readBatch monsterRecord .monsterSpawnBatch

def onMonsterDespawn : Reader (Field.Packet F) := readId .monsterDespawn

def onMonsterMoveStart : Reader (Field.Packet F) := readMoveStart .monsterMoveStart

def onMonsterMoveStop : Reader (Field.Packet F) := readMoveStop .monsterMoveStop

def onMonsterAttack : Reader (Field.Packet F) := readId .monsterAttack

def onMonsterDamaged : Reader (Field.Packet F) := do
  let monsterId ← int 8
  let hp ← int 4
  let pos ← position
  let direction ← int 1
  return .monsterDamaged monsterId hp pos direction

def onCharacterDamaged : Reader (Field.Packet F) := do
  let characterId ← int 8
  let hp ← int 4
  let pos ← position
  let direction ← int 1
  let monsterId ← int 8
  return .characterDamaged characterId hp pos direction monsterId

def onItemSpawn : Reader (Field.Packet F) := do
  let record ← itemRecord
  return .itemSpawn record

def onItemSpawnBatch : Reader (Field.Packet F) := readBatch itemRecord .itemSpawnBatch

def onItemDespawn : Reader (Field.Packet F) := readId .itemDespawn

def onLootRes : Reader (Field.Packet F) := do
  let result ← int 1
  let itemId ← int 1
  let count ← int 4
  return .lootRes result (itemIdOf itemId) count

def onRankingRes : Reader (Field.Packet F) := do
  let topCnt ← int 2
  let entries ← many rankEntry topCnt.toNat
  let myRank ← int 8
  let myKillCount ← int 8
  return .rankingRes topCnt.toNat entries myRank myKillCount

/-- What `FieldScene::packetProc` reads. -/
def packetProc : Reader (Field.Packet F) := do
  let type ← int 2
  if type = PacketType.OTHER_CHARACTER_SPAWN then onOtherCharacterSpawn
  else if type = PacketType.OTHER_CHARACTER_SPAWN_BATCH then onOtherCharacterSpawnBatch
  else if type = PacketType.CHARACTER_DESPAWN then onCharacterDespawn
  else if type = PacketType.MOVE_START then onCharacterMoveStart
  else if type = PacketType.MOVE_STOP then onCharacterMoveStop
  else if type = PacketType.OTHER_CHARACTER_ATTACK then onOtherCharacterAttack
  else if type = PacketType.MONSTER_SPAWN then onMonsterSpawn
  else if type = PacketType.MONSTER_SPAWN_BATCH then onMonsterSpawnBatch
  else if type = PacketType.MONSTER_DESPAWN then onMonsterDespawn
  else if type = PacketType.MONSTER_MOVE_START then onMonsterMoveStart
  else if type = PacketType.MONSTER_MOVE_STOP then onMonsterMoveStop
  else if type = PacketType.MONSTER_DAMAGED then onMonsterDamaged
  else if type = PacketType.MONSTER_ATTACK then onMonsterAttack
  else if type = PacketType.CHARACTER_DAMAGED then onCharacterDamaged
  else if type = PacketType.ITEM_SPAWN then onItemSpawn
  else if type = PacketType.ITEM_SPAWN_BATCH then onItemSpawnBatch
  else if type = PacketType.ITEM_DESPAWN then onItemDespawn
  else if type = PacketType.LOOT_RES then onLootRes
  else if type = PacketType.RANKING_RES then onRankingRes
  else throw .rtAssert

end FieldScene

namespace LoginScene

def onAuthFailRes : Reader (Login.Packet F) := do
  let _ ← int 1
  return .fieldAuthFail

def onAuthRes : Reader (Login.Packet F) := do
  let characterID ← int 8
  let pos ← position
  return .fieldAuthRes characterID pos

/-- What `LoginScene::packetProc` reads. -/
def packetProc : Reader (Login.Packet F) := do
  let type ← int 2
  if type = PacketType.FIELD_AUTH_FAIL then onAuthFailRes
  else if type = PacketType.FIELD_AUTH_RES then onAuthRes
  else throw .rtAssert

end LoginScene

/-- `mNextScene` is set. -/
def Login.Packet.isRes : Login.Packet F → Bool
  | .fieldAuthFail => false
  | .fieldAuthRes _ _ => true

/-- `kTableSize` of the bot is `PacketType::MAX`. -/
def ClientBot.recordRecv (type : ℤ) : Except Stop Unit := rtAssert (0 ≤ type ∧ type < 125)

/-- `RT_ASSERT(len == sizeof(res))`, then `memcpy(&res, payload, sizeof(res))`. A structure is
packed: behind its `type` the `members` follow each other. Those of the bot are those that the
client reads, in the same order. -/
def ClientBot.copy {β : Type} (payload : List UInt8) (size : ℕ) (members : Reader β) :
    Except Stop β := do
  rtAssert (payload.length = size)
  let (res, _) ← (int 2 >>= fun _ => members).run (Network.message payload)
  return res

/-- The `switch` of `ClientBot::packetProc` up to its handlers, and what they get. -/
def ClientBot.switch (type : ℤ) (payload : List UInt8) : Except Stop (Option (ServerPacket F)) := do
  if type = PacketType.FIELD_AUTH_RES then do
    let res ← copy payload (2 + 8 + 4 + 4) LoginScene.onAuthRes
    return some (.auth res)
  else if type = PacketType.FIELD_AUTH_FAIL then throw .rtAssert
  else if type = PacketType.MONSTER_MOVE_STOP then do
    let res ← copy payload (2 + 8 + 4 + 4 + 1) FieldScene.onMonsterMoveStop
    return some (.field res)
  else if type = PacketType.MONSTER_DAMAGED then do
    let res ← copy payload (2 + 8 + 4 + 4 + 4 + 1) FieldScene.onMonsterDamaged
    return some (.field res)
  else if type = PacketType.CHARACTER_DAMAGED then do
    let res ← copy payload (2 + 8 + 4 + 4 + 4 + 1 + 8) FieldScene.onCharacterDamaged
    return some (.field res)
  else if type = PacketType.ITEM_SPAWN then do
    let res ← copy payload (2 + 8 + 1 + 4 + 4) FieldScene.onItemSpawn
    return some (.field res)
  else if type = PacketType.LOOT_RES then do
    let res ← copy payload (2 + 1 + 1 + 4) FieldScene.onLootRes
    return some (.field res)
  else return none

def ClientBot.packetProc (payload : List UInt8) : Except Stop (Option (ServerPacket F)) := do
  -- the type of a shorter payload has a byte of whatever comes behind it
  if payload.length < 2 then throw .overrun
  let type := intAt payload 0 2
  ClientBot.recordRecv type
  ClientBot.switch type payload

/-- The scenes and what `SceneManager::Update` hands to them: LoginScene goes on until
FIELD_AUTH_RES, then FieldScene has the rest. -/
def SceneManager.update : Bool → List Message → Except Stop (List (ServerPacket F))
  | _, [] => return []
  | false, msg :: msgs => do
    let (packet, _) ← LoginScene.packetProc.run msg
    let packets ← SceneManager.update (Login.Packet.isRes packet) msgs
    return .auth packet :: packets
  | true, msg :: msgs => do
    let (packet, _) ← FieldScene.packetProc.run msg
    let packets ← SceneManager.update true msgs
    return .field packet :: packets

end

/-! ### Packets with values of their types -/

section

variable {F : Type} [Machine F] [FloatBytes F]

def IsPosition (pos : Position F) : Prop := IsFloat pos.x ∧ IsFloat pos.y

structure CharacterRecord.Ranged (record : CharacterRecord F) : Prop where
  characterID : InRange 8 record.characterID
  pos : IsPosition record.pos
  direction : InRange 1 record.direction
  speed : IsFloat record.speed
  animFrame : InRange 4 record.animFrame
  characterType : InRange 1 record.characterType
  nickname : record.nickname.length = 20

structure MonsterRecord.Ranged (record : MonsterRecord F) : Prop where
  monsterID : InRange 8 record.monsterID
  pos : IsPosition record.pos
  direction : InRange 1 record.direction
  hp : InRange 4 record.hp
  monsterType : InRange 1 record.monsterType
  animFrame : InRange 4 record.animFrame

structure ItemRecord.Ranged (record : ItemRecord F) : Prop where
  itemUniqueId : InRange 8 record.itemUniqueId
  pos : IsPosition record.pos

/-- The records that are announced, and no more than `maxBatch`. -/
def BatchRanged {ε : Type} (recordSize : ℕ) (Ranged : ε → Prop) (cnt : ℕ)
    (records : List ε) : Prop :=
  cnt = records.length ∧ cnt ≤ maxBatch recordSize ∧ ∀ record ∈ records, Ranged record

/-- Every value is one of the type it is written as. -/
def FieldRanged : Field.Packet F → Prop
  | .otherCharacterSpawn record => CharacterRecord.Ranged record
  | .otherCharacterSpawnBatch cnt records =>
      BatchRanged CHARACTER_RECORD_SIZE CharacterRecord.Ranged cnt records
  | .characterDespawn id | .otherCharacterAttack id | .monsterDespawn id | .monsterAttack id
  | .itemDespawn id => InRange 8 id
  | .moveStart id pos direction speed | .monsterMoveStart id pos direction speed =>
    InRange 8 id ∧ IsPosition pos ∧ InRange 1 direction ∧ IsFloat speed
  | .moveStop id pos direction | .monsterMoveStop id pos direction =>
      InRange 8 id ∧ IsPosition pos ∧ InRange 1 direction
  | .monsterSpawn record => MonsterRecord.Ranged record
  | .monsterSpawnBatch cnt records =>
      BatchRanged MONSTER_RECORD_SIZE MonsterRecord.Ranged cnt records
  | .monsterDamaged monsterID hp pos direction =>
      InRange 8 monsterID ∧ InRange 4 hp ∧ IsPosition pos ∧ InRange 1 direction
  | .characterDamaged characterID hp pos direction monsterID =>
    InRange 8 characterID ∧ InRange 4 hp ∧ IsPosition pos ∧ InRange 1 direction ∧
      InRange 8 monsterID
  | .itemSpawn record => ItemRecord.Ranged record
  | .itemSpawnBatch cnt records => BatchRanged ITEM_RECORD_SIZE ItemRecord.Ranged cnt records
  | .lootRes result _ count => InRange 1 result ∧ InRange 4 count
  | .rankingRes topCnt entries myRank myKillCount =>
    topCnt = entries.length ∧ topCnt ≤ Ranking.MAX_TOP_ENTRY ∧
      (∀ entry ∈ entries, entry.1.length = 20 ∧ InRange 8 entry.2) ∧ InRange 8 myRank ∧
        InRange 8 myKillCount

def ServerPacket.Ranged : ServerPacket F → Prop
  | .auth .fieldAuthFail => True
  | .auth (.fieldAuthRes characterId pos) => InRange 8 characterId ∧ IsPosition pos
  | .field packet => FieldRanged packet

/-! ### `header.Len` -/

omit [Machine F] in
theorem characterValues_length (record : CharacterRecord F) :
    (characterValues record).flatten.length = CHARACTER_RECORD_SIZE := by
  simp [characterValues, nicknameBytes]; rfl

omit [Machine F] in
theorem monsterValues_length (record : MonsterRecord F) :
    (monsterValues record).flatten.length = MONSTER_RECORD_SIZE := by
  simp [monsterValues]; rfl

omit [Machine F] in
theorem itemValues_length (record : ItemRecord F) :
    (itemValues record).flatten.length = ITEM_RECORD_SIZE := by
  simp [itemValues]; rfl

theorem entryValues_length (entry : List UInt8 × ℤ) :
    (entryValues entry).flatten.length = 20 + 8 := by
  simp [entryValues, nicknameBytes]

theorem flatten_flatMap {ε : Type} (values : ε → List (List UInt8)) (records : List ε) :
    (records.flatMap values).flatten = records.flatMap fun record => (values record).flatten := by
  induction records with
  | nil => rfl
  | cons record records ih => rw [List.flatMap_cons, List.flatten_append, ih, List.flatMap_cons]

theorem records_length {ε : Type} {values : ε → List (List UInt8)}
    {size : ℕ} (h : ∀ e, (values e).flatten.length = size) (records : List ε) :
    (records.flatMap values).flatten.length = size * records.length := by
  induction records with
  | nil => rfl
  | cons record records ih =>
    rw [List.flatMap_cons, List.flatten_append, List.length_append, h, ih, List.length_cons,
      Nat.mul_succ, Nat.add_comm]

/-- A packet of `n` bytes. -/
theorem Written.Sound.of_length {w : Written} {n : ℕ} (h : w.payload.length = n) (hlen : w.len = n)
    (hpos : 0 < n) (hle : n ≤ BufferSize - Header.size) : w.Sound := by
  subst h
  refine ⟨hlen, hpos, ?_⟩
  unfold BufferSize Header.size at *
  omega

theorem sound_writeId (type id : ℤ) : (writeId type id).Sound :=
  .of_length (n := 10) (by simp [writeId, Written.payload]) rfl (by decide) (by decide)

omit [Machine F] in
theorem sound_writeMoveStop (type id : ℤ) (pos : Position F) (direction : ℤ) :
    (writeMoveStop type id pos direction).Sound :=
  .of_length (n := 19) (by simp [writeMoveStop, Written.payload]) rfl (by decide) (by decide)

omit [Machine F] in
theorem sound_writeMoveStart (type id : ℤ) (pos : Position F) (direction : ℤ) (speed : F) :
    (writeMoveStart type id pos direction speed).Sound :=
  .of_length (n := 23) (by simp [writeMoveStart, Written.payload]) rfl (by decide) (by decide)

theorem sound_writeBatch {ε : Type} {values : ε → List (List UInt8)} {size : ℕ} {Ranged : ε → Prop}
    {cnt : ℕ} {records : List ε} (type : ℤ) (hsize : ∀ e, (values e).flatten.length = size)
    (h : BatchRanged size Ranged cnt records) :
    (writeBatch type size values cnt records).Sound := by
  obtain ⟨hcnt, hmax, -⟩ := h
  have hbytes : size * cnt ≤ BufferSize - 2 - 2 - Header.size := by
    calc size * cnt
      _ ≤ size * maxBatch size := Nat.mul_le_mul_left _ hmax
      _ ≤ BufferSize - 2 - 2 - Header.size := Nat.mul_div_le _ _
  unfold BufferSize Header.size at hbytes
  refine .of_length (n := 2 + 2 + size * cnt) ?_ ?_ (by omega) ?_
  · simp only [writeBatch, Written.payload, List.flatten_cons, List.length_append,
      intToBytes_length]
    rw [records_length hsize, ← hcnt, ← Nat.add_assoc]
  · simp [writeBatch]
  · unfold BufferSize Header.size
    omega

theorem sound_sendRankingRes {topCnt : ℕ} {entries : List (List UInt8 × ℤ)}
    (hcnt : topCnt = entries.length) (hmax : topCnt ≤ Ranking.MAX_TOP_ENTRY)
    (myRank myKillCount : ℤ) :
    (sendRankingRes topCnt entries myRank myKillCount).Sound := by
  unfold Ranking.MAX_TOP_ENTRY at hmax
  refine .of_length (n := 2 + 2 + topCnt * (20 + 8) + 8 * 2) ?_ ?_ (by omega) ?_
  · simp only [sendRankingRes, Written.payload, List.flatten_cons, List.flatten_append,
      List.flatten_nil, List.length_append, intToBytes_length, List.length_nil]
    rw [records_length entryValues_length, ← hcnt]
    omega
  · simp [sendRankingRes]
  · unfold BufferSize Header.size
    omega

theorem sound_sendAuthFail : sendAuthFail.Sound :=
  .of_length (n := 3) rfl rfl (by decide) (by decide)

omit [Machine F] in
theorem sound_sendAuthRes (characterId : ℤ) (pos : Position F) :
    (sendAuthRes characterId pos).Sound :=
  .of_length (n := 18) (by simp [sendAuthRes, Written.payload]) rfl (by decide) (by decide)

omit [Machine F] in
theorem sound_broadcastSpawn (record : CharacterRecord F) : (broadcastSpawn record).Sound :=
  .of_length (n := 49) (by simp [broadcastSpawn, characterValues, nicknameBytes, Written.payload])
    rfl (by decide) (by decide)

omit [Machine F] in
theorem sound_broadcastMonsterSpawn (record : MonsterRecord F) :
    (broadcastMonsterSpawn record).Sound :=
  .of_length (n := 29) (by simp [broadcastMonsterSpawn, monsterValues, Written.payload])
    rfl (by decide) (by decide)

omit [Machine F] in
theorem sound_broadcastItemSpawn (record : ItemRecord F) : (broadcastItemSpawn record).Sound :=
  .of_length (n := 19) (by simp [broadcastItemSpawn, itemValues, Written.payload])
    rfl (by decide) (by decide)

omit [Machine F] in
theorem sound_broadcastMonsterDamaged (monsterID hp : ℤ) (pos : Position F) (direction : ℤ) :
    (broadcastMonsterDamaged monsterID hp pos direction).Sound :=
  .of_length (n := 23) (by simp [broadcastMonsterDamaged, Written.payload])
    rfl (by decide) (by decide)

omit [Machine F] in
theorem sound_broadcastCharacterDamaged (characterID hp : ℤ) (pos : Position F)
    (direction monsterID : ℤ) :
    (broadcastCharacterDamaged characterID hp pos direction monsterID).Sound :=
  .of_length (n := 31) (by simp [broadcastCharacterDamaged, Written.payload])
    rfl (by decide) (by decide)

theorem sound_sendLootRes (result : ℤ) (itemId : ItemId) (count : ℤ) :
    (sendLootRes result itemId count).Sound :=
  .of_length (n := 8) (by simp [sendLootRes, Written.payload]) rfl (by decide) (by decide)

/-- What is written behind the header is as long as the header says. -/
theorem sound_written {packet : ServerPacket F} (h : packet.Ranged) : packet.written.Sound := by
  rcases packet with packet | packet
  · cases packet with
    | fieldAuthFail => exact sound_sendAuthFail
    | fieldAuthRes => exact sound_sendAuthRes _ _
  · cases packet with
    | otherCharacterSpawn => exact sound_broadcastSpawn _
    | monsterSpawn => exact sound_broadcastMonsterSpawn _
    | itemSpawn => exact sound_broadcastItemSpawn _
    | otherCharacterSpawnBatch => exact sound_writeBatch _ characterValues_length h
    | monsterSpawnBatch => exact sound_writeBatch _ monsterValues_length h
    | itemSpawnBatch => exact sound_writeBatch _ itemValues_length h
    | characterDespawn | otherCharacterAttack | monsterDespawn | monsterAttack | itemDespawn =>
        exact sound_writeId _ _
    | moveStart | monsterMoveStart => exact sound_writeMoveStart _ _ _ _ _
    | moveStop | monsterMoveStop => exact sound_writeMoveStop _ _ _ _
    | monsterDamaged => exact sound_broadcastMonsterDamaged _ _ _ _
    | characterDamaged => exact sound_broadcastCharacterDamaged _ _ _ _ _
    | lootRes => exact sound_sendLootRes _ _ _
    | rankingRes => exact sound_sendRankingRes h.1 h.2.1 _ _

/-! ### Reading back -/

theorem takes_position {β : Type} {pos : Position F} (hpos : IsPosition pos)
    {f : Position F → Reader β} {bs : List UInt8} {y : β} (hf : Takes Message.rest (f pos) bs y) :
    Takes Message.rest (position >>= f) (floatBytes pos.x ++ (floatBytes pos.y ++ bs)) y := by
  unfold position
  rw [bind_assoc]
  refine (takes_float hpos.1).bind ?_
  rw [bind_assoc]
  exact (takes_float hpos.2).bind hf

theorem playerStateOf_toInt8 (state : PlayerState) : playerStateOf state.toInt8 = state := by
  cases state <;> rfl

theorem monsterStateOf_toInt8 (state : MonsterState) : monsterStateOf state.toInt8 = state := by
  cases state <;> rfl

theorem itemIdOf_toInt8 (itemId : ItemId) : itemIdOf itemId.toInt8 = itemId := by
  cases itemId <;> rfl

theorem inRange_playerState (state : PlayerState) : InRange 1 state.toInt8 := by
  cases state <;> decide

theorem inRange_monsterState (state : MonsterState) : InRange 1 state.toInt8 := by
  cases state <;> decide

theorem inRange_itemId (itemId : ItemId) : InRange 1 itemId.toInt8 := by cases itemId <;> decide

theorem takes_nickname {nickname : List UInt8} (h : nickname.length = 20) :
    Takes Message.rest (chars 20) (nicknameBytes nickname) nickname := by
  have hbytes : nicknameBytes nickname = nickname := by
    unfold nicknameBytes
    rw [← h, List.take_left]
  rw [hbytes, ← h]
  exact takes_chars (by rw [h]; decide)

theorem takes_characterRecord {record : CharacterRecord F} (h : CharacterRecord.Ranged record) :
    Takes Message.rest characterRecord (characterValues record).flatten record := by
  refine (takes_int (by decide) h.characterID).bind (takes_position h.pos ?_)
  refine (takes_int (by decide) (inRange_playerState record.state)).bind
    ((takes_int (by decide) h.direction).bind ?_)
  refine (takes_float h.speed).bind ((takes_int (by decide) h.animFrame).bind ?_)
  refine (takes_int (by decide) h.characterType).bind ((takes_nickname h.nickname).bind ?_)
  rw [playerStateOf_toInt8]
  exact takes_pure record

theorem takes_monsterRecord {record : MonsterRecord F} (h : MonsterRecord.Ranged record) :
    Takes Message.rest monsterRecord (monsterValues record).flatten record := by
  refine (takes_int (by decide) h.monsterID).bind (takes_position h.pos ?_)
  refine (takes_int (by decide) (inRange_monsterState record.state)).bind
    ((takes_int (by decide) h.direction).bind ?_)
  refine (takes_int (by decide) h.hp).bind ((takes_int (by decide) h.monsterType).bind ?_)
  refine (takes_int (by decide) h.animFrame).bind ?_
  rw [monsterStateOf_toInt8]
  exact takes_pure record

theorem takes_itemRecord {record : ItemRecord F} (h : ItemRecord.Ranged record) :
    Takes Message.rest itemRecord (itemValues record).flatten record := by
  refine (takes_int (by decide) h.itemUniqueId).bind
    ((takes_int (by decide) (inRange_itemId record.itemId)).bind ?_)
  refine takes_position h.pos ?_
  rw [itemIdOf_toInt8]
  exact takes_pure record

theorem takes_rankEntry {entry : List UInt8 × ℤ} (h : entry.1.length = 20 ∧ InRange 8 entry.2) :
    Takes Message.rest rankEntry (entryValues entry).flatten entry := by
  refine (takes_nickname h.1).bind ((takes_int (by decide) h.2).bind ?_)
  exact takes_pure entry

/-! What follows the type. -/

omit [Machine F] [FloatBytes F] in
theorem takes_readId {id : ℤ} (h : InRange 8 id) (make : ℤ → Field.Packet F) :
    Takes Message.rest (readId make) [intToBytes 8 id].flatten (make id) :=
  (takes_int (by decide) h).bind (takes_pure _)

theorem takes_readMoveStop {id direction : ℤ} {pos : Position F}
    (h : InRange 8 id ∧ IsPosition pos ∧ InRange 1 direction)
    (make : ℤ → Position F → ℤ → Field.Packet F) :
    Takes Message.rest (readMoveStop make) [intToBytes 8 id, floatBytes pos.x, floatBytes pos.y,
      intToBytes 1 direction].flatten (make id pos direction) := by
  obtain ⟨hid, hpos, hdirection⟩ := h
  refine (takes_int (by decide) hid).bind
    (takes_position hpos ((takes_int (by decide) hdirection).bind ?_))
  exact takes_pure _

theorem takes_readMoveStart {id direction : ℤ} {pos : Position F} {speed : F}
    (h : InRange 8 id ∧ IsPosition pos ∧ InRange 1 direction ∧ IsFloat speed)
    (make : ℤ → Position F → ℤ → F → Field.Packet F) : Takes Message.rest (readMoveStart make)
      [intToBytes 8 id, floatBytes pos.x, floatBytes pos.y, intToBytes 1 direction,
        floatBytes speed].flatten (make id pos direction speed) := by
  obtain ⟨hid, hpos, hdirection, hspeed⟩ := h
  refine (takes_int (by decide) hid).bind
    (takes_position hpos ((takes_int (by decide) hdirection).bind ?_))
  exact (takes_float hspeed).bind (takes_pure _)

/-- A counter that is not too large for an `int16_t`. -/
theorem inRange_cnt {n : ℕ} (h : n ≤ BufferSize) : InRange 2 (n : ℤ) := by
  unfold BufferSize at h
  constructor
  · omega
  · omega

omit [Machine F] [FloatBytes F] in
theorem takes_readBatch {ε : Type}
    {record : Reader ε} {values : ε → List (List UInt8)} {size : ℕ} {Ranged : ε → Prop} {cnt : ℕ}
    {records : List ε} (hrecord : ∀ e, Ranged e → Takes Message.rest record (values e).flatten e)
    (h : BatchRanged size Ranged cnt records) (make : ℕ → List ε → Field.Packet F) :
    Takes Message.rest (readBatch record make) (intToBytes 2 cnt :: records.flatMap values).flatten
      (make cnt records) := by
  obtain ⟨rfl, hmax, hall⟩ := h
  have hcnt : records.length ≤ BufferSize := hmax.trans ((Nat.div_le_self _ _).trans (by decide))
  have hmany := Takes.many fun e he => hrecord e (hall e he)
  rw [← flatten_flatMap] at hmany
  refine (takes_int (by decide) (inRange_cnt hcnt)).bind ?_
  rw [Int.toNat_natCast]
  exact hmany.bind_pure

theorem takes_onMonsterDamaged {monsterID hp direction : ℤ} {pos : Position F}
    (h : InRange 8 monsterID ∧ InRange 4 hp ∧ IsPosition pos ∧ InRange 1 direction) :
    Takes Message.rest FieldScene.onMonsterDamaged [intToBytes 8 monsterID,
      intToBytes 4 hp, floatBytes pos.x, floatBytes pos.y, intToBytes 1 direction].flatten
      (.monsterDamaged monsterID hp pos direction) := by
  obtain ⟨hid, hhp, hpos, hdirection⟩ := h
  refine (takes_int (by decide) hid).bind
    ((takes_int (by decide) hhp).bind (takes_position hpos ?_))
  exact (takes_int (by decide) hdirection).bind (takes_pure _)

theorem takes_onCharacterDamaged {characterID hp direction monsterID : ℤ} {pos : Position F}
    (h : InRange 8 characterID ∧ InRange 4 hp ∧ IsPosition pos ∧ InRange 1 direction ∧
      InRange 8 monsterID) :
    Takes Message.rest FieldScene.onCharacterDamaged [intToBytes 8 characterID, intToBytes 4 hp,
      floatBytes pos.x, floatBytes pos.y, intToBytes 1 direction, intToBytes 8 monsterID].flatten
      (.characterDamaged characterID hp pos direction monsterID) := by
  obtain ⟨hid, hhp, hpos, hdirection, hmonster⟩ := h
  refine (takes_int (by decide) hid).bind
    ((takes_int (by decide) hhp).bind (takes_position hpos ?_))
  exact (takes_int (by decide) hdirection).bind
    ((takes_int (by decide) hmonster).bind (takes_pure _))

omit [Machine F] [FloatBytes F] in
theorem takes_onLootRes {result count : ℤ} (itemId : ItemId)
    (h : InRange 1 result ∧ InRange 4 count) :
    Takes Message.rest (FieldScene.onLootRes (F := F))
      [intToBytes 1 result, intToBytes 1 itemId.toInt8, intToBytes 4 count].flatten
      (.lootRes result itemId count) := by
  refine (takes_int (by decide) h.1).bind ((takes_int (by decide) (inRange_itemId itemId)).bind ?_)
  rw [itemIdOf_toInt8]
  exact (takes_int (by decide) h.2).bind (takes_pure _)

omit [Machine F] [FloatBytes F] in
theorem takes_onRankingRes {entries : List (List UInt8 × ℤ)} {myRank myKillCount : ℤ}
    (hmax : entries.length ≤ Ranking.MAX_TOP_ENTRY)
    (hall : ∀ entry ∈ entries, entry.1.length = 20 ∧ InRange 8 entry.2) (hrank : InRange 8 myRank)
    (hkill : InRange 8 myKillCount) : Takes Message.rest (FieldScene.onRankingRes (F := F))
    (intToBytes 2 entries.length :: (entries.flatMap entryValues ++ [intToBytes 8 myRank, intToBytes
      8 myKillCount])).flatten (.rankingRes entries.length entries myRank myKillCount) := by
  have hmany := Takes.many fun entry hentry => takes_rankEntry (hall entry hentry)
  rw [← flatten_flatMap] at hmany
  refine (takes_int (by decide) (inRange_cnt (hmax.trans (by decide)))).bind ?_
  rw [Int.toNat_natCast, List.flatten_append]
  exact hmany.bind ((takes_int (by decide) hrank).bind
    ((takes_int (by decide) hkill).bind (takes_pure _)))

/-- The two bytes of the type, and what the `switch` comes to. -/
theorem takes_type {β : Type} {type : ℤ} (htype : InRange 2 type) {f : ℤ → Reader β}
    {values : List (List UInt8)} {y : β} (hf : Takes Message.rest (f type) values.flatten y) :
    Takes Message.rest (int 2 >>= f) (intToBytes 2 type :: values).flatten y :=
  (takes_int (by decide) htype).bind hf

/-- `FieldScene` takes back every packet of the field. -/
theorem takes_fieldScene {packet : Field.Packet F} (h : FieldRanged packet) :
    Takes Message.rest FieldScene.packetProc (writeField packet).payload packet := by
  cases packet with
  | otherCharacterSpawn record => exact takes_type (by decide) ((takes_characterRecord h).bind_pure)
  | otherCharacterSpawnBatch cnt records =>
    exact takes_type (by decide)
      (takes_readBatch (fun _ => takes_characterRecord) h .otherCharacterSpawnBatch)
  | characterDespawn id => exact takes_type (by decide) (takes_readId h .characterDespawn)
  | moveStart => exact takes_type (by decide) (takes_readMoveStart h .moveStart)
  | moveStop => exact takes_type (by decide) (takes_readMoveStop h .moveStop)
  | monsterSpawn record => exact takes_type (by decide) ((takes_monsterRecord h).bind_pure)
  | monsterSpawnBatch cnt records =>
    exact takes_type (by decide)
      (takes_readBatch (fun _ => takes_monsterRecord) h .monsterSpawnBatch)
  | monsterDespawn id => exact takes_type (by decide) (takes_readId h .monsterDespawn)
  | monsterMoveStart => exact takes_type (by decide) (takes_readMoveStart h .monsterMoveStart)
  | monsterMoveStop => exact takes_type (by decide) (takes_readMoveStop h .monsterMoveStop)
  | otherCharacterAttack id => exact takes_type (by decide) (takes_readId h .otherCharacterAttack)
  | monsterDamaged => exact takes_type (by decide) (takes_onMonsterDamaged h)
  | monsterAttack id => exact takes_type (by decide) (takes_readId h .monsterAttack)
  | characterDamaged => exact takes_type (by decide) (takes_onCharacterDamaged h)
  | itemSpawn record => exact takes_type (by decide) ((takes_itemRecord h).bind_pure)
  | itemSpawnBatch cnt records =>
    exact takes_type (by decide) (takes_readBatch (fun _ => takes_itemRecord) h .itemSpawnBatch)
  | itemDespawn id => exact takes_type (by decide) (takes_readId h .itemDespawn)
  | lootRes result itemId count => exact takes_type (by decide) (takes_onLootRes itemId h)
  | rankingRes topCnt entries myRank myKillCount =>
    obtain ⟨rfl, hmax, hall, hrank, hkill⟩ := h
    exact takes_type (by decide) (takes_onRankingRes hmax hall hrank hkill)

theorem takes_onAuthRes {characterId : ℤ} {pos : Position F}
    (h : InRange 8 characterId ∧ IsPosition pos) :
    Takes Message.rest LoginScene.onAuthRes
      [intToBytes 8 characterId, floatBytes pos.x, floatBytes pos.y].flatten
      (.fieldAuthRes characterId pos) :=
  (takes_int (by decide) h.1).bind (takes_position h.2 (takes_pure _))

/-- `LoginScene` takes back the responses. -/
theorem takes_loginScene {packet : Login.Packet F} (h : (ServerPacket.auth packet).Ranged) :
    Takes Message.rest LoginScene.packetProc (writeAuth packet).payload packet := by
  cases packet with
  | fieldAuthFail =>
      exact takes_type (by decide) ((takes_int (by decide) (by decide)).bind (takes_pure _))
  | fieldAuthRes => exact takes_type (by decide) (takes_onAuthRes h)

/-! ### The bot -/

/-- A structure that has the members of the packet. -/
theorem copy_ok {β : Type}
    {type : ℤ} (htype : InRange 2 type) {members : Reader β} {values : List (List UInt8)}
    {size : ℕ} {x : β} (h : Takes Message.rest members values.flatten x)
    (hsize : (intToBytes 2 type :: values).flatten.length = size) :
    ClientBot.copy (intToBytes 2 type :: values).flatten size members = .ok x := by
  obtain ⟨t, ht, -⟩ := (takes_type htype (f := fun _ => members) h).run
    (s := Network.message (intToBytes 2 type :: values).flatten) rfl
  unfold ClientBot.copy
  rw [rtAssert_true (decide_eq_true hsize), ht]
  rfl

omit [Machine F] [FloatBytes F] in
theorem bot_copied {β : Type}
    {type : ℤ} (htype : InRange 2 type) {members : Reader β} {values : List (List UInt8)}
    {size : ℕ} {x : β} (make : β → ServerPacket F) (h : Takes Message.rest members values.flatten x)
    (hsize : (intToBytes 2 type :: values).flatten.length = size) :
    (ClientBot.copy (intToBytes 2 type :: values).flatten size members >>=
      fun res => pure (some (make res))) = .ok (some (make x)) := by
  rw [copy_ok htype h hsize]
  rfl

/-- The packets that the bot looks at. -/
def ServerPacket.forBot : ServerPacket F → Option (ServerPacket F)
  | .auth packet => some (.auth packet)
  | .field (.monsterMoveStop id pos direction) => some (.field (.monsterMoveStop id pos direction))
  | .field (.monsterDamaged id hp pos direction) =>
      some (.field (.monsterDamaged id hp pos direction))
  | .field (.characterDamaged id hp pos direction monsterID) =>
      some (.field (.characterDamaged id hp pos direction monsterID))
  | .field (.itemSpawn record) => some (.field (.itemSpawn record))
  | .field (.lootRes result itemId count) => some (.field (.lootRes result itemId count))
  | _ => none

omit [FloatBytes F] in
theorem bot_switch {type : ℤ} (htype : InRange 2 type) (hlow : 0 ≤ type) (hhigh : type < 125)
    (values : List (List UInt8)) :
    ClientBot.packetProc (F := F) (intToBytes 2 type :: values).flatten =
      ClientBot.switch type (intToBytes 2 type :: values).flatten := by
  have hlen : ¬(intToBytes 2 type :: values).flatten.length < 2 := by
    rw [List.flatten_cons, List.length_append, intToBytes_length]
    omega
  have hread : intAt (intToBytes 2 type :: values).flatten 0 2 = type := by
    unfold intAt
    rw [List.flatten_cons, List.drop_zero, List.take_left' (intToBytes_length 2 type),
      intOfBytes_intToBytes (by decide) htype.1 htype.2]
  unfold ClientBot.packetProc ClientBot.recordRecv
  rw [if_neg hlen, hread]
  dsimp only
  rw [rtAssert_true (decide_eq_true ⟨hlow, hhigh⟩)]
  rfl

/-- The bot gets every packet it looks at as it was written, and passes over the others. -/
theorem bot_packetProc {packet : ServerPacket F} (h : packet.Ranged)
    (hfail : packet ≠ .auth .fieldAuthFail) :
    ClientBot.packetProc packet.written.payload = .ok (packet.forBot) := by
  rcases packet with packet | packet
  · cases packet with
    | fieldAuthFail => exact absurd rfl hfail
    | fieldAuthRes characterId pos =>
      exact (bot_switch (by decide) (by decide) (by decide) _).trans
        (bot_copied (by decide) .auth (takes_onAuthRes h) (by simp))
  · cases packet with
    | monsterMoveStop =>
      exact (bot_switch (by decide) (by decide) (by decide) _).trans
        (bot_copied (by decide) .field (takes_readMoveStop h .monsterMoveStop) (by simp))
    | monsterDamaged =>
      exact (bot_switch (by decide) (by decide) (by decide) _).trans
        (bot_copied (by decide) .field (takes_onMonsterDamaged h) (by simp))
    | characterDamaged =>
      exact (bot_switch (by decide) (by decide) (by decide) _).trans
        (bot_copied (by decide) .field (takes_onCharacterDamaged h) (by simp))
    | itemSpawn record =>
      refine (bot_switch (by decide) (by decide) (by decide) _).trans
        (bot_copied (by decide) .field ?_ ?_)
      · exact (takes_itemRecord h).bind_pure
      · simp [itemValues]
    | lootRes result itemId count =>
      exact (bot_switch (by decide) (by decide) (by decide) _).trans
        (bot_copied (by decide) .field (takes_onLootRes itemId h) (by simp))
    | _ => exact bot_switch (by decide) (by decide) (by decide) _

end

/-! ### The batches of the loops -/

section

variable {F : Type} [FloatBytes F]

/-- A message of the batch loops is that of a packet with its records. -/
theorem layout_message {ε ρ : Type} {l : Layout ε} (values : ρ → List (List UInt8)) (record : ε → ρ)
    (hrecord : ∀ e, l.record e = values (record e))
    (hsize : ∀ r, (values r).flatten.length = l.recordSize) {part : List ε}
    (h : part.length ≤ l.maxBatch) (sessionID : SeqAndIdx) :
    (writeBatch l.type l.recordSize values part.length (part.map record)).message sessionID =
      .ok (l.message sessionID part.length part) := by
  have hranged : BatchRanged l.recordSize (fun _ : ρ => True) part.length (part.map record) :=
    ⟨by rw [List.length_map], h, fun _ _ => trivial⟩
  have hs : (writeBatch l.type l.recordSize values part.length (part.map record)).Sound :=
    sound_writeBatch l.type hsize hranged
  have hrecords : ((part.map record).flatMap values).flatten = part.flatMap fun e =>
      (l.record e).flatten := by
    rw [flatten_flatMap, List.flatMap_map]
    simp only [hrecord]
  rw [hs.message, ← header_bytes, ← hs.len]
  unfold Layout.message writeBatch Written.payload
  simp [hrecords]

theorem player_message (s : State F) {part : List ℕ}
    (h : part.length ≤ maxBatch CHARACTER_RECORD_SIZE) (sessionID : SeqAndIdx) :
    (sendSpawnBatch part.length (part.map fun q => (s.player q).record)).message sessionID =
      .ok ((playerLayout s).message sessionID part.length part) :=
  layout_message (l := playerLayout s) characterValues (fun q => (s.player q).record)
    (fun _ => rfl) characterValues_length h sessionID

theorem monster_message (s : State F) {part : List ℤ}
    (h : part.length ≤ maxBatch MONSTER_RECORD_SIZE) (sessionID : SeqAndIdx) :
    (sendMonsterSpawnBatch part.length (part.map fun id => (s.monster id).record)).message
    sessionID = .ok ((monsterLayout s).message sessionID part.length part) :=
  layout_message (l := monsterLayout s) monsterValues (fun id => (s.monster id).record)
    (fun _ => rfl) monsterValues_length h sessionID

theorem item_message (s : State F) {part : List ℤ} (h : part.length ≤ maxBatch ITEM_RECORD_SIZE)
    (sessionID : SeqAndIdx) :
    (sendItemSpawnBatch part.length (part.map fun id => (s.item id).record)).message sessionID =
      .ok ((itemLayout s).message sessionID part.length part) :=
  layout_message (l := itemLayout s) itemValues (fun id => (s.item id).record)
    (fun _ => rfl) itemValues_length h sessionID

end

/-! ### A packet and a stream of packets -/

section

variable {F : Type} [Machine F] [FloatBytes F]

/-- A scene reads the packet from the message and leaves nothing of it. -/
def ServerPacket.ReadFrom (msg : Message) : ServerPacket F → Prop
  | .auth packet => ∃ t, LoginScene.packetProc.run msg = .ok (packet, t) ∧ t.rest = []
  | .field packet => ∃ t, FieldScene.packetProc.run msg = .ok (packet, t) ∧ t.rest = []

theorem readFrom_payload {packet : ServerPacket F} (h : packet.Ranged) :
    packet.ReadFrom (Network.message packet.written.payload) := by
  rcases packet with packet | packet
  · exact (takes_loginScene h).run rfl
  · exact (takes_fieldScene h).run rfl

/-- What a function of the server writes is as long as it says and fits, and the client and the bot
read it back. -/
theorem packet_read_back {packet : ServerPacket F} (h : packet.Ranged) (sessionID : SeqAndIdx) :
    ∃ msg, packet.written.message sessionID = .ok msg ∧ msg.data.length ≤ BufferSize ∧
      Header.ofBytes msg.data = ⟨packet.written.len, 0⟩ ∧
        (msg.data.length : ℤ) = Header.size + packet.written.len ∧
      packet.ReadFrom (Network.message (msg.data.drop Header.size)) ∧
      (packet ≠ .auth .fieldAuthFail →
        ClientBot.packetProc (msg.data.drop Header.size) = .ok packet.forBot) := by
  have hs := sound_written h
  have hfits := hs.fits
  have hdrop : (Header.bytes packet.written.payload.length 0 ++ packet.written.payload).drop
      Header.size = packet.written.payload := by
    rw [← Header.bytes_length packet.written.payload.length 0, List.drop_left]
  refine ⟨_, hs.message sessionID, ?_, ?_, ?_, ?_, ?_⟩
  · rw [List.length_append, Header.bytes_length]
    exact hfits
  · unfold BufferSize at hfits
    rw [hs.len]
    exact Header.ofBytes_bytes (by omega) 0 _
  · rw [hs.len, List.length_append, Header.bytes_length]
    push_cast
    rfl
  · rw [hdrop]
    exact readFrom_payload h
  · intro hfail
    rw [hdrop]
    exact bot_packetProc h hfail

end

/-- Monster 7 sets out. -/
theorem packet_read_back_moveStart : ∃ msg,
    (ServerPacket.field (.monsterMoveStart 7 (⟨100, 250⟩ : Position ℚ) 3 (9 / 2))).written.message
    ⟨1, 7⟩ = .ok msg ∧ msg.data.length = 26 := by
  have hranged :
      (ServerPacket.field (.monsterMoveStart 7 (⟨100, 250⟩ : Position ℚ) 3 (9 / 2))).Ranged := by
    refine ⟨by decide, ⟨?_, ?_⟩, by decide, ?_⟩
    all_goals unfold IsFloat; decide +kernel
  obtain ⟨msg, hmsg, -, -, hlen, -, -⟩ := packet_read_back hranged ⟨1, 7⟩
  have hbytes : (msg.data.length : ℤ) = 26 := hlen
  exact ⟨msg, hmsg, by exact_mod_cast hbytes⟩

section

variable {F : Type} [Machine F] [FloatBytes F]

/-- The messages of packets. -/
def messages (sessionID : SeqAndIdx) (packets : List (ServerPacket F)) :
    Except Stop (List Message) :=
  packets.mapM fun packet => packet.written.message sessionID

/-- As it is on the wire. -/
def ServerPacket.frame (packet : ServerPacket F) : MyMMO.Frame := ⟨0, packet.written.payload⟩

theorem messages_ok {packets : List (ServerPacket F)} (h : ∀ packet ∈ packets, packet.Ranged)
    (sessionID : SeqAndIdx) :
    messages sessionID packets = .ok
      (packets.map fun packet => ⟨sessionID, 0, packet.frame.bytes, 0⟩) := by
  unfold messages
  induction packets with
  | nil => rfl
  | cons packet packets ih =>
    have hpacket := (sound_written (h packet List.mem_cons_self)).message sessionID
    rw [List.mapM_cons, hpacket, ih fun p hp => h p (List.mem_cons_of_mem _ hp)]
    rfl

theorem frame_valid {packet : ServerPacket F} (h : packet.Ranged) : packet.frame.Valid := by
  have hs := sound_written h
  exact ⟨hs.pos, (Nat.le_add_left _ _).trans hs.fits⟩

theorem update_field {packets : List (Field.Packet F)}
    (h : ∀ packet ∈ packets, FieldRanged packet) :
    SceneManager.update true (packets.map fun packet => Network.message (writeField packet).payload)
      = .ok (packets.map .field) := by
  induction packets with
  | nil => rfl
  | cons packet packets ih =>
    have hranged : (ServerPacket.field packet).Ranged := h packet List.mem_cons_self
    obtain ⟨t, ht, -⟩ := readFrom_payload hranged
    have hrest := ih fun p hp => h p (List.mem_cons_of_mem _ hp)
    have hread : FieldScene.packetProc.run (Network.message (writeField packet).payload) =
        .ok (packet, t) := ht
    rw [List.map_cons, SceneManager.update, hread]
    show (SceneManager.update true _ >>=
      fun packets => pure (ServerPacket.field packet :: packets)) = _
    rw [hrest]
    rfl

/-- The session of a client: the response to its login, then the field. -/
def session (characterId : ℤ) (pos : Position F) (packets : List (Field.Packet F)) :
    List (ServerPacket F) :=
  .auth (.fieldAuthRes characterId pos) :: packets.map .field

theorem update_session {characterId : ℤ} {pos : Position F} {packets : List (Field.Packet F)}
    (hauth : InRange 8 characterId ∧ IsPosition pos)
    (hfield : ∀ packet ∈ packets, FieldRanged packet) :
    SceneManager.update false
      ((session characterId pos packets).map fun packet => Network.message packet.written.payload) =
      .ok (session characterId pos packets) := by
  have hranged : (ServerPacket.auth (.fieldAuthRes characterId pos)).Ranged := hauth
  obtain ⟨t, ht, -⟩ := readFrom_payload hranged
  have hread : LoginScene.packetProc.run
      (Network.message (writeAuth (.fieldAuthRes characterId pos)).payload) =
        .ok (.fieldAuthRes characterId pos, t) := ht
  unfold session
  rw [List.map_cons, List.map_map]
  show SceneManager.update false
    (Network.message (writeAuth (.fieldAuthRes characterId pos)).payload ::
      packets.map fun packet => Network.message (writeField packet).payload) = _
  rw [SceneManager.update, hread]
  show (SceneManager.update true _ >>=
    fun packets => pure (ServerPacket.auth (.fieldAuthRes characterId pos) :: packets)) = _
  rw [update_field hfield]
  rfl

/-- Whatever pieces the stream of a session comes in, the scenes of the client read every packet as
it was written. -/
theorem session_read_back {characterId : ℤ} {pos : Position F} {packets : List (Field.Packet F)}
    (hauth : InRange 8 characterId ∧ IsPosition pos)
    (hfield : ∀ packet ∈ packets, FieldRanged packet) (sessionID : SeqAndIdx) :
    ∃ msgs, messages sessionID (session characterId pos packets) = .ok msgs ∧
      ∀ c chunks, Network.Delivered c [] [] → (chunks.map Prod.fst).flatten =
          (msgs.map Message.data).flatten → c.Fits chunks →
        ∃ c' got, c.run chunks = .ok c' ∧ c'.Delivered got [] ∧
          SceneManager.update false got = .ok (session characterId pos packets) := by
  have hranged : ∀ packet ∈ session characterId pos packets, packet.Ranged := by
    intro packet hpacket
    rcases List.mem_cons.mp hpacket with rfl | hmem
    · exact hauth
    · obtain ⟨p, hp, rfl⟩ := List.mem_map.mp hmem
      exact hfield p hp
  refine ⟨_, messages_ok hranged sessionID, ?_⟩
  intro c chunks hc hflat hfits
  let frames := (session characterId pos packets).map ServerPacket.frame
  have hv : ∀ f ∈ frames, f.Valid := by
    intro f hf
    obtain ⟨packet, hpacket, rfl⟩ := List.mem_map.mp hf
    exact frame_valid (hranged packet hpacket)
  have hbytes : (chunks.map Prod.fst).flatten = frames.flatMap Frame.bytes := by
    rw [hflat, List.map_map, List.flatMap_map]
    rfl
  obtain ⟨k, tail, hcut⟩ := Framing.exists_cut Frame.bytes frames (List.prefix_refl _)
  obtain ⟨htake, rfl⟩ := hcut.whole fun f _ hnil => by
    have hlen := congrArg List.length hnil
    rw [f.bytes_length, Header.size, List.length_nil] at hlen
    omega
  obtain ⟨c', hrun, hdelivered⟩ := received_client hv hcut (List.prefix_refl _) hc hbytes hfits
  rw [htake] at hdelivered
  refine ⟨c', _, hrun, hdelivered, ?_⟩
  rw [List.map_map]
  exact update_session hauth hfield

end

/-- Player 7 enters, sees that item 3 is gone, and gets a ranking without entries. -/
theorem session_read_back_ranking :
    ∃ msgs, messages ⟨1, 7⟩
        (session 7 (⟨100, 250⟩ : Position ℚ) [.itemDespawn 3, .rankingRes 0 [] (-1) 0]) = .ok msgs ∧
      ∀ c chunks, Network.Delivered c [] [] → (chunks.map Prod.fst).flatten =
          (msgs.map Message.data).flatten → c.Fits chunks →
        ∃ c' got, c.run chunks = .ok c' ∧ c'.Delivered got [] ∧
          SceneManager.update false got = .ok
            (session 7 (⟨100, 250⟩ : Position ℚ) [.itemDespawn 3, .rankingRes 0 [] (-1) 0]) := by
  refine session_read_back ⟨by decide, ?_, ?_⟩ ?_ ⟨1, 7⟩
  iterate 2
    · unfold IsFloat
      decide +kernel
  · intro packet hpacket
    rcases List.mem_cons.mp hpacket with rfl | hpacket
    · show InRange 8 3
      decide
    · rw [List.mem_singleton.mp hpacket]
      exact ⟨rfl, by decide, by simp, by decide, by decide⟩

end Wire
end MyMMO
