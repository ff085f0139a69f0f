/-
# What clients ask for

The requests of the client (`LoginScene`, `FieldScene`, `Player`) and of the bot, as they are
written, and the handlers of the server from where they have read them: `act` is what a request does
to the field. However the stream of a session is cut, the server does what the requests say
(`requests_served`). The receive path hands its messages to an `onRecv` that only records them;
`FieldServer::onRecv` also disconnects a session with 500 unconsumed messages (`RecvQueue`).
-/
import MyMMO.Packets

namespace MyMMO
namespace Wire

open Codec Message FloatBytes MyMMO.Field
open Sector (getAroundSectors)

/-! ### Writing -/

/-- What a client sends; `id` and `pw` are the arrays of the login. -/
inductive Request (F : Type)
  | fieldAuthReq (id pw : List UInt8)
  | moveStart (characterID : ℤ) (pos : Position F) (direction : ℤ) (speed : F)
  | moveStop (characterID : ℤ) (pos : Position F) (direction : ℤ)
  | playerAttackReq (skillId : ℤ) (targets : List ℤ)
  | lootReq (itemUniqueId : ℤ)
  | rankingReq

section

variable {F : Type} [FloatBytes F]

/-- `LoginScene::sendFieldEnterReq`. -/
def sendFieldEnterReq (id pw : List UInt8) : Written :=
  ⟨2 + 20 + 64, [intToBytes 2 PacketType.FIELD_AUTH_REQ, id, pw]⟩

/-- `Player::sendMoveStartPacket`. -/
def sendMoveStartPacket (characterID : ℤ) (pos : Position F) (direction : ℤ)
    (speed : F) : Written :=
  writeMoveStart PacketType.MOVE_START characterID pos direction speed

/-- `Player::sendMoveStopPacket`. -/
def sendMoveStopPacket (characterID : ℤ) (pos : Position F) (direction : ℤ) : Written :=
  writeMoveStop PacketType.MOVE_STOP characterID pos direction

/-- `FieldScene::updateAttackInput`, for its `candidates`. -/
def updateAttackInput (skillId : ℤ) (candidates : List ℤ) : Written :=
  ⟨2 + 1 + 2 + 8 * candidates.length, intToBytes 2 PacketType.PLAYER_ATTACK_REQ ::
    intToBytes 1 skillId :: intToBytes 2 (int16 candidates.length) :: candidates.map (intToBytes 8)⟩

/-- `FieldScene::updateLootInput`. -/
def updateLootInput (nearestId : ℤ) : Written := writeId PacketType.LOOT_REQ nearestId

/-- `FieldScene::updateRankingInput`. -/
def updateRankingInput : Written := ⟨2, [intToBytes 2 PacketType.RANKING_REQ]⟩

def Request.written : Request F → Written
  | .fieldAuthReq id pw => sendFieldEnterReq id pw
  | .moveStart characterID pos direction speed =>
      sendMoveStartPacket characterID pos direction speed
  | .moveStop characterID pos direction => sendMoveStopPacket characterID pos direction
  | .playerAttackReq skillId targets => updateAttackInput skillId targets
  | .lootReq itemUniqueId => updateLootInput itemUniqueId
  | .rankingReq => updateRankingInput

/-! The bot fills packed structures and sends them as they are in memory. -/

namespace ClientBot

def ascii (text : String) : List UInt8 := text.toList.map fun c => .ofNat c.toNat

/-- `"bot%lld"` in a buffer of 20 bytes, behind it zeros. -/
def botId (accountNo : ℤ) : List UInt8 :=
  let idStr := Login.snprintf 20 (ascii "bot" ++ ascii (toString accountNo))
  idStr ++ List.replicate (20 - idStr.length) 0

/-- `kBotPw`, and zeros. -/
def botPw : List UInt8 :=
  let pw := ascii "botpass123"
  pw ++ List.replicate (64 - pw.length) 0

def postFieldAuthReq (accountNo : ℤ) : Written :=
  ⟨2 + 20 + 64, [intToBytes 2 PacketType.FIELD_AUTH_REQ, botId accountNo, botPw]⟩

def postMoveStart (characterId : ℤ) (pos : Position F) (dir : ℤ) (kBotSpeed : F) : Written :=
  ⟨2 + 8 + 4 + 4 + 1 + 4, [intToBytes 2 PacketType.MOVE_START, intToBytes 8 characterId,
    floatBytes pos.x, floatBytes pos.y, intToBytes 1 dir, floatBytes kBotSpeed]⟩

def postMoveStop (characterId : ℤ) (pos : Position F) (direction : ℤ) : Written :=
  ⟨2 + 8 + 4 + 4 + 1, [intToBytes 2 PacketType.MOVE_STOP, intToBytes 8 characterId,
    floatBytes pos.x, floatBytes pos.y, intToBytes 1 direction]⟩

def postAttackReq (targetID : ℤ) : Written :=
  ⟨2 + 1 + 2 + 8, [intToBytes 2 PacketType.PLAYER_ATTACK_REQ, intToBytes 1 0, intToBytes 2 1,
    intToBytes 8 targetID]⟩

def postLootReq (targetItemID : ℤ) : Written :=
  ⟨2 + 8, [intToBytes 2 PacketType.LOOT_REQ, intToBytes 8 targetItemID]⟩

/-- What a bot sends. -/
inductive Request (F : Type)
  | fieldAuthReq (accountNo : ℤ)
  | moveStart (characterId : ℤ) (pos : Position F) (dir : ℤ) (kBotSpeed : F)
  | moveStop (characterId : ℤ) (pos : Position F) (direction : ℤ)
  | attackReq (targetID : ℤ)
  | lootReq (targetItemID : ℤ)

def Request.written : Request F → Written
  | .fieldAuthReq accountNo => postFieldAuthReq accountNo
  | .moveStart characterId pos dir kBotSpeed => postMoveStart characterId pos dir kBotSpeed
  | .moveStop characterId pos direction => postMoveStop characterId pos direction
  | .attackReq targetID => postAttackReq targetID
  | .lootReq targetItemID => postLootReq targetItemID

/-- The request of the client that it stands for. -/
def Request.meant : Request F → Wire.Request F
  | .fieldAuthReq accountNo => .fieldAuthReq (botId accountNo) botPw
  | .moveStart characterId pos dir kBotSpeed => .moveStart characterId pos dir kBotSpeed
  | .moveStop characterId pos direction => .moveStop characterId pos direction
  | .attackReq targetID => .playerAttackReq 0 [targetID]
  | .lootReq targetItemID => .lootReq targetItemID

/-- What `EnqueueSend` puts into `mSendBuffer`, one structure behind the other. -/
def enqueueSend (rs : List (Request F)) : List UInt8 :=
  rs.flatMap fun r => intToBytes 2 (int16 r.written.len) ++ intToBytes 1 0 ++ r.written.payload

end ClientBot

end

/-! ### The handlers, from where they have read -/

section

variable {F : Type} [Machine F]

/-- Of `handleMoveStart`. -/
def moveStarted (s : State F) (q : ℕ) (pos : Position F) (direction : ℤ) (speed : F) :
    Except Stop (State F) := do
  s.hasPlayer q "Player가 현재 스레드가 없는 상황이므로 말이 안됨."
  let p := s.player q
  match p.state with
  | .stun | .dead | .move => return s
  | .attack =>
    if ALLOW_DELAY_FRAME ≤ PLAYER_ATTACK_TOTAL_FRAME - p.animFrame then
      let p := p.addSync (PLAYER_ATTACK_TOTAL_FRAME - p.animFrame).toNat
      let s := s.setPlayer q p
      return if CONFIG_SINK_MAXCOUNT < p.syncCnt then s.disconnectSession q else s
    else handleMoveStart.start s q pos.x pos.y direction speed p
  | .idle => handleMoveStart.start s q pos.x pos.y direction speed p

/-- Of `handleMoveStop`. -/
def moveStopped (s : State F) (q : ℕ) (packetPos : Position F) (direction : ℤ) :
    Except Stop (State F) := do
  s.hasPlayer q "패킷이 왔는데 현재 쓰레드에 Player가 없는 말이안되는 상황"
  let p := s.player q
  match p.state with
  | .attack | .dead | .stun => return s
  | .idle | .move =>
    myAssert (Machine.le (Machine.lit 0) packetPos.x) "클라이언트가 잘못보냄."
    myAssert (Machine.le (Machine.lit 0) packetPos.y) "클라이언트가 잘못보냄."
    myAssert (Machine.le packetPos.x (Machine.ofInt (SECTOR_WORLD_W * SECTOR_COL_CNT)))
      "클라이언트가 잘못보냄."
    myAssert (Machine.le packetPos.y (Machine.ofInt (SECTOR_WORLD_H * SECTOR_ROW_CNT)))
      "클라이언트가 잘못보냄."
    if p.outOfSync packetPos then return (s.setPlayer q (p.syncCheck packetPos)).disconnectSession q
    else
      let p := p.place packetPos direction
      let p ← if p.state ≠ .idle then p.changeState .idle else pure p
      let s := (s.setPlayer q p).record (.moveStop q)
      let nearSector ← getAroundSectors p.currentSector
      return s.broadcastMoveStop q nearSector

/-- Of `handleAttackReq`. -/
def attackRequested (s : State F) (q : ℕ) (skillId : ℤ) (targets : List ℤ) :
    Except Stop (State F) :=
  match (getSkillConfig skillId : Option (F × ℤ)) with
  | none => return s.disconnectSession q
  | some (_, maxTargetCnt) =>
    if maxTargetCnt < targets.length then return s.disconnectSession q
    else do
      s.hasPlayer q "패킷이 왔는데 현재 쓰레드에 Player가 없는 말이안되는 상황"
      let p := s.player q
      match p.state with
      | .dead | .attack | .stun => return s
      | .idle | .move =>
        let nearSector ← getAroundSectors p.currentSector
        let p ← p.changeState .attack
        let s :=
          (s.setPlayer q { p with pendingAttackSkillId := skillId }).record (.attackAccepted q)
        let s := s.broadcastPlayerAttack q nearSector
        return s.setPlayer q { s.player q with pendingAttackTargets := targets }

/-- Of `handleLootReq`. -/
def lootRequested (s : State F) (q : ℕ) (itemUniqueId : ℤ) : Except Stop (State F) := do
  s.hasPlayer q "패킷이 왔는데 현재 쓰레드에 Player가 없는 말이안되는 상황"
  let p := s.player q
  if itemUniqueId ∉ s.items then return s.sendLootRes q false .max 0
  else
    let item := s.item itemUniqueId
    if Machine.lt LOOT_RANGE (p.pos.dist item.pos) then return s.sendLootRes q false .max 0
    else
      let s := s.setPlayer q (p.addItem item)
      let nearSector ← getAroundSectors item.sector
      let s := s.broadcastItemDespawn item nearSector
      let s := s.sendLootRes q true item.itemId item.count
      myAssert (itemUniqueId ∈ s.itemSectors item.sector) "섹터에 아이템이 없음"
      return { s.record (.looted q itemUniqueId) with
        itemSectors := Function.update s.itemSectors item.sector
          ((s.itemSectors item.sector).erase itemUniqueId)
        items := s.items.erase itemUniqueId }

/-- Of `handleRankingReq`. -/
def rankingRequested (s : State F) (q : ℕ) : Except Stop (State F) := do
  s.hasPlayer q "패킷이 왔는데 현재 쓰레드에 Player가 없는 말이안되는 상황"
  let p := s.player q
  return s.enqueueJob (.rankingQuery q p.accountNo p.nickname)

/-- What a request of the session `q` does to the field; a second login is what `default` makes of
it. -/
def act (s : State F) (q : ℕ) : Request F → Except Stop (State F)
  | .fieldAuthReq _ _ => return s.disconnectSession q
  | .moveStart _ pos direction speed => moveStarted s q pos direction speed
  | .moveStop _ pos direction => moveStopped s q pos direction
  | .playerAttackReq skillId targets => attackRequested s q skillId targets
  | .lootReq itemUniqueId => lootRequested s q itemUniqueId
  | .rankingReq => rankingRequested s q

end

/-! ### Requests with values of their types -/

section

variable {F : Type} [Machine F] [FloatBytes F]

def Request.Ranged : Request F → Prop
  | .fieldAuthReq id pw => id.length = 20 ∧ pw.length = 64
  | .moveStart characterID pos direction speed =>
      InRange 8 characterID ∧ IsPosition pos ∧ InRange 1 direction ∧ IsFloat speed
  | .moveStop characterID pos direction =>
      InRange 8 characterID ∧ IsPosition pos ∧ InRange 1 direction
  | .playerAttackReq skillId targets =>
    InRange 1 skillId ∧ targets.length ≤ (BufferSize - Header.size - 2 - 1 - 2) / 8 ∧
      ∀ target ∈ targets, InRange 8 target
  | .lootReq itemUniqueId => InRange 8 itemUniqueId
  | .rankingReq => True

theorem targets_length (targets : List ℤ) :
    (targets.map (intToBytes 8)).flatten.length = 8 * targets.length := by
  rw [List.length_flatten, List.map_map]
  simp [Function.comp_def, Nat.mul_comm]

/-- `header.Len` is right. -/
theorem sound_request {r : Request F} (h : r.Ranged) : r.written.Sound := by
  cases r with
  | fieldAuthReq id pw =>
    refine .of_length (n := 86) ?_ rfl (by decide) (by decide)
    simp [Request.written, sendFieldEnterReq, Written.payload, h.1, h.2]
  | moveStart => exact sound_writeMoveStart _ _ _ _ _
  | moveStop => exact sound_writeMoveStop _ _ _ _
  | playerAttackReq skillId targets =>
    have hmax := h.2.1
    unfold BufferSize Header.size at hmax
    refine .of_length (n := 5 + 8 * targets.length) ?_ ?_ (by omega) ?_
    · simp only [Request.written, updateAttackInput, Written.payload, List.flatten_cons,
        List.length_append, intToBytes_length, targets_length]
      omega
    · simp [Request.written, updateAttackInput]
    · unfold BufferSize Header.size
      omega
  | lootReq => exact sound_writeId _ _
  | rankingReq => exact .of_length (n := 2) rfl rfl (by decide) (by decide)

omit [Machine F] [FloatBytes F] in
theorem readTargets_ok {targets : List ℤ} (h : ∀ target ∈ targets, InRange 8 target) {msg : Message}
    (hrest : msg.rest = (targets.map (intToBytes 8)).flatten) :
    readTargets targets.length msg = .ok targets := by
  induction targets generalizing msg with
  | nil => rfl
  | cons target targets ih =>
    obtain ⟨t, ht, hleft⟩ := takes_int (by decide) (h target List.mem_cons_self) msg _ hrest
    have hread : msg.readInt 8 = .ok (target, t) := ht
    rw [List.length_cons, readTargets, hread]
    show (readTargets targets.length t >>= fun l => pure (target :: l)) = _
    rw [ih (fun target' h' => h target' (List.mem_cons_of_mem _ h')) hleft]
    rfl

/-! ### Reading back -/

variable {s : State F} {q : ℕ} {msg : Message}

theorem handleMoveStart_read {id direction : ℤ} {pos : Position F} {speed : F}
    (h : InRange 8 id ∧ IsPosition pos ∧ InRange 1 direction ∧ IsFloat speed)
    (hrest : msg.rest = [intToBytes 8 id, floatBytes pos.x, floatBytes pos.y,
      intToBytes 1 direction, floatBytes speed].flatten) :
    handleMoveStart s msg q = moveStarted s q pos direction speed := by
  obtain ⟨hid, ⟨hx, hy⟩, hdirection, hspeed⟩ := h
  obtain ⟨m1, h1, hrest⟩ := takes_int (by decide) hid msg _ hrest
  obtain ⟨m2, h2, hrest⟩ := takes_float hx m1 _ hrest
  obtain ⟨m3, h3, hrest⟩ := takes_float hy m2 _ hrest
  obtain ⟨m4, h4, hrest⟩ := takes_int (by decide) hdirection m3 _ hrest
  obtain ⟨m5, h5, -⟩ := takes_float hspeed m4 _ hrest
  unfold handleMoveStart
  rw [show msg.readInt 8 = _ from h1]
  show (readFloat m1 >>= _) = _
  rw [show readFloat m1 = _ from h2]
  show (readFloat m2 >>= _) = _
  rw [show readFloat m2 = _ from h3]
  show (m3.readInt 1 >>= _) = _
  rw [show m3.readInt 1 = _ from h4]
  show (readFloat m4 >>= _) = _
  rw [show readFloat m4 = _ from h5]
  rfl

theorem handleMoveStop_read {id direction : ℤ} {pos : Position F}
    (h : InRange 8 id ∧ IsPosition pos ∧ InRange 1 direction)
    (hrest : msg.rest = [intToBytes 8 id, floatBytes pos.x, floatBytes pos.y,
      intToBytes 1 direction].flatten) :
    handleMoveStop s msg q = moveStopped s q pos direction := by
  obtain ⟨hid, ⟨hx, hy⟩, hdirection⟩ := h
  obtain ⟨m1, h1, hrest⟩ := takes_int (by decide) hid msg _ hrest
  obtain ⟨m2, h2, hrest⟩ := takes_float hx m1 _ hrest
  obtain ⟨m3, h3, hrest⟩ := takes_float hy m2 _ hrest
  obtain ⟨m4, h4, -⟩ := takes_int (by decide) hdirection m3 _ hrest
  unfold handleMoveStop
  rw [show msg.readInt 8 = _ from h1]
  show (readFloat m1 >>= _) = _
  rw [show readFloat m1 = _ from h2]
  show (readFloat m2 >>= _) = _
  rw [show readFloat m2 = _ from h3]
  show (m3.readInt 1 >>= _) = _
  rw [show m3.readInt 1 = _ from h4]
  rfl

omit [FloatBytes F] in
theorem handleAttackReq_read {skillId : ℤ} {targets : List ℤ} (hskill : InRange 1 skillId)
    (hcnt : targets.length ≤ BufferSize) (hall : ∀ target ∈ targets, InRange 8 target)
    (hrest : msg.rest =
      (intToBytes 1 skillId :: intToBytes 2 targets.length ::
        targets.map (intToBytes 8)).flatten) :
    handleAttackReq s msg q = attackRequested s q skillId targets := by
  obtain ⟨m1, h1, hrest⟩ := takes_int (by decide) hskill msg _ hrest
  obtain ⟨m2, h2, hrest⟩ := takes_int (by decide) (inRange_cnt hcnt) m1 _ hrest
  unfold handleAttackReq
  rw [show msg.readInt 1 = _ from h1]
  show (m1.readInt 2 >>= _) = _
  rw [show m1.readInt 2 = _ from h2]
  dsimp only [bind, Except.bind]
  rw [Int.toNat_natCast, readTargets_ok hall hrest]
  rfl

omit [FloatBytes F] in
theorem handleLootReq_read {itemUniqueId : ℤ} (h : InRange 8 itemUniqueId)
    (hrest : msg.rest = [intToBytes 8 itemUniqueId].flatten) :
    handleLootReq s msg q = lootRequested s q itemUniqueId := by
  obtain ⟨m1, h1, -⟩ := takes_int (by decide) h msg _ hrest
  unfold handleLootReq
  rw [show msg.readInt 8 = _ from h1]
  rfl

omit [FloatBytes F] in
/-- The type, the counter and the `switch`. -/
theorem fieldContentsPacketProc_read {type : ℤ}
    (htype : InRange 2 type) (hlow : 0 ≤ type) (hhigh : type < 128) {values : List (List UInt8)}
    (hrest : msg.rest = (intToBytes 2 type :: values).flatten) :
    ∃ m : Message, m.rest = values.flatten ∧ fieldContentsPacketProc s msg q =
      if type = PacketType.MOVE_START then handleMoveStart s m q
      else if type = PacketType.MOVE_STOP then handleMoveStop s m q
      else if type = PacketType.PLAYER_ATTACK_REQ then handleAttackReq s m q
      else if type = PacketType.LOOT_REQ then handleLootReq s m q
      else if type = PacketType.RANKING_REQ then handleRankingReq s m q
      else return s.disconnectSession q := by
  obtain ⟨m, hm, hleft⟩ := takes_int (by decide) htype msg _ hrest
  refine ⟨m, hleft, ?_⟩
  unfold fieldContentsPacketProc recordRecv
  rw [show msg.readInt 2 = _ from hm]
  show (rtAssert (decide (0 ≤ type ∧ type < 128)) >>= _) = _
  rw [rtAssert_true (decide_eq_true ⟨hlow, hhigh⟩)]
  rfl

/-- The field thread does what a request says. -/
theorem fieldContentsPacketProc_act {r : Request F} (h : r.Ranged)
    (hrest : msg.rest = r.written.payload) :
    fieldContentsPacketProc s msg q = act s q r := by
  cases r with
  | fieldAuthReq =>
    obtain ⟨m, -, hm⟩ :=
      fieldContentsPacketProc_read (s := s) (q := q) (by decide) (by decide) (by decide) hrest
    exact hm
  | moveStart =>
    obtain ⟨m, hleft, hm⟩ :=
      fieldContentsPacketProc_read (s := s) (q := q) (by decide) (by decide) (by decide) hrest
    exact hm.trans (handleMoveStart_read h hleft)
  | moveStop =>
    obtain ⟨m, hleft, hm⟩ :=
      fieldContentsPacketProc_read (s := s) (q := q) (by decide) (by decide) (by decide) hrest
    exact hm.trans (handleMoveStop_read h hleft)
  | playerAttackReq skillId targets =>
    obtain ⟨hskill, hmax, hall⟩ := h
    have hcnt : targets.length ≤ BufferSize := hmax.trans (by decide)
    have hint : int16 (targets.length : ℤ) = targets.length := by
      unfold BufferSize at hcnt
      exact int16_of_lt (by omega) (by omega)
    obtain ⟨m, hleft, hm⟩ :=
      fieldContentsPacketProc_read (s := s) (q := q) (by decide) (by decide) (by decide) hrest
    rw [hint] at hleft
    exact hm.trans (handleAttackReq_read hskill hcnt hall hleft)
  | lootReq =>
    obtain ⟨m, hleft, hm⟩ :=
      fieldContentsPacketProc_read (s := s) (q := q) (by decide) (by decide) (by decide) hrest
    exact hm.trans (handleLootReq_read h hleft)
  | rankingReq =>
    obtain ⟨m, -, hm⟩ :=
      fieldContentsPacketProc_read (s := s) (q := q) (by decide) (by decide) (by decide) hrest
    exact hm

/-! ### The login and the bot -/

omit [Machine F] [FloatBytes F] in
/-- `authPacketProc` finds the type in a FIELD_AUTH_REQ, and `handleAuthReq` the two arrays. -/
theorem fieldAuthReq_read {id pw : List UInt8} (hid : id.length = 20) (hpw : pw.length = 64)
    (hrest : msg.rest = (sendFieldEnterReq id pw).payload) :
    ∃ m : Message, msg.readInt 2 = .ok (PacketType.FIELD_AUTH_REQ, m) ∧
      Login.sentBuffer m = id.set 19 0 ∧ Login.sentPw m = Login.cstr pw := by
  obtain ⟨m, hm, hleft⟩ := takes_int (by decide) (by decide) msg _ hrest
  refine ⟨m, hm, ?_⟩
  have hdata : m.data.drop m.front = id ++ pw := by
    have hrest' : m.rest = id ++ (pw ++ []) := hleft
    rw [List.append_nil] at hrest'
    exact hrest'
  constructor
  · unfold Login.sentBuffer
    rw [hdata, List.take_left' hid]
  · unfold Login.sentPw
    rw [← List.drop_drop, hdata, List.drop_left' hid, ← hpw, List.take_length]

omit [Machine F] in
/-- A structure of the bot is what the client would have written. -/
theorem written_meant (r : ClientBot.Request F) : r.written = r.meant.written := by
  cases r with
  | attackReq targetID =>
    have hcnt : int16 ([targetID].length : ℤ) = 1 := int16_of_lt (by simp) (by simp)
    show ClientBot.postAttackReq targetID = updateAttackInput 0 [targetID]
    unfold ClientBot.postAttackReq updateAttackInput
    rw [hcnt]
    simp
  | fieldAuthReq => rfl
  | moveStart => rfl
  | moveStop => rfl
  | lootReq => rfl

def ClientBot.Request.Ranged : ClientBot.Request F → Prop
  | .fieldAuthReq _ => True
  | .moveStart characterId pos dir kBotSpeed =>
      InRange 8 characterId ∧ IsPosition pos ∧ InRange 1 dir ∧ IsFloat kBotSpeed
  | .moveStop characterId pos direction =>
      InRange 8 characterId ∧ IsPosition pos ∧ InRange 1 direction
  | .attackReq targetID => InRange 8 targetID
  | .lootReq targetItemID => InRange 8 targetItemID

/-- The arrays of its login are filled up, whatever the number of its account. -/
theorem ranged_meant {r : ClientBot.Request F} (h : r.Ranged) : r.meant.Ranged := by
  cases r with
  | fieldAuthReq accountNo =>
    constructor
    · unfold ClientBot.botId Login.snprintf
      dsimp only
      rw [List.length_append, List.length_replicate, List.length_take]
      omega
    · rfl
  | moveStart => exact h
  | moveStop => exact h
  | attackReq targetID =>
    refine ⟨by decide, ?_, fun target htarget => ?_⟩
    · rw [List.length_singleton]
      decide
    · rw [List.mem_singleton.mp htarget]
      exact h
  | lootReq => exact h

/-! ### A stream of requests -/

def Request.frame (r : Request F) : MyMMO.Frame := ⟨0, r.written.payload⟩

/-- The message that `completeRecv` makes of it. -/
def Request.received (sessionID : SeqAndIdx) (r : Request F) : Message :=
  ⟨sessionID, 0, r.written.payload, 0⟩

theorem request_frame_valid {r : Request F} (h : r.Ranged) : r.frame.Valid := by
  have hs := sound_request h
  exact ⟨hs.pos, (Nat.le_add_left _ _).trans hs.fits⟩

theorem foldlM_act {rs : List (Request F)} (h : ∀ r ∈ rs, r.Ranged) (sessionID : SeqAndIdx)
    (s : State F) :
    (rs.map (Request.received sessionID)).foldlM (fun s msg => fieldContentsPacketProc s msg q) s =
      rs.foldlM (fun s r => act s q r) s := by
  induction rs generalizing s with
  | nil => rfl
  | cons r rs ih =>
    have hact : fieldContentsPacketProc s (r.received sessionID) q = act s q r :=
      fieldContentsPacketProc_act (h r List.mem_cons_self) rfl
    rw [List.map_cons, List.foldlM_cons, List.foldlM_cons, hact]
    exact bind_congr fun s' => ih (fun r' hr' => h r' (List.mem_cons_of_mem _ hr')) s'

/-- What the client sends for requests. -/
def requests (rs : List (Request F)) : Except Stop (List Message) :=
  rs.mapM fun r => r.written.message ⟨0, 0⟩

theorem requests_ok {rs : List (Request F)} (h : ∀ r ∈ rs, r.Ranged) :
    requests rs = .ok (rs.map fun r => ⟨⟨0, 0⟩, 0, r.frame.bytes, 0⟩) := by
  unfold requests
  induction rs with
  | nil => rfl
  | cons r rs ih =>
    have hr := (sound_request (h r List.mem_cons_self)).message ⟨0, 0⟩
    rw [List.mapM_cons, hr, ih fun r' hr' => h r' (List.mem_cons_of_mem _ hr')]
    rfl

/-- The bot sends the same bytes. -/
theorem enqueueSend_eq {rs : List (ClientBot.Request F)} (h : ∀ r ∈ rs, r.Ranged) :
    ClientBot.enqueueSend rs = (rs.map ClientBot.Request.meant).flatMap fun r => r.frame.bytes := by
  rw [List.flatMap_map]
  unfold ClientBot.enqueueSend
  refine List.flatMap_congr fun r hr => ?_
  have hs := sound_request (ranged_meant (h r hr))
  rw [written_meant, hs.header]
  rfl

/-- Whatever pieces `bytes` come in, one message for each request reaches `onRecv`, and the session
stays alive. The field thread does what the requests say, and the auth thread reads the login that
was meant. -/
def Served (rs : List (Request F)) (bytes : List UInt8) : Prop :=
  ∀ (sessionID : SeqAndIdx) (b : MyRingBuffer UInt8) (chunks : List (List UInt8)),
    b.WF → b.contents = [] → b.size = RINGBUFFER_SIZE → chunks.flatten = bytes →
      Receiver.Fits Receiver.record (Receiver.accepted sessionID b, []) chunks →
      (∃ end_ : Receiver, end_.live = true ∧
        Receiver.run Receiver.record (Receiver.accepted sessionID b, []) chunks =
          .ok (end_, rs.map (Request.received sessionID))) ∧
      (∀ (s : State F) (q : ℕ), (rs.map (Request.received sessionID)).foldlM
          (fun s msg => fieldContentsPacketProc s msg q) s = rs.foldlM (fun s r => act s q r) s) ∧
      ∀ id pw, Request.fieldAuthReq id pw ∈ rs →
        ∃ m : Message, (Request.received (F := F) sessionID (.fieldAuthReq id pw)).readInt 2 =
            .ok (PacketType.FIELD_AUTH_REQ, m) ∧
          Login.sentBuffer m = id.set 19 0 ∧ Login.sentPw m = Login.cstr pw

theorem served {rs : List (Request F)} (h : ∀ r ∈ rs, r.Ranged) :
    Served rs (rs.flatMap fun r => r.frame.bytes) := by
  intro sessionID b chunks hb hc hsize hflat hfit
  refine ⟨?_, fun s q => foldlM_act h sessionID s, fun id pw hmem => ?_⟩
  · have hv : ∀ f ∈ rs.map Request.frame, f.Valid := by
      intro f hf
      obtain ⟨r, hr, rfl⟩ := List.mem_map.mp hf
      exact request_frame_valid (h r hr)
    have hbytes : chunks.flatten = (rs.map Request.frame).flatMap Frame.bytes := by
      rw [hflat, List.flatMap_map]
    obtain ⟨k, tail, hcut⟩ :=
      Framing.exists_cut Frame.bytes (rs.map Request.frame) (List.prefix_refl _)
    obtain ⟨htake, rfl⟩ := hcut.whole fun f _ hnil => by
      have hlen := congrArg List.length hnil
      rw [f.bytes_length, Header.size, List.length_nil] at hlen
      omega
    obtain ⟨s', hrun, -, -, hlive, -⟩ := received_server hv hcut hb hc hsize hbytes hfit
    rw [htake, List.map_map] at hrun
    exact ⟨s', hlive, hrun⟩
  · obtain ⟨hid, hpw⟩ := h _ hmem
    exact fieldAuthReq_read hid hpw rfl

/-- The requests of a client and those of a bot are served. -/
theorem requests_served :
    (∀ rs : List (Request F), (∀ r ∈ rs, r.Ranged) →
      ∃ sent, requests rs = .ok sent ∧ Served rs (sent.map Message.data).flatten) ∧
    ∀ rs : List (ClientBot.Request F), (∀ r ∈ rs, r.Ranged) →
      Served (rs.map ClientBot.Request.meant) (ClientBot.enqueueSend rs) := by
  refine ⟨fun rs h => ⟨_, requests_ok h, ?_⟩, fun rs h => ?_⟩
  · rw [List.map_map]
    exact served h
  · rw [enqueueSend_eq h]
    refine served fun r hr => ?_
    obtain ⟨r', hr', rfl⟩ := List.mem_map.mp hr
    exact ranged_meant (h r' hr')

end

/-- Player 7 stops and asks for the ranking; bot 3 logs in. -/
theorem requests_served_ranking :
    (∃ sent, requests [.moveStop 7 (⟨100, 250⟩ : Position ℚ) 3, .rankingReq] = .ok sent ∧
      Served [.moveStop 7 (⟨100, 250⟩ : Position ℚ) 3, .rankingReq]
          (sent.map Message.data).flatten) ∧
    Served [Request.fieldAuthReq (F := ℚ) (ClientBot.botId 3) ClientBot.botPw]
      (ClientBot.enqueueSend [ClientBot.Request.fieldAuthReq (F := ℚ) 3]) := by
  refine ⟨requests_served.1 _ fun r hr => ?_, requests_served.2 [.fieldAuthReq 3] fun r hr => ?_⟩
  · rcases List.mem_cons.mp hr with rfl | hr
    · refine ⟨by decide, ⟨?_, ?_⟩, by decide⟩
      iterate 2
        · unfold IsFloat
          decide +kernel
    · rw [List.mem_singleton.mp hr]
      exact trivial
  · rw [List.mem_singleton.mp hr]
    exact trivial

end Wire
end MyMMO
