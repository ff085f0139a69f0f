/-
# The bots

A `Session` of the bot over its connections: what it does in a frame (`Update`), with the packets it
looks at, and when `selectLogic` connects it or finds its connection gone. Most of what a session
knows outlives its connection.

Its MOVE_STARTs and MOVE_STOPs alternate, but for hits, as long as no connection ends while it walks
(`moves_alternate`). With a server that answers, one that loses its connection while it waits for a
LOOT_RES never asks for anything again (`asks_no_more`), and there are two things that stop a bot
(`stops_for`).
-/
import MyMMO.Requests
import MyMMO.Lib.System

namespace MyMMO
namespace Bot

open Machine Wire

/-- `ePlayerState` of the bot. -/
inductive PlayerState
  | idle
  | move
  | chase
  | attack
  | stun
  | root
  | dead
  deriving DecidableEq, Repr

inductive SessionState
  | disconnected
  | reqConnect
  | connected
  | authed
  deriving DecidableEq, Repr

/-- What has happened on a connection. -/
inductive Mark (F : Type)
  | sent (r : Request F)
  | hit
  | lootRes

/-- A `Session`; `sock` is whether `mSock` is one, `log` what has happened since `Init`. -/
structure Session (F : Type) where
  sock : Bool
  sessionState : SessionState
  accountNo : ℤ
  characterId : ℤ
  pos : Field.Position F
  startMovePos : Field.Position F
  direction : ℤ
  animFrame : ℤ
  sendSize : ℕ
  state : PlayerState
  targetID : ℤ
  targetPos : Field.Position F
  targetItemID : ℤ
  targetItemPos : Field.Position F
  lootRequested : Bool
  bMove : Bool
  deadFrame : ℤ
  disconnectTime : ℤ
  monsterKillTime : ℕ
  hasDisconnectPos : Bool
  log : List (Mark F)

def SESSION_SEND_BUFFER_SIZE : ℕ := 1024

def changeDirFrame : ℤ := 25

section

variable {F : Type} [Machine F] [FloatBytes F]

/-- `mSpeed` is never anything else. -/
def kBotSpeed : F := lit 4.5

def LOOT_RANGE : F := lit 50

def sendOverflow : String := "sendBuffer 오버플로우"

def positionLost : String := "위치저장 검증 실패"

namespace Session

variable (s : Session F)

/-- The constructor, with the account that it gets. -/
def new (accountNo : ℤ) : Session F where
  sock := false
  sessionState := .disconnected
  accountNo := accountNo
  characterId := 0
  pos := ⟨lit 0, lit 0⟩
  startMovePos := ⟨lit 0, lit 0⟩
  direction := Field.Direction.down
  animFrame := 0
  sendSize := 0
  state := .idle
  targetID := -1
  targetPos := ⟨lit 0, lit 0⟩
  targetItemID := -1
  targetItemPos := ⟨lit 0, lit 0⟩
  lootRequested := false
  bMove := false
  deadFrame := 0
  disconnectTime := 0
  monsterKillTime := 0
  hasDisconnectPos := false
  log := []

/-- `Init`. -/
def init : Except Stop (Session F) := do
  myAssert (s.sock = false) "Init 중복 호출 : mSock이 이미 존재"
  return { s with sock := true, sendSize := 0, deadFrame := 0, log := [] }

def enqueueSend (r : Request F) : Except Stop (Session F) := do
  let size := Header.size + r.written.payload.length
  myAssert (s.sendSize + size ≤ SESSION_SEND_BUFFER_SIZE) sendOverflow
  return { s with sendSize := s.sendSize + size, log := s.log ++ [.sent r] }

def postFieldAuthReq : Except Stop (Session F) :=
  s.enqueueSend (.fieldAuthReq (ClientBot.botId s.accountNo) ClientBot.botPw)

def postMoveStart (dir : ℤ) : Except Stop (Session F) := do
  let s ← s.enqueueSend (.moveStart s.characterId s.pos dir kBotSpeed)
  return { s with startMovePos := s.pos, direction := dir, animFrame := 0 }

def postMoveStop : Except Stop (Session F) := do
  let s ← s.enqueueSend (.moveStop s.characterId s.pos s.direction)
  return { s with startMovePos := s.pos, animFrame := 0 }

def postAttackReq : Except Stop (Session F) := s.enqueueSend (.playerAttackReq 0 [s.targetID])

def postLootReq : Except Stop (Session F) := s.enqueueSend (.lootReq s.targetItemID)

def resetAnimStart : Session F := { s with animFrame := 0, startMovePos := s.pos }

def changeState (mode : PlayerState) : Except Stop (Session F) :=
  if mode = s.state then .error .debugBreak else .ok { s with state := mode }.resetAnimStart

def traceMove (on : Bool) : Session F := { s with bMove := on }

/-- `if (mBMove)`: it stops. -/
def stopMove : Except Stop (Session F) :=
  if s.bMove then do
    let s ← s.postMoveStop
    return s.traceMove false
  else return s

def idleUpdate (time : ℕ) (rands : Rands) : Except Stop (Session F) :=
  let s : Session F :=
    if s.monsterKillTime ≠ 0 ∧ (s.monsterKillTime + 10000) % 2 ^ 32 ≤ time then { s with
      targetID := -1, monsterKillTime := 0 }
    else s
  if s.targetItemID ≠ -1 then s.changeState .root
  else if s.targetID ≠ -1 then s.changeState .chase
  else
    let (randNum, rands) := rands.rand
    if randNum % 100 ≤ 5 then do
      let dir : ℤ := rands.rand.1 % 8
      let s ← s.postMoveStart dir
      let s ← s.changeState .move
      return s.traceMove true
    else return s

def moveUpdate (rands : Rands) : Except Stop (Session F) :=
  let (randNum, rands) := rands.rand
  if randNum % 100 = 0 then do
    let s ← s.postMoveStop
    let s ← s.changeState .idle
    return s.traceMove false
  else if randNum % 100 = 1 ∧ changeDirFrame ≤ s.animFrame then do
    let dir : ℤ := rands.rand.1 % 8
    let s ← s.postMoveStop
    let s := s.traceMove false
    let s ← s.postMoveStart dir
    return s.traceMove true
  else return s

/-- `isInAttackRange` for the range of the attack. -/
def inAttackRange : Bool := le (s.pos.dist s.targetPos) (lit 160)

/-- Of `chaseUpdate`, before it attacks. -/
def takeAim (dirToTarget : ℤ) (time : ℕ) : Session F :=
  { s with
    monsterKillTime := if s.monsterKillTime = 0 then time else s.monsterKillTime,
    direction := dirToTarget }

def chaseUpdate (time : ℕ) : Except Stop (Session F) :=
  let dirToTarget := Field.getDirectionTo s.pos s.targetPos
  if s.inAttackRange then do
    let s ← s.stopMove
    let s ← (s.takeAim dirToTarget time).postAttackReq
    s.changeState .attack
  else if changeDirFrame ≤ s.animFrame then do
    let s ← { s with animFrame := 0 }.stopMove
    let s ← s.postMoveStart dirToTarget
    return s.traceMove true
  else return s

def attackUpdate : Except Stop (Session F) :=
  if s.animFrame = Field.PLAYER_ATTACK_TOTAL_FRAME then s.changeState .idle else return s

def stunUpdate : Except Stop (Session F) :=
  if s.animFrame = Field.PLAYER_HIT_STUN_FRAME then s.changeState .idle else return s

def rootUpdate : Except Stop (Session F) :=
  if s.targetItemID = -1 then do
    let s ← s.stopMove
    s.changeState .idle
  else if s.lootRequested then return s
  else if lt LOOT_RANGE (s.pos.dist s.targetItemPos) then
    let dirToTarget := Field.getDirectionTo s.pos s.targetItemPos
    if changeDirFrame ≤ s.animFrame then do
      let s ← s.stopMove
      let s ← s.postMoveStart dirToTarget
      return s.traceMove true
    else return s
  else do
    let s ← s.stopMove
    let s ← s.postLootReq
    return { s with lootRequested := true }

def deadUpdate : Session F := { s with deadFrame := s.deadFrame + 1 }

/-- What `Update` does first. -/
def walk : Session F :=
  if s.bMove then
    let d : F × F := Field.directionVector s.direction
    { s with
      pos := .clamp (s.startMovePos.x + d.1 * kBotSpeed * ofInt s.animFrame)
        (s.startMovePos.y + d.2 * kBotSpeed * ofInt s.animFrame) }
  else s

/-- The `switch` of `Update`. -/
def stateUpdate (time : ℕ) (rands : Rands) : Except Stop (Session F) :=
  match s.state with
  | .idle => s.idleUpdate time rands
  | .move => s.moveUpdate rands
  | .chase => s.chaseUpdate time
  | .attack => s.attackUpdate
  | .stun => s.stunUpdate
  | .root => s.rootUpdate
  | .dead => return s.deadUpdate

/-- `Update`; the heartbeat behind it sends nothing. -/
def update (time : ℕ) (rands : Rands) : Except Stop (Session F) := do
  let s ← s.walk.stateUpdate time rands
  return { s with animFrame := s.animFrame + 1 }

def chaseTarget (targetID : ℤ) (targetPos : Field.Position F) : Session F :=
  if s.targetID = targetID then { s with targetPos }
  else if s.targetID = -1 then { s with targetID, targetPos }
  else s

def chaseItem (targetID : ℤ) (targetPos : Field.Position F) : Session F :=
  { s with targetItemID := targetID, targetItemPos := targetPos, lootRequested := false }

/-- Of `TakeDamage`, before it looks at `hp`. -/
def struck (pos : Field.Position F) (time : ℕ) : Session F :=
  { s with
    monsterKillTime := time, pos, startMovePos := pos, targetPos := pos, bMove := false,
    log := s.log ++ [.hit] }

def takeDamage (hp : ℤ) (pos : Field.Position F) (time : ℕ) : Except Stop (Session F) :=
  if s.state = .dead then return s
  else
    let s := s.struck pos time
    if hp ≤ 0 then s.changeState .dead
    else if s.state = .stun then return s.resetAnimStart
    else s.changeState .stun

def monsterChaseInit : Except Stop (Session F) := do
  myAssert (s.targetID ≠ -1) "쫒는 상대가없는데 init이 옴"
  return { s with targetID := -1 }

def itemChaseInit : Except Stop (Session F) := do
  myAssert (s.targetItemID ≠ -1) "쫒는 상대가없는데 init이 옴"
  return { s with targetItemID := -1 }

/-- `Disconnect`. -/
def disconnect (currentTime : ℤ) : Session F :=
  { s with sock := false, sessionState := .disconnected, disconnectTime := currentTime }

/-! ### The handlers of `ClientBot` -/

def handleFieldAuth (characterId : ℤ) (pos : Field.Position F) : Except Stop (Session F) := do
  if s.hasDisconnectPos then
    myAssert (le (s.pos.dist pos) (kBotSpeed * ofInt Field.ALLOW_DELAY_FRAME)) positionLost
  return { s with characterId, pos, sessionState := .authed, hasDisconnectPos := true }

def handleMonsterMoveStop (monsterID : ℤ) (pos : Field.Position F) : Session F :=
  match s.state with
  | .idle | .chase | .attack => s.chaseTarget monsterID pos
  | _ => s

def handleMonsterDamaged (monsterId hp : ℤ) : Except Stop (Session F) :=
  if monsterId = s.targetID ∧ hp ≤ 0 then do
    let s ← s.monsterChaseInit
    return { s with monsterKillTime := 0 }
  else return s

def handleCharecterDamaged (characterId hp : ℤ) (pos : Field.Position F) (monsterId : ℤ)
    (time : ℕ) : Except Stop (Session F) :=
  if characterId ≠ s.characterId then return s
  else do
    let s ← s.takeDamage hp pos time
    return if s.state = .dead then s else s.chaseTarget monsterId s.pos

def handleItemSpawn (itemUniqueId : ℤ) (pos : Field.Position F) : Session F :=
  if s.targetItemID = -1 then s.chaseItem itemUniqueId pos else s

def handleLootRes : Except Stop (Session F) :=
  { s with log := s.log ++ [Mark.lootRes] }.itemChaseInit

/-- A packet that `packetProc` hands on; see `ClientBot.packetProc`. -/
def handle (time : ℕ) : ServerPacket F → Except Stop (Session F)
  | .auth .fieldAuthFail => .error .rtAssert
  | .auth (.fieldAuthRes characterId pos) => s.handleFieldAuth characterId pos
  | .field (.monsterMoveStop monsterID pos _) => .ok (s.handleMonsterMoveStop monsterID pos)
  | .field (.monsterDamaged monsterID hp _ _) => s.handleMonsterDamaged monsterID hp
  | .field (.characterDamaged characterID hp pos _ monsterID) =>
      s.handleCharecterDamaged characterID hp pos monsterID time
  | .field (.itemSpawn record) => .ok (s.handleItemSpawn record.itemUniqueId record.pos)
  | .field (.lootRes _ _ _) => s.handleLootRes
  | _ => .ok s

end Session

/-! ### Frames, packets and connections -/

/-- What a thread does with one of its sessions, branch by branch of `selectThread` and
`selectLogic`. `connect` is that of `connectSessions` too, which does not wait for a second. -/
inductive Event (F : Type)
  | update (time : ℕ) (rands : Rands)
  | connect
  | connectFailed
  | connected
  | postSend (ret : ℕ)
  | packet (time : ℕ) (p : ServerPacket F)
  | closed (currentTime : ℤ)
  | dead (currentTime : ℤ)

/-- The socket is open. -/
def Session.Up (s : Session F) : Prop := s.sessionState = .connected ∨ s.sessionState = .authed

instance (s : Session F) : Decidable s.Up := inferInstanceAs (Decidable (_ ∨ _))

/-- The branch is taken. -/
def Enabled (s : Session F) : Event F → Prop
  | .update _ _ => s.sessionState = .authed
  | .connect => s.sessionState = .disconnected
  | .connectFailed | .connected => s.sessionState = .reqConnect
  | .postSend ret => s.Up ∧ ret ≤ s.sendSize
  | .packet _ _ | .closed _ => s.Up
  | .dead _ => s.Up ∧ s.state = .dead ∧ 500 ≤ s.deadFrame

instance (s : Session F) : (e : Event F) → Decidable (Enabled s e)
  | .update _ _ | .connect | .connectFailed | .connected => inferInstanceAs (Decidable (_ = _))
  | .postSend _ | .dead _ => inferInstanceAs (Decidable (_ ∧ _))
  | .packet _ _ | .closed _ => inferInstanceAs (Decidable (_ ∨ _))

def step (s : Session F) : Event F → Except Stop (Session F)
  | .update time rands => s.update time rands
  | .connect => do
    let s ← s.init
    return { s with sessionState := .reqConnect }
  | .connectFailed => return { s with sock := false, sessionState := .disconnected }
  | .connected => { s with sessionState := .connected, state := .idle }.postFieldAuthReq
  | .postSend ret => return { s with sendSize := s.sendSize - ret }
  | .packet time p => s.handle time p
  | .closed currentTime => return s.disconnect currentTime
  | .dead currentTime => return s.disconnect currentTime

def bot : System (Session F) (Event F) where
  init s := ∃ accountNo, s = .new accountNo
  next s e := if Enabled s e then (step s e).toOption else none

end

/-! ### What a frame can do -/

/-- What a mark is of. -/
inductive Kind
  | login
  | start
  | stop
  | attack
  | loot
  | ranking
  | hit
  | lootRes
  deriving DecidableEq, Repr

def Mark.kind {F : Type} : Mark F → Kind
  | .sent (.fieldAuthReq _ _) => .login
  | .sent (.moveStart _ _ _ _) => .start
  | .sent (.moveStop _ _ _) => .stop
  | .sent (.playerAttackReq _ _) => .attack
  | .sent (.lootReq _) => .loot
  | .sent .rankingReq => .ranking
  | .hit => .hit
  | .lootRes => .lootRes

section

variable {F : Type}

def Session.kinds (s : Session F) : List Kind := s.log.map Mark.kind

/-- A MOVE_STOP, if it walks. -/
def Session.stopping (s : Session F) : List Kind := if s.bMove then [.stop] else []

/-- `t` is `s` with another state and so on, and `ks` behind its log. -/
structure Shift (s t : Session F) (state : PlayerState) (bMove : Bool) (ks : List Kind)
    (lootRequested : Bool) : Prop where
  sock : t.sock = s.sock
  sessionState : t.sessionState = s.sessionState
  targetItemID : t.targetItemID = s.targetItemID
  state : t.state = state
  bMove : t.bMove = bMove
  kinds : t.kinds = s.kinds ++ ks
  lootRequested : t.lootRequested = lootRequested

/-- A frame. -/
inductive Updated (s t : Session F) : Prop
  | stays (h : Shift s t s.state s.bMove [] s.lootRequested)
  | toRoot (hs : s.state = .idle) (hitem : s.targetItemID ≠ -1)
      (h : Shift s t .root s.bMove [] s.lootRequested)
  | toChase (hs : s.state = .idle) (hitem : s.targetItemID = -1)
      (h : Shift s t .chase s.bMove [] s.lootRequested)
  | setsOut (hs : s.state = .idle) (hitem : s.targetItemID = -1)
      (h : Shift s t .move true [.start] s.lootRequested)
  | stops (hs : s.state = .move) (h : Shift s t .idle false [.stop] s.lootRequested)
  | turns (hs : s.state = .move) (h : Shift s t .move true [.stop, .start] s.lootRequested)
  | attacks (hs : s.state = .chase)
      (h : Shift s t .attack false (s.stopping ++ [.attack]) s.lootRequested)
  | chases (hs : s.state = .chase)
      (h : Shift s t .chase true (s.stopping ++ [.start]) s.lootRequested)
  | recovers (hs : s.state = .attack ∨ s.state = .stun)
      (h : Shift s t .idle s.bMove [] s.lootRequested)
  | givesUp (hs : s.state = .root) (hitem : s.targetItemID = -1)
      (h : Shift s t .idle false s.stopping s.lootRequested)
  | approaches (hs : s.state = .root) (hloot : s.lootRequested = false)
      (h : Shift s t .root true (s.stopping ++ [.start]) s.lootRequested)
  | loots (hs : s.state = .root) (hitem : s.targetItemID ≠ -1) (hloot : s.lootRequested = false)
      (h : Shift s t .root false (s.stopping ++ [.loot]) true)

theorem Shift.refl (s : Session F) : Shift s s s.state s.bMove [] s.lootRequested :=
  ⟨rfl, rfl, rfl, rfl, rfl, (List.append_nil _).symm, rfl⟩

/-- Nothing that counts is different. -/
theorem Shift.of_eq {s t : Session F} (h1 : t.sock = s.sock) (h2 : t.sessionState = s.sessionState)
    (h3 : t.targetItemID = s.targetItemID) (h4 : t.state = s.state)
    (h5 : t.bMove = s.bMove) (h6 : t.log = s.log) (h7 : t.lootRequested = s.lootRequested) :
    Shift s t s.state s.bMove [] s.lootRequested := by
  refine ⟨h1, h2, h3, h4, h5, ?_, h7⟩
  unfold Session.kinds
  rw [h6, List.append_nil]

/-- Only the log is longer. -/
def Sends (s t : Session F) (ks : List Kind) : Prop := Shift s t s.state s.bMove ks s.lootRequested

theorem Shift.comp {s t u : Session F} {state state' : PlayerState}
    {bMove bMove' loot loot' : Bool} {ks ks' : List Kind} (h : Shift s t state bMove ks loot)
    (h' : Shift t u state' bMove' ks' loot') : Shift s u state' bMove' (ks ++ ks') loot' :=
  ⟨h'.sock.trans h.sock, h'.sessionState.trans h.sessionState, h'.targetItemID.trans h.targetItemID,
    h'.state, h'.bMove, by rw [h'.kinds, h.kinds, List.append_assoc], h'.lootRequested⟩

theorem Sends.trans {s t u : Session F} {ks ks' : List Kind} (h : Sends s t ks)
    (h' : Sends t u ks') : Sends s u (ks ++ ks') := by
  have hshift := h.comp h'
  rw [h.state, h.bMove, h.lootRequested] at hshift
  exact hshift

variable [Machine F] [FloatBytes F] {s t : Session F}

open Outcome

omit [Machine F] in
theorem sends_enqueueSend {r : Request F} (h : s.enqueueSend r = .ok t) :
    Sends s t [(Mark.sent r).kind] := by
  unfold Session.enqueueSend at h
  obtain ⟨-, -, h⟩ := bind_ok h
  cases h
  refine ⟨rfl, rfl, rfl, rfl, rfl, ?_, rfl⟩
  unfold Session.kinds
  rw [List.map_append]
  rfl

theorem sends_postMoveStart {dir : ℤ} (h : s.postMoveStart dir = .ok t) : Sends s t [.start] := by
  unfold Session.postMoveStart at h
  obtain ⟨s1, h1, h⟩ := bind_ok h
  cases h
  exact (sends_enqueueSend h1).trans (.of_eq rfl rfl rfl rfl rfl rfl rfl)

omit [Machine F] in
theorem sends_postMoveStop (h : s.postMoveStop = .ok t) : Sends s t [.stop] := by
  unfold Session.postMoveStop at h
  obtain ⟨s1, h1, h⟩ := bind_ok h
  cases h
  exact (sends_enqueueSend h1).trans (.of_eq rfl rfl rfl rfl rfl rfl rfl)

omit [Machine F] [FloatBytes F] in
theorem shift_changeState {mode : PlayerState} (h : s.changeState mode = .ok t) :
    Shift s t mode s.bMove [] s.lootRequested := by
  unfold Session.changeState at h
  split at h
  · cases h
  · cases h
    exact ⟨rfl, rfl, rfl, rfl, rfl, (List.append_nil _).symm, rfl⟩

omit [Machine F] [FloatBytes F] in
theorem shift_traceMove (s : Session F) (on : Bool) :
    Shift s (s.traceMove on) s.state on [] s.lootRequested :=
  ⟨rfl, rfl, rfl, rfl, rfl, (List.append_nil _).symm, rfl⟩

omit [Machine F] in
/-- It does not walk any more. -/
theorem shift_stopMove (h : s.stopMove = .ok t) :
    Shift s t s.state false s.stopping s.lootRequested := by
  unfold Session.stopMove at h
  unfold Session.stopping
  by_cases hmove : s.bMove = true
  · rw [if_pos hmove] at h
    obtain ⟨s1, h1, h⟩ := bind_ok h
    cases h
    have hstop := sends_postMoveStop h1
    have hshift := hstop.comp (shift_traceMove s1 false)
    rw [hstop.state, hstop.lootRequested] at hshift
    rw [if_pos hmove]
    exact hshift
  · rw [if_neg hmove] at h
    cases h
    have hrefl := Shift.refl s
    rw [Bool.not_eq_true] at hmove
    rw [hmove] at hrefl ⊢
    exact hrefl

/-- MOVE_START, and it walks. -/
theorem shift_setOut {dir : ℤ} {s1 : Session F} (h : s.postMoveStart dir = .ok s1) :
    Shift s (s1.traceMove true) s.state true [.start] s.lootRequested := by
  have hstart := sends_postMoveStart h
  have hshift := hstart.comp (shift_traceMove s1 true)
  rw [hstart.state, hstart.lootRequested] at hshift
  exact hshift

omit [Machine F] [FloatBytes F] in
/-- What `idleUpdate` does about the target. -/
theorem sends_forget (time : ℕ) : Sends s
    (if s.monsterKillTime ≠ 0 ∧ (s.monsterKillTime + 10000) % 2 ^ 32 ≤ time then { s with
      targetID := -1, monsterKillTime := 0 }
    else s) [] := by
  split_ifs
  · exact .of_eq rfl rfl rfl rfl rfl rfl rfl
  · exact .refl s

theorem updated_idleUpdate {time : ℕ} {rands : Rands} (hs : s.state = .idle)
    (h : s.idleUpdate time rands = .ok t) : Updated s t := by
  unfold Session.idleUpdate at h
  have hforget := sends_forget (s := s) time
  revert h hforget
  generalize (if s.monsterKillTime ≠ 0 ∧ (s.monsterKillTime + 10000) % 2 ^ 32 ≤ time then
    { s with targetID := -1, monsterKillTime := 0 } else s) = s0
  intro h hforget
  dsimp only at h
  split at h
  · next hitem =>
    have hroot := hforget.comp (shift_changeState h)
    rw [hforget.bMove, hforget.lootRequested] at hroot
    exact .toRoot hs (hforget.targetItemID ▸ hitem) hroot
  · next hitem =>
    have hitem' : s.targetItemID = -1 := hforget.targetItemID ▸ not_not.mp hitem
    split at h
    · have hchase := hforget.comp (shift_changeState h)
      rw [hforget.bMove, hforget.lootRequested] at hchase
      exact .toChase hs hitem' hchase
    · split at h
      · obtain ⟨s1, h1, h⟩ := bind_ok h
        obtain ⟨s2, h2, h⟩ := bind_ok h
        cases h
        have hstart := hforget.trans (sends_postMoveStart h1)
        have hmove := hstart.comp (shift_changeState h2)
        have hwalk := hmove.comp (shift_traceMove s2 true)
        rw [hmove.state, hmove.lootRequested, hstart.lootRequested] at hwalk
        exact .setsOut hs hitem' hwalk
      · cases h
        exact .stays hforget

theorem updated_moveUpdate {rands : Rands} (hs : s.state = .move) (h : s.moveUpdate rands = .ok t) :
    Updated s t := by
  unfold Session.moveUpdate at h
  dsimp only at h
  split at h
  · obtain ⟨s1, h1, h⟩ := bind_ok h
    obtain ⟨s2, h2, h⟩ := bind_ok h
    cases h
    have hstop := sends_postMoveStop h1
    have hidle := hstop.comp (shift_changeState h2)
    have hstill := hidle.comp (shift_traceMove s2 false)
    rw [hidle.state, hidle.lootRequested, hstop.lootRequested] at hstill
    exact .stops hs hstill
  · split at h
    · obtain ⟨s1, h1, h⟩ := bind_ok h
      obtain ⟨s2, h2, h⟩ := bind_ok h
      cases h
      have hstop := sends_postMoveStop h1
      have hstill := hstop.comp (shift_traceMove s1 false)
      have hwalk := hstill.comp (shift_setOut h2)
      rw [hstill.state, hstill.lootRequested, hstop.state, hstop.lootRequested, hs] at hwalk
      exact .turns hs hwalk
    · cases h
      exact .stays (.refl s)

theorem updated_chaseUpdate {time : ℕ} (hs : s.state = .chase) (h : s.chaseUpdate time = .ok t) :
    Updated s t := by
  unfold Session.chaseUpdate at h
  dsimp only at h
  split at h
  · obtain ⟨s1, h1, h⟩ := bind_ok h
    obtain ⟨s2, h2, h⟩ := bind_ok h
    have hstop := shift_stopMove h1
    have hask := sends_enqueueSend h2
    have haim : Sends s1 (s1.takeAim (Field.getDirectionTo s.pos s.targetPos) time) [] :=
      .of_eq rfl rfl rfl rfl rfl rfl rfl
    have hasked := haim.trans hask
    have hattack := hstop.comp (hasked.comp (shift_changeState h))
    rw [hasked.bMove, hasked.lootRequested, hstop.bMove, hstop.lootRequested] at hattack
    exact .attacks hs hattack
  · split at h
    · obtain ⟨s1, h1, h⟩ := bind_ok h
      obtain ⟨s2, h2, h⟩ := bind_ok h
      cases h
      have hframe : Sends s { s with animFrame := 0 } [] := .of_eq rfl rfl rfl rfl rfl rfl rfl
      have hstop := hframe.comp (shift_stopMove h1)
      have hwalk := hstop.comp (shift_setOut h2)
      rw [hstop.state, hstop.lootRequested] at hwalk
      dsimp only at hwalk
      rw [hs] at hwalk
      exact .chases hs hwalk
    · cases h
      exact .stays (.refl s)

theorem updated_rootUpdate (hs : s.state = .root) (h : s.rootUpdate = .ok t) : Updated s t := by
  unfold Session.rootUpdate at h
  dsimp only at h
  split at h
  · next hitem =>
    obtain ⟨s1, h1, h⟩ := bind_ok h
    have hstop := shift_stopMove h1
    have hidle := hstop.comp (shift_changeState h)
    rw [hstop.bMove, hstop.lootRequested, List.append_nil] at hidle
    exact .givesUp hs hitem hidle
  · next hitem =>
    split at h
    · cases h
      exact .stays (.refl s)
    · next hloot =>
      rw [Bool.not_eq_true] at hloot
      split at h
      · split at h
        · obtain ⟨s1, h1, h⟩ := bind_ok h
          obtain ⟨s2, h2, h⟩ := bind_ok h
          cases h
          have hstop := shift_stopMove h1
          have hwalk := hstop.comp (shift_setOut h2)
          rw [hstop.state, hstop.lootRequested, hs] at hwalk
          exact .approaches hs hloot hwalk
        · cases h
          exact .stays (.refl s)
      · obtain ⟨s1, h1, h⟩ := bind_ok h
        obtain ⟨s2, h2, h⟩ := bind_ok h
        cases h
        have hstop := shift_stopMove h1
        have hask := hstop.comp (sends_enqueueSend h2)
        refine .loots hs hitem hloot ⟨hask.sock, hask.sessionState, hask.targetItemID, ?_, ?_,
          hask.kinds, rfl⟩
        · exact hask.state.trans (hstop.state.trans hs)
        · exact hask.bMove.trans hstop.bMove

omit [Machine F] [FloatBytes F] in
theorem Shift.around {s0 t0 : Session F} {state : PlayerState} {bMove loot : Bool} {ks : List Kind}
    (h0 : Sends s s0 []) (h : Shift s0 t0 state bMove ks loot) (h1 : Sends t0 t []) :
    Shift s t state bMove ks loot := by
  have hshift := (h0.comp h).comp h1
  rw [h.state, h.bMove, h.lootRequested, List.append_nil] at hshift
  exact hshift

omit [Machine F] [FloatBytes F] in
/-- A frame between changes that do not count. -/
theorem Updated.around {s0 t0 : Session F} (h0 : Sends s s0 []) (h : Updated s0 t0)
    (h1 : Sends t0 t []) : Updated s t := by
  have hstate := h0.state
  have hmove := h0.bMove
  have hloot := h0.lootRequested
  have hitem := h0.targetItemID
  have hstop : s0.stopping = s.stopping := by
    unfold Session.stopping
    rw [hmove]
  rcases h with h | ⟨hs, hi, h⟩ | ⟨hs, hi, h⟩ | ⟨hs, hi, h⟩ | ⟨hs, h⟩ | ⟨hs, h⟩ | ⟨hs, h⟩ |
      ⟨hs, h⟩ | ⟨hs, h⟩ | ⟨hs, hi, h⟩ | ⟨hs, hl, h⟩ | ⟨hs, hi, hl, h⟩
  all_goals
    have hall := h.around h0 h1
    rw [hstate] at *
    simp only [hmove, hloot, hitem, hstop] at *
  · exact .stays hall
  · exact .toRoot hs hi hall
  · exact .toChase hs hi hall
  · exact .setsOut hs hi hall
  · exact .stops hs hall
  · exact .turns hs hall
  · exact .attacks hs hall
  · exact .chases hs hall
  · exact .recovers hs hall
  · exact .givesUp hs hi hall
  · exact .approaches hs hl hall
  · exact .loots hs hi hl hall

omit [FloatBytes F] in
theorem sends_walk (s : Session F) : Sends s s.walk [] := by
  unfold Session.walk
  split_ifs
  · exact .of_eq rfl rfl rfl rfl rfl rfl rfl
  · exact .refl s

theorem updated_stateUpdate {time : ℕ} {rands : Rands} (h : s.stateUpdate time rands = .ok t) :
    Updated s t := by
  unfold Session.stateUpdate at h
  split at h
  · next hs => exact updated_idleUpdate hs h
  · next hs => exact updated_moveUpdate hs h
  · next hs => exact updated_chaseUpdate hs h
  · next hs =>
    unfold Session.attackUpdate at h
    split at h
    · exact .recovers (.inl hs) (shift_changeState h)
    · cases h
      exact .stays (.refl s)
  · next hs =>
    unfold Session.stunUpdate at h
    split at h
    · exact .recovers (.inr hs) (shift_changeState h)
    · cases h
      exact .stays (.refl s)
  · next hs => exact updated_rootUpdate hs h
  · cases h
    exact .stays (.of_eq rfl rfl rfl rfl rfl rfl rfl)

/-- What a frame can do. -/
theorem updated_update {time : ℕ} {rands : Rands} (h : s.update time rands = .ok t) :
    Updated s t := by
  unfold Session.update at h
  obtain ⟨s1, h1, h⟩ := bind_ok h
  cases h
  exact (updated_stateUpdate h1).around (sends_walk s) (.of_eq rfl rfl rfl rfl rfl rfl rfl)

theorem bot_next {e : Event F} (h : bot.next s e = some t) : Enabled s e ∧ step s e = .ok t := by
  have hif : (if Enabled s e then (step s e).toOption else none) = some t := h
  split_ifs at hif with henabled
  exact ⟨henabled, toOption_ok hif⟩

/-! ### What a packet can do -/

/-- A packet. -/
inductive Handled (p : ServerPacket F) (s t : Session F) : Prop
  | stays (hp : ∀ packet, p ≠ .auth packet) (h : Sends s t [])
  | authed (hp : ∃ characterId pos, p = .auth (.fieldAuthRes characterId pos))
      (h : t.sock = s.sock ∧ t.sessionState = .authed ∧ t.targetItemID = s.targetItemID ∧
        t.state = s.state ∧ t.bMove = s.bMove ∧ t.kinds = s.kinds ∧
        t.lootRequested = s.lootRequested)
  | dies (hp : ∀ packet, p ≠ .auth packet) (hs : s.state ≠ .dead)
      (h : Shift s t .dead false [.hit] s.lootRequested)
  | stunned (hp : ∀ packet, p ≠ .auth packet) (hs : s.state ≠ .dead)
      (h : Shift s t .stun false [.hit] s.lootRequested)
  | sees (hp : ∀ packet, p ≠ .auth packet) (hitem : s.targetItemID = -1)
      (h : t.sock = s.sock ∧ t.sessionState = s.sessionState ∧ t.state = s.state ∧
        t.bMove = s.bMove ∧ t.kinds = s.kinds ∧ t.lootRequested = false)
  | looted (hp : ∃ result itemId count, p = .field (.lootRes result itemId count))
      (hitem : s.targetItemID ≠ -1)
      (h : t.sock = s.sock ∧ t.sessionState = s.sessionState ∧ t.targetItemID = -1 ∧
        t.state = s.state ∧ t.bMove = s.bMove ∧ t.kinds = s.kinds ++ [.lootRes] ∧
        t.lootRequested = s.lootRequested)

omit [Machine F] [FloatBytes F] in
theorem sends_chaseTarget (s : Session F) (targetID : ℤ) (targetPos : Field.Position F) :
    Sends s (s.chaseTarget targetID targetPos) [] := by
  unfold Session.chaseTarget
  split_ifs
  · exact .of_eq rfl rfl rfl rfl rfl rfl rfl
  · exact .of_eq rfl rfl rfl rfl rfl rfl rfl
  · exact .refl s

omit [Machine F] [FloatBytes F] in
theorem shift_struck (s : Session F) (pos : Field.Position F) (time : ℕ) :
    Shift s (s.struck pos time) s.state false [.hit] s.lootRequested := by
  refine ⟨rfl, rfl, rfl, rfl, rfl, ?_, rfl⟩
  unfold Session.kinds Session.struck
  rw [List.map_append]
  rfl

omit [Machine F] [FloatBytes F] in
theorem handled_takeDamage {hp : ℤ} {pos : Field.Position F} {time : ℕ}
    (h : s.takeDamage hp pos time = .ok t) :
    Sends s t [] ∨ s.state ≠ .dead ∧ (Shift s t .dead false [.hit] s.lootRequested ∨
      Shift s t .stun false [.hit] s.lootRequested) := by
  unfold Session.takeDamage at h
  split at h
  · cases h
    exact .inl (.refl s)
  · next hs =>
    refine .inr ⟨hs, ?_⟩
    have hhit := shift_struck s pos time
    dsimp only at h
    split at h
    · exact .inl (hhit.comp (shift_changeState h))
    · split at h
      · next hstun =>
        cases h
        have hstun' : s.state = .stun := hstun
        rw [hstun'] at hhit
        have hagain : Sends (s.struck pos time) (s.struck pos time).resetAnimStart [] :=
          .of_eq rfl rfl rfl rfl rfl rfl rfl
        have hshift := hhit.comp hagain
        rw [hhit.state] at hshift
        exact .inr hshift
      · exact .inr (hhit.comp (shift_changeState h))

omit [FloatBytes F] in
theorem handled_handle {time : ℕ} {p : ServerPacket F} (h : s.handle time p = .ok t) :
    Handled p s t := by
  unfold Session.handle at h
  split at h
  · cases h
  · unfold Session.handleFieldAuth at h
    split at h
    · obtain ⟨_, -, h⟩ := bind_ok h
      cases h
      exact .authed ⟨_, _, rfl⟩ ⟨rfl, rfl, rfl, rfl, rfl, rfl, rfl⟩
    · cases h
      exact .authed ⟨_, _, rfl⟩ ⟨rfl, rfl, rfl, rfl, rfl, rfl, rfl⟩
  · cases h
    unfold Session.handleMonsterMoveStop
    split
    iterate 3 exact .stays (by simp) (sends_chaseTarget _ _ _)
    exact .stays (by simp) (.refl s)
  · unfold Session.handleMonsterDamaged at h
    split at h
    · obtain ⟨s1, h1, h⟩ := bind_ok h
      cases h
      unfold Session.monsterChaseInit at h1
      obtain ⟨-, -, h1⟩ := bind_ok h1
      cases h1
      exact .stays (by simp) (.of_eq rfl rfl rfl rfl rfl rfl rfl)
    · cases h
      exact .stays (by simp) (.refl s)
  · unfold Session.handleCharecterDamaged at h
    split at h
    · cases h
      exact .stays (by simp) (.refl s)
    · obtain ⟨s1, h1, h⟩ := bind_ok h
      have htarget : Sends s1 t [] := by
        cases h
        split_ifs
        · exact .refl s1
        · exact sends_chaseTarget _ _ _
      rcases handled_takeDamage h1 with hnone | ⟨hs, hdies | hstunned⟩
      · exact .stays (by simp) (hnone.trans htarget)
      · have hshift := hdies.comp htarget
        rw [hdies.state, hdies.bMove, hdies.lootRequested] at hshift
        exact .dies (by simp) hs hshift
      · have hshift := hstunned.comp htarget
        rw [hstunned.state, hstunned.bMove, hstunned.lootRequested] at hshift
        exact .stunned (by simp) hs hshift
  · cases h
    unfold Session.handleItemSpawn
    split_ifs with hnone
    · exact .sees (by simp) hnone ⟨rfl, rfl, rfl, rfl, rfl, rfl⟩
    · exact .stays (by simp) (.refl s)
  · unfold Session.handleLootRes Session.itemChaseInit at h
    obtain ⟨_, hassert, h⟩ := bind_ok h
    cases h
    refine .looted ⟨_, _, _, rfl⟩ (of_decide_eq_true (myAssert_ok hassert)) ⟨rfl, rfl, rfl, rfl,
      rfl, ?_, rfl⟩
    unfold Session.kinds
    rw [List.map_append]
    rfl
  · next hfail hres _ _ _ _ _ =>
    cases h
    refine .stays ?_ (.refl s)
    rintro packet rfl
    cases packet with
    | fieldAuthRes characterId pos => exact hres characterId pos rfl
    | fieldAuthFail => exact hfail rfl

/-! ### Moves alternate -/

/-- One that alternates walks or not after these marks; none is one that does not. -/
def walks (walking : Option Bool) : Kind → Option Bool
  | .start => if walking = some false then some true else none
  | .stop => if walking = some true then some false else none
  | .hit => walking.map fun _ => false
  | _ => walking

/-- A session whose moves alternate: `mBMove` is what they have come to. -/
structure InStep (s : Session F) : Prop where
  still : s.state = .idle ∨ s.state = .attack ∨ s.state = .stun ∨ s.state = .dead → s.bMove = false
  move : s.state = .move → s.bMove = true
  apart : s.sessionState = .disconnected ∨ s.sessionState = .reqConnect → s.bMove = false
  log : s.kinds.foldl walks (some false) = some s.bMove

/-- The connection of one that walks does not end. -/
def EndsStill (s : Session F) : Event F → Prop
  | .closed _ => s.bMove = false
  | _ => True

/-- A state in which it does not walk. -/
def Still (state : PlayerState) : Prop :=
  state = .idle ∨ state = .attack ∨ state = .stun ∨ state = .dead

omit [Machine F] [FloatBytes F] in
theorem InStep.shift {state : PlayerState} {bMove loot : Bool} {ks : List Kind} (h : InStep s)
    (hshift : Shift s t state bMove ks loot) (hlog : ks.foldl walks (some s.bMove) = some bMove)
    (hstill : Still state → bMove = false) (hmove : state = .move → bMove = true)
    (hapart : s.sessionState = .disconnected ∨ s.sessionState = .reqConnect → bMove = false) :
    InStep t := by
  refine ⟨?_, ?_, ?_, ?_⟩
  · rw [hshift.state, hshift.bMove]
    exact hstill
  · rw [hshift.state, hshift.bMove]
    exact hmove
  · rw [hshift.sessionState, hshift.bMove]
    exact hapart
  · rw [hshift.kinds, List.foldl_append, h.log, hlog, hshift.bMove]

omit [Machine F] [FloatBytes F] in
theorem InStep.sends {ks : List Kind} (h : InStep s) (hsends : Sends s t ks)
    (hlog : ks.foldl walks (some s.bMove) = some s.bMove) :
    InStep t :=
  h.shift hsends hlog h.still h.move h.apart

omit [Machine F] [FloatBytes F] in
theorem foldl_stopping (s : Session F) : s.stopping.foldl walks (some s.bMove) = some false := by
  unfold Session.stopping
  cases s.bMove <;> rfl

omit [Machine F] [FloatBytes F] in
theorem InStep.updated (h : InStep s) (hauthed : s.sessionState = .authed) (hu : Updated s t) :
    InStep t := by
  have hapart : ∀ {b : Bool}, s.sessionState = .disconnected ∨ s.sessionState = .reqConnect →
      b = false := by
    intro b hap
    rw [hauthed] at hap
    rcases hap with hap | hap <;> cases hap
  have hstopping := foldl_stopping s
  rcases hu with hu | ⟨hs, -, hu⟩ | ⟨hs, -, hu⟩ | ⟨hs, -, hu⟩ | ⟨hs, hu⟩ | ⟨hs, hu⟩ | ⟨hs, hu⟩ |
      ⟨hs, hu⟩ | ⟨hs, hu⟩ | ⟨hs, -, hu⟩ | ⟨hs, -, hu⟩ | ⟨hs, -, -, hu⟩
  · exact h.sends hu rfl
  · exact h.shift hu rfl (by simp [Still]) (by simp) hapart
  · exact h.shift hu rfl (by simp [Still]) (by simp) hapart
  · have hno := h.still (.inl hs)
    exact h.shift hu (by rw [hno]; rfl) (by simp [Still]) (fun _ => rfl) hapart
  · have hyes := h.move hs
    exact h.shift hu (by rw [hyes]; rfl) (fun _ => rfl) (by simp) hapart
  · have hyes := h.move hs
    exact h.shift hu (by rw [hyes]; rfl) (by simp [Still]) (fun _ => rfl) hapart
  · exact h.shift hu (by rw [List.foldl_append, hstopping]; rfl) (fun _ => rfl) (by simp) hapart
  · exact h.shift hu (by rw [List.foldl_append, hstopping]; rfl) (by simp [Still]) (by simp) hapart
  · have hno := h.still (by rcases hs with hs | hs <;> simp [hs])
    exact h.shift hu rfl (fun _ => hno) (by simp) hapart
  · exact h.shift hu hstopping (fun _ => rfl) (by simp) hapart
  · exact h.shift hu (by rw [List.foldl_append, hstopping]; rfl) (by simp [Still]) (by simp) hapart
  · exact h.shift hu (by rw [List.foldl_append, hstopping]; rfl) (by simp [Still]) (by simp) hapart

omit [Machine F] [FloatBytes F] in
theorem InStep.handled {p : ServerPacket F} (h : InStep s) (hh : Handled p s t) : InStep t := by
  have hhit : [Kind.hit].foldl walks (some s.bMove) = some false := rfl
  rcases hh with ⟨-, hh⟩ | ⟨-, -, h2, -, h4, h5, h6, -⟩ | ⟨-, -, hh⟩ | ⟨-, -, hh⟩ |
      ⟨-, -, -, h2, h3, h4, h5, -⟩ | ⟨-, -, -, h2, -, h4, h5, h6, -⟩
  · exact h.sends hh rfl
  · refine ⟨?_, ?_, ?_, ?_⟩
    · rw [h4, h5]
      exact h.still
    · rw [h4, h5]
      exact h.move
    · rw [h2]
      simp
    · rw [h5, h6]
      exact h.log
  · exact h.shift hh hhit (fun _ => rfl) (by simp) fun _ => rfl
  · exact h.shift hh hhit (fun _ => rfl) (by simp) fun _ => rfl
  · refine ⟨?_, ?_, ?_, ?_⟩
    · rw [h3, h4]
      exact h.still
    · rw [h3, h4]
      exact h.move
    · rw [h2, h4]
      exact h.apart
    · rw [h4, h5]
      exact h.log
  · refine ⟨?_, ?_, ?_, ?_⟩
    · rw [h4, h5]
      exact h.still
    · rw [h4, h5]
      exact h.move
    · rw [h2, h5]
      exact h.apart
    · rw [h5, h6, List.foldl_append, h.log]
      rfl

theorem InStep.step {e : Event F} (h : InStep s) (henabled : Enabled s e) (hends : EndsStill s e)
    (he : step s e = .ok t) :
    InStep t := by
  cases e with
  | update time rands => exact h.updated henabled (updated_update he)
  | connect =>
    have hno := h.apart (.inl henabled)
    obtain ⟨s1, h1, he⟩ := bind_ok he
    cases he
    unfold Session.init at h1
    obtain ⟨-, -, h1⟩ := bind_ok h1
    cases h1
    exact ⟨h.still, h.move, fun _ => hno, by rw [hno]; rfl⟩
  | connectFailed =>
    cases he
    exact ⟨h.still, h.move, fun _ => h.apart (.inr henabled), h.log⟩
  | connected =>
    have hno := h.apart (.inr henabled)
    have hsent := sends_enqueueSend he
    refine ⟨fun _ => hsent.bMove.trans hno, ?_, ?_, ?_⟩
    · intro hstate
      rw [hsent.state] at hstate
      cases hstate
    · intro _
      exact hsent.bMove.trans hno
    · rw [hsent.kinds, List.foldl_append, hsent.bMove]
      show [_].foldl walks (s.kinds.foldl walks (some false)) = _
      rw [h.log]
      rfl
  | postSend ret =>
    cases he
    exact ⟨h.still, h.move, h.apart, h.log⟩
  | packet time p => exact h.handled (handled_handle he)
  | closed currentTime =>
    cases he
    exact ⟨h.still, h.move, fun _ => hends, h.log⟩
  | dead currentTime =>
    cases he
    exact ⟨h.still, h.move, fun _ => h.still (.inr (.inr (.inr henabled.2.1))), h.log⟩

/-- As long as no connection ends while the bot walks, a MOVE_START is what it sends when it stands,
and a MOVE_STOP when it walks; hits stop it too. -/
theorem moves_alternate (h : ((bot (F := F)).restrict EndsStill).Reachable s) :
    s.kinds.foldl walks (some false) = some s.bMove ∧ (s.state = .move → s.bMove = true) ∧
      (Still s.state → s.bMove = false) := by
  have hinv : InStep s := by
    refine (System.restrict_invariant (P := InStep) ?_ ?_).reachable h
    · rintro s ⟨accountNo, rfl⟩
      exact ⟨fun _ => rfl, by simp [Session.new], fun _ => rfl, rfl⟩
    · intro s t e hi hends he
      obtain ⟨henabled, hstep⟩ := bot_next he
      exact hi.step henabled hends hstep
  exact ⟨hinv.log, hinv.move, hinv.still⟩

end

def endsStill (s : Session ℚ) : Event ℚ → Bool
  | .closed _ => !s.bMove
  | _ => true

theorem endsStill_sound {s : Session ℚ} {e : Event ℚ} (h : endsStill s e = true) :
    EndsStill s e := by
  cases e with
  | closed currentTime => simpa [endsStill, EndsStill] using h
  | _ => trivial

def enteredRun (pos : Field.Position ℚ) : List (Event ℚ) :=
  [.connect, .connected, .packet 0 (.auth (.fieldAuthRes 7 pos))]

/-- Bot 1 sets out and stops. -/
theorem moves_alternate_strolls : ∃ s : Session ℚ, s.kinds = [.login, .start, .stop] ∧
    s.kinds.foldl walks (some false) = some s.bMove := by
  have hrun : (bot.execIf endsStill (Session.new (F := ℚ) 1) (enteredRun ⟨0, 0⟩ ++
      [.update 0 fun _ => 0, .update 0 fun _ => 0])).any
        (fun s => s.kinds = [.login, .start, .stop]) = true := by
    decide +kernel
  obtain ⟨s, hs, hp⟩ := Option.any_eq_true _ _ |>.mp hrun
  exact ⟨s, of_decide_eq_true hp,
    (moves_alternate (System.Reachable.execIf (fun _ _ => endsStill_sound) _
      (.start ⟨1, rfl⟩) hs)).1⟩

/-- The connection of bot 1 ends while it walks; on the next one it stops what it has not started.
-/
example : (bot.exec (Session.new (F := ℚ) 1) (enteredRun ⟨0, 0⟩ ++ [.update 0 fun _ => 0, .closed 0]
      ++ enteredRun ⟨0, 0⟩ ++ [.packet 0 (.field (.monsterMoveStop 5 ⟨0, 0⟩ 0)), .update 0 fun _ =>
      0, .update 0 fun _ => 0])).any (fun s => s.kinds = [.login, .stop, .attack]) = true := by
  decide +kernel

section

variable {F : Type} [Machine F] [FloatBytes F] {s t : Session F}

open Outcome

/-! ### Loot -/

/-- How many LOOT_REQs have not been answered. -/
def awaiting (ks : List Kind) : ℤ := ks.count .loot - ks.count .lootRes

omit [Machine F] [FloatBytes F] in
theorem awaiting_append (ks ks' : List Kind) :
    awaiting (ks ++ ks') = awaiting ks + awaiting ks' := by
  unfold awaiting
  rw [List.count_append, List.count_append]
  push_cast
  ring

omit [Machine F] [FloatBytes F] in
theorem awaiting_stopping (s : Session F) : awaiting s.stopping = 0 := by
  unfold Session.stopping
  cases s.bMove <;> rfl

/-- What a server sends: FIELD_AUTH_RES once and before all else, and no LOOT_RES that has not been
asked for; no monster has the number of no target. -/
def Answers (s : Session F) : Event F → Prop
  | .packet _ (.auth .fieldAuthFail) => False
  | .packet _ (.auth (.fieldAuthRes _ _)) => s.sessionState = .connected
  | .packet _ (.field (.lootRes _ _ _)) => s.sessionState = .authed ∧ 0 < awaiting s.kinds
  | .packet _ (.field (.monsterDamaged monsterID _ _ _)) =>
      s.sessionState = .authed ∧ monsterID ≠ -1
  | .packet _ (.field _) => s.sessionState = .authed
  | _ => True

/-- It takes its loot for requested. -/
structure Waits (s : Session F) : Prop where
  item : s.targetItemID ≠ -1
  loot : s.lootRequested = true
  settled : s.state = .idle ∨ s.state = .stun ∨ s.state = .root ∨ s.state = .dead

/-- What a session of such a server is like. -/
structure Sound (s : Session F) : Prop where
  sock : s.sock = true ↔ s.sessionState ≠ .disconnected
  awaiting : awaiting s.kinds = 0 ∨ awaiting s.kinds = 1 ∧ Waits s
  fresh : s.sessionState = .reqConnect → s.sendSize = 0
  waits : s.sessionState = .connected → s.state = .idle

omit [Machine F] [FloatBytes F] in
theorem Waits.shift {state : PlayerState} {bMove : Bool} {ks : List Kind} (h : Waits s)
    (hshift : Shift s t state bMove ks s.lootRequested)
    (hstate : state = .idle ∨ state = .stun ∨ state = .root ∨ state = .dead) : Waits t := by
  refine ⟨?_, ?_, ?_⟩
  · rw [hshift.targetItemID]
    exact h.item
  · rw [hshift.lootRequested]
    exact h.loot
  · rw [hshift.state]
    exact hstate

omit [Machine F] [FloatBytes F] in
/-- A frame of one that waits sends nothing. -/
theorem Waits.updated (h : Waits s) (hu : Updated s t) : Waits t ∧ t.kinds = s.kinds := by
  have hitem := h.item
  have hloot := h.loot
  have hsettled := h.settled
  have hstays : ∀ {state bMove}, Shift s t state bMove [] s.lootRequested → t.kinds = s.kinds := by
    intro state bMove hshift
    rw [hshift.kinds, List.append_nil]
  rcases hu with hu | ⟨-, -, hu⟩ | ⟨-, hno, -⟩ | ⟨-, hno, -⟩ | ⟨hs, -⟩ | ⟨hs, -⟩ | ⟨hs, -⟩ |
      ⟨hs, -⟩ | ⟨-, hu⟩ | ⟨-, hno, -⟩ | ⟨-, hno, -⟩ | ⟨-, -, hno, -⟩
  · exact ⟨h.shift hu hsettled, hstays hu⟩
  · exact ⟨h.shift hu (by simp), hstays hu⟩
  iterate 2 exact absurd hno hitem
  iterate 4
    rw [hs] at hsettled
    simp at hsettled
  · exact ⟨h.shift hu (by simp), hstays hu⟩
  · exact absurd hno hitem
  iterate 2
    rw [hloot] at hno
    cases hno

omit [Machine F] [FloatBytes F] in
/-- A packet that is no LOOT_RES. -/
theorem Waits.handled {p : ServerPacket F} (h : Waits s) (hh : Handled p s t)
    (hp : ∀ result itemId count, p ≠ .field (.lootRes result itemId count)) :
    Waits t ∧ (t.kinds = s.kinds ∨ t.kinds = s.kinds ++ [.hit]) := by
  rcases hh with ⟨-, hh⟩ | ⟨-, -, -, hitem, hstate, -, hkinds, hloot⟩ | ⟨-, -, hh⟩ | ⟨-, -, hh⟩ |
      ⟨-, hno, -⟩ | ⟨⟨result, itemId, count, hres⟩, -, -⟩
  · refine ⟨h.shift hh h.settled, .inl ?_⟩
    rw [hh.kinds, List.append_nil]
  · refine ⟨⟨?_, ?_, ?_⟩, .inl hkinds⟩
    · rw [hitem]
      exact h.item
    · rw [hloot]
      exact h.loot
    · rw [hstate]
      exact h.settled
  · exact ⟨h.shift hh (by simp), .inr hh.kinds⟩
  · exact ⟨h.shift hh (by simp), .inr hh.kinds⟩
  · exact absurd hno h.item
  · exact absurd hres (hp result itemId count)

omit [Machine F] [FloatBytes F] in
theorem Sound.of_authed (h : Sound s) (hauthed : t.sessionState = .authed) (hsock : t.sock = s.sock)
    (hwas : s.sessionState ≠ .disconnected)
    (hawaiting : Bot.awaiting t.kinds = 0 ∨ Bot.awaiting t.kinds = 1 ∧ Waits t) :
    Sound t := by
  refine ⟨?_, hawaiting, ?_, ?_⟩
  · rw [hsock, hauthed, h.sock]
    simp [hwas]
  · rw [hauthed]
    simp
  · rw [hauthed]
    simp

omit [Machine F] [FloatBytes F] in
theorem Shift.awaiting {state : PlayerState} {bMove loot : Bool}
    {ks : List Kind} (h : Shift s t state bMove ks loot) (hks : Bot.awaiting ks = 0) :
    Bot.awaiting t.kinds = Bot.awaiting s.kinds := by
  rw [h.kinds, awaiting_append, hks, add_zero]

omit [Machine F] [FloatBytes F] in
theorem Updated.outer (hu : Updated s t) : t.sock = s.sock ∧ t.sessionState = s.sessionState := by
  rcases hu with hu | ⟨-, -, hu⟩ | ⟨-, -, hu⟩ | ⟨-, -, hu⟩ | ⟨-, hu⟩ | ⟨-, hu⟩ | ⟨-, hu⟩ | ⟨-, hu⟩ |
      ⟨-, hu⟩ | ⟨-, -, hu⟩ | ⟨-, -, hu⟩ | ⟨-, -, -, hu⟩
  all_goals exact ⟨hu.sock, hu.sessionState⟩

omit [Machine F] [FloatBytes F] in
/-- A frame asks for loot once, and then it waits. -/
theorem Updated.awaiting (hu : Updated s t) (hnone : Bot.awaiting s.kinds = 0) :
    Bot.awaiting t.kinds = 0 ∨ Bot.awaiting t.kinds = 1 ∧ Waits t := by
  have hstopping := awaiting_stopping s
  have hzero : ∀ {state bMove ks}, Shift s t state bMove ks s.lootRequested → Bot.awaiting ks = 0 →
      Bot.awaiting t.kinds = 0 ∨ Bot.awaiting t.kinds = 1 ∧ Waits t :=
    fun hshift hks => .inl ((hshift.awaiting hks).trans hnone)
  rcases hu with hu | ⟨-, -, hu⟩ | ⟨-, -, hu⟩ | ⟨-, -, hu⟩ | ⟨-, hu⟩ | ⟨-, hu⟩ | ⟨-, hu⟩ | ⟨-, hu⟩ |
      ⟨-, hu⟩ | ⟨-, -, hu⟩ | ⟨-, -, hu⟩ | ⟨-, hitem, -, hu⟩
  iterate 6 exact hzero hu rfl
  iterate 2 exact hzero hu (by rw [awaiting_append, hstopping]; rfl)
  · exact hzero hu rfl
  · exact hzero hu hstopping
  · exact hzero hu (by rw [awaiting_append, hstopping]; rfl)
  · refine .inr ⟨?_, ⟨?_, hu.lootRequested, ?_⟩⟩
    · rw [hu.kinds, awaiting_append, awaiting_append, hnone, hstopping]
      rfl
    · rw [hu.targetItemID]
      exact hitem
    · rw [hu.state]
      simp

omit [Machine F] [FloatBytes F] in
theorem Sound.updated (h : Sound s) (hauthed : s.sessionState = .authed) (hu : Updated s t) :
    Sound t := by
  obtain ⟨hsock, hstate⟩ := hu.outer
  refine h.of_authed (hstate.trans hauthed) hsock (by simp [hauthed]) ?_
  rcases h.awaiting with hnone | ⟨hone, hwaits⟩
  · exact hu.awaiting hnone
  · obtain ⟨hwaits', hkinds⟩ := hwaits.updated hu
    rw [hkinds]
    exact .inr ⟨hone, hwaits'⟩

omit [Machine F] [FloatBytes F] in
theorem Answers.authed {time : ℕ} {p : ServerPacket F} (h : Answers s (.packet time p))
    (hp : ∀ packet, p ≠ .auth packet) :
    s.sessionState = .authed := by
  cases p with
  | auth packet => exact absurd rfl (hp packet)
  | field packet => cases packet <;> first | exact h | exact h.1

omit [Machine F] [FloatBytes F] in
theorem Sound.handled {time : ℕ} {p : ServerPacket F} (h : Sound s) (hup : s.Up)
    (ha : Answers s (.packet time p)) (hh : Handled p s t) : Sound t := by
  have hwas : s.sessionState ≠ .disconnected := by
    rcases hup with hup | hup <;> simp [hup]
  have hkeeps : ∀ {state : PlayerState} {bMove : Bool} {ks : List Kind},
      Shift s t state bMove ks s.lootRequested →
      Bot.awaiting ks = 0 → s.sessionState = .authed → (Waits s → Waits t) → Sound t := by
    intro state bMove ks hshift hks hauthed hwaits
    refine h.of_authed (hshift.sessionState.trans hauthed) hshift.sock hwas ?_
    rw [hshift.awaiting hks]
    exact h.awaiting.imp_right (And.imp_right hwaits)
  rcases hh with ⟨hp, hh⟩ | ⟨-, hsock, hstate, hitem, hplayer, -, hkinds, hloot⟩ |
      ⟨hp, -, hh⟩ | ⟨hp, -, hh⟩ | ⟨hp, hnone, hsock, hstate, -, -, hkinds, -⟩ |
      ⟨⟨result, itemId, count, rfl⟩, -, hsock, hstate, -, -, -, hkinds, -⟩
  · exact hkeeps hh rfl (ha.authed hp) fun hwaits => hwaits.shift hh hwaits.settled
  · refine h.of_authed hstate hsock hwas ?_
    rw [hkinds]
    refine h.awaiting.imp_right (And.imp_right fun hwaits => ⟨?_, ?_, ?_⟩)
    · rw [hitem]
      exact hwaits.item
    · rw [hloot]
      exact hwaits.loot
    · rw [hplayer]
      exact hwaits.settled
  · exact hkeeps hh rfl (ha.authed hp) fun hwaits => hwaits.shift hh (by simp)
  · exact hkeeps hh rfl (ha.authed hp) fun hwaits => hwaits.shift hh (by simp)
  · refine h.of_authed (hstate.trans (ha.authed hp)) hsock hwas (.inl ?_)
    rw [hkinds]
    rcases h.awaiting with hzero | ⟨-, hwaits⟩
    · exact hzero
    · exact absurd hnone hwaits.item
  · refine h.of_authed (hstate.trans ha.1) hsock hwas (.inl ?_)
    have hpos := ha.2
    rw [hkinds, awaiting_append]
    rcases h.awaiting with hzero | ⟨hone, -⟩
    · omega
    · rw [hone]
      rfl

/-- The login of one that waits. -/
theorem Waits.connected (h : Waits s) (he : step s .connected = .ok t) : Waits t := by
  have hwaits : Waits { s with sessionState := .connected, state := .idle } :=
    ⟨h.item, h.loot, .inl rfl⟩
  have hsent := sends_enqueueSend he
  exact hwaits.shift hsent (.inl rfl)

theorem Sound.step {e : Event F} (h : Sound s) (henabled : Enabled s e) (ha : Answers s e)
    (he : step s e = .ok t) : Sound t := by
  cases e with
  | update time rands => exact h.updated henabled (updated_update he)
  | connect =>
    obtain ⟨s1, h1, he⟩ := bind_ok he
    cases he
    unfold Session.init at h1
    obtain ⟨-, -, h1⟩ := bind_ok h1
    cases h1
    exact ⟨by simp, .inl rfl, fun _ => rfl, by simp⟩
  | connectFailed =>
    cases he
    exact ⟨by simp, h.awaiting.imp_right
      (And.imp_right fun hwaits => ⟨hwaits.item, hwaits.loot, hwaits.settled⟩), by simp, by simp⟩
  | connected =>
    have hup : s.sessionState = .reqConnect := henabled
    have hsent := sends_enqueueSend he
    refine ⟨?_, ?_, ?_, fun _ => hsent.state⟩
    · rw [hsent.sock, hsent.sessionState]
      show s.sock = true ↔ _
      rw [h.sock, hup]
      simp
    · rw [hsent.awaiting rfl]
      exact h.awaiting.imp_right (And.imp_right fun hwaits => hwaits.connected he)
    · rw [hsent.sessionState]
      simp
  | postSend ret =>
    cases he
    refine ⟨h.sock, h.awaiting.imp_right
      (And.imp_right fun hwaits => ⟨hwaits.item, hwaits.loot, hwaits.settled⟩), ?_, h.waits⟩
    intro hreq
    obtain ⟨hup | hup, -⟩ := henabled
    · rw [hup] at hreq
      cases hreq
    · rw [hup] at hreq
      cases hreq
  | packet time p => exact h.handled henabled ha (handled_handle he)
  | closed currentTime | dead currentTime =>
    cases he
    exact ⟨by simp [Session.disconnect],
      h.awaiting.imp_right (And.imp_right fun hwaits => ⟨hwaits.item, hwaits.loot, hwaits.settled⟩),
        by simp [Session.disconnect],
      by simp [Session.disconnect]⟩

theorem sound_reachable (h : ((bot (F := F)).restrict Answers).Reachable s) : Sound s := by
  refine (System.restrict_invariant (P := Sound) ?_ ?_).reachable h
  · rintro s ⟨accountNo, rfl⟩
    exact ⟨by simp [Session.new], .inl rfl, by simp [Session.new], by simp [Session.new]⟩
  · intro s t e hi ha he
    obtain ⟨henabled, hstep⟩ := bot_next he
    exact hi.step henabled ha hstep

/-! ### A LOOT_RES that does not come -/

/-- One whose LOOT_RES does not come any more. -/
structure Lost (s : Session F) : Prop where
  waits : Waits s
  quiet : ∀ k ∈ s.kinds, k = .login ∨ k = .hit

omit [Machine F] [FloatBytes F] in
theorem Lost.awaiting (h : Lost s) : Bot.awaiting s.kinds = 0 := by
  have hnone : ∀ k : Kind, k ≠ .login → k ≠ .hit → s.kinds.count k = 0 := by
    intro k hlogin hhit
    refine List.count_eq_zero.mpr fun hk => ?_
    rcases h.quiet k hk with rfl | rfl
    · exact hlogin rfl
    · exact hhit rfl
  unfold Bot.awaiting
  rw [hnone .loot (by decide) (by decide), hnone .lootRes (by decide) (by decide)]
  rfl

theorem Lost.step {e : Event F} (h : Lost s) (henabled : Enabled s e) (ha : Answers s e)
    (he : step s e = .ok t) : Lost t := by
  have hwaits := h.waits
  cases e with
  | update time rands =>
    obtain ⟨hwaits', hkinds⟩ := hwaits.updated (updated_update he)
    refine ⟨hwaits', ?_⟩
    rw [hkinds]
    exact h.quiet
  | connect =>
    obtain ⟨s1, h1, he⟩ := bind_ok he
    cases he
    unfold Session.init at h1
    obtain ⟨-, -, h1⟩ := bind_ok h1
    cases h1
    exact ⟨⟨hwaits.item, hwaits.loot, hwaits.settled⟩, by simp [Session.kinds]⟩
  | connected =>
    have hsent := sends_enqueueSend he
    refine ⟨hwaits.connected he, ?_⟩
    rw [hsent.kinds]
    intro k hk
    rcases List.mem_append.mp hk with hk | hk
    · exact h.quiet k hk
    · exact .inl (List.mem_singleton.mp hk)
  | packet time p =>
    have hres : ∀ result itemId count, p ≠ .field (.lootRes result itemId count) := by
      rintro result itemId count rfl
      have hpos := ha.2
      rw [h.awaiting] at hpos
      exact lt_irrefl 0 hpos
    obtain ⟨hwaits', hkinds⟩ := hwaits.handled (handled_handle he) hres
    refine ⟨hwaits', ?_⟩
    rcases hkinds with hkinds | hkinds
    · rw [hkinds]
      exact h.quiet
    · rw [hkinds]
      intro k hk
      rcases List.mem_append.mp hk with hk | hk
      · exact h.quiet k hk
      · exact .inr (List.mem_singleton.mp hk)
  | connectFailed | postSend _ | closed _ | dead _ =>
    cases he
    exact ⟨⟨hwaits.item, hwaits.loot, hwaits.settled⟩, h.quiet⟩

/-- A bot that has lost its connection before the LOOT_RES came connects again, logs in, and takes
hits; it never moves, attacks or asks for loot any more, on no connection. -/
theorem asks_no_more (h : ((bot (F := F)).restrict Answers).Reachable s)
    (hwaits : awaiting s.kinds = 1) {s' : Session F} (hagain : bot.next s .connect = some s')
    (hleads : ((bot (F := F)).restrict Answers).Leads s' t) :
    ∀ k ∈ t.kinds, k = .login ∨ k = .hit := by
  have hs : Waits s := by
    rcases (sound_reachable h).awaiting with hnone | ⟨-, hs⟩
    · omega
    · exact hs
  have hlost : Lost s' := by
    obtain ⟨-, he⟩ := bot_next hagain
    obtain ⟨s1, h1, he⟩ := bind_ok he
    cases he
    unfold Session.init at h1
    obtain ⟨-, -, h1⟩ := bind_ok h1
    cases h1
    exact ⟨⟨hs.item, hs.loot, hs.settled⟩, by simp [Session.kinds]⟩
  refine (hleads.keeps (P := Lost) ?_ hlost).quiet
  intro u v e hu he
  obtain ⟨ha, he⟩ := System.restrict_next.mp he
  obtain ⟨henabled, hstep⟩ := bot_next he
  exact hu.step henabled ha hstep

end

def answers (s : Session ℚ) : Event ℚ → Bool
  | .packet _ (.auth (.fieldAuthRes _ _)) => s.sessionState = .connected
  | .packet _ (.field (.itemSpawn _)) => s.sessionState = .authed
  | .packet _ _ => false
  | _ => true

theorem answers_sound {s : Session ℚ} {e : Event ℚ} (h : answers s e = true) : Answers s e := by
  unfold answers at h
  split at h
  · exact of_decide_eq_true (p := s.sessionState = .connected) h
  · exact of_decide_eq_true (p := s.sessionState = .authed) h
  · cases h
  · cases e with
    | packet time p => simp_all
    | _ => trivial

/-- The connection of bot 1 ends when it has asked for an item; on the next one it logs in and
stands there. -/
theorem asks_no_more_stands : ∃ t : Session ℚ, t.kinds = [.login] ∧ t.state = .root ∧
    ∀ k ∈ t.kinds, k = .login ∨ k = .hit := by
  have hrun : ((bot.execIf answers (Session.new (F := ℚ) 1) (enteredRun ⟨0, 0⟩ ++
      [.packet 0 (.field (.itemSpawn ⟨9, .gold, ⟨0, 0⟩⟩)), .update 0 fun _ => 0,
        .update 0 fun _ => 0, .closed 0])).any fun s =>
        awaiting s.kinds = 1 ∧ ((bot.next s .connect).any fun s' => (bot.execIf answers s'
          ((enteredRun ⟨0, 0⟩).tail ++ [.update 0 fun _ => 0, .update 0 fun _ => 0])).any fun t =>
          t.kinds = [.login] ∧ t.state = .root) = true) = true := by
    decide +kernel
  obtain ⟨s, hs, hp⟩ := Option.any_eq_true _ _ |>.mp hrun
  obtain ⟨hwaits, hp⟩ := of_decide_eq_true hp
  obtain ⟨s', hagain, hp⟩ := Option.any_eq_true _ _ |>.mp hp
  obtain ⟨t, ht, hp⟩ := Option.any_eq_true _ _ |>.mp hp
  obtain ⟨hkinds, hstate⟩ := of_decide_eq_true hp
  have hreach : (bot.restrict Answers).Reachable s :=
    System.Reachable.execIf (fun _ _ => answers_sound) _ (.start ⟨1, rfl⟩) hs
  have hleads := System.exec_of_execIf (fun _ _ => answers_sound) ht
  exact ⟨t, hkinds, hstate, asks_no_more hreach hwaits hagain ⟨_, hleads⟩⟩

section

variable {F : Type} [Machine F] [FloatBytes F] {s t : Session F}

open Outcome

/-! ### What a frame needs -/

/-- It writes `n` bytes at most, and what stops it is that there is no room for them. -/
structure Spends (s : Session F) (n : ℕ) (x : Except Stop (Session F)) : Prop where
  ok : ∀ t, x = .ok t → t.sendSize ≤ s.sendSize + n
  error : ∀ stop, x = .error stop →
    stop = .myAssert sendOverflow ∧ SESSION_SEND_BUFFER_SIZE < s.sendSize + n

omit [Machine F] [FloatBytes F] in
theorem Spends.done {n : ℕ} (h : t.sendSize ≤ s.sendSize + n) : Spends s n (.ok t) := by
  constructor
  · intro u hu
    cases hu
    exact h
  · intro stop hstop
    cases hstop

omit [Machine F] [FloatBytes F] in
theorem Spends.bind {n m : ℕ}
    {x : Except Stop (Session F)} {f : Session F → Except Stop (Session F)} (h : Spends s n x)
    (hf : ∀ t, x = .ok t → Spends t m (f t)) : Spends s (n + m) (x >>= f) := by
  cases x with
  | error stop =>
    constructor
    · intro u hu
      cases hu
    · intro stop' hstop
      cases hstop
      obtain ⟨rfl, hfull⟩ := h.error stop rfl
      exact ⟨rfl, by omega⟩
  | ok t =>
    have ht := h.ok t rfl
    have hft := hf t rfl
    constructor
    · intro u hu
      have hle := hft.ok u hu
      omega
    · intro stop hstop
      obtain ⟨hwhy, hfull⟩ := hft.error stop hstop
      exact ⟨hwhy, by omega⟩

omit [Machine F] [FloatBytes F] in
theorem Spends.mono {n m : ℕ} {x : Except Stop (Session F)} (h : Spends s n x) (hnm : n ≤ m) :
    Spends s m x := by
  constructor
  · intro t ht
    have hle := h.ok t ht
    omega
  · intro stop hstop
    obtain ⟨hwhy, hfull⟩ := h.error stop hstop
    exact ⟨hwhy, by omega⟩

omit [Machine F] [FloatBytes F] in
theorem Spends.of_sendSize {s0 : Session F} {n : ℕ} {x : Except Stop (Session F)}
    (h : Spends s0 n x) (hsize : s0.sendSize = s.sendSize) : Spends s n x := by
  constructor
  · rw [← hsize]
    exact h.ok
  · rw [← hsize]
    exact h.error

omit [Machine F] in
theorem spends_enqueueSend {r : Request F} {n : ℕ}
    (h : Header.size + r.written.payload.length ≤ n) : Spends s n (s.enqueueSend r) := by
  unfold Session.enqueueSend
  dsimp only
  by_cases hroom : s.sendSize + (Header.size + r.written.payload.length) ≤ SESSION_SEND_BUFFER_SIZE
  · rw [myAssert_true (decide_eq_true hroom)]
    exact .done (Nat.add_le_add_left h _)
  · have hassert : myAssert (decide (s.sendSize + (Header.size + r.written.payload.length) ≤
        SESSION_SEND_BUFFER_SIZE)) sendOverflow = .error (.myAssert sendOverflow) := by
      unfold myAssert
      rw [decide_eq_false hroom]
      rfl
    rw [hassert]
    constructor
    · intro u hu
      cases hu
    · intro stop hstop
      cases hstop
      exact ⟨rfl, by omega⟩

theorem spends_postMoveStart (dir : ℤ) : Spends s 26 (s.postMoveStart dir) := by
  unfold Session.postMoveStart
  refine (spends_enqueueSend (n := 26) ?_).bind (m := 0) fun t _ => .done le_rfl
  simp [Request.written, sendMoveStartPacket, writeMoveStart, Written.payload, Header.size]

omit [Machine F] in
theorem spends_postMoveStop : Spends s 22 s.postMoveStop := by
  unfold Session.postMoveStop
  refine (spends_enqueueSend (n := 22) ?_).bind (m := 0) fun t _ => .done le_rfl
  simp [Request.written, sendMoveStopPacket, writeMoveStop, Written.payload, Header.size]

omit [Machine F] in
theorem spends_postAttackReq : Spends s 16 s.postAttackReq := by
  refine spends_enqueueSend ?_
  simp [Request.written, updateAttackInput, Written.payload, Header.size]

omit [Machine F] in
theorem spends_postLootReq : Spends s 13 s.postLootReq := by
  refine spends_enqueueSend ?_
  simp [Request.written, updateLootInput, writeId, Written.payload, Header.size]

omit [Machine F] [FloatBytes F] in
theorem spends_changeState {mode : PlayerState} (h : mode ≠ s.state) :
    Spends s 0 (s.changeState mode) := by
  unfold Session.changeState
  rw [if_neg h]
  exact .done le_rfl

omit [Machine F] in
theorem spends_stopMove : Spends s 22 s.stopMove := by
  unfold Session.stopMove
  split
  · exact spends_postMoveStop.bind (m := 0) fun t _ => .done le_rfl
  · exact .done (Nat.le_add_right _ _)

theorem spends_setOut (dir : ℤ) :
    Spends s 26 (s.postMoveStart dir >>= fun t => pure (t.traceMove true)) :=
  (spends_postMoveStart dir).bind (m := 0) fun _ _ => .done le_rfl

/-- It stands, and then it walks. -/
theorem spends_turn (dir : ℤ) {x : Except Stop (Session F)} (h : Spends s 22 x) :
    Spends s 48 (x >>= fun t => t.postMoveStart dir >>= fun u => pure (u.traceMove true)) :=
  h.bind fun _ _ => spends_setOut dir

theorem spends_idleUpdate {time : ℕ} {rands : Rands} (hs : s.state = .idle) :
    Spends s 48 (s.idleUpdate time rands) := by
  unfold Session.idleUpdate
  generalize hforget : (if s.monsterKillTime ≠ 0 ∧ (s.monsterKillTime + 10000) % 2 ^ 32 ≤ time then
    { s with targetID := -1, monsterKillTime := 0 } else s) = s0
  have hsize : s0.sendSize = s.sendSize := by
    rw [← hforget]
    split_ifs <;> rfl
  have hidle : s0.state = .idle := by
    rw [← hforget, ← hs]
    split_ifs <;> rfl
  have hmode : ∀ {mode : PlayerState}, mode ≠ .idle → Spends s0 0 (s0.changeState mode) :=
    fun hmode => spends_changeState (hidle ▸ hmode)
  refine Spends.of_sendSize ?_ hsize
  dsimp only
  split
  · exact (hmode (by decide)).mono (by omega)
  · split
    · exact (hmode (by decide)).mono (by omega)
    · split
      · refine Spends.mono ((spends_postMoveStart _).bind (m := 0) fun t ht => ?_) (by omega)
        have hstart : t.state ≠ .move := by
          rw [(sends_postMoveStart ht).state, hidle]
          decide
        exact (spends_changeState hstart.symm).bind (m := 0) fun u _ => .done le_rfl
      · exact .done (Nat.le_add_right _ _)

theorem spends_moveUpdate {rands : Rands} (hs : s.state = .move) :
    Spends s 48 (s.moveUpdate rands) := by
  unfold Session.moveUpdate
  dsimp only
  split
  · refine Spends.mono (spends_postMoveStop.bind (m := 0) fun t ht => ?_) (by omega)
    have hstop : PlayerState.idle ≠ t.state := by
      rw [(sends_postMoveStop ht).state, hs]
      decide
    exact (spends_changeState hstop).bind (m := 0) fun u _ => .done le_rfl
  · split
    · refine spends_postMoveStop.bind (m := 26) fun t _ => ?_
      have hstill : (t.traceMove false).sendSize = t.sendSize := rfl
      exact (spends_setOut _).of_sendSize hstill
    · exact .done (Nat.le_add_right _ _)

theorem spends_chaseUpdate {time : ℕ} (hs : s.state = .chase) :
    Spends s 48 (s.chaseUpdate time) := by
  unfold Session.chaseUpdate
  dsimp only
  split
  · refine Spends.mono (spends_stopMove.bind (m := 16) fun t ht => ?_) (by omega)
    refine Spends.bind (m := 0) (spends_postAttackReq.of_sendSize rfl) fun u hu => ?_
    have hasked : PlayerState.attack ≠ u.state := by
      rw [(sends_enqueueSend hu).state]
      show PlayerState.attack ≠ t.state
      rw [(shift_stopMove ht).state, hs]
      decide
    exact spends_changeState hasked
  · split
    · exact spends_turn _ (spends_stopMove.of_sendSize rfl)
    · exact .done (Nat.le_add_right _ _)

theorem spends_rootUpdate (hs : s.state = .root) : Spends s 48 s.rootUpdate := by
  unfold Session.rootUpdate
  dsimp only
  split
  · refine Spends.mono (spends_stopMove.bind (m := 0) fun t ht => ?_) (by omega)
    have hstop : PlayerState.idle ≠ t.state := by
      rw [(shift_stopMove ht).state, hs]
      decide
    exact spends_changeState hstop
  · split
    · exact .done (Nat.le_add_right _ _)
    · split
      · split
        · exact spends_turn _ spends_stopMove
        · exact .done (Nat.le_add_right _ _)
      · exact Spends.mono (spends_stopMove.bind (m := 13) fun t _ =>
          spends_postLootReq.bind (m := 0) fun u _ => .done le_rfl) (by omega)

/-- A frame needs room for a MOVE_STOP and a MOVE_START. -/
theorem spends_update {time : ℕ} {rands : Rands} : Spends s 48 (s.update time rands) := by
  have hwalk : s.walk.sendSize = s.sendSize := by
    unfold Session.walk
    split_ifs <;> rfl
  have hstate : Spends s.walk 48 (s.walk.stateUpdate time rands) := by
    unfold Session.stateUpdate
    split
    · next hs => exact spends_idleUpdate hs
    · next hs => exact spends_moveUpdate hs
    · next hs => exact spends_chaseUpdate hs
    · next hs =>
      unfold Session.attackUpdate
      split
      · exact (spends_changeState (by rw [hs]; decide)).mono (by omega)
      · exact .done (Nat.le_add_right _ _)
    · next hs =>
      unfold Session.stunUpdate
      split
      · exact (spends_changeState (by rw [hs]; decide)).mono (by omega)
      · exact .done (Nat.le_add_right _ _)
    · next hs => exact spends_rootUpdate hs
    · exact .done (Nat.le_add_right _ _)
  exact (hstate.of_sendSize hwalk).bind (m := 0) fun t _ => .done le_rfl

/-! ### What stops a bot -/

omit [Machine F] [FloatBytes F] in
theorem changeState_ok {mode : PlayerState} (h : mode ≠ s.state) :
    ∃ t, s.changeState mode = .ok t := by
  unfold Session.changeState
  rw [if_neg h]
  exact ⟨_, rfl⟩

omit [Machine F] [FloatBytes F] in
theorem takeDamage_ok (hp : ℤ) (pos : Field.Position F) (time : ℕ) :
    ∃ t, s.takeDamage hp pos time = .ok t := by
  unfold Session.takeDamage
  by_cases hdead : s.state = .dead
  · rw [if_pos hdead]
    exact ⟨_, rfl⟩
  · rw [if_neg hdead]
    dsimp only
    split_ifs with hkill hstun
    · exact changeState_ok (Ne.symm hdead)
    · exact ⟨_, rfl⟩
    · exact changeState_ok (Ne.symm hstun)

omit [FloatBytes F] in
/-- Of the packets of such a server, only one with another position stops a bot. -/
theorem stops_handle {time : ℕ} {p : ServerPacket F} {stop : Stop} (h : Sound s)
    (ha : Answers s (.packet time p)) (hstop : s.handle time p = .error stop) :
    stop = .myAssert positionLost ∧ ∃ characterId pos,
      p = .auth (.fieldAuthRes characterId pos) ∧ s.hasDisconnectPos = true ∧
        le (s.pos.dist pos) (kBotSpeed * ofInt Field.ALLOW_DELAY_FRAME) = false := by
  unfold Session.handle at hstop
  split at hstop
  · exact absurd ha id
  · next characterId pos =>
    unfold Session.handleFieldAuth at hstop
    split at hstop
    · next hagain =>
      unfold myAssert at hstop
      split at hstop
      · cases hstop
      · next hfar =>
        cases hstop
        exact ⟨rfl, characterId, pos, rfl, hagain, Bool.not_eq_true _ ▸ hfar⟩
    · cases hstop
  · cases hstop
  · next monsterID hp _ _ =>
    unfold Session.handleMonsterDamaged Session.monsterChaseInit at hstop
    split at hstop
    · next hkill =>
      have htarget : s.targetID ≠ -1 := hkill.1 ▸ ha.2
      rw [myAssert_true (decide_eq_true htarget)] at hstop
      cases hstop
    · cases hstop
  · next characterID hp pos _ monsterID =>
    unfold Session.handleCharecterDamaged at hstop
    split at hstop
    · cases hstop
    · obtain ⟨t, ht⟩ := takeDamage_ok (s := s) hp pos time
      rw [ht] at hstop
      cases hstop
  · cases hstop
  · unfold Session.handleLootRes Session.itemChaseInit at hstop
    have hitem : s.targetItemID ≠ -1 := by
      rcases h.awaiting with hnone | ⟨-, hwaits⟩
      · have hpos := ha.2
        omega
      · exact hwaits.item
    rw [myAssert_true (decide_eq_true hitem)] at hstop
    cases hstop
  · cases hstop

/-- There is room for a login. -/
theorem postFieldAuthReq_ok (h : s.sendSize = 0) : ∃ t, s.postFieldAuthReq = .ok t := by
  have hlen : (Request.fieldAuthReq (F := F)
    (ClientBot.botId s.accountNo) ClientBot.botPw).written.payload.length = 86 := by
    obtain ⟨hid, hpw⟩ := ranged_meant (F := F) (r := .fieldAuthReq s.accountNo) trivial
    simp [Request.written, sendFieldEnterReq, Written.payload, hid, hpw]
  unfold Session.postFieldAuthReq Session.enqueueSend
  dsimp only
  rw [hlen, h, myAssert_true (decide_eq_true (by decide))]
  exact ⟨_, rfl⟩

/-- Two things stop a bot that a server answers: a frame when there is no room in its send buffer
for a MOVE_STOP and a MOVE_START, and a login that finds it more than `ALLOW_DELAY_FRAME` frames
away from where it was. The calls of the socket are not part of the model, and so neither are the
assertions of `Recv` and `PostSend`; after what a `recv` brings has been read, the receive buffer
holds no more than the beginning of a packet (`received_bot`). -/
theorem stops_for {e : Event F} {stop : Stop} (h : ((bot (F := F)).restrict Answers).Reachable s)
    (henabled : Enabled s e) (hanswers : Answers s e) (hstop : step s e = .error stop) :
    (stop = .myAssert sendOverflow ∧ (∃ time rands, e = .update time rands) ∧
        SESSION_SEND_BUFFER_SIZE < s.sendSize + 48) ∨
      (stop = .myAssert positionLost ∧ ∃ time characterId pos,
          e = .packet time (.auth (.fieldAuthRes characterId pos)) ∧
        s.hasDisconnectPos = true ∧ le (s.pos.dist pos)
          (kBotSpeed * ofInt Field.ALLOW_DELAY_FRAME) = false) := by
  have hsound := sound_reachable h
  cases e with
  | update time rands =>
    obtain ⟨hwhy, hfull⟩ := spends_update.error stop hstop
    exact .inl ⟨hwhy, ⟨time, rands, rfl⟩, hfull⟩
  | connect =>
    have hdown : s.sessionState = .disconnected := henabled
    have hsock : s.sock = false := by
      have hiff := hsound.sock
      rw [hdown] at hiff
      simpa using hiff
    have hinit : myAssert (decide (s.sock = false)) "Init 중복 호출 : mSock이 이미 존재" = .ok () :=
      myAssert_true (decide_eq_true hsock) _
    unfold step Session.init at hstop
    rw [hinit] at hstop
    cases hstop
  | connected =>
    obtain ⟨t, ht⟩ := postFieldAuthReq_ok (s := { s with
      sessionState := .connected, state := .idle }) (hsound.fresh henabled)
    have hok : step s .connected = .ok t := ht
    rw [hok] at hstop
    cases hstop
  | packet time p =>
    obtain ⟨hwhy, characterId, pos, rfl, hagain, hfar⟩ := stops_handle hsound hanswers hstop
    exact .inr ⟨hwhy, time, characterId, pos, rfl, hagain, hfar⟩
  | connectFailed | postSend _ | closed _ | dead _ => cases hstop

end

/-- Bot 1 logs in again, and is 200 away from where it was. -/
theorem stops_for_far : ∃ s : Session ℚ, ∃ e stop, step s e = .error stop ∧
    ((stop = .myAssert sendOverflow ∧ (∃ time rands, e = .update time rands) ∧
        SESSION_SEND_BUFFER_SIZE < s.sendSize + 48) ∨
      (stop = .myAssert positionLost ∧ ∃ time characterId pos,
          e = .packet time (.auth (.fieldAuthRes characterId pos)) ∧
        s.hasDisconnectPos = true ∧ le (s.pos.dist pos)
          (kBotSpeed * ofInt Field.ALLOW_DELAY_FRAME) = false)) := by
  have hrun : (bot.execIf answers (Session.new (F := ℚ) 1)
    (enteredRun ⟨0, 0⟩ ++ [.closed 0, .connect, .connected])).any (fun s =>
      Enabled s (.packet 0 (.auth (.fieldAuthRes 7 ⟨200, 0⟩))) ∧
        answers s (.packet 0 (.auth (.fieldAuthRes 7 ⟨200, 0⟩))) = true ∧
        (step s (.packet 0 (.auth (.fieldAuthRes 7 ⟨200, 0⟩)))).isOk = false) = true := by
    decide +kernel
  obtain ⟨s, hs, hp⟩ := Option.any_eq_true _ _ |>.mp hrun
  obtain ⟨henabled, hanswers, hp⟩ := of_decide_eq_true hp
  have hreach : (bot.restrict Answers).Reachable s :=
    System.Reachable.execIf (fun _ _ => answers_sound) _ (.start ⟨1, rfl⟩) hs
  obtain ⟨stop, hstop⟩ : ∃ stop, step s (.packet 0 (.auth (.fieldAuthRes 7 ⟨200, 0⟩))) =
      .error stop := by
    revert hp
    cases step s (.packet 0 (.auth (.fieldAuthRes 7 ⟨200, 0⟩))) with
    | error stop => exact fun _ => ⟨stop, rfl⟩
    | ok t => simp [Except.isOk, Except.toBool]
  exact ⟨s, _, stop, hstop, stops_for hreach henabled (answers_sound hanswers) hstop⟩

end Bot
end MyMMO
