/-
# What an operation does

Every operation of the field thread is a sequence of a few effects. `Act` is what happens to the
players and for their packets, `PlayerAct` and `MonsterAct` are what a tick does to a player and to
a monster by itself and `ItemAct` what it does to an item. An invariant is proved for the effects,
and `Acts` and the lemmas below carry it to the operations.
-/
import MyMMO.Field
import MyMMO.Lib.Outcome
import MyMMO.Lib.System

namespace MyMMO
namespace Field

open Machine Outcome
open Sector (getAroundSectors)

variable {F : Type}

theorem setPlayer_player (s : State F) (q : ℕ) (p : Player F) (q' : ℕ) :
    (s.setPlayer q p).player q' = if q' = q then p else s.player q' := Function.update_apply _ _ _ _

theorem setMonster_monster (s : State F) (id : ℤ) (m : Monster F) (id' : ℤ) :
    (s.setMonster id m).monster id' = if id' = id then m else s.monster id' :=
  Function.update_apply _ _ _ _

/-- `q` is registered as `p`. -/
def State.enter (s : State F) (q : ℕ) (p : Player F) : State F :=
  { s with
    player := Function.update s.player q p
    players := q :: s.players
    met := q :: s.met
    sectors := Function.update s.sectors p.currentSector (q :: s.sectors p.currentSector) }

/-- `q` crosses into the sector where it is to be. -/
def State.cross (s : State F) (q : ℕ) : State F :=
  ((s.sendSpawns q ((s.player q).destSector.around.diff
    (s.player q).currentSector.around)).sendDespawns q ((s.player q).currentSector.around.diff
    (s.player q).destSector.around)).movePlayer q (s.player q)

/-- `q` is taken out of `sectors` and `players`. -/
def State.leave (s : State F) (q : ℕ) : State F :=
  { s with
    sectors := Function.update s.sectors (s.player q).currentSector
      ((s.sectors (s.player q).currentSector).erase q)
    players := s.players.erase q }

/-- The PositionSave of `q` is done. -/
def State.handBack (s : State F) (q : ℕ) : State F :=
  ((s.setPlayer q { s.player q with savePending := false }).notifyDisconnect q
    (s.player q).accountNo).leave q

/-- The session of `q` has ended. -/
def State.disconnect (s : State F) (q : ℕ) : State F :=
  s.setPlayer q { s.player q with connect := false }

/-- An item is put on the field. -/
def State.addItem (s : State F) (item : FieldItem F) : State F :=
  { s with
    itemUniqueID := item.itemUniqueId
    item := Function.update s.item item.itemUniqueId item
    items := item.itemUniqueId :: s.items
    itemSectors := Function.update s.itemSectors item.sector
      (item.itemUniqueId :: s.itemSectors item.sector) }

/-- An item is taken off the field. -/
def State.removeItem (s : State F) (id : ℤ) (c : Sector) : State F :=
  { s with
    itemSectors := Function.update s.itemSectors c ((s.itemSectors c).erase id)
    items := s.items.erase id }

/-- A monster crosses into another sector. -/
def State.crossMonster (s : State F) (id : ℤ) : State F :=
  ((s.broadcastMonsterSpawn (s.monster id)
    ((s.monster id).destSector.around.diff (s.monster id).sector.around)).broadcastMonsterDespawn
      (s.monster id) ((s.monster id).sector.around.diff
      (s.monster id).destSector.around)).moveMonster id (s.monster id)

/-- `monsterProc` is done with the monster `id`. -/
def State.settle (s : State F) (id : ℤ) : State F :=
  s.setMonster id
    { s.monster id with
      beforeState := (s.monster id).state, beforeDirection := (s.monster id).direction }

/-- A refusal of loot, or the ranking. -/
def Packet.Private : Packet F → Prop
  | .lootRes result _ _ => result ≠ 0
  | .rankingRes _ _ _ _ => True
  | _ => False

section

variable [Machine F]

/-- A tick of the monster `id`, its sector apart: `mBeforeState`, the choice of the target and
`Monster::Update`. -/
def nextMonster (s : State F) (id : ℤ) : Except Stop (Monster F × Rands) := do
  let m := s.monster id
  let m := { m with beforeState := m.state, beforeDirection := m.direction }
  let m ←
    if m.state = .chase then
      match possibleChasePlayer s m.targetPlayerID with
      | some targetPos => pure { m with targetPos }
      | none => m.giveUpChase
    else pure m
  m.update s.rands

/-- A player who enters the field. -/
def entered (q : ℕ) (accountNo characterID : ℤ) (pos : Position F)
    (nickname : List UInt8) : Player F :=
  { Player.login q accountNo characterID pos nickname with
    destSector := calcSector pos
    currentSector := calcSector pos }

/-- The item that a dead monster leaves. -/
def droppedItem (s : State F) (m : Monster F) (itemId : ItemId) (count : ℤ) : FieldItem F :=
  { FieldItem.new (s.itemUniqueID + 1) itemId count m.pos with sector := calcSector m.pos }

/-- What becomes of the drop of `m`. -/
inductive Dropped (s : State F) (m : Monster F) : State F → Prop
  | nothing (rands : Rands) : Dropped s m { s.record (.dropItem m.monsterID) with rands }
  | item (itemId : ItemId) (count : ℤ) (rands : Rands) :
      Dropped s m (({ (s.record (.dropItem m.monsterID)).record
        (.itemCreated (s.itemUniqueID + 1) itemId count) with
        rands }.addItem (droppedItem s m itemId count)).broadcastItemSpawn
          (droppedItem s m itemId count) (calcSector m.pos).around)

/-- `m` is what the monster `id` is after a hit of `q`, and everybody around is told. -/
def State.hitMonster (s : State F) (q : ℕ) (id : ℤ) (m : Monster F) : State F :=
  ((s.setMonster id m).record (.monsterState (some q) id
    (s.monster id).state m.state)).broadcastMonsterDamaged m m.sector.around

/-- An effect, the ticks of players, monsters and items apart. -/
inductive Act (s : State F) : State F → Prop
  -- `fieldUpdate` begins
  | fieldUpdate : Act s (s.record .fieldUpdate)
  | adjust (q : ℕ) (syncCnt : ℕ) (pendingAttackTargets : List ℤ) (hq : q ∈ s.players) :
      Act s (s.setPlayer q { s.player q with syncCnt, pendingAttackTargets })
  | hit (q : ℕ) (id : ℤ) (m : Monster F) (hq : q ∈ s.players) (hid : id ∈ s.monsters)
      (hstate : (s.monster id).state ≠ .dead)
      (hm : (s.monster id).takeDamage (s.player q).attackPower (s.player q) q = .ok m)
      (hdead : m.state ≠ .dead)
      (hgrid : m.sector.InGrid) : Act s (s.hitMonster q id m)
  | kill (q : ℕ) (id : ℤ) (m : Monster F) (t : State F) (hq : q ∈ s.players) (hid : id ∈ s.monsters)
      (hstate : (s.monster id).state ≠ .dead)
      (hm : (s.monster id).takeDamage (s.player q).attackPower (s.player q) q = .ok m)
      (hdead : m.state = .dead)
      (hgrid : m.sector.InGrid) (ht : Dropped (s.hitMonster q id m) m t) :
        Act s (requestKillCountUpdate t q 1 id)
  | aim (q : ℕ) (hq : q ∈ s.players)
      (hne : calcSector (s.player q).pos ≠ (s.player q).currentSector) :
      Act s (s.setPlayer q { s.player q with destSector := calcSector (s.player q).pos })
  | cross (q : ℕ) (hq : q ∈ s.players)
      (hne : (s.player q).currentSector ≠ (s.player q).destSector) : Act s (s.cross q)
  | damaged (q : ℕ) (m : Monster F) (p : Player F) (hq : q ∈ s.near m.sector.around)
      (hstate : (s.player q).state ≠ .dead)
      (hp : (s.player q).takeDamage MONSTER_ATTACK_DAMAGE m = .ok p) :
      Act s (((s.setPlayer q p).record (.damaged q)).broadcastCharacterDamaged p m
        p.currentSector.around)
  | enter (q : ℕ) (accountNo characterID : ℤ) (pos : Position F) (nickname : List UInt8)
      (hq : q ∉ s.met) (hid : ∀ q' ∈ s.players, (s.player q').characterID ≠ characterID) :
      Act s ((s.enter q (entered q accountNo characterID pos nickname)).sendSpawns q
        (calcSector pos).around)
  | moveStart (q : ℕ) (p : Player F) (packetPos : Position F) (direction : ℤ) (hq : q ∈ s.players)
      (hstate : (s.player q).state = .idle ∨ (s.player q).state = .attack ∧
        PLAYER_ATTACK_TOTAL_FRAME - (s.player q).animFrame < ALLOW_DELAY_FRAME)
      (hsync : (s.player q).outOfSync packetPos = false)
      (hp : ((s.player q).place packetPos direction).changeState .move = .ok p)
      (hconnect : (s.player q).connect = true) :
      Act s (((s.setPlayer q p).record (.moveStart q)).broadcastMoveStart q p.currentSector.around)
  | moveStop (q : ℕ) (p : Player F) (packetPos : Position F) (direction : ℤ) (hq : q ∈ s.players)
      (hsync : (s.player q).outOfSync packetPos = false)
      (hp : (s.player q).state = .idle ∧ p = (s.player q).place packetPos direction ∨
        (s.player q).state = .move ∧
          ((s.player q).place packetPos direction).changeState .idle = .ok p)
      (hconnect : (s.player q).connect = true) :
      Act s (((s.setPlayer q p).record (.moveStop q)).broadcastMoveStop q p.currentSector.around)
  | attackReq (q : ℕ) (p : Player F) (skillId : ℤ) (hq : q ∈ s.players)
      (hstate : (s.player q).state = .idle ∨ (s.player q).state = .move)
      (hp : (s.player q).changeState .attack = .ok p) :
      Act s (((s.setPlayer q { p with pendingAttackSkillId := skillId }).record
        (.attackAccepted q)).broadcastPlayerAttack q p.currentSector.around)
  | loot (q : ℕ) (id : ℤ) (hq : q ∈ s.players) (hid : id ∈ s.items)
      (hgrid : (s.item id).sector.InGrid) (hcell : id ∈ s.itemSectors (s.item id).sector) :
      Act s (((((s.setPlayer q ((s.player q).addItem (s.item id))).broadcastItemDespawn (s.item id)
      (s.item id).sector.around).sendLootRes q true (s.item id).itemId (s.item id).count).record
      (.looted q id)).removeItem id (s.item id).sector)
  | send (q : ℕ) (packet : Packet F) (hq : q ∈ s.players) (hp : packet.Private) :
      Act s (s.sendPost q packet)
  | disconnectSession (q : ℕ) : Act s (s.disconnectSession q)
  | request (q : ℕ) (hq : q ∈ s.players) :
      Act s (s.enqueueJob (.rankingQuery q (s.player q).accountNo (s.player q).nickname))
  | save (q : ℕ) (hq : q ∈ s.players) (hconnect : (s.player q).connect = false)
      (hpending : (s.player q).savePending = false) :
      Act s (((s.setPlayer q { s.player q with savePending := true }).record
        (.positionSave q)).enqueueJob
          (.positionSave (s.player q).seqID (s.player q).accountNo (s.player q).pos))
  | dbDequeue (job : DBJob F) (dbReqQ : List (DBJob F)) (hjob : s.dbJob = none)
      (hqueue : s.dbReqQ = job :: dbReqQ) : Act s { s with dbReqQ, dbJob := some job }
  | dbAnswer (job : DBJob F) (ranking : Ranking) (hjob : s.dbJob = some job) :
      Act s { s with dbJob := none, dbResQ := s.dbResQ ++ [answer ranking job] }
  | rehash (players : List ℕ) (sectors : Sector → List ℕ) (monsters : List ℤ)
      (monsterSectors : Sector → List ℤ) (items : List ℤ) (itemSectors : Sector → List ℤ)
      (hp : players.Perm s.players) (hs : ∀ c, (sectors c).Perm (s.sectors c))
      (hm : monsters.Perm s.monsters) (hms : ∀ c, (monsterSectors c).Perm (s.monsterSectors c))
      (hi : items.Perm s.items) (his : ∀ c, (itemSectors c).Perm (s.itemSectors c)) :
      Act s { s with players, sectors, monsters, monsterSectors, items, itemSectors }

/-- What a tick does to the player `q`. -/
inductive PlayerAct (q : ℕ) (s : State F) : State F → Prop
  | update (p : Player F) (hq : q ∈ s.players) (hp : (s.player q).update = .ok p)
      (hframe : ¬(p.state = .attack ∧ p.animFrame = PLAYER_ATTACK_AWINDUP_FRAME)) :
        PlayerAct q s (s.setPlayer q p)
  | attackHit (p : Player F) (hq : q ∈ s.players) (hp : (s.player q).update = .ok p)
      (hstate : p.state = .attack) (hframe : p.animFrame = PLAYER_ATTACK_AWINDUP_FRAME) :
      PlayerAct q s ((s.setPlayer q p).record (.attackHit q))

/-- What `monsterProc` does to the monster `id`. -/
inductive ProcAct (id : ℤ) (s : State F) : State F → Prop
  | moveStart (hid : id ∈ s.monsters) (hstate : (s.monster id).state.Moving)
      (hbefore : ¬(s.monster id).beforeState.Moving) :
      ProcAct id s
        ((s.broadcastMonsterMoveStart (s.monster id) (s.monster id).sector.around).settle id)
  | moveAgain (hid : id ∈ s.monsters) (hstate : (s.monster id).state.Moving)
      (hbefore : (s.monster id).beforeState.Moving) :
      ProcAct id s
        (((s.broadcastMonsterMoveStop (s.monster id) (s.monster id).sector.around
          ).broadcastMonsterMoveStart (s.monster id) (s.monster id).sector.around).settle id)
  | attack (hid : id ∈ s.monsters) (hstate : (s.monster id).state = .attack) :
      ProcAct id s
        (((s.broadcastMonsterMoveStop (s.monster id) (s.monster id).sector.around
          ).broadcastMonsterAttack (s.monster id) (s.monster id).sector.around).settle id)
  | moveStop (hid : id ∈ s.monsters) (hstate : (s.monster id).state = .idle)
      (hbefore : (s.monster id).beforeState ≠ .dead) :
      ProcAct id s
        ((s.broadcastMonsterMoveStop (s.monster id) (s.monster id).sector.around).settle id)
  | respawn (hid : id ∈ s.monsters) (hstate : (s.monster id).state = .idle)
      (hbefore : (s.monster id).beforeState = .dead)
      (hsame : (s.monster id).sector = (s.monster id).destSector) :
      ProcAct id s
        (((s.broadcastMonsterDespawn (s.monster id) (s.monster id).sector.around
          ).broadcastMonsterSpawn (s.monster id) (s.monster id).sector.around).settle id)
  | respawnAway (hid : id ∈ s.monsters) (hstate : (s.monster id).state = .idle)
      (hbefore : (s.monster id).beforeState = .dead)
      (hne : (s.monster id).sector ≠ (s.monster id).destSector) :
      ProcAct id s
        ((((s.broadcastMonsterDespawn (s.monster id) (s.monster id).sector.around
          ).moveMonster id (s.monster id)).broadcastMonsterSpawn
            { s.monster id with sector := (s.monster id).destSector }
            (s.monster id).destSector.around).settle id)
  | settle (hid : id ∈ s.monsters)
      (hstate : (s.monster id).state = .stun ∨ (s.monster id).state = .dead) :
      ProcAct id s (s.settle id)

/-- What a tick does to the monster `id`. -/
inductive MonsterAct (id : ℤ) (s : State F) : State F → Prop
  | update (m : Monster F) (rands : Rands) (hid : id ∈ s.monsters)
      (hm : nextMonster s id = .ok (m, rands)) :
      MonsterAct id s { (s.setMonster id (updateMonsterSectorCheck m)).record
      (.monsterState none id (s.monster id).state m.state) with rands }
  | cross (hid : id ∈ s.monsters) (hstate : (s.monster id).beforeState ≠ .dead)
      (hne : (s.monster id).sector ≠ (s.monster id).destSector) :
      MonsterAct id s (s.crossMonster id)
  | proc {t : State F} (ht : ProcAct id s t) : MonsterAct id s t

/-- What a tick does to the item `id`. -/
inductive ItemAct (id : ℤ) (s : State F) : State F → Prop
  | update (hid : id ∈ s.items) (hlife : (s.item id).update.isExpired = false) :
      ItemAct id s { s with item := Function.update s.item id (s.item id).update }
  | expire (hid : id ∈ s.items) (hlife : (s.item id).update.isExpired = true)
      (hgrid : (s.item id).sector.InGrid) : ItemAct id s (({ s with
      item := Function.update s.item id (s.item id).update }.broadcastItemDespawn (s.item id).update
      (s.item id).sector.around).record (.expired id) |>.removeItem id (s.item id).sector)

/-- Effects on players one after the other. -/
abbrev Acts (s t : State F) : Prop := Relation.ReflTransGen Act s t

/-- An effect on a player or a monster. -/
def Calm (s t : State F) : Prop := Act s t ∨ ∃ id, MonsterAct id s t

abbrev Calms (s t : State F) : Prop := Relation.ReflTransGen Calm s t

/-- An effect of a tick on a player or a monster. -/
def Tick (s t : State F) : Prop := Calm s t ∨ ∃ q, PlayerAct q s t

abbrev Ticks (s t : State F) : Prop := Relation.ReflTransGen Tick s t

abbrev ItemActs (s t : State F) : Prop :=
  Relation.ReflTransGen (fun s t => ∃ id, ItemAct id s t) s t

/-- Any effect, `dbResultPacketProc` apart. -/
def Stay (s t : State F) : Prop := Tick s t ∨ (∃ id, ItemAct id s t) ∨ ∃ q, t = s.disconnect q

abbrev Stays (s t : State F) : Prop := Relation.ReflTransGen Stay s t

/-- Any effect. -/
def Effect (s t : State F) : Prop :=
  Stay s t ∨ t = { s with dbResQ := [] } ∨ ∃ q ∈ s.players, t = s.handBack q

abbrev Effects (s t : State F) : Prop := Relation.ReflTransGen Effect s t

theorem Acts.calms {s t : State F} (h : Acts s t) : Calms s t :=
  Relation.ReflTransGen.mono (fun _ _ => Or.inl) s t h

theorem Calms.ticks {s t : State F} (h : Calms s t) : Ticks s t :=
  Relation.ReflTransGen.mono (fun _ _ => Or.inl) s t h

theorem Ticks.stays {s t : State F} (h : Ticks s t) : Stays s t :=
  Relation.ReflTransGen.mono (fun _ _ => Or.inl) s t h

theorem ItemActs.stays {s t : State F} (h : ItemActs s t) : Stays s t :=
  Relation.ReflTransGen.mono (fun _ _ ha => Or.inr (Or.inl ha)) s t h

theorem Stays.effects {s t : State F} (h : Stays s t) : Effects s t :=
  Relation.ReflTransGen.mono (fun _ _ => Or.inl) s t h

/-- What every effect keeps, a sequence of effects keeps. -/
theorem Acts.keeps {P : State F → Prop} (hact : ∀ {s t}, P s → Act s t → P t) {s t : State F}
    (hs : P s) (h : Acts s t) : P t := by
  induction h with
  | refl => exact hs
  | tail _ ha ih => exact hact ih ha

theorem Calms.keeps {P : State F → Prop} (hact : ∀ {s t}, P s → Act s t → P t)
    (hmonster : ∀ {id s t}, P s → MonsterAct id s t → P t) {s t : State F} (hs : P s)
    (h : Calms s t) : P t := by
  induction h with
  | refl => exact hs
  | tail _ ha ih =>
    rcases ha with ha | ⟨id, ha⟩
    · exact hact ih ha
    · exact hmonster ih ha

theorem Ticks.keeps {P : State F → Prop} (hact : ∀ {s t}, P s → Act s t → P t)
    (hmonster : ∀ {id s t}, P s → MonsterAct id s t → P t)
    (hplayer : ∀ {q s t}, P s → PlayerAct q s t → P t) {s t : State F} (hs : P s)
    (h : Ticks s t) : P t := by
  induction h with
  | refl => exact hs
  | tail _ ha ih =>
    rcases ha with (ha | ⟨id, ha⟩) | ⟨q, ha⟩
    · exact hact ih ha
    · exact hmonster ih ha
    · exact hplayer ih ha

omit [Machine F] in
theorem ItemActs.keeps {P : State F → Prop} (hitem : ∀ {id s t}, P s → ItemAct id s t → P t)
    {s t : State F} (hs : P s) (h : ItemActs s t) : P t := by
  induction h with
  | refl => exact hs
  | tail _ ha ih =>
    obtain ⟨id, ha⟩ := ha
    exact hitem ih ha

theorem Stays.keeps {P : State F → Prop} (hact : ∀ {s t}, P s → Act s t → P t)
    (hmonster : ∀ {id s t}, P s → MonsterAct id s t → P t)
    (hplayer : ∀ {q s t}, P s → PlayerAct q s t → P t)
    (hitem : ∀ {id s t}, P s → ItemAct id s t → P t)
    (hend : ∀ {s : State F} {q}, P s → P (s.disconnect q)) {s t : State F} (hs : P s)
    (h : Stays s t) : P t := by
  induction h with
  | refl => exact hs
  | tail _ ha ih =>
    rcases ha with ((ha | ⟨id, ha⟩) | ⟨q, ha⟩) | ⟨id, ha⟩ | ⟨q, rfl⟩
    · exact hact ih ha
    · exact hmonster ih ha
    · exact hplayer ih ha
    · exact hitem ih ha
    · exact hend ih

theorem Effects.keeps {P : State F → Prop} (hstay : ∀ {s t}, P s → Stay s t → P t)
    (htake : ∀ {s : State F}, P s → P { s with dbResQ := [] })
    (hleave : ∀ {s : State F} {q}, P s → q ∈ s.players → P (s.handBack q)) {s t : State F}
    (hs : P s) (h : Effects s t) : P t := by
  induction h with
  | refl => exact hs
  | tail _ ha ih =>
    rcases ha with ha | rfl | ⟨q, hq, rfl⟩
    · exact hstay ih ha
    · exact htake ih
    · exact hleave ih hq

/-! ### What an operation leaves alone -/

section

variable {s : State F} (q : ℕ) (near : List Sector)

omit [Machine F]

theorem sendSpawns_player : (s.sendSpawns q near).player = s.player := rfl

theorem sendDespawns_player : (s.sendDespawns q near).player = s.player := rfl

theorem sendSpawns_players : (s.sendSpawns q near).players = s.players := rfl

theorem sendDespawns_players : (s.sendDespawns q near).players = s.players := rfl

/-- `t` is `s` after packets have been sent. -/
def Sends (s t : State F) : Prop := ∃ ks, t = { s with sent := s.sent ++ ks }

theorem Sends.trans {t u : State F} (h : Sends s t) (h' : Sends t u) : Sends s u := by
  obtain ⟨ks, rfl⟩ := h
  obtain ⟨ls, rfl⟩ := h'
  exact ⟨ks ++ ls, by rw [List.append_assoc]⟩

theorem sends_broadcast (s : State F) (near : List Sector) (skip : ℕ → Bool) (packet : Packet F) :
    Sends s (s.broadcast near skip packet) := ⟨_, rfl⟩

theorem sends_sendAll (s : State F) (q : ℕ) (packets : List (Packet F)) :
    Sends s (s.sendAll q packets) := ⟨_, rfl⟩

theorem sends_sendSpawns : Sends s (s.sendSpawns q near) := by
  unfold State.sendSpawns State.sendItemSpawnBatch State.sendMonsterSpawnBatch State.sendSpawnBatch
    State.broadcastSpawn
  exact (((sends_broadcast _ _ _ _).trans (sends_sendAll _ _ _)).trans (sends_sendAll _ _ _)).trans
    (sends_sendAll _ _ _)

theorem sends_sendDespawns : Sends s (s.sendDespawns q near) := by
  unfold State.sendDespawns State.sendItemDespawnBatch State.sendMonsterDespawnBatch
    State.sendDespawnBatch State.broadcastDespawn
  exact (((sends_broadcast _ _ _ _).trans (sends_sendAll _ _ _)).trans (sends_sendAll _ _ _)).trans
    (sends_sendAll _ _ _)

/-- Only the packets and the registration of `q` are new. -/
theorem cross_rest : ∃ sent, s.cross q = { s with
    player := (s.cross q).player, sectors := (s.cross q).sectors, sent := s.sent ++ sent } := by
  unfold State.cross
  obtain ⟨sent, hsent⟩ := (sends_sendSpawns (s := s) q
    ((s.player q).destSector.around.diff (s.player q).currentSector.around)).trans
      (sends_sendDespawns q ((s.player q).currentSector.around.diff (s.player q).destSector.around))
  rw [hsent]
  exact ⟨_, rfl⟩

theorem cross_player (q' : ℕ) : (s.cross q).player q' =
    if q' = q then { s.player q with currentSector := (s.player q).destSector } else
      s.player q' := by
  unfold State.cross
  generalize hu : State.sendDespawns _ q _ = u
  have hplayer : u.player = s.player := by
    rw [← hu, sendDespawns_player, sendSpawns_player]
  change Function.update u.player q _ q' = _
  rw [Function.update_apply, hplayer]

end

/-! ### What the packets of a player leave alone -/

/-- A packet about a monster. -/
def Packet.OfMonster : Packet F → Prop
  | .monsterSpawn _ | .monsterSpawnBatch _ _ | .monsterDespawn _ | .monsterMoveStart _ _ _ _
  | .monsterMoveStop _ _ _
  | .monsterDamaged _ _ _ _ | .monsterAttack _ => True
  | _ => False

/-- The monsters and the sectors of the players are as they were, and nothing is said of a monster.
-/
structure Spares (s t : State F) : Prop where
  monster : t.monster = s.monster
  monsters : t.monsters = s.monsters
  players : ∀ q ∈ t.players, q ∈ s.players
  currentSector : ∀ q, (t.player q).currentSector = (s.player q).currentSector
  sent : ∃ ks, t.sent = s.sent ++ ks ∧ ∀ k ∈ ks, ¬k.2.OfMonster

/-- No player sets out. -/
def Stands (s t : State F) : Prop := ∃ es, t.history = s.history ++ es ∧ ∀ q, Event.moveStart q ∉ es

/-- What a packet does, one effect after the other, unless a player sets out. -/
abbrev Replies (s t : State F) : Prop :=
  Relation.ReflTransGen (fun s t => Act s t ∧ Spares s t ∧ Stands s t) s t

/-- A MOVE_START of `q` is accepted. -/
inductive SetsOut (q : ℕ) (s : State F) : State F → Prop
  | mk (p : Player F) (packetPos : Position F) (direction : ℤ) (hq : q ∈ s.players)
      (hstate : (s.player q).state = .idle ∨ (s.player q).state = .attack ∧
        PLAYER_ATTACK_TOTAL_FRAME - (s.player q).animFrame < ALLOW_DELAY_FRAME)
      (hsync : (s.player q).outOfSync packetPos = false)
      (hp : ((s.player q).place packetPos direction).changeState .move = .ok p)
      (hconnect : (s.player q).connect = true) :
      SetsOut q s (((s.setPlayer q p).record (.moveStart q)).broadcastMoveStart q
        p.currentSector.around)

section

variable {s t u : State F}

omit [Machine F] in
theorem Spares.refl (s : State F) : Spares s s :=
  ⟨rfl, rfl, fun _ hq => hq, fun _ => rfl, [], by simp, by simp⟩

omit [Machine F] in
theorem Spares.trans (h : Spares s t) (h' : Spares t u) : Spares s u := by
  obtain ⟨ks, hks, hk⟩ := h.sent
  obtain ⟨ls, hls, hl⟩ := h'.sent
  refine ⟨h'.monster.trans h.monster, h'.monsters.trans h.monsters, fun q hq => h.players q
    (h'.players q hq), fun q => (h'.currentSector q).trans (h.currentSector q), ks ++ ls, ?_, ?_⟩
  · rw [hls, hks, List.append_assoc]
  · intro k hmem
    rcases List.mem_append.mp hmem with hmem | hmem
    · exact hk k hmem
    · exact hl k hmem

omit [Machine F] in
theorem spares_of_eq (hm : t.monster = s.monster) (hms : t.monsters = s.monsters)
    (hp : t.player = s.player) (hps : t.players = s.players) (hsent : t.sent = s.sent) :
    Spares s t :=
  ⟨hm, hms, fun q hq => by rwa [hps] at hq, fun q => by rw [hp], [],
    by rw [hsent, List.append_nil], by simp⟩

omit [Machine F] in
theorem spares_setPlayer {q : ℕ} {p : Player F} (h : p.currentSector = (s.player q).currentSector) :
    Spares s (s.setPlayer q p) := by
  refine ⟨rfl, rfl, fun _ hq => hq, fun q' => ?_, [], (List.append_nil _).symm, by simp⟩
  rw [setPlayer_player]
  split_ifs with he
  · rw [he, h]
  · rfl

omit [Machine F] in
theorem spares_broadcast {near : List Sector} {skip : ℕ → Bool} {packet : Packet F}
    (h : ¬packet.OfMonster) :
    Spares s (s.broadcast near skip packet) := by
  refine ⟨rfl, rfl, fun _ hq => hq, fun _ => rfl, _, rfl, fun k hk => ?_⟩
  obtain ⟨q, -, rfl⟩ := List.mem_map.mp hk
  exact h

omit [Machine F] in
theorem spares_sendPost {q : ℕ} {packet : Packet F} (h : ¬packet.OfMonster) :
    Spares s (s.sendPost q packet) := by
  refine ⟨rfl, rfl, fun _ hq => hq, fun _ => rfl, [(q, packet)], rfl, fun k hk => ?_⟩
  rw [List.mem_singleton.mp hk]
  exact h

omit [Machine F] in
/-- A player is rewritten, this is recorded, and those around it are told. -/
theorem spares_announce {q : ℕ} {p : Player F} (h : p.currentSector = (s.player q).currentSector)
    (e : Event) {near : List Sector} {skip : ℕ → Bool} {packet : Packet F}
    (hk : ¬packet.OfMonster) :
    Spares s (((s.setPlayer q p).record e).broadcast near skip packet) := by
  have hrecord : Spares (s.setPlayer q p) ((s.setPlayer q p).record e) :=
    spares_of_eq rfl rfl rfl rfl rfl
  exact ((spares_setPlayer h).trans hrecord).trans (spares_broadcast hk)

omit [Machine F] in
theorem stands_of_eq (h : t.history = s.history) : Stands s t :=
  ⟨[], by rw [h, List.append_nil], by simp⟩

theorem replies_one (h : Act s t) (hs : Spares s t) (hh : Stands s t) : Replies s t :=
  .single ⟨h, hs, hh⟩

theorem Replies.acts (h : Replies s t) : Acts s t :=
  Relation.ReflTransGen.mono (fun _ _ => And.left) s t h

theorem Replies.spares (h : Replies s t) : Spares s t := by
  induction h with
  | refl => exact .refl s
  | tail _ ha ih => exact ih.trans ha.2.1

theorem SetsOut.act {q : ℕ} (h : SetsOut q s t) : Act s t := by
  obtain ⟨p, packetPos, direction, hq, hstate, hsync, hp, hconnect⟩ := h
  exact .moveStart q p packetPos direction hq hstate hsync hp hconnect

end

/-! ### The packets of a player -/

variable {s t : State F}

theorem acts_one (h : Act s t) : Acts s t := .single h

theorem replies_adjust {q : ℕ} (hq : q ∈ s.players) {p : Player F}
    (hp : p = { s.player q with
      syncCnt := p.syncCnt, pendingAttackTargets := p.pendingAttackTargets }) :
    Replies s (s.setPlayer q p) := by
  rw [hp]
  exact replies_one (.adjust q _ _ hq) (spares_setPlayer rfl) (stands_of_eq rfl)

theorem Replies.disconnectSession {u : State F} (h : Replies s u) (q : ℕ) :
    Replies s (u.disconnectSession q) :=
  h.tail ⟨.disconnectSession q, spares_of_eq rfl rfl rfl rfl rfl, stands_of_eq rfl⟩

theorem syncCheck_eq (p : Player F) (packetPos : Position F) :
    p.syncCheck packetPos = { p with syncCnt := (p.syncCheck packetPos).syncCnt } := by
  unfold Player.syncCheck Player.addSync
  dsimp only
  split_ifs <;> rfl

theorem place_currentSector (p : Player F) (packetPos : Position F) (direction : ℤ) :
    (p.place packetPos direction).currentSector = p.currentSector := by
  unfold Player.place
  rw [syncCheck_eq]

omit [Machine F] in
theorem changeState_eq {p p' : Player F} {state : PlayerState} (h : p.changeState state = .ok p') :
    state ≠ p.state ∧ p' = { p with state, animFrame := 0, startMovePos := p.pos } := by
  unfold Player.changeState at h
  obtain ⟨_, hne, h⟩ := bind_ok h
  cases h
  exact ⟨of_decide_eq_true (myAssert_ok hne), rfl⟩

/-- What a tick changes of a player. -/
theorem update_eq {p p' : Player F} (h : p.update = .ok p') :
    p' = { p with
      pos := p'.pos, startMovePos := p'.startMovePos, animFrame := p'.animFrame, state := p'.state
      hitStunFrame := p'.hitStunFrame } := by
  unfold Player.update at h
  dsimp only at h
  repeat' split at h
  all_goals first
    | (cases h; rfl)
    | (rw [(changeState_eq h).2])

/-- What a hit changes of a player. -/
theorem takeDamage_eq {p p' : Player F} {damage : ℤ} {m : Monster F}
    (h : p.takeDamage damage m = .ok p') :
    p' = { p with
      pos := p'.pos, startMovePos := p'.startMovePos, animFrame := p'.animFrame, state := p'.state
      hitStunFrame := p'.hitStunFrame, direction := p'.direction, hp := p'.hp } := by
  unfold Player.takeDamage at h
  dsimp only at h
  repeat' split at h
  all_goals first
    | (cases h; rfl)
    | (rw [(changeState_eq h).2])

omit [Machine F] in
theorem hasPlayer_ok {q : ℕ} {str : String} {u : Unit} (h : s.hasPlayer q str = .ok u) :
    q ∈ s.players :=
  of_decide_eq_true (myAssert_ok h)

theorem SetsOut.spares {q : ℕ} (h : SetsOut q s t) : Spares s t := by
  obtain ⟨p, packetPos, direction, hq, hstate, hsync, hp⟩ := h
  have hsame : p.currentSector = (s.player q).currentSector := by
    rw [(changeState_eq hp).2]
    exact place_currentSector (s.player q) packetPos direction
  exact spares_announce hsame _ id

theorem spares_moveStop {q : ℕ} {p : Player F} {packetPos : Position F} {direction : ℤ}
    (hp : (s.player q).state = .idle ∧ p = (s.player q).place packetPos direction ∨
      (s.player q).state = .move ∧
        ((s.player q).place packetPos direction).changeState .idle = .ok p) :
    Spares s
      (((s.setPlayer q p).record (.moveStop q)).broadcastMoveStop q p.currentSector.around) := by
  have hsame : p.currentSector = (s.player q).currentSector := by
    rcases hp with ⟨-, rfl⟩ | ⟨-, hp⟩
    · exact place_currentSector _ _ _
    · rw [(changeState_eq hp).2]
      exact place_currentSector (s.player q) packetPos direction
  exact spares_announce hsame _ id

omit [Machine F] in
theorem spares_attackReq {q : ℕ} {p : Player F} {state : PlayerState}
    (hp : (s.player q).changeState state = .ok p) (skillId : ℤ) :
    Spares s (((s.setPlayer q { p with pendingAttackSkillId := skillId }).record
      (.attackAccepted q)).broadcastPlayerAttack q p.currentSector.around) := by
  have hsame : p.currentSector = (s.player q).currentSector := by
    rw [(changeState_eq hp).2]
  apply spares_announce
  · exact hsame
  · exact id

theorem spares_damaged {q : ℕ} {p : Player F} {damage : ℤ} {m : Monster F}
    (hp : (s.player q).takeDamage damage m = .ok p) :
    Spares s (((s.setPlayer q p).record (.damaged q)).broadcastCharacterDamaged p m
      p.currentSector.around) := by
  have hsame : p.currentSector = (s.player q).currentSector := by
    rw [takeDamage_eq hp]
  exact spares_announce hsame _ id

omit [Machine F] in
theorem spares_loot (q : ℕ) (id : ℤ) :
    Spares s (((((s.setPlayer q ((s.player q).addItem (s.item id))).broadcastItemDespawn (s.item id)
      (s.item id).sector.around).sendLootRes q true (s.item id).itemId (s.item id).count).record
        (.looted q id)).removeItem id (s.item id).sector) := by
  have hset : Spares s (s.setPlayer q ((s.player q).addItem (s.item id))) := spares_setPlayer rfl
  have hsend : Spares (s.setPlayer q ((s.player q).addItem (s.item id)))
      (((s.setPlayer q ((s.player q).addItem (s.item id))).broadcastItemDespawn (s.item id)
        (s.item id).sector.around).sendLootRes q true (s.item id).itemId (s.item id).count) := by
    refine (spares_broadcast ?_).trans (spares_sendPost ?_) <;> exact fun hk => hk
  exact (hset.trans hsend).trans (spares_of_eq rfl rfl rfl rfl rfl)

theorem setsOut_start {x y : F} {direction : ℤ} {speed : F} {q : ℕ} (hq : q ∈ s.players)
    (hstate : (s.player q).state = .idle ∨ (s.player q).state = .attack ∧
      PLAYER_ATTACK_TOTAL_FRAME - (s.player q).animFrame < ALLOW_DELAY_FRAME)
    (hconnect : (s.player q).connect = true)
    (h : handleMoveStart.start s q x y direction speed (s.player q) = .ok t) : SetsOut q s t := by
  unfold handleMoveStart.start at h
  obtain ⟨_, hsync, h⟩ := bind_ok h
  obtain ⟨p, hp, h⟩ := bind_ok h
  obtain ⟨_, -, h⟩ := bind_ok h
  obtain ⟨near, hnear, h⟩ := bind_ok h
  obtain ⟨-, rfl⟩ := Sector.getAroundSectors_eq hnear
  cases h
  have hsync : (s.player q).outOfSync ⟨x, y⟩ = false := by
    simpa using myAssert_ok hsync
  exact .mk p ⟨x, y⟩ direction hq hstate hsync hp hconnect

theorem replies_handleMoveStart {msg : Message} {q : ℕ} (hconnect : (s.player q).connect = true)
    (h : handleMoveStart s msg q = .ok t) :
    Replies s t ∨ SetsOut q s t := by
  unfold handleMoveStart at h
  obtain ⟨⟨_, msg⟩, -, h⟩ := bind_ok h
  obtain ⟨⟨x, msg⟩, -, h⟩ := bind_ok h
  obtain ⟨⟨y, msg⟩, -, h⟩ := bind_ok h
  obtain ⟨⟨direction, msg⟩, -, h⟩ := bind_ok h
  obtain ⟨⟨speed, msg⟩, -, h⟩ := bind_ok h
  obtain ⟨_, hq, h⟩ := bind_ok h
  have hq := hasPlayer_ok hq
  dsimp only at h
  split at h
  iterate 3
    · cases h
      exact Or.inl .refl
  · next hstate =>
    split at h
    · cases h
      have hset : Replies s (s.setPlayer q
          ((s.player q).addSync (PLAYER_ATTACK_TOTAL_FRAME - (s.player q).animFrame).toNat)) :=
            replies_adjust hq rfl
      left
      split_ifs
      · exact hset.disconnectSession q
      · exact hset
    · next hdelay => exact Or.inr (setsOut_start hq (Or.inr ⟨hstate, by omega⟩) hconnect h)
  · next hstate => exact Or.inr (setsOut_start hq (Or.inl hstate) hconnect h)

theorem replies_handleMoveStop {msg : Message} {q : ℕ} (hconnect : (s.player q).connect = true)
    (h : handleMoveStop s msg q = .ok t) : Replies s t := by
  unfold handleMoveStop at h
  obtain ⟨⟨_, msg⟩, -, h⟩ := bind_ok h
  obtain ⟨⟨x, msg⟩, -, h⟩ := bind_ok h
  obtain ⟨⟨y, msg⟩, -, h⟩ := bind_ok h
  obtain ⟨⟨direction, msg⟩, -, h⟩ := bind_ok h
  obtain ⟨_, hq, h⟩ := bind_ok h
  have hq := hasPlayer_ok hq
  dsimp only at h
  -- a position that is accepted
  have hplace : ∀ p : Player F, (s.player q).outOfSync ⟨x, y⟩ = false →
      ((s.player q).state = .idle ∧ p = (s.player q).place ⟨x, y⟩ direction ∨
        (s.player q).state = .move ∧
          ((s.player q).place ⟨x, y⟩ direction).changeState .idle = .ok p) →
      (do
        let s := (s.setPlayer q p).record (.moveStop q)
        let nearSector ← getAroundSectors p.currentSector
        return s.broadcastMoveStop q nearSector) = Except.ok t → Replies s t := by
    intro p hsync hp h
    obtain ⟨near, hnear, h⟩ := bind_ok h
    obtain ⟨-, rfl⟩ := Sector.getAroundSectors_eq hnear
    cases h
    exact replies_one (.moveStop q p ⟨x, y⟩ direction hq hsync hp hconnect) (spares_moveStop hp)
      ⟨[.moveStop q], rfl, by simp⟩
  split at h
  iterate 3
    · cases h
      exact .refl
  all_goals
    next hstate =>
    obtain ⟨_, -, h⟩ := bind_ok h
    obtain ⟨_, -, h⟩ := bind_ok h
    obtain ⟨_, -, h⟩ := bind_ok h
    obtain ⟨_, -, h⟩ := bind_ok h
    split at h
    · cases h
      have hset : Replies s (s.setPlayer q ((s.player q).syncCheck ⟨x, y⟩)) :=
        replies_adjust hq (by rw [syncCheck_eq])
      exact hset.disconnectSession q
    · next hsync =>
      have hsync := Bool.eq_false_iff.mpr hsync
      have hsame : ((s.player q).place ⟨x, y⟩ direction).state = (s.player q).state := by
        unfold Player.place
        rw [syncCheck_eq]
      split at h
      · next hidle =>
        obtain ⟨p, hp, h⟩ := bind_ok h
        rw [hsame, hstate] at hidle
        first
          | exact absurd rfl hidle
          | exact hplace p hsync (Or.inr ⟨hstate, hp⟩) h
      · next hidle =>
        obtain ⟨p, hp, h⟩ := bind_ok h
        cases hp
        rw [hsame, hstate] at hidle
        first
          | exact hplace _ hsync (Or.inl ⟨hstate, rfl⟩) h
          | exact absurd (by decide) hidle

theorem replies_handleAttackReq {msg : Message} {q : ℕ} (h : handleAttackReq s msg q = .ok t) :
    Replies s t := by
  unfold handleAttackReq at h
  obtain ⟨⟨skillId, msg⟩, -, h⟩ := bind_ok h
  obtain ⟨⟨targetCnt, msg⟩, -, h⟩ := bind_ok h
  dsimp only at h
  have hrefuse : Replies s (s.disconnectSession q) := Replies.disconnectSession .refl q
  split at h
  · cases h
    exact hrefuse
  · split at h
    · cases h
      exact hrefuse
    · obtain ⟨_, hq, h⟩ := bind_ok h
      have hq := hasPlayer_ok hq
      split at h
      iterate 3
        · cases h
          exact .refl
      all_goals
        next hstate =>
        obtain ⟨near, hnear, h⟩ := bind_ok h
        obtain ⟨p, hp, h⟩ := bind_ok h
        obtain ⟨targets, -, h⟩ := bind_ok h
        obtain ⟨-, rfl⟩ := Sector.getAroundSectors_eq hnear
        cases h
        have hsame : p.currentSector = (s.player q).currentSector := by
          rw [(changeState_eq hp).2]
        have hreq := replies_one (.attackReq q p skillId hq
          (by first | exact Or.inl hstate | exact Or.inr hstate) hp) (spares_attackReq hp skillId)
          ⟨[.attackAccepted q], rfl, by simp⟩
        rw [← hsame]
        generalize hu : State.broadcastPlayerAttack _ q p.currentSector.around = u at hreq ⊢
        have hqu : q ∈ u.players := by
          rw [← hu]
          exact hq
        exact hreq.trans (replies_adjust hqu rfl)

theorem replies_handleLootReq {msg : Message} {q : ℕ} (h : handleLootReq s msg q = .ok t) :
    Replies s t := by
  unfold handleLootReq at h
  obtain ⟨⟨id, msg⟩, -, h⟩ := bind_ok h
  obtain ⟨_, hq, h⟩ := bind_ok h
  have hq := hasPlayer_ok hq
  dsimp only at h
  have hrefuse : Replies s (s.sendPost q (.lootRes 1 .max 0)) :=
    replies_one (.send q (.lootRes 1 .max 0) hq one_ne_zero) (spares_sendPost fun h => h)
      (stands_of_eq rfl)
  split at h
  · cases h
    exact hrefuse
  · next hid =>
    split at h
    · cases h
      exact hrefuse
    · obtain ⟨near, hnear, h⟩ := bind_ok h
      obtain ⟨_, hcell, h⟩ := bind_ok h
      obtain ⟨hgrid, rfl⟩ := Sector.getAroundSectors_eq hnear
      cases h
      exact replies_one (.loot q id hq (not_not.mp hid) hgrid
        (of_decide_eq_true (myAssert_ok hcell))) (spares_loot q id) ⟨[.looted q id], rfl, by simp⟩

/-- What a packet does. -/
theorem replies_fieldContentsPacketProc {msg : Message}
    {q : ℕ} (hconnect : (s.player q).connect = true) (h : fieldContentsPacketProc s msg q = .ok t) :
    Replies s t ∨ SetsOut q s t := by
  unfold fieldContentsPacketProc at h
  obtain ⟨⟨type, msg⟩, -, h⟩ := bind_ok h
  obtain ⟨_, -, h⟩ := bind_ok h
  split_ifs at h
  · exact replies_handleMoveStart hconnect h
  · exact Or.inl (replies_handleMoveStop hconnect h)
  · exact Or.inl (replies_handleAttackReq h)
  · exact Or.inl (replies_handleLootReq h)
  · unfold handleRankingReq at h
    obtain ⟨_, hq, h⟩ := bind_ok h
    cases h
    exact Or.inl (replies_one (.request q (hasPlayer_ok hq)) (spares_of_eq rfl rfl rfl rfl rfl)
      (stands_of_eq rfl))
  · cases h
    exact Or.inl (Replies.disconnectSession .refl q)

theorem acts_fieldContentsPacketProc {msg : Message}
    {q : ℕ} (hconnect : (s.player q).connect = true) (h : fieldContentsPacketProc s msg q = .ok t) :
    Acts s t := by
  rcases replies_fieldContentsPacketProc hconnect h with h | h
  · exact h.acts
  · exact acts_one h.act

/-! ### What a monster changes -/

omit [Machine F] in
theorem monster_changeState_eq {m m' : Monster F} {state : MonsterState}
    (h : m.changeState state = .ok m') :
    state ≠ m.state ∧ m' = { m with state, animFrame := 0, startMovePos := m.pos } := by
  unfold Monster.changeState at h
  obtain ⟨_, hne, h⟩ := bind_ok h
  cases h
  exact ⟨of_decide_eq_true (myAssert_ok hne), rfl⟩

/-- What a monster changes by itself. -/
def Monster.Ticks (m m' : Monster F) : Prop :=
  m' = { m with
    pos := m'.pos, startMovePos := m'.startMovePos, direction := m'.direction, state := m'.state
    animFrame := m'.animFrame, hp := m'.hp, hitStunFrame := m'.hitStunFrame }

omit [Machine F] in
theorem ticks_changeState {m m' : Monster F} {state : MonsterState}
    (h : m.changeState state = .ok m') : m.Ticks m' := by
  rw [(monster_changeState_eq h).2]
  rfl

omit [Machine F] in
theorem Monster.Ticks.trans {m m' m'' : Monster F} (h : m.Ticks m') (h' : m'.Ticks m'') :
    m.Ticks m'' := by
  unfold Monster.Ticks at *
  rw [h', h]

theorem ticks_idleUpdate {m m' : Monster F} {rands rands' : Rands}
    (h : m.idleUpdate rands = .ok (m', rands')) :
    m.Ticks m' := by
  unfold Monster.idleUpdate at h
  dsimp only at h
  split_ifs at h
  · obtain ⟨m1, h1, h⟩ := bind_ok h
    cases h
    rw [(monster_changeState_eq h1).2]
    rfl
  · obtain ⟨m1, h1, h⟩ := bind_ok h
    cases h
    rw [(monster_changeState_eq h1).2]
    rfl
  · cases h
    rfl

theorem ticks_patrolUpdate {m m' : Monster F} {rands rands' : Rands}
    (h : m.patrolUpdate rands = .ok (m', rands')) :
    m.Ticks m' := by
  unfold Monster.patrolUpdate at h
  dsimp only at h
  split_ifs at h
  · obtain ⟨m1, h1, h⟩ := bind_ok h
    cases h
    exact ticks_changeState h1
  · obtain ⟨m1, h1, h⟩ := bind_ok h
    cases h
    exact ticks_changeState h1
  · cases h
    rfl

theorem ticks_giveUpChase {m m' : Monster F} (h : m.giveUpChase = .ok m') : m.Ticks m' := by
  unfold Monster.giveUpChase at h
  split_ifs at h
  · exact ticks_changeState h
  · exact ticks_changeState h

theorem ticks_chaseUpdate {m m' : Monster F} {target : Position F}
    (h : m.chaseUpdate target = .ok m') : m.Ticks m' := by
  unfold Monster.chaseUpdate at h
  dsimp only at h
  split_ifs at h
  · exact ticks_giveUpChase h
  · rw [(monster_changeState_eq h).2]
    rfl
  · cases h
    rfl
  · cases h
    rfl

theorem ticks_returnUpdate {m m' : Monster F} (h : m.returnUpdate = .ok m') : m.Ticks m' := by
  unfold Monster.returnUpdate at h
  split_ifs at h
  · obtain ⟨m1, h1, h⟩ := bind_ok h
    cases h
    rw [(monster_changeState_eq h1).2]
    rfl
  · obtain ⟨m1, h1, h⟩ := bind_ok h
    cases h1
    cases h
    rfl
  · obtain ⟨m1, h1, h⟩ := bind_ok h
    cases h1
    cases h
    rfl

theorem ticks_update {m m' : Monster F} {rands rands' : Rands}
    (h : m.update rands = .ok (m', rands')) : m.Ticks m' := by
  have hframe : m.Ticks { m with animFrame := m.animFrame + 1 } := rfl
  apply hframe.trans
  unfold Monster.update at h
  dsimp only at h
  split at h
  · exact ticks_idleUpdate h
  · exact ticks_patrolUpdate h
  · obtain ⟨m1, h1, h⟩ := bind_ok h
    cases h
    exact ticks_chaseUpdate h1
  · obtain ⟨m1, h1, h⟩ := bind_ok h
    cases h
    unfold Monster.attackUpdate at h1
    split_ifs at h1
    · exact ticks_changeState h1
    · cases h1
      rfl
  · obtain ⟨m1, h1, h⟩ := bind_ok h
    cases h
    unfold Monster.stunUpdate at h1
    split_ifs at h1
    · cases h1
      rfl
    · exact ticks_changeState h1
  · obtain ⟨m1, h1, h⟩ := bind_ok h
    cases h
    unfold Monster.deadUpdate at h1
    split_ifs at h1
    · obtain ⟨m2, h2, h1⟩ := bind_ok h1
      cases h1
      rw [(monster_changeState_eq h2).2]
      rfl
    · cases h1
      rfl
  · obtain ⟨m1, h1, h⟩ := bind_ok h
    cases h
    exact ticks_returnUpdate h1

/-- What a tick of the field changes of a monster. -/
theorem nextMonster_eq {id : ℤ} {m : Monster F} {rands : Rands}
    (h : nextMonster s id = .ok (m, rands)) :
    m = { s.monster id with
      pos := m.pos, startMovePos := m.startMovePos, direction := m.direction, state := m.state
      animFrame := m.animFrame, hp := m.hp, hitStunFrame := m.hitStunFrame, targetPos := m.targetPos
      beforeState := (s.monster id).state, beforeDirection := (s.monster id).direction } := by
  unfold nextMonster at h
  dsimp only at h
  split_ifs at h
  · split at h
    · obtain ⟨m1, h1, h⟩ := bind_ok h
      cases h1
      rw [ticks_update h]
    · obtain ⟨m1, h1, h⟩ := bind_ok h
      rw [(ticks_giveUpChase h1).trans (ticks_update h)]
  · obtain ⟨m1, h1, h⟩ := bind_ok h
    cases h1
    rw [ticks_update h]

/-- What a hit changes of a monster. -/
theorem monster_takeDamage_eq {m m' : Monster F} {damage : ℤ} {p : Player F} {q : ℕ}
    (h : m.takeDamage damage p q = .ok m') :
    m' = { m with
      pos := m'.pos, startMovePos := m'.startMovePos, direction := m'.direction, state := m'.state
      animFrame := m'.animFrame, hp := m'.hp, hitStunFrame := m'.hitStunFrame
      targetPlayerID := m'.targetPlayerID } := by
  unfold Monster.takeDamage at h
  dsimp only at h
  repeat' split at h
  all_goals first
    | (cases h; rfl)
    | (rw [(monster_changeState_eq h).2])

theorem updateMonsterSectorCheck_eq (m : Monster F) :
    updateMonsterSectorCheck m =
      { m with destSector := (updateMonsterSectorCheck m).destSector } := by
  unfold updateMonsterSectorCheck
  dsimp only
  split_ifs <;> rfl

/-! ### `fieldUpdate` -/

theorem dropItem_dropped {m : Monster F} (h : dropItem s m = .ok t) : Dropped s m t := by
  unfold dropItem at h
  dsimp only at h
  split at h
  · next rands _ =>
    cases h
    exact (Dropped.nothing rands : Dropped s m _)
  · next itemId count rands _ =>
    obtain ⟨near, hnear, h⟩ := bind_ok h
    obtain ⟨-, rfl⟩ := Sector.getAroundSectors_eq hnear
    cases h
    exact (Dropped.item itemId count rands : Dropped s m _)

theorem Dropped.players {m : Monster F} (h : Dropped s m t) : t.players = s.players := by
  cases h <;> rfl

/-- A skill with one target hits none of a list of targets or one. -/
theorem acts_hitTargets {q : ℕ} (hq : q ∈ s.players) {rangeLen : F} {ids : List ℤ}
    (hids : ∀ id ∈ ids, (s.monster id).state ≠ .dead) (h : hitTargets q rangeLen ids 1 s = .ok t) :
    Acts s t ∧ t.players = s.players := by
  induction ids with
  | nil =>
    cases h
    exact ⟨.refl, rfl⟩
  | cons id ids ih =>
    unfold hitTargets at h
    dsimp only at h
    split at h
    · exact ih (fun id' hid' => hids id' (List.mem_cons_of_mem _ hid')) h
    · next hskip =>
      have hid : id ∈ s.monsters := by
        by_contra hno
        exact hskip (Or.inl hno)
      have hstate := hids id List.mem_cons_self
      obtain ⟨m, hm, h⟩ := bind_ok h
      obtain ⟨near, hnear, h⟩ := bind_ok h
      obtain ⟨hgrid, rfl⟩ := Sector.getAroundSectors_eq hnear
      split at h
      · next hdead =>
        obtain ⟨u, hu, h⟩ := bind_ok h
        obtain ⟨v, hv, rfl⟩ := map_ok hu
        cases h
        have hdrop := dropItem_dropped hv
        exact ⟨acts_one (.kill q id m v hq hid hstate hm hdead hgrid hdrop), hdrop.players⟩
      · next hdead =>
        cases h
        exact ⟨acts_one (.hit q id m hq hid hstate hm hdead hgrid), rfl⟩

theorem acts_processPlayerAttackHit {q : ℕ} (hq : q ∈ s.players)
    (h : processPlayerAttackHit s q = .ok t) :
    Acts (s.record (.attackHit q)) t ∧ t.players = s.players := by
  unfold processPlayerAttackHit at h
  dsimp only at h
  split at h
  · cases h
    exact ⟨.refl, rfl⟩
  · next rangeLen maxTargetCnt hskill =>
    have hcnt : maxTargetCnt = 1 := by
      unfold getSkillConfig at hskill
      split_ifs at hskill
      exact ((Prod.mk.inj (Option.some.inj hskill)).2).symm
    subst hcnt
    have htargets := fun hqs hids => acts_hitTargets hqs hids h
    obtain ⟨hacts, hplayers⟩ := htargets hq (by
      intro id hid
      rw [List.mem_mergeSort] at hid
      have hmem := of_decide_eq_true (List.mem_filter.mp hid).2
      exact hmem.2.1)
    exact ⟨.head (.adjust q _ _ hq) hacts, hplayers⟩

theorem acts_updateSectorChechk {q : ℕ} (hq : q ∈ s.players) : Acts s (updateSectorChechk s q) := by
  unfold updateSectorChechk
  dsimp only
  split_ifs with h
  · exact .refl
  · exact acts_one (.aim q hq h)

theorem updateSectorChechk_players (s : State F) (q : ℕ) :
    (updateSectorChechk s q).players = s.players := by
  unfold updateSectorChechk
  dsimp only
  split_ifs <;> rfl

/-- A tick of a player: the player, then what its attack hits. -/
theorem act_updatePlayer {q : ℕ} (hq : q ∈ s.players) (h : updatePlayer s q = .ok t) :
    ∃ u, PlayerAct q s u ∧ Acts u t ∧ t.players = s.players := by
  unfold updatePlayer at h
  obtain ⟨p, hp, h⟩ := bind_ok h
  dsimp only at h
  split at h
  · next hhit =>
    obtain ⟨u, hu, h⟩ := bind_ok h
    cases h
    have hqs : q ∈ (s.setPlayer q p).players := hq
    obtain ⟨hacts, hplayers⟩ := acts_processPlayerAttackHit hqs hu
    have hqu : q ∈ u.players := by
      rw [hplayers]
      exact hqs
    exact ⟨_, .attackHit p hq hp hhit.1 hhit.2, hacts.trans (acts_updateSectorChechk hqu),
      (updateSectorChechk_players _ _).trans hplayers⟩
  · next hhit =>
    cases h
    exact ⟨_, .update p hq hp hhit, acts_updateSectorChechk hq, updateSectorChechk_players _ _⟩

theorem acts_updateSector {q : ℕ} (hq : q ∈ s.players) (h : updateSector s q = .ok t) :
    Acts s t ∧ t.players = s.players := by
  unfold updateSector at h
  dsimp only at h
  split_ifs at h with hne
  · cases h
    exact ⟨.refl, rfl⟩
  · obtain ⟨_, -, h⟩ := bind_ok h
    obtain ⟨p, hp, h⟩ := bind_ok h
    unfold calcDespawnAndSpawnSector at hp
    obtain ⟨near, hnear, hp⟩ := bind_ok hp
    obtain ⟨near', hnear', hp⟩ := bind_ok hp
    obtain ⟨-, rfl⟩ := Sector.getAroundSectors_eq hnear
    obtain ⟨-, rfl⟩ := Sector.getAroundSectors_eq hnear'
    cases hp
    rw [calcDespawnAndSpawn_eq] at h
    cases h
    refine ⟨acts_one (.cross q hq hne), ?_⟩
    change (s.cross q).players = s.players
    obtain ⟨sent, hrest⟩ := cross_rest (s := s) q
    rw [hrest]

omit [Machine F] in
theorem mem_near_of_closestPlayer [Machine F] {pos : Position F} {qs : List ℕ} {dist : F}
    {closest : Option ℕ} {q : ℕ} (h : closestPlayer s pos qs dist closest = some q) :
    closest = some q ∨ q ∈ qs ∧ (s.player q).state ≠ .dead := by
  induction qs generalizing dist closest with
  | nil => exact Or.inl h
  | cons q' qs ih =>
    unfold closestPlayer at h
    dsimp only at h
    split_ifs at h with hq'
    · rcases ih h with he | ⟨hq, hs⟩
      · cases he
        exact Or.inr ⟨List.mem_cons_self, hq'.1⟩
      · exact Or.inr ⟨List.mem_cons_of_mem _ hq, hs⟩
    · rcases ih h with he | ⟨hq, hs⟩
      · exact Or.inl he
      · exact Or.inr ⟨List.mem_cons_of_mem _ hq, hs⟩

theorem replies_processMonsterAttackHit {m : Monster F} (h : processMonsterAttackHit s m = .ok t) :
    Replies s t := by
  unfold processMonsterAttackHit at h
  obtain ⟨near, hnear, h⟩ := bind_ok h
  obtain ⟨-, rfl⟩ := Sector.getAroundSectors_eq hnear
  split at h
  · cases h
    exact .refl
  · next q hclosest =>
    obtain ⟨p, hp, h⟩ := bind_ok h
    obtain ⟨near, hnear, h⟩ := bind_ok h
    obtain ⟨-, rfl⟩ := Sector.getAroundSectors_eq hnear
    cases h
    obtain ⟨hq, hstate⟩ := (mem_near_of_closestPlayer hclosest).resolve_left (by simp)
    exact replies_one (.damaged q m p hq hstate hp) (spares_damaged hp) ⟨[.damaged q], rfl, by simp⟩

/-- The closest player depends on the players alone. -/
theorem closestPlayer_congr (h : t.player = s.player) (pos : Position F) (qs : List ℕ) (dist : F)
    (closest : Option ℕ) :
    closestPlayer t pos qs dist closest = closestPlayer s pos qs dist closest := by
  induction qs generalizing dist closest with
  | nil => rfl
  | cons q qs ih =>
    unfold closestPlayer
    dsimp only
    rw [ih, ih, h]

/-- The player is hit after the monster is up to date. -/
theorem processMonsterAttackHit_setMonster
    {m : Monster F} (h : processMonsterAttackHit s m = .ok t) (id : ℤ) (m' : Monster F) :
    processMonsterAttackHit (s.setMonster id m') m = .ok (t.setMonster id m') := by
  unfold processMonsterAttackHit at h ⊢
  obtain ⟨near, hnear, h⟩ := bind_ok h
  rw [hnear]
  have hsame : (s.setMonster id m').near near = s.near near := rfl
  simp only [bind, Except.bind, hsame, closestPlayer_congr (s := s) (t := s.setMonster id m') rfl]
  generalize closestPlayer s m.pos (s.near near) Monster.MONSTER_ATTACK_RANGE none = closest at h ⊢
  cases closest with
  | none =>
    cases h
    rfl
  | some q =>
    obtain ⟨p, hp, h⟩ := bind_ok h
    obtain ⟨near', hnear', h⟩ := bind_ok h
    cases h
    change ((s.player q).takeDamage MONSTER_ATTACK_DAMAGE m >>= _) = _
    rw [hp]
    change (getAroundSectors p.currentSector >>= _) = _
    rw [hnear']
    rfl

/-- A monster after its tick, before it hits. -/
def State.ticked (s : State F) (id : ℤ) (m : Monster F) (rands : Rands) : State F :=
  { (s.setMonster id m).record (.monsterState none id (s.monster id).state m.state) with rands }

theorem updateMonster_bind {id : ℤ} : updateMonster s id = (do
    let (m, rands) ← nextMonster s id
    let s := s.ticked id m rands
    let s ← if m.state = .attack ∧ m.animFrame = MONSTER_ATTACK_WINDUP_FRAME then
        processMonsterAttackHit s m else pure s
    return s.setMonster id (updateMonsterSectorCheck m)) := by
  unfold updateMonster nextMonster
  dsimp only
  split_ifs
  · generalize possibleChasePlayer s (s.monster id).targetPlayerID = target
    cases target with
    | some targetPos => rfl
    | none => exact (bind_assoc _ _ _).symm
  · rfl

/-- A tick of a monster: the monster, then its hit if it is at that frame, then its sector. -/
theorem updateMonster_next {id : ℤ} (h : updateMonster s id = .ok t) :
    ∃ (m : Monster F) (rands : Rands), nextMonster s id = .ok (m, rands) ∧ ∃ u, t = u.setMonster id
        (updateMonsterSectorCheck m) ∧
      (m.state = .attack ∧ m.animFrame = MONSTER_ATTACK_WINDUP_FRAME ∧
          processMonsterAttackHit (s.ticked id m rands) m = .ok u ∨
        ¬(m.state = .attack ∧ m.animFrame = MONSTER_ATTACK_WINDUP_FRAME) ∧
          u = s.ticked id m rands) := by
  rw [updateMonster_bind] at h
  obtain ⟨⟨m, rands⟩, hm, h⟩ := bind_ok h
  refine ⟨m, rands, hm, ?_⟩
  dsimp only at h
  split at h
  · next hhit =>
    obtain ⟨u, hu, h⟩ := bind_ok h
    cases h
    exact ⟨u, rfl, Or.inl ⟨hhit.1, hhit.2, hu⟩⟩
  · next hhit =>
    cases h
    exact ⟨_, rfl, Or.inr ⟨hhit, rfl⟩⟩

/-- A tick of a monster: the monster and its sector, then the player that it hits. -/
theorem updateMonster_cases {id : ℤ} (h : updateMonster s id = .ok t) :
    ∃ (m : Monster F) (rands : Rands), nextMonster s id = .ok (m, rands) ∧
      Replies { (s.setMonster id (updateMonsterSectorCheck m)).record
        (.monsterState none id (s.monster id).state m.state) with rands } t := by
  obtain ⟨m, rands, hm, u, rfl, hu⟩ := updateMonster_next h
  refine ⟨m, rands, hm, ?_⟩
  have hset : (s.ticked id m rands).setMonster id (updateMonsterSectorCheck m) =
      { (s.setMonster id (updateMonsterSectorCheck m)).record
        (.monsterState none id (s.monster id).state m.state) with
        rands } := by
    simp only [State.ticked, State.setMonster, State.record, Function.update_idem]
  rcases hu with ⟨-, -, hu⟩ | ⟨-, rfl⟩
  · have hhit := replies_processMonsterAttackHit
      (processMonsterAttackHit_setMonster hu id (updateMonsterSectorCheck m))
    rw [hset] at hhit
    exact hhit
  · rw [hset]

omit [Machine F] in
theorem calcMonsterDespawnAndSpawnSector_ok {dest current : Sector} {p : List Sector × List Sector}
    (h : calcMonsterDespawnAndSpawnSector dest current = .ok p) :
    p = (dest.around.diff current.around, current.around.diff dest.around) := by
  unfold calcMonsterDespawnAndSpawnSector at h
  obtain ⟨near, hnear, h⟩ := bind_ok h
  obtain ⟨near', hnear', h⟩ := bind_ok h
  obtain ⟨-, rfl⟩ := Sector.getAroundSectors_eq hnear
  obtain ⟨-, rfl⟩ := Sector.getAroundSectors_eq hnear'
  cases h
  exact calcDespawnAndSpawn_eq _ _

omit [Machine F] in
theorem updateMonsterSector_cases {id : ℤ} (h : updateMonsterSector s id = .ok t) :
    t = s ∧
      ((s.monster id).beforeState = .dead ∨ (s.monster id).sector = (s.monster id).destSector) ∨
      (s.monster id).beforeState ≠ .dead ∧ (s.monster id).sector ≠
    (s.monster id).destSector ∧ t = s.crossMonster id := by
  unfold updateMonsterSector at h
  dsimp only at h
  split at h
  · next hcross =>
    obtain ⟨_, -, h⟩ := bind_ok h
    obtain ⟨p, hp, h⟩ := bind_ok h
    obtain rfl := calcMonsterDespawnAndSpawnSector_ok hp
    cases h
    exact Or.inr ⟨hcross.1, hcross.2, rfl⟩
  · next hstay =>
    cases h
    exact Or.inl ⟨rfl, by tauto⟩

omit [Machine F] in
theorem act_updateItem {id : ℤ} (hid : id ∈ s.items) (h : updateItem s id = .ok t) :
    ItemAct id s t := by
  unfold updateItem at h
  dsimp only at h
  split at h
  · next hlife =>
    obtain ⟨near, hnear, h⟩ := bind_ok h
    obtain ⟨hgrid, rfl⟩ := Sector.getAroundSectors_eq hnear
    cases h
    exact ItemAct.expire (s := s) hid hlife hgrid
  · next hlife =>
    cases h
    exact .update hid (Bool.eq_false_iff.mpr hlife)

/-! ### `monsterProc` -/

omit [Machine F] in
theorem moveMonster_monster (s : State F) (id : ℤ) (m : Monster F) :
    (s.moveMonster id m).monster id = { m with sector := m.destSector } :=
  Function.update_self _ _ _

omit [Machine F] in
theorem act_procMonster {id : ℤ} (hid : id ∈ s.monsters) (h : procMonster s id = .ok t) :
    t = s ∧ (s.monster id).state = (s.monster id).beforeState ∨ ProcAct id s t := by
  unfold procMonster at h
  dsimp only at h
  split at h
  · next hsame =>
    cases h
    exact Or.inl ⟨rfl, hsame.1⟩
  · obtain ⟨u, hu, h⟩ := bind_ok h
    cases h
    right
    unfold monsterPackets at hu
    dsimp only at hu
    -- a state in which the monster moves
    have hmoving : (s.monster id).state.Moving →
        (do
          let nearSector ← getAroundSectors (s.monster id).sector
          let wasMoving := (s.monster id).beforeState = .move ∨
            (s.monster id).beforeState = .chase ∨
            (s.monster id).beforeState = .return
          let s' := if wasMoving then s.broadcastMonsterMoveStop (s.monster id) nearSector else s
          return s'.broadcastMonsterMoveStart (s.monster id) nearSector) = Except.ok u →
        ProcAct id s (u.setMonster id
          { u.monster id with
            beforeState := (u.monster id).state, beforeDirection := (u.monster id).direction }) := by
      intro hstate hu
      obtain ⟨near, hnear, hu⟩ := bind_ok hu
      obtain ⟨-, rfl⟩ := Sector.getAroundSectors_eq hnear
      dsimp only at hu
      split at hu
      · next hbefore =>
        cases hu
        exact .moveAgain hid hstate hbefore
      · next hbefore =>
        cases hu
        exact .moveStart hid hstate hbefore
    split at hu
    · next hstate => exact hmoving (Or.inl hstate) hu
    · next hstate => exact hmoving (Or.inr (Or.inl hstate)) hu
    · next hstate => exact hmoving (Or.inr (Or.inr hstate)) hu
    · next hstate =>
      obtain ⟨near, hnear, hu⟩ := bind_ok hu
      obtain ⟨-, rfl⟩ := Sector.getAroundSectors_eq hnear
      cases hu
      exact .attack hid hstate
    · next hstate =>
      split at hu
      · next hbefore =>
        obtain ⟨near, hnear, hu⟩ := bind_ok hu
        obtain ⟨-, rfl⟩ := Sector.getAroundSectors_eq hnear
        split at hu
        · next hne =>
          obtain ⟨_, -, hu⟩ := bind_ok hu
          obtain ⟨v, hv, hu⟩ := bind_ok hu
          obtain ⟨near', hnear', hu⟩ := bind_ok hu
          obtain ⟨-, rfl⟩ := Sector.getAroundSectors_eq hnear'
          cases hv
          cases hu
          have hact := ProcAct.respawnAway hid hstate hbefore hne
          simp only [moveMonster_monster] at hact ⊢
          exact hact
        · next hne =>
          obtain ⟨v, hv, hu⟩ := bind_ok hu
          obtain ⟨near', hnear', hu⟩ := bind_ok hu
          obtain ⟨-, rfl⟩ := Sector.getAroundSectors_eq hnear'
          cases hv
          cases hu
          exact .respawn hid hstate hbefore (not_not.mp hne)
      · next hbefore =>
        obtain ⟨near, hnear, hu⟩ := bind_ok hu
        obtain ⟨-, rfl⟩ := Sector.getAroundSectors_eq hnear
        cases hu
        exact .moveStop hid hstate hbefore
    · next hstate =>
      cases hu
      exact .settle hid (Or.inl hstate)
    · next hstate =>
      cases hu
      exact .settle hid (Or.inr hstate)

omit [Machine F] in
theorem ProcAct.monsters {id : ℤ} (h : ProcAct id s t) : t.monsters = s.monsters := by
  cases h <;> rfl

/-! ### Loops -/

theorem ticks_updatePlayer {q : ℕ} (hq : q ∈ s.players) (h : updatePlayer s q = .ok t) :
    Ticks s t ∧ t.players = s.players := by
  obtain ⟨u, hu, hacts, hplayers⟩ := act_updatePlayer hq h
  exact ⟨.head (Or.inr ⟨q, hu⟩) hacts.calms.ticks, hplayers⟩

theorem ticks_updatePlayers (h : s.players.foldlM updatePlayer s = .ok t) :
    Ticks s t ∧ t.players = s.players := by
  apply foldlM_keeps (P := fun u => Ticks s u ∧ u.players = s.players) _ ⟨.refl, rfl⟩ h
  intro u v q hq hu hv
  rw [← hu.2] at hq
  obtain ⟨hticks, hplayers⟩ := ticks_updatePlayer hq hv
  exact ⟨hu.1.trans hticks, hplayers.trans hu.2⟩

theorem acts_updateSectors (h : s.players.foldlM updateSector s = .ok t) :
    Acts s t ∧ t.players = s.players := by
  apply foldlM_keeps (P := fun u => Acts s u ∧ u.players = s.players) _ ⟨.refl, rfl⟩ h
  intro u v q hq hu hv
  rw [← hu.2] at hq
  obtain ⟨hacts, hplayers⟩ := acts_updateSector hq hv
  exact ⟨hu.1.trans hacts, hplayers.trans hu.2⟩

theorem calms_updateMonster {id : ℤ} (hid : id ∈ s.monsters) (h : updateMonster s id = .ok t) :
    Calms s t ∧ t.monsters = s.monsters := by
  obtain ⟨m, rands, hm, hreplies⟩ := updateMonster_cases h
  exact ⟨.head (Or.inr ⟨id, .update m rands hid hm⟩) hreplies.acts.calms, hreplies.spares.monsters⟩

theorem calms_updateMonsters (h : s.monsters.foldlM updateMonster s = .ok t) :
    Calms s t ∧ t.monsters = s.monsters := by
  apply foldlM_keeps (P := fun u => Calms s u ∧ u.monsters = s.monsters) _ ⟨.refl, rfl⟩ h
  intro u v id hid hu hv
  rw [← hu.2] at hid
  obtain ⟨hcalms, hmonsters⟩ := calms_updateMonster hid hv
  exact ⟨hu.1.trans hcalms, hmonsters.trans hu.2⟩

theorem calms_updateMonsterSector {id : ℤ} (hid : id ∈ s.monsters)
    (h : updateMonsterSector s id = .ok t) :
    Calms s t ∧ t.monsters = s.monsters := by
  rcases updateMonsterSector_cases h with ⟨rfl, -⟩ | ⟨hstate, hne, rfl⟩
  · exact ⟨.refl, rfl⟩
  · exact ⟨.single (Or.inr ⟨id, .cross hid hstate hne⟩), rfl⟩

theorem calms_updateMonsterSectors (h : s.monsters.foldlM updateMonsterSector s = .ok t) :
    Calms s t ∧ t.monsters = s.monsters := by
  apply foldlM_keeps (P := fun u => Calms s u ∧ u.monsters = s.monsters) _ ⟨.refl, rfl⟩ h
  intro u v id hid hu hv
  rw [← hu.2] at hid
  obtain ⟨hcalms, hmonsters⟩ := calms_updateMonsterSector hid hv
  exact ⟨hu.1.trans hcalms, hmonsters.trans hu.2⟩

theorem calms_procMonster {id : ℤ} (hid : id ∈ s.monsters) (h : procMonster s id = .ok t) :
    Calms s t ∧ t.monsters = s.monsters := by
  rcases act_procMonster hid h with ⟨rfl, -⟩ | hact
  · exact ⟨.refl, rfl⟩
  · exact ⟨.single (Or.inr ⟨id, .proc hact⟩), hact.monsters⟩

theorem calms_monsterProc (h : monsterProc s = .ok t) : Calms s t ∧ t.monsters = s.monsters := by
  apply foldlM_keeps (P := fun u => Calms s u ∧ u.monsters = s.monsters) _ ⟨.refl, rfl⟩ h
  intro u v id hid hu hv
  rw [← hu.2] at hid
  obtain ⟨hcalms, hmonsters⟩ := calms_procMonster hid hv
  exact ⟨hu.1.trans hcalms, hmonsters.trans hu.2⟩

omit [Machine F] in
theorem ItemAct.items {id : ℤ} (h : ItemAct id s t) :
    t.items = s.items ∨ t.items = s.items.erase id := by
  cases h
  · exact Or.inl rfl
  · exact Or.inr rfl

omit [Machine F] in
/-- Every item is looked at once. -/
theorem itemActs_updateItems {ids : List ℤ} (hnd : s.items.Nodup) (hids : ids.Nodup)
    (hsub : ∀ id ∈ ids, id ∈ s.items) (h : ids.foldlM updateItem s = .ok t) : ItemActs s t := by
  induction ids generalizing s with
  | nil =>
    cases h
    exact .refl
  | cons id ids ih =>
    obtain ⟨u, hu, h⟩ := foldlM_cons_ok h
    obtain ⟨hnot, hids⟩ := List.nodup_cons.mp hids
    have hact := act_updateItem (hsub id List.mem_cons_self) hu
    refine .head ⟨id, hact⟩ (ih ?_ hids ?_ h)
    · rcases hact.items with he | he
      · rw [he]
        exact hnd
      · rw [he]
        exact hnd.erase id
    · intro id' hid'
      have hmem := hsub id' (List.mem_cons_of_mem _ hid')
      rcases hact.items with he | he
      · rw [he]
        exact hmem
      · rw [he, hnd.mem_erase_iff]
        refine ⟨?_, hmem⟩
        rintro rfl
        exact hnot hid'

/-- A tick up to the items. -/
theorem fieldUpdate_cases (h : fieldUpdate s = .ok t) :
    ∃ u, Ticks (s.record .fieldUpdate) u ∧ u.items.foldlM updateItem u = .ok t := by
  unfold fieldUpdate at h
  obtain ⟨s1, h1, h⟩ := bind_ok h
  obtain ⟨s2, h2, h⟩ := bind_ok h
  obtain ⟨s3, h3, h⟩ := bind_ok h
  obtain ⟨s4, h4, h⟩ := bind_ok h
  have hs2 : Ticks (s.record .fieldUpdate) s2 :=
    (ticks_updatePlayers h1).1.trans (acts_updateSectors h2).1.calms.ticks
  have hs4 : Calms s2 s4 := (calms_updateMonsters h3).1.trans (calms_updateMonsterSectors h4).1
  exact ⟨s4, hs2.trans hs4.ticks, h⟩

theorem stays_fieldUpdate (hnd : ∀ u, Stays s u → u.items.Nodup) (h : fieldUpdate s = .ok t) :
    Stays s t := by
  obtain ⟨u, hu, h⟩ := fieldUpdate_cases h
  have hstays : Stays s u :=
    Relation.ReflTransGen.head (Or.inl (Or.inl (Or.inl .fieldUpdate))) hu.stays
  have hitems := hnd u hstays
  exact hstays.trans (itemActs_updateItems hitems hitems (fun _ => id) h).stays

/-! ### Leaving, and what the others do -/

theorem acts_saveDisconnected {q : ℕ} (hq : q ∈ s.players) (hconnect : (s.player q).connect = false)
    (h : saveDisconnected s q = .ok t) : Acts s t := by
  unfold saveDisconnected at h
  obtain ⟨_, -, h⟩ := bind_ok h
  split_ifs at h
  · cases h
    exact .refl
  · unfold requestPositionSave at h
    obtain ⟨_, hpending, h⟩ := bind_ok h
    cases h
    exact acts_one (.save q hq hconnect (of_decide_eq_true (myAssert_ok hpending)))

omit [Machine F] in
theorem saveDisconnected_keeps {q : ℕ} (h : saveDisconnected s q = .ok t) :
    t.players = s.players ∧ ∀ q', (t.player q').connect = (s.player q').connect := by
  unfold saveDisconnected at h
  obtain ⟨_, -, h⟩ := bind_ok h
  split_ifs at h
  · cases h
    exact ⟨rfl, fun _ => rfl⟩
  · unfold requestPositionSave at h
    obtain ⟨_, -, h⟩ := bind_ok h
    cases h
    refine ⟨rfl, fun q' => ?_⟩
    change (Function.update s.player q _ q').connect = _
    rw [Function.update_apply]
    split_ifs with hq
    · rw [hq]
    · rfl

theorem acts_checkDisConnected (h : checkDisConnectedAndLeavePlayer s = .ok t) : Acts s t := by
  have hloop := foldlM_keeps (P := fun u => Acts s u ∧ u.players = s.players ∧
    ∀ q', (u.player q').connect = (s.player q').connect) ?_ ⟨.refl, rfl, fun _ => rfl⟩ h
  · exact hloop.1
  · intro u v q hq hu hv
    obtain ⟨hmem, hconnect⟩ := List.mem_filter.mp (List.mem_of_mem_take hq)
    have hkeeps := saveDisconnected_keeps hv
    refine ⟨hu.1.trans (acts_saveDisconnected ?_ ?_ hv), hkeeps.1.trans hu.2.1,
      fun q' => (hkeeps.2 q').trans (hu.2.2 q')⟩
    · rw [hu.2.1]
      exact hmem
    · rw [hu.2.2]
      simpa using hconnect

omit [Machine F] in
/-- A result removes the player whose position has been saved, or tells somebody the ranking, or
does nothing. -/
theorem dbResult_cases {result : DBResult} (h : dbResult s result = .ok t) :
    (∀ q ∈ s.players, result ≠ .positionSave q) ∧
        (t = s ∨ ∃ (q : ℕ) (packet : Packet F), q ∈ s.players ∧ packet.Private ∧
            t = s.sendPost q packet) ∨
      ∃ q ∈ s.players, result = .positionSave q ∧ t = s.handBack q := by
  unfold dbResult at h
  cases result with
  | positionSave q =>
    dsimp only at h
    unfold positionSaved at h
    split at h
    · next hq =>
      cases h
      refine Or.inl ⟨fun q' hq' he => ?_, Or.inl rfl⟩
      cases he
      exact hq hq'
    · next hq =>
      obtain ⟨_, -, h⟩ := bind_ok h
      cases h
      refine Or.inr ⟨q, not_not.mp hq, rfl, ?_⟩
      simp only [State.handBack, State.leave, State.notifyDisconnect, State.record, State.setPlayer,
        Function.update_self]
  | killCountUpdate q =>
    cases h
    exact Or.inl ⟨fun _ _ he => (by cases he), Or.inl rfl⟩
  | rankingQuery q entries myRank myKillCount =>
    dsimp only at h
    left
    refine ⟨fun _ _ he => (by cases he), ?_⟩
    split_ifs at h with hq
    · cases h
      exact Or.inr ⟨q, .rankingRes entries.length entries myRank myKillCount, hq, trivial, rfl⟩
    · cases h
      exact Or.inl rfl

theorem effects_dbResultPacketProc (h : dbResultPacketProc s = .ok t) : Effects s t := by
  unfold dbResultPacketProc at h
  have hstart : Effects s { s with dbResQ := [] } := .single (Or.inr (Or.inl rfl))
  apply foldlM_keeps (P := fun u => Effects s u) _ hstart h
  intro u v result _ hu hv
  rcases dbResult_cases hv with ⟨-, rfl | ⟨q, packet, hq, hp, rfl⟩⟩ | ⟨q, hq, -, rfl⟩
  · exact hu
  · exact hu.trans (acts_one (.send q packet hq hp)).calms.ticks.stays.effects
  · exact hu.tail (Or.inr (Or.inr ⟨q, hq, rfl⟩))

/-- `handleRegisterPlayer` puts the new player into its sector and tells those around. -/
theorem handleRegisterPlayer_eq {q : ℕ}
    {accountNo characterID : ℤ} {pos : Position F} {nickname : List UInt8}
    (h : handleRegisterPlayer s (.login q accountNo characterID pos nickname) = .ok t) :
    t = (s.enter q (entered q accountNo characterID pos nickname)).sendSpawns q
      (calcSector pos).around := by
  unfold handleRegisterPlayer at h
  dsimp only at h
  obtain ⟨_, -, h⟩ := bind_ok h
  obtain ⟨u, hu, h⟩ := bind_ok h
  obtain ⟨near, hnear, h⟩ := bind_ok h
  unfold enterSector at hu
  dsimp only at hu
  obtain ⟨_, -, hu⟩ := bind_ok hu
  cases hu
  obtain ⟨-, rfl⟩ := Sector.getAroundSectors_eq hnear
  cases h
  simp only [State.enter, State.setPlayer, entered, Player.login, Function.update_self,
    Function.update_idem]

theorem acts_handleRegisterPlayer
    {q : ℕ} {accountNo characterID : ℤ} {pos : Position F} {nickname : List UInt8} (hq : q ∉ s.met)
    (hid : ∀ q' ∈ s.players, (s.player q').characterID ≠ characterID)
    (h : handleRegisterPlayer s (.login q accountNo characterID pos nickname) = .ok t) :
    Acts s t := by
  obtain rfl := handleRegisterPlayer_eq h
  exact acts_one (.enter q accountNo characterID pos nickname hq hid)

/-- A step of the field is a sequence of effects, a tick, a removal of players, or the end of a
session. -/
theorem step_cases {l : Step F} (h : step s l = some (.ok t)) :
    Calms s t ∨ l = .fieldUpdate ∧ fieldUpdate s = .ok t ∨
      l = .dbResults ∧ dbResultPacketProc s = .ok t ∨
      ∃ q, l = .onRelease q ∧ t = s.disconnect q := by
  have hperm : ∀ (players : List ℕ) (sectors : Sector → List ℕ) (monsters : List ℤ)
      (monsterSectors : Sector → List ℤ) (items : List ℤ) (itemSectors : Sector → List ℤ),
      players.Perm s.players →
      (∀ c, (sectors c).Perm (s.sectors c)) → monsters.Perm s.monsters →
      (∀ c, (monsterSectors c).Perm (s.monsterSectors c)) → items.Perm s.items →
      (∀ c, (itemSectors c).Perm (s.itemSectors c)) →
      Calms s { s with players, sectors, monsters, monsterSectors, items, itemSectors } :=
    fun _ _ _ _ _ _ h1 h2 h3 h4 h5 h6 => .single (Or.inl (.rehash _ _ _ _ _ _ h1 h2 h3 h4 h5 h6))
  have hcell : ∀ {α : Type} (cells : Sector → List α) (c : Sector) (l : List α), l.Perm (cells c) →
      ∀ c', (Function.update cells c l c').Perm (cells c') := by
    intro α cells c l hl c'
    rw [Function.update_apply]
    split_ifs with hc
    · rw [hc]
      exact hl
    · exact .refl _
  unfold step at h
  cases l with
  | registerPlayer q accountNo characterID pos nickname =>
    dsimp only at h
    split_ifs at h with hnew
    exact Or.inl (acts_handleRegisterPlayer hnew.1 hnew.2 (Option.some.inj h)).calms
  | contentsPacket q msg =>
    dsimp only at h
    split_ifs at h with hq
    exact Or.inl (acts_fieldContentsPacketProc hq.2 (Option.some.inj h)).calms
  | fieldUpdate => exact Or.inr (Or.inl ⟨rfl, Option.some.inj h⟩)
  | monsterProc => exact Or.inl (calms_monsterProc (Option.some.inj h)).1
  | checkDisConnected => exact Or.inl (acts_checkDisConnected (Option.some.inj h)).calms
  | dbResults => exact Or.inr (Or.inr (Or.inl ⟨rfl, Option.some.inj h⟩))
  | onRelease q =>
    cases h
    exact Or.inr (Or.inr (Or.inr ⟨q, rfl, rfl⟩))
  | dbDequeue =>
    dsimp only at h
    split at h
    · next job dbReqQ hjob hqueue =>
      cases h
      exact Or.inl (.single (Or.inl (.dbDequeue job dbReqQ hjob hqueue)))
    · cases h
  | dbAnswer ranking =>
    dsimp only at h
    split at h
    · cases h
    · next job hjob =>
      cases h
      exact Or.inl (.single (Or.inl (.dbAnswer job ranking hjob)))
  | rehashPlayers players =>
    dsimp only at h
    split_ifs at h with hp
    cases h
    left
    exact hperm _ _ _ _ _ _ hp (fun _ => .refl _) (.refl _) (fun _ => .refl _)
      (.refl _) fun _ => .refl _
  | rehashSector c players =>
    dsimp only at h
    split_ifs at h with hp
    cases h
    left
    exact hperm _ _ _ _ _ _ (.refl _) (hcell _ c _ hp) (.refl _) (fun _ => .refl _)
      (.refl _) fun _ => .refl _
  | rehashMonsters monsters =>
    dsimp only at h
    split_ifs at h with hp
    cases h
    left
    exact hperm _ _ _ _ _ _ (.refl _) (fun _ => .refl _) hp (fun _ => .refl _)
      (.refl _) fun _ => .refl _
  | rehashMonsterSector c monsters =>
    dsimp only at h
    split_ifs at h with hp
    cases h
    left
    exact hperm _ _ _ _ _ _ (.refl _) (fun _ => .refl _) (.refl _) (hcell _ c _ hp)
      (.refl _) fun _ => .refl _
  | rehashItems items =>
    dsimp only at h
    split_ifs at h with hp
    cases h
    left
    exact hperm _ _ _ _ _ _ (.refl _) (fun _ => .refl _) (.refl _)
      (fun _ => .refl _) hp fun _ => .refl _
  | rehashItemSector c items =>
    dsimp only at h
    split_ifs at h with hp
    cases h
    left
    exact hperm _ _ _ _ _ _ (.refl _) (fun _ => .refl _) (.refl _) (fun _ => .refl _) (.refl _)
      (hcell _ c _ hp)

theorem stays_step {l : Step F} (hnd : ∀ u, Stays s u → u.items.Nodup)
    (h : step s l = some (.ok t)) :
    Stays s t ∨ l = .dbResults ∧ dbResultPacketProc s = .ok t := by
  rcases step_cases h with h | ⟨-, h⟩ | h | ⟨q, -, rfl⟩
  · exact Or.inl h.ticks.stays
  · exact Or.inl (stays_fieldUpdate hnd h)
  · exact Or.inr h
  · exact Or.inl (.single (Or.inr (Or.inr ⟨q, rfl⟩)))

theorem effects_step {l : Step F} (hnd : ∀ u, Stays s u → u.items.Nodup)
    (h : step s l = some (.ok t)) :
    Effects s t := by
  rcases stays_step hnd h with h | ⟨-, h⟩
  · exact h.effects
  · exact effects_dbResultPacketProc h

/-! ### The system -/

/-- The steps of the field thread that end in a state; the process does not survive the others. -/
def field : System (State F) (Step F) where
  init s := ∃ rands, s = spawnMonsters (empty rands)
  next s l := match step s l with
    | some (.ok t) => some t
    | _ => none

theorem field_next {l : Step F} : field.next s l = some t ↔ step s l = some (.ok t) := by
  unfold field
  dsimp only
  split
  · next h => simp [h]
  · next h =>
    constructor
    · intro he
      cases he
    · intro he
      exact absurd he (h t)

/-- What the effects keep holds in every run. -/
theorem field_keeps {P : State F → Prop} (hinit : ∀ rands, P (spawnMonsters (empty rands)))
    (hnd : ∀ s, P s → s.items.Nodup) (hact : ∀ {s t}, P s → Act s t → P t)
    (hmonster : ∀ {id s t}, P s → MonsterAct id s t → P t)
    (hplayer : ∀ {q s t}, P s → PlayerAct q s t → P t)
    (hitem : ∀ {id s t}, P s → ItemAct id s t → P t)
    (hend : ∀ {s : State F} {q}, P s → P (s.disconnect q))
    (htake : ∀ {s : State F}, P s → P { s with dbResQ := [] })
    (hleave : ∀ {s : State F} {q}, P s → q ∈ s.players → P (s.handBack q)) (h : field.Reachable s) :
    P s := by
  have hstays : ∀ {s t}, P s → Stays s t → P t :=
    fun hs hst => hst.keeps hact hmonster hplayer hitem hend hs
  have hinv : field.Invariant P := by
    constructor
    · intro s hs
      obtain ⟨rands, hs⟩ := hs
      rw [hs]
      exact hinit rands
    · intro s t l hs he
      have heff := effects_step (fun u hu => hnd u (hstays hs hu)) (field_next.mp he)
      apply heff.keeps _ htake hleave hs
      intro s t hs hst
      exact hstays hs (.single hst)
  exact hinv.reachable h

end

end Field
end MyMMO
