/-
# The sector index

`sectors`, `monsterSectors` and `itemSectors` hold everybody once, in the cell of its sector
(`Exact`), and between two operations of the field thread a player is where it is to be (`Still`).
So no operation looks for somebody in a cell in vain (`sectors_exact`): a function that fails, fails
in another assertion (`Other`).
-/
import MyMMO.FieldIndex
import MyMMO.Players

namespace MyMMO
namespace Field

open Outcome
open Sector (getAroundSectors)

variable {F : Type}

/-- The assertions that somebody is in its cell, or not in it yet. -/
def sectorAssertions : List String :=
  ["이동전 섹터에 player이 없다.", "이동전 섹터에 monster가 없다.", "부활 전 섹터에 monster가 없다.", "못찾으면 말이안 됨.",
    "섹터에 넣으려고했더니. 이미 존재함.", "섹터에 아이템이 없음"]

/-- A failure that is none of them. -/
def Other (e : Stop) : Prop := ∀ text ∈ sectorAssertions, e ≠ .myAssert text

/-- None of them fails in `x`. -/
abbrev Safe {α : Type} (x : Except Stop α) : Prop := FailsIn Other x

theorem safe_myAssert {x : Bool} {str : String} (h : str ∉ sectorAssertions) :
    Safe (myAssert x str) := by
  unfold myAssert
  split_ifs
  · exact .ok ()
  · refine .error fun text htext he => ?_
    cases he
    exact h htext

theorem safe_myAssert_true {x : Bool} {str : String} (h : x = true) : Safe (myAssert x str) := by
  rw [myAssert_true h]
  exact .ok ()

theorem safe_rtAssert {x : Bool} : Safe (rtAssert x) := by
  unfold rtAssert
  split_ifs
  · exact .ok ()
  · exact .error fun _ _ he => by cases he

/-! ### What has nothing to do with the sectors -/

theorem safe_getData {msg : Message} {size : ℕ} : Safe (msg.getData size) := by
  unfold Message.getData
  split_ifs
  · exact .error fun _ _ he => by cases he
  · exact .ok _

theorem safe_readInt {msg : Message} {size : ℕ} : Safe (msg.readInt size) :=
  safe_getData.bind fun ⟨_, _⟩ _ => .ok _

theorem safe_getAroundSectors {c : Sector} : Safe (getAroundSectors c) :=
  (safe_myAssert (by decide)).bind fun _ _ => .ok _

theorem safe_changeState {p : Player F} {state : PlayerState} : Safe (p.changeState state) :=
  (safe_myAssert (by decide)).bind fun _ _ => .ok _

theorem safe_monster_changeState {m : Monster F} {state : MonsterState} :
    Safe (m.changeState state) :=
  (safe_myAssert (by decide)).bind fun _ _ => .ok _

section

variable [Machine F] {s t : State F} {msg : Message} {q : ℕ}

theorem safe_readFloat : Safe (readFloat msg : Except Stop (F × Message)) :=
  safe_getData.bind fun ⟨_, _⟩ _ => .ok _

theorem safe_update {p : Player F} : Safe p.update := by
  unfold Player.update
  dsimp only
  split
  · exact .ok _
  · split
    · exact .ok _
    · split
      · exact safe_changeState
      · exact .ok _
    · split
      · exact .ok _
      · exact safe_changeState
    · exact .ok _
    · exact .ok _

theorem safe_takeDamage {p : Player F} {damage : ℤ} {m : Monster F} :
    Safe (p.takeDamage damage m) := by
  unfold Player.takeDamage
  dsimp only
  split_ifs
  · exact .ok _
  · exact safe_changeState
  · exact .ok _
  · exact safe_changeState

theorem safe_monster_takeDamage {m : Monster F} {damage : ℤ} {p : Player F} :
    Safe (m.takeDamage damage p q) := by
  unfold Monster.takeDamage
  dsimp only
  split_ifs
  · exact .ok _
  · exact safe_monster_changeState
  · exact .ok _
  · exact safe_monster_changeState

theorem safe_giveUpChase {m : Monster F} : Safe m.giveUpChase := by
  unfold Monster.giveUpChase
  split_ifs <;> exact safe_monster_changeState

theorem safe_chaseUpdate {m : Monster F} {target : Position F} : Safe (m.chaseUpdate target) := by
  unfold Monster.chaseUpdate
  dsimp only
  split_ifs
  · exact safe_giveUpChase
  · exact safe_monster_changeState
  · exact .ok _
  · exact .ok _

theorem safe_monster_update {m : Monster F} {rands : Rands} : Safe (m.update rands) := by
  unfold Monster.update
  dsimp only
  split
  · unfold Monster.idleUpdate
    dsimp only
    split_ifs
    · exact safe_monster_changeState.bind fun _ _ => .ok _
    · exact safe_monster_changeState.bind fun _ _ => .ok _
    · exact .ok _
  · unfold Monster.patrolUpdate
    dsimp only
    split_ifs
    · exact safe_monster_changeState.bind fun _ _ => .ok _
    · exact safe_monster_changeState.bind fun _ _ => .ok _
    · exact .ok _
  · exact safe_chaseUpdate.bind fun _ _ => .ok _
  · refine FailsIn.bind ?_ fun _ _ => .ok _
    unfold Monster.attackUpdate
    split_ifs
    · exact safe_monster_changeState
    · exact .ok _
  · refine FailsIn.bind ?_ fun _ _ => .ok _
    unfold Monster.stunUpdate
    split_ifs
    · exact .ok _
    · exact safe_monster_changeState
  · refine FailsIn.bind ?_ fun _ _ => .ok _
    unfold Monster.deadUpdate
    split_ifs
    · exact safe_monster_changeState.bind fun _ _ => .ok _
    · exact .ok _
  · refine FailsIn.bind ?_ fun _ _ => .ok _
    unfold Monster.returnUpdate
    dsimp only
    split_ifs
    · exact safe_monster_changeState.bind fun _ _ => .ok _
    · exact .ok _
    · exact .ok _

/-! ### Packets -/

omit [Machine F] in
theorem safe_hasPlayer {str : String} (h : str ∉ sectorAssertions) : Safe (s.hasPlayer q str) :=
  safe_myAssert h

theorem safe_start {x y speed : F} {direction : ℤ} {p : Player F} :
    Safe (handleMoveStart.start s q x y direction speed p) := by
  unfold handleMoveStart.start
  refine (safe_myAssert (by decide)).bind fun _ _ => ?_
  refine safe_changeState.bind fun p _ => ?_
  refine (safe_myAssert (by decide)).bind fun _ _ => ?_
  exact safe_getAroundSectors.bind fun _ _ => .ok _

theorem safe_handleMoveStart : Safe (handleMoveStart s msg q) := by
  unfold handleMoveStart
  refine safe_readInt.bind fun ⟨_, msg⟩ _ => ?_
  refine safe_readFloat.bind fun ⟨x, msg⟩ _ => ?_
  refine safe_readFloat.bind fun ⟨y, msg⟩ _ => ?_
  refine safe_readInt.bind fun ⟨direction, msg⟩ _ => ?_
  refine safe_readFloat.bind fun ⟨speed, msg⟩ _ => ?_
  refine (safe_hasPlayer (by decide)).bind fun _ _ => ?_
  dsimp only
  split
  iterate 3 exact .ok _
  · split
    · exact .ok _
    · exact safe_start
  · exact safe_start

theorem safe_handleMoveStop : Safe (handleMoveStop s msg q) := by
  unfold handleMoveStop
  refine safe_readInt.bind fun ⟨_, msg⟩ _ => ?_
  refine safe_readFloat.bind fun ⟨x, msg⟩ _ => ?_
  refine safe_readFloat.bind fun ⟨y, msg⟩ _ => ?_
  refine safe_readInt.bind fun ⟨direction, msg⟩ _ => ?_
  refine (safe_hasPlayer (by decide)).bind fun _ _ => ?_
  dsimp only
  split
  iterate 3 exact .ok _
  all_goals
    refine (safe_myAssert (by decide)).bind fun _ _ => ?_
    refine (safe_myAssert (by decide)).bind fun _ _ => ?_
    refine (safe_myAssert (by decide)).bind fun _ _ => ?_
    refine (safe_myAssert (by decide)).bind fun _ _ => ?_
    split
    · exact .ok _
    · split
      · refine safe_changeState.bind fun p _ => ?_
        exact safe_getAroundSectors.bind fun _ _ => .ok _
      · refine FailsIn.bind (.ok _) fun p _ => ?_
        exact safe_getAroundSectors.bind fun _ _ => .ok _

theorem safe_readTargets (n : ℕ) (msg : Message) : Safe (readTargets n msg) := by
  induction n generalizing msg with
  | zero => exact .ok _
  | succ n ih =>
    refine safe_readInt.bind fun ⟨monsterId, msg⟩ _ => ?_
    exact (ih msg).bind fun _ _ => .ok _

theorem safe_handleAttackReq : Safe (handleAttackReq s msg q) := by
  unfold handleAttackReq
  refine safe_readInt.bind fun ⟨skillId, msg⟩ _ => ?_
  refine safe_readInt.bind fun ⟨targetCnt, msg⟩ _ => ?_
  dsimp only
  split
  · exact .ok _
  · split
    · exact .ok _
    · refine (safe_hasPlayer (by decide)).bind fun _ _ => ?_
      split
      iterate 3 exact .ok _
      all_goals
        refine safe_getAroundSectors.bind fun _ _ => ?_
        refine safe_changeState.bind fun _ _ => ?_
        exact (safe_readTargets _ _).bind fun _ _ => .ok _

/-- An item that is on the field is in its cell. -/
theorem safe_handleLootReq (hs : Sound s) : Safe (handleLootReq s msg q) := by
  unfold handleLootReq
  refine safe_readInt.bind fun ⟨id, msg⟩ _ => ?_
  refine (safe_hasPlayer (by decide)).bind fun _ _ => ?_
  dsimp only
  split
  · exact .ok _
  · next hid =>
    split
    · exact .ok _
    · refine safe_getAroundSectors.bind fun near _ => ?_
      have hcell : id ∈ s.itemSectors (s.item id).sector := hs.items.cells.self_mem (not_not.mp hid)
      exact (safe_myAssert_true (decide_eq_true hcell)).bind fun _ _ => .ok _

theorem safe_fieldContentsPacketProc (hs : Sound s) : Safe (fieldContentsPacketProc s msg q) := by
  unfold fieldContentsPacketProc
  refine safe_readInt.bind fun ⟨type, msg⟩ _ => ?_
  refine safe_rtAssert.bind fun _ _ => ?_
  split_ifs
  · exact safe_handleMoveStart
  · exact safe_handleMoveStop
  · exact safe_handleAttackReq
  · exact safe_handleLootReq hs
  · exact (safe_hasPlayer (by decide)).bind fun _ _ => .ok _
  · exact .ok _

/-! ### `fieldUpdate` -/

theorem safe_dropItem {m : Monster F} : Safe (dropItem s m) := by
  unfold dropItem
  dsimp only
  split
  · exact .ok _
  · exact safe_getAroundSectors.bind fun _ _ => .ok _

theorem safe_hitTargets {rangeLen : F} {ids : List ℤ} {maxTargetCnt : ℤ} :
    Safe (hitTargets q rangeLen ids maxTargetCnt s) := by
  induction ids generalizing s maxTargetCnt with
  | nil => exact .ok _
  | cons id ids ih =>
    unfold hitTargets
    dsimp only
    split
    · exact ih
    · refine safe_monster_takeDamage.bind fun m _ => ?_
      refine safe_getAroundSectors.bind fun near _ => ?_
      have hrest : ∀ u : State F, Safe (if maxTargetCnt - 1 = 0 then pure u else
          hitTargets q rangeLen ids (maxTargetCnt - 1) u) := by
        intro u
        split
        · exact .ok _
        · exact ih
      split
      · exact (safe_dropItem.map _).bind fun u _ => hrest u
      · exact FailsIn.bind (.ok _) fun u _ => hrest u

theorem safe_updatePlayer : Safe (updatePlayer s q) := by
  unfold updatePlayer
  refine safe_update.bind fun p _ => ?_
  dsimp only
  split
  · refine FailsIn.bind ?_ fun _ _ => .ok _
    unfold processPlayerAttackHit
    dsimp only
    split
    · exact .ok _
    · exact safe_hitTargets
  · exact FailsIn.bind (.ok _) fun _ _ => .ok _

theorem safe_calcDespawnAndSpawnSector {dest current : Sector} :
    Safe (calcDespawnAndSpawnSector dest current) := by
  unfold calcDespawnAndSpawnSector
  refine safe_getAroundSectors.bind fun _ _ => ?_
  exact safe_getAroundSectors.bind fun _ _ => .ok _

omit [Machine F] in
/-- A player is in the cell that it leaves. -/
theorem safe_updateSector (hs : Sound s) (hq : q ∈ s.players) : Safe (updateSector s q) := by
  unfold updateSector
  dsimp only
  split
  · exact .ok _
  · have hcell : q ∈ s.sectors (s.player q).currentSector := hs.players.cells.self_mem hq
    refine (safe_myAssert_true (decide_eq_true hcell)).bind fun _ _ => ?_
    exact safe_calcDespawnAndSpawnSector.bind fun _ _ => .ok _

theorem safe_updateMonster {id : ℤ} : Safe (updateMonster s id) := by
  unfold updateMonster
  dsimp only
  have hrest : ∀ m : Monster F, Safe (m.update s.rands >>= fun r => do
      let s := { (s.setMonster id r.1).record
        (.monsterState none id (s.monster id).state r.1.state) with rands := r.2 }
      let s ←
        if r.1.state = .attack ∧ r.1.animFrame = MONSTER_ATTACK_WINDUP_FRAME then
          processMonsterAttackHit s r.1 else pure s
      return s.setMonster id (updateMonsterSectorCheck r.1)) := by
    intro m
    refine safe_monster_update.bind fun r _ => ?_
    dsimp only
    split
    · refine FailsIn.bind ?_ fun _ _ => .ok _
      unfold processMonsterAttackHit
      refine safe_getAroundSectors.bind fun _ _ => ?_
      split
      · exact .ok _
      · refine safe_takeDamage.bind fun _ _ => ?_
        exact safe_getAroundSectors.bind fun _ _ => .ok _
    · exact FailsIn.bind (.ok _) fun _ _ => .ok _
  split
  · split
    · exact FailsIn.bind (.ok _) fun m _ => hrest m
    · exact safe_giveUpChase.bind fun m _ => hrest m
  · exact FailsIn.bind (.ok _) fun m _ => hrest m

omit [Machine F] in
/-- A monster is in the cell that it leaves. -/
theorem safe_updateMonsterSector {id : ℤ} (hs : Sound s) (hid : id ∈ s.monsters) :
    Safe (updateMonsterSector s id) := by
  unfold updateMonsterSector
  dsimp only
  split
  · have hcell : id ∈ s.monsterSectors (s.monster id).sector := hs.monsters.cells.self_mem hid
    refine (safe_myAssert_true (decide_eq_true hcell)).bind fun _ _ => ?_
    refine FailsIn.bind ?_ fun _ _ => .ok _
    unfold calcMonsterDespawnAndSpawnSector
    refine safe_getAroundSectors.bind fun _ _ => ?_
    exact safe_getAroundSectors.bind fun _ _ => .ok _
  · exact .ok _

omit [Machine F] in
theorem safe_updateItem {id : ℤ} : Safe (updateItem s id) := by
  unfold updateItem
  dsimp only
  split
  · exact safe_getAroundSectors.bind fun _ _ => .ok _
  · exact .ok _

theorem safe_fieldUpdate (hs : Sound s) : Safe (fieldUpdate s) := by
  unfold fieldUpdate
  have hs0 : Sound (s.record .fieldUpdate) := Act.sound .fieldUpdate hs
  refine FailsIn.bind (FailsIn.foldlM (I := fun _ => True) (fun _ _ _ _ => safe_updatePlayer)
    (fun _ _ _ _ _ _ => trivial) trivial) fun s1 h1 => ?_
  have hs1 : Sound s1 := Stays.sound (ticks_updatePlayers h1).1.stays hs0
  refine FailsIn.bind (FailsIn.foldlM (I := fun u => Sound u ∧ u.players = s1.players) ?_ ?_ ⟨hs1,
    rfl⟩) fun s2 h2 => ?_
  · intro u q hq hu
    exact safe_updateSector hu.1 (by rw [hu.2]; exact hq)
  · intro u v q hq hu hv
    obtain ⟨hacts, hplayers⟩ := acts_updateSector (by rw [hu.2]; exact hq) hv
    exact ⟨Stays.sound hacts.calms.ticks.stays hu.1, hplayers.trans hu.2⟩
  have hs2 : Sound s2 := Stays.sound (acts_updateSectors h2).1.calms.ticks.stays hs1
  refine FailsIn.bind (FailsIn.foldlM (I := fun _ => True) (fun _ _ _ _ => safe_updateMonster)
    (fun _ _ _ _ _ _ => trivial) trivial) fun s3 h3 => ?_
  have hs3 : Sound s3 := Stays.sound (calms_updateMonsters h3).1.ticks.stays hs2
  refine FailsIn.bind (FailsIn.foldlM (I := fun u => Sound u ∧ u.monsters = s3.monsters) ?_ ?_ ⟨hs3,
    rfl⟩) fun s4 _ => ?_
  · intro u id hid hu
    exact safe_updateMonsterSector hu.1 (by rw [hu.2]; exact hid)
  · intro u v id hid hu hv
    obtain ⟨hcalms, hmonsters⟩ := calms_updateMonsterSector (by rw [hu.2]; exact hid) hv
    exact ⟨Stays.sound hcalms.ticks.stays hu.1, hmonsters.trans hu.2⟩
  exact FailsIn.foldlM (I := fun _ => True) (fun _ _ _ _ => safe_updateItem)
    (fun _ _ _ _ _ _ => trivial) trivial

/-! ### The other operations -/

omit [Machine F] in
/-- A monster that comes to life again is in the cell where it died. -/
theorem safe_procMonster {id : ℤ} (hs : Sound s) (hid : id ∈ s.monsters) :
    Safe (procMonster s id) := by
  unfold procMonster
  dsimp only
  split
  · exact .ok _
  · refine FailsIn.bind ?_ fun _ _ => .ok _
    unfold monsterPackets
    dsimp only
    split
    iterate 3 exact safe_getAroundSectors.bind fun _ _ => .ok _
    · exact safe_getAroundSectors.bind fun _ _ => .ok _
    · split
      · refine safe_getAroundSectors.bind fun near _ => ?_
        split
        · have hcell : id ∈ s.monsterSectors (s.monster id).sector := hs.monsters.cells.self_mem hid
          refine (safe_myAssert_true (decide_eq_true hcell)).bind fun _ _ => ?_
          exact FailsIn.bind (.ok _) fun _ _ => safe_getAroundSectors.bind fun _ _ => .ok _
        · exact FailsIn.bind (.ok _) fun _ _ => safe_getAroundSectors.bind fun _ _ => .ok _
      · exact safe_getAroundSectors.bind fun _ _ => .ok _
    iterate 2 exact .ok _

theorem safe_monsterProc (hs : Sound s) : Safe (monsterProc s) := by
  refine FailsIn.foldlM (I := fun u => Sound u ∧ u.monsters = s.monsters) ?_ ?_ ⟨hs, rfl⟩
  · intro u id hid hu
    exact safe_procMonster hu.1 (by rw [hu.2]; exact hid)
  · intro u v id hid hu hv
    obtain ⟨hcalms, hmonsters⟩ := calms_procMonster (by rw [hu.2]; exact hid) hv
    exact ⟨Stays.sound hcalms.ticks.stays hu.1, hmonsters.trans hu.2⟩

omit [Machine F] in
theorem safe_checkDisConnected : Safe (checkDisConnectedAndLeavePlayer s) := by
  refine FailsIn.foldlM (I := fun _ => True) (fun u q _ _ => ?_)
    (fun _ _ _ _ _ _ => trivial) trivial
  unfold saveDisconnected
  refine (safe_myAssert (by decide)).bind fun _ _ => ?_
  split
  · exact .ok _
  · exact (safe_myAssert (by decide)).bind fun _ _ => .ok _

omit [Machine F] in
/-- A player that is removed is in its cell. -/
theorem safe_dbResult {result : DBResult} (hs : Sound s) : Safe (dbResult s result) := by
  unfold dbResult
  cases result with
  | positionSave q =>
    dsimp only
    unfold positionSaved
    split
    · exact .ok _
    · next hq =>
      have hcell : q ∈ s.sectors (s.player q).currentSector :=
        hs.players.cells.self_mem (not_not.mp hq)
      exact (safe_myAssert_true (decide_eq_true hcell)).bind fun _ _ => .ok _
  | killCountUpdate q => exact .ok _
  | rankingQuery q entries myRank myKillCount => exact .ok _

theorem safe_dbResults (hs : Sound s) : Safe (dbResultPacketProc s) := by
  refine FailsIn.foldlM (I := Sound) (fun u result _ hu => safe_dbResult hu) ?_ hs.takeResults
  intro u v result _ hu hv
  rcases dbResult_cases hv with ⟨-, rfl | ⟨q, packet, hq, hp, rfl⟩⟩ | ⟨q, -, -, rfl⟩
  · exact hu
  · exact Act.sound (.send q packet hq hp) hu
  · exact hu.handBack q

/-- Who is new is in no cell. -/
theorem safe_handleRegisterPlayer {accountNo characterID : ℤ}
    {pos : Position F} {nickname : List UInt8} (hs : Sound s) (hq : q ∉ s.met) :
    Safe (handleRegisterPlayer s (.login q accountNo characterID pos nickname)) := by
  unfold handleRegisterPlayer
  dsimp only
  refine (safe_myAssert (by decide)).bind fun _ _ => ?_
  refine FailsIn.bind ?_ fun u _ => safe_getAroundSectors.bind fun _ _ => .ok _
  unfold enterSector
  dsimp only
  have hnone : ∀ c, q ∉ s.sectors c :=
    fun c hc => hq (hs.players.met q ((hs.players.cells.mem c q).mp hc).1)
  exact (safe_myAssert_true (decide_eq_true (hnone _))).bind fun _ _ => .ok _

/-- No step looks for somebody in a cell in vain. -/
theorem safe_step {l : Step F} {x : Except Stop (State F)} (hs : Sound s) (h : step s l = some x) :
    Safe x := by
  unfold step at h
  cases l with
  | registerPlayer q accountNo characterID pos nickname =>
    dsimp only at h
    split_ifs at h with hnew
    cases h
    exact safe_handleRegisterPlayer hs hnew.1
  | contentsPacket q msg =>
    dsimp only at h
    split_ifs at h
    cases h
    exact safe_fieldContentsPacketProc hs
  | fieldUpdate =>
    cases h
    exact safe_fieldUpdate hs
  | monsterProc =>
    cases h
    exact safe_monsterProc hs
  | checkDisConnected =>
    cases h
    exact safe_checkDisConnected
  | dbResults =>
    cases h
    exact safe_dbResults hs
  | onRelease q =>
    cases h
    exact .ok _
  | dbDequeue | dbAnswer =>
    dsimp only at h
    split at h
    all_goals
      cases h
      try exact .ok _
  | rehashPlayers | rehashSector | rehashMonsters | rehashMonsterSector | rehashItems
  | rehashItemSector =>
    dsimp only at h
    split_ifs at h
    cases h
    exact .ok _

/-! ### Where a player is to be -/

omit [Machine F] in
/-- Every player is where it is to be. -/
def Still (s : State F) : Prop :=
  ∀ q ∈ s.players, (s.player q).destSector = (s.player q).currentSector

omit [Machine F] in
theorem Still.same (h : Still s) (hst : SamePlayers s t) : Still t := by
  intro q hq
  rw [hst.player]
  exact h q (hst.players ▸ hq)

omit [Machine F] in
theorem Still.rewrites (h : Still s) {p : Player F} (hst : Rewrites q p s t)
    (hp : (s.player q).destSector = (s.player q).currentSector → p.destSector = p.currentSector) :
    Still t := by
  intro q' hq'
  rw [hst.players] at hq'
  by_cases he : q' = q
  · subst he
    rw [hst.self]
    exact hp (h q' hq')
  · rw [hst.of_ne he]
    exact h q' hq'

omit [Machine F] in
theorem Still.enters (h : Still s) {p : Player F} (hst : Enters q p s t)
    (hp : p.destSector = p.currentSector) :
    Still t := by
  intro q' hq'
  rw [hst.players] at hq'
  rw [hst.player]
  by_cases he : q' = q
  · subst he
    rw [Function.update_self]
    exact hp
  · rw [Function.update_of_ne he]
    exact h q' ((List.mem_cons.mp hq').resolve_left he)

omit [Machine F] in
/-- The second loop of `fieldUpdate` takes every player to its sector. -/
theorem still_updateSectors (hnd : s.players.Nodup) (h : s.players.foldlM updateSector s = .ok t) :
    Still t := by
  have heach := foldlM_each (I := fun u => u.players = s.players) (A := fun _ _ => True)
    (B := fun u q => (u.player q).destSector = (u.player q).currentSector) hnd ?_
      rfl (fun _ _ => trivial) h
  · intro q hq
    rw [heach.1] at hq
    exact heach.2 q hq
  · intro u v q _ hu _ hv
    have hrewrites := updateSector_player hv
    refine ⟨hrewrites.players.trans hu, ?_, fun q' _ hne => ⟨fun _ => trivial, fun hq' => ?_⟩⟩
    · rw [hrewrites.self]
    · rw [hrewrites.of_ne hne]
      exact hq'

theorem Still.updateMonster (h : Still s) {id : ℤ} (he : updateMonster s id = .ok t) : Still t := by
  rcases updateMonster_player he with hsame | ⟨m, rands, q, p, -, -, -, -, hp, hrewrites⟩
  · exact h.same hsame
  · refine h.rewrites hrewrites fun hstill => ?_
    rw [takeDamage_eq hp]
    exact hstill

theorem still_fieldUpdate (hs : Sound s) (he : fieldUpdate s = .ok t) : Still t := by
  unfold fieldUpdate at he
  obtain ⟨s1, h1, he⟩ := bind_ok he
  obtain ⟨s2, h2, he⟩ := bind_ok he
  obtain ⟨s3, h3, he⟩ := bind_ok he
  obtain ⟨s4, h4, he⟩ := bind_ok he
  have hs0 : Sound (s.record .fieldUpdate) := Act.sound .fieldUpdate hs
  have hs1 : Sound s1 := Stays.sound (ticks_updatePlayers h1).1.stays hs0
  have hstill2 : Still s2 := still_updateSectors hs1.players.cells.nodup h2
  have hstill3 : Still s3 :=
    foldlM_keeps (P := Still) (fun _ _ _ _ hu hv => hu.updateMonster hv) hstill2 h3
  have hstill4 : Still s4 :=
    foldlM_keeps (P := Still)
      (fun _ _ _ _ hu hv => hu.same (updateMonsterSector_player hv)) hstill3 h4
  exact foldlM_keeps (P := Still) (fun _ _ _ _ hu hv => hu.same (updateItem_player hv)) hstill4 he

theorem Still.monsterProc (h : Still s) (he : monsterProc s = .ok t) : Still t := by
  have hloop := foldlM_keeps (P := fun u => Still u ∧ u.monsters = s.monsters) ?_ ⟨h, rfl⟩ he
  · exact hloop.1
  · intro u v id hid hu hv
    rw [← hu.2] at hid
    exact ⟨hu.1.same (procMonster_player hid hv), (calms_procMonster hid hv).2.trans hu.2⟩

omit [Machine F] in
/-- A change of what is no sector. -/
theorem Still.mono (h : Still s) (hplayers : ∀ q ∈ t.players, q ∈ s.players)
    (hsame : ∀ q, (t.player q).destSector = (s.player q).destSector ∧
      (t.player q).currentSector = (s.player q).currentSector) : Still t := by
  intro q hq
  rw [(hsame q).1, (hsame q).2]
  exact h q (hplayers q hq)

omit [Machine F] in
theorem sectors_set {p : Player F} (hdest : p.destSector = (s.player q).destSector)
    (hcurrent : p.currentSector = (s.player q).currentSector) (q' : ℕ) :
    ((Function.update s.player q p) q').destSector = (s.player q').destSector ∧
      ((Function.update s.player q p) q').currentSector = (s.player q').currentSector := by
  by_cases he : q' = q
  · subst he
    rw [Function.update_self]
    exact ⟨hdest, hcurrent⟩
  · rw [Function.update_of_ne he]
    exact ⟨rfl, rfl⟩

omit [Machine F] in
theorem Still.checkDisConnected (h : Still s) (he : checkDisConnectedAndLeavePlayer s = .ok t) :
    Still t := by
  apply foldlM_keeps (P := Still) _ h he
  intro u v q _ hu hv
  rcases saveDisconnected_cases hv with rfl | ⟨-, -, rfl⟩
  · exact hu
  · exact hu.mono (fun _ hq => hq) (sectors_set rfl rfl)

omit [Machine F] in
theorem Still.dbResults (h : Still s) (he : dbResultPacketProc s = .ok t) : Still t := by
  unfold dbResultPacketProc at he
  have hstart : Still { s with dbResQ := [] } := h
  apply foldlM_keeps (P := Still) _ hstart he
  intro u v result _ hu hv
  rcases dbResult_cases hv with ⟨-, rfl | ⟨q, packet, -, -, rfl⟩⟩ | ⟨q, -, -, rfl⟩
  · exact hu
  · exact hu
  · exact hu.mono (fun _ hq => List.mem_of_mem_erase hq) (sectors_set (s := u) (q := q) rfl rfl)

theorem still_step {l : Step F} (hs : Sound s) (h : Still s) (he : step s l = some (.ok t)) :
    Still t := by
  cases l with
  | fieldUpdate => exact still_fieldUpdate hs (Option.some.inj he)
  | monsterProc => exact h.monsterProc (Option.some.inj he)
  | checkDisConnected => exact h.checkDisConnected (Option.some.inj he)
  | dbResults => exact h.dbResults (Option.some.inj he)
  | registerPlayer q accountNo characterID pos nickname =>
    unfold step at he
    dsimp only at he
    split_ifs at he
    exact h.enters (handleRegisterPlayer_player (Option.some.inj he)) rfl
  | contentsPacket q msg =>
    unfold step at he
    dsimp only at he
    split_ifs at he
    obtain ⟨p, hp, hrewrites⟩ := handled_fieldContentsPacketProc (Option.some.inj he)
    refine h.rewrites hrewrites fun hstill => ?_
    rw [hp.destSector, hp.currentSector, hstill]
  | onRelease q =>
    cases he
    exact h.mono (fun _ hq => hq) (sectors_set rfl rfl)
  | _ =>
    have hshuffles := shuffles_step rfl he
    refine h.mono (fun _ hq => hshuffles.players.mem_iff.mp hq) fun q => ?_
    rw [hshuffles.player]
    exact ⟨rfl, rfl⟩

/-! ### Every run -/

/-- Everybody is in one cell, once, in the grid, and nobody else is in a cell. -/
structure Exact {α : Type} [DecidableEq α] (members : List α) (cells : Sector → List α)
    (sector : α → Sector) : Prop where
  cell : ∀ a ∈ members, ∀ c, (cells c).count a = if c = sector a then 1 else 0
  only : ∀ c, ∀ a ∈ cells c, a ∈ members
  inGrid : ∀ a ∈ members, (sector a).InGrid

theorem exact_of_cells {α : Type} [DecidableEq α] {members : List α}
    {cells : Sector → List α} {sector : α → Sector} (h : Cells members cells sector)
    (hgrid : ∀ a ∈ members, (sector a).InGrid) : Exact members cells sector := by
  refine ⟨fun a ha c => ?_, fun c a hc => ((h.mem c a).mp hc).1, hgrid⟩
  rw [(h.cells_nodup c).count]
  refine if_congr ?_ rfl rfl
  rw [h.mem]
  constructor
  · exact fun hc => hc.2.symm
  · exact fun hc => ⟨ha, hc.symm⟩

/-- The sector index of a state, and that no operation that comes next looks for somebody in a cell
in vain. -/
structure SectorsExact (s : State F) : Prop where
  players : Exact s.players s.sectors fun q => (s.player q).currentSector
  monsters : Exact s.monsters s.monsterSectors fun id => (s.monster id).sector
  items : Exact s.items s.itemSectors fun id => (s.item id).sector
  still : ∀ q ∈ s.players, (s.player q).destSector = (s.player q).currentSector
  found : ∀ (l : Step F) (text : String), text ∈ sectorAssertions →
    step s l ≠ some (.error (.myAssert text))

theorem still_reachable (h : field.Reachable s) : Still s := by
  refine field_runs (fun hs q hq => ?_) (fun hs hst he => still_step hs hst he) h
  rw [hs.nobody.1] at hq
  cases hq

/-- The sector index is exact in every run. -/
theorem sectors_exact (h : field.Reachable s) : SectorsExact s := by
  have hs := sound h
  refine ⟨exact_of_cells hs.players.cells fun q hq => (hs.players.grid q hq).1,
    exact_of_cells hs.monsters.cells fun id hid => (hs.monsters.grid id hid).1,
    exact_of_cells hs.items.cells hs.items.grid, still_reachable h, fun l text htext he => ?_⟩
  exact safe_step hs he _ rfl text htext rfl

end

/-- Session 1 kills the monster, and an item lies on the field. -/
theorem sectors_exact_killRun : ∃ s : State ℚ, s.players = [1] ∧ s.items ≠ [] ∧ SectorsExact s := by
  have hrun : (field.exec oneMonster killRun).any (fun s => s.players = [1] ∧ s.items ≠ []) =
      true := by decide +kernel
  obtain ⟨s, hs, hp⟩ := Option.any_eq_true _ _ |>.mp hrun
  obtain ⟨hplayers, hitems⟩ := of_decide_eq_true hp
  exact ⟨s, hplayers, hitems, sectors_exact (.exec _ (.start oneMonster_init) hs)⟩

end Field
end MyMMO
