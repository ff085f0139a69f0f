/-
# Where everything is registered

Players, monsters and items are held in one container each and, once more, sector by sector. Every
effect keeps the two in agreement (`Sound`), so they agree in every run (`sound`).
-/
import MyMMO.FieldFrame
import MyMMO.Lib.Cells

namespace MyMMO
namespace Field

open Outcome

variable {F : Type}

/-- The registration of the players. -/
structure Index (s : State F) : Prop where
  cells : Cells s.players s.sectors fun q => (s.player q).currentSector
  met : ∀ q ∈ s.players, q ∈ s.met
  name : ∀ q ∈ s.players, (s.player q).seqID = q
  ids : ∀ q ∈ s.players, ∀ q' ∈ s.players, (s.player q).characterID = (s.player q').characterID →
    q = q'
  grid : ∀ q ∈ s.players, (s.player q).currentSector.InGrid ∧ (s.player q).destSector.InGrid
  -- nothing is sent to a session that is not registered
  quiet : ∀ q, q ∉ s.met → inbox q s.sent = []

/-- The registration of the monsters. -/
structure MonsterIndex (s : State F) : Prop where
  cells : Cells s.monsters s.monsterSectors fun id => (s.monster id).sector
  name : ∀ id ∈ s.monsters, (s.monster id).monsterID = id
  grid : ∀ id ∈ s.monsters, (s.monster id).sector.InGrid ∧ (s.monster id).destSector.InGrid

/-- The registration of the items. -/
structure ItemIndex (s : State F) : Prop where
  cells : Cells s.items s.itemSectors fun id => (s.item id).sector
  name : ∀ id ∈ s.items, (s.item id).itemUniqueId = id
  grid : ∀ id ∈ s.items, (s.item id).sector.InGrid
  fresh : ∀ id ∈ s.items, id ≤ s.itemUniqueID

structure Sound (s : State F) : Prop where
  players : Index s
  monsters : MonsterIndex s
  items : ItemIndex s

section

variable {s t u : State F}

theorem Index.mem_near (h : Index s) {q : ℕ} {near : List Sector} :
    q ∈ s.near near ↔ q ∈ s.players ∧ (s.player q).currentSector ∈ near := h.cells.mem_near

theorem Index.near_nodup (h : Index s) {near : List Sector} (hnd : near.Nodup) :
    (s.near near).Nodup :=
  h.cells.near_nodup hnd

/-- What a packet to all players of `near` does. -/
theorem Index.told_broadcast (h : Index s) {κ : Type} {see : κ → Packet F → κ} {start : κ}
    {near : List Sector} (hnd : near.Nodup) {packet : Packet F} {q : ℕ} (hq : q ∈ s.players) :
    told see start (s.broadcast near (fun _ => false) packet) q =
      if (s.player q).currentSector ∈ near then see
        (told see start s q) packet else told see start s q := by
  rw [Field.told_broadcast (h.near_nodup hnd)]
  simp only [h.mem_near, hq, true_and, and_true]

theorem Index.quiet_of (h : Index s) {ks : List (ℕ × Packet F)} (ht : t.sent = s.sent ++ ks)
    (hks : ∀ k ∈ ks, k.1 ∈ t.met) (hmet : ∀ q ∈ s.met, q ∈ t.met) {q : ℕ} (hq : q ∉ t.met) :
    inbox q t.sent = [] := by
  have hnone : inbox q ks = [] := by
    apply inbox_eq_nil
    rintro k hk rfl
    exact hq (hks k hk)
  rw [ht, inbox_append, hnone, h.quiet q (mt (hmet q) hq), List.append_nil]

/-- The registration does not depend on what is sent to those who are registered. -/
theorem Index.of_sent (h : Index s) (hp : t.player = s.player) (hps : t.players = s.players)
    (hsec : t.sectors = s.sectors) (hmet : t.met = s.met) {ks : List (ℕ × Packet F)}
    (ht : t.sent = s.sent ++ ks) (hks : ∀ k ∈ ks, k.1 ∈ s.players) : Index t := by
  refine ⟨?_, ?_, ?_, ?_, ?_, fun q hq => h.quiet_of ht ?_ ?_ hq⟩
  · rw [hp, hps, hsec]
    exact h.cells
  · rw [hps, hmet]
    exact h.met
  · rw [hps, hp]
    exact h.name
  · rw [hps, hp]
    exact h.ids
  · rw [hps, hp]
    exact h.grid
  · rw [hmet]
    exact fun k hk => h.met _ (hks k hk)
  · rw [hmet]
    exact fun _ => id

theorem Index.broadcast (h : Index s) (near : List Sector) (skip : ℕ → Bool) (packet : Packet F) :
    Index (s.broadcast near skip packet) := by
  apply h.of_sent (t := s.broadcast near skip packet) rfl rfl rfl rfl rfl
  intro k hk
  obtain ⟨q, hq, rfl⟩ := List.mem_map.mp hk
  exact (h.mem_near.mp (List.mem_of_mem_filter hq)).1

theorem Index.sendAll (h : Index s) {q : ℕ} (hq : q ∈ s.players) (packets : List (Packet F)) :
    Index (s.sendAll q packets) := by
  apply h.of_sent (t := s.sendAll q packets) rfl rfl rfl rfl rfl
  intro k hk
  obtain ⟨packet, -, rfl⟩ := List.mem_map.mp hk
  exact hq

theorem Index.sendPost (h : Index s) {q : ℕ} (hq : q ∈ s.players) (packet : Packet F) :
    Index (s.sendPost q packet) := by
  apply h.of_sent (t := s.sendPost q packet) rfl rfl rfl rfl rfl
  intro k hk
  rw [List.mem_singleton.mp hk]
  exact hq

theorem Index.sendSpawns (h : Index s) {q : ℕ} (hq : q ∈ s.players) (near : List Sector) :
    Index (s.sendSpawns q near) := by
  unfold State.sendSpawns State.sendItemSpawnBatch State.sendMonsterSpawnBatch State.sendSpawnBatch
    State.broadcastSpawn
  exact (((h.broadcast _ _ _).sendAll hq _).sendAll hq _).sendAll hq _

theorem Index.sendDespawns (h : Index s) {q : ℕ} (hq : q ∈ s.players) (near : List Sector) :
    Index (s.sendDespawns q near) := by
  unfold State.sendDespawns State.sendItemDespawnBatch State.sendMonsterDespawnBatch
    State.sendDespawnBatch State.broadcastDespawn
  exact (((h.broadcast _ _ _).sendAll hq _).sendAll hq _).sendAll hq _

/-! ### Players -/

/-- A player is rewritten, its registration apart. -/
theorem Index.setPlayer (h : Index s) {q : ℕ} {p : Player F} (hp : SameFace (s.player q) p) :
    Index (s.setPlayer q p) := by
  have hf := frame_setPlayer hp
  refine ⟨h.cells.congr fun q' _ => hf.currentSector q', h.met,
    fun q' hq' => (hf.seqID q').trans (h.name q' hq'), ?_, ?_, h.quiet⟩
  · intro q1 h1 q2 h2
    rw [hf.characterID, hf.characterID]
    exact h.ids q1 h1 q2 h2
  · intro q' hq'
    rw [hf.currentSector]
    exact ⟨(h.grid q' hq').1, hf.destSector q' (h.grid q' hq').2⟩

/-- What is not about players. -/
theorem Index.of_eq (h : Index s) (hp : t.player = s.player) (hps : t.players = s.players)
    (hsec : t.sectors = s.sectors) (hmet : t.met = s.met) (hsent : t.sent = s.sent) : Index t :=
  h.of_sent hp hps hsec hmet (hsent.trans (List.append_nil _).symm) (by simp)

theorem Index.perm (h : Index s) (hp : t.player = s.player) (hps : t.players.Perm s.players)
    (hsec : ∀ c, (t.sectors c).Perm (s.sectors c)) (hmet : t.met = s.met)
    (hsent : t.sent = s.sent) : Index t := by
  refine ⟨?_, ?_, ?_, ?_, ?_, ?_⟩
  · rw [hp]
    exact h.cells.perm hps hsec
  · intro q hq
    rw [hmet]
    exact h.met q (hps.mem_iff.mp hq)
  · intro q hq
    rw [hp]
    exact h.name q (hps.mem_iff.mp hq)
  · intro q hq q' hq'
    rw [hp]
    exact h.ids q (hps.mem_iff.mp hq) q' (hps.mem_iff.mp hq')
  · intro q hq
    rw [hp]
    exact h.grid q (hps.mem_iff.mp hq)
  · rw [hmet, hsent]
    exact h.quiet

theorem Index.enter (h : Index s) {q : ℕ} {p : Player F} (hq : q ∉ s.met)
    (hid : ∀ q' ∈ s.players, (s.player q').characterID ≠ p.characterID) (hname : p.seqID = q)
    (hcur : p.currentSector.InGrid) (hdest : p.destSector.InGrid) : Index (s.enter q p) := by
  have hself : (s.enter q p).player q = p := Function.update_self _ _ _
  have hother : ∀ q' ∈ s.players, (s.enter q p).player q' = s.player q' := by
    intro q' hq'
    apply Function.update_of_ne
    rintro rfl
    exact hq (h.met q' hq')
  have hcells := h.cells.insert (a := q) (fun hmem => hq (h.met q hmem)) fun q' hq' =>
    congrArg Player.currentSector (hother q' hq')
  refine ⟨?_, ?_, ?_, ?_, ?_, ?_⟩
  · rw [hself] at hcells
    exact hcells
  · intro q' hq'
    rcases List.mem_cons.mp hq' with rfl | hq'
    · exact List.mem_cons_self
    · exact List.mem_cons_of_mem _ (h.met q' hq')
  · intro q' hq'
    rcases List.mem_cons.mp hq' with rfl | hq'
    · rw [hself]
      exact hname
    · rw [hother q' hq']
      exact h.name q' hq'
  · intro q1 h1 q2 h2 he
    rcases List.mem_cons.mp h1 with e1 | h1 <;> rcases List.mem_cons.mp h2 with e2 | h2
    · rw [e1, e2]
    · rw [e1, hself, hother q2 h2] at he
      exact absurd he.symm (hid q2 h2)
    · rw [e2, hself, hother q1 h1] at he
      exact absurd he (hid q1 h1)
    · rw [hother q1 h1, hother q2 h2] at he
      exact h.ids q1 h1 q2 h2 he
  · intro q' hq'
    rcases List.mem_cons.mp hq' with rfl | hq'
    · rw [hself]
      exact ⟨hcur, hdest⟩
    · rw [hother q' hq']
      exact h.grid q' hq'
  · intro q' hq'
    exact h.quiet q' fun hmem => hq' (List.mem_cons_of_mem _ hmem)

theorem Index.movePlayer (h : Index s) {q : ℕ} (hq : q ∈ s.players) :
    Index (s.movePlayer q (s.player q)) := by
  have hself : (s.movePlayer q (s.player q)).player q =
      { s.player q with currentSector := (s.player q).destSector } := Function.update_self _ _ _
  have hother : ∀ q', q' ≠ q → (s.movePlayer q (s.player q)).player q' = s.player q' :=
    fun q' hne => Function.update_of_ne hne _ _
  have hcells : Cells s.players _ fun q' =>
      ((s.movePlayer q (s.player q)).player q').currentSector :=
    h.cells.move hq fun q' _ hne => congrArg Player.currentSector (hother q' hne)
  have hsame : ∀ q', ((s.movePlayer q (s.player q)).player q').seqID = (s.player q').seqID ∧
      ((s.movePlayer q (s.player q)).player q').characterID = (s.player q').characterID ∧
      ((s.movePlayer q (s.player q)).player q').destSector = (s.player q').destSector := by
    intro q'
    by_cases hqq : q' = q
    · rw [hqq, hself]
      exact ⟨rfl, rfl, rfl⟩
    · rw [hother q' hqq]
      exact ⟨rfl, rfl, rfl⟩
  refine ⟨?_, h.met, fun q' hq' => (hsame q').1.trans (h.name q' hq'), ?_, ?_, h.quiet⟩
  · rw [hself] at hcells
    exact hcells
  · intro q1 h1 q2 h2
    rw [(hsame q1).2.1, (hsame q2).2.1]
    exact h.ids q1 h1 q2 h2
  · intro q' hq'
    rw [(hsame q').2.2]
    refine ⟨?_, (h.grid q' hq').2⟩
    by_cases hqq : q' = q
    · rw [hqq, hself]
      exact (h.grid q hq).2
    · rw [hother q' hqq]
      exact (h.grid q' hq').1

theorem Index.leave (h : Index s) (q : ℕ) : Index (s.leave q) := by
  have hmem : ∀ q' ∈ (s.leave q).players, q' ∈ s.players :=
    fun q' hq' => (h.cells.mem_erase.mp hq').2
  exact ⟨h.cells.erase q, fun q' hq' => h.met q' (hmem q' hq'),
    fun q' hq' => h.name q' (hmem q' hq'), fun q1 h1 q2 h2 => h.ids q1 (hmem q1 h1) q2 (hmem q2 h2),
    fun q' hq' => h.grid q' (hmem q' hq'), h.quiet⟩

theorem Index.handBack (h : Index s) (q : ℕ) : Index (s.handBack q) := by
  have hset : Index (s.setPlayer q { s.player q with savePending := false }) :=
    h.setPlayer ⟨rfl, id, rfl, id, rfl, rfl, rfl⟩
  have hnotify := hset.of_eq (t := (s.setPlayer q { s.player q with
    savePending := false }).notifyDisconnect q (s.player q).accountNo) rfl rfl rfl rfl rfl
  exact hnotify.leave q

theorem frame_handBack (h : Index s) (q : ℕ) :
    ∃ u, Frame s u ∧ Index u ∧ s.handBack q = u.leave q := by
  have hface : SameFace (s.player q) { s.player q with savePending := false } :=
    ⟨rfl, id, rfl, id, rfl, rfl, rfl⟩
  refine ⟨(s.setPlayer q { s.player q with savePending := false }).notifyDisconnect q
    (s.player q).accountNo, ?_, ?_, rfl⟩
  · exact (frame_setPlayer hface).trans (frame_of_eq rfl rfl rfl rfl rfl)
  · exact (h.setPlayer hface).of_eq rfl rfl rfl rfl rfl

theorem Index.setMonster (h : Index s) (id : ℤ) (m : Monster F) : Index (s.setMonster id m) :=
  h.of_eq rfl rfl rfl rfl rfl

theorem Index.moveMonster (h : Index s) (id : ℤ) (m : Monster F) : Index (s.moveMonster id m) :=
  h.of_eq rfl rfl rfl rfl rfl

theorem Index.removeItem (h : Index s) (id : ℤ) (c : Sector) : Index (s.removeItem id c) :=
  h.of_eq rfl rfl rfl rfl rfl

theorem Index.record (h : Index s) (e : Event) : Index (s.record e) := h.of_eq rfl rfl rfl rfl rfl

theorem Index.hitMonster (h : Index s) (q : ℕ) (id : ℤ) (m : Monster F) :
    Index (s.hitMonster q id m) :=
  ((h.setMonster id m).record _).broadcast _ _ _

variable [Machine F]

theorem Dropped.index {m : Monster F} (hd : Dropped s m t) (h : Index s) : Index t := by
  cases hd with
  | nothing rands => exact h.of_eq rfl rfl rfl rfl rfl
  | item itemId count rands =>
    apply Index.broadcast
    exact h.of_eq rfl rfl rfl rfl rfl

theorem Act.index (ha : Act s t) (h : Index s) : Index t := by
  cases ha with
  | fieldUpdate => exact h.record _
  | adjust q syncCnt targets hq => exact h.setPlayer ⟨rfl, id, rfl, id, rfl, rfl, rfl⟩
  | hit q id m hq hid hstate hm hdead hgrid => exact h.hitMonster q id m
  | kill q id m u hq hid hstate hm hdead hgrid hu =>
    exact (hu.index (h.hitMonster q id m)).of_eq rfl rfl rfl rfl rfl
  | aim q hq hne => exact h.setPlayer ⟨rfl, fun _ => calcSector_inGrid _, rfl, id, rfl, rfl, rfl⟩
  | cross q hq hne =>
    unfold State.cross
    have hspawns :=
      h.sendSpawns hq ((s.player q).destSector.around.diff (s.player q).currentSector.around)
    generalize hu : s.sendSpawns q _ = u at hspawns ⊢
    have hqu : q ∈ u.players := by
      rw [← hu]
      exact hq
    have hdespawns := hspawns.sendDespawns hqu
      ((s.player q).currentSector.around.diff (s.player q).destSector.around)
    have hplayer : (u.sendDespawns q ((s.player q).currentSector.around.diff
        (s.player q).destSector.around)).player q = s.player q := by
      rw [sendDespawns_player, ← hu, sendSpawns_player]
    have hmove := hdespawns.movePlayer (q := q) hqu
    rw [hplayer] at hmove
    exact hmove
  | damaged q m p hq hstate hp =>
      exact ((h.setPlayer (takeDamage_face hp)).record _).broadcast _ _ _
  | enter q accountNo characterID pos nickname hq hid =>
    have henter := h.enter (p := entered q accountNo characterID pos nickname) hq hid
      rfl (calcSector_inGrid pos) (calcSector_inGrid pos)
    exact henter.sendSpawns List.mem_cons_self _
  | moveStart q p packetPos direction hq hstate hsync hp =>
    have hface := (place_face (s.player q) packetPos direction).trans (changeState_face hp)
    exact ((h.setPlayer hface).record _).broadcast _ _ _
  | moveStop q p packetPos direction hq hsync hp =>
    have hface : SameFace (s.player q) p := by
      rcases hp with ⟨-, rfl⟩ | ⟨-, hp⟩
      · exact place_face _ _ _
      · exact (place_face _ _ _).trans (changeState_face hp)
    exact ((h.setPlayer hface).record _).broadcast _ _ _
  | attackReq q p skillId hq hstate hp =>
    have hface := changeState_face hp
    have hset : SameFace (s.player q) { p with pendingAttackSkillId := skillId } := hface
    exact ((h.setPlayer hset).record _).broadcast _ _ _
  | loot q id hq hid hgrid hcell =>
    have hadd : Index (s.setPlayer q ((s.player q).addItem (s.item id))) :=
      h.setPlayer ⟨rfl, fun h => h, rfl, fun h => h, rfl, rfl, rfl⟩
    exact (((hadd.broadcast _ _ _).sendPost hq _).record _).removeItem id _
  | send q packet hq hp => exact h.sendPost hq _
  | disconnectSession q => exact h.of_eq rfl rfl rfl rfl rfl
  | request q hq => exact h.of_eq rfl rfl rfl rfl rfl
  | save q hq hconnect hpending =>
    have hset : Index (s.setPlayer q { s.player q with savePending := true }) :=
      h.setPlayer ⟨rfl, id, rfl, id, rfl, rfl, rfl⟩
    exact (hset.record (.positionSave q)).of_eq rfl rfl rfl rfl rfl
  | dbDequeue job dbReqQ hjob hqueue => exact h.of_eq rfl rfl rfl rfl rfl
  | dbAnswer job ranking hjob => exact h.of_eq rfl rfl rfl rfl rfl
  | rehash players sectors monsters monsterSectors items itemSectors hp hs hm hms hi his =>
    exact h.perm rfl hp hs rfl rfl

theorem PlayerAct.index {q : ℕ} (ha : PlayerAct q s t) (h : Index s) : Index t := by
  cases ha with
  | update p hq hp hframe => exact h.setPlayer (update_face hp)
  | attackHit p hq hp hstate hframe => exact (h.setPlayer (update_face hp)).record _

omit [Machine F] in
theorem Index.disconnect (h : Index s) (q : ℕ) : Index (s.disconnect q) :=
  h.setPlayer ⟨rfl, id, rfl, fun hc => (by cases hc), rfl, rfl, rfl⟩

theorem MonsterAct.index {id : ℤ} (ha : MonsterAct id s t) (h : Index s) : Index t := by
  cases ha with
  | update m rands hid hm => exact h.of_eq rfl rfl rfl rfl rfl
  | cross hid hstate hne => exact ((h.broadcast _ _ _).broadcast _ _ _).moveMonster id _
  | proc ht =>
    cases ht with
    | moveStart hid hstate hbefore => exact (h.broadcast _ _ _).setMonster id _
    | moveAgain hid hstate hbefore => exact ((h.broadcast _ _ _).broadcast _ _ _).setMonster id _
    | attack hid hstate => exact ((h.broadcast _ _ _).broadcast _ _ _).setMonster id _
    | moveStop hid hstate hbefore => exact (h.broadcast _ _ _).setMonster id _
    | respawn hid hstate hbefore hsame =>
        exact ((h.broadcast _ _ _).broadcast _ _ _).setMonster id _
    | respawnAway hid hstate hbefore hne =>
      exact (((h.broadcast _ _ _).moveMonster id _).broadcast _ _ _).setMonster id _
    | settle hid hstate => exact h.setMonster id _

omit [Machine F] in
theorem ItemAct.index {id : ℤ} (ha : ItemAct id s t) (h : Index s) : Index t := by
  cases ha with
  | update hid hlife => exact h.of_eq rfl rfl rfl rfl rfl
  | expire hid hlife hgrid =>
    have hset : Index { s with item := Function.update s.item id (s.item id).update } :=
      h.of_eq rfl rfl rfl rfl rfl
    exact ((hset.broadcast _ _ _).record _).removeItem id _

/-! ### To whom something is sent -/

omit [Machine F]

/-- What is sent is sent to players. -/
def Letters (s t : State F) : Prop := ∀ q, q ∉ t.players → inbox q t.sent = inbox q s.sent

theorem letters_of_eq (h : t.sent = s.sent) : Letters s t := fun q _ => by rw [h]

theorem Letters.broadcast (h : Letters s t) (hindex : Index s) (hsec : t.sectors = s.sectors)
    (hps : t.players = s.players) (near : List Sector) (skip : ℕ → Bool) (packet : Packet F) :
    Letters s (t.broadcast near skip packet) := by
  intro q hq
  have hnone : inbox q (((t.near near).filter fun q => !skip q).map fun q => (q, packet)) = [] := by
    apply inbox_eq_nil
    rintro k hk rfl
    obtain ⟨q, hmem, rfl⟩ := List.mem_map.mp hk
    apply hq
    have hnear := List.mem_of_mem_filter hmem
    unfold State.near at hnear
    rw [hsec] at hnear
    change q ∈ t.players
    rw [hps]
    exact (hindex.mem_near.mp hnear).1
  unfold State.broadcast
  dsimp only
  rw [inbox_append, hnone, List.append_nil]
  exact h q hq

theorem Letters.sendAll (h : Letters s t) {q : ℕ} (hq : q ∈ t.players) (packets : List (Packet F)) :
    Letters s (t.sendAll q packets) := by
  intro q' hq'
  have hne : q' ≠ q := by
    rintro rfl
    exact hq' hq
  unfold State.sendAll
  dsimp only
  rw [inbox_append, inbox_map, if_neg hne, List.append_nil]
  exact h q' hq'

theorem Letters.sendPost (h : Letters s t) {q : ℕ} (hq : q ∈ t.players) (packet : Packet F) :
    Letters s (t.sendPost q packet) := h.sendAll hq [packet]

theorem Letters.sendSpawns (h : Letters s t) (hindex : Index s) (hsec : t.sectors = s.sectors)
    (hps : t.players = s.players) {q : ℕ} (hq : q ∈ t.players) (near : List Sector) :
    Letters s (t.sendSpawns q near) := by
  unfold State.sendSpawns State.sendItemSpawnBatch State.sendMonsterSpawnBatch State.sendSpawnBatch
    State.broadcastSpawn
  exact (((h.broadcast hindex hsec hps _ _ _).sendAll hq _).sendAll hq _).sendAll hq _

theorem Letters.sendDespawns (h : Letters s t) (hindex : Index s) (hsec : t.sectors = s.sectors)
    (hps : t.players = s.players) {q : ℕ} (hq : q ∈ t.players) (near : List Sector) :
    Letters s (t.sendDespawns q near) := by
  unfold State.sendDespawns State.sendItemDespawnBatch State.sendMonsterDespawnBatch
    State.sendDespawnBatch State.broadcastDespawn
  exact (((h.broadcast hindex hsec hps _ _ _).sendAll hq _).sendAll hq _).sendAll hq _

theorem Index.letters_cross (h : Index s) {q : ℕ} (hq : q ∈ s.players) : Letters s (s.cross q) := by
  have hstart : Letters s s := letters_of_eq rfl
  have hspawns := hstart.sendSpawns h rfl rfl hq
    ((s.player q).destSector.around.diff (s.player q).currentSector.around)
  obtain ⟨ks, hks⟩ := sends_sendSpawns (s := s) q
    ((s.player q).destSector.around.diff (s.player q).currentSector.around)
  unfold State.cross
  rw [hks] at hspawns ⊢
  have hdespawns := hspawns.sendDespawns h rfl rfl hq
    ((s.player q).currentSector.around.diff (s.player q).destSector.around)
  exact hdespawns

variable [Machine F]

theorem Dropped.letters {m : Monster F} (hd : Dropped s m t) (hindex : Index u) (h : Letters u s)
    (hsec : s.sectors = u.sectors) (hps : s.players = u.players) : Letters u t := by
  cases hd with
  | nothing rands => exact h
  | item itemId count rands =>
    apply Letters.broadcast _ hindex hsec hps
    exact h

theorem Act.letters (ha : Act s t) (h : Index s) : Letters s t := by
  have hstart : Letters s s := letters_of_eq rfl
  cases ha with
  | hit q id m hq hid hstate hm hdead hgrid =>
    unfold State.hitMonster State.broadcastMonsterDamaged
    exact Letters.broadcast (letters_of_eq rfl) h rfl rfl _ _ _
  | kill q id m u hq hid hstate hm hdead hgrid hu =>
    have hhit : Letters s (s.hitMonster q id m) := by
      unfold State.hitMonster State.broadcastMonsterDamaged
      exact Letters.broadcast (letters_of_eq rfl) h rfl rfl _ _ _
    have hdrop := hu.letters h hhit rfl rfl
    exact hdrop
  | cross q hq hne => exact h.letters_cross hq
  | damaged q m p hq hstate hp => exact Letters.broadcast (letters_of_eq rfl) h rfl rfl _ _ _
  | enter q accountNo characterID pos nickname hq hid =>
    have henter := h.enter (p := entered q accountNo characterID pos nickname) hq hid
      rfl (calcSector_inGrid pos) (calcSector_inGrid pos)
    have hspawns : Letters (s.enter q _) _ := Letters.sendSpawns
      (letters_of_eq rfl) henter rfl rfl List.mem_cons_self (calcSector pos).around
    exact hspawns
  | moveStart q p packetPos direction hq hstate hsync hp =>
      exact Letters.broadcast (letters_of_eq rfl) h rfl rfl _ _ _
  | moveStop q p packetPos direction hq hsync hp =>
      exact Letters.broadcast (letters_of_eq rfl) h rfl rfl _ _ _
  | attackReq q p skillId hq hstate hp =>
      exact Letters.broadcast (letters_of_eq rfl) h rfl rfl _ _ _
  | loot q id hq hid hgrid hcell =>
    have hset : Letters s (s.setPlayer q ((s.player q).addItem (s.item id))) := letters_of_eq rfl
    have hsend := (hset.broadcast h rfl rfl (s.item id).sector.around (fun _ => false)
      (.itemDespawn (s.item id).itemUniqueId)).sendPost hq
        (.lootRes 0 (s.item id).itemId (s.item id).count)
    exact hsend
  | send q packet hq hp => exact hstart.sendPost hq packet
  | _ => exact letters_of_eq rfl

omit [Machine F] in
theorem ProcAct.letters {id : ℤ} (ha : ProcAct id s t) (h : Index s) : Letters s t := by
  have hone : ∀ near packet, Letters s (s.broadcast near (fun _ => false) packet) :=
    fun _ _ => Letters.broadcast (letters_of_eq rfl) h rfl rfl _ _ _
  have htwo : ∀ near packet near' packet', Letters s
      ((s.broadcast near (fun _ => false) packet).broadcast near' (fun _ => false) packet') :=
    fun _ _ _ _ => (hone _ _).broadcast h rfl rfl _ _ _
  cases ha with
  | moveStart hid hstate hbefore => exact hone _ _
  | moveAgain hid hstate hbefore => exact htwo _ _ _ _
  | attack hid hstate => exact htwo _ _ _ _
  | moveStop hid hstate hbefore => exact hone _ _
  | respawn hid hstate hbefore hsame => exact htwo _ _ _ _
  | respawnAway hid hstate hbefore hne => exact htwo _ _ _ _
  | settle hid hstate => exact letters_of_eq rfl

theorem MonsterAct.letters {id : ℤ} (ha : MonsterAct id s t) (h : Index s) : Letters s t := by
  cases ha with
  | update m rands hid hm => exact letters_of_eq rfl
  | cross hid hstate hne =>
    have hspawn : Letters s (s.broadcastMonsterSpawn (s.monster id)
        ((s.monster id).destSector.around.diff (s.monster id).sector.around)) :=
      Letters.broadcast (letters_of_eq rfl) h rfl rfl _ _ _
    exact hspawn.broadcast h rfl rfl _ _ _
  | proc ht => exact ht.letters h

theorem PlayerAct.letters {q : ℕ} (ha : PlayerAct q s t) : Letters s t := by
  cases ha <;> exact letters_of_eq rfl

omit [Machine F] in
theorem ItemAct.letters {id : ℤ} (ha : ItemAct id s t) (h : Index s) : Letters s t := by
  cases ha with
  | update hid hlife => exact letters_of_eq rfl
  | expire hid hlife hgrid => exact Letters.broadcast (letters_of_eq rfl) h rfl rfl _ _ _

/-! ### Monsters -/

omit [Machine F] in
theorem MonsterIndex.of_eq (h : MonsterIndex s) (hm : t.monster = s.monster)
    (hms : t.monsters = s.monsters) (hsec : t.monsterSectors = s.monsterSectors) :
    MonsterIndex t := by
  refine ⟨?_, ?_, ?_⟩
  · rw [hms, hsec, hm]
    exact h.cells
  · rw [hms, hm]
    exact h.name
  · rw [hms, hm]
    exact h.grid

omit [Machine F] in
/-- A monster is rewritten where it is. -/
theorem MonsterIndex.setMonster
    (h : MonsterIndex s) {id : ℤ} {m : Monster F} (h1 : m.sector = (s.monster id).sector)
    (h2 : (s.monster id).destSector.InGrid → m.destSector.InGrid)
    (h3 : m.monsterID = (s.monster id).monsterID) :
    MonsterIndex (s.setMonster id m) := by
  have hsector : ∀ id', ((s.setMonster id m).monster id').sector = (s.monster id').sector := by
    intro id'
    rw [setMonster_monster]
    split_ifs with he
    · rw [he, h1]
    · rfl
  refine ⟨h.cells.congr fun id' _ => hsector id', fun id' hid' => ?_, fun id' hid' => ?_⟩
  · rw [setMonster_monster]
    split_ifs with he
    · subst he
      exact h3.trans (h.name id' hid')
    · exact h.name id' hid'
  · rw [hsector]
    refine ⟨(h.grid id' hid').1, ?_⟩
    rw [setMonster_monster]
    split_ifs with he
    · subst he
      exact h2 (h.grid id' hid').2
    · exact (h.grid id' hid').2

omit [Machine F] in
/-- A monster is taken from its cell into the one where it is to be. -/
theorem MonsterIndex.moveMonster (h : MonsterIndex s) {id : ℤ} (hid : id ∈ s.monsters) :
    MonsterIndex (s.moveMonster id (s.monster id)) := by
  have hself := moveMonster_monster s id (s.monster id)
  have hother : ∀ id', id' ≠ id → (s.moveMonster id (s.monster id)).monster id' = s.monster id' :=
    fun id' hne => Function.update_of_ne hne _ _
  have hcells : Cells s.monsters _ fun id' =>
      ((s.moveMonster id (s.monster id)).monster id').sector :=
    h.cells.move hid fun id' _ hne => congrArg Monster.sector (hother id' hne)
  refine ⟨?_, fun id' hid' => ?_, fun id' hid' => ?_⟩
  · rw [hself] at hcells
    exact hcells
  · by_cases hne : id' = id
    · rw [hne, hself]
      exact h.name id hid
    · rw [hother id' hne]
      exact h.name id' hid'
  · by_cases hne : id' = id
    · rw [hne, hself]
      exact ⟨(h.grid id hid).2, (h.grid id hid).2⟩
    · rw [hother id' hne]
      exact h.grid id' hid'

/-- A sector check leaves the monster where it can be. -/
theorem updateMonsterSectorCheck_grid {m : Monster F} (h : m.destSector.InGrid) :
    (updateMonsterSectorCheck m).destSector.InGrid := by
  unfold updateMonsterSectorCheck
  dsimp only
  split_ifs
  · exact h
  · exact calcSector_inGrid _

theorem MonsterIndex.hitMonster (h : MonsterIndex s) {q : ℕ} {id : ℤ} {m : Monster F}
    (hm : (s.monster id).takeDamage (s.player q).attackPower (s.player q) q = .ok m) :
    MonsterIndex (s.hitMonster q id m) := by
  have hset : MonsterIndex (s.setMonster id m) := by
    rw [monster_takeDamage_eq hm]
    exact h.setMonster rfl (fun h => h) rfl
  exact hset.of_eq rfl rfl rfl

theorem Dropped.monsterIndex {m : Monster F} (hd : Dropped s m t) (h : MonsterIndex s) :
    MonsterIndex t := by
  cases hd <;> exact h.of_eq rfl rfl rfl

theorem Act.monsterIndex (ha : Act s t) (h : MonsterIndex s) : MonsterIndex t := by
  cases ha with
  | hit q id m hq hid hstate hm hdead hgrid => exact h.hitMonster hm
  | kill q id m u hq hid hstate hm hdead hgrid hu =>
      exact (hu.monsterIndex (h.hitMonster hm)).of_eq rfl rfl rfl
  | cross q hq hne =>
    obtain ⟨sent, hrest⟩ := cross_rest (s := s) q
    rw [hrest]
    exact h.of_eq rfl rfl rfl
  | rehash players sectors monsters monsterSectors items itemSectors hp hs hm hms hi his =>
    exact ⟨h.cells.perm hm hms, fun id hid => h.name id (hm.mem_iff.mp hid),
      fun id hid => h.grid id (hm.mem_iff.mp hid)⟩
  | _ => exact h.of_eq rfl rfl rfl

theorem MonsterAct.monsterIndex {id : ℤ} (ha : MonsterAct id s t) (h : MonsterIndex s) :
    MonsterIndex t := by
  have hsettle : ∀ u : State F, MonsterIndex u → MonsterIndex (u.settle id) :=
    fun u hu => hu.setMonster rfl (fun h => h) rfl
  cases ha with
  | update m rands hid hm =>
    have hset : MonsterIndex (s.setMonster id (updateMonsterSectorCheck m)) := by
      rw [updateMonsterSectorCheck_eq, nextMonster_eq hm]
      refine h.setMonster rfl (fun hd => ?_) rfl
      exact updateMonsterSectorCheck_grid hd
    exact hset.of_eq rfl rfl rfl
  | cross hid hstate hne =>
    unfold State.crossMonster
    generalize hu : State.broadcastMonsterDespawn _ _ _ = u
    have hindex : MonsterIndex u := by
      rw [← hu]
      exact h.of_eq rfl rfl rfl
    have hmonster : u.monster = s.monster := by
      rw [← hu]
      rfl
    rw [← hmonster]
    apply hindex.moveMonster
    rw [← hu]
    exact hid
  | proc ht =>
    cases ht with
    | respawnAway hid hstate hbefore hne =>
      apply hsettle
      have hdespawn :
          MonsterIndex (s.broadcastMonsterDespawn (s.monster id) (s.monster id).sector.around) :=
        h.of_eq rfl rfl rfl
      exact (hdespawn.moveMonster hid).of_eq rfl rfl rfl
    | settle hid hstate => exact hsettle _ h
    | _ => exact hsettle _ (h.of_eq rfl rfl rfl)

omit [Machine F] in
theorem ItemAct.monsterIndex {id : ℤ} (ha : ItemAct id s t) (h : MonsterIndex s) :
    MonsterIndex t := by
  cases ha <;> exact h.of_eq rfl rfl rfl

/-! ### Items -/

omit [Machine F] in
theorem ItemIndex.of_eq (h : ItemIndex s) (hi : t.item = s.item) (his : t.items = s.items)
    (hsec : t.itemSectors = s.itemSectors) (hid : t.itemUniqueID = s.itemUniqueID) :
    ItemIndex t := by
  refine ⟨?_, ?_, ?_, ?_⟩
  · rw [hi, his, hsec]
    exact h.cells
  · rw [hi, his]
    exact h.name
  · rw [hi, his]
    exact h.grid
  · rw [his, hid]
    exact h.fresh

omit [Machine F] in
theorem ItemIndex.not_mem (h : ItemIndex s) {id : ℤ} (hid : s.itemUniqueID < id) : id ∉ s.items :=
  fun hmem => absurd (h.fresh id hmem) (by omega)

omit [Machine F] in
theorem ItemIndex.addItem (h : ItemIndex s) {item : FieldItem F}
    (hid : item.itemUniqueId = s.itemUniqueID + 1) (hgrid : item.sector.InGrid) :
    ItemIndex (s.addItem item) := by
  have hnot : item.itemUniqueId ∉ s.items := h.not_mem (by omega)
  have hself : (s.addItem item).item item.itemUniqueId = item := Function.update_self _ _ _
  have hother : ∀ id ∈ s.items, (s.addItem item).item id = s.item id := by
    intro id hmem
    apply Function.update_of_ne
    rintro rfl
    exact hnot hmem
  have hcells : Cells (item.itemUniqueId :: s.items) _ fun id =>
      ((s.addItem item).item id).sector :=
    h.cells.insert hnot fun id hmem => congrArg FieldItem.sector (hother id hmem)
  refine ⟨?_, fun id hmem => ?_, fun id hmem => ?_, fun id hmem => ?_⟩
  · rw [hself] at hcells
    exact hcells
  · rcases List.mem_cons.mp hmem with rfl | hmem
    · rw [hself]
    · rw [hother id hmem]
      exact h.name id hmem
  · rcases List.mem_cons.mp hmem with rfl | hmem
    · rw [hself]
      exact hgrid
    · rw [hother id hmem]
      exact h.grid id hmem
  · change id ≤ item.itemUniqueId
    rcases List.mem_cons.mp hmem with rfl | hmem
    · exact le_rfl
    · have := h.fresh id hmem
      omega

omit [Machine F] in
theorem ItemIndex.removeItem (h : ItemIndex s) (id : ℤ) :
    ItemIndex (s.removeItem id (s.item id).sector) := by
  have hmem : ∀ id' ∈ (s.removeItem id (s.item id).sector).items, id' ∈ s.items :=
    fun id' hid' => (h.cells.mem_erase.mp hid').2
  exact ⟨h.cells.erase id, fun id' hid' => h.name id' (hmem id' hid'),
    fun id' hid' => h.grid id' (hmem id' hid'), fun id' hid' => h.fresh id' (hmem id' hid')⟩

omit [Machine F] in
theorem ItemIndex.grow (h : ItemIndex s) (id : ℤ) :
    ItemIndex { s with item := Function.update s.item id (s.item id).update } := by
  have hsame : ∀ id', (Function.update s.item id (s.item id).update id').sector =
      (s.item id').sector ∧
      (Function.update s.item id (s.item id).update id').itemUniqueId =
        (s.item id').itemUniqueId := by
    intro id'
    rw [Function.update_apply]
    split_ifs with he
    · rw [he]
      exact ⟨rfl, rfl⟩
    · exact ⟨rfl, rfl⟩
  refine ⟨h.cells.congr fun id' _ => (hsame id').1,
    fun id' hid' => (hsame id').2.trans (h.name id' hid'), fun id' hid' => ?_, h.fresh⟩
  rw [(hsame id').1]
  exact h.grid id' hid'

theorem Dropped.itemIndex {m : Monster F} (hd : Dropped s m t) (h : ItemIndex s) : ItemIndex t := by
  cases hd with
  | nothing rands => exact h.of_eq rfl rfl rfl rfl
  | item itemId count rands =>
    have hrecord : ItemIndex { (s.record (.dropItem m.monsterID)).record
        (.itemCreated (s.itemUniqueID + 1) itemId count) with rands } := h.of_eq rfl rfl rfl rfl
    have hadd : ItemIndex (State.addItem _ (droppedItem s m itemId count)) :=
      hrecord.addItem rfl (calcSector_inGrid _)
    exact hadd.of_eq rfl rfl rfl rfl

theorem Act.itemIndex (ha : Act s t) (h : ItemIndex s) : ItemIndex t := by
  cases ha with
  | kill q id m u hq hid hstate hm hdead hgrid hu =>
    have hhit : ItemIndex (s.hitMonster q id m) := h.of_eq rfl rfl rfl rfl
    exact (hu.itemIndex hhit).of_eq rfl rfl rfl rfl
  | cross q hq hne =>
    obtain ⟨sent, hrest⟩ := cross_rest (s := s) q
    rw [hrest]
    exact h.of_eq rfl rfl rfl rfl
  | loot q id hq hid hgrid hcell =>
    generalize hu : State.record _ _ = u
    have hindex : ItemIndex u := by
      rw [← hu]
      exact h.of_eq rfl rfl rfl rfl
    have hitem : u.item = s.item := by
      rw [← hu]
      rfl
    rw [← hitem]
    exact hindex.removeItem id
  | rehash players sectors monsters monsterSectors items itemSectors hp hs hm hms hi his =>
    exact ⟨h.cells.perm hi his, fun id hid => h.name id (hi.mem_iff.mp hid),
      fun id hid => h.grid id (hi.mem_iff.mp hid), fun id hid => h.fresh id (hi.mem_iff.mp hid)⟩
  | _ => exact h.of_eq rfl rfl rfl rfl

theorem MonsterAct.itemIndex {id : ℤ} (ha : MonsterAct id s t) (h : ItemIndex s) : ItemIndex t := by
  cases ha with
  | proc ht => cases ht <;> exact h.of_eq rfl rfl rfl rfl
  | _ => exact h.of_eq rfl rfl rfl rfl

omit [Machine F] in
theorem ItemAct.itemIndex {id : ℤ} (ha : ItemAct id s t) (h : ItemIndex s) : ItemIndex t := by
  cases ha with
  | update hid hlife => exact h.grow id
  | expire hid hlife hgrid =>
    have hgrow : ItemIndex { s with item := Function.update s.item id (s.item id).update } :=
      h.grow id
    have hsend : ItemIndex (({ s with
        item := Function.update s.item id (s.item id).update }.broadcastItemDespawn
          (s.item id).update (s.item id).sector.around).record (.expired id)) :=
      hgrow.of_eq rfl rfl rfl rfl
    have hremove := hsend.removeItem id
    have hsector : (Function.update s.item id (s.item id).update id).sector =
        (s.item id).sector := by
      rw [Function.update_self]
      rfl
    change ItemIndex (State.removeItem _ id
      (Function.update s.item id (s.item id).update id).sector) at hremove
    rw [hsector] at hremove
    exact hremove

/-! ### Everything -/

theorem Act.sound (ha : Act s t) (h : Sound s) : Sound t :=
  ⟨ha.index h.players, ha.monsterIndex h.monsters, ha.itemIndex h.items⟩

theorem MonsterAct.sound {id : ℤ} (ha : MonsterAct id s t) (h : Sound s) : Sound t :=
  ⟨ha.index h.players, ha.monsterIndex h.monsters, ha.itemIndex h.items⟩

omit [Machine F] in
theorem ItemAct.sound {id : ℤ} (ha : ItemAct id s t) (h : Sound s) : Sound t :=
  ⟨ha.index h.players, ha.monsterIndex h.monsters, ha.itemIndex h.items⟩

theorem PlayerAct.sound {q : ℕ} (ha : PlayerAct q s t) (h : Sound s) : Sound t := by
  refine ⟨ha.index h.players, ?_, ?_⟩
  · cases ha <;> exact h.monsters.of_eq rfl rfl rfl
  · cases ha <;> exact h.items.of_eq rfl rfl rfl rfl

omit [Machine F] in
theorem Sound.disconnect (h : Sound s) (q : ℕ) : Sound (s.disconnect q) :=
  ⟨h.players.disconnect q, h.monsters.of_eq rfl rfl rfl, h.items.of_eq rfl rfl rfl rfl⟩

theorem Stay.sound (ha : Stay s t) (h : Sound s) : Sound t := by
  rcases ha with ((ha | ⟨id, ha⟩) | ⟨q, ha⟩) | ⟨id, ha⟩ | ⟨q, rfl⟩
  · exact ha.sound h
  · exact ha.sound h
  · exact ha.sound h
  · exact ha.sound h
  · exact h.disconnect q

omit [Machine F] in
theorem Sound.takeResults (h : Sound s) : Sound { s with dbResQ := [] } :=
  ⟨h.players.of_eq rfl rfl rfl rfl rfl, h.monsters.of_eq rfl rfl rfl, h.items.of_eq rfl rfl rfl rfl⟩

omit [Machine F] in
theorem Sound.handBack (h : Sound s) (q : ℕ) : Sound (s.handBack q) :=
  ⟨h.players.handBack q, h.monsters.of_eq rfl rfl rfl, h.items.of_eq rfl rfl rfl rfl⟩

theorem Stays.sound (ha : Stays s t) (h : Sound s) : Sound t :=
  ha.keeps (P := Sound) (fun hs ha => ha.sound hs) (fun hs ha => ha.sound hs)
    (fun hs ha => ha.sound hs) (fun hs ha => ha.sound hs) (fun hs => hs.disconnect _) h

/-! ### Runs -/

/-- Nobody has entered, and the monsters are numbered from 0. -/
structure Fresh (s : State F) : Prop extends Sound s where
  nobody : s.players = [] ∧ s.met = [] ∧ s.sent = [] ∧ s.history = []
  nothing : s.items = []
  idle : s.dbReqQ = [] ∧ s.dbJob = none ∧ s.dbResQ = [] ∧ s.notifyMsgQ = []
  numbered : ∀ id ∈ s.monsters, id < s.monsters.length
  still : ∀ id ∈ s.monsters, (s.monster id).state = .idle ∧ (s.monster id).beforeState = .idle ∧
    (s.monster id).destSector = (s.monster id).sector ∧
      (s.monster id).sector = calcSector (s.monster id).pos

omit [Machine F] in
theorem MonsterIndex.addMonster (h : MonsterIndex s) {id : ℤ} {m : Monster F}
    (hm : t.monster = Function.update s.monster id m) (hms : t.monsters = id :: s.monsters)
    (hcells : t.monsterSectors =
      Function.update s.monsterSectors m.sector (id :: s.monsterSectors m.sector))
    (hname : m.monsterID = id) (hnew : id ∉ s.monsters) (hsec : m.sector.InGrid)
    (hdest : m.destSector.InGrid) :
    MonsterIndex t := by
  have hself : t.monster id = m := by
    rw [hm, Function.update_self]
  have hother : ∀ id' ∈ s.monsters, t.monster id' = s.monster id' := by
    intro id' hid
    rw [hm]
    apply Function.update_of_ne
    rintro rfl
    exact hnew hid
  have hadd : Cells (id :: s.monsters) _ fun id' => (t.monster id').sector :=
    h.cells.insert hnew fun id' hid => congrArg Monster.sector (hother id' hid)
  refine ⟨?_, fun id' hid => ?_, fun id' hid => ?_⟩
  · rw [hself] at hadd
    rw [hms, hcells]
    exact hadd
  · rw [hms] at hid
    rcases List.mem_cons.mp hid with rfl | hid
    · rw [hself]
      exact hname
    · rw [hother id' hid]
      exact h.name id' hid
  · rw [hms] at hid
    rcases List.mem_cons.mp hid with rfl | hid
    · rw [hself]
      exact ⟨hsec, hdest⟩
    · rw [hother id' hid]
      exact h.grid id' hid

theorem Fresh.spawnMonster (h : Fresh s) (cell : ℤ × ℤ) : Fresh (spawnMonster s cell) := by
  unfold Field.spawnMonster
  dsimp only
  split_ifs
  · exact ⟨⟨h.players.of_eq rfl rfl rfl rfl rfl, h.monsters.of_eq rfl rfl rfl,
      h.items.of_eq rfl rfl rfl rfl⟩, h.nobody, h.nothing, h.idle, h.numbered, h.still⟩
  · have hnew : (s.monsters.length : ℤ) ∉ s.monsters := fun hmem => lt_irrefl _ (h.numbered _ hmem)
    refine ⟨⟨h.players.of_eq rfl rfl rfl rfl rfl, h.monsters.addMonster rfl rfl rfl rfl hnew ?_ ?_,
      h.items.of_eq rfl rfl rfl rfl⟩, h.nobody, h.nothing, h.idle, ?_, ?_⟩
    · exact calcSector_inGrid _
    · exact calcSector_inGrid _
    · intro id hid
      change id < ((s.monsters.length + 1 : ℕ) : ℤ)
      rcases List.mem_cons.mp hid with rfl | hid
      · omega
      · have := h.numbered id hid
        omega
    · intro id hid
      dsimp only
      rw [setMonster_monster]
      split_ifs with he
      · exact ⟨rfl, rfl, rfl, rfl⟩
      · exact h.still id ((List.mem_cons.mp hid).resolve_left he)

theorem fresh_spawnMonsters (rands : Rands) : Fresh (spawnMonsters (empty rands) : State F) := by
  have hempty : Fresh (empty rands : State F) := by
    refine ⟨⟨⟨.nil, ?_, ?_, ?_, ?_, fun _ _ => rfl⟩, ⟨.nil, ?_, ?_⟩, ⟨.nil, ?_, ?_, ?_⟩⟩,
      ⟨rfl, rfl, rfl, rfl⟩, rfl, ⟨rfl, rfl, rfl, rfl⟩, ?_, ?_⟩ <;> intro _ hmem <;> cases hmem
  unfold spawnMonsters
  generalize cells = cs
  generalize (empty rands : State F) = s at hempty ⊢
  induction cs generalizing s with
  | nil => exact hempty
  | cons cell cs ih => exact ih _ (hempty.spawnMonster cell)

/-- What the effects keep where the registration is right holds in every run. -/
theorem field_invariant {P : State F → Prop} (hinit : ∀ rands, P (spawnMonsters (empty rands)))
    (hact : ∀ {s t}, Sound s → P s → Act s t → P t)
    (hmonster : ∀ {id s t}, Sound s → P s → MonsterAct id s t → P t)
    (hplayer : ∀ {q s t}, Sound s → P s → PlayerAct q s t → P t)
    (hitem : ∀ {id s t}, Sound s → P s → ItemAct id s t → P t)
    (hend : ∀ {s : State F} {q}, Sound s → P s → P (s.disconnect q))
    (htake : ∀ {s : State F}, Sound s → P s → P { s with dbResQ := [] })
    (hleave : ∀ {s : State F} {q}, Sound s → P s → q ∈ s.players → P (s.handBack q))
    (h : field.Reachable s) :
    Sound s ∧ P s :=
  field_keeps (P := fun s => Sound s ∧ P s) (fun rands => ⟨(fresh_spawnMonsters rands).toSound,
    hinit rands⟩) (fun _ hs => hs.1.items.cells.nodup) (fun hs ha => ⟨ha.sound hs.1,
    hact hs.1 hs.2 ha⟩) (fun hs ha => ⟨ha.sound hs.1, hmonster hs.1 hs.2 ha⟩) (fun hs ha =>
    ⟨ha.sound hs.1, hplayer hs.1 hs.2 ha⟩) (fun hs ha => ⟨ha.sound hs.1, hitem hs.1 hs.2 ha⟩)
    (fun hs => ⟨hs.1.disconnect _, hend hs.1 hs.2⟩) (fun hs => ⟨hs.1.takeResults, htake hs.1 hs.2⟩)
    (fun hs hq => ⟨hs.1.handBack _, hleave hs.1 hs.2 hq⟩) h

/-- The containers agree in every run. -/
theorem sound (h : field.Reachable s) : Sound s :=
  (field_invariant (P := fun _ => True) (fun _ => trivial) (fun _ _ _ => trivial)
    (fun _ _ _ => trivial) (fun _ _ _ => trivial) (fun _ _ _ => trivial) (fun _ _ => trivial)
    (fun _ _ => trivial) (fun _ _ _ => trivial) h).1

/-- What every step keeps of the states whose registration is right holds in every run. -/
theorem field_runs {P : State F → Prop} (hinit : ∀ {s}, Fresh s → P s)
    (hstep : ∀ {s t} {l : Step F}, Sound s → P s → step s l = some (.ok t) → P t)
    (h : field.Reachable s) : P s := by
  have hinv : field.Invariant (fun s : State F => field.Reachable s ∧ P s) := by
    constructor
    · intro s hs
      obtain ⟨rands, hs⟩ := hs
      refine ⟨System.Reachable.start ⟨rands, hs⟩, ?_⟩
      rw [hs]
      exact hinit (fresh_spawnMonsters rands)
    · intro s t l hs he
      exact ⟨hs.1.step l he, hstep (sound hs.1) hs.2 (field_next.mp he)⟩
  exact (hinv.reachable h).2

/-- The same of the runs all of whose steps meet `G`. -/
theorem field_runs_if {G : State F → Step F → Prop} {P : State F → Prop}
    (hinit : ∀ {s}, Fresh s → P s)
    (hstep : ∀ {s t} {l : Step F}, Sound s → P s → G s l → step s l = some (.ok t) → P t)
    (h : (field.restrict G).Reachable s) : P s := by
  have hinv : (field.restrict G).Invariant (fun s : State F => field.Reachable s ∧ P s) := by
    apply System.restrict_invariant
    · intro s hs
      obtain ⟨rands, hs⟩ := hs
      refine ⟨System.Reachable.start ⟨rands, hs⟩, ?_⟩
      rw [hs]
      exact hinit (fresh_spawnMonsters rands)
    · intro s t l hs hl he
      exact ⟨hs.1.step l he, hstep (sound hs.1) hs.2 hl (field_next.mp he)⟩
  exact (hinv.reachable h).2

end

/-! ### What the runs are made of -/

section

/-- A message with this payload. -/
def packet (payload : List UInt8) : Message := ⟨⟨0, 0⟩, 0, payload, 0⟩

/-- MOVE_START at (0, 0) in the speed of a player, 4.5. -/
def moveStartMsg (direction : UInt8) : Message :=
  packet [106, 0, 0, 0, 0, 0, 0, 0, 0, 0, 0, 0, 0, 0, 0, 0, 0, 0, direction, 0, 0, 0x90, 0x40]

/-- PLAYER_ATTACK_REQ for the monster 0. -/
def attackMsg : Message := packet [113, 0, 0, 1, 0, 0, 0, 0, 0, 0, 0, 0, 0]

/-- LOOT_REQ for the item 1. -/
def lootMsg : Message := packet [121, 0, 1, 0, 0, 0, 0, 0, 0, 0]

/-- The field before anybody enters, with the monster 0 at (0, 0). -/
def oneMonster : State ℚ :=
  spawnMonsters (empty fun n => if n = 0 then 1 else if n < 402 then 0 else 1)

theorem oneMonster_init : field.init oneMonster := ⟨_, rfl⟩

/-- Session 1 turns to the corner, attacks, and the attack hits. -/
def strike : List (Step ℚ) :=
  [.contentsPacket 1 (moveStartMsg 6), .contentsPacket 1 attackMsg] ++ List.replicate 8 .fieldUpdate

/-- Session 1 enters beside the monster and kills it. -/
def killRun : List (Step ℚ) := [.registerPlayer 1 7 11 ⟨0, 0⟩ []] ++ strike ++ strike ++ strike

end

end Field
end MyMMO
