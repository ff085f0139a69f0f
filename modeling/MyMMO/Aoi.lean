/-
# Who sees whom

Between the operations of the field thread a connected player knows exactly the others that are
registered in the block of sectors around its own (`consistent`), in every run in which
no result of a PositionSave removes a player that somebody connected still sees (`Unseen`).
`dbResultPacketProc` sends no despawn (`left_behind`).
-/
import MyMMO.FieldIndex

namespace MyMMO
namespace Field

open Outcome

variable {F : Type}

/-- The characters of the other players that are registered around `q`. -/
def others (s : State F) (q : ℕ) : Finset ℤ :=
  (((s.near (s.player q).currentSector.around).filter (· ≠ q)).map fun q' =>
    (s.player q').characterID).toFinset

/-- The registration is right, and every connected player knows whom it sees. -/
structure Aoi (s : State F) : Prop extends Index s where
  view : ∀ q ∈ s.players, (s.player q).connect = true → known s q = some (others s q)

section

variable {s t : State F}

theorem Index.mem_others (h : Index s) {q : ℕ} {id : ℤ} :
    id ∈ others s q ↔ ∃ q' ∈ s.players, q' ≠ q ∧ (s.player q').currentSector ∈
        (s.player q).currentSector.around ∧
      (s.player q').characterID = id := by
  unfold others
  rw [List.mem_toFinset, List.mem_map]
  constructor
  · rintro ⟨q', hq', rfl⟩
    obtain ⟨hmem, hne⟩ := List.mem_filter.mp hq'
    obtain ⟨h1, h2⟩ := h.mem_near.mp hmem
    exact ⟨q', h1, of_decide_eq_true hne, h2, rfl⟩
  · rintro ⟨q', h1, hne, h2, rfl⟩
    exact ⟨q', List.mem_filter.mpr ⟨h.mem_near.mpr ⟨h1, h2⟩, decide_eq_true hne⟩, rfl⟩

theorem Frame.others (hf : Frame s t) (q : ℕ) : others t q = others s q := by
  have hnear : ∀ near, t.near near = s.near near := by
    intro near
    unfold State.near
    rw [hf.sectors]
  unfold Field.others
  rw [hf.currentSector, hnear]
  simp only [hf.characterID]

theorem Frame.aoi (hf : Frame s t) (hindex : Index t) (h : Aoi s) : Aoi t := by
  refine ⟨hindex, fun q hq hc => ?_⟩
  rw [hf.players] at hq
  rw [hf.known, hf.others]
  exact h.view q hq (hf.connect q hc)

/-! ### What packets do to a client's knowledge -/

/-- The ids of the players of `near`, `q` apart. -/
def nearIds (s : State F) (q : ℕ) (near : List Sector) : List ℤ :=
  ((s.near near).filter (· ≠ q)).map fun q' => (s.player q').characterID

theorem Index.mem_nearIds (h : Index s) {q : ℕ} {near : List Sector} {id : ℤ} :
    id ∈ nearIds s q near ↔
      ∃ q' ∈ s.players, q' ≠ q ∧ (s.player q').currentSector ∈ near ∧
        (s.player q').characterID = id := by
  unfold nearIds
  rw [List.mem_map]
  constructor
  · rintro ⟨q', hq', rfl⟩
    obtain ⟨hmem, hne⟩ := List.mem_filter.mp hq'
    obtain ⟨h1, h2⟩ := h.mem_near.mp hmem
    exact ⟨q', h1, of_decide_eq_true hne, h2, rfl⟩
  · rintro ⟨q', h1, hne, h2, rfl⟩
    exact ⟨q', List.mem_filter.mpr ⟨h.mem_near.mpr ⟨h1, h2⟩, decide_eq_true hne⟩, rfl⟩

theorem Index.nearIds_nodup (h : Index s) (q : ℕ) {near : List Sector} (hnd : near.Nodup) :
    (nearIds s q near).Nodup := by
  unfold nearIds
  apply List.Nodup.map_on _ ((h.near_nodup hnd).filter _)
  intro q1 h1 q2 h2 he
  have hm1 := (h.mem_near.mp (List.mem_of_mem_filter h1)).1
  have hm2 := (h.mem_near.mp (List.mem_of_mem_filter h2)).1
  exact h.ids q1 hm1 q2 hm2 he

theorem known_sendAll (s : State F) (q : ℕ) (packets : List (Packet F)) (q' : ℕ) :
    known (s.sendAll q packets) q' = if q' = q then packets.foldl see (known s q) else known s q' :=
  told_sendAll s q packets q'

theorem known_broadcast {near : List Sector} (hnd : (s.near near).Nodup) (skip : ℕ → Bool)
    (packet : Packet F) (q : ℕ) :
    known (s.broadcast near skip packet) q =
      if q ∈ s.near near ∧ skip q = false then see (known s q) packet else known s q :=
  told_broadcast hnd skip packet q

/-- Packets about monsters and items. -/
theorem known_sendNeutral {ρ : Type} (s : State F) (q : ℕ) (l : List ρ) (packet : ρ → Packet F)
    (hn : ∀ r, Neutral (packet r)) (q' : ℕ) :
    known (s.sendAll q (l.map packet)) q' = known s q' := by
  apply Frame.known
  apply frame_sendAll
  intro k hk
  obtain ⟨r, -, rfl⟩ := List.mem_map.mp hk
  exact hn r

theorem known_sendSpawns (h : Index s) {near : List Sector} (hnd : near.Nodup) (q q' : ℕ) :
    known (s.sendSpawns q near) q' =
      if q' = q then (nearIds s q near).foldl learn (known s q)
      else if q' ∈ s.near near then learn (known s q') (s.player q).characterID
      else known s q' := by
  unfold State.sendSpawns State.sendItemSpawnBatch State.sendMonsterSpawnBatch
  dsimp only
  rw [known_sendNeutral _ _ _ _ fun _ _ => rfl, known_sendNeutral _ _ _ _ fun _ _ => rfl]
  unfold State.sendSpawnBatch
  rw [known_sendAll, foldl_batch fun _ _ _ => List.foldl_map, batches_flatMap,
    ← List.foldl_map (f := CharacterRecord.characterID) (g := learn)]
  unfold State.broadcastSpawn
  rw [known_broadcast (h.near_nodup hnd), known_broadcast (h.near_nodup hnd), List.map_map]
  by_cases hq : q' = q
  · subst hq
    simp only [decide_true, Bool.true_eq_false, and_false, if_false, if_true]
    rfl
  · simp only [hq, decide_false, and_true, if_false]
    rfl

theorem known_sendDespawns (h : Index s) {near : List Sector} (hnd : near.Nodup) {q : ℕ}
    (hq : q ∈ s.players) (q' : ℕ) {ids : Finset ℤ} (hk : known s q' = some ids) :
    known (s.sendDespawns q near) q' =
      if q' = q then some (ids \ (nearIds s q near).toFinset)
      else if q' ∈ s.near near then some (ids.erase (s.player q).characterID)
      else some ids := by
  unfold State.sendDespawns State.sendItemDespawnBatch State.sendMonsterDespawnBatch
  dsimp only
  rw [known_sendNeutral _ _ _ _ fun _ _ => rfl, known_sendNeutral _ _ _ _ fun _ _ => rfl]
  -- the characters are told apart by their ids
  have hsame : ∀ q'' ∈ s.near near, ((s.player q'').characterID = (s.player q).characterID ↔
      q'' = q) := by
    intro q'' hq''
    constructor
    · exact h.ids q'' (h.mem_near.mp hq'').1 q hq
    · intro he
      rw [he]
  have hlist : (s.near near).filter (fun q'' => (s.player q'').characterID ≠
      (s.player q).characterID) = (s.near near).filter (· ≠ q) := by
    apply List.filter_congr
    intro q'' hq''
    simp only [ne_eq, hsame q'' hq'']
  unfold State.sendDespawnBatch
  rw [known_sendAll]
  unfold State.broadcastDespawn
  rw [known_broadcast (h.near_nodup hnd), known_broadcast (h.near_nodup hnd)]
  by_cases hq' : q' = q
  · subst hq'
    have hids : (nearIds s q' near).map Packet.characterDespawn =
        ((s.near near).filter fun q'' => (s.player q'').characterID ≠ (s.player q').characterID).map
          fun q'' => (Packet.characterDespawn (s.player q'').characterID : Packet F) := by
      rw [hlist, nearIds, List.map_map]
      rfl
    have hdespawn :=
      @foldl_despawn F see Packet.characterDespawn (fun _ _ => rfl) (nearIds s q' near) ids
    rw [hids] at hdespawn
    simp only [decide_true, Bool.true_eq_false, and_false, if_false, if_true, hk]
    exact hdespawn
  · simp only [hq', if_false]
    by_cases hmem : q' ∈ s.near near
    · have hne : ¬ (s.player q').characterID = (s.player q).characterID :=
        fun he => hq' ((hsame q' hmem).mp he)
      simp only [hmem, hne, decide_false, and_self, if_true, hk]
      rfl
    · simp only [hmem, false_and, if_false, hk]

theorem Index.id_mem_others (h : Index s) {q q' : ℕ} (hq' : q' ∈ s.players) :
    (s.player q').characterID ∈ others s q ↔
      q' ≠ q ∧ (s.player q').currentSector ∈ (s.player q).currentSector.around := by
  rw [h.mem_others]
  constructor
  · rintro ⟨q'', h1, hne, hc, he⟩
    obtain rfl := h.ids q'' h1 q' hq' he
    exact ⟨hne, hc⟩
  · rintro ⟨hne, hc⟩
    exact ⟨q', hq', hne, hc, rfl⟩

theorem Index.id_mem_nearIds (h : Index s) {q q' : ℕ} (hq' : q' ∈ s.players) {near : List Sector} :
    (s.player q').characterID ∈ nearIds s q near ↔ q' ≠ q ∧ (s.player q').currentSector ∈ near := by
  rw [h.mem_nearIds]
  constructor
  · rintro ⟨q'', h1, hne, hc, he⟩
    obtain rfl := h.ids q'' h1 q' hq' he
    exact ⟨hne, hc⟩
  · rintro ⟨hne, hc⟩
    exact ⟨q', hq', hne, hc, rfl⟩

/-- Ids of players are those of the others if they are so player by player. -/
theorem Index.eq_others (h : Index s) {q : ℕ} {ids : Finset ℤ}
    (hsub : ∀ id ∈ ids, ∃ q' ∈ s.players, (s.player q').characterID = id)
    (hmem : ∀ q' ∈ s.players, ((s.player q').characterID ∈ ids ↔
      q' ≠ q ∧ (s.player q').currentSector ∈ (s.player q).currentSector.around)) :
        ids = others s q := by
  ext id
  constructor
  · intro hid
    obtain ⟨q', hq', rfl⟩ := hsub id hid
    exact (h.id_mem_others hq').mpr ((hmem q' hq').mp hid)
  · intro hid
    obtain ⟨q', hq', hne, hc, rfl⟩ := h.mem_others.mp hid
    exact (hmem q' hq').mpr ⟨hne, hc⟩

/-! ### A player crosses into another sector -/

theorem movePlayer_currentSector (s : State F) (q q' : ℕ) (p : Player F) :
    ((s.movePlayer q p).player q').currentSector = if q' = q then p.destSector else
    (s.player q').currentSector := by
  simp only [State.movePlayer, State.setPlayer, Function.update_apply]
  split_ifs <;> rfl

theorem movePlayer_characterID (s : State F) (q q' : ℕ) (p : Player F) :
    ((s.movePlayer q p).player q').characterID = if q' = q then p.characterID else
    (s.player q').characterID := by
  simp only [State.movePlayer, State.setPlayer, Function.update_apply]
  split_ifs <;> rfl

theorem movePlayer_id (s : State F) (q q' : ℕ) :
    ((s.movePlayer q (s.player q)).player q').characterID = (s.player q').characterID := by
  rw [movePlayer_characterID]
  split_ifs with he
  · rw [he]
  · rfl

/-- What the client of the one who crosses knows afterwards. -/
theorem Aoi.view_crosser (h : Aoi s) {q : ℕ} (hq : q ∈ s.players) (hc : (s.player q).connect = true)
    {spawn despawn : List Sector} (hns : spawn.Nodup) (hnd : despawn.Nodup)
    (hs : ∀ c, c ∈ spawn ↔ c ∈ (s.player q).destSector.around ∧
      c ∉ (s.player q).currentSector.around) :
    known ((s.sendSpawns q spawn).sendDespawns q despawn) q =
      some ((others s q ∪ (nearIds s q spawn).toFinset) \ (nearIds s q despawn).toFinset) := by
  have hnew : ∀ id ∈ nearIds s q spawn, id ∉ others s q := by
    intro id hid hmem
    obtain ⟨q', hq', -, hc', rfl⟩ := h.mem_nearIds.mp hid
    exact ((hs _).mp hc').2 ((h.id_mem_others hq').mp hmem).2
  have hspawn : known (s.sendSpawns q spawn) q =
      some (others s q ∪ (nearIds s q spawn).toFinset) := by
    rw [known_sendSpawns h.toIndex hns, if_pos rfl, h.view q hq hc]
    exact foldl_learn (h.nearIds_nodup q hns) hnew
  rw [known_sendDespawns (h.toIndex.sendSpawns hq _) hnd hq q hspawn, if_pos rfl]
  rfl

/-- What the client of somebody else knows afterwards. -/
theorem Aoi.view_witness (h : Aoi s) {q q' : ℕ} (hq : q ∈ s.players) (hq' : q' ∈ s.players)
    (hne : q' ≠ q) (hc : (s.player q').connect = true) {spawn despawn : List Sector}
    (hns : spawn.Nodup) (hnd : despawn.Nodup)
    (hs : ∀ c, c ∈ spawn ↔ c ∈ (s.player q).destSector.around ∧
      c ∉ (s.player q).currentSector.around)
    (hd : ∀ c, c ∈ despawn ↔ c ∈ (s.player q).currentSector.around ∧
      c ∉ (s.player q).destSector.around) :
    known ((s.sendSpawns q spawn).sendDespawns q despawn) q' =
      some (if (s.player q').currentSector ∈ spawn then insert
        (s.player q).characterID (others s q') else if (s.player q').currentSector ∈ despawn then
        (others s q').erase (s.player q).characterID else others s q') := by
  have hmem : ∀ near, q' ∈ s.near near ↔ (s.player q').currentSector ∈ near := by
    intro near
    rw [h.mem_near]
    exact ⟨And.right, fun hc => ⟨hq', hc⟩⟩
  have hgrid := (h.grid q hq).1
  have hgrid' := (h.grid q' hq').1
  by_cases h1 : (s.player q').currentSector ∈ spawn
  · have hold := (hs _).mp h1
    have hnot : (s.player q).characterID ∉ others s q' := by
      intro hid
      exact hold.2 ((Sector.mem_around_comm hgrid hgrid').mp ((h.id_mem_others hq).mp hid).2)
    have hspawn : known (s.sendSpawns q spawn) q' =
        some (insert (s.player q).characterID (others s q')) := by
      rw [known_sendSpawns h.toIndex hns, if_neg hne, if_pos ((hmem _).mpr h1), h.view q' hq' hc,
        learn, if_neg hnot]
    have hdespawn : q' ∉ (s.sendSpawns q spawn).near despawn := by
      intro hq''
      exact ((hd _).mp ((hmem _).mp hq'')).2 hold.1
    rw [known_sendDespawns (h.toIndex.sendSpawns hq _) hnd hq q' hspawn, if_neg hne,
      if_neg hdespawn, if_pos h1]
  · have hspawn : known (s.sendSpawns q spawn) q' = some (others s q') := by
      rw [known_sendSpawns h.toIndex hns, if_neg hne, if_neg (mt (hmem _).mp h1), h.view q' hq' hc]
    rw [known_sendDespawns (h.toIndex.sendSpawns hq _) hnd hq q' hspawn, if_neg hne, if_neg h1]
    by_cases h2 : (s.player q').currentSector ∈ despawn
    · rw [if_pos h2]
      exact if_pos ((hmem _).mpr h2)
    · rw [if_neg h2]
      exact if_neg (mt (hmem _).mp h2)

/-- The sector of `q'` after `q` has crossed. -/
def cellAfter (s : State F) (q q' : ℕ) : Sector :=
  if q' = q then (s.player q).destSector else (s.player q').currentSector

/-- The ids that `q'` is to know after `q` has crossed. -/
structure ViewAfter (s : State F) (q q' : ℕ) (ids : Finset ℤ) : Prop where
  sub : ∀ id ∈ ids, ∃ q'' ∈ s.players, (s.player q'').characterID = id
  mem : ∀ q'' ∈ s.players, ((s.player q'').characterID ∈ ids ↔
    q'' ≠ q' ∧ cellAfter s q q'' ∈ (cellAfter s q q').around)

theorem ViewAfter.of_eq {q q' : ℕ} {ids : Finset ℤ} (h : ViewAfter s q q' ids)
    (hp : t.player = s.player) (hps : t.players = s.players) : ViewAfter t q q' ids := by
  refine ⟨?_, ?_⟩
  · rw [hp, hps]
    exact h.sub
  · unfold cellAfter
    rw [hp, hps]
    exact h.mem

theorem Index.aoi_movePlayer (h : Index s) {q : ℕ} (hq : q ∈ s.players)
    (hview : ∀ q' ∈ s.players, (s.player q').connect = true →
      ∃ ids, known s q' = some ids ∧ ViewAfter s q q' ids) :
    Aoi (s.movePlayer q (s.player q)) := by
  have hindex := h.movePlayer hq
  refine ⟨hindex, fun q' hq' hc => ?_⟩
  have hc : (s.player q').connect = true := by
    simp only [State.movePlayer, State.setPlayer, Function.update_apply] at hc
    split_ifs at hc with hqq
    · rw [hqq]
      exact hc
    · exact hc
  obtain ⟨ids, hk, hids⟩ := hview q' hq' hc
  change known s q' = _
  rw [hk]
  congr 1
  apply hindex.eq_others
  · intro id hid
    obtain ⟨q'', hq'', rfl⟩ := hids.sub id hid
    exact ⟨q'', hq'', movePlayer_id _ _ _⟩
  · intro q'' hq''
    rw [movePlayer_id, hids.mem q'' hq'', movePlayer_currentSector, movePlayer_currentSector]
    rfl

theorem Aoi.viewAfter_crosser (h : Aoi s) {q : ℕ} {spawn despawn : List Sector}
    (hs : ∀ c, c ∈ spawn ↔ c ∈ (s.player q).destSector.around ∧
      c ∉ (s.player q).currentSector.around)
    (hd : ∀ c, c ∈ despawn ↔ c ∈ (s.player q).currentSector.around ∧
      c ∉ (s.player q).destSector.around) :
    ViewAfter s q q
      ((others s q ∪ (nearIds s q spawn).toFinset) \ (nearIds s q despawn).toFinset) := by
  constructor
  · intro id hid
    rw [Finset.mem_sdiff, Finset.mem_union, List.mem_toFinset] at hid
    rcases hid.1 with hid | hid
    · obtain ⟨q', hq', -, -, he⟩ := h.mem_others.mp hid
      exact ⟨q', hq', he⟩
    · obtain ⟨q', hq', -, -, he⟩ := h.mem_nearIds.mp hid
      exact ⟨q', hq', he⟩
  · intro q' hq'
    rw [Finset.mem_sdiff, Finset.mem_union, List.mem_toFinset, List.mem_toFinset, h.id_mem_others
      hq', h.id_mem_nearIds hq', h.id_mem_nearIds hq', hs, hd, cellAfter, cellAfter, if_pos rfl]
    split_ifs <;> tauto

theorem Aoi.viewAfter_witness (h : Aoi s) {q q' : ℕ} (hq : q ∈ s.players) (hq' : q' ∈ s.players)
    (hne : q' ≠ q) {spawn despawn : List Sector}
    (hs : ∀ c, c ∈ spawn ↔ c ∈ (s.player q).destSector.around ∧
      c ∉ (s.player q).currentSector.around)
    (hd : ∀ c, c ∈ despawn ↔ c ∈ (s.player q).currentSector.around ∧
      c ∉ (s.player q).destSector.around) :
    ViewAfter s q q' (if (s.player q').currentSector ∈ spawn then insert
      (s.player q).characterID (others s q') else if (s.player q').currentSector ∈ despawn then
      (others s q').erase (s.player q).characterID else others s q') := by
  have hother : ∀ id ∈ others s q', ∃ q'' ∈ s.players, (s.player q'').characterID = id := by
    intro id hid
    obtain ⟨q'', hq'', -, -, he⟩ := h.mem_others.mp hid
    exact ⟨q'', hq'', he⟩
  constructor
  · intro id hid
    split_ifs at hid
    · rcases Finset.mem_insert.mp hid with rfl | hid
      · exact ⟨q, hq, rfl⟩
      · exact hother id hid
    · exact hother id (Finset.mem_of_mem_erase hid)
    · exact hother id hid
  · intro q'' hq''
    have hcur := (h.grid q hq).1
    have hdest := (h.grid q hq).2
    have hgrid := (h.grid q' hq').1
    have hcomm := Sector.mem_around_comm hcur hgrid
    have hcomm' := Sector.mem_around_comm hdest hgrid
    have hid := h.id_mem_others (q := q') hq''
    rw [cellAfter, cellAfter, if_neg hne]
    by_cases hqq : q'' = q
    · -- the one that crosses is seen from the sectors around its new one
      subst hqq
      rw [if_pos rfl]
      split_ifs with h1 h2
      · simp only [Finset.mem_insert_self, true_iff]
        exact ⟨Ne.symm hne, hcomm'.mpr ((hs _).mp h1).1⟩
      · simp only [Finset.mem_erase, ne_eq, not_true_eq_false, false_and, false_iff, not_and]
        intro _ hmem
        exact ((hd _).mp h2).2 (hcomm'.mp hmem)
      · rw [hid, hcomm, hcomm']
        rw [hs] at h1
        rw [hd] at h2
        tauto
    · -- the others are where they were
      have hids : (s.player q'').characterID ≠ (s.player q).characterID := fun he =>
        hqq (h.ids q'' hq'' q hq he)
      rw [if_neg hqq, ← hid]
      split_ifs
      · rw [Finset.mem_insert, or_iff_right hids]
      · rw [Finset.mem_erase, and_iff_right hids]
      · rfl

/-- A player crosses into another sector, and everybody is told. -/
theorem Aoi.cross (h : Aoi s) {q : ℕ} (hq : q ∈ s.players) {spawn despawn : List Sector}
    (hns : spawn.Nodup) (hnd : despawn.Nodup)
    (hs : ∀ c, c ∈ spawn ↔ c ∈ (s.player q).destSector.around ∧
      c ∉ (s.player q).currentSector.around)
    (hd : ∀ c, c ∈ despawn ↔ c ∈ (s.player q).currentSector.around ∧
      c ∉ (s.player q).destSector.around) :
    Aoi (((s.sendSpawns q spawn).sendDespawns q despawn).movePlayer q (s.player q)) := by
  have hindex := (h.toIndex.sendSpawns hq spawn).sendDespawns hq despawn
  have hplayer : ((s.sendSpawns q spawn).sendDespawns q despawn).player = s.player := by
    rw [sendDespawns_player, sendSpawns_player]
  have hplayers : ((s.sendSpawns q spawn).sendDespawns q despawn).players = s.players := by
    rw [sendDespawns_players, sendSpawns_players]
  have hself := fun hc => h.view_crosser hq hc hns hnd hs
  have hother := fun q' (hq' : q' ∈ s.players) hne hc => h.view_witness hq hq' hne hc hns hnd hs hd
  -- of what was sent only the views matter from here on
  generalize (s.sendSpawns q spawn).sendDespawns q despawn =
    u at hindex hplayer hplayers hself hother ⊢
  rw [← hplayer]
  rw [← hplayers] at hq
  apply hindex.aoi_movePlayer hq
  intro q' hq' hc
  rw [hplayers] at hq hq'
  rw [hplayer] at hc
  by_cases hqq : q' = q
  · subst hqq
    exact ⟨_, hself hc, (h.viewAfter_crosser hs hd).of_eq hplayer hplayers⟩
  · exact ⟨_, hother q' hq' hqq hc, (h.viewAfter_witness hq hq' hqq hs hd).of_eq hplayer hplayers⟩

/-! ### A player enters -/

/-- A player enters, and everybody is told. -/
theorem Aoi.enter (h : Aoi s) {q : ℕ} {p : Player F} (hq : q ∉ s.met)
    (hid : ∀ q' ∈ s.players, (s.player q').characterID ≠ p.characterID) (hname : p.seqID = q)
    (hcur : p.currentSector.InGrid) (hdest : p.destSector.InGrid) :
    Aoi ((s.enter q p).sendSpawns q p.currentSector.around) := by
  have hnd := p.currentSector.around_nodup
  have hindex := h.toIndex.enter hq hid hname hcur hdest
  have hmem : q ∈ (s.enter q p).players := List.mem_cons_self
  have hself : (s.enter q p).player q = p := Function.update_self _ _ _
  have hother : ∀ {q'}, q' ∈ s.players → q' ≠ q ∧ (s.enter q p).player q' = s.player q' := by
    intro q' hq'
    have hne : q' ≠ q := by
      rintro rfl
      exact hq (h.met q' hq')
    exact ⟨hne, Function.update_of_ne hne _ _⟩
  have hindex' := hindex.sendSpawns hmem p.currentSector.around
  refine ⟨hindex', fun q' hq' hc => ?_⟩
  rw [known_sendSpawns hindex hnd]
  rw [sendSpawns_player] at hc
  change q' ∈ (s.enter q p).players at hq'
  by_cases hqq : q' = q
  · subst hqq
    have hk : known (s.enter q' p) q' = some ∅ := by
      change (inbox q' s.sent).foldl see (some ∅) = some ∅
      rw [h.quiet q' hq]
      rfl
    rw [if_pos rfl, hk, foldl_learn (hindex.nearIds_nodup q' hnd) fun _ _ => Finset.notMem_empty _,
      Finset.empty_union]
    congr 1
    apply hindex'.eq_others
    · intro id hid
      obtain ⟨q'', hq'', -, -, he⟩ := hindex.mem_nearIds.mp (List.mem_toFinset.mp hid)
      exact ⟨q'', hq'', he⟩
    · intro q'' hq''
      rw [sendSpawns_player, List.mem_toFinset, hindex.id_mem_nearIds hq'', hself]
  · have hq' : q' ∈ s.players := (List.mem_cons.mp hq').resolve_left hqq
    have hpl := (hother hq').2
    rw [hpl] at hc
    have hk : known (s.enter q p) q' = some (others s q') := h.view q' hq' hc
    have hgrid' := (h.grid q' hq').1
    have hnot : p.characterID ∉ others s q' := by
      intro hmem
      obtain ⟨q'', hq'', -, -, he⟩ := h.mem_others.mp hmem
      exact hid q'' hq'' he
    have hview : (if q' ∈ (s.enter q p).near p.currentSector.around then
        learn (known (s.enter q p) q') ((s.enter q p).player q).characterID else
          known (s.enter q p) q') =
        some (if (s.player q').currentSector ∈ p.currentSector.around then
          insert p.characterID (others s q') else others s q') := by
      have hnear : q' ∈ (s.enter q p).near p.currentSector.around ↔
          (s.player q').currentSector ∈ p.currentSector.around := by
        rw [hindex.mem_near, hpl]
        exact ⟨And.right, fun hc => ⟨List.mem_cons_of_mem _ hq', hc⟩⟩
      rw [hk, hself]
      by_cases hc' : (s.player q').currentSector ∈ p.currentSector.around
      · rw [if_pos (hnear.mpr hc'), if_pos hc', learn, if_neg hnot]
      · rw [if_neg (mt hnear.mp hc'), if_neg hc']
    rw [if_neg hqq, hview]
    congr 1
    have hold : ∀ id ∈ others s q', ∃ q'' ∈ (s.enter q p).players,
        ((s.enter q p).player q'').characterID = id := by
      intro id hid
      obtain ⟨q'', hq'', -, -, rfl⟩ := h.mem_others.mp hid
      refine ⟨q'', List.mem_cons_of_mem _ hq'', ?_⟩
      rw [(hother hq'').2]
    apply hindex'.eq_others
    · intro id hid
      split_ifs at hid
      · rcases Finset.mem_insert.mp hid with rfl | hid
        · exact ⟨q, hmem, congrArg _ hself⟩
        · exact hold id hid
      · exact hold id hid
    · intro q'' hq''
      rw [sendSpawns_player, hpl]
      rcases List.mem_cons.mp hq'' with rfl | hq''
      · rw [hself, Sector.mem_around_comm hcur hgrid']
        split_ifs with hc'
        · simp only [Finset.mem_insert_self, true_iff]
          exact ⟨Ne.symm hqq, hc'⟩
        · simp only [hnot, hc', and_false]
      · have hne : (s.player q'').characterID ≠ p.characterID := hid q'' hq''
        rw [(hother hq'').2, ← h.id_mem_others hq'']
        split_ifs
        · rw [Finset.mem_insert, or_iff_right hne]
        · rfl

/-! ### A player leaves -/

/-- A player whom nobody sees leaves, and nobody is told. -/
theorem Aoi.leave (h : Aoi s) {q : ℕ}
    (hun : ∀ q' ∈ s.players, q' ≠ q → (s.player q').connect = true →
      (s.player q').currentSector ∉ (s.player q).currentSector.around)
    (hgrid : (s.player q).currentSector.InGrid) :
    Aoi (s.leave q) := by
  have hindex := h.toIndex.leave q
  refine ⟨hindex, fun q' hq' hc => ?_⟩
  obtain ⟨hne, hq'⟩ := h.cells.mem_erase.mp hq'
  have hk : known (s.leave q) q' = some (others s q') := h.view q' hq' hc
  have hfar := hun q' hq' hne hc
  rw [Sector.mem_around_comm (h.grid q' hq').1 hgrid] at hfar
  rw [hk]
  congr 1
  apply hindex.eq_others
  · intro id hid
    obtain ⟨q'', hq'', hne', hc', he⟩ := h.mem_others.mp hid
    refine ⟨q'', h.cells.mem_erase.mpr ⟨?_, hq''⟩, he⟩
    rintro rfl
    exact hfar hc'
  · intro q'' hq''
    exact h.id_mem_others (h.cells.mem_erase.mp hq'').2

/-- No result of a PositionSave removes a player whom somebody connected sees. -/
def Unseen (results : List DBResult) (s : State F) : Prop :=
  ∀ q, .positionSave q ∈ results → q ∈ s.players →
    ∀ q' ∈ s.players, q' ≠ q → (s.player q').connect = true →
      (s.player q').currentSector ∉ (s.player q).currentSector.around

theorem Frame.unseen {results : List DBResult} (hf : Frame s t) (h : Unseen results s) :
    Unseen results t := by
  intro q hq hmem q' hmem' hne hc
  rw [hf.players] at hmem hmem'
  rw [hf.currentSector, hf.currentSector]
  exact h q hq hmem q' hmem' hne (hf.connect q' hc)

theorem aoi_handBack {results : List DBResult} {q : ℕ}
    (hr : .positionSave q ∈ results) (hq : q ∈ s.players) (h : Aoi s) (hun : Unseen results s) :
    Aoi (s.handBack q) ∧ Unseen results (s.handBack q) := by
  obtain ⟨u, hf, hindex, he⟩ := frame_handBack h.toIndex q
  rw [he]
  have hqu : q ∈ u.players := by
    rw [hf.players]
    exact hq
  have hunu := hf.unseen hun
  refine ⟨(hf.aoi hindex h).leave (hunu q hr hqu) (hindex.grid q hqu).1, ?_⟩
  intro q1 h1 hm1 q2 hm2 hne hc
  exact hunu q1 h1 (hindex.cells.mem_erase.mp hm1).2 q2 (hindex.cells.mem_erase.mp hm2).2 hne hc

/-! ### Runs -/

theorem Aoi.of_perm (h : Aoi s) (hp : t.player = s.player) (hps : t.players.Perm s.players)
    (hsec : ∀ c, (t.sectors c).Perm (s.sectors c)) (hmet : t.met = s.met)
    (hsent : t.sent = s.sent) : Aoi t := by
  have hindex := h.toIndex.perm hp hps hsec hmet hsent
  have hknown : ∀ q, known t q = known s q := by
    intro q
    unfold known told
    rw [hsent]
  refine ⟨hindex, fun q hq hc => ?_⟩
  rw [hp] at hc
  rw [hknown, h.view q (hps.mem_iff.mp hq) hc]
  congr 1
  ext id
  rw [h.mem_others, hindex.mem_others, hp]
  simp only [hps.mem_iff]

theorem Moves.aoi (hm : Moves s t) (hindex : Index t) (h : Aoi s) : Aoi t := by
  cases hm with
  | frame hf => exact hf.aoi hindex h
  | cross q hq =>
    exact h.cross hq (Sector.around_diff_nodup _ _) (Sector.around_diff_nodup _ _)
      (fun _ => Sector.mem_around_diff) fun _ => Sector.mem_around_diff
  | enter q p hq hid hname hcur hdest => exact h.enter hq hid hname hcur hdest
  | rehash hp hps hsec hmet hsent => exact h.of_perm hp hps hsec hmet hsent

/-- No step removes a player whom somebody connected sees. -/
def RemovesUnseen (s : State F) (l : Step F) : Prop :=
  match l with
  | .dbResults => Unseen s.dbResQ s
  | _ => True

variable [Machine F]

theorem Fresh.aoi (h : Fresh s) : Aoi s := by
  refine ⟨h.players, fun q hq => ?_⟩
  rw [h.nobody.1] at hq
  cases hq

theorem Stay.aoi (ha : Stay s t) (hs : Sound s) (h : Aoi s) : Aoi t := by
  have hindex := (ha.sound hs).players
  rcases ha with ((ha | ⟨id, ha⟩) | ⟨q, ha⟩) | ⟨id, ha⟩ | ⟨q, rfl⟩
  · exact ha.moves.aoi hindex h
  · exact ha.frame.aoi hindex h
  · exact ha.frame.aoi hindex h
  · exact ha.frame.aoi hindex h
  · exact (frame_disconnect s q).aoi hindex h

theorem Stays.aoi (ha : Stays s t) (hs : Sound s) (h : Aoi s) : Aoi t := by
  induction ha with
  | refl => exact h
  | tail hpre ha ih => exact ha.aoi (Stays.sound hpre hs) ih

omit [Machine F] in
theorem aoi_dbResultPacketProc (h : Aoi s) (hl : Unseen s.dbResQ s)
    (he : dbResultPacketProc s = .ok t) : Aoi t := by
  unfold dbResultPacketProc at he
  have hframe : Frame s { s with dbResQ := [] } := frame_of_eq rfl rfl rfl rfl rfl
  have hstart : Aoi { s with dbResQ := [] } ∧ Unseen s.dbResQ { s with dbResQ := [] } :=
    ⟨hframe.aoi (h.toIndex.of_eq rfl rfl rfl rfl rfl) h, hframe.unseen hl⟩
  refine (foldlM_keeps (P := fun u => Aoi u ∧ Unseen s.dbResQ u) ?_ hstart he).1
  intro u v result hr hu hv
  rcases dbResult_cases hv with ⟨-, rfl | ⟨q, packet, hq, hp, rfl⟩⟩ | ⟨q, hq, rfl, rfl⟩
  · exact hu
  · have hsend := frame_sendPrivate (s := u) q hp
    exact ⟨hsend.aoi (hu.1.toIndex.sendPost hq packet) hu.1, hsend.unseen hu.2⟩
  · exact aoi_handBack hr hq hu.1 hu.2

theorem aoi_step {l : Step F} (hs : Sound s) (h : Aoi s) (hl : RemovesUnseen s l)
    (he : step s l = some (.ok t)) :
    Aoi t := by
  rcases stays_step (fun u hu => (Stays.sound hu hs).items.cells.nodup) he with hstays |
      ⟨rfl, hresults⟩
  · exact Stays.aoi hstays hs h
  · exact aoi_dbResultPacketProc h hl hresults

theorem aoi_reachable (h : (field.restrict RemovesUnseen).Reachable s) : Aoi s :=
  field_runs_if (fun hs => hs.aoi) (fun hs ha hl he => aoi_step hs ha hl he) h

/-- Every connected player knows the others around it, each by one spawn, and none of those
that are gone. -/
structure Consistent (s : State F) : Prop where
  view : ∀ q ∈ s.players, (s.player q).connect = true → known s q = some (others s q)
  removed : ∀ q ∈ s.met, (∀ q' ∈ s.players, (s.player q').characterID ≠ (s.player q).characterID) →
    ∀ q' ∈ s.players, (s.player q').connect = true → ∀ ids, known s q' = some ids →
      (s.player q).characterID ∉ ids

/-- In a run in which no player is removed whom somebody connected sees, the views are right. -/
theorem consistent (h : (field.restrict RemovesUnseen).Reachable s) : Consistent s := by
  have haoi := aoi_reachable h
  refine ⟨haoi.view, fun q hq hgone q' hq' hc ids hk hid => ?_⟩
  rw [haoi.view q' hq' hc] at hk
  obtain rfl := Option.some.inj hk
  obtain ⟨q'', hq'', -, -, he⟩ := haoi.mem_others.mp hid
  exact hgone q'' hq'' he

end

/-! ### Two runs -/

section

/-- `RemovesUnseen` as a test. -/
def removesUnseen (s : State ℚ) : Step ℚ → Bool
  | .dbResults => s.dbResQ.all fun result => match result with
    | .positionSave q => s.players.all fun q' =>
        q' = q ∨ (s.player q').connect = false ∨
          (s.player q').currentSector ∉ (s.player q).currentSector.around
    | _ => true
  | _ => true

theorem removesUnseen_sound {s : State ℚ} {l : Step ℚ} (h : removesUnseen s l = true) :
    RemovesUnseen s l := by
  cases l with
  | dbResults =>
    intro q hq _ q' hq' hne hc
    unfold removesUnseen at h
    have hres := List.all_eq_true.mp h _ hq
    have hall := List.all_eq_true.mp hres q' hq'
    simpa [hne, hc] using hall
  | _ => trivial

/-- What `dbThread` would find out for a RankingQuery that is never made. -/
def noRanking : Ranking := ⟨[], 0, 0⟩

/-- Session 1 and session 2 enter, 2 at `pos`; session 1 ends and is removed. -/
def leaveRun (pos : Position ℚ) : List (Step ℚ) :=
  [.registerPlayer 1 1 11 ⟨0, 0⟩ [], .registerPlayer 2 2 12 pos [], .onRelease 1,
    .checkDisConnected, .dbDequeue, .dbAnswer noRanking, .dbResults]

/-- The field before anybody enters, without monsters. -/
def quietField : State ℚ := spawnMonsters (empty fun _ => 0)

theorem quietField_init : field.init quietField := ⟨_, rfl⟩

/-- Two players far from each other. -/
theorem consistent_farApart : ∃ s : State ℚ, s.met = [2, 1] ∧ s.players = [2] ∧ Consistent s := by
  have hrun : (field.execIf removesUnseen quietField (leaveRun ⟨6400, 4700⟩)).any
      (fun s => s.met = [2, 1] ∧ s.players = [2]) = true := by decide +kernel
  obtain ⟨s, hs, hp⟩ := Option.any_eq_true _ _ |>.mp hrun
  obtain ⟨hmet, hplayers⟩ := of_decide_eq_true hp
  have hreach : (field.restrict RemovesUnseen).Reachable s :=
    System.Reachable.execIf (fun _ _ => removesUnseen_sound) _ (.start quietField_init) hs
  exact ⟨s, hmet, hplayers, consistent hreach⟩

/-- Two players in one sector: the one that stays still knows the one that is gone. -/
theorem left_behind : ∃ s : State ℚ, field.Reachable s ∧ ¬ Consistent s := by
  have hrun : (field.exec quietField (leaveRun ⟨0, 0⟩)).any
      (fun s => 2 ∈ s.players ∧ (s.player 2).connect = true ∧ known s 2 = some {11} ∧
        others s 2 = ∅) = true := by
    decide +kernel
  obtain ⟨s, hs, hp⟩ := Option.any_eq_true _ _ |>.mp hrun
  obtain ⟨hmem, hc, hknown, hothers⟩ := of_decide_eq_true hp
  refine ⟨s, .exec _ (.start quietField_init) hs, fun h => ?_⟩
  have hview := h.view 2 hmem hc
  rw [hknown, hothers] at hview
  exact absurd hview (by decide)

end

end Field
end MyMMO
