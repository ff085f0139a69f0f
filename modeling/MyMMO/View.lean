/-
# What a client knows of monsters and items

Between the operations of the field thread a player knows exactly the monsters and the items that
are registered in the block of sectors around its own, each by one spawn (`shown`). Monsters and
items are treated alike: `Shown` is about things that are somewhere and about the packets that say
so, and its lemmas are what becomes of it when a thing comes, goes or moves, and when a player does.
-/
import MyMMO.FieldIndex

namespace MyMMO
namespace Field

variable {F : Type}

/-- A packet reaches the client: the monsters. -/
def seeMonsters (ids : Option (Finset ℤ)) : Packet F → Option (Finset ℤ)
  | .monsterSpawn record => learn ids record.monsterID
  | .monsterSpawnBatch _ records => (records.map MonsterRecord.monsterID).foldl learn ids
  | .monsterDespawn id => ids.map fun ids => ids.erase id
  | _ => ids

/-- A packet reaches the client: the items. -/
def seeItems (ids : Option (Finset ℤ)) : Packet F → Option (Finset ℤ)
  | .itemSpawn record => learn ids record.itemUniqueId
  | .itemSpawnBatch _ records => (records.map ItemRecord.itemUniqueId).foldl learn ids
  | .itemDespawn id => ids.map fun ids => ids.erase id
  | _ => ids

/-- The monsters that the client of `q` knows; none if one was spawned to it twice. -/
def knownMonsters (s : State F) (q : ℕ) : Option (Finset ℤ) := told seeMonsters (some ∅) s q

def knownItems (s : State F) (q : ℕ) : Option (Finset ℤ) := told seeItems (some ∅) s q

/-- The monsters in the block around `q`. -/
def monstersAround (s : State F) (q : ℕ) : Finset ℤ :=
  (s.monsters.filter fun id => (s.monster id).sector ∈ (s.player q).currentSector.around).toFinset

def itemsAround (s : State F) (q : ℕ) : Finset ℤ :=
  (s.items.filter fun id => (s.item id).sector ∈ (s.player q).currentSector.around).toFinset

/-! ### Things that are somewhere -/

/-- Everybody knows the `things` that `place` has around it. -/
def Shown (see : Option (Finset ℤ) → Packet F → Option (Finset ℤ)) (things : List ℤ)
    (place : ℤ → Sector) (s : State F) : Prop :=
  ∀ q ∈ s.players, told see (some ∅) s q =
    some (things.filter fun id => place id ∈ (s.player q).currentSector.around).toFinset

section

variable {see : Option (Finset ℤ) → Packet F → Option (Finset ℤ)} {things things' : List ℤ}
    {place place' : ℤ → Sector}
  {s t : State F}

theorem Shown.keep (h : Shown see things place s)
    (hp : ∀ q ∈ t.players, q ∈ s.players ∧ (t.player q).currentSector = (s.player q).currentSector)
    (ht : ∀ q, told see (some ∅) t q = told see (some ∅) s q) : Shown see things place t := by
  intro q hq
  obtain ⟨hq, hc⟩ := hp q hq
  rw [ht, hc]
  exact h q hq

theorem Shown.congr (h : Shown see things place s) (hmem : ∀ id, id ∈ things' ↔ id ∈ things)
    (hplace : ∀ id ∈ things, place' id = place id) : Shown see things' place' s := by
  intro q hq
  rw [h q hq]
  congr 1
  ext id
  simp only [List.mem_toFinset, List.mem_filter, decide_eq_true_eq, hmem]
  constructor
  · rintro ⟨hid, hc⟩
    rw [hplace id hid]
    exact ⟨hid, hc⟩
  · rintro ⟨hid, hc⟩
    rw [hplace id hid] at hc
    exact ⟨hid, hc⟩

theorem Shown.of_eq (h : Shown see things place s) (hp : t.player = s.player)
    (hps : t.players = s.players) (hsent : t.sent = s.sent) : Shown see things place t := by
  refine h.keep (fun q hq => ?_) fun q => ?_
  · rw [hps] at hq
    rw [hp]
    exact ⟨hq, rfl⟩
  · unfold told
    rw [hsent]

theorem Shown.setPlayer (h : Shown see things place s) {q : ℕ} {p : Player F}
    (hp : p.currentSector = (s.player q).currentSector) :
    Shown see things place (s.setPlayer q p) := by
  refine h.keep (fun q' hq' => ⟨hq', ?_⟩) fun _ => rfl
  rw [setPlayer_player]
  split_ifs with he
  · rw [he, hp]
  · rfl

theorem Shown.broadcast (h : Shown see things place s) {near : List Sector}
    {skip : ℕ → Bool} {packet : Packet F} (hsee : ∀ ids, see ids packet = ids) :
    Shown see things place (s.broadcast near skip packet) :=
  h.keep (fun _ hq => ⟨hq, rfl⟩) fun q => told_broadcast_still hsee q

theorem Shown.sendPost (h : Shown see things place s) {q : ℕ} {packet : Packet F}
    (hsee : ∀ ids, see ids packet = ids) :
    Shown see things place (s.sendPost q packet) := by
  refine h.keep (fun _ hq => ⟨hq, rfl⟩) fun q' => ?_
  apply told_still (t := s.sendPost q packet) rfl
  intro k hk
  rw [List.mem_singleton.mp hk]
  exact hsee

/-! ### Things that come, go and move -/

/-- A thing comes, and the players around it are told. -/
theorem Shown.spawn (h : Shown see things place s) (hindex : Index s) {id : ℤ} (hid : id ∉ things)
    (hgrid : (place id).InGrid) {packet : Packet F} (hsee : ∀ ids, see ids packet = learn ids id) :
    Shown see (id :: things) place (s.broadcast (place id).around (fun _ => false) packet) := by
  intro q hq
  change q ∈ s.players at hq
  have hnot :
      id ∉ (things.filter fun id => place id ∈ (s.player q).currentSector.around).toFinset := by
    rw [List.mem_toFinset]
    exact fun hmem => hid (List.mem_of_mem_filter hmem)
  have hcomm := Sector.mem_around_comm (hindex.grid q hq).1 hgrid
  change told see (some ∅) _ q =
    some ((id :: things).filter fun id => place id ∈ (s.player q).currentSector.around).toFinset
  rw [hindex.told_broadcast (Sector.around_nodup _) hq, h q hq]
  by_cases hc : place id ∈ (s.player q).currentSector.around
  · rw [if_pos (hcomm.mpr hc), hsee, learn, if_neg hnot,
      List.filter_cons_of_pos (by simpa using hc), List.toFinset_cons]
  · rw [if_neg (mt hcomm.mp hc), List.filter_cons_of_neg (by simpa using hc)]

/-- A thing goes, and the players around it are told. -/
theorem Shown.despawn (h : Shown see things place s)
    (hindex : Index s) (hnd : things.Nodup) {id : ℤ} (hgrid : (place id).InGrid) {packet : Packet F}
    (hsee : ∀ ids, see ids packet = ids.map fun ids => ids.erase id) :
    Shown see (things.erase id) place (s.broadcast (place id).around (fun _ => false) packet) := by
  intro q hq
  change q ∈ s.players at hq
  have hcomm := Sector.mem_around_comm (hindex.grid q hq).1 hgrid
  change told see (some ∅) _ q =
    some ((things.erase id).filter fun id => place id ∈ (s.player q).currentSector.around).toFinset
  rw [hindex.told_broadcast (Sector.around_nodup _) hq, h q hq, hsee, Option.map_some,
    ← apply_ite some]
  congr 1
  ext id'
  split_ifs with hc
  · simp only [Finset.mem_erase, List.mem_toFinset, List.mem_filter, decide_eq_true_eq,
      hnd.mem_erase_iff, and_assoc]
  · simp only [List.mem_toFinset, List.mem_filter, decide_eq_true_eq, hnd.mem_erase_iff]
    have hnear : place id' ∈ (s.player q).currentSector.around → id' ≠ id := by
      rintro hc' rfl
      exact hc (hcomm.mpr hc')
    tauto

/-- A thing moves to `dest`, and the players around it are told the difference. -/
theorem Shown.move (h : Shown see things place s) (hindex : Index s) {id : ℤ} (hid : id ∈ things)
    (hgrid : (place id).InGrid) {dest : Sector} (hdest : dest.InGrid) {packet packet' : Packet F}
    (hspawn : ∀ ids, see ids packet = learn ids id)
    (hdespawn : ∀ ids, see ids packet' = ids.map fun ids => ids.erase id) :
    Shown see things (Function.update place id dest)
      ((s.broadcast (dest.around.diff (place id).around) (fun _ => false) packet).broadcast
        ((place id).around.diff dest.around) (fun _ => false) packet') := by
  intro q hq
  change q ∈ s.players at hq
  have hcomm := Sector.mem_around_comm (hindex.grid q hq).1 hgrid
  have hcomm' := Sector.mem_around_comm (hindex.grid q hq).1 hdest
  have hindex' := hindex.broadcast (dest.around.diff (place id).around) (fun _ => false) packet
  have hmem :
      ∀ id', id' ∈ (things.filter fun id => place id ∈ (s.player q).currentSector.around).toFinset ↔
      id' ∈ things ∧ place id' ∈ (s.player q).currentSector.around := by
    intro id'
    simp
  rw [hindex'.told_broadcast (Sector.around_diff_nodup _ _) hq,
    hindex.told_broadcast (Sector.around_diff_nodup _ _) hq, h q hq, hspawn, hdespawn]
  change (if (s.player q).currentSector ∈ _ then _ else _) =
    some (things.filter fun id' =>
      Function.update place id dest id' ∈ (s.player q).currentSector.around).toFinset
  simp only [Sector.mem_around_diff, hcomm, hcomm']
  have hresult : ∀ ids : Finset ℤ, (∀ id', id' ∈ ids ↔
      id' ∈ things ∧ Function.update place id dest id' ∈ (s.player q).currentSector.around) →
      some ids = some (things.filter fun id' =>
        Function.update place id dest id' ∈ (s.player q).currentSector.around).toFinset := by
    intro ids hids
    congr 1
    ext id'
    rw [hids]
    simp
  by_cases hold : place id ∈ (s.player q).currentSector.around <;>
    by_cases hnew : dest ∈ (s.player q).currentSector.around
  · -- it is around `q` before and after
    rw [if_neg (by tauto), if_neg (by tauto)]
    apply hresult
    intro id'
    rw [hmem, Function.update_apply]
    split_ifs with he
    · subst he
      tauto
    · rfl
  · rw [if_pos ⟨hold, hnew⟩, if_neg (by tauto), Option.map_some]
    apply hresult
    intro id'
    rw [Finset.mem_erase, hmem, Function.update_apply]
    split_ifs with he
    · tauto
    · tauto
  · have hnot :
        id ∉ (things.filter fun id => place id ∈ (s.player q).currentSector.around).toFinset :=
      fun hm => hold ((hmem id).mp hm).2
    rw [if_neg (by tauto), if_pos ⟨hnew, hold⟩, learn, if_neg hnot]
    apply hresult
    intro id'
    rw [Finset.mem_insert, hmem, Function.update_apply]
    split_ifs with he
    · subst he
      tauto
    · tauto
  · rw [if_neg (by tauto), if_neg (by tauto)]
    apply hresult
    intro id'
    rw [hmem, Function.update_apply]
    split_ifs with he
    · subst he
      tauto
    · rfl

/-! ### Players that come and move -/

/-- What the packets to one who comes or leaves say, of things held in `cells`. -/
structure Announced (see : Option (Finset ℤ) → Packet F → Option (Finset ℤ))
    (cells : Sector → List ℤ) (s : State F) :
    Prop where
  spawns : ∀ q near q', told see (some ∅) (s.sendSpawns q near) q' =
    if q' = q then (near.flatMap cells).foldl learn (told see (some ∅) s q) else
      told see (some ∅) s q'
  despawns : ∀ q near q' ids, told see (some ∅) s q = some ids →
    told see (some ∅) (s.sendDespawns q near) q' =
      if q' = q then some (ids \ (near.flatMap cells).toFinset) else told see (some ∅) s q'

theorem MonsterIndex.announced (h : MonsterIndex s) : Announced seeMonsters s.monsterSectors s := by
  have hname : ∀ near : List Sector, ∀ id ∈ near.flatMap s.monsterSectors,
      (s.monster id).monsterID = id :=
    fun near id hid => h.name id (h.cells.mem_near.mp hid).1
  constructor
  · intro q near q'
    unfold State.sendSpawns State.sendItemSpawnBatch
    dsimp only
    rw [told_sendAll_still fun _ _ => rfl]
    unfold State.sendMonsterSpawnBatch
    rw [told_sendAll, foldl_batch fun _ _ _ => List.foldl_map, batches_flatMap,
      ← List.foldl_map (f := MonsterRecord.monsterID) (g := learn), List.map_map]
    unfold State.sendSpawnBatch State.broadcastSpawn
    rw [told_sendAll_still fun _ _ => rfl, told_broadcast_still fun _ => rfl,
      told_sendAll_still fun _ _ => rfl, told_broadcast_still fun _ => rfl]
    have hmap := List.map_congr_left (g := id) (hname near)
    rw [List.map_id] at hmap
    exact congrArg (fun l => if q' = q then List.foldl learn _ l else _) hmap
  · intro q near q' ids hk
    unfold State.sendDespawns State.sendItemDespawnBatch
    dsimp only
    rw [told_sendAll_still fun _ _ => rfl]
    unfold State.sendMonsterDespawnBatch
    rw [told_sendAll]
    unfold State.sendDespawnBatch State.broadcastDespawn
    rw [told_sendAll_still fun _ _ => rfl, told_broadcast_still fun _ => rfl,
      told_sendAll_still fun _ _ => rfl, told_broadcast_still fun _ => rfl, hk]
    have hmap : (near.flatMap s.monsterSectors).map
          (fun id => (Packet.monsterDespawn (s.monster id).monsterID : Packet F)) =
        (near.flatMap s.monsterSectors).map .monsterDespawn :=
      List.map_congr_left fun id hid => congrArg Packet.monsterDespawn (hname near id hid)
    have hdespawn := @foldl_despawn F seeMonsters .monsterDespawn (fun _ _ => rfl)
      (near.flatMap s.monsterSectors) ids
    rw [← hmap] at hdespawn
    split_ifs
    · exact hdespawn
    · rfl

theorem ItemIndex.announced (h : ItemIndex s) : Announced seeItems s.itemSectors s := by
  have hname : ∀ near : List Sector, ∀ id ∈ near.flatMap s.itemSectors,
      (s.item id).itemUniqueId = id :=
    fun near id hid => h.name id (h.cells.mem_near.mp hid).1
  constructor
  · intro q near q'
    unfold State.sendSpawns State.sendItemSpawnBatch
    rw [told_sendAll, foldl_batch fun _ _ _ => List.foldl_map, batches_flatMap,
      ← List.foldl_map (f := ItemRecord.itemUniqueId) (g := learn), List.map_map]
    unfold State.sendMonsterSpawnBatch State.sendSpawnBatch State.broadcastSpawn
    rw [told_sendAll_still fun _ _ => rfl, told_sendAll_still fun _ _ => rfl,
      told_broadcast_still fun _ => rfl, told_sendAll_still fun _ _ => rfl,
      told_sendAll_still fun _ _ => rfl, told_broadcast_still fun _ => rfl]
    have hmap := List.map_congr_left (g := id) (hname near)
    rw [List.map_id] at hmap
    exact congrArg (fun l => if q' = q then List.foldl learn _ l else _) hmap
  · intro q near q' ids hk
    unfold State.sendDespawns State.sendItemDespawnBatch
    rw [told_sendAll]
    unfold State.sendMonsterDespawnBatch State.sendDespawnBatch State.broadcastDespawn
    rw [told_sendAll_still fun _ _ => rfl, told_sendAll_still fun _ _ => rfl,
      told_broadcast_still fun _ => rfl, told_sendAll_still fun _ _ => rfl,
      told_sendAll_still fun _ _ => rfl, told_broadcast_still fun _ => rfl, hk]
    have hmap : (near.flatMap s.itemSectors).map
          (fun id => (Packet.itemDespawn (s.item id).itemUniqueId : Packet F)) =
        (near.flatMap s.itemSectors).map .itemDespawn :=
      List.map_congr_left fun id hid => congrArg Packet.itemDespawn (hname near id hid)
    have hdespawn :=
      @foldl_despawn F seeItems .itemDespawn (fun _ _ => rfl) (near.flatMap s.itemSectors) ids
    rw [← hmap] at hdespawn
    split_ifs
    · exact hdespawn
    · rfl

/-- A player enters. -/
theorem Shown.enter (h : Shown see things place s) (hindex : Index s) {cells : Sector → List ℤ}
    (hcells : Cells things cells place) {q : ℕ} (hq : q ∉ s.met) {p : Player F}
    (ha : Announced see cells (s.enter q p)) :
    Shown see things place ((s.enter q p).sendSpawns q p.currentSector.around) := by
  have hself : (s.enter q p).player q = p := Function.update_self _ _ _
  intro q' hq'
  rw [ha.spawns, sendSpawns_player]
  split_ifs with he
  · subst he
    have hk : told see (some ∅) (s.enter q' p) q' = some ∅ := by
      change (inbox q' s.sent).foldl see (some ∅) = some ∅
      rw [hindex.quiet q' hq]
      rfl
    rw [hk, foldl_learn (hcells.near_nodup (Sector.around_nodup _)) fun _ _ =>
      Finset.notMem_empty _, Finset.empty_union, hself]
    congr 1
    ext id
    simp [hcells.mem_near]
  · have hmem : q' ∈ s.players := (List.mem_cons.mp hq').resolve_left he
    have hother : (s.enter q p).player q' = s.player q' := Function.update_of_ne he _ _
    rw [hother]
    exact h q' hmem

/-- A player crosses into another sector. -/
theorem Shown.cross (h : Shown see things place s)
    {cells : Sector → List ℤ} (hcells : Cells things cells place) {q : ℕ} (hq : q ∈ s.players)
    (ha : ∀ near, Announced see cells s ∧ Announced see cells (s.sendSpawns q near)) :
    Shown see things place (s.cross q) := by
  intro q' hq'
  obtain ⟨_, hrest⟩ := cross_rest (s := s) q
  rw [hrest] at hq'
  change q' ∈ s.players at hq'
  have hnew :
      ∀ id ∈ ((s.player q).destSector.around.diff (s.player q).currentSector.around).flatMap cells,
      id ∉ (things.filter fun id => place id ∈ (s.player q).currentSector.around).toFinset := by
    intro id hid hmem
    have hnear := Sector.mem_around_diff.mp (hcells.mem_near.mp hid).2
    rw [List.mem_toFinset, List.mem_filter] at hmem
    exact hnear.2 (of_decide_eq_true hmem.2)
  have hspawn :=
    (ha []).1.spawns q ((s.player q).destSector.around.diff (s.player q).currentSector.around) q
  rw [if_pos rfl, h q hq, foldl_learn (hcells.near_nodup (Sector.around_diff_nodup _ _))
    hnew] at hspawn
  change told see (some ∅) (State.sendDespawns _ q _) q' = _
  rw [(ha _).2.despawns q _ q' _ hspawn, cross_player]
  split_ifs with he
  · subst he
    congr 1
    ext id
    simp only [Finset.mem_sdiff, Finset.mem_union, List.mem_toFinset, List.mem_filter,
      decide_eq_true_eq, hcells.mem_near, Sector.mem_around_diff]
    tauto
  · rw [(ha []).1.spawns, if_neg he]
    exact h q' hq'

/-! ### What the effects do -/

/-- Every player knows the monsters and the items around it, each by one spawn. -/
structure Shows (s : State F) : Prop where
  monsters : ∀ q ∈ s.players, knownMonsters s q = some (monstersAround s q)
  items : ∀ q ∈ s.players, knownItems s q = some (itemsAround s q)

theorem Shows.shownMonsters (h : Shows s) :
    Shown seeMonsters s.monsters (fun id => (s.monster id).sector) s :=
  h.monsters

theorem Shows.shownItems (h : Shows s) :
    Shown seeItems s.items (fun id => (s.item id).sector) s := h.items

/-- The order of the containers does not matter, and neither do players that are gone. -/
theorem Shows.of_mem (h : Shows s)
    (hp : ∀ q, (t.player q).currentSector = (s.player q).currentSector)
    (hps : ∀ q ∈ t.players, q ∈ s.players) (hsent : t.sent = s.sent)
    (hms : ∀ id, id ∈ t.monsters ↔ id ∈ s.monsters)
    (hm : ∀ id, (t.monster id).sector = (s.monster id).sector)
    (his : ∀ id, id ∈ t.items ↔ id ∈ s.items) (hi : ∀ id, (t.item id).sector = (s.item id).sector) :
    Shows t := by
  have hkeep : ∀ see things place, Shown see things place s → Shown see things place t := by
    intro see things place hshown
    refine hshown.keep (fun q hq => ⟨hps q hq, hp q⟩) fun q => ?_
    unfold told
    rw [hsent]
  exact ⟨(hkeep _ _ _ h.shownMonsters).congr hms fun id _ => hm id,
    (hkeep _ _ _ h.shownItems).congr his fun id _ => hi id⟩

theorem Shows.of_eq (h : Shows s) (hp : t.player = s.player) (hps : t.players = s.players)
    (hsent : t.sent = s.sent) (hms : t.monsters = s.monsters) (hm : t.monster = s.monster)
    (his : t.items = s.items) (hi : t.item = s.item) :
    Shows t := by
  refine h.of_mem (fun q => by rw [hp]) ?_ hsent ?_ (fun id => by rw [hm]) ?_ fun id => by rw [hi]
  · rw [hps]
    exact fun _ hq => hq
  · rw [hms]
    exact fun _ => Iff.rfl
  · rw [his]
    exact fun _ => Iff.rfl

theorem Shows.record (h : Shows s) (e : Event) : Shows (s.record e) :=
  h.of_eq rfl rfl rfl rfl rfl rfl rfl

theorem Shows.setPlayer (h : Shows s) {q : ℕ} {p : Player F} (hp : SameFace (s.player q) p) :
    Shows (s.setPlayer q p) :=
  ⟨h.shownMonsters.setPlayer hp.1, h.shownItems.setPlayer hp.1⟩

theorem Shows.setMonster (h : Shows s) {id : ℤ} {m : Monster F}
    (hm : m.sector = (s.monster id).sector) :
    Shows (s.setMonster id m) := by
  refine h.of_mem (fun _ => rfl) (fun _ hq => hq) rfl (fun _ => Iff.rfl) (fun id' => ?_)
    (fun _ => Iff.rfl) fun _ => rfl
  rw [setMonster_monster]
  split_ifs with he
  · rw [he, hm]
  · rfl

theorem Shows.settle (h : Shows s) (id : ℤ) : Shows (s.settle id) := h.setMonster rfl

/-- A packet that is neither about a monster nor about an item. -/
theorem Shows.broadcast (h : Shows s) {near : List Sector} {skip : ℕ → Bool} {packet : Packet F}
    (hm : ∀ ids, seeMonsters ids packet = ids) (hi : ∀ ids, seeItems ids packet = ids) :
    Shows (s.broadcast near skip packet) :=
  ⟨h.shownMonsters.broadcast hm, h.shownItems.broadcast hi⟩

theorem Shows.sendPost (h : Shows s) {q : ℕ} {packet : Packet F}
    (hm : ∀ ids, seeMonsters ids packet = ids) (hi : ∀ ids, seeItems ids packet = ids) :
    Shows (s.sendPost q packet) :=
  ⟨h.shownMonsters.sendPost hm, h.shownItems.sendPost hi⟩

theorem Shows.enter (h : Shows s) (hs : Sound s) {q : ℕ} (hq : q ∉ s.met) {p : Player F} :
    Shows ((s.enter q p).sendSpawns q p.currentSector.around) := by
  have hm : MonsterIndex (s.enter q p) := hs.monsters.of_eq rfl rfl rfl
  have hi : ItemIndex (s.enter q p) := hs.items.of_eq rfl rfl rfl rfl
  exact ⟨h.shownMonsters.enter hs.players hs.monsters.cells hq hm.announced,
    h.shownItems.enter hs.players hs.items.cells hq hi.announced⟩

theorem Shows.cross (h : Shows s) (hs : Sound s) {q : ℕ} (hq : q ∈ s.players) :
    Shows (s.cross q) := by
  have hm : ∀ near, Announced seeMonsters s.monsterSectors (s.sendSpawns q near) := by
    intro near
    obtain ⟨ks, hks⟩ := sends_sendSpawns (s := s) q near
    rw [hks]
    have hindex : MonsterIndex { s with sent := s.sent ++ ks } := hs.monsters.of_eq rfl rfl rfl
    exact hindex.announced
  have hi : ∀ near, Announced seeItems s.itemSectors (s.sendSpawns q near) := by
    intro near
    obtain ⟨ks, hks⟩ := sends_sendSpawns (s := s) q near
    rw [hks]
    have hindex : ItemIndex { s with sent := s.sent ++ ks } := hs.items.of_eq rfl rfl rfl rfl
    exact hindex.announced
  have hmonsters := h.shownMonsters.cross hs.monsters.cells hq fun near =>
    ⟨hs.monsters.announced, hm near⟩
  have hitems := h.shownItems.cross hs.items.cells hq fun near => ⟨hs.items.announced, hi near⟩
  obtain ⟨sent, hrest⟩ := cross_rest (s := s) q
  rw [hrest] at hmonsters hitems ⊢
  exact ⟨hmonsters, hitems⟩

/-- An item is put on the field, and the players around it are told. -/
theorem Shows.addItem (h : Shows s) (hs : Sound s)
    {item : FieldItem F} (hid : item.itemUniqueId ∉ s.items) (hgrid : item.sector.InGrid) :
    Shows ((s.addItem item).broadcastItemSpawn item item.sector.around) := by
  have hindex : Index (s.addItem item) := hs.players.of_eq rfl rfl rfl rfl rfl
  have hself : (s.addItem item).item item.itemUniqueId = item := Function.update_self _ _ _
  constructor
  · exact (h.shownMonsters.of_eq (t := s.addItem item) rfl rfl rfl).broadcast fun _ => rfl
  · have hitems : Shown seeItems s.items (fun id => ((s.addItem item).item id).sector)
        (s.addItem item) := by
      refine (h.shownItems.of_eq (t := s.addItem item) rfl rfl rfl).congr
        (fun _ => Iff.rfl) fun id hmem => ?_
      have hne : id ≠ item.itemUniqueId := by
        rintro rfl
        exact hid hmem
      exact congrArg FieldItem.sector (Function.update_of_ne hne _ _)
    have hsee : ∀ ids, seeItems ids (.itemSpawn item.record : Packet F) =
        learn ids item.itemUniqueId := fun _ => rfl
    have hspawn := hitems.spawn hindex hid (by rwa [hself]) hsee
    rw [hself] at hspawn
    exact hspawn

/-- An item is taken off the field, and the players around it are told. -/
theorem Shows.removeItem (h : Shows s) (hs : Sound s) {id : ℤ} (hid : id ∈ s.items) (c : Sector) :
    Shows ((s.broadcastItemDespawn (s.item id) (s.item id).sector.around).removeItem id c) := by
  have hname := hs.items.name id hid
  constructor
  · have hmonsters : Shown seeMonsters s.monsters (fun id => (s.monster id).sector)
        (s.broadcastItemDespawn (s.item id) (s.item id).sector.around) := h.shownMonsters.broadcast
          fun _ => rfl
    exact hmonsters.of_eq rfl rfl rfl
  · have hsee : ∀ ids, seeItems ids (.itemDespawn (s.item id).itemUniqueId : Packet F) =
        ids.map fun ids => ids.erase id := by
      rw [hname]
      exact fun _ => rfl
    have hdespawn :=
      h.shownItems.despawn hs.players hs.items.cells.nodup (hs.items.grid id hid) hsee
    exact hdespawn.of_eq rfl rfl rfl

theorem Shows.handBack (h : Shows s) (q : ℕ) : Shows (s.handBack q) := by
  have hset : Shows (s.setPlayer q { s.player q with savePending := false }) :=
    h.setPlayer ⟨rfl, id, rfl, id, rfl, rfl, rfl⟩
  exact hset.of_mem (fun _ => rfl) (fun _ hq => List.mem_of_mem_erase hq) rfl (fun _ => Iff.rfl)
    (fun _ => rfl) (fun _ => Iff.rfl) fun _ => rfl

variable [Machine F]

theorem Shows.hitMonster (h : Shows s) {q : ℕ} {id : ℤ} {m : Monster F}
    (hm : (s.monster id).takeDamage (s.player q).attackPower (s.player q) q = .ok m) :
    Shows (s.hitMonster q id m) := by
  have hsector : m.sector = (s.monster id).sector := by
    rw [monster_takeDamage_eq hm]
  exact ((h.setMonster hsector).record _).broadcast (fun _ => rfl) fun _ => rfl

theorem Dropped.shows {m : Monster F} (hd : Dropped s m t) (hs : Sound s) (h : Shows s) :
    Shows t := by
  cases hd with
  | nothing rands => exact h.of_eq rfl rfl rfl rfl rfl rfl rfl
  | item itemId count rands =>
    generalize hu : ({ (s.record (.dropItem m.monsterID)).record
      (.itemCreated (s.itemUniqueID + 1) itemId count) with
      rands } : State F) = u
    have hshows : Shows u := by
      rw [← hu]
      exact h.of_eq rfl rfl rfl rfl rfl rfl rfl
    have hsound : Sound u := by
      rw [← hu]
      exact ⟨hs.players.of_eq rfl rfl rfl rfl rfl, hs.monsters.of_eq rfl rfl rfl,
        hs.items.of_eq rfl rfl rfl rfl⟩
    have hnew : (droppedItem s m itemId count).itemUniqueId ∉ u.items := by
      rw [← hu]
      exact hs.items.not_mem (Int.lt_succ _)
    exact hshows.addItem hsound hnew (calcSector_inGrid _)

theorem Act.shows (ha : Act s t) (hs : Sound s) (h : Shows s) : Shows t := by
  cases ha with
  | adjust q syncCnt targets hq => exact h.setPlayer ⟨rfl, id, rfl, id, rfl, rfl, rfl⟩
  | hit q id m hq hid hstate hm hdead hgrid => exact h.hitMonster hm
  | kill q id m u hq hid hstate hm hdead hgrid hu =>
    have hhit : Sound (s.hitMonster q id m) :=
      ⟨hs.players.hitMonster q id m, hs.monsters.hitMonster hm, hs.items.of_eq rfl rfl rfl rfl⟩
    exact (hu.shows hhit (h.hitMonster hm)).of_eq rfl rfl rfl rfl rfl rfl rfl
  | aim q hq hne => exact h.setPlayer ⟨rfl, fun _ => calcSector_inGrid _, rfl, id, rfl, rfl, rfl⟩
  | cross q hq hne => exact h.cross hs hq
  | damaged q m p hq hstate hp =>
      exact ((h.setPlayer (takeDamage_face hp)).record _).broadcast (fun _ => rfl) fun _ => rfl
  | enter q accountNo characterID pos nickname hq hid => exact h.enter hs hq
  | moveStart q p packetPos direction hq hstate hsync hp =>
    have hface := (place_face (s.player q) packetPos direction).trans (changeState_face hp)
    exact ((h.setPlayer hface).record _).broadcast (fun _ => rfl) fun _ => rfl
  | moveStop q p packetPos direction hq hsync hp =>
    have hface : SameFace (s.player q) p := by
      rcases hp with ⟨-, rfl⟩ | ⟨-, hp⟩
      · exact place_face _ _ _
      · exact (place_face _ _ _).trans (changeState_face hp)
    exact ((h.setPlayer hface).record _).broadcast (fun _ => rfl) fun _ => rfl
  | attackReq q p skillId hq hstate hp =>
    have hface := changeState_face hp
    have hset : SameFace (s.player q) { p with pendingAttackSkillId := skillId } := hface
    exact ((h.setPlayer hset).record _).broadcast (fun _ => rfl) fun _ => rfl
  | loot q id hq hid hgrid hcell =>
    have hadd : Shows (s.setPlayer q ((s.player q).addItem (s.item id))) :=
      h.setPlayer ⟨rfl, fun h => h, rfl, fun h => h, rfl, rfl, rfl⟩
    have hsound : Sound (s.setPlayer q ((s.player q).addItem (s.item id))) :=
      ⟨hs.players.setPlayer ⟨rfl, fun h => h, rfl, fun h => h, rfl, rfl, rfl⟩,
        hs.monsters.of_eq rfl rfl rfl, hs.items.of_eq rfl rfl rfl rfl⟩
    have hremove := hadd.removeItem hsound hid (s.item id).sector
    exact (hremove.sendPost (fun _ => rfl) fun _ => rfl).record _
  | send q packet hq hp =>
    refine h.sendPost (fun ids => ?_) fun ids => ?_
    · cases packet <;> first | rfl | cases hp
    · cases packet <;> first | rfl | cases hp
  | save q hq hconnect hpending =>
    have hset : Shows (s.setPlayer q { s.player q with savePending := true }) :=
      h.setPlayer ⟨rfl, id, rfl, id, rfl, rfl, rfl⟩
    exact (hset.record (.positionSave q)).of_eq rfl rfl rfl rfl rfl rfl rfl
  | rehash players sectors monsters monsterSectors items itemSectors hp hs hm hms hi his =>
    exact h.of_mem (fun _ => rfl) (fun _ hq => hp.mem_iff.mp hq) rfl (fun _ => hm.mem_iff)
      (fun _ => rfl) (fun _ => hi.mem_iff) fun _ => rfl
  | _ => exact h.of_eq rfl rfl rfl rfl rfl rfl rfl

theorem PlayerAct.shows {q : ℕ} (ha : PlayerAct q s t) (h : Shows s) : Shows t := by
  cases ha with
  | update p hq hp hframe => exact h.setPlayer (update_face hp)
  | attackHit p hq hp hstate hframe => exact (h.setPlayer (update_face hp)).record _

omit [Machine F] in
theorem ItemAct.shows {id : ℤ} (ha : ItemAct id s t) (hs : Sound s) (h : Shows s) : Shows t := by
  have hgrow : Shows { s with item := Function.update s.item id (s.item id).update } := by
    refine h.of_mem (fun _ => rfl) (fun _ hq => hq) rfl (fun _ => Iff.rfl) (fun _ => rfl)
      (fun _ => Iff.rfl) fun id' => ?_
    change (Function.update s.item id (s.item id).update id').sector = _
    rw [Function.update_apply]
    split_ifs with he
    · rw [he]
      rfl
    · rfl
  cases ha with
  | update hid hlife => exact hgrow
  | expire hid hlife hgrid =>
    have hsound : Sound { s with item := Function.update s.item id (s.item id).update } :=
      ⟨hs.players.of_eq rfl rfl rfl rfl rfl, hs.monsters.of_eq rfl rfl rfl, hs.items.grow id⟩
    have hremove := hgrow.removeItem hsound hid (s.item id).sector
    have hself : Function.update s.item id (s.item id).update id = (s.item id).update :=
      Function.update_self _ _ _
    change Shows (State.removeItem
      (State.broadcastItemDespawn _ (Function.update s.item id (s.item id).update id)
      (Function.update s.item id (s.item id).update id).sector.around) id _) at hremove
    rw [hself] at hremove
    exact hremove.record _

omit [Machine F] in
theorem moveMonster_sector (s : State F) (id : ℤ) (m : Monster F) (id' : ℤ) :
    ((s.moveMonster id m).monster id').sector =
      Function.update (fun id => (s.monster id).sector) id m.destSector id' := by
  unfold State.moveMonster State.setMonster
  dsimp only
  rw [Function.update_apply, Function.update_apply]
  split_ifs <;> rfl

theorem MonsterAct.shows {id : ℤ} (ha : MonsterAct id s t) (hs : Sound s) (h : Shows s) :
    Shows t := by
  have hname : ∀ id ∈ s.monsters, (s.monster id).monsterID = id := hs.monsters.name
  have hspawn : ∀ id ∈ s.monsters, ∀ ids, seeMonsters ids (.monsterSpawn (s.monster id).record :
      Packet F) = learn ids id := fun id hid ids => congrArg (learn ids) (hname id hid)
  have hdespawn : ∀ id ∈ s.monsters, ∀ ids, seeMonsters ids
      (.monsterDespawn (s.monster id).monsterID : Packet F) = ids.map fun ids => ids.erase id := by
    intro id hid
    rw [hname id hid]
    exact fun _ => rfl
  have hnd := hs.monsters.cells.nodup
  have hback : ∀ id ∈ s.monsters, ∀ id', id' ∈ s.monsters ↔ id' ∈ id :: s.monsters.erase id := by
    intro id hid id'
    exact (List.perm_cons_erase hid).mem_iff
  cases ha with
  | update m rands hid hm =>
    have hsector : (updateMonsterSectorCheck m).sector = (s.monster id).sector := by
      rw [updateMonsterSectorCheck_eq, nextMonster_eq hm]
    have hset := (h.setMonster hsector).record (.monsterState none id (s.monster id).state m.state)
    exact hset.of_eq rfl rfl rfl rfl rfl rfl rfl
  | cross hid hstate hne =>
    have hgrid := hs.monsters.grid id hid
    have hmove :=
      h.shownMonsters.move hs.players hid hgrid.1 hgrid.2 (hspawn id hid) (hdespawn id hid)
    exact ⟨(hmove.of_eq rfl rfl rfl).congr (fun _ => Iff.rfl) fun id' _ => moveMonster_sector _ _ _
      id', ((h.shownItems.broadcast fun _ => rfl).broadcast fun _ => rfl).of_eq rfl rfl rfl⟩
  | proc ht =>
    cases ht with
    | respawn hid hstate hbefore hsame =>
      apply Shows.settle
      have hgrid := (hs.monsters.grid id hid).1
      have hgone := h.shownMonsters.despawn hs.players hnd hgrid (hdespawn id hid)
      have hindex : Index (s.broadcastMonsterDespawn (s.monster id) (s.monster id).sector.around) :=
        hs.players.broadcast _ _ _
      have hagain :=
        hgone.spawn hindex (fun hmem => (hnd.mem_erase_iff.mp hmem).1 rfl) hgrid (hspawn id hid)
      exact ⟨hagain.congr (hback id hid) fun _ _ => rfl,
        (h.shownItems.broadcast fun _ => rfl).broadcast fun _ => rfl⟩
    | respawnAway hid hstate hbefore hne =>
      apply Shows.settle
      have hgrid := hs.monsters.grid id hid
      have hgone := h.shownMonsters.despawn hs.players hnd hgrid.1 (hdespawn id hid)
      generalize hu : (s.broadcastMonsterDespawn (s.monster id)
        (s.monster id).sector.around).moveMonster id (s.monster id) = u
      have hindex : Index u := by
        rw [← hu]
        exact (hs.players.broadcast _ _ _).of_eq rfl rfl rfl rfl rfl
      have hsector : ∀ id', (u.monster id').sector =
          Function.update (fun id => (s.monster id).sector) id (s.monster id).destSector id' := by
        rw [← hu]
        exact moveMonster_sector _ _ _
      have hself : (u.monster id).sector = (s.monster id).destSector := by
        rw [hsector, Function.update_self]
      -- it is nowhere to be seen while it moves
      have hmoved :
          Shown seeMonsters (s.monsters.erase id) (fun id => (u.monster id).sector) u := by
        rw [← hu]
        refine (hgone.of_eq rfl rfl rfl).congr (fun _ => Iff.rfl) fun id' hmem => ?_
        rw [hu, hsector, Function.update_of_ne (hnd.mem_erase_iff.mp hmem).1]
      have hagain := hmoved.spawn hindex (fun hmem => (hnd.mem_erase_iff.mp hmem).1 rfl)
        (by rw [hself]; exact hgrid.2) (hspawn id hid)
      rw [hself] at hagain
      have hmonsters : u.monsters = s.monsters := by
        rw [← hu]
        rfl
      have hitems : Shown seeItems u.items (fun id => (u.item id).sector) u := by
        rw [← hu]
        exact (h.shownItems.broadcast fun _ => rfl).of_eq rfl rfl rfl
      refine ⟨hagain.congr ?_ fun _ _ => rfl, hitems.broadcast fun _ => rfl⟩
      change ∀ id', id' ∈ u.monsters ↔ _
      rw [hmonsters]
      exact hback id hid
    | moveStart hid hstate hbefore => exact (h.broadcast (fun _ => rfl) fun _ => rfl).settle id
    | moveAgain hid hstate hbefore =>
      exact ((h.broadcast (fun _ => rfl) fun _ => rfl).broadcast
        (fun _ => rfl) fun _ => rfl).settle id
    | attack hid hstate =>
      exact ((h.broadcast (fun _ => rfl) fun _ => rfl).broadcast
        (fun _ => rfl) fun _ => rfl).settle id
    | moveStop hid hstate hbefore => exact (h.broadcast (fun _ => rfl) fun _ => rfl).settle id
    | settle hid hstate => exact h.settle id

/-! ### Runs -/

/-- Between the operations of the field thread every player knows the monsters and the items around
it, and none of them was spawned to it when it was known already. -/
theorem shown (h : field.Reachable s) : Shows s := by
  apply (field_invariant (P := Shows) ?_ (fun hs h ha => ha.shows hs h)
    (fun hs h ha => ha.shows hs h) (fun _ h ha => ha.shows h) (fun hs h ha => ha.shows hs h)
    (fun _ h => ?_) (fun _ h => ?_) (fun _ h _ => ?_) h).2
  · intro rands
    have hfresh := fresh_spawnMonsters (F := F) rands
    constructor <;> intro q hq <;> rw [hfresh.nobody.1] at hq <;> cases hq
  · exact h.setPlayer ⟨rfl, id, rfl, fun hc => (by cases hc), rfl, rfl, rfl⟩
  · exact h.of_eq rfl rfl rfl rfl rfl rfl rfl
  · exact h.handBack _

end

/-- Session 1 has killed the monster, which lies there beside what it dropped. -/
theorem shown_killRun : ∃ s : State ℚ, s.players = [1] ∧ monstersAround s 1 = {0} ∧
    itemsAround s 1 = {1} ∧ Shows s := by
  have hrun : (field.exec oneMonster killRun).any
      (fun s => s.players = [1] ∧ monstersAround s 1 = {0} ∧ itemsAround s 1 = {1}) = true := by
        decide +kernel
  obtain ⟨s, hs, hp⟩ := Option.any_eq_true _ _ |>.mp hrun
  obtain ⟨hplayers, hmonsters, hitems⟩ := of_decide_eq_true hp
  exact ⟨s, hplayers, hmonsters, hitems, shown (.exec _ (.start oneMonster_init) hs)⟩

end Field
end MyMMO
