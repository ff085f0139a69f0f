/-
# The items of a field

`dropItem` creates an item, `handleLootReq` and the last loop of `fieldUpdate` take items off the
field, and nothing else touches them (`Stock`). In every run an item that was created is on the
field, or was looted once, or has expired, and the inventories are what was looted (`conserved`).
-/
import Mathlib.Data.List.TakeWhile
import MyMMO.FieldIndex

namespace MyMMO
namespace Field

open Outcome

variable {F : Type}

/-! ### The history of the items -/

/-- The items that `dropItem` has created: id, kind and count. -/
def createdItems (h : List Event) : List (ℤ × ItemId × ℤ) :=
  h.filterMap fun
    | .itemCreated id itemId count => some (id, itemId, count)
    | _ => none

/-- Who has looted what. -/
def lootedItems (h : List Event) : List (ℕ × ℤ) :=
  h.filterMap fun
    | .looted q id => some (q, id)
    | _ => none

def expiredItems (h : List Event) : List ℤ :=
  h.filterMap fun
    | .expired id => some id
    | _ => none

/-- The LOOT_RES packets that tell of success, and to whom. -/
def responses (sent : List (ℕ × Packet F)) : List (ℕ × ItemId × ℤ) :=
  sent.filterMap fun k => match k.2 with
    | .lootRes result itemId count => if result = 0 then some (k.1, itemId, count) else none
    | _ => none

/-- `id` is created by `e`. -/
def Event.creates (id : ℤ) : Event → Bool
  | .itemCreated id' _ _ => id' = id
  | _ => false

/-- The calls of `fieldUpdate` since `id` was created, the one in which it was created included. -/
def age (id : ℤ) (h : List Event) : ℕ := (h.dropWhile fun e => !e.creates id).count .fieldUpdate + 1

/-- An event that is not in the life of an item. -/
def Event.Other (e : Event) : Prop :=
  createdItems [e] = [] ∧ lootedItems [e] = [] ∧ expiredItems [e] = []

section

variable {h es : List Event}

@[simp] theorem createdItems_append : createdItems (h ++ es) = createdItems h ++ createdItems es :=
  List.filterMap_append

@[simp] theorem lootedItems_append : lootedItems (h ++ es) = lootedItems h ++ lootedItems es :=
  List.filterMap_append

@[simp] theorem expiredItems_append : expiredItems (h ++ es) = expiredItems h ++ expiredItems es :=
  List.filterMap_append

@[simp] theorem responses_append (ks ls : List (ℕ × Packet F)) :
    responses (ks ++ ls) = responses ks ++ responses ls :=
  List.filterMap_append

theorem other_events (hes : ∀ e ∈ es, e.Other) :
    createdItems es = [] ∧ lootedItems es = [] ∧ expiredItems es = [] := by
  induction es with
  | nil => exact ⟨rfl, rfl, rfl⟩
  | cons e es ih =>
    obtain ⟨h1, h2, h3⟩ := hes e List.mem_cons_self
    obtain ⟨ih1, ih2, ih3⟩ := ih fun e he => hes e (List.mem_cons_of_mem _ he)
    rw [← List.singleton_append, createdItems_append, lootedItems_append, expiredItems_append, h1,
      h2, h3, ih1, ih2, ih3]
    exact ⟨rfl, rfl, rfl⟩

theorem mem_createdItems {id : ℤ} : id ∈ (createdItems h).map Prod.fst ↔
    ∃ e ∈ h, e.creates id = true := by
  rw [List.mem_map]
  constructor
  · rintro ⟨⟨id', itemId, count⟩, hmem, rfl⟩
    obtain ⟨e, he, heq⟩ := List.mem_filterMap.mp hmem
    refine ⟨e, he, ?_⟩
    cases e <;> cases heq
    exact decide_eq_true rfl
  · rintro ⟨e, he, hc⟩
    cases e with
    | itemCreated id' itemId count =>
      obtain rfl := of_decide_eq_true hc
      exact ⟨(id', itemId, count), List.mem_filterMap.mpr ⟨_, he, rfl⟩, rfl⟩
    | _ => cases hc

/-- An item grows older with every `fieldUpdate` after it was created. -/
theorem age_append {id : ℤ} (hid : id ∈ (createdItems h).map Prod.fst) :
    age id (h ++ es) = age id h + es.count .fieldUpdate := by
  obtain ⟨e, he, hc⟩ := mem_createdItems.mp hid
  unfold age
  have hne : (h.dropWhile fun e => !e.creates id) ≠ [] := by
    intro hnil
    have hall := List.dropWhile_eq_nil_iff.mp hnil e he
    rw [hc] at hall
    cases hall
  have hdrop : (h ++ es).dropWhile (fun e => !e.creates id) =
      h.dropWhile (fun e => !e.creates id) ++ es := by
    rw [List.dropWhile_append, if_neg]
    rwa [List.isEmpty_iff]
  rw [hdrop, List.count_append]
  omega

end

/-! ### What is done to the items -/

/-- `t` has the items of `s`, and nobody has gained or lost any. -/
structure Stock (s t : State F) : Prop where
  item : t.item = s.item
  items : ∀ id, id ∈ t.items ↔ id ∈ s.items
  itemUniqueID : t.itemUniqueID = s.itemUniqueID
  met : ∀ q ∈ s.met, q ∈ t.met
  inventory : ∀ q ∈ s.met, (t.player q).inventory = (s.player q).inventory
  empty : ∀ q ∈ t.met, q ∉ s.met → (t.player q).inventory = fun _ => 0
  sent : ∃ ks, t.sent = s.sent ++ ks ∧ responses ks = []
  history : ∃ es, t.history = s.history ++ es ∧ ∀ e ∈ es, e.Other

/-- What an effect comes to for the items, their growing older apart. -/
inductive Deal (s : State F) : State F → Prop
  | stock {t : State F} (h : Stock s t) : Deal s t
  | create (item : FieldItem F)
      (hid : item.itemUniqueId = s.itemUniqueID + 1) (hlife : item.lifeFrame = 0) :
      Deal s ((s.record (.itemCreated item.itemUniqueId item.itemId item.count)).addItem item)
  | loot (q : ℕ) (id : ℤ) (hq : q ∈ s.met) (hid : id ∈ s.items) (hnd : s.items.Nodup) :
      Deal s ((((s.setPlayer q ((s.player q).addItem (s.item id))).sendLootRes q true
        (s.item id).itemId (s.item id).count).record (.looted q id)).removeItem id
        (s.item id).sector)

section

variable {s t u : State F}

theorem Stock.trans (h : Stock s t) (h' : Stock t u) : Stock s u := by
  obtain ⟨ks, hks, hk⟩ := h.sent
  obtain ⟨ls, hls, hl⟩ := h'.sent
  obtain ⟨es, hes, he⟩ := h.history
  obtain ⟨fs, hfs, hf⟩ := h'.history
  refine ⟨h'.item.trans h.item, fun id => (h'.items id).trans (h.items id), h'.itemUniqueID.trans
    h.itemUniqueID, fun q hq => h'.met q (h.met q hq), fun q hq => (h'.inventory q
    (h.met q hq)).trans (h.inventory q hq), ?_, ⟨ks ++ ls, ?_, ?_⟩, ⟨es ++ fs, ?_, ?_⟩⟩
  · intro q hq hnew
    by_cases hqt : q ∈ t.met
    · exact (h'.inventory q hqt).trans (h.empty q hqt hnew)
    · exact h'.empty q hq hqt
  · rw [hls, hks, List.append_assoc]
  · rw [responses_append, hk, hl, List.append_nil]
  · rw [hfs, hes, List.append_assoc]
  · intro e he'
    rcases List.mem_append.mp he' with he' | he'
    · exact he e he'
    · exact hf e he'

/-- Nothing happens to the items and to who has been met. -/
theorem stock_of_eq (hi : t.item = s.item)
    (his : t.items = s.items) (hid : t.itemUniqueID = s.itemUniqueID)
    (hmet : t.met = s.met) (hinv : ∀ q, (t.player q).inventory = (s.player q).inventory)
    (hsent : ∃ ks, t.sent = s.sent ++ ks ∧ responses ks = [])
    (hhistory : ∃ es, t.history = s.history ++ es ∧ ∀ e ∈ es, e.Other) : Stock s t :=
  ⟨hi, fun id => by rw [his], hid, fun q hq => by rw [hmet]; exact hq, fun q _ => hinv q,
    fun q hq hnew => absurd (hmet ▸ hq) hnew, hsent, hhistory⟩

theorem stock_setPlayer {q : ℕ} {p : Player F} (h : p.inventory = (s.player q).inventory) :
    Stock s (s.setPlayer q p) := by
  refine stock_of_eq rfl rfl rfl rfl (fun q' => ?_) ⟨[], by simp [State.setPlayer], rfl⟩
    ⟨[], by simp [State.setPlayer], by simp⟩
  rw [setPlayer_player]
  split_ifs with hq
  · rw [hq, h]
  · rfl

theorem stock_record {e : Event} (h : e.Other) : Stock s (s.record e) :=
  stock_of_eq rfl rfl rfl rfl (fun _ => rfl) ⟨[], by simp [State.record], rfl⟩ ⟨[e], rfl,
    by simpa using h⟩

/-- A packet that is no LOOT_RES. -/
def Packet.NoLoot (packet : Packet F) : Prop := ∀ q, responses [(q, packet)] = []

theorem responses_noLoot {ks : List (ℕ × Packet F)} (h : ∀ k ∈ ks, k.2.NoLoot) :
    responses ks = [] := by
  induction ks with
  | nil => rfl
  | cons k ks ih =>
    rw [← List.singleton_append, responses_append, h k List.mem_cons_self k.1,
      ih fun l hl => h l (List.mem_cons_of_mem _ hl)]
    rfl

theorem stock_sends {ks : List (ℕ × Packet F)} (h : ∀ k ∈ ks, k.2.NoLoot) :
    Stock s { s with sent := s.sent ++ ks } :=
  stock_of_eq rfl rfl rfl rfl (fun _ => rfl) ⟨ks, rfl, responses_noLoot h⟩ ⟨[], by simp, by simp⟩

theorem stock_broadcast {near : List Sector} {skip : ℕ → Bool} {packet : Packet F}
    (h : packet.NoLoot) :
    Stock s (s.broadcast near skip packet) := by
  apply stock_sends
  intro k hk
  obtain ⟨q, -, rfl⟩ := List.mem_map.mp hk
  exact h

theorem stock_sendAll {ρ : Type} {q : ℕ} {rs : List ρ} {packet : ρ → Packet F}
    (h : ∀ r, (packet r).NoLoot) :
    Stock s (s.sendAll q (rs.map packet)) := by
  apply stock_sends
  intro k hk
  obtain ⟨l, hl, rfl⟩ := List.mem_map.mp hk
  obtain ⟨r, -, rfl⟩ := List.mem_map.mp hl
  exact h r

theorem stock_sendSpawns (q : ℕ) (near : List Sector) : Stock s (s.sendSpawns q near) := by
  unfold State.sendSpawns State.sendItemSpawnBatch State.sendMonsterSpawnBatch State.sendSpawnBatch
    State.broadcastSpawn
  have h : Stock s (s.broadcast near (· = q) (.otherCharacterSpawn (s.player q).record)) :=
    stock_broadcast fun _ => rfl
  exact ((h.trans (stock_sendAll fun _ _ => rfl)).trans (stock_sendAll fun _ _ => rfl)).trans
    (stock_sendAll fun _ _ => rfl)

theorem stock_sendDespawns (q : ℕ) (near : List Sector) : Stock s (s.sendDespawns q near) := by
  unfold State.sendDespawns State.sendItemDespawnBatch State.sendMonsterDespawnBatch
    State.sendDespawnBatch State.broadcastDespawn
  have h : Stock s (s.broadcast near
      (fun q' => (s.player q').characterID = (s.player q).characterID)
      (.characterDespawn (s.player q).characterID)) := stock_broadcast fun _ => rfl
  exact ((h.trans (stock_sendAll fun _ _ => rfl)).trans (stock_sendAll fun _ _ => rfl)).trans
    (stock_sendAll fun _ _ => rfl)

/-- The rest of the state is nobody's stock. -/
theorem stock_rest (hp : t.player = s.player) (hi : t.item = s.item) (his : t.items = s.items)
    (hid : t.itemUniqueID = s.itemUniqueID) (hmet : t.met = s.met) (hsent : t.sent = s.sent)
    (hhistory : t.history = s.history) : Stock s t :=
  stock_of_eq hi his hid hmet (fun q => by rw [hp]) ⟨[], by rw [hsent, List.append_nil], rfl⟩
    ⟨[], by rw [hhistory, List.append_nil], by simp⟩

theorem stock_handBack (s : State F) (q : ℕ) : Stock s (s.handBack q) := by
  have hset : Stock s (s.setPlayer q { s.player q with savePending := false }) :=
    stock_setPlayer rfl
  have hrecord := hset.trans (stock_record (e := .playerDisconnected q) ⟨rfl, rfl, rfl⟩)
  exact hrecord.trans (stock_rest rfl rfl rfl rfl rfl rfl rfl)

theorem stock_hitMonster (s : State F) (q : ℕ) (id : ℤ) (m : Monster F) :
    Stock s (s.hitMonster q id m) := by
  have hset : Stock s (s.setMonster id m) := stock_rest rfl rfl rfl rfl rfl rfl rfl
  have hrecord := hset.trans
    (stock_record (e := .monsterState (some q) id (s.monster id).state m.state) ⟨rfl, rfl, rfl⟩)
  exact hrecord.trans (stock_broadcast fun _ => rfl)

/-- A player is rewritten, and those around are told. -/
theorem stock_report {q : ℕ} {p : Player F} (h : p.inventory = (s.player q).inventory) {e : Event}
    (he : e.Other) (near : List Sector) (skip : ℕ → Bool) {packet : Packet F} (hk : packet.NoLoot) :
    Stock s (((s.setPlayer q p).record e).broadcast near skip packet) :=
  ((stock_setPlayer h).trans (stock_record he)).trans (stock_broadcast hk)

abbrev Deals (s t : State F) : Prop := Relation.ReflTransGen Deal s t

theorem deals_one (h : Stock s t) : Deals s t := .single (.stock h)

variable [Machine F]

theorem place_inventory (p : Player F) (packetPos : Position F) (direction : ℤ) :
    (p.place packetPos direction).inventory = p.inventory := by
  unfold Player.place
  rw [syncCheck_eq]

omit [Machine F] in
theorem stock_sendPrivate (q : ℕ) {packet : Packet F} (h : packet.Private) :
    Stock s (s.sendPost q packet) := by
  apply stock_sends
  intro k hk
  rw [List.mem_singleton.mp hk]
  intro q'
  cases packet with
  | lootRes result itemId count =>
    have hne : result ≠ 0 := h
    simp [responses, hne]
  | _ => rfl

theorem Dropped.deals {m : Monster F} (h : Dropped s m t) : Deals s t := by
  have hdrop : Stock s (s.record (.dropItem m.monsterID)) := stock_record ⟨rfl, rfl, rfl⟩
  cases h with
  | nothing rands => exact deals_one (hdrop.trans (stock_rest rfl rfl rfl rfl rfl rfl rfl))
  | item itemId count rands =>
    have hrands : Stock s { s.record (.dropItem m.monsterID) with rands } :=
      hdrop.trans (stock_rest rfl rfl rfl rfl rfl rfl rfl)
    have hcreate : Deals s _ :=
      (deals_one hrands).tail (.create (droppedItem s m itemId count) rfl rfl)
    exact hcreate.tail (.stock (stock_broadcast fun _ => rfl))

omit [Machine F] in
theorem stock_enter {q : ℕ} {p : Player F} (hq : q ∉ s.met) (hp : p.inventory = fun _ => 0) :
    Stock s (s.enter q p) := by
  have hother : ∀ q' ∈ s.met, (s.enter q p).player q' = s.player q' := by
    intro q' hq'
    apply Function.update_of_ne
    rintro rfl
    exact hq hq'
  refine ⟨rfl, fun _ => Iff.rfl, rfl, fun q' hq' => List.mem_cons_of_mem _ hq',
    fun q' hq' => by rw [hother q' hq'], ?_, ⟨[], by simp [State.enter], rfl⟩,
    ⟨[], by simp [State.enter], by simp⟩⟩
  intro q' hq' hnew
  obtain rfl := (List.mem_cons.mp hq').resolve_right hnew
  change (Function.update s.player q' p q').inventory = _
  rw [Function.update_self, hp]

theorem Act.deals (h : Act s t) (hs : Sound s) : Deals s t := by
  cases h with
  | fieldUpdate => exact deals_one (stock_record ⟨rfl, rfl, rfl⟩)
  | adjust q syncCnt targets hq => exact deals_one (stock_setPlayer rfl)
  | hit q id m hq hid hstate hm hdead hgrid => exact deals_one (stock_hitMonster s q id m)
  | kill q id m u hq hid hstate hm hdead hgrid hu =>
    have hkill := (deals_one (stock_hitMonster s q id m)).trans hu.deals
    have hrecord := (stock_record (s := u)
      (e := .killCountUpdate id q (u.player q).accountNo (u.player q).nickname) ⟨rfl, rfl, rfl⟩)
    exact hkill.tail (.stock (hrecord.trans (stock_rest rfl rfl rfl rfl rfl rfl rfl)))
  | aim q hq hne => exact deals_one (stock_setPlayer rfl)
  | cross q hq hne =>
    have hspawns := stock_sendSpawns (s := s) q
      ((s.player q).destSector.around.diff (s.player q).currentSector.around)
    have hsend := hspawns.trans
      (stock_sendDespawns q ((s.player q).currentSector.around.diff (s.player q).destSector.around))
    unfold State.cross
    generalize hu : State.sendDespawns _ q _ = u at hsend ⊢
    have hplayer : u.player = s.player := by
      rw [← hu, sendDespawns_player, sendSpawns_player]
    have hset :
        Stock u (u.setPlayer q { s.player q with currentSector := (s.player q).destSector }) :=
      stock_setPlayer (by rw [hplayer])
    exact deals_one ((hsend.trans hset).trans (stock_rest rfl rfl rfl rfl rfl rfl rfl))
  | damaged q m p hq hstate hp =>
    exact deals_one (stock_report (by rw [takeDamage_eq hp]) ⟨rfl, rfl, rfl⟩ _ _ fun _ => rfl)
  | enter q accountNo characterID pos nickname hq hid =>
    exact deals_one ((stock_enter hq rfl).trans (stock_sendSpawns _ _))
  | moveStart q p packetPos direction hq hstate hsync hp =>
    have hinv : p.inventory = (s.player q).inventory := by
      rw [(changeState_eq hp).2]
      exact place_inventory (s.player q) packetPos direction
    exact deals_one (stock_report hinv ⟨rfl, rfl, rfl⟩ _ _ fun _ => rfl)
  | moveStop q p packetPos direction hq hsync hp =>
    have hinv : p.inventory = (s.player q).inventory := by
      rcases hp with ⟨-, rfl⟩ | ⟨-, hp⟩
      · exact place_inventory (s.player q) packetPos direction
      · rw [(changeState_eq hp).2]
        exact place_inventory (s.player q) packetPos direction
    exact deals_one (stock_report hinv ⟨rfl, rfl, rfl⟩ _ _ fun _ => rfl)
  | attackReq q p skillId hq hstate hp =>
    have hinv : { p with pendingAttackSkillId := skillId }.inventory = (s.player q).inventory := by
      rw [(changeState_eq hp).2]
    exact deals_one (stock_report hinv ⟨rfl, rfl, rfl⟩ _ _ fun _ => rfl)
  | loot q id hq hid hgrid hcell =>
    have hdespawn : Stock s (s.broadcastItemDespawn (s.item id) (s.item id).sector.around) :=
      stock_broadcast fun _ => rfl
    exact (deals_one hdespawn).tail (.loot q id (hs.players.met q hq) hid hs.items.cells.nodup)
  | send q packet hq hp => exact deals_one (stock_sendPrivate q hp)
  | disconnectSession q => exact deals_one (stock_rest rfl rfl rfl rfl rfl rfl rfl)
  | request q hq => exact deals_one (stock_rest rfl rfl rfl rfl rfl rfl rfl)
  | save q hq hconnect hpending =>
    have hset : Stock s (s.setPlayer q { s.player q with savePending := true }) :=
      stock_setPlayer rfl
    have hrecord := hset.trans (stock_record (e := .positionSave q) ⟨rfl, rfl, rfl⟩)
    exact deals_one (hrecord.trans (stock_rest rfl rfl rfl rfl rfl rfl rfl))
  | dbDequeue job dbReqQ hjob hqueue => exact deals_one (stock_rest rfl rfl rfl rfl rfl rfl rfl)
  | dbAnswer job ranking hjob => exact deals_one (stock_rest rfl rfl rfl rfl rfl rfl rfl)
  | rehash players sectors monsters monsterSectors items itemSectors hp hs hm hms hi his =>
    exact deals_one ⟨rfl, fun _ => hi.mem_iff, rfl, fun _ => id, fun _ _ => rfl,
      fun _ hq hnew => absurd hq hnew, ⟨[], by simp, rfl⟩, ⟨[], by simp, by simp⟩⟩

theorem PlayerAct.stock {q : ℕ} (h : PlayerAct q s t) : Stock s t := by
  cases h with
  | update p hq hp hframe => exact stock_setPlayer (by rw [update_eq hp])
  | attackHit p hq hp hstate hframe =>
    have hset : Stock s (s.setPlayer q p) := stock_setPlayer (by rw [update_eq hp])
    exact hset.trans (stock_record ⟨rfl, rfl, rfl⟩)

theorem MonsterAct.stock {id : ℤ} (h : MonsterAct id s t) : Stock s t := by
  have hsend : ∀ (u : State F) (near : List Sector) (packet : Packet F), packet.NoLoot →
      Stock u (u.broadcast near (fun _ => false) packet) := fun _ _ _ hk => stock_broadcast hk
  have hmonster : ∀ (u : State F) (m : Monster F), Stock u (u.setMonster id m) :=
    fun _ _ => stock_rest rfl rfl rfl rfl rfl rfl rfl
  have hmove : ∀ (u : State F) (m : Monster F), Stock u (u.moveMonster id m) :=
    fun _ _ => stock_rest rfl rfl rfl rfl rfl rfl rfl
  cases h with
  | update m rands hid hm =>
    have hrecord := (hmonster s (updateMonsterSectorCheck m)).trans
      (stock_record (e := .monsterState none id (s.monster id).state m.state) ⟨rfl, rfl, rfl⟩)
    exact hrecord.trans (stock_rest rfl rfl rfl rfl rfl rfl rfl)
  | cross hid hstate hne =>
    exact ((hsend _ _ _ fun _ => rfl).trans (hsend _ _ _ fun _ => rfl)).trans (hmove _ _)
  | proc ht =>
    cases ht with
    | moveStart hid hstate hbefore => exact (hsend _ _ _ fun _ => rfl).trans (hmonster _ _)
    | moveAgain hid hstate hbefore =>
      exact ((hsend _ _ _ fun _ => rfl).trans (hsend _ _ _ fun _ => rfl)).trans (hmonster _ _)
    | attack hid hstate =>
      exact ((hsend _ _ _ fun _ => rfl).trans (hsend _ _ _ fun _ => rfl)).trans (hmonster _ _)
    | moveStop hid hstate hbefore => exact (hsend _ _ _ fun _ => rfl).trans (hmonster _ _)
    | respawn hid hstate hbefore hsame =>
      exact ((hsend _ _ _ fun _ => rfl).trans (hsend _ _ _ fun _ => rfl)).trans (hmonster _ _)
    | respawnAway hid hstate hbefore hne =>
      exact (((hsend _ _ _ fun _ => rfl).trans (hmove _ _)).trans (hsend _ _ _ fun _ => rfl)).trans
        (hmonster _ _)
    | settle hid hstate => exact hmonster _ _

end

/-! ### Conservation -/

theorem count_tail (ids : List ℤ) (id id' : ℤ) :
    (ids ++ [id]).count id' = ids.count id' + if id = id' then 1 else 0 := by
  rw [List.count_append, List.count_singleton]
  simp only [beq_iff_eq]

/-- The ids of the items that were created. -/
def createdIds (h : List Event) : List ℤ := (createdItems h).map Prod.fst

/-- The ids of the items that were looted. -/
def lootedIds (h : List Event) : List ℤ := (lootedItems h).map Prod.snd

/-- How much of `itemId` the items looted by `q` come to. -/
def gains (s : State F) (q : ℕ) (itemId : ItemId) : ℤ :=
  (((lootedItems s.history).filter fun l => l.1 = q ∧ (s.item l.2).itemId = itemId).map fun l =>
    (s.item l.2).count).sum

/-- Where the items are that were created. -/
structure Conserved (s : State F) : Prop where
  once : ∀ id, (createdIds s.history).count id ≤ 1
  place : ∀ id, (if id ∈ s.items then 1 else 0) + (lootedIds s.history).count id +
    (expiredItems s.history).count id = (createdIds s.history).count id
  kind : ∀ c ∈ createdItems s.history, (s.item c.1).itemId = c.2.1 ∧ (s.item c.1).count = c.2.2
  fresh : ∀ id ∈ createdIds s.history, id ≤ s.itemUniqueID
  -- a LOOT_RES for every item looted, in order
  responses : responses s.sent =
    (lootedItems s.history).map fun l => (l.1, (s.item l.2).itemId, (s.item l.2).count)
  looters : ∀ l ∈ lootedItems s.history, l.1 ∈ s.met
  inventory : ∀ q ∈ s.met, ∀ itemId, (s.player q).inventory itemId =
    (gains s q itemId).bmod (2 ^ 32)

section

variable {s t u : State F}

theorem Conserved.created_of_looted (h : Conserved s) {l : ℕ × ℤ} (hl : l ∈ lootedItems s.history) :
    l.2 ∈ createdIds s.history := by
  have hcount : 0 < (lootedIds s.history).count l.2 :=
    List.count_pos_iff.mpr (List.mem_map_of_mem hl)
  have hplace := h.place l.2
  exact List.count_pos_iff.mp (by omega)

theorem Conserved.created_of_mem (h : Conserved s) {id : ℤ} (hid : id ∈ s.items) :
    id ∈ createdIds s.history := by
  have hplace := h.place id
  rw [if_pos hid] at hplace
  exact List.count_pos_iff.mp (by omega)

/-- Items whose kinds and counts are the same are worth the same. -/
theorem gains_congr {q : ℕ} {itemId : ItemId} (hl : lootedItems t.history = lootedItems s.history)
    (hitem : ∀ l ∈ lootedItems s.history, (t.item l.2).itemId = (s.item l.2).itemId ∧
      (t.item l.2).count = (s.item l.2).count) : gains t q itemId = gains s q itemId := by
  unfold gains
  rw [hl]
  have hfilter : (lootedItems s.history).filter (fun l => l.1 = q ∧ (t.item l.2).itemId = itemId) =
      (lootedItems s.history).filter fun l => l.1 = q ∧ (s.item l.2).itemId = itemId := by
    apply List.filter_congr
    intro l hmem
    rw [(hitem l hmem).1]
  rw [hfilter]
  congr 1
  apply List.map_congr_left
  intro l hmem
  exact (hitem l (List.mem_of_mem_filter hmem)).2

theorem Conserved.stock (h : Conserved s) (hs : Stock s t) : Conserved t := by
  obtain ⟨ks, hks, hk⟩ := hs.sent
  obtain ⟨es, hes, he⟩ := hs.history
  obtain ⟨hc, hl, hx⟩ := other_events he
  have hcreated : createdItems t.history = createdItems s.history := by
    rw [hes, createdItems_append, hc, List.append_nil]
  have hlooted : lootedItems t.history = lootedItems s.history := by
    rw [hes, lootedItems_append, hl, List.append_nil]
  have hexpired : expiredItems t.history = expiredItems s.history := by
    rw [hes, expiredItems_append, hx, List.append_nil]
  refine ⟨?_, ?_, ?_, ?_, ?_, ?_, ?_⟩
  · unfold createdIds
    rw [hcreated]
    exact h.once
  · unfold createdIds lootedIds
    rw [hcreated, hlooted, hexpired]
    intro id
    simp only [hs.items]
    exact h.place id
  · rw [hcreated, hs.item]
    exact h.kind
  · unfold createdIds
    rw [hcreated, hs.itemUniqueID]
    exact h.fresh
  · rw [hks, responses_append, hk, List.append_nil, hlooted, hs.item]
    exact h.responses
  · rw [hlooted]
    exact fun l hl => hs.met _ (h.looters l hl)
  · intro q hq itemId
    rw [gains_congr hlooted fun l _ => by rw [hs.item]; exact ⟨rfl, rfl⟩]
    by_cases hqs : q ∈ s.met
    · rw [hs.inventory q hqs]
      exact h.inventory q hqs itemId
    · -- nobody has looted anything who was not there
      rw [hs.empty q hq hqs]
      unfold gains
      rw [List.filter_eq_nil_iff.mpr]
      · rfl
      · intro l hmem
        simp only [decide_eq_true_eq, not_and]
        rintro rfl
        exact absurd (h.looters l hmem) hqs

theorem Conserved.create (h : Conserved s) {item : FieldItem F}
    (hid : item.itemUniqueId = s.itemUniqueID + 1) :
    Conserved
      ((s.record (.itemCreated item.itemUniqueId item.itemId item.count)).addItem item) := by
  generalize ht : State.addItem _ item = t
  have hcreated : createdItems t.history = createdItems s.history ++
      [(item.itemUniqueId, item.itemId, item.count)] := by
    rw [← ht]
    exact createdItems_append
  have hlooted : lootedItems t.history = lootedItems s.history := by
    rw [← ht]
    exact lootedItems_append.trans (List.append_nil _)
  have hexpired : expiredItems t.history = expiredItems s.history := by
    rw [← ht]
    exact expiredItems_append.trans (List.append_nil _)
  have hitems : t.items = item.itemUniqueId :: s.items := by rw [← ht]; rfl
  have hitem : t.item = Function.update s.item item.itemUniqueId item := by rw [← ht]; rfl
  have hplayer : t.player = s.player := by rw [← ht]; rfl
  have hsent : t.sent = s.sent := by rw [← ht]; rfl
  have hmet : t.met = s.met := by rw [← ht]; rfl
  have huniq : t.itemUniqueID = item.itemUniqueId := by rw [← ht]; rfl
  clear ht
  have hnew : item.itemUniqueId ∉ createdIds s.history := by
    intro hmem
    have hle := h.fresh _ hmem
    omega
  have hother : ∀ id ∈ createdIds s.history, t.item id = s.item id := by
    intro id hmem
    rw [hitem]
    apply Function.update_of_ne
    rintro rfl
    exact hnew hmem
  have hids : createdIds t.history = createdIds s.history ++ [item.itemUniqueId] := by
    unfold createdIds
    rw [hcreated, List.map_append, List.map_singleton]
  have hgone : lootedIds t.history = lootedIds s.history := congrArg (List.map Prod.snd) hlooted
  have hfirst := List.count_eq_zero_of_not_mem hnew
  refine ⟨fun id => ?_, fun id => ?_, fun c hc => ?_, fun id hmem => ?_, ?_, ?_,
    fun q hq itemId => ?_⟩
  · rw [hids, count_tail]
    have hold := h.once id
    split_ifs with he
    · subst he
      omega
    · omega
  · rw [hids, hgone, hexpired, hitems, count_tail]
    have hplace := h.place id
    by_cases he : id = item.itemUniqueId
    · subst he
      have hnot : item.itemUniqueId ∉ s.items := fun hmem => hnew (h.created_of_mem hmem)
      rw [if_neg hnot] at hplace
      rw [if_pos List.mem_cons_self, if_pos rfl]
      omega
    · rw [if_neg (Ne.symm he)]
      simp only [List.mem_cons, he, false_or]
      exact hplace
  · rw [hcreated] at hc
    rcases List.mem_append.mp hc with hc | hc
    · rw [hother c.1 (List.mem_map_of_mem hc)]
      exact h.kind c hc
    · rw [List.mem_singleton.mp hc, hitem, Function.update_self]
      exact ⟨rfl, rfl⟩
  · rw [hids] at hmem
    rw [huniq]
    rcases List.mem_append.mp hmem with hmem | hmem
    · have hle := h.fresh id hmem
      omega
    · rw [List.mem_singleton.mp hmem]
  · rw [hsent, hlooted, h.responses]
    apply List.map_congr_left
    intro l hl
    rw [hother l.2 (h.created_of_looted hl)]
  · rw [hlooted, hmet]
    exact h.looters
  · rw [hplayer,
      gains_congr hlooted fun l hl => by rw [hother l.2 (h.created_of_looted hl)]; exact ⟨rfl, rfl⟩]
    rw [hmet] at hq
    exact h.inventory q hq itemId

/-- `q` has gained an item. -/
theorem gains_loot {q q' : ℕ} {id : ℤ} {itemId : ItemId}
    (hl : lootedItems t.history = lootedItems s.history ++ [(q, id)]) (hitem : t.item = s.item) :
    gains t q' itemId =
      gains s q' itemId + if q = q' ∧ (s.item id).itemId = itemId then
        (s.item id).count else 0 := by
  unfold gains
  rw [hl, hitem, List.filter_append, List.map_append, List.sum_append]
  congr 1
  by_cases h : q = q' ∧ (s.item id).itemId = itemId
  · rw [if_pos h, List.filter_cons_of_pos (by simpa using h)]
    simp
  · rw [if_neg h, List.filter_cons_of_neg (by simpa using h)]
    rfl

theorem Conserved.loot (h : Conserved s) {q : ℕ} {id : ℤ} (hq : q ∈ s.met) (hid : id ∈ s.items)
    (hnd : s.items.Nodup) :
    Conserved ((((s.setPlayer q ((s.player q).addItem (s.item id))).sendLootRes q true
      (s.item id).itemId (s.item id).count).record (.looted q id)).removeItem id
      (s.item id).sector) := by
  generalize ht : State.removeItem _ id _ = t
  have hcreated : createdItems t.history = createdItems s.history := by
    rw [← ht]
    exact createdItems_append.trans (List.append_nil _)
  have hlooted : lootedItems t.history = lootedItems s.history ++ [(q, id)] := by
    rw [← ht]
    exact lootedItems_append
  have hexpired : expiredItems t.history = expiredItems s.history := by
    rw [← ht]
    exact expiredItems_append.trans (List.append_nil _)
  have hitems : t.items = s.items.erase id := by rw [← ht]; rfl
  have hitem : t.item = s.item := by rw [← ht]; rfl
  have hplayer : t.player = Function.update s.player q ((s.player q).addItem (s.item id)) := by
    rw [← ht]; rfl
  have hsent : t.sent = s.sent ++ [(q, .lootRes 0 (s.item id).itemId (s.item id).count)] := by
    rw [← ht]; rfl
  have hmet : t.met = s.met := by rw [← ht]; rfl
  have huniq : t.itemUniqueID = s.itemUniqueID := by rw [← ht]; rfl
  clear ht
  have hids : createdIds t.history = createdIds s.history := congrArg (List.map Prod.fst) hcreated
  have hgone : lootedIds t.history = lootedIds s.history ++ [id] := by
    unfold lootedIds
    rw [hlooted, List.map_append, List.map_singleton]
  refine ⟨?_, fun id' => ?_, ?_, ?_, ?_, fun l hl => ?_, fun q' hq' itemId => ?_⟩
  · rw [hids]
    exact h.once
  · rw [hids, hgone, hexpired, hitems, count_tail]
    have hplace := h.place id'
    by_cases he : id' = id
    · subst he
      rw [if_pos hid] at hplace
      rw [if_neg hnd.not_mem_erase, if_pos rfl]
      omega
    · rw [if_neg (Ne.symm he)]
      simp only [List.mem_erase_of_ne he]
      exact hplace
  · rw [hcreated, hitem]
    exact h.kind
  · rw [hids, huniq]
    exact h.fresh
  · rw [hsent, responses_append, hlooted, hitem, List.map_append, h.responses]
    rfl
  · rw [hlooted] at hl
    rw [hmet]
    rcases List.mem_append.mp hl with hl | hl
    · exact h.looters l hl
    · rw [List.mem_singleton.mp hl]
      exact hq
  · rw [hmet] at hq'
    have hold := h.inventory q' hq' itemId
    rw [gains_loot hlooted hitem, hplayer, Function.update_apply]
    by_cases he : q' = q
    · subst he
      rw [if_pos rfl]
      unfold Player.addItem
      dsimp only
      rw [Function.update_apply]
      by_cases hk : itemId = (s.item id).itemId
      · subst hk
        rw [if_pos rfl, if_pos ⟨rfl, rfl⟩, hold]
        exact Int.bmod_add_bmod
      · rw [if_neg hk, if_neg fun hk' => hk hk'.2.symm, add_zero]
        exact hold
    · rw [if_neg he, if_neg fun hk => he hk.1.symm, add_zero]
      exact hold

theorem Conserved.grow (h : Conserved s) (id : ℤ) :
    Conserved { s with item := Function.update s.item id (s.item id).update } := by
  have hsame : ∀ id', (Function.update s.item id (s.item id).update id').itemId =
      (s.item id').itemId ∧
      (Function.update s.item id (s.item id).update id').count = (s.item id').count := by
    intro id'
    rw [Function.update_apply]
    split_ifs with he
    · rw [he]
      exact ⟨rfl, rfl⟩
    · exact ⟨rfl, rfl⟩
  refine ⟨h.once, h.place, fun c hc => ?_, h.fresh, ?_, h.looters, fun q hq itemId => ?_⟩
  · rw [(hsame c.1).1, (hsame c.1).2]
    exact h.kind c hc
  · simp only [hsame]
    exact h.responses
  · have hgains : gains { s with item := Function.update s.item id (s.item id).update } q itemId =
      gains s q itemId :=
      gains_congr rfl fun l _ => hsame l.2
    rw [hgains]
    exact h.inventory q hq itemId

theorem Conserved.expire (h : Conserved s) {id : ℤ} (hid : id ∈ s.items) (hnd : s.items.Nodup)
    (c : Sector) :
    Conserved ((s.record (.expired id)).removeItem id c) := by
  generalize ht : State.removeItem _ id c = t
  have hcreated : createdItems t.history = createdItems s.history := by
    rw [← ht]
    exact createdItems_append.trans (List.append_nil _)
  have hlooted : lootedItems t.history = lootedItems s.history := by
    rw [← ht]
    exact lootedItems_append.trans (List.append_nil _)
  have hexpired : expiredItems t.history = expiredItems s.history ++ [id] := by
    rw [← ht]
    exact expiredItems_append
  have hitems : t.items = s.items.erase id := by rw [← ht]; rfl
  have hitem : t.item = s.item := by rw [← ht]; rfl
  have hplayer : t.player = s.player := by rw [← ht]; rfl
  have hsent : t.sent = s.sent := by rw [← ht]; rfl
  have hmet : t.met = s.met := by rw [← ht]; rfl
  have huniq : t.itemUniqueID = s.itemUniqueID := by rw [← ht]; rfl
  clear ht
  have hids : createdIds t.history = createdIds s.history := congrArg (List.map Prod.fst) hcreated
  have hgone : lootedIds t.history = lootedIds s.history := congrArg (List.map Prod.snd) hlooted
  refine ⟨?_, fun id' => ?_, ?_, ?_, ?_, ?_, fun q hq itemId => ?_⟩
  · rw [hids]
    exact h.once
  · rw [hids, hgone, hexpired, hitems, count_tail]
    have hplace := h.place id'
    by_cases he : id' = id
    · subst he
      rw [if_pos hid] at hplace
      rw [if_neg hnd.not_mem_erase, if_pos rfl]
      omega
    · rw [if_neg (Ne.symm he)]
      simp only [List.mem_erase_of_ne he]
      exact hplace
  · rw [hcreated, hitem]
    exact h.kind
  · rw [hids, huniq]
    exact h.fresh
  · rw [hsent, hlooted, hitem]
    exact h.responses
  · rw [hlooted, hmet]
    exact h.looters
  · rw [hmet] at hq
    rw [hplayer, gains_congr hlooted fun l _ => by rw [hitem]; exact ⟨rfl, rfl⟩]
    exact h.inventory q hq itemId

/-! ### Age -/

/-- An item has been on the field for at least as many calls of `fieldUpdate` as it counts, and for
`slack` more. -/
def Young (slack : ℤ → ℤ) (s : State F) : Prop :=
  ∀ id ∈ s.items, (s.item id).lifeFrame + slack id ≤ age id s.history

/-- What has expired was on the field for 1500 calls. -/
def Aged (s : State F) : Prop := ∀ h h' id, s.history = h ++ .expired id :: h' → 1500 ≤ age id h

/-- What a run keeps of the items. -/
structure Kept (slack : ℤ → ℤ) (s : State F) : Prop extends Conserved s where
  young : Young slack s
  aged : Aged s

theorem Aged.append {es : List Event} (h : Aged s) (ht : t.history = s.history ++ es)
    (hes : expiredItems es = []) :
    Aged t := by
  intro l l' id he
  rw [ht] at he
  rcases List.append_eq_append_iff.mp he with ⟨m, hm, hm'⟩ | ⟨m, hm, hm'⟩
  · -- it expired after `s`
    exfalso
    rw [hm', expiredItems_append] at hes
    exact absurd (List.append_eq_nil_iff.mp hes).2 (List.cons_ne_nil _ _)
  · cases m with
    | nil =>
      exfalso
      rw [List.nil_append] at hm'
      rw [← hm'] at hes
      exact absurd hes (List.cons_ne_nil _ _)
    | cons e m =>
      obtain ⟨rfl, rfl⟩ := List.cons.inj hm'
      exact h l m id hm

variable {slack : ℤ → ℤ}

theorem Kept.stock (h : Kept slack s) (hs : Stock s t) : Kept slack t := by
  obtain ⟨es, hes, he⟩ := hs.history
  refine ⟨h.toConserved.stock hs, fun id hid => ?_, h.aged.append hes (other_events he).2.2⟩
  have hmem := (hs.items id).mp hid
  have hyoung := h.young id hmem
  rw [hs.item, hes, age_append (h.created_of_mem hmem)]
  push_cast
  omega

theorem Kept.create (h : Kept slack s) (hslack : ∀ id, slack id ≤ 1) {item : FieldItem F}
    (hid : item.itemUniqueId = s.itemUniqueID + 1) (hlife : item.lifeFrame = 0) :
    Kept slack
      ((s.record (.itemCreated item.itemUniqueId item.itemId item.count)).addItem item) := by
  refine ⟨h.toConserved.create hid, fun id hmem => ?_, h.aged.append rfl rfl⟩
  change (Function.update s.item item.itemUniqueId item id).lifeFrame + slack id ≤
    age id (s.history ++ [.itemCreated item.itemUniqueId item.itemId item.count])
  rw [Function.update_apply]
  split_ifs with he
  · have hone : 1 ≤ age id (s.history ++ [.itemCreated item.itemUniqueId item.itemId item.count]) :=
      Nat.le_add_left 1 _
    have := hslack id
    omega
  · have hold := (List.mem_cons.mp hmem).resolve_left he
    have hyoung := h.young id hold
    rw [age_append (h.created_of_mem hold)]
    push_cast
    omega

theorem Kept.loot (h : Kept slack s) {q : ℕ} {id : ℤ} (hq : q ∈ s.met) (hid : id ∈ s.items)
    (hnd : s.items.Nodup) :
    Kept slack ((((s.setPlayer q ((s.player q).addItem (s.item id))).sendLootRes q true
      (s.item id).itemId (s.item id).count).record (.looted q id)).removeItem id
      (s.item id).sector) := by
  refine ⟨h.toConserved.loot hq hid hnd, fun id' hmem => ?_, h.aged.append rfl rfl⟩
  have hold : id' ∈ s.items := List.mem_of_mem_erase hmem
  have hyoung := h.young id' hold
  change (s.item id').lifeFrame + slack id' ≤ age id' (s.history ++ [.looted q id])
  rw [age_append (h.created_of_mem hold)]
  push_cast
  omega

theorem Deal.kept (hd : Deal s t) (hslack : ∀ id, slack id ≤ 1) (h : Kept slack s) :
    Kept slack t := by
  cases hd with
  | stock hs => exact h.stock hs
  | create item hid hlife => exact h.create hslack hid hlife
  | loot q id hq hid hnd => exact h.loot hq hid hnd

theorem Deals.kept (hd : Deals s t) (hslack : ∀ id, slack id ≤ 1) (h : Kept slack s) :
    Kept slack t := by
  induction hd with
  | refl => exact h
  | tail _ hd ih => exact hd.kept hslack ih

/-- A call of `fieldUpdate` begins: every item is a tick older than it counts. -/
theorem Kept.tick (h : Kept (fun _ => 0) s) : Kept (fun _ => 1) (s.record .fieldUpdate) := by
  have hs : Stock s (s.record .fieldUpdate) := stock_record ⟨rfl, rfl, rfl⟩
  refine ⟨h.toConserved.stock hs, fun id hid => ?_, (h.stock hs).aged⟩
  have hyoung := h.young id hid
  change (s.item id).lifeFrame + 1 ≤ age id (s.history ++ [.fieldUpdate])
  rw [age_append (h.created_of_mem hid)]
  change _ ≤ ((age id s.history + 1 : ℕ) : ℤ)
  omega

/-- The item `id` has been looked at. -/
theorem Kept.grow (h : Kept slack s) {id : ℤ} (hslack : slack id = 1) :
    Kept (Function.update slack id 0)
      { s with item := Function.update s.item id (s.item id).update } := by
  refine ⟨h.toConserved.grow id, fun id' hid => ?_, h.aged⟩
  have hyoung := h.young id' hid
  change (Function.update s.item id (s.item id).update id').lifeFrame +
    Function.update slack id 0 id' ≤ age id' s.history
  rw [Function.update_apply, Function.update_apply]
  split_ifs with he
  · subst he
    rw [hslack] at hyoung
    unfold FieldItem.update
    dsimp only
    omega
  · exact hyoung

theorem Kept.expire (h : Kept slack s) {id : ℤ} (hid : id ∈ s.items) (hnd : s.items.Nodup)
    (hslack : slack id = 0) (hlife : (s.item id).isExpired = true) (c : Sector) :
    Kept slack ((s.record (.expired id)).removeItem id c) := by
  refine ⟨h.toConserved.expire hid hnd c, fun id' hmem => ?_, fun l l' id' he => ?_⟩
  · have hold : id' ∈ s.items := List.mem_of_mem_erase hmem
    have hyoung := h.young id' hold
    change (s.item id').lifeFrame + slack id' ≤ age id' (s.history ++ [.expired id])
    rw [age_append (h.created_of_mem hold)]
    push_cast
    omega
  · change s.history ++ [.expired id] = l ++ .expired id' :: l' at he
    rcases List.eq_nil_or_concat l' with rfl | ⟨m, e, rfl⟩
    · obtain ⟨hl, he⟩ := List.append_inj' he rfl
      obtain rfl : id = id' := by injection he with he; injection he
      rw [← hl]
      have hyoung := h.young id hid
      have hexpired : ITEM_DESPAWN_FRAME ≤ (s.item id).lifeFrame := of_decide_eq_true hlife
      unfold ITEM_DESPAWN_FRAME at hexpired
      omega
    · rw [List.concat_eq_append, ← List.cons_append, ← List.append_assoc] at he
      exact h.aged l m id' (List.append_inj' he rfl).1

theorem ItemAct.kept {id : ℤ} (ha : ItemAct id s t) (hnd : s.items.Nodup) (hslack : slack id = 1)
    (h : Kept slack s) :
    Kept (Function.update slack id 0) t := by
  have hgrow := h.grow hslack
  cases ha with
  | update hid hlife => exact hgrow
  | expire hid hlife hgrid =>
    have hsend := hgrow.stock (t := { s with
      item := Function.update s.item id (s.item id).update }.broadcastItemDespawn (s.item id).update
      (s.item id).sector.around) (stock_broadcast fun _ => rfl)
    refine hsend.expire hid hnd (Function.update_self _ _ _) ?_ _
    change (Function.update s.item id (s.item id).update id).isExpired = true
    rw [Function.update_self]
    exact hlife

/-- Every item is looked at once, those in `ids` are still to be. -/
theorem kept_updateItems [Machine F] {ids : List ℤ} (hs : Sound s) (hids : ids.Nodup)
    (hsub : ∀ id ∈ ids, id ∈ s.items) (hslack : ∀ id, slack id = if id ∈ ids then 1 else 0)
    (hk : Kept slack s) (h : ids.foldlM updateItem s = .ok t) :
    Kept (fun _ => 0) t := by
  induction ids generalizing s slack with
  | nil =>
    cases h
    obtain rfl : slack = fun _ => 0 := funext hslack
    exact hk
  | cons id ids ih =>
    obtain ⟨u, hu, h⟩ := foldlM_cons_ok h
    obtain ⟨hnot, hids⟩ := List.nodup_cons.mp hids
    have hact := act_updateItem (hsub id List.mem_cons_self) hu
    have hone : slack id = 1 := by rw [hslack, if_pos List.mem_cons_self]
    refine ih (hact.sound hs) hids ?_ ?_ (hact.kept hs.items.cells.nodup hone hk) h
    · intro id' hid'
      have hmem := hsub id' (List.mem_cons_of_mem _ hid')
      rcases hact.items with he | he
      · rw [he]
        exact hmem
      · rw [he, hs.items.cells.nodup.mem_erase_iff]
        refine ⟨?_, hmem⟩
        rintro rfl
        exact hnot hid'
    · intro id'
      rw [Function.update_apply, hslack]
      by_cases he : id' = id
      · subst he
        rw [if_pos rfl, if_neg hnot]
      · rw [if_neg he]
        simp only [List.mem_cons, he, false_or]

/-! ### Runs -/

variable [Machine F]

theorem kept_ticks (hslack : ∀ id, slack id ≤ 1) (hc : Ticks s t) (hs : Sound s)
    (h : Kept slack s) :
    Sound t ∧ Kept slack t :=
  hc.keeps (P := fun u => Sound u ∧ Kept slack u)
    (fun hu ha => ⟨ha.sound hu.1, (ha.deals hu.1).kept hslack hu.2⟩)
    (fun hu ha => ⟨ha.sound hu.1, hu.2.stock ha.stock⟩)
      (fun hu ha => ⟨ha.sound hu.1, hu.2.stock ha.stock⟩) ⟨hs, h⟩

theorem kept_fieldUpdate (hs : Sound s) (hk : Kept (fun _ => 0) s) (h : fieldUpdate s = .ok t) :
    Kept (fun _ => 0) t := by
  obtain ⟨u, hu, h⟩ := fieldUpdate_cases h
  have hbegin : Sound (s.record .fieldUpdate) := (Act.fieldUpdate : Act s _).sound hs
  obtain ⟨hsu, hku⟩ := kept_ticks (fun _ => le_refl 1) hu hbegin hk.tick
  -- only the items on the field are looked at
  have hslack : Kept (fun id => if id ∈ u.items then 1 else 0) u := by
    refine ⟨hku.toConserved, fun id hid => ?_, hku.aged⟩
    rw [if_pos hid]
    exact hku.young id hid
  exact kept_updateItems hsu hsu.items.cells.nodup (fun _ => id) (fun _ => rfl) hslack h

omit [Machine F] in
theorem kept_dbResultPacketProc (hk : Kept (fun _ => 0) s) (h : dbResultPacketProc s = .ok t) :
    Kept (fun _ => 0) t := by
  have hstock : Stock s t := by
    unfold dbResultPacketProc at h
    have htake : Stock s { s with dbResQ := [] } := stock_rest rfl rfl rfl rfl rfl rfl rfl
    apply foldlM_keeps (P := fun u => Stock s u) _ htake h
    intro u v result _ hu hv
    rcases dbResult_cases hv with ⟨-, rfl | ⟨q, packet, hq, hp, rfl⟩⟩ | ⟨q, hq, -, rfl⟩
    · exact hu
    · exact hu.trans (stock_sendPrivate q hp)
    · exact hu.trans (stock_handBack u q)
  exact hk.stock hstock

theorem Fresh.kept (h : Fresh s) : Kept (fun _ => 0) s := by
  obtain ⟨hplayers, hmet, hsent, hhistory⟩ := h.nobody
  have hnone : ∀ id, id ∉ s.items := fun id hid => by rw [h.nothing] at hid; cases hid
  refine ⟨⟨?_, fun id => ?_, ?_, ?_, ?_, ?_, ?_⟩, fun id hid => absurd hid (hnone id),
    fun l l' id he => ?_⟩
  · rw [hhistory]
    exact fun _ => Nat.zero_le 1
  · rw [hhistory, if_neg (hnone id)]
    rfl
  · rw [hhistory]
    exact fun _ hc => absurd hc List.not_mem_nil
  · rw [hhistory]
    exact fun _ hc => absurd hc List.not_mem_nil
  · rw [hhistory, hsent]
    rfl
  · rw [hhistory]
    exact fun _ hc => absurd hc List.not_mem_nil
  · rw [hmet]
    exact fun _ hq => absurd hq List.not_mem_nil
  · rw [hhistory] at he
    exact absurd he (by simp)

theorem kept_step {l : Step F} (hs : Sound s) (hk : Kept (fun _ => 0) s)
    (h : step s l = some (.ok t)) :
    Kept (fun _ => 0) t := by
  rcases step_cases h with hc | ⟨-, hu⟩ | ⟨-, hr⟩ | ⟨q, -, rfl⟩
  · exact (kept_ticks (fun _ => zero_le_one) hc.ticks hs hk).2
  · exact kept_fieldUpdate hs hk hu
  · exact kept_dbResultPacketProc hk hr
  · exact hk.stock (stock_setPlayer rfl)

theorem kept_reachable (h : field.Reachable s) : Kept (fun _ => 0) s :=
  field_runs (fun hs => hs.kept) (fun hs hk he => kept_step hs hk he) h

/-- Every item that was created is on the field, or was looted once, or has expired. -/
structure Conservation (s : State F) : Prop where
  once : ∀ id, (createdIds s.history).count id ≤ 1
  place : ∀ id, s.items.count id + (lootedIds s.history).count id +
    (expiredItems s.history).count id = (createdIds s.history).count id
  -- one that is on the field is in the cell of its sector, and no other is in any
  name : ∀ id ∈ s.items, (s.item id).itemUniqueId = id
  cell : ∀ c id, (s.itemSectors c).count id = if id ∈ s.items ∧ (s.item id).sector = c then 1 else 0
  kind : ∀ c ∈ createdItems s.history, (s.item c.1).itemId = c.2.1 ∧ (s.item c.1).count = c.2.2
  -- a LOOT_RES for every item looted, in order
  responses : responses s.sent =
    (lootedItems s.history).map fun l => (l.1, (s.item l.2).itemId, (s.item l.2).count)
  looters : ∀ l ∈ lootedItems s.history, l.1 ∈ s.met
  inventory : ∀ q ∈ s.met, ∀ itemId, -2 ^ 31 ≤ gains s q itemId → gains s q itemId < 2 ^ 31 →
    (s.player q).inventory itemId = gains s q itemId
  aged : Aged s

theorem conserved (h : field.Reachable s) : Conservation s := by
  have hk := kept_reachable h
  have hitems := (sound h).items
  have hcount : ∀ id, s.items.count id = if id ∈ s.items then 1 else 0 := by
    intro id
    split_ifs with hid
    · exact List.count_eq_one_of_mem hitems.cells.nodup hid
    · exact List.count_eq_zero_of_not_mem hid
  refine ⟨hk.once, fun id => ?_, hitems.name, fun c id => ?_, hk.kind, hk.responses, hk.looters,
    fun q hq itemId hlo hhi => ?_, hk.aged⟩
  · rw [hcount]
    exact hk.place id
  · split_ifs with hid
    · exact List.count_eq_one_of_mem (hitems.cells.cells_nodup c) ((hitems.cells.mem c id).mpr hid)
    · exact List.count_eq_zero_of_not_mem fun hmem => hid ((hitems.cells.mem c id).mp hmem)
  · rw [hk.inventory q hq itemId]
    exact Int.bmod_eq_of_le (by omega) (by omega)

/-- Session 1 kills the monster and takes what it leaves. -/
theorem conserved_killRun : ∃ s : State ℚ, lootedItems s.history = [(1, 1)] ∧ Conservation s := by
  have hrun : (field.exec oneMonster (killRun ++ [.contentsPacket 1 lootMsg])).any
      (fun s => lootedItems s.history = [(1, 1)]) = true := by decide +kernel
  obtain ⟨s, hs, hp⟩ := Option.any_eq_true _ _ |>.mp hrun
  exact ⟨s, of_decide_eq_true hp, conserved (.exec _ (.start oneMonster_init) hs)⟩

end

end Field
end MyMMO
