/-
# Monsters that set out and stop

`FieldScene` keeps for every monster it knows whether it moves (`mBMove`), and its handlers assert
that a monster named in a packet is known, that one that is spawned is not, and that one that sets
out stands still. The packets are sent at three places of a tick; in the order in which
`fieldThread` calls its operations (`fieldThread`) no client ever sees such an assertion fail
(`monsters_inStep`). Between two ticks the client's flag is that of the monster's state (`Rest`);
while a tick goes on it is first that of `mBeforeState` (`Ticked`), and one or the other where the
monster has crossed into another sector (`Crossed`).
-/
import MyMMO.FieldIndex
import MyMMO.MonsterTick

namespace MyMMO
namespace Field

open Outcome

variable {F : Type}

/-! ### The client -/

/-- MONSTER_SPAWN: an actor that is not there yet, and moves if the monster does. -/
def actorSpawn (state : MonsterState) : Option Bool → Option (Option Bool)
  | none => some (some (decide state.Moving))
  | some _ => none

/-- `Actor::MoveStart`. -/
def actorMoveStart : Option Bool → Option (Option Bool)
  | some false => some (some true)
  | _ => none

/-- `Actor::MoveStop`, and `Monster::OnDamaged`. -/
def actorStop : Option Bool → Option (Option Bool)
  | some _ => some (some false)
  | none => none

/-- `Actor::Attack`. -/
def actorAttack : Option Bool → Option (Option Bool)
  | some mBMove => some (some mBMove)
  | none => none

/-- One of the monsters of a spawn. -/
def seeRecord (id : ℤ) (actor : Option (Option Bool)) (record : MonsterRecord F) :
    Option (Option Bool) :=
  if record.monsterID = id then actor.bind (actorSpawn record.state) else actor

/-- A packet reaches the client: its actor of the monster `id`, which is the `mBMove` of one that is
there, and nothing any more once an assertion about it has failed. -/
def seeMonster (id : ℤ) (actor : Option (Option Bool)) : Packet F → Option (Option Bool)
  | .monsterSpawn record => seeRecord id actor record
  | .monsterSpawnBatch _ records => records.foldl (seeRecord id) actor
  | .monsterDespawn id' => if id' = id then actor.map fun _ => none else actor
  | .monsterMoveStart id' _ _ _ => if id' = id then actor.bind actorMoveStart else actor
  | .monsterMoveStop id' _ _ => if id' = id then actor.bind actorStop else actor
  | .monsterDamaged id' _ _ _ => if id' = id then actor.bind actorStop else actor
  | .monsterAttack id' => if id' = id then actor.bind actorAttack else actor
  | _ => actor

/-- The actor of the monster `id` in the client of `q`; none if an assertion about it has failed. -/
def actorOf (s : State F) (q : ℕ) (id : ℤ) : Option (Option Bool) :=
  told (seeMonster id) (some none) s q

theorem seeMonster_still {id : ℤ} {packet : Packet F} (h : ¬packet.OfMonster)
    (actor : Option (Option Bool)) :
    seeMonster id actor packet = actor := by
  cases packet <;> first | rfl | exact absurd trivial h

/-! ### What the clients around a monster have -/

/-- The clients around `place` have an actor of `id` whose `mBMove` is `ok`, the others have none.
-/
def Watch (id : ℤ) (place : Sector) (ok : Bool → Prop) (s : State F) : Prop :=
  ∀ q ∈ s.players,
    if place ∈ (s.player q).currentSector.around then ∃ mBMove, actorOf s q id =
      some (some mBMove) ∧ ok mBMove
    else actorOf s q id = some none

section

variable {s t : State F} {id : ℤ} {place : Sector} {ok ok' : Bool → Prop}

theorem Watch.keep (h : Watch id place ok s)
    (hp : ∀ q ∈ t.players, q ∈ s.players ∧ (t.player q).currentSector = (s.player q).currentSector)
    (ht : ∀ q, actorOf t q id = actorOf s q id) : Watch id place ok t := by
  intro q hq
  obtain ⟨hq, hc⟩ := hp q hq
  rw [ht, hc]
  exact h q hq

theorem Watch.mono (h : Watch id place ok s) (hok : ∀ b, ok b → ok' b) : Watch id place ok' s := by
  intro q hq
  have hview := h q hq
  split_ifs at hview ⊢
  · obtain ⟨b, hb, hokb⟩ := hview
    exact ⟨b, hb, hok b hokb⟩
  · exact hview

/-- A packet about `id` to those around it. -/
theorem Watch.tell (h : Watch id place ok s)
    (hindex : Index s) (hgrid : place.InGrid) {packet : Packet F}
    (hsee : ∀ b, ok b → ∃ b', seeMonster id (some (some b)) packet = some (some b') ∧ ok' b') :
    Watch id place ok' (s.broadcast place.around (fun _ => false) packet) := by
  intro q hq
  change q ∈ s.players at hq
  have hview := h q hq
  have hcomm := Sector.mem_around_comm (hindex.grid q hq).1 hgrid
  change if place ∈ (s.player q).currentSector.around then _ else _
  unfold actorOf at hview ⊢
  rw [hindex.told_broadcast (Sector.around_nodup _) hq]
  by_cases hc : place ∈ (s.player q).currentSector.around
  · rw [if_pos hc] at hview ⊢
    obtain ⟨b, hb, hokb⟩ := hview
    rw [if_pos (hcomm.mpr hc), hb]
    exact hsee b hokb
  · rw [if_neg hc] at hview ⊢
    rw [if_neg (mt hcomm.mp hc)]
    exact hview

/-- Nobody has an actor of `id`. -/
def Hidden (id : ℤ) (s : State F) : Prop := ∀ q ∈ s.players, actorOf s q id = some none

/-- It is despawned where it was seen. -/
theorem Watch.hide (h : Watch id place ok s) (hindex : Index s) (hgrid : place.InGrid)
    {packet : Packet F} (hsee : ∀ actor, seeMonster id actor packet = actor.map fun _ => none) :
    Hidden id (s.broadcast place.around (fun _ => false) packet) := by
  intro q hq
  change q ∈ s.players at hq
  have hview := h q hq
  have hcomm := Sector.mem_around_comm (hindex.grid q hq).1 hgrid
  unfold actorOf at hview ⊢
  rw [hindex.told_broadcast (Sector.around_nodup _) hq]
  by_cases hc : place ∈ (s.player q).currentSector.around
  · rw [if_pos hc] at hview
    obtain ⟨b, hb, -⟩ := hview
    rw [if_pos (hcomm.mpr hc), hsee, hb]
    rfl
  · rw [if_neg hc] at hview
    rw [if_neg (mt hcomm.mp hc)]
    exact hview

/-- It is spawned where it is. -/
theorem Hidden.show (h : Hidden id s)
    (hindex : Index s) (hgrid : place.InGrid) {packet : Packet F} {state : MonsterState}
    (hsee : ∀ actor, seeMonster id actor packet = actor.bind (actorSpawn state)) :
    Watch id place (fun b => b = decide state.Moving)
      (s.broadcast place.around (fun _ => false) packet) := by
  intro q hq
  change q ∈ s.players at hq
  have hcomm := Sector.mem_around_comm (hindex.grid q hq).1 hgrid
  change if place ∈ (s.player q).currentSector.around then _ else _
  have hview := h q hq
  unfold actorOf at hview ⊢
  rw [hindex.told_broadcast (Sector.around_nodup _) hq, hview]
  by_cases hc : place ∈ (s.player q).currentSector.around
  · rw [if_pos hc, if_pos (hcomm.mpr hc), hsee]
    exact ⟨_, rfl, rfl⟩
  · rw [if_neg hc, if_neg (mt hcomm.mp hc)]

/-- It moves to `dest`: those who see it now get an actor, and those who do not any more lose
theirs. -/
theorem Watch.move (h : Watch id place ok s) (hindex : Index s) (hgrid : place.InGrid)
    {dest : Sector} (hdest : dest.InGrid) {packet packet' : Packet F} {state : MonsterState}
    (hspawn : ∀ actor, seeMonster id actor packet = actor.bind (actorSpawn state))
    (hdespawn : ∀ actor, seeMonster id actor packet' = actor.map fun _ => none) :
    Watch id dest (fun b => ok b ∨ b = decide state.Moving)
      ((s.broadcast (dest.around.diff place.around) (fun _ => false) packet).broadcast
        (place.around.diff dest.around) (fun _ => false) packet') := by
  intro q hq
  change q ∈ s.players at hq
  have hview := h q hq
  have hcomm := Sector.mem_around_comm (hindex.grid q hq).1 hgrid
  have hcomm' := Sector.mem_around_comm (hindex.grid q hq).1 hdest
  have hindex' := hindex.broadcast (dest.around.diff place.around) (fun _ => false) packet
  change if dest ∈ (s.player q).currentSector.around then _ else _
  unfold actorOf at hview ⊢
  rw [hindex'.told_broadcast (Sector.around_diff_nodup _ _) hq,
    hindex.told_broadcast (Sector.around_diff_nodup _ _) hq, hspawn, hdespawn]
  change if dest ∈ (s.player q).currentSector.around then
      ∃ b, (if (s.player q).currentSector ∈ _ then _ else _) = _ ∧ _
    else (if (s.player q).currentSector ∈ _ then _ else _) = _
  simp only [Sector.mem_around_diff, hcomm, hcomm']
  by_cases hnew : dest ∈ (s.player q).currentSector.around
  · rw [if_pos hnew, if_neg fun hd => hd.2 hnew]
    by_cases hold : place ∈ (s.player q).currentSector.around
    · rw [if_pos hold] at hview
      obtain ⟨b, hb, hokb⟩ := hview
      rw [if_neg fun hd => hd.2 hold]
      exact ⟨b, hb, Or.inl hokb⟩
    · rw [if_neg hold] at hview
      rw [if_pos ⟨hnew, hold⟩, hview]
      exact ⟨_, rfl, Or.inr rfl⟩
  · rw [if_neg hnew]
    by_cases hold : place ∈ (s.player q).currentSector.around
    · rw [if_pos hold] at hview
      obtain ⟨b, hb, -⟩ := hview
      rw [if_pos ⟨hold, hnew⟩, if_neg fun hd => hnew hd.1, hb]
      rfl
    · rw [if_neg hold] at hview
      rw [if_neg fun hd => hold hd.1, if_neg fun hd => hnew hd.1, hview]

/-- The same holds of `id` afterwards. -/
structure Untouched (id : ℤ) (s t : State F) : Prop where
  monster : t.monster id = s.monster id
  watch : ∀ place ok, Watch id place ok s → Watch id place ok t

theorem Untouched.refl (id : ℤ) (s : State F) : Untouched id s s := ⟨rfl, fun _ _ h => h⟩

theorem Untouched.trans {u : State F} (h : Untouched id s t) (h' : Untouched id t u) :
    Untouched id s u :=
  ⟨h'.monster.trans h.monster, fun place ok hw => h'.watch place ok (h.watch place ok hw)⟩

theorem Spares.untouched (h : Spares s t) (id : ℤ) : Untouched id s t := by
  refine ⟨by rw [h.monster], fun place ok hw => ?_⟩
  obtain ⟨ks, hks, hk⟩ := h.sent
  exact hw.keep (fun q hq => ⟨h.players q hq, h.currentSector q⟩) fun q =>
    told_still hks (fun k hmem => seeMonster_still (hk k hmem)) q

theorem untouched_broadcast {near : List Sector} {skip : ℕ → Bool} {packet : Packet F}
    (h : ∀ actor, seeMonster id actor packet = actor) :
    Untouched id s (s.broadcast near skip packet) :=
  ⟨rfl, fun _ _ hw => hw.keep (fun _ hq => ⟨hq, rfl⟩) fun _ => told_broadcast_still h _⟩

theorem untouched_of_eq (hm : t.monster id = s.monster id) (hp : t.player = s.player)
    (hps : ∀ q ∈ t.players, q ∈ s.players) (hsent : t.sent = s.sent) : Untouched id s t := by
  refine ⟨hm, fun place ok hw => hw.keep (fun q hq => ⟨hps q hq, by rw [hp]⟩) fun q => ?_⟩
  unfold actorOf told
  rw [hsent]

theorem untouched_setMonster {id' : ℤ} (h : id ≠ id') (m : Monster F) :
    Untouched id s (s.setMonster id' m) :=
  untouched_of_eq (Function.update_of_ne h _ _) rfl (fun _ hq => hq) rfl

theorem untouched_moveMonster {id' : ℤ} (h : id ≠ id') (m : Monster F) :
    Untouched id s (s.moveMonster id' m) :=
  untouched_of_eq (Function.update_of_ne h _ _) rfl (fun _ hq => hq) rfl

/-! ### Players that come and move -/

/-- A spawn of different monsters is one of `id` if it is among them. -/
theorem foldl_seeRecord (id : ℤ) {ids : List ℤ} (hnd : ids.Nodup)
    (hname : ∀ id ∈ ids, (s.monster id).monsterID = id) (actor : Option (Option Bool)) :
    (ids.map fun id => (s.monster id).record).foldl (seeRecord id) actor =
      if id ∈ ids then actor.bind (actorSpawn (s.monster id).state) else actor := by
  induction ids generalizing actor with
  | nil => rfl
  | cons id' ids ih =>
    obtain ⟨hnot, hnd⟩ := List.nodup_cons.mp hnd
    have hself : (s.monster id').record.monsterID = id' := hname id' List.mem_cons_self
    rw [List.map_cons, List.foldl_cons, ih hnd fun id hid => hname id (List.mem_cons_of_mem _ hid),
      seeRecord, hself]
    by_cases he : id' = id
    · subst he
      rw [if_neg hnot, if_pos rfl, if_pos List.mem_cons_self]
      rfl
    · rw [if_neg he]
      simp only [List.mem_cons, Ne.symm he, false_or]

theorem foldl_seeDespawn (id : ℤ) {ids : List ℤ} (hname : ∀ id ∈ ids, (s.monster id).monsterID = id)
    (actor : Option (Option Bool)) :
    (ids.map fun id => (Packet.monsterDespawn (s.monster id).monsterID : Packet F)).foldl
    (seeMonster id) actor = if id ∈ ids then actor.map fun _ => none else actor := by
  induction ids generalizing actor with
  | nil => rfl
  | cons id' ids ih =>
    have hself : (s.monster id').monsterID = id' := hname id' List.mem_cons_self
    rw [List.map_cons, List.foldl_cons,
      ih fun id hid => hname id (List.mem_cons_of_mem _ hid), hself]
    change (if id ∈ ids then Option.map (fun _ => none) (if id' = id then _ else _) else
      if id' = id then _ else _) = _
    by_cases he : id' = id
    · subst he
      rw [if_pos rfl, if_pos List.mem_cons_self, Option.map_map]
      exact ite_self _
    · simp only [he, if_false, List.mem_cons, Ne.symm he, false_or]

theorem MonsterIndex.actorOf_sendSpawns (h : MonsterIndex s) (id : ℤ) {near : List Sector}
    (hnd : near.Nodup) (q q' : ℕ) :
    actorOf (s.sendSpawns q near) q' id =
      if q' = q ∧ id ∈ s.nearMonsters near then (actorOf s q id).bind
        (actorSpawn (s.monster id).state)
      else actorOf s q' id := by
  have hname : ∀ id ∈ s.nearMonsters near, (s.monster id).monsterID = id := fun id hid =>
    h.name id (h.cells.mem_near.mp hid).1
  unfold actorOf State.sendSpawns State.sendItemSpawnBatch
  dsimp only
  rw [told_sendAll_still fun _ _ => rfl]
  unfold State.sendMonsterSpawnBatch
  rw [told_sendAll, foldl_batch fun _ _ _ => rfl, batches_flatMap]
  unfold State.sendSpawnBatch State.broadcastSpawn
  rw [told_sendAll_still fun _ _ => rfl, told_broadcast_still fun _ => rfl,
    told_sendAll_still fun _ _ => rfl, told_broadcast_still fun _ => rfl]
  have hfold :=
    foldl_seeRecord id (h.cells.near_nodup hnd) hname (told (seeMonster id) (some none) s q)
  by_cases hq : q' = q
  · rw [if_pos hq]
    subst hq
    simp only [true_and]
    exact hfold
  · rw [if_neg hq, if_neg fun he => hq he.1]

theorem MonsterIndex.actorOf_sendDespawns (h : MonsterIndex s) (id : ℤ) (near : List Sector)
    (q q' : ℕ) :
    actorOf (s.sendDespawns q near) q' id =
      if q' = q ∧ id ∈ s.nearMonsters near then
        (actorOf s q id).map fun _ => none else actorOf s q' id := by
  have hname : ∀ id ∈ s.nearMonsters near, (s.monster id).monsterID = id := fun id hid =>
    h.name id (h.cells.mem_near.mp hid).1
  unfold actorOf State.sendDespawns State.sendItemDespawnBatch
  dsimp only
  rw [told_sendAll_still fun _ _ => rfl]
  unfold State.sendMonsterDespawnBatch
  rw [told_sendAll]
  unfold State.sendDespawnBatch State.broadcastDespawn
  rw [told_sendAll_still fun _ _ => rfl, told_broadcast_still fun _ => rfl,
    told_sendAll_still fun _ _ => rfl, told_broadcast_still fun _ => rfl]
  have hfold := foldl_seeDespawn id hname (told (seeMonster id) (some none) s q)
  by_cases hq : q' = q
  · rw [if_pos hq]
    subst hq
    simp only [true_and]
    exact hfold
  · rw [if_neg hq, if_neg fun he => hq he.1]

/-- The clients around a monster know as much as a spawn says. -/
def Settled (id : ℤ) (s : State F) : Prop :=
  Watch id (s.monster id).sector (fun b => b = decide (s.monster id).state.Moving) s

/-- A player enters. -/
theorem Settled.enter (h : Settled id s) (hs : Sound s) (hid : id ∈ s.monsters) {q : ℕ}
    (hq : q ∉ s.met) (p : Player F) :
    Settled id ((s.enter q p).sendSpawns q p.currentSector.around) := by
  have hindex : MonsterIndex (s.enter q p) := hs.monsters.of_eq rfl rfl rfl
  have hself : (s.enter q p).player q = p := Function.update_self _ _ _
  have hmem : id ∈ (s.enter q p).nearMonsters p.currentSector.around ↔
      (s.monster id).sector ∈ p.currentSector.around :=
    hindex.cells.mem_near.trans (and_iff_right hid)
  intro q' hq'
  rw [hindex.actorOf_sendSpawns id (Sector.around_nodup _), sendSpawns_player]
  by_cases he : q' = q
  · subst he
    have hnone : actorOf (s.enter q' p) q' id = some none := by
      change (inbox q' s.sent).foldl _ _ = _
      rw [hs.players.quiet q' hq]
      rfl
    simp only [hself, hmem, true_and, hnone]
    change if (s.monster id).sector ∈ p.currentSector.around then _ else _
    split_ifs
    · exact ⟨_, rfl, rfl⟩
    · rfl
  · have hmem' : q' ∈ s.players := (List.mem_cons.mp hq').resolve_left he
    have hother : (s.enter q p).player q' = s.player q' := Function.update_of_ne he _ _
    simp only [he, false_and, if_false, hother]
    exact h q' hmem'

/-- A player crosses into another sector. -/
theorem Settled.cross (h : Settled id s) (hs : Sound s) (hid : id ∈ s.monsters) {q : ℕ}
    (hq : q ∈ s.players) :
    Settled id (s.cross q) := by
  obtain ⟨_, hrest⟩ := cross_rest (s := s) q
  have hmonster : (s.cross q).monster = s.monster := by rw [hrest]
  have hplayers : (s.cross q).players = s.players := by rw [hrest]
  obtain ⟨ks, hks⟩ := sends_sendSpawns (s := s) q
    ((s.player q).destSector.around.diff (s.player q).currentSector.around)
  have hindex : MonsterIndex
      (s.sendSpawns q ((s.player q).destSector.around.diff (s.player q).currentSector.around)) := by
    rw [hks]
    exact hs.monsters.of_eq rfl rfl rfl
  have hnear : ∀ near, (s.sendSpawns q ((s.player q).destSector.around.diff
      (s.player q).currentSector.around)).nearMonsters near = s.nearMonsters near := by
    intro near
    rw [hks]
    rfl
  have hmem : ∀ near, id ∈ s.nearMonsters near ↔ (s.monster id).sector ∈ near := fun near =>
    hs.monsters.cells.mem_near.trans (and_iff_right hid)
  have hactor : ∀ q', actorOf (s.cross q) q' id =
      if q' = q ∧ (s.monster id).sector ∈ (s.player q).currentSector.around.diff
        (s.player q).destSector.around then
        Option.map (fun _ => none) (if (s.monster id).sector ∈
          (s.player q).destSector.around.diff (s.player q).currentSector.around then
            (actorOf s q id).bind (actorSpawn (s.monster id).state) else actorOf s q id)
      else if q' = q ∧ (s.monster id).sector ∈ (s.player q).destSector.around.diff
        (s.player q).currentSector.around then
        (actorOf s q id).bind (actorSpawn (s.monster id).state)
      else actorOf s q' id := by
    intro q'
    have hdespawns := hindex.actorOf_sendDespawns id
      ((s.player q).currentSector.around.diff (s.player q).destSector.around) q q'
    have hspawns := fun q' => hs.monsters.actorOf_sendSpawns id
      (Sector.around_diff_nodup (s.player q).destSector (s.player q).currentSector) q q'
    rw [hspawns, hspawns, hnear] at hdespawns
    simp only [hmem, true_and] at hdespawns
    exact hdespawns
  intro q' hq'
  rw [hplayers] at hq'
  rw [hmonster, cross_player, hactor]
  simp only [Sector.mem_around_diff]
  by_cases he : q' = q
  · subst he
    have hview := h q' hq
    simp only [true_and, if_true]
    by_cases hold : (s.monster id).sector ∈ (s.player q').currentSector.around <;>
      by_cases hnew : (s.monster id).sector ∈ (s.player q').destSector.around
    · rw [if_pos hold] at hview
      simp only [hold, hnew, not_true_eq_false, and_false, if_false, if_true]
      exact hview
    · rw [if_pos hold] at hview
      obtain ⟨b, hb, -⟩ := hview
      simp only [hold, hnew, not_true_eq_false, not_false_eq_true, and_true, and_false, if_false,
        if_true, hb]
      rfl
    · rw [if_neg hold] at hview
      simp only [hold, hnew, not_false_eq_true, and_true, false_and, if_false, if_true, hview]
      exact ⟨_, rfl, rfl⟩
    · rw [if_neg hold] at hview
      simp only [hold, hnew, false_and, if_false]
      exact hview
  · simp only [he, false_and, if_false]
    exact h q' hq'

/-! ### Between two ticks -/

section

variable [Machine F]

/-- A monster that has been hit is dead or stunned. -/
theorem monster_takeDamage_state {m m' : Monster F} {damage : ℤ} {p : Player F} {q : ℕ}
    (h : m.takeDamage damage p q = .ok m') (hstate : m.state ≠ .dead) :
    m'.state = .dead ∨ m'.state = .stun ∧ m'.hitStunFrame = MONSTER_HIT_STUN_FRAME := by
  unfold Monster.takeDamage at h
  rw [if_neg hstate] at h
  dsimp only at h
  split_ifs at h with hhp hstun
  · exact Or.inl (monster_changeState_state h)
  · cases h
    exact Or.inr ⟨hstun, rfl⟩
  · rw [(monster_changeState_eq h).2]
    exact Or.inr ⟨rfl, rfl⟩

/-- Where a monster is between two ticks: dead, or where it belongs, unless it has been hit since or
has just come back. -/
def Monster.AtRest (m : Monster F) : Prop :=
  m.state = .dead ∨ m.sector = m.destSector ∧
    (calcSector m.pos = m.sector ∨ m.state = .stun ∧ 0 < m.hitStunFrame ∨
    m.state = .idle ∧ m.animFrame = 0 ∧ m.pos = m.spawnPos)

/-- Between two ticks the clients have what is. -/
structure Rest (id : ℤ) (s : State F) : Prop where
  place : (s.monster id).AtRest
  settled : Settled id s

theorem Rest.untouched (h : Rest id s) (hu : Untouched id s t) : Rest id t := by
  refine ⟨?_, ?_⟩
  · rw [hu.monster]
    exact h.place
  · unfold Settled
    rw [hu.monster]
    exact hu.watch _ _ h.settled

omit [Machine F] in
theorem untouched_hitMonster {q : ℕ} {id' : ℤ} {m : Monster F} (hname : m.monsterID = id')
    (hne : id ≠ id') :
    Untouched id s (s.hitMonster q id' m) := by
  have hset : Untouched id s
      ((s.setMonster id' m).record (.monsterState (some q) id' (s.monster id').state m.state)) :=
    untouched_of_eq (Function.update_of_ne hne _ _) rfl (fun _ hq => hq) rfl
  refine hset.trans (untouched_broadcast fun actor => ?_)
  exact if_neg fun he => hne (he.symm.trans hname)

/-- A hit stops the monster. -/
theorem Rest.hit (h : Rest id s) (hs : Sound s) {q : ℕ} {m : Monster F} (hid : id ∈ s.monsters)
    (hstate : (s.monster id).state ≠ .dead)
    (hm : (s.monster id).takeDamage (s.player q).attackPower (s.player q) q = .ok m) :
    Rest id (s.hitMonster q id m) := by
  have heq := monster_takeDamage_eq hm
  have hsector : m.sector = (s.monster id).sector := by rw [heq]
  have hdest : m.destSector = (s.monster id).destSector := by rw [heq]
  have hname : m.monsterID = id := by
    rw [heq]
    exact hs.monsters.name id hid
  have hself : (s.hitMonster q id m).monster id = m := Function.update_self _ _ _
  have hnext := monster_takeDamage_state hm hstate
  constructor
  · rw [hself]
    rcases hnext with hdead | ⟨hstun, hframe⟩
    · exact Or.inl hdead
    · have hplace := (h.place.resolve_left hstate).1
      refine Or.inr ⟨by rw [hsector, hdest, hplace], Or.inr (Or.inl ⟨hstun, ?_⟩)⟩
      rw [hframe]
      decide
  · unfold Settled
    rw [hself]
    have hwatch : Watch id m.sector (fun b => b = decide (s.monster id).state.Moving)
        ((s.setMonster id m).record (.monsterState (some q) id (s.monster id).state m.state)) := by
      rw [hsector]
      exact h.settled.keep (fun _ hq => ⟨hq, rfl⟩) fun _ => rfl
    have hindex : Index ((s.setMonster id m).record
        (.monsterState (some q) id (s.monster id).state m.state)) :=
      (hs.players.setMonster id m).record _
    have hgrid : m.sector.InGrid := by
      rw [hsector]
      exact (hs.monsters.grid id hid).1
    refine hwatch.tell hindex hgrid fun b _ => ⟨false, ?_, ?_⟩
    · exact if_pos hname
    · rcases hnext with hdead | ⟨hstun, -⟩
      · rw [hdead]
        decide
      · rw [hstun]
        decide

/-! ### What an effect does -/

/-- What an effect comes to for the monsters. -/
inductive Stirs (s : State F) : State F → Prop
  | spares {t : State F} (h : Spares s t) : Stirs s t
  | hit (q : ℕ) (id : ℤ) (m : Monster F) {t : State F} (hid : id ∈ s.monsters)
      (hstate : (s.monster id).state ≠ .dead)
      (hm : (s.monster id).takeDamage (s.player q).attackPower (s.player q) q = .ok m)
      (ht : Spares (s.hitMonster q id m) t) : Stirs s t
  | cross (q : ℕ) (hq : q ∈ s.players) : Stirs s (s.cross q)
  | enter (q : ℕ) (p : Player F) (hq : q ∉ s.met) :
      Stirs s ((s.enter q p).sendSpawns q p.currentSector.around)
  | rehash {t : State F} (hp : t.player = s.player) (hps : t.players.Perm s.players)
      (hm : t.monster = s.monster) (hms : t.monsters.Perm s.monsters) (hsent : t.sent = s.sent) :
      Stirs s t

theorem Dropped.spares {m : Monster F} (h : Dropped s m t) : Spares s t := by
  cases h with
  | nothing rands => exact spares_of_eq rfl rfl rfl rfl rfl
  | item itemId count rands =>
    refine Spares.trans ?_ (spares_broadcast fun hk => hk)
    exact spares_of_eq rfl rfl rfl rfl rfl

theorem Act.stirs (ha : Act s t) : Stirs s t := by
  cases ha with
  | adjust q syncCnt targets hq => exact .spares (spares_setPlayer rfl)
  | hit q id m hq hid hstate hm hdead hgrid => exact .hit q id m hid hstate hm (.refl _)
  | kill q id m u hq hid hstate hm hdead hgrid hu =>
    exact .hit q id m hid hstate hm (hu.spares.trans (spares_of_eq rfl rfl rfl rfl rfl))
  | aim q hq hne => exact .spares (spares_setPlayer rfl)
  | cross q hq hne => exact .cross q hq
  | damaged q m p hq hstate hp => exact .spares (spares_damaged hp)
  | enter q accountNo characterID pos nickname hq hid =>
      exact .enter q (entered q accountNo characterID pos nickname) hq
  | moveStart q p packetPos direction hq hstate hsync hp hconnect =>
    exact .spares (SetsOut.spares (.mk p packetPos direction hq hstate hsync hp hconnect))
  | moveStop q p packetPos direction hq hsync hp => exact .spares (spares_moveStop hp)
  | attackReq q p skillId hq hstate hp => exact .spares (spares_attackReq hp skillId)
  | loot q id hq hid hgrid hcell => exact .spares (spares_loot q id)
  | send q packet hq hp =>
    refine .spares (spares_sendPost fun hk => ?_)
    cases packet <;> first | exact hk | exact hp
  | save q hq hconnect hpending =>
    have hset : Spares s (s.setPlayer q { s.player q with savePending := true }) :=
      spares_setPlayer rfl
    exact .spares (hset.trans (spares_of_eq rfl rfl rfl rfl rfl))
  | rehash players sectors monsters monsterSectors items itemSectors hp hs hm hms hi his =>
    exact .rehash rfl hp rfl hm rfl
  | _ => exact .spares (spares_of_eq rfl rfl rfl rfl rfl)

/-- All monsters are at rest. -/
def AllRest (s : State F) : Prop := ∀ id ∈ s.monsters, Rest id s

theorem Spares.allRest (hs : Spares s t) (h : AllRest s) : AllRest t := by
  intro id hid
  rw [hs.monsters] at hid
  exact (h id hid).untouched (hs.untouched id)

theorem Stirs.allRest (ha : Stirs s t) (hs : Sound s) (h : AllRest s) : AllRest t := by
  cases ha with
  | spares ht => exact ht.allRest h
  | hit q id m hid hstate hm ht =>
    apply ht.allRest
    intro id' hid'
    by_cases he : id' = id
    · subst he
      exact (h id' hid').hit hs hid hstate hm
    · have hname : m.monsterID = id := by
        rw [monster_takeDamage_eq hm]
        exact hs.monsters.name id hid
      exact (h id' hid').untouched (untouched_hitMonster hname he)
  | cross q hq =>
    obtain ⟨_, hrest⟩ := cross_rest (s := s) q
    have hmonster : (s.cross q).monster = s.monster := by rw [hrest]
    intro id hid
    rw [hrest] at hid
    refine ⟨?_, (h id hid).settled.cross hs hid hq⟩
    rw [hmonster]
    exact (h id hid).place
  | enter q p hq =>
    intro id hid
    exact ⟨(h id hid).place, (h id hid).settled.enter hs hid hq p⟩
  | rehash hp hps hm hms hsent =>
    intro id hid
    refine (h id (hms.mem_iff.mp hid)).untouched
      (untouched_of_eq (by rw [hm]) hp (fun q hq => hps.mem_iff.mp hq) hsent)

end

/-! ### While a tick goes on -/

/-- What there is to say of a monster that has had its tick. -/
structure Monster.Ticked (m : Monster F) : Prop where
  next : m.state ∈ m.beforeState.next
  dead : m.beforeState = .dead →
    m.state = .dead ∨ m.state = .idle ∧ m.animFrame = 0 ∧ m.pos = m.spawnPos

theorem Monster.Ticked.before_ne_dead {m : Monster F} (h : m.Ticked) (h1 : m.state ≠ .dead)
    (h2 : m.state ≠ .idle) :
    m.beforeState ≠ .dead := fun hb => (h.dead hb).elim h1 fun hi => h2 hi.1

/-- Nobody is stunned or dies of a tick. -/
theorem Monster.Ticked.before_eq {m : Monster F} (h : m.Ticked)
    (hstate : m.state = .stun ∨ m.state = .dead) :
    m.beforeState = m.state := by
  have hnext := h.next
  generalize m.beforeState = before at hnext
  rcases hstate with he | he <;> rw [he] at hnext ⊢ <;> revert hnext <;> cases before <;> decide

section

variable [Machine F]

/-- The monster has had its tick, and the clients do not know it yet. -/
structure Ticked (id : ℤ) (s : State F) : Prop where
  tick : (s.monster id).Ticked
  alive : (s.monster id).beforeState ≠ .dead →
    (s.monster id).destSector = calcSector (s.monster id).pos
  setsOut : ¬(s.monster id).beforeState.Moving → (s.monster id).state.Moving →
    (s.monster id).sector = (s.monster id).destSector
  watch : Watch id (s.monster id).sector (fun b => b = decide (s.monster id).beforeState.Moving) s

/-- The monster is where it belongs, and those who see it only now know what it does now. -/
structure Crossed (id : ℤ) (s : State F) : Prop where
  tick : (s.monster id).Ticked
  alive : (s.monster id).beforeState ≠ .dead →
    (s.monster id).sector = (s.monster id).destSector ∧
      (s.monster id).destSector = calcSector (s.monster id).pos
  watch : Watch id (s.monster id).sector (fun b => b = decide (s.monster id).beforeState.Moving ∨
    (s.monster id).beforeState.Moving ∧ ¬(s.monster id).state.Moving) s

theorem Ticked.untouched (h : Ticked id s) (hu : Untouched id s t) : Ticked id t := by
  refine ⟨?_, ?_, ?_, ?_⟩ <;> rw [hu.monster]
  · exact h.tick
  · exact h.alive
  · exact h.setsOut
  · exact hu.watch _ _ h.watch

theorem Crossed.untouched (h : Crossed id s) (hu : Untouched id s t) : Crossed id t := by
  refine ⟨?_, ?_, ?_⟩ <;> rw [hu.monster]
  · exact h.tick
  · exact h.alive
  · exact hu.watch _ _ h.watch

theorem nextMonster_ticked {m : Monster F} {rands : Rands} (h : nextMonster s id = .ok (m, rands)) :
    m.Ticked := by
  have hbefore : m.beforeState = (s.monster id).state := by rw [nextMonster_eq h]
  refine ⟨?_, fun hdead => ?_⟩
  · rw [hbefore]
    exact nextMonster_next h
  · rw [hbefore] at hdead
    exact nextMonster_dead h hdead

end

/-- The third loop of `fieldUpdate` ticks a monster. -/
theorem Rest.tick [LawfulMachine F] (h : Rest id s) (he : updateMonster s id = .ok t) :
    Ticked id t ∧ ∀ id' ≠ id, Untouched id' s t := by
  obtain ⟨m, rands, hm, hreplies⟩ := updateMonster_cases he
  generalize hu : ({ (s.setMonster id (updateMonsterSectorCheck m)).record
    (.monsterState none id (s.monster id).state m.state) with rands } : State F) = u at hreplies
  have hspares := hreplies.spares
  have heq := nextMonster_eq hm
  have hbefore : m.beforeState = (s.monster id).state := by rw [heq]
  have hsector : m.sector = (s.monster id).sector := by rw [heq]
  have hdest : m.destSector = (s.monster id).destSector := by rw [heq]
  have htick := nextMonster_ticked hm
  have hself : u.monster id = updateMonsterSectorCheck m := by
    rw [← hu]
    exact Function.update_self _ _ _
  have hcheck : (updateMonsterSectorCheck m).destSector =
      if calcSector m.pos = m.sector then m.destSector else calcSector m.pos := by
    unfold updateMonsterSectorCheck
    dsimp only
    split_ifs <;> rfl
  constructor
  · refine Ticked.untouched ?_ (hspares.untouched id)
    have hwatch : Watch id m.sector (fun b => b = decide m.beforeState.Moving) u := by
      rw [hsector, hbefore, ← hu]
      exact h.settled.keep (fun _ hq => ⟨hq, rfl⟩) fun _ => rfl
    rw [updateMonsterSectorCheck_eq] at hself
    refine ⟨?_, ?_, ?_, ?_⟩ <;> rw [hself]
    · exact ⟨htick.next, htick.dead⟩
    · intro halive
      dsimp only at halive ⊢
      rw [hcheck]
      split_ifs with hsame
      · rw [hbefore] at halive
        rw [hdest, hsame, hsector]
        exact ((h.place.resolve_left halive).1).symm
      · rfl
    · intro hstill hmoving
      dsimp only at hstill hmoving ⊢
      rw [hbefore] at hstill
      obtain ⟨hpos, hstun, hidle⟩ := nextMonster_setsOut hm hstill hmoving
      have halive : (s.monster id).state ≠ .dead := by
        intro hdead
        have hnext := nextMonster_dead hm hdead
        rcases hnext with he | ⟨he, -⟩ <;> rw [he] at hmoving <;> exact absurd hmoving (by decide)
      obtain ⟨hplace, hwhy⟩ := h.place.resolve_left halive
      rw [hcheck]
      rcases hwhy with hcalc | ⟨hs, hframe⟩ | ⟨hi, hframe, hspawn⟩
      · rw [if_pos (by rw [hpos, hsector, hcalc]), hdest, hsector, hplace]
      · have := hstun hs
        omega
      · have := hidle hi hspawn
        omega
    · exact hwatch
  · intro id' hne
    refine Untouched.trans ?_ (hspares.untouched id')
    rw [← hu]
    exact untouched_of_eq (Function.update_of_ne hne _ _) rfl (fun _ hq => hq) rfl

theorem seeMonster_spawn {m : Monster F} (hname : m.monsterID = id) (actor : Option (Option Bool)) :
    seeMonster id actor (.monsterSpawn m.record : Packet F) = actor.bind (actorSpawn m.state) :=
  if_pos hname

theorem seeMonster_despawn {id' : ℤ} (hname : id' = id) (actor : Option (Option Bool)) :
    seeMonster id actor (.monsterDespawn id' : Packet F) = actor.map fun _ => none := if_pos hname

section

variable [Machine F]

/-- The fourth loop of `fieldUpdate` takes a monster where it belongs. -/
theorem Ticked.cross (h : Ticked id s) (hs : Sound s) (hid : id ∈ s.monsters)
    (he : updateMonsterSector s id = .ok t) :
    Crossed id t ∧ ∀ id' ≠ id, Untouched id' s t := by
  rcases updateMonsterSector_cases he with ⟨rfl, hstay⟩ | ⟨halive, hne, rfl⟩
  · refine ⟨⟨h.tick, fun halive => ?_, h.watch.mono fun b hb => Or.inl hb⟩,
      fun id' _ => .refl id' t⟩
    exact ⟨hstay.resolve_left halive, h.alive halive⟩
  · have hgrid := hs.monsters.grid id hid
    have hname := hs.monsters.name id hid
    have hself : (s.crossMonster id).monster id = { s.monster id with
        sector := (s.monster id).destSector } :=
      Function.update_self _ _ _
    constructor
    · refine ⟨?_, ?_, ?_⟩ <;> rw [hself]
      · exact ⟨h.tick.next, h.tick.dead⟩
      · exact fun halive => ⟨rfl, h.alive halive⟩
      · have hmove := h.watch.move hs.players hgrid.1 hgrid.2 (seeMonster_spawn hname)
          (seeMonster_despawn hname)
        have hthere : Watch id (s.monster id).destSector _ (s.crossMonster id) :=
          hmove.keep (fun _ hq => ⟨hq, rfl⟩) fun _ => rfl
        refine hthere.mono fun b hb => ?_
        dsimp only
        rcases hb with hb | hb
        · exact Or.inl hb
        · -- one that sets out does not cross
          by_cases hbefore : (s.monster id).beforeState.Moving <;> by_cases hstate :
            (s.monster id).state.Moving
          · left
            rw [hb, decide_eq_true hbefore, decide_eq_true hstate]
          · exact Or.inr ⟨hbefore, hstate⟩
          · exact absurd (h.setsOut hbefore hstate) hne
          · left
            rw [hb, decide_eq_false hbefore, decide_eq_false hstate]
    · intro id' hne'
      have hother :
          ∀ actor, seeMonster id' actor (.monsterSpawn (s.monster id).record : Packet F) = actor :=
        fun actor => if_neg fun he => hne' (he.symm.trans hname)
      have hother' : ∀ actor, seeMonster id' actor
          (.monsterDespawn (s.monster id).monsterID : Packet F) = actor :=
        fun actor => if_neg fun he => hne' (he.symm.trans hname)
      exact ((untouched_broadcast hother).trans (untouched_broadcast hother')).trans
        (untouched_moveMonster hne' _)

theorem Rest.settle (h : Rest id s) : Rest id (s.settle id) := by
  have hself : (s.settle id).monster id =
      { s.monster id with
        beforeState := (s.monster id).state, beforeDirection := (s.monster id).direction } :=
    Function.update_self _ _ _
  constructor
  · rw [hself]
    exact h.place
  · unfold Settled
    rw [hself]
    exact h.settled.keep (fun _ hq => ⟨hq, rfl⟩) fun _ => rfl

omit [Machine F] in
/-- What `monsterProc` sends of another monster. -/
theorem ProcAct.untouched {id' : ℤ} (ha : ProcAct id s t) (hs : Sound s) (hne : id' ≠ id) :
    Untouched id' s t := by
  have hid : id ∈ s.monsters := by cases ha <;> assumption
  have hname := hs.monsters.name id hid
  have hother : ∀ {id'' : ℤ}, id'' = id → id'' ≠ id' := fun he he' => hne (he'.symm.trans he)
  have hone : ∀ {u : State F} {near : List Sector} {packet : Packet F},
      (∀ actor, seeMonster id' actor packet = actor) →
      Untouched id' u (u.broadcast near (fun _ => false) packet) := fun h => untouched_broadcast h
  cases ha with
  | moveStart hid hstate hbefore =>
    exact (hone (by exact fun _ => if_neg (hother hname))).trans (untouched_setMonster hne _)
  | moveAgain hid hstate hbefore =>
    exact ((hone (by exact fun _ => if_neg (hother hname))).trans
      (hone (by exact fun _ => if_neg (hother hname)))).trans (untouched_setMonster hne _)
  | attack hid hstate =>
    exact ((hone (by exact fun _ => if_neg (hother hname))).trans
      (hone (by exact fun _ => if_neg (hother hname)))).trans (untouched_setMonster hne _)
  | moveStop hid hstate hbefore =>
    exact (hone (by exact fun _ => if_neg (hother hname))).trans (untouched_setMonster hne _)
  | respawn hid hstate hbefore hsame =>
    exact ((hone (by exact fun _ => if_neg (hother hname))).trans
      (hone (by exact fun _ => if_neg (hother hname)))).trans (untouched_setMonster hne _)
  | respawnAway hid hstate hbefore hne' =>
    exact (((hone (by exact fun _ => if_neg (hother hname))).trans (untouched_moveMonster hne
      _)).trans (hone (by exact fun _ => if_neg (hother hname)))).trans (untouched_setMonster hne _)
  | settle hid hstate => exact untouched_setMonster hne _

/-- `monsterProc` tells the clients what the monster does. -/
theorem Crossed.proc (h : Crossed id s) (hs : Sound s) (hid : id ∈ s.monsters)
    (he : procMonster s id = .ok t) :
    Rest id t ∧ ∀ id' ≠ id, Untouched id' s t := by
  have hgrid := hs.monsters.grid id hid
  have hname := hs.monsters.name id hid
  have hplace : (s.monster id).beforeState ≠ .dead → (s.monster id).AtRest := by
    intro halive
    obtain ⟨hdest, hcalc⟩ := h.alive halive
    exact Or.inr ⟨hdest, Or.inl (by rw [hdest, hcalc])⟩
  rcases act_procMonster hid he with ⟨rfl, hsame⟩ | hact
  · refine ⟨⟨?_, h.watch.mono fun b hb => ?_⟩, fun id' _ => .refl id' t⟩
    · by_cases hdead : (t.monster id).state = .dead
      · exact Or.inl hdead
      · rw [hsame] at hdead
        exact hplace hdead
    · rw [hsame]
      rcases hb with hb | ⟨hbefore, hstate⟩
      · exact hb
      · rw [hsame] at hstate
        exact absurd hbefore hstate
  refine ⟨?_, fun id' hne => hact.untouched hs hne⟩
  -- the packets, and then `settle`
  cases hact with
  | moveStart _ hstate hbefore =>
    have halive :=
      h.tick.before_ne_dead (by rintro he; rw [he] at hstate; exact absurd hstate (by decide))
      (by rintro he; rw [he] at hstate; exact absurd hstate (by decide))
    refine Rest.settle ⟨hplace halive, h.watch.tell hs.players hgrid.1 fun b hb => ⟨true, ?_, ?_⟩⟩
    · obtain rfl : b = false := by
        rcases hb with hb | ⟨hb, -⟩
        · rw [hb, decide_eq_false hbefore]
        · exact absurd hb hbefore
      exact if_pos hname
    · exact (decide_eq_true hstate).symm
  | moveAgain _ hstate hbefore =>
    have halive :=
      h.tick.before_ne_dead (by rintro he; rw [he] at hstate; exact absurd hstate (by decide))
      (by rintro he; rw [he] at hstate; exact absurd hstate (by decide))
    have hstop : Watch id (s.monster id).sector (fun b => b = false)
        (s.broadcastMonsterMoveStop (s.monster id) (s.monster id).sector.around) :=
      h.watch.tell hs.players hgrid.1 fun b _ => ⟨false, if_pos hname, rfl⟩
    refine Rest.settle ⟨hplace halive,
      hstop.tell (hs.players.broadcast _ _ _) hgrid.1 fun b hb => ⟨true, ?_, ?_⟩⟩
    · rw [hb]
      exact if_pos hname
    · exact (decide_eq_true hstate).symm
  | attack _ hstate =>
    have halive := h.tick.before_ne_dead (by rw [hstate]; decide) (by rw [hstate]; decide)
    have hstop : Watch id (s.monster id).sector (fun b => b = false)
        (s.broadcastMonsterMoveStop (s.monster id) (s.monster id).sector.around) :=
      h.watch.tell hs.players hgrid.1 fun b _ => ⟨false, if_pos hname, rfl⟩
    refine Rest.settle ⟨hplace halive,
      hstop.tell (hs.players.broadcast _ _ _) hgrid.1 fun b hb => ⟨false, ?_, ?_⟩⟩
    · rw [hb]
      exact if_pos hname
    · change false = decide (s.monster id).state.Moving
      rw [hstate]
      decide
  | moveStop _ hstate hbefore =>
    refine Rest.settle ⟨hplace hbefore,
      h.watch.tell hs.players hgrid.1 fun b _ => ⟨false, if_pos hname, ?_⟩⟩
    change false = decide (s.monster id).state.Moving
    rw [hstate]
    decide
  | respawn _ hstate hbefore hsame =>
    have hidle := (h.tick.dead hbefore).resolve_left (by rw [hstate]; decide)
    have hgone := h.watch.hide hs.players hgrid.1 (seeMonster_despawn (F := F) hname)
    exact Rest.settle ⟨Or.inr ⟨hsame, Or.inr (Or.inr hidle)⟩,
      hgone.show (hs.players.broadcast _ _ _) hgrid.1 (seeMonster_spawn hname)⟩
  | respawnAway _ hstate hbefore hne =>
    have hidle := (h.tick.dead hbefore).resolve_left (by rw [hstate]; decide)
    have hgone := h.watch.hide hs.players hgrid.1 (seeMonster_despawn (F := F) hname)
    apply Rest.settle
    generalize hu : (s.broadcastMonsterDespawn (s.monster id)
      (s.monster id).sector.around).moveMonster id (s.monster id) = u
    have hself : u.monster id = { s.monster id with sector := (s.monster id).destSector } := by
      rw [← hu]
      exact moveMonster_monster _ _ _
    have hindex : Index u := by
      rw [← hu]
      exact (hs.players.broadcast _ _ _).moveMonster id _
    have hhidden : Hidden id u := by
      rw [← hu]
      exact hgone
    have hshown := hhidden.show hindex hgrid.2 (seeMonster_spawn (m := { s.monster id with
      sector := (s.monster id).destSector }) hname)
    constructor
    · change (u.monster id).AtRest
      rw [hself]
      exact Or.inr ⟨rfl, Or.inr (Or.inr hidle)⟩
    · unfold Settled
      change Watch id (u.monster id).sector (fun b => b = decide (u.monster id).state.Moving) _
      rw [hself]
      exact hshown
  | settle _ hstate =>
    have hsame := h.tick.before_eq hstate
    refine Rest.settle ⟨?_, h.watch.mono fun b hb => ?_⟩
    · rcases hstate with hstun | hdead
      · exact hplace (by rw [hsame, hstun]; decide)
      · exact Or.inl hdead
    · rw [hsame] at hb
      exact hb.elim (fun hb => hb) fun hb => absurd hb.1 hb.2

end

/-! ### What is no monster, and who is no player -/

theorem hidden_iff : Hidden id s ↔ Watch id ⟨-1, 0⟩ (fun _ => False) s := by
  have hnowhere : ∀ c : Sector, (⟨-1, 0⟩ : Sector) ∉ c.around := by
    intro c hc
    have hgrid := (Sector.mem_around.mp hc).1.1
    exact absurd hgrid (by decide)
  unfold Hidden Watch
  simp only [hnowhere, if_false]

theorem Untouched.hidden (hu : Untouched id s t) (h : Hidden id s) : Hidden id t :=
  hidden_iff.mpr (hu.watch _ _ (hidden_iff.mp h))

/-- Nobody has an actor of what is no monster. -/
def Strangers (s : State F) : Prop := ∀ id, id ∉ s.monsters → Hidden id s

/-- No assertion has failed in any client. -/
def InStep (s : State F) : Prop := ∀ q id, actorOf s q id ≠ none

theorem Watch.ne_none (h : Watch id place ok s) {q : ℕ} (hq : q ∈ s.players) :
    actorOf s q id ≠ none := by
  have hview := h q hq
  split_ifs at hview
  · obtain ⟨b, hb, -⟩ := hview
    rw [hb]
    exact Option.some_ne_none _
  · rw [hview]
    exact Option.some_ne_none _

/-- The clients of those who have left hear no more. -/
theorem Letters.inStep (hl : Letters s t) (h : InStep s) (hst : Strangers t)
    (hw : ∀ id ∈ t.monsters, ∃ place ok, Watch id place ok t) : InStep t := by
  intro q id
  by_cases hq : q ∈ t.players
  · by_cases hid : id ∈ t.monsters
    · obtain ⟨place, ok, hwatch⟩ := hw id hid
      exact hwatch.ne_none hq
    · rw [hst id hid q hq]
      exact Option.some_ne_none _
  · unfold actorOf told
    rw [hl q hq]
    exact h q id

theorem Hidden.enter (h : Hidden id s) (hs : Sound s) (hid : id ∉ s.monsters) {q : ℕ}
    (hq : q ∉ s.met) (p : Player F) :
    Hidden id ((s.enter q p).sendSpawns q p.currentSector.around) := by
  have hindex : MonsterIndex (s.enter q p) := hs.monsters.of_eq rfl rfl rfl
  intro q' hq'
  rw [hindex.actorOf_sendSpawns id (Sector.around_nodup _),
    if_neg fun he => hid (hindex.cells.mem_near.mp he.2).1]
  by_cases he : q' = q
  · subst he
    change (inbox q' s.sent).foldl _ _ = _
    rw [hs.players.quiet q' hq]
    rfl
  · exact h q' ((List.mem_cons.mp hq').resolve_left he)

theorem Hidden.cross (h : Hidden id s) (hs : Sound s) (hid : id ∉ s.monsters) (q : ℕ) :
    Hidden id (s.cross q) := by
  obtain ⟨_, hrest⟩ := cross_rest (s := s) q
  have hplayers : (s.cross q).players = s.players := by rw [hrest]
  obtain ⟨ks, hks⟩ := sends_sendSpawns (s := s) q
    ((s.player q).destSector.around.diff (s.player q).currentSector.around)
  have hindex : MonsterIndex
      (s.sendSpawns q ((s.player q).destSector.around.diff (s.player q).currentSector.around)) := by
    rw [hks]
    exact hs.monsters.of_eq rfl rfl rfl
  have hmonsters : (s.sendSpawns q ((s.player q).destSector.around.diff
      (s.player q).currentSector.around)).monsters = s.monsters := by
    rw [hks]
  intro q' hq'
  rw [hplayers] at hq'
  have hdespawns := hindex.actorOf_sendDespawns id
    ((s.player q).currentSector.around.diff (s.player q).destSector.around) q q'
  rw [if_neg fun he => hid (by rw [← hmonsters]; exact (hindex.cells.mem_near.mp he.2).1),
    hs.monsters.actorOf_sendSpawns id (Sector.around_diff_nodup _ _),
    if_neg fun he => hid (hs.monsters.cells.mem_near.mp he.2).1, h q' hq'] at hdespawns
  exact hdespawns

theorem Stirs.strangers [Machine F] (ha : Stirs s t) (hs : Sound s) (h : Strangers s) :
    Strangers t := by
  cases ha with
  | spares ht =>
    intro id hid
    rw [ht.monsters] at hid
    exact (ht.untouched id).hidden (h id hid)
  | hit q id m hid hstate hm ht =>
    intro id' hid'
    rw [ht.monsters] at hid'
    have hname : m.monsterID = id := by
      rw [monster_takeDamage_eq hm]
      exact hs.monsters.name id hid
    have hne : id' ≠ id := by
      rintro rfl
      exact hid' hid
    exact ((untouched_hitMonster hname hne).trans (ht.untouched id')).hidden (h id' hid')
  | cross q hq =>
    obtain ⟨_, hrest⟩ := cross_rest (s := s) q
    intro id hid
    rw [hrest] at hid
    exact (h id hid).cross hs hid q
  | enter q p hq =>
    intro id hid
    exact (h id hid).enter hs hid hq p
  | rehash hp hps hm hms hsent =>
    intro id hid
    rw [hms.mem_iff] at hid
    exact (untouched_of_eq (by rw [hm]) hp (fun q hq => hps.mem_iff.mp hq) hsent).hidden (h id hid)

/-! ### The thread -/

section

variable [Machine F]

/-- Between two ticks. -/
structure Rested (s : State F) : Prop where
  sound : Sound s
  rest : AllRest s
  strangers : Strangers s
  inStep : InStep s

/-- Between `fieldUpdate` and `monsterProc`. -/
structure Midway (s : State F) : Prop where
  sound : Sound s
  crossed : ∀ id ∈ s.monsters, Crossed id s
  strangers : Strangers s
  inStep : InStep s

/-- What touches no monster does not take the clients out of step. -/
theorem Rested.keep (h : Rested s) (hsound : Sound t) (hl : Letters s t)
    (hms : t.monsters.Perm s.monsters) (hu : ∀ id, Untouched id s t) : Rested t := by
  have hrest : AllRest t := fun id hid => (h.rest id (hms.mem_iff.mp hid)).untouched (hu id)
  have hstrangers : Strangers t :=
    fun id hid => (hu id).hidden (h.strangers id (mt hms.mem_iff.mpr hid))
  exact ⟨hsound, hrest, hstrangers,
    hl.inStep h.inStep hstrangers fun id hid => ⟨_, _, (hrest id hid).settled⟩⟩

theorem Midway.keep (h : Midway s) (hsound : Sound t) (hl : Letters s t)
    (hms : t.monsters.Perm s.monsters) (hu : ∀ id, Untouched id s t) : Midway t := by
  have hcrossed : ∀ id ∈ t.monsters, Crossed id t := fun id hid =>
    (h.crossed id (hms.mem_iff.mp hid)).untouched (hu id)
  have hstrangers : Strangers t :=
    fun id hid => (hu id).hidden (h.strangers id (mt hms.mem_iff.mpr hid))
  exact ⟨hsound, hcrossed, hstrangers,
    hl.inStep h.inStep hstrangers fun id hid => ⟨_, _, (hcrossed id hid).watch⟩⟩

theorem Rested.spares (h : Rested s) (hs : Spares s t) (hsound : Sound t)
    (hl : Letters s t) : Rested t :=
  h.keep hsound hl (by rw [hs.monsters]) hs.untouched

theorem Midway.spares (h : Midway s) (hs : Spares s t) (hsound : Sound t)
    (hl : Letters s t) : Midway t :=
  h.keep hsound hl (by rw [hs.monsters]) hs.untouched

theorem Act.rested (ha : Act s t) (h : Rested s) : Rested t := by
  have hrest := ha.stirs.allRest h.sound h.rest
  have hstrangers := ha.stirs.strangers h.sound h.strangers
  exact ⟨ha.sound h.sound, hrest, hstrangers,
    (ha.letters h.sound.players).inStep h.inStep hstrangers fun id hid =>
      ⟨_, _, (hrest id hid).settled⟩⟩

theorem Acts.rested (ha : Acts s t) (h : Rested s) : Rested t :=
  ha.keeps (P := Rested) (fun h ha => ha.rested h) h

theorem PlayerAct.spares {q : ℕ} (ha : PlayerAct q s t) : Spares s t := by
  cases ha with
  | update p hq hp hframe => exact spares_setPlayer (update_face hp).1
  | attackHit p hq hp hstate hframe =>
    exact (spares_setPlayer (update_face hp).1).trans (spares_of_eq rfl rfl rfl rfl rfl)

omit [Machine F] in
theorem ItemAct.spares {id : ℤ} (ha : ItemAct id s t) : Spares s t := by
  cases ha with
  | update hid hlife => exact spares_of_eq rfl rfl rfl rfl rfl
  | expire hid hlife hgrid =>
    have hgrow : Spares s { s with item := Function.update s.item id (s.item id).update } :=
      spares_of_eq rfl rfl rfl rfl rfl
    have htold : Spares { s with item := Function.update s.item id (s.item id).update }
        ({ s with item := Function.update s.item id (s.item id).update }.broadcastItemDespawn
          (s.item id).update (s.item id).update.sector.around) := spares_broadcast
          (by exact fun hk => hk)
    exact (hgrow.trans htold).trans (spares_of_eq rfl rfl rfl rfl rfl)

theorem Act.grows (ha : Act s t) : ∀ q ∈ s.players, q ∈ t.players := by
  cases ha with
  | kill q id m u hq hid hstate hm hdead hgrid hu =>
    intro q' hq'
    change q' ∈ u.players
    rw [hu.players]
    exact hq'
  | cross q hq hne =>
    obtain ⟨_, hrest⟩ := cross_rest (s := s) q
    rw [hrest]
    exact fun _ hq' => hq'
  | enter q accountNo characterID pos nickname hq hid =>
      exact fun _ hq' => List.mem_cons_of_mem _ hq'
  | rehash players sectors monsters monsterSectors items itemSectors hp hs hm hms hi his =>
    exact fun _ hq' => hp.mem_iff.mpr hq'
  | _ => exact fun _ hq' => hq'

omit [Machine F] in
theorem Letters.trans {u : State F} (h : Letters s u) (h' : Letters u t)
    (hps : ∀ q ∈ u.players, q ∈ t.players) :
    Letters s t := fun q hq => (h' q hq).trans (h q fun hmem => hq (hps q hmem))

/-- What answers a packet or a hit is heard by the players, who stay. -/
theorem Replies.letters (h : Replies s t) (hs : Index s) :
    Letters s t ∧ ∀ q ∈ s.players, q ∈ t.players := by
  suffices hall : Index t ∧ Letters s t ∧ ∀ q ∈ s.players, q ∈ t.players from hall.2
  induction h with
  | refl => exact ⟨hs, letters_of_eq rfl, fun _ hq => hq⟩
  | tail _ hact ih =>
    obtain ⟨hindex, hl, hps⟩ := ih
    have hgrows := hact.1.grows
    exact ⟨hact.1.index hindex, hl.trans (hact.1.letters hindex) hgrows,
      fun q hq => hgrows q (hps q hq)⟩

theorem Replies.sound (h : Replies s t) (hs : Sound s) : Sound t :=
  h.acts.keeps (P := Sound) (fun hs ha => ha.sound hs) hs

/-- A loop over the monsters keeps the players, who hear all that it says. -/
structure Along (s t : State F) : Prop where
  sound : Sound t
  players : ∀ q ∈ s.players, q ∈ t.players
  monsters : t.monsters = s.monsters
  letters : Letters s t
  strangers : ∀ id, id ∉ s.monsters → Untouched id s t

omit [Machine F] in
theorem Along.refl (hs : Sound s) : Along s s :=
  ⟨hs, fun _ hq => hq, rfl, letters_of_eq rfl, fun id _ => .refl id s⟩

omit [Machine F] in
/-- A pass of such a loop. -/
theorem Along.pass {u : State F} (h : Along s u) {id : ℤ} (hid : id ∈ s.monsters) (hs : Sound t)
    (hps : ∀ q ∈ u.players, q ∈ t.players) (hms : t.monsters = u.monsters) (hl : Letters u t)
    (hothers : ∀ id' ≠ id, Untouched id' u t) : Along s t := by
  refine ⟨hs, fun q hq => hps q (h.players q hq), hms.trans h.monsters, h.letters.trans hl hps,
    fun id' hid' => ?_⟩
  refine (h.strangers id' hid').trans (hothers id' ?_)
  rintro rfl
  exact hid' hid

theorem updateMonster_along {u v : State F} (h : Along s u) {id : ℤ} (hid : id ∈ s.monsters)
    (he : updateMonster u id = .ok v) (hothers : ∀ id' ≠ id, Untouched id' u v) : Along s v := by
  obtain ⟨m, rands, hm, hreplies⟩ := updateMonster_cases he
  have hmem : id ∈ u.monsters := by
    rw [h.monsters]
    exact hid
  have hact : MonsterAct id u _ := .update m rands hmem hm
  have hsound := hact.sound h.sound
  obtain ⟨hl, hps⟩ := hreplies.letters hsound.players
  exact h.pass hid (hreplies.sound hsound) hps hreplies.spares.monsters
    ((hact.letters h.sound.players).trans hl hps) hothers

theorem updateMonsterSector_along {u v : State F} (h : Along s u) {id : ℤ} (hid : id ∈ s.monsters)
    (he : updateMonsterSector u id = .ok v) (hothers : ∀ id' ≠ id, Untouched id' u v) :
    Along s v := by
  have hmem : id ∈ u.monsters := by
    rw [h.monsters]
    exact hid
  rcases updateMonsterSector_cases he with ⟨rfl, -⟩ | ⟨halive, hne, rfl⟩
  · exact h
  · have hact : MonsterAct id u _ := .cross hmem halive hne
    exact h.pass hid (hact.sound h.sound)
      (fun _ hq => hq) rfl (hact.letters h.sound.players) hothers

theorem procMonster_along {u v : State F} (h : Along s u) {id : ℤ} (hid : id ∈ s.monsters)
    (he : procMonster u id = .ok v) (hothers : ∀ id' ≠ id, Untouched id' u v) : Along s v := by
  have hmem : id ∈ u.monsters := by
    rw [h.monsters]
    exact hid
  rcases act_procMonster hmem he with ⟨rfl, -⟩ | hact
  · exact h
  · have hmonster : MonsterAct id u v := .proc hact
    exact h.pass hid (hmonster.sound h.sound) (by cases hact <;> exact fun _ hq => hq) hact.monsters
      (hact.letters h.sound.players) hothers

/-- The fourth loop of `fieldUpdate`. -/
theorem cross_each (hs : Sound s) (h : ∀ id ∈ s.monsters, Ticked id s)
    (he : s.monsters.foldlM updateMonsterSector s = .ok t) :
    Along s t ∧ ∀ id ∈ s.monsters, Crossed id t := by
  refine foldlM_each (I := Along s) (A := fun u id => Ticked id u) (B := fun u id => Crossed id u)
    hs.monsters.cells.nodup ?_ (.refl hs) h he
  intro u v id hid hI hA hv
  have hmem : id ∈ u.monsters := by
    rw [hI.monsters]
    exact hid
  obtain ⟨hB, hothers⟩ := hA.cross hI.sound hmem hv
  exact ⟨updateMonsterSector_along hI hid hv hothers, hB, fun id' _ hne =>
    ⟨fun htick => htick.untouched (hothers id' hne),
      fun hcrossed => hcrossed.untouched (hothers id' hne)⟩⟩

/-- `monsterProc` puts every monster to rest. -/
theorem proc_each (hs : Sound s) (h : ∀ id ∈ s.monsters, Crossed id s)
    (he : monsterProc s = .ok t) :
    Along s t ∧ AllRest t := by
  have hloop : Along s t ∧ ∀ id ∈ s.monsters, Rest id t := by
    refine foldlM_each (I := Along s) (A := fun u id => Crossed id u) (B := fun u id => Rest id u)
      hs.monsters.cells.nodup ?_ (.refl hs) h he
    intro u v id hid hI hA hv
    have hmem : id ∈ u.monsters := by
      rw [hI.monsters]
      exact hid
    obtain ⟨hB, hothers⟩ := hA.proc hI.sound hmem hv
    exact ⟨procMonster_along hI hid hv hothers, hB, fun id' _ hne =>
      ⟨fun hcrossed => hcrossed.untouched (hothers id' hne),
        fun hrest => hrest.untouched (hothers id' hne)⟩⟩
  refine ⟨hloop.1, fun id hid => hloop.2 id ?_⟩
  rw [hloop.1.monsters] at hid
  exact hid

omit [Machine F] in
theorem Along.strange (h : Along s t) (hst : Strangers s) : Strangers t := by
  intro id hid
  rw [h.monsters] at hid
  exact (h.strangers id hid).hidden (hst id hid)

theorem Midway.monsterProc (h : Midway s) (he : monsterProc s = .ok t) : Rested t := by
  obtain ⟨halong, hrest⟩ := proc_each h.sound h.crossed he
  have hstrangers := halong.strange h.strangers
  exact ⟨halong.sound, hrest, hstrangers,
    halong.letters.inStep h.inStep hstrangers fun id hid => ⟨_, _, (hrest id hid).settled⟩⟩

end

section

variable [LawfulMachine F]

/-- The third loop of `fieldUpdate`. -/
theorem AllRest.tick (h : AllRest s) (hs : Sound s)
    (he : s.monsters.foldlM updateMonster s = .ok t) :
    Along s t ∧ ∀ id ∈ s.monsters, Ticked id t := by
  refine foldlM_each (I := Along s) (A := fun u id => Rest id u) (B := fun u id => Ticked id u)
    hs.monsters.cells.nodup ?_ (.refl hs) h he
  intro u v id hid hI hA hv
  obtain ⟨hB, hothers⟩ := hA.tick hv
  exact ⟨updateMonster_along hI hid hv hothers, hB, fun id' _ hne =>
    ⟨fun hrest => hrest.untouched (hothers id' hne),
      fun htick => htick.untouched (hothers id' hne)⟩⟩

/-- The first two loops of `fieldUpdate` do not take the clients out of step. -/
theorem Rested.playerLoops (h : Rested s) {s1 s2 : State F}
    (h1 : s.players.foldlM updatePlayer (s.record .fieldUpdate) = .ok s1)
    (h2 : s1.players.foldlM updateSector s1 = .ok s2) : Rested s2 := by
  have hstart : Rested (s.record .fieldUpdate) := Act.rested .fieldUpdate h
  have hloop := foldlM_keeps (P := fun u => Rested u ∧ u.players = s.players) ?_ ⟨hstart, rfl⟩ h1
  · exact (acts_updateSectors h2).1.rested hloop.1
  · intro u v q hq hu hv
    rw [← hu.2] at hq
    obtain ⟨w, hw, hacts, hplayers⟩ := act_updatePlayer hq hv
    exact ⟨hacts.rested (hu.1.spares hw.spares (hw.sound hu.1.sound) hw.letters),
      hplayers.trans hu.2⟩

/-- A tick. -/
theorem Rested.fieldUpdate (h : Rested s) (he : fieldUpdate s = .ok t) : Midway t := by
  unfold Field.fieldUpdate at he
  obtain ⟨s1, h1, he⟩ := bind_ok he
  obtain ⟨s2, h2, he⟩ := bind_ok he
  obtain ⟨s3, h3, he⟩ := bind_ok he
  obtain ⟨s4, h4, he⟩ := bind_ok he
  have hrest2 := h.playerLoops h1 h2
  obtain ⟨halong3, htick⟩ := hrest2.rest.tick hrest2.sound h3
  have htick' : ∀ id ∈ s3.monsters, Ticked id s3 := by
    rw [halong3.monsters]
    exact htick
  obtain ⟨halong4, hcrossed⟩ := cross_each halong3.sound htick' h4
  have hmidway : Midway s4 := by
    have hcrossed' : ∀ id ∈ s4.monsters, Crossed id s4 := by
      rw [halong4.monsters]
      exact hcrossed
    have hstrangers := halong4.strange (halong3.strange hrest2.strangers)
    have hletters := halong3.letters.trans halong4.letters halong4.players
    exact ⟨halong4.sound, hcrossed', hstrangers,
      hletters.inStep hrest2.inStep hstrangers fun id hid => ⟨_, _, (hcrossed' id hid).watch⟩⟩
  have hitems := hmidway.sound.items.cells.nodup
  exact (itemActs_updateItems hitems hitems (fun _ hid => hid) he).keeps (P := Midway)
    (fun hm ha => hm.spares ha.spares (ha.sound hm.sound) (ha.letters hm.sound.players)) hmidway

end

/-! ### The order of `fieldThread` -/

section

variable [Machine F]

/-- What is next in the loop of `fieldThread`: its messages, the packets of the players, who are
then made to leave, and the answers of `dbThread`. -/
inductive Phase
  | messages
  | packets
  | leaving
  | results
  deriving DecidableEq

/-- What does not happen in the loop of `fieldThread`. -/
def Step.elsewhere : Step F → Bool
  | .onRelease _ | .dbDequeue | .dbAnswer _ | .rehashPlayers _ | .rehashSector _ _
  | .rehashMonsters _
  | .rehashMonsterSector _ _ | .rehashItems _ | .rehashItemSector _ _ => true
  | _ => false

/-- Where the loop is after an operation. Between two ticks it goes round without `fieldUpdate`. -/
def Phase.after (phase : Phase) (l : Step F) : Option Phase :=
  if l.elsewhere then some phase
  else match phase, l with
    | .messages, .registerPlayer _ _ _ _ _ => some .messages
    | .messages, .fieldUpdate => some .packets
    | .packets, .contentsPacket _ _ => some .packets
    | .packets, .monsterProc => some .leaving
    | .messages, .checkDisConnected | .leaving, .checkDisConnected => some .results
    | .results, .dbResults => some .messages
    | _, _ => none

/-- The field with its operations in the order of `fieldThread`. -/
def fieldThread : System (Phase × State F) (Step F) where
  init s := s.1 = .messages ∧ field.init s.2
  next s l := (s.1.after l).bind fun phase => (field.next s.2 l).map fun t => (phase, t)

theorem fieldThread_init (h : field.init s) : fieldThread.init (Phase.messages, s) := ⟨rfl, h⟩

theorem fieldThread_next {c d : Phase × State F} {l : Step F} (h : fieldThread.next c l = some d) :
    c.1.after l = some d.1 ∧ step c.2 l = some (.ok d.2) := by
  obtain ⟨phase, hphase, h⟩ := Option.bind_eq_some_iff.mp h
  obtain ⟨t, ht, rfl⟩ := Option.map_eq_some_iff.mp h
  exact ⟨hphase, field_next.mp ht⟩

/-- What the field keeps in every run, it keeps in those of `fieldThread`. -/
theorem fieldThread_reachable {c : Phase × State F} (h : fieldThread.Reachable c) :
    field.Reachable c.2 := by
  induction h with
  | start hi => exact .start hi.2
  | step l _ he ih => exact ih.step l (field_next.mpr (fieldThread_next he).2)

/-- What the loop relies on at each of its places. -/
def Phase.Inv : Phase → State F → Prop
  | .packets => Midway
  | _ => Rested

theorem Phase.Inv.keep {phase : Phase} (h : phase.Inv s) (hsound : Sound t) (hl : Letters s t)
    (hms : t.monsters.Perm s.monsters) (hu : ∀ id, Untouched id s t) : phase.Inv t := by
  cases phase with
  | packets => exact Midway.keep h hsound hl hms hu
  | _ => exact Rested.keep h hsound hl hms hu

theorem Phase.Inv.sound {phase : Phase} (h : phase.Inv s) : Sound s := by
  cases phase with
  | packets => exact Midway.sound h
  | _ => exact Rested.sound h

theorem Phase.Inv.inStep {phase : Phase} (h : phase.Inv s) : InStep s := by
  cases phase with
  | packets => exact Midway.inStep h
  | _ => exact Rested.inStep h

theorem elsewhere_step {l : Step F} (h : step s l = some (.ok t)) (hl : l.elsewhere = true) :
    t.sent = s.sent ∧ t.monsters.Perm s.monsters ∧ ∀ id, Untouched id s t := by
  have hsame : ∀ {u : State F}, u.monster = s.monster → u.player = s.player →
      (∀ q ∈ u.players, q ∈ s.players) →
      u.sent = s.sent → ∀ id, Untouched id s u := fun hm hp hps hsent _ =>
        untouched_of_eq (by rw [hm]) hp hps hsent
  unfold step at h
  cases l with
  | onRelease q =>
    cases h
    have hspares : Spares s (s.disconnect q) := spares_setPlayer rfl
    exact ⟨rfl, .refl _, hspares.untouched⟩
  | dbDequeue =>
    dsimp only at h
    split at h <;> cases h
    exact ⟨rfl, .refl _, hsame rfl rfl (fun _ hq => hq) rfl⟩
  | dbAnswer ranking =>
    dsimp only at h
    split at h <;> cases h
    exact ⟨rfl, .refl _, hsame rfl rfl (fun _ hq => hq) rfl⟩
  | rehashPlayers players =>
    dsimp only at h
    split_ifs at h with hp
    cases h
    exact ⟨rfl, .refl _, hsame rfl rfl (fun _ hq => hp.mem_iff.mp hq) rfl⟩
  | rehashMonsters monsters =>
    dsimp only at h
    split_ifs at h with hp
    cases h
    exact ⟨rfl, hp, hsame rfl rfl (fun _ hq => hq) rfl⟩
  | rehashSector c players =>
    dsimp only at h
    split_ifs at h
    cases h
    exact ⟨rfl, .refl _, hsame rfl rfl (fun _ hq => hq) rfl⟩
  | rehashMonsterSector c monsters =>
    dsimp only at h
    split_ifs at h
    cases h
    exact ⟨rfl, .refl _, hsame rfl rfl (fun _ hq => hq) rfl⟩
  | rehashItems items =>
    dsimp only at h
    split_ifs at h
    cases h
    exact ⟨rfl, .refl _, hsame rfl rfl (fun _ hq => hq) rfl⟩
  | rehashItemSector c items =>
    dsimp only at h
    split_ifs at h
    cases h
    exact ⟨rfl, .refl _, hsame rfl rfl (fun _ hq => hq) rfl⟩
  | _ => cases hl

/-- What a packet of a player does between `fieldUpdate` and `monsterProc`. -/
theorem Midway.contentsPacket (h : Midway s) {msg : Message} {q : ℕ}
    (hconnect : (s.player q).connect = true) (he : fieldContentsPacketProc s msg q = .ok t) :
    Midway t := by
  rcases replies_fieldContentsPacketProc hconnect he with hreplies | hset
  · exact h.spares hreplies.spares (hreplies.sound h.sound) (hreplies.letters h.sound.players).1
  · exact h.spares hset.spares (hset.act.sound h.sound) (hset.act.letters h.sound.players)

/-- Those who leave are not told anything any more. -/
theorem Rested.handBack (h : Rested s) {q : ℕ} : Rested (s.handBack q) := by
  refine h.keep (h.sound.handBack q) (letters_of_eq rfl) (.refl _) fun id =>
    ⟨rfl, fun place ok hw => hw.keep ?_ fun _ => rfl⟩
  intro q' hq'
  have hmem := List.mem_of_mem_erase hq'
  refine ⟨hmem, ?_⟩
  change ((s.setPlayer q { s.player q with savePending := false }).player q').currentSector = _
  rw [setPlayer_player]
  split_ifs with he
  · rw [he]
  · rfl

theorem Rested.dbResults (h : Rested s) (he : dbResultPacketProc s = .ok t) : Rested t := by
  unfold dbResultPacketProc at he
  have htake : Rested { s with dbResQ := [] } :=
    h.spares (spares_of_eq rfl rfl rfl rfl rfl) h.sound.takeResults (letters_of_eq rfl)
  refine foldlM_keeps (P := Rested) ?_ htake he
  intro u v result _ hu hv
  rcases dbResult_cases hv with ⟨-, rfl | ⟨q, packet, hq, hp, rfl⟩⟩ | ⟨q, hq, -, rfl⟩
  · exact hu
  · exact Act.rested (.send q packet hq hp) hu
  · exact hu.handBack

end

section

variable [LawfulMachine F]

/-- Every operation finds what it relies on, and leaves what the next one relies on. -/
theorem Phase.Inv.step {phase phase' : Phase} {l : Step F} (h : phase.Inv s)
    (hafter : phase.after l = some phase') (he : step s l = some (.ok t)) : phase'.Inv t := by
  have hsound : l ≠ .dbResults → Sound t := by
    intro hne
    rcases stays_step (fun u hu => (hu.sound h.sound).items.cells.nodup) he with hstays | hres
    · exact hstays.sound h.sound
    · exact absurd hres.1 hne
  unfold Phase.after at hafter
  split at hafter
  · next hl =>
    cases hafter
    obtain ⟨hsent, hms, hu⟩ := elsewhere_step he hl
    refine h.keep (hsound ?_) (letters_of_eq hsent) hms hu
    rintro rfl
    cases hl
  · split at hafter <;> cases hafter
    · next q accountNo characterID pos nickname =>
      unfold Field.step at he
      dsimp only at he
      split_ifs at he with hnew
      exact (acts_handleRegisterPlayer hnew.1 hnew.2 (Option.some.inj he)).rested h
    · exact Rested.fieldUpdate h (Option.some.inj he)
    · unfold Field.step at he
      dsimp only at he
      split_ifs at he with hq
      exact Midway.contentsPacket h hq.2 (Option.some.inj he)
    · exact Midway.monsterProc h (Option.some.inj he)
    · exact (acts_checkDisConnected (Option.some.inj he)).rested h
    · exact (acts_checkDisConnected (Option.some.inj he)).rested h
    · exact Rested.dbResults h (Option.some.inj he)

theorem Fresh.rested (h : Fresh s) : Rested s := by
  have hnobody : ∀ q, q ∉ s.players := by
    intro q hq
    rw [h.nobody.1] at hq
    cases hq
  refine ⟨h.toSound, fun id hid => ⟨?_, fun q hq => absurd hq (hnobody q)⟩,
    fun id _ q hq => absurd hq (hnobody q), ?_⟩
  · obtain ⟨-, -, hdest, hsector⟩ := h.still id hid
    exact Or.inr ⟨hdest.symm, Or.inl hsector.symm⟩
  · intro q id
    unfold actorOf told
    rw [h.nobody.2.2.1]
    exact Option.some_ne_none _

theorem phase_inv {c : Phase × State F} (h : fieldThread.Reachable c) : c.1.Inv c.2 := by
  have hinv : fieldThread.Invariant (fun c : Phase × State F => c.1.Inv c.2) := by
    constructor
    · rintro ⟨phase, s⟩ ⟨rfl, rands, hs⟩
      dsimp only at hs ⊢
      rw [hs]
      exact (fresh_spawnMonsters rands).rested
    · intro c d l hc he
      obtain ⟨hafter, hstep⟩ := fieldThread_next he
      exact hc.step hafter hstep
  exact hinv.reachable h

/-- No assertion about a monster ever fails in a client. -/
theorem monsters_inStep {c : Phase × State F} (h : fieldThread.Reachable c) (q : ℕ) (id : ℤ) :
    actorOf c.2 q id ≠ none :=
  (phase_inv h).inStep q id

end

end

/-- A pass of the loop of `fieldThread` with a tick in which `packets` are handled. -/
def pass (packets : List (Step F)) : List (Step F) :=
  [.fieldUpdate] ++ packets ++ [.monsterProc, .checkDisConnected, .dbResults]

/-- Session 1 hits the monster, which is stunned and then attacks. -/
def strikeBack : List (Step ℚ) :=
  [.registerPlayer 1 7 11 ⟨0, 0⟩ []] ++ pass [.contentsPacket 1 (moveStartMsg 6),
    .contentsPacket 1 attackMsg] ++ (List.replicate 60 (pass [])).flatten

theorem monsters_inStep_strikeBack :
    ∃ c : Phase × State ℚ, (c.2.monster 0).state = .attack ∧ actorOf c.2 1 0 = some (some false) ∧
    ∀ q id, actorOf c.2 q id ≠ none := by
  have hrun : (fieldThread.exec (Phase.messages, oneMonster) strikeBack).any
      (fun c => (c.2.monster 0).state = .attack ∧ actorOf c.2 1 0 = some (some false)) = true := by
        decide +kernel
  obtain ⟨c, hc, hp⟩ := Option.any_eq_true _ _ |>.mp hrun
  obtain ⟨hstate, hactor⟩ := of_decide_eq_true hp
  exact ⟨c, hstate, hactor,
    monsters_inStep (.exec _ (.start (fieldThread_init oneMonster_init)) hc)⟩

end Field
end MyMMO
