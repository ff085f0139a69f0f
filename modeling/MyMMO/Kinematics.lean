/-
# Where a player is and where it faces

`mPos` and `mDirection` of a player are written by the handlers of MOVE_START and MOVE_STOP with
what the client sent, by `moveUpdate` and by `takeDamage`. The ticks keep both in order
(`Player.Kinematic`), and `handleMoveStop` checks the position; nobody checks the rest. So they stay
in order in every run in which the reports that are accepted are (`kinematic`), and one report is
enough to leave the world or the table (`strays`).
-/
import MyMMO.MonsterMoves
import MyMMO.Players
import MyMMO.World

namespace MyMMO
namespace Field

open Machine Outcome
open Sector (getAroundSectors)

/-- A machine whose numbers are those of a finite `float`: what compares with itself is a number,
two of them compare one way or the other, and what a walk or a knockback comes to from within the
world is one. -/
class WorldMachine (F : Type) extends Machine F where
  le_of_not_lt : ∀ x y : F, le x x = true → le y y = true → lt x y = false → le y x = true
  le_width : le (lit 0 : F) (ofInt (SECTOR_WORLD_W * SECTOR_COL_CNT)) = true
  le_height : le (lit 0 : F) (ofInt (SECTOR_WORLD_H * SECTOR_ROW_CNT)) = true
  le_left : ∀ x y : F, le x y = true → le x x = true
  le_right : ∀ x y : F, le x y = true → le y y = true
  walk : ∀ p : Position F, p.InWorld → ∀ v ∈ (kDirectionVectorTable : List (F × F)), ∀ n : ℤ,
    le (p.x + v.1 * lit 4.5 * ofInt n) (p.x + v.1 * lit 4.5 * ofInt n) = true ∧
      le (p.y + v.2 * lit 4.5 * ofInt n) (p.y + v.2 * lit 4.5 * ofInt n) = true
  knockback : ∀ p : Position F, p.InWorld → ∀ v ∈ (kDirectionVectorTable : List (F × F)),
    le (p.x + v.1 * PLAYER_ATTACK_KNOCKBACK_DIST) (p.x + v.1 * PLAYER_ATTACK_KNOCKBACK_DIST) =
        true ∧
      le (p.y + v.2 * PLAYER_ATTACK_KNOCKBACK_DIST) (p.y + v.2 * PLAYER_ATTACK_KNOCKBACK_DIST) =
        true

instance : WorldMachine ℚ where
  le_of_not_lt x y _ _ h := decide_eq_true (not_lt.mp (of_decide_eq_false h))
  le_width := by decide +kernel
  le_height := by decide +kernel
  le_left x _ _ := decide_eq_true (le_refl x)
  le_right _ y _ := decide_eq_true (le_refl y)
  walk _ _ _ _ _ := ⟨decide_eq_true (le_refl _), decide_eq_true (le_refl _)⟩
  knockback _ _ _ _ := ⟨decide_eq_true (le_refl _), decide_eq_true (le_refl _)⟩

noncomputable instance : WorldMachine ℝ where
  le_of_not_lt x y _ _ h := decide_eq_true (not_lt.mp (of_decide_eq_false h))
  le_width := by
    rw [le_real, origin_real, width_real]
    norm_num
  le_height := by
    rw [le_real, origin_real, height_real]
    norm_num
  le_left x _ _ := decide_eq_true (le_refl x)
  le_right _ y _ := decide_eq_true (le_refl y)
  walk _ _ _ _ _ := ⟨decide_eq_true (le_refl _), decide_eq_true (le_refl _)⟩
  knockback _ _ _ _ := ⟨decide_eq_true (le_refl _), decide_eq_true (le_refl _)⟩

section

variable {F : Type} [WorldMachine F]

open WorldMachine

/-- What is kept between two limits is between them. -/
theorem clamp_mem {v lo hi : F} (hv : le v v = true) (h : le lo hi = true) :
    le lo (MyMMO.clamp v lo hi) = true ∧ le (MyMMO.clamp v lo hi) hi = true := by
  have hlo := le_left _ _ h
  have hhi := le_right _ _ h
  unfold MyMMO.clamp
  split_ifs with hbelow habove
  · exact ⟨hlo, h⟩
  · exact ⟨h, hhi⟩
  · exact ⟨le_of_not_lt _ _ hv hlo (by simpa using hbelow),
      le_of_not_lt _ _ hhi hv (by simpa using habove)⟩

theorem Position.inWorld_clamp {x y : F} (hx : le x x = true) (hy : le y y = true) :
    (Position.clamp x y).InWorld := by
  have hwidth := clamp_mem hx le_width
  have hheight := clamp_mem hy le_height
  exact ⟨hwidth.1, hwidth.2, hheight.1, hheight.2⟩

end

/-! ### Directions -/

/-- One of the 8 directions, an index of `kDirectionVectorTable`. -/
def Direction.Valid (direction : ℤ) : Prop := 0 ≤ direction ∧ direction < Direction.max

instance (direction : ℤ) : Decidable (Direction.Valid direction) :=
  inferInstanceAs (Decidable (_ ∧ _))

theorem valid_down : Direction.Valid Direction.down := by decide

section

variable {F : Type} [Machine F]

/-- A direction that is one is looked up within the table. -/
theorem directionVector_mem {direction : ℤ} (h : Direction.Valid direction) :
    (directionVector direction : F × F) ∈ kDirectionVectorTable := by
  obtain ⟨hnonneg, hlt⟩ := h
  have hlen : direction.toNat < (kDirectionVectorTable (F := F)).length := by
    change direction.toNat < 8
    unfold Direction.max at hlt
    omega
  unfold directionVector
  rw [if_pos hnonneg, List.getElem?_eq_getElem hlen]
  exact List.getElem_mem hlen

theorem bestDirection_valid {dx dy : F} {is : List ℤ}
    (his : ∀ i ∈ is, Direction.Valid i) {bestDot : F} {best : ℤ} (hbest : Direction.Valid best) :
    Direction.Valid (bestDirection dx dy is bestDot best) := by
  induction is generalizing bestDot best with
  | nil => exact hbest
  | cons i is ih =>
    unfold bestDirection
    dsimp only
    split_ifs
    · exact ih (fun j hj => his j (List.mem_cons_of_mem _ hj)) (his i List.mem_cons_self)
    · exact ih (fun j hj => his j (List.mem_cons_of_mem _ hj)) hbest

theorem getDirectionTo_valid (p target : Position F) :
    Direction.Valid (getDirectionTo p target) := by
  unfold getDirectionTo
  dsimp only
  split_ifs
  · decide
  · exact bestDirection_valid (by decide) (by decide)

theorem homeDirection_valid (m : Monster F) : Direction.Valid m.homeDirection := by
  unfold Monster.homeDirection
  dsimp only
  split_ifs <;> decide

/-! ### The directions of monsters -/

/-! Where a monster faces after each of its states has been updated. -/

section

variable {m m' : Monster F} {rands rands' : Rands}

theorem idleUpdate_direction (hm : Direction.Valid m.direction)
    (h : m.idleUpdate rands = .ok (m', rands')) :
    Direction.Valid m'.direction := by
  unfold Monster.idleUpdate at h
  dsimp only at h
  split_ifs at h
  · obtain ⟨m1, h1, h⟩ := bind_ok h
    cases h
    rw [(monster_changeState_eq h1).2]
    exact homeDirection_valid _
  · obtain ⟨m1, h1, h⟩ := bind_ok h
    cases h
    rw [(monster_changeState_eq h1).2]
    exact ⟨Int.emod_nonneg _ (by decide), Int.emod_lt_of_pos _ (by decide)⟩
  · cases h
    exact hm

theorem patrolUpdate_direction (hm : Direction.Valid m.direction)
    (h : m.patrolUpdate rands = .ok (m', rands')) :
    Direction.Valid m'.direction := by
  unfold Monster.patrolUpdate at h
  dsimp only at h
  split_ifs at h
  · obtain ⟨m1, h1, h⟩ := bind_ok h
    cases h
    rw [(monster_changeState_eq h1).2]
    exact hm
  · obtain ⟨m1, h1, h⟩ := bind_ok h
    cases h
    rw [(monster_changeState_eq h1).2]
    exact hm
  · cases h
    exact hm

theorem chaseUpdate_direction {target : Position F} (hm : Direction.Valid m.direction)
    (h : m.chaseUpdate target = .ok m') :
    Direction.Valid m'.direction := by
  unfold Monster.chaseUpdate at h
  dsimp only at h
  split_ifs at h
  · unfold Monster.giveUpChase at h
    split_ifs at h <;> rw [(monster_changeState_eq h).2] <;> exact hm
  · rw [(monster_changeState_eq h).2]
    exact getDirectionTo_valid _ _
  · cases h
    exact getDirectionTo_valid _ _
  · cases h
    exact hm

omit [Machine F] in
theorem attackUpdate_direction (hm : Direction.Valid m.direction) (h : m.attackUpdate = .ok m') :
    Direction.Valid m'.direction := by
  unfold Monster.attackUpdate at h
  split_ifs at h
  · rw [(monster_changeState_eq h).2]
    exact hm
  · cases h
    exact hm

omit [Machine F] in
theorem stunUpdate_direction (hm : Direction.Valid m.direction) (h : m.stunUpdate = .ok m') :
    Direction.Valid m'.direction := by
  unfold Monster.stunUpdate at h
  split_ifs at h
  · cases h
    exact hm
  · rw [(monster_changeState_eq h).2]
    exact hm

omit [Machine F] in
theorem deadUpdate_direction (hm : Direction.Valid m.direction) (h : m.deadUpdate = .ok m') :
    Direction.Valid m'.direction := by
  unfold Monster.deadUpdate at h
  split_ifs at h
  · obtain ⟨m1, h1, h⟩ := bind_ok h
    cases h
    rw [(monster_changeState_eq h1).2]
    exact hm
  · cases h
    exact hm

theorem returnUpdate_direction (hm : Direction.Valid m.direction) (h : m.returnUpdate = .ok m') :
    Direction.Valid m'.direction := by
  unfold Monster.returnUpdate at h
  split_ifs at h
  · obtain ⟨m1, h1, h⟩ := bind_ok h
    cases h
    rw [(monster_changeState_eq h1).2]
    exact hm
  · obtain ⟨m1, h1, h⟩ := bind_ok h
    cases h1
    cases h
    exact getDirectionTo_valid _ _
  · obtain ⟨m1, h1, h⟩ := bind_ok h
    cases h1
    cases h
    exact hm

theorem update_direction (hm : Direction.Valid m.direction)
    (h : m.update rands = .ok (m', rands')) :
    Direction.Valid m'.direction := by
  have hn : Direction.Valid { m with animFrame := m.animFrame + 1 }.direction := hm
  unfold Monster.update at h
  dsimp only at h
  generalize ({ m with animFrame := m.animFrame + 1 } : Monster F) = n at h hn
  split at h
  · exact idleUpdate_direction hn h
  · exact patrolUpdate_direction hn h
  · obtain ⟨m1, h1, h⟩ := bind_ok h
    cases h
    exact chaseUpdate_direction hn h1
  · obtain ⟨m1, h1, h⟩ := bind_ok h
    cases h
    exact attackUpdate_direction hn h1
  · obtain ⟨m1, h1, h⟩ := bind_ok h
    cases h
    exact stunUpdate_direction hn h1
  · obtain ⟨m1, h1, h⟩ := bind_ok h
    cases h
    exact deadUpdate_direction hn h1
  · obtain ⟨m1, h1, h⟩ := bind_ok h
    cases h
    exact returnUpdate_direction hn h1

end

theorem monster_takeDamage_direction {m m' : Monster F} {damage : ℤ} {p : Player F} {q : ℕ}
    (hm : Direction.Valid m.direction) (h : m.takeDamage damage p q = .ok m') :
    Direction.Valid m'.direction := by
  unfold Monster.takeDamage at h
  dsimp only at h
  split_ifs at h
  · cases h
    exact hm
  · rw [(monster_changeState_eq h).2]
    exact getDirectionTo_valid _ _
  · cases h
    exact getDirectionTo_valid _ _
  · rw [(monster_changeState_eq h).2]
    exact getDirectionTo_valid _ _

theorem nextMonster_direction {s : State F} {id : ℤ} {m : Monster F} {rands : Rands}
    (hm : Direction.Valid (s.monster id).direction) (h : nextMonster s id = .ok (m, rands)) :
    Direction.Valid m.direction := by
  unfold nextMonster at h
  dsimp only at h
  split_ifs at h
  · split at h
    · obtain ⟨m1, h1, h⟩ := bind_ok h
      cases h1
      refine update_direction ?_ h
      exact hm
    · obtain ⟨m1, h1, h⟩ := bind_ok h
      refine update_direction ?_ h
      unfold Monster.giveUpChase at h1
      split_ifs at h1 <;> rw [(monster_changeState_eq h1).2] <;> exact hm
  · obtain ⟨m1, h1, h⟩ := bind_ok h
    cases h1
    refine update_direction ?_ h
    exact hm

/-- Every monster faces in one of the directions. -/
def Headed (s : State F) : Prop := ∀ id ∈ s.monsters, Direction.Valid (s.monster id).direction

section

variable {s t : State F}

omit [Machine F] in
theorem Spares.headed (hs : Spares s t) (h : Headed s) : Headed t := by
  intro id hid
  rw [hs.monster]
  exact h id (hs.monsters ▸ hid)

omit [Machine F] in
theorem headed_setMonster {id : ℤ} {m : Monster F} (h : Headed s) (hm : Direction.Valid m.direction)
    (ht : ∀ id', t.monster id' = (s.setMonster id m).monster id') (hms : t.monsters = s.monsters) :
    Headed t := by
  intro id' hid
  rw [ht, setMonster_monster]
  split_ifs
  · exact hm
  · exact h id' (hms ▸ hid)

theorem Act.headed (ha : Act s t) (h : Headed s) : Headed t := by
  cases ha.stirs with
  | spares hs => exact hs.headed h
  | hit q id m hid hstate hm ht =>
    exact ht.headed (headed_setMonster h (monster_takeDamage_direction (h id hid) hm)
      (fun _ => rfl) rfl)
  | cross q hq =>
    obtain ⟨sent, hrest⟩ := cross_rest (s := s) q
    rw [hrest]
    exact h
  | enter q p hq => exact h
  | rehash hp hps hm hms hsent =>
    intro id hid
    rw [hm]
    exact h id (hms.mem_iff.mp hid)

theorem MonsterAct.headed {id : ℤ} (ha : MonsterAct id s t) (h : Headed s) : Headed t := by
  cases ha with
  | update m rands hid hm =>
    have hnext := nextMonster_direction (h id hid) hm
    have hdirection : Direction.Valid (updateMonsterSectorCheck m).direction := by
      rw [updateMonsterSectorCheck_eq]
      exact hnext
    exact headed_setMonster h hdirection (fun _ => rfl) rfl
  | cross hid hstate hne =>
    exact headed_setMonster (m := { s.monster id with sector := (s.monster id).destSector }) h
      (h id hid) (fun _ => rfl) rfl
  | proc ht =>
    have hsettle : ∀ u : State F, Headed u → Headed (u.settle id) := by
      intro u hu id' hid'
      unfold State.settle
      rw [setMonster_monster]
      split_ifs with he
      · exact he ▸ hu id' hid'
      · exact hu id' hid'
    cases ht with
    | respawnAway hid hstate hbefore hne =>
      refine hsettle _ (headed_setMonster (m := { s.monster id with
        sector := (s.monster id).destSector }) h (h id hid) (fun _ => rfl) rfl)
    | _ => exact hsettle _ h

end

end

/-! ### Players -/

/-- The direction of the player is one, and it is in the world, as where it set out from. -/
structure Player.Kinematic {F : Type} [Machine F] (p : Player F) : Prop where
  direction : Direction.Valid p.direction
  pos : p.pos.InWorld
  startMovePos : p.startMovePos.InWorld
  speed : p.speed = lit 4.5

section

variable {F : Type} [WorldMachine F] {p p' : Player F}

open WorldMachine

theorem Player.Kinematic.moveUpdate (h : p.Kinematic) : p.moveUpdate.Kinematic := by
  refine ⟨h.direction, ?_, h.startMovePos, h.speed⟩
  obtain ⟨hx, hy⟩ :=
    walk p.startMovePos h.startMovePos _ (directionVector_mem h.direction) p.animFrame
  unfold Player.moveUpdate
  dsimp only
  rw [h.speed]
  exact Position.inWorld_clamp hx hy

theorem Player.Kinematic.changeState (h : p.Kinematic) {state : PlayerState}
    (hp : p.changeState state = .ok p') :
    p'.Kinematic := by
  rw [(changeState_eq hp).2]
  exact ⟨h.direction, h.pos, h.pos, h.speed⟩

theorem Player.Kinematic.update (h : p.Kinematic) (hp : p.update = .ok p') : p'.Kinematic := by
  have hframe : Player.Kinematic { p with animFrame := p.animFrame + 1 } :=
    ⟨h.direction, h.pos, h.startMovePos, h.speed⟩
  unfold Player.update at hp
  dsimp only at hp
  split at hp
  · cases hp
    exact h
  · split at hp
    · cases hp
      exact hframe.moveUpdate
    · split at hp
      · exact hframe.changeState hp
      · cases hp
        exact hframe
    · split at hp
      · cases hp
        exact ⟨h.direction, h.pos, h.startMovePos, h.speed⟩
      · exact hframe.changeState hp
    · cases hp
      exact hframe
    · cases hp
      exact hframe

/-- Who is hit faces the monster, and is not knocked out of the world. -/
theorem Player.Kinematic.takeDamage (h : p.Kinematic) {damage : ℤ} {m : Monster F}
    (hm : Direction.Valid m.direction) (hp : p.takeDamage damage m = .ok p') : p'.Kinematic := by
  obtain ⟨hx, hy⟩ := knockback p.pos h.pos _ (directionVector_mem hm)
  have hpos := Position.inWorld_clamp hx hy
  have hdirection := getDirectionTo_valid p.pos m.pos
  unfold Player.takeDamage at hp
  dsimp only at hp
  split_ifs at hp
  · cases hp
    exact h
  · rw [(changeState_eq hp).2]
    exact ⟨hdirection, hpos, hpos, h.speed⟩
  · cases hp
    exact ⟨hdirection, hpos, hpos, h.speed⟩
  · rw [(changeState_eq hp).2]
    exact ⟨hdirection, hpos, hpos, h.speed⟩

theorem kinematic_place (h : p.Kinematic) {packetPos : Position F}
    {direction : ℤ} (hpos : packetPos.InWorld) (hdirection : Direction.Valid direction) :
    (p.place packetPos direction).Kinematic := by
  unfold Player.place
  rw [syncCheck_eq]
  exact ⟨hdirection, hpos, h.startMovePos, h.speed⟩

theorem kinematic_entered (q : ℕ)
    (accountNo characterID : ℤ) {pos : Position F} (nickname : List UInt8) (hpos : pos.InWorld) :
    (entered q accountNo characterID pos nickname).Kinematic := by
  refine ⟨valid_down, hpos, ?_, rfl⟩
  exact ⟨le_left _ _ le_width, le_width, le_left _ _ le_width, le_height⟩

end

/-! ### Runs -/

section

variable {F : Type}

/-- A player is loaded from a position in the world. -/
def loaded [Machine F] (_ : State F) : Step F → Bool
  | .registerPlayer _ _ _ pos _ => pos.InWorld
  | _ => true

/-- And a move that is taken reports a direction, a MOVE_START a position in the world. -/
def inOrder [Machine F] (s : State F) : Step F → Bool
  | .registerPlayer _ _ _ pos _ => pos.InWorld
  | .contentsPacket q msg =>
    let p := s.player q
    match msg.readInt 2 with
    | .error _ => true
    | .ok (type, msg) =>
      match (readReport msg : Except Stop (Position F × ℤ)) with
      | .error _ => true
      | .ok (packetPos, direction) =>
        if type = PacketType.MOVE_START ∧ p.starts then
          packetPos.InWorld ∧ Direction.Valid direction
        else if type = PacketType.MOVE_STOP ∧ p.stops ∧ !p.outOfSync packetPos then
          Direction.Valid direction
        else true
  | _ => true

def Loaded [Machine F] (s : State F) (l : Step F) : Prop := loaded s l = true

def InOrder [Machine F] (s : State F) (l : Step F) : Prop := inOrder s l = true

/-- Everybody is where a player can be, and everything faces in a direction. -/
structure Kinematic [Machine F] (s : State F) : Prop where
  players : ∀ q ∈ s.players, (s.player q).Kinematic
  headed : Headed s

section

variable [Machine F] {s t : State F} {q : ℕ} {p : Player F}

theorem Kinematic.same (h : Kinematic s) (hst : SamePlayers s t) (ht : Headed t) : Kinematic t := by
  refine ⟨fun q hq => ?_, ht⟩
  rw [hst.player]
  rw [hst.players] at hq
  exact h.players q hq

theorem Kinematic.rewrites (h : Kinematic s) (hst : Rewrites q p s t) (ht : Headed t)
    (hp : (s.player q).Kinematic → p.Kinematic) : Kinematic t := by
  refine ⟨fun q' hq' => ?_, ht⟩
  rw [hst.players] at hq'
  have hkinematic := h.players q' hq'
  by_cases he : q' = q
  · subst he
    rw [hst.self]
    exact hp hkinematic
  · rw [hst.of_ne he]
    exact hkinematic

theorem Kinematic.enters (h : Kinematic s) (hst : Enters q p s t) (ht : Headed t)
    (hp : p.Kinematic) : Kinematic t := by
  refine ⟨fun q' hq' => ?_, ht⟩
  rw [hst.players] at hq'
  rw [hst.player, Function.update_apply]
  split_ifs with he
  · exact hp
  · exact h.players q' ((List.mem_cons.mp hq').resolve_left he)

theorem Kinematic.handBack (h : Kinematic s) (q : ℕ) : Kinematic (s.handBack q) := by
  refine ⟨fun q' hq' => ?_, h.headed⟩
  have hkinematic := h.players q' (List.mem_of_mem_erase hq')
  change (Function.update s.player q { s.player q with savePending := false } q').Kinematic
  rw [Function.update_apply]
  split_ifs with he
  · subst he
    exact ⟨hkinematic.direction, hkinematic.pos, hkinematic.startMovePos, hkinematic.speed⟩
  · exact hkinematic

theorem Ticks.headed (hst : Ticks s t) (h : Headed s) : Headed t := by
  refine hst.keeps (P := Headed) (fun hs ha => ha.headed hs) (fun hs ha => ha.headed hs)
    (fun hs ha => ?_) h
  cases ha <;> exact hs

end

/-- A step that does nothing to where a player is and where it faces. -/
theorem Player.Kinematic.of_eq {F : Type} [Machine F] {p p' : Player F} (h : p.Kinematic)
    (hdirection : p'.direction = p.direction) (hpos : p'.pos = p.pos)
    (hstart : p'.startMovePos = p.startMovePos) (hspeed : p'.speed = p.speed) : p'.Kinematic :=
  ⟨by rw [hdirection]; exact h.direction, by rw [hpos]; exact h.pos,
    by rw [hstart]; exact h.startMovePos, by rw [hspeed]; exact h.speed⟩

variable [WorldMachine F] {s t : State F} {q : ℕ}

theorem InOrder.start {msg rest : Message} {packetPos : Position F} {direction : ℤ}
    (h : InOrder s (.contentsPacket q msg))
    (htype : msg.readInt 2 = .ok (PacketType.MOVE_START, rest))
    (hreport : readReport rest = .ok (packetPos, direction)) (hstart : (s.player q).starts = true) :
    packetPos.InWorld ∧ Direction.Valid direction := by
  unfold InOrder inOrder at h
  dsimp only at h
  rw [htype] at h
  dsimp only at h
  rw [hreport] at h
  dsimp only at h
  rw [if_pos ⟨rfl, hstart⟩] at h
  exact of_decide_eq_true h

theorem InOrder.stop {msg rest : Message}
    {packetPos : Position F} {direction : ℤ} (h : InOrder s (.contentsPacket q msg))
    (htype : msg.readInt 2 = .ok (PacketType.MOVE_STOP, rest))
    (hreport : readReport rest = .ok (packetPos, direction)) (hstop : (s.player q).stops = true)
    (hsync : (s.player q).outOfSync packetPos = false) : Direction.Valid direction := by
  unfold InOrder inOrder at h
  dsimp only at h
  rw [htype] at h
  dsimp only at h
  rw [hreport] at h
  dsimp only at h
  rw [if_neg (fun hstart => absurd hstart.1 (by decide)),
    if_pos ⟨rfl, hstop, by rw [hsync]; rfl⟩] at h
  exact of_decide_eq_true h

theorem Kinematic.contentsPacket (h : Kinematic s) {msg : Message}
    (hconnect : (s.player q).connect = true) (horder : InOrder s (.contentsPacket q msg))
    (he : fieldContentsPacketProc s msg q = .ok t) : Kinematic t := by
  have ht : Headed t := (acts_fieldContentsPacketProc hconnect he).calms.ticks.headed h.headed
  obtain ⟨type, rest, htype, he⟩ := fieldContentsPacketProc_cases he
  rcases he with ⟨rfl, he⟩ | ⟨rfl, he⟩ | he | he | hsame
  · rcases handleMoveStart_player he with ⟨syncCnt, hst, -⟩ |
        ⟨packetPos, direction, p, hreport, hstart, -, hp, hst⟩
    · exact h.rewrites hst ht fun hk => hk.of_eq rfl rfl rfl rfl
    · obtain ⟨hpos, hdirection⟩ := horder.start htype hreport hstart
      exact h.rewrites hst ht fun hk => (kinematic_place hk hpos hdirection).changeState hp
  · rcases handleMoveStop_player he with ⟨syncCnt, hst, -⟩ |
        ⟨packetPos, direction, p, hreport, hstop, hsync, hpos, hp, hst⟩
    · exact h.rewrites hst ht fun hk => hk.of_eq rfl rfl rfl rfl
    · have hdirection := horder.stop htype hreport hstop hsync
      refine h.rewrites hst ht fun hk => ?_
      rcases hp with rfl | hp
      · exact kinematic_place hk hpos hdirection
      · exact (kinematic_place hk hpos hdirection).changeState hp
  · rcases handleAttackReq_player he with hsame | ⟨p, skillId, targets, -, hp, hst⟩
    · exact h.same hsame ht
    · exact h.rewrites hst ht fun hk => (hk.changeState hp).of_eq rfl rfl rfl rfl
  · rcases handleLootReq_player he with hsame | ⟨id, hst⟩
    · exact h.same hsame ht
    · exact h.rewrites hst ht fun hk => hk.of_eq rfl rfl rfl rfl
  · exact h.same hsame ht

theorem Kinematic.updatePlayers (h : Kinematic s) (he : s.players.foldlM updatePlayer s = .ok t) :
    Kinematic t := by
  have hloop := foldlM_keeps (P := fun u => Kinematic u ∧ u.players = s.players) ?_ ⟨h, rfl⟩ he
  · exact hloop.1
  · intro u v q hq hu hv
    rw [← hu.2] at hq
    obtain ⟨hticks, hplayers⟩ := ticks_updatePlayer hq hv
    obtain ⟨p, targets, destSector, hp, hst⟩ := updatePlayer_self hv
    refine ⟨hu.1.rewrites hst (hticks.headed hu.1.headed) fun hk => ?_, hplayers.trans hu.2⟩
    exact (hk.update hp).of_eq rfl rfl rfl rfl

theorem Kinematic.updateSectors (h : Kinematic s) (he : s.players.foldlM updateSector s = .ok t) :
    Kinematic t := by
  have hloop := foldlM_keeps (P := fun u => Kinematic u ∧ u.players = s.players) ?_ ⟨h, rfl⟩ he
  · exact hloop.1
  · intro u v q hq hu hv
    rw [← hu.2] at hq
    obtain ⟨hacts, hplayers⟩ := acts_updateSector hq hv
    refine ⟨hu.1.rewrites (updateSector_player hv) (hacts.calms.ticks.headed hu.1.headed) fun hk =>
      ?_, hplayers.trans hu.2⟩
    exact hk.of_eq rfl rfl rfl rfl

theorem Kinematic.updateMonsters (h : Kinematic s)
    (he : s.monsters.foldlM updateMonster s = .ok t) : Kinematic t := by
  have hloop := foldlM_keeps (P := fun u => Kinematic u ∧ u.monsters = s.monsters) ?_ ⟨h, rfl⟩ he
  · exact hloop.1
  · intro u v id hid hu hv
    rw [← hu.2] at hid
    obtain ⟨hcalms, hmonsters⟩ := calms_updateMonster hid hv
    have hheaded := hcalms.ticks.headed hu.1.headed
    refine ⟨?_, hmonsters.trans hu.2⟩
    rcases updateMonster_player hv with hsame | ⟨m, rands, q, p, hm, -, -, -, hp, hst⟩
    · exact hu.1.same hsame hheaded
    · exact hu.1.rewrites hst hheaded fun hk =>
        hk.takeDamage (nextMonster_direction (hu.1.headed id hid) hm) hp

theorem Kinematic.updateMonsterSectors (h : Kinematic s)
    (he : s.monsters.foldlM updateMonsterSector s = .ok t) :
    Kinematic t := by
  have hloop := foldlM_keeps (P := fun u => Kinematic u ∧ u.monsters = s.monsters) ?_ ⟨h, rfl⟩ he
  · exact hloop.1
  · intro u v id hid hu hv
    rw [← hu.2] at hid
    obtain ⟨hcalms, hmonsters⟩ := calms_updateMonsterSector hid hv
    exact ⟨hu.1.same (updateMonsterSector_player hv) (hcalms.ticks.headed hu.1.headed),
      hmonsters.trans hu.2⟩

theorem Kinematic.updateItem (h : Kinematic s) {id : ℤ} (he : updateItem s id = .ok t) :
    Kinematic t := by
  refine h.same (updateItem_player he) ?_
  unfold Field.updateItem at he
  dsimp only at he
  split at he
  · obtain ⟨near, -, he⟩ := bind_ok he
    cases he
    exact h.headed
  · cases he
    exact h.headed

theorem Kinematic.fieldUpdate (h : Kinematic s) (he : fieldUpdate s = .ok t) : Kinematic t := by
  unfold Field.fieldUpdate at he
  obtain ⟨s1, h1, he⟩ := bind_ok he
  obtain ⟨s2, h2, he⟩ := bind_ok he
  obtain ⟨s3, h3, he⟩ := bind_ok he
  obtain ⟨s4, h4, he⟩ := bind_ok he
  have hstart : Kinematic (s.record .fieldUpdate) := ⟨h.players, h.headed⟩
  have hk1 := Kinematic.updatePlayers hstart h1
  have hk4 := ((hk1.updateSectors h2).updateMonsters h3).updateMonsterSectors h4
  exact foldlM_keeps (P := Kinematic) (fun _ _ _ _ hu hv => hu.updateItem hv) hk4 he

theorem Kinematic.monsterProc (h : Kinematic s) (he : monsterProc s = .ok t) : Kinematic t := by
  have hloop := foldlM_keeps (P := fun u => Kinematic u ∧ u.monsters = s.monsters) ?_ ⟨h, rfl⟩ he
  · exact hloop.1
  · intro u v id hid hu hv
    rw [← hu.2] at hid
    obtain ⟨hcalms, hmonsters⟩ := calms_procMonster hid hv
    exact ⟨hu.1.same (procMonster_player hid hv) (hcalms.ticks.headed hu.1.headed),
      hmonsters.trans hu.2⟩

theorem Kinematic.saveDisconnected (h : Kinematic s) (he : saveDisconnected s q = .ok t) :
    Kinematic t := by
  rcases saveDisconnected_cases he with rfl | ⟨-, -, rfl⟩
  · exact h
  · refine ⟨fun q' hq' => ?_, h.headed⟩
    change (Function.update s.player q { s.player q with savePending := true } q').Kinematic
    rw [Function.update_apply]
    split_ifs with hq
    · exact (h.players q (hq ▸ hq')).of_eq rfl rfl rfl rfl
    · exact h.players q' hq'

theorem Kinematic.dbResult (h : Kinematic s) {result : DBResult} (he : dbResult s result = .ok t) :
    Kinematic t := by
  rcases dbResult_cases he with ⟨-, rfl | ⟨q, packet, -, -, rfl⟩⟩ | ⟨q, -, -, rfl⟩
  · exact h
  · exact ⟨h.players, h.headed⟩
  · exact h.handBack q

theorem kinematic_step {l : Step F} (h : Kinematic s) (horder : InOrder s l)
    (he : step s l = some (.ok t)) : Kinematic t := by
  have hcalms := step_cases he
  cases l with
  | fieldUpdate => exact h.fieldUpdate (Option.some.inj he)
  | monsterProc => exact h.monsterProc (Option.some.inj he)
  | checkDisConnected =>
    exact foldlM_keeps (P := Kinematic) (fun _ _ _ _ hu hv => hu.saveDisconnected hv) h
      (Option.some.inj he)
  | dbResults =>
    have hstart : Kinematic { s with dbResQ := [] } := ⟨h.players, h.headed⟩
    exact foldlM_keeps (P := Kinematic) (fun _ _ _ _ hu hv => hu.dbResult hv) hstart
      (Option.some.inj he)
  | registerPlayer q accountNo characterID pos nickname =>
    unfold step at he
    dsimp only at he
    split_ifs at he with hnew
    have hticks := (acts_handleRegisterPlayer hnew.1 hnew.2 (Option.some.inj he)).calms.ticks
    exact h.enters (handleRegisterPlayer_player (Option.some.inj he)) (hticks.headed h.headed)
      (kinematic_entered q accountNo characterID nickname (of_decide_eq_true horder))
  | contentsPacket q msg =>
    unfold step at he
    dsimp only at he
    split_ifs at he with hq
    exact h.contentsPacket hq.2 horder (Option.some.inj he)
  | onRelease q =>
    cases he
    refine ⟨fun q' hq' => ?_, h.headed⟩
    change (Function.update s.player q { s.player q with connect := false } q').Kinematic
    rw [Function.update_apply]
    split_ifs with hq
    · exact (h.players q (hq ▸ hq')).of_eq rfl rfl rfl rfl
    · exact h.players q' hq'
  | _ =>
    have hshuffles := shuffles_step rfl he
    obtain hcalms | ⟨hl, -⟩ | ⟨hl, -⟩ | ⟨_, hl, -⟩ := hcalms
    · refine ⟨fun q hq => ?_, hcalms.ticks.headed h.headed⟩
      rw [hshuffles.player]
      exact h.players q (hshuffles.players.mem_iff.mp hq)
    all_goals cases hl

omit [WorldMachine F] in
theorem headed_spawnMonsters [Machine F] (rands : Rands) :
    Headed (spawnMonsters (empty rands) : State F) := by
  unfold spawnMonsters
  apply List.foldlRecOn
  · intro id hid
    cases hid
  · intro s h cell _
    unfold spawnMonster
    dsimp only
    split_ifs
    · exact h
    · intro id hid
      dsimp only
      rw [setMonster_monster]
      split_ifs with he
      · exact valid_down
      · exact h id ((List.mem_cons.mp hid).resolve_left he)

/-- In a run in which what is reported is in order, everybody stays in the world and looks up its
own row of the table. -/
theorem kinematic (h : (field.restrict InOrder).Reachable s) :
    (∀ q ∈ s.players, Direction.Valid (s.player q).direction ∧ (s.player q).pos.InWorld) ∧
      ∀ id ∈ s.monsters, Direction.Valid (s.monster id).direction := by
  have hinv : (field.restrict InOrder).Invariant (Kinematic (F := F)) := by
    apply System.restrict_invariant
    · intro s hs
      obtain ⟨rands, hs⟩ := hs
      rw [hs]
      refine ⟨fun q hq => ?_, headed_spawnMonsters rands⟩
      rw [(fresh_spawnMonsters rands).nobody.1] at hq
      cases hq
    · intro s t l hs hl he
      exact kinematic_step hs hl (field_next.mp he)
  have hkinematic := hinv.reachable h
  exact ⟨fun q hq => ⟨(hkinematic.players q hq).direction, (hkinematic.players q hq).pos⟩,
    hkinematic.headed⟩

end

/-- Session 1 of `killRun` reports what it should. -/
theorem kinematic_killRun : ∃ s : State ℚ, 1 ∈ s.players ∧ (s.player 1).direction = 6 ∧
    Direction.Valid (s.player 1).direction := by
  have hrun : (field.execIf inOrder oneMonster killRun).any (fun s => 1 ∈ s.players ∧
      (s.player 1).direction = 6) = true := by
    decide +kernel
  obtain ⟨s, hs, hp⟩ := Option.any_eq_true _ _ |>.mp hrun
  obtain ⟨hq, hdirection⟩ := of_decide_eq_true hp
  have hreach : (field.restrict InOrder).Reachable s :=
    System.Reachable.execIf (fun _ _ h => h) _ (.start oneMonster_init) hs
  exact ⟨s, hq, hdirection, ((kinematic hreach).1 1 hq).1⟩

/-- MOVE_START at (-50, 0). -/
def strayMsg : Message :=
  packet [106, 0, 0, 0, 0, 0, 0, 0, 0, 0, 0, 0, 0x48, 0xC2, 0, 0, 0, 0, 6, 0, 0, 0x90, 0x40]

/-- A MOVE_START takes session 1 out of the world, or turns it to a row 8 of the table. -/
theorem strays : ¬ (∀ s : State ℚ, (field.restrict Loaded).Reachable s → ∀ q ∈ s.players,
      (s.player q).pos.InWorld) ∧
    ¬ ∀ s : State ℚ, (field.restrict Loaded).Reachable s →
      ∀ q ∈ s.players, Direction.Valid (s.player q).direction := by
  have hrun : ∀ msg (P : State ℚ → Bool), (field.execIf loaded oneMonster
      [.registerPlayer 1 7 11 ⟨0, 0⟩ [], .contentsPacket 1 msg]).any P = true →
      ∃ s, (field.restrict Loaded).Reachable s ∧ P s = true := by
    intro msg P h
    obtain ⟨s, hs, hp⟩ := Option.any_eq_true _ _ |>.mp h
    exact ⟨s, System.Reachable.execIf (fun _ _ h => h) _ (.start oneMonster_init) hs, hp⟩
  constructor
  · intro hall
    obtain ⟨s, hs, hp⟩ :=
      hrun strayMsg (fun s => 1 ∈ s.players ∧ ¬ (s.player 1).pos.InWorld) (by decide +kernel)
    obtain ⟨hq, hout⟩ := of_decide_eq_true hp
    exact hout (hall s hs 1 hq)
  · intro hall
    obtain ⟨s, hs, hp⟩ := hrun (moveStartMsg 8) (fun s => 1 ∈ s.players ∧
      ¬ Direction.Valid (s.player 1).direction) (by decide +kernel)
    obtain ⟨hq, hout⟩ := of_decide_eq_true hp
    exact hout (hall s hs 1 hq)

end Field
end MyMMO
