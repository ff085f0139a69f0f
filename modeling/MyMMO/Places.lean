/-
# Where a monster is registered

`mSector` follows `mDestSector`, which `updateMonsterSectorCheck` writes only when a monster has
left `mSector`. A monster killed by a knockback over a border keeps the sector that it was to cross
into, and one that comes back in `mSector` is taken there (`astray`). In the runs in which none
does, a living monster is registered where it is at the end of every tick (`monsters_placed`).
-/
import MyMMO.Lives
import MyMMO.MonsterMoves

namespace MyMMO
namespace Field

open Outcome
open Sector (getAroundSectors getAroundSectors_ok)

variable {F : Type} [Machine F]

/-! ### A monster in a tick -/

/-- It comes back in this tick where it is registered, and it is to cross. -/
def Monster.Astray (m : Monster F) : Prop :=
  m.state = .dead ∧ MONSTER_RESPAWN_FRAME ≤ m.animFrame + 1 ∧ calcSector m.spawnPos = m.sector ∧
    m.destSector ≠ m.sector

instance (m : Monster F) : Decidable m.Astray := inferInstanceAs (Decidable (_ ∧ _))

/-- A living monster is registered where it is. -/
def Monster.Placed (m : Monster F) : Prop :=
  m.state ≠ .dead → m.sector = m.destSector ∧ m.destSector = calcSector m.pos

/-- Before its tick. -/
structure Monster.Ready (m : Monster F) : Prop where
  placed : m.state ≠ .dead → m.sector = m.destSector
  home : ¬m.Astray

/-- After its tick. -/
structure Monster.Checked (m : Monster F) : Prop where
  dest : m.beforeState ≠ .dead ∨ m.state ≠ .dead → m.destSector = calcSector m.pos
  back : m.beforeState = .dead → m.state ≠ .dead → m.state = .idle

/-- After it has crossed. -/
structure Monster.Arrived (m : Monster F) : Prop extends m.Checked where
  sector : m.beforeState ≠ .dead → m.sector = m.destSector

section

variable {s t : State F} {id : ℤ} {m : Monster F} {rands : Rands}

/-- A dead monster comes back after its 500 frames. -/
theorem nextMonster_respawn (h : nextMonster s id = .ok (m, rands))
    (hdead : (s.monster id).state = .dead) :
    m.state = .dead ∨ MONSTER_RESPAWN_FRAME ≤ (s.monster id).animFrame + 1 ∧ m.state = .idle ∧
      m.pos = (s.monster id).spawnPos := by
  have hupdate := nextMonster_update h (by rw [hdead]; decide)
  rw [update_dead (by exact hdead)] at hupdate
  split_ifs at hupdate with hframe
  · cases hupdate
    exact Or.inr ⟨hframe, rfl, rfl⟩
  · cases hupdate
    exact Or.inl hdead

theorem Monster.Ready.checked (h : (s.monster id).Ready) (hm : nextMonster s id = .ok (m, rands)) :
    (updateMonsterSectorCheck m).Checked := by
  have heq := nextMonster_eq hm
  have hbefore : m.beforeState = (s.monster id).state := by rw [heq]
  have hsector : m.sector = (s.monster id).sector := by rw [heq]
  have hdest : m.destSector = (s.monster id).destSector := by rw [heq]
  -- the check leaves a sector that is not the monster's only where the monster has died
  have hcheck : (m.sector = calcSector m.pos → m.sector = m.destSector) →
      (updateMonsterSectorCheck m).destSector = calcSector m.pos := by
    intro hstay
    unfold updateMonsterSectorCheck
    dsimp only
    split_ifs with hsame
    · rw [hsame, hstay hsame.symm]
    · rfl
  rw [updateMonsterSectorCheck_eq] at hcheck ⊢
  refine ⟨fun halive => ?_, fun hdead hstate => ?_⟩
  · dsimp only at halive hcheck ⊢
    rw [hbefore] at halive
    refine hcheck fun hsame => ?_
    by_cases hdead : (s.monster id).state = .dead
    · obtain ⟨hframe, -, hpos⟩ :=
        (nextMonster_respawn hm hdead).resolve_left (halive.resolve_left fun hne => hne hdead)
      by_contra hne
      rw [hsector, hdest] at hne
      rw [hsector, hpos] at hsame
      exact h.home ⟨hdead, hframe, hsame.symm, fun he => hne he.symm⟩
    · rw [hsector, hdest]
      exact h.placed hdead
  · dsimp only at hdead hstate ⊢
    rw [hbefore] at hdead
    exact ((nextMonster_respawn hm hdead).resolve_left hstate).2.1

/-- A hit leaves a monster where it is registered. -/
theorem Monster.Ready.hit {m m' : Monster F} (h : m.Ready) (hstate : m.state ≠ .dead) {damage : ℤ}
    {p : Player F} {q : ℕ} (hm : m.takeDamage damage p q = .ok m') : m'.Ready := by
  have heq := monster_takeDamage_eq hm
  have hsector : m'.sector = m.sector := by rw [heq]
  have hdest : m'.destSector = m.destSector := by rw [heq]
  refine ⟨fun _ => ?_, fun hastray => ?_⟩
  · rw [hsector, hdest]
    exact h.placed hstate
  · apply hastray.2.2.2
    rw [hsector, hdest, h.placed hstate]

omit [Machine F] in
/-- The monsters are the same. -/
structure SameMonsters (s t : State F) : Prop where
  monster : t.monster = s.monster
  monsters : t.monsters.Perm s.monsters

/-- All monsters are in `P`. -/
def Each (P : Monster F → Prop) (s : State F) : Prop := ∀ id ∈ s.monsters, P (s.monster id)

omit [Machine F] in
theorem SameMonsters.each {P : Monster F → Prop} (hst : SameMonsters s t) (h : Each P s) :
    Each P t := by
  intro id hid
  rw [hst.monster]
  exact h id (hst.monsters.mem_iff.mp hid)

omit [Machine F] in
theorem Spares.same (h : Spares s t) : SameMonsters s t := ⟨h.monster, by rw [h.monsters]⟩

omit [Machine F] in
theorem SameMonsters.trans {u : State F} (h : SameMonsters s t) (h' : SameMonsters t u) :
    SameMonsters s u :=
  ⟨h'.monster.trans h.monster, h'.monsters.trans h.monsters⟩

/-- Hits leave the monsters ready for their tick. -/
theorem Act.ready (ha : Act s t) (h : Each Monster.Ready s) : Each Monster.Ready t := by
  cases ha.stirs with
  | spares ht => exact ht.same.each h
  | hit q id m hid hstate hm ht =>
    have hhit : Each Monster.Ready (s.hitMonster q id m) := by
      intro id' hid'
      change ((s.setMonster id m).monster id').Ready
      rw [setMonster_monster]
      split_ifs with he
      · exact (h id hid).hit hstate hm
      · exact h id' hid'
    exact ht.same.each hhit
  | cross q hq =>
    obtain ⟨sent, hrest⟩ := cross_rest (s := s) q
    rw [hrest]
    exact h
  | enter q p hq => exact h
  | rehash hp hps hm hms hsent => exact SameMonsters.each ⟨hm, hms⟩ h

theorem Acts.ready (ha : Acts s t) (h : Each Monster.Ready s) : Each Monster.Ready t :=
  ha.keeps (P := Each Monster.Ready) (fun h ha => ha.ready h) h

theorem ready_updatePlayers (h : Each Monster.Ready s)
    (he : s.players.foldlM updatePlayer s = .ok t) :
    Each Monster.Ready t := by
  have hloop :=
    foldlM_keeps (P := fun u => Each Monster.Ready u ∧ u.players = s.players) ?_ ⟨h, rfl⟩ he
  · exact hloop.1
  · intro u v q hq hu hv
    rw [← hu.2] at hq
    obtain ⟨w, hw, hacts, hplayers⟩ := act_updatePlayer hq hv
    exact ⟨hacts.ready (hw.spares.same.each hu.1), hplayers.trans hu.2⟩

omit [Machine F] in
/-- A loop over the monsters that takes each of them from `A` to `B`. -/
theorem foldlM_monsters {f : State F → ℤ → Except Stop (State F)} {A B : Monster F → Prop}
    (hnd : s.monsters.Nodup)
    (hf : ∀ u v : State F, ∀ id ∈ u.monsters, A (u.monster id) → f u id = .ok v →
      B (v.monster id) ∧ v.monsters = u.monsters ∧ ∀ id' ≠ id, v.monster id' = u.monster id')
    (h : Each A s) (he : s.monsters.foldlM f s = .ok t) : Each B t := by
  have hloop := foldlM_each (I := fun u : State F => u.monsters = s.monsters) (A := fun u id =>
    A (u.monster id)) (B := fun u id => B (u.monster id)) hnd ?_ rfl (fun id hid => h id hid) he
  · intro id hid
    rw [hloop.1] at hid
    exact hloop.2 id hid
  · intro u v id hid hu hA hv
    rw [← hu] at hid
    obtain ⟨hB, hmonsters, hothers⟩ := hf u v id hid hA hv
    refine ⟨hmonsters.trans hu, hB, fun id' _ hne => ?_⟩
    rw [hothers id' hne]
    exact ⟨fun ha => ha, fun hb => hb⟩

theorem checked_updateMonster (h : (s.monster id).Ready) (he : updateMonster s id = .ok t) :
    (t.monster id).Checked ∧ t.monsters = s.monsters ∧
    ∀ id' ≠ id, t.monster id' = s.monster id' := by
  obtain ⟨m, rands, hm, hreplies⟩ := updateMonster_cases he
  have hmonster := hreplies.spares.monster
  refine ⟨?_, hreplies.spares.monsters, fun id' hne => ?_⟩
  · rw [hmonster]
    change ((s.setMonster id (updateMonsterSectorCheck m)).monster id).Checked
    rw [setMonster_monster, if_pos rfl]
    exact h.checked hm
  · rw [hmonster]
    exact Function.update_of_ne hne _ _

theorem arrived_updateMonsterSector (h : (s.monster id).Checked)
    (he : updateMonsterSector s id = .ok t) :
    (t.monster id).Arrived ∧ t.monsters = s.monsters ∧
    ∀ id' ≠ id, t.monster id' = s.monster id' := by
  rcases updateMonsterSector_cases he with ⟨rfl, hstay⟩ | ⟨-, -, rfl⟩
  · exact ⟨⟨h, fun hbefore => hstay.resolve_left hbefore⟩, rfl, fun _ _ => rfl⟩
  · have hself : (s.crossMonster id).monster id = { s.monster id with
        sector := (s.monster id).destSector } :=
      Function.update_self _ _ _
    refine ⟨?_, rfl, fun id' hne => Function.update_of_ne hne _ _⟩
    rw [hself]
    exact ⟨⟨h.dest, h.back⟩, fun _ => rfl⟩

omit [Machine F] in
theorem settle_self (u : State F) (id : ℤ) : (u.settle id).monster id =
    { u.monster id with
      beforeState := (u.monster id).state, beforeDirection := (u.monster id).direction } :=
  Function.update_self _ _ _

omit [Machine F] in
theorem settle_of_ne (u : State F) {id id' : ℤ} (h : id' ≠ id) :
    (u.settle id).monster id' = u.monster id' :=
  Function.update_of_ne h _ _

/-- After `monsterProc` a monster that lives is registered where it is. -/
theorem placed_procMonster (hid : id ∈ s.monsters) (h : (s.monster id).Arrived)
    (he : procMonster s id = .ok t) :
    (t.monster id).Placed ∧ t.monsters = s.monsters ∧
    ∀ id' ≠ id, t.monster id' = s.monster id' := by
  have hplaced : (s.monster id).beforeState ≠ .dead → (s.monster id).Placed :=
    fun hbefore _ => ⟨h.sector hbefore, h.dest (Or.inl hbefore)⟩
  have hsettle : (s.monster id).Placed → ((s.settle id).monster id).Placed := by
    intro hp
    rw [settle_self]
    exact hp
  have hothers : ∀ id' ≠ id, (s.settle id).monster id' = s.monster id' :=
    fun id' hne => settle_of_ne s hne
  have hback : (s.monster id).state ≠ .idle → (s.monster id).Placed := by
    intro hidle halive
    refine hplaced (fun hbefore => ?_) halive
    exact hidle (h.back hbefore halive)
  rcases act_procMonster hid he with ⟨rfl, hsame⟩ | hact
  · refine ⟨fun halive => ?_, rfl, fun _ _ => rfl⟩
    exact hplaced (hsame ▸ halive) halive
  · cases hact with
    | moveStart _ hstate hbefore =>
      exact ⟨hsettle (hback (by rintro he; rw [he] at hstate; exact absurd hstate (by decide))),
        rfl, hothers⟩
    | moveAgain _ hstate hbefore =>
      exact ⟨hsettle (hback (by rintro he; rw [he] at hstate; exact absurd hstate (by decide))),
        rfl, hothers⟩
    | attack _ hstate => exact ⟨hsettle (hback (by rw [hstate]; decide)), rfl, hothers⟩
    | moveStop _ hstate hbefore => exact ⟨hsettle (hplaced hbefore), rfl, hothers⟩
    | respawn _ hstate hbefore hsame =>
      exact ⟨hsettle fun halive => ⟨hsame, h.dest (Or.inr halive)⟩, rfl, hothers⟩
    | respawnAway _ hstate hbefore hne =>
      refine ⟨?_, rfl, fun id' hne' => ?_⟩
      · rw [settle_self]
        change Monster.Placed { ((s.broadcastMonsterDespawn (s.monster id)
          (s.monster id).sector.around).moveMonster id (s.monster id)).monster id with
          beforeState := _, beforeDirection := _ }
        rw [moveMonster_monster]
        exact fun halive => ⟨rfl, h.dest (Or.inr halive)⟩
      · rw [settle_of_ne _ hne']
        exact Function.update_of_ne hne' _ _
    | settle _ hstate =>
      exact ⟨hsettle (hback (by rcases hstate with he | he <;> rw [he] <;> decide)), rfl, hothers⟩

/-! ### Runs -/

omit [Machine F] in
theorem same_updateItem (h : updateItem s id = .ok t) : SameMonsters s t := by
  unfold updateItem at h
  dsimp only at h
  split at h
  · obtain ⟨near, -, h⟩ := bind_ok h
    cases h
    exact ⟨rfl, .refl _⟩
  · cases h
    exact ⟨rfl, .refl _⟩

/-- A tick in which nobody comes back astray. -/
theorem arrived_fieldUpdate (hs : Sound s) (h : Each Monster.Placed s)
    (hhome : ∀ id ∈ s.monsters, ¬(s.monster id).Astray) (he : fieldUpdate s = .ok t) :
    Each Monster.Arrived t := by
  unfold fieldUpdate at he
  obtain ⟨s1, h1, he⟩ := bind_ok he
  obtain ⟨s2, h2, he⟩ := bind_ok he
  obtain ⟨s3, h3, he⟩ := bind_ok he
  obtain ⟨s4, h4, he⟩ := bind_ok he
  have hstart : Each Monster.Ready (s.record .fieldUpdate) :=
    fun id hid => ⟨fun halive => (h id hid halive).1, hhome id hid⟩
  have hready : Each Monster.Ready s2 :=
    (acts_updateSectors h2).1.ready (ready_updatePlayers hstart h1)
  have hticks : Ticks (s.record .fieldUpdate) s2 :=
    (ticks_updatePlayers h1).1.trans (acts_updateSectors h2).1.calms.ticks
  have hs2 : Sound s2 := Stays.sound hticks.stays (Act.sound .fieldUpdate hs)
  have hs3 : Sound s3 := Stays.sound (calms_updateMonsters h3).1.ticks.stays hs2
  have hchecked : Each Monster.Checked s3 :=
    foldlM_monsters hs2.monsters.cells.nodup
      (fun _ _ _ _ hA hv => checked_updateMonster hA hv) hready h3
  have harrived : Each Monster.Arrived s4 :=
    foldlM_monsters hs3.monsters.cells.nodup
      (fun _ _ _ _ hA hv => arrived_updateMonsterSector hA hv) hchecked h4
  exact foldlM_keeps (P := Each Monster.Arrived)
    (fun _ _ _ _ hu hv => (same_updateItem hv).each hu) harrived he

theorem placed_monsterProc (hs : Sound s) (h : Each Monster.Arrived s)
    (he : monsterProc s = .ok t) : Each Monster.Placed t :=
  foldlM_monsters hs.monsters.cells.nodup (fun _ _ _ hid hA hv => placed_procMonster hid hA hv) h he

/-- The other steps leave the monsters as they are. -/
theorem same_step {l : Step F} (hl : l ≠ .fieldUpdate ∧ l ≠ .monsterProc)
    (he : step s l = some (.ok t)) :
    SameMonsters s t := by
  have helsewhere := elsewhere_step he
  have hquiet : l.elsewhere = true → SameMonsters s t := fun hl =>
    ⟨funext fun id => ((helsewhere hl).2.2 id).monster, (helsewhere hl).2.1⟩
  cases l with
  | fieldUpdate => exact absurd rfl hl.1
  | monsterProc => exact absurd rfl hl.2
  | registerPlayer q accountNo characterID pos nickname =>
    unfold step at he
    dsimp only at he
    split_ifs at he
    obtain rfl := handleRegisterPlayer_eq (Option.some.inj he)
    exact ⟨rfl, .refl _⟩
  | contentsPacket q msg =>
    unfold step at he
    dsimp only at he
    split_ifs at he with hq
    rcases replies_fieldContentsPacketProc hq.2 (Option.some.inj he) with hreplies | hset
    · exact hreplies.spares.same
    · exact hset.spares.same
  | checkDisConnected =>
    refine foldlM_keeps (P := SameMonsters s) (fun u v q _ hu hv => ?_) ⟨rfl, .refl _⟩
      (Option.some.inj he)
    rcases saveDisconnected_cases hv with rfl | ⟨-, -, rfl⟩
    · exact hu
    · exact hu.trans ⟨rfl, .refl _⟩
  | dbResults =>
    have hstart : SameMonsters s { s with dbResQ := [] } := ⟨rfl, .refl _⟩
    refine foldlM_keeps (P := SameMonsters s) (fun u v result _ hu hv => ?_) hstart
      (Option.some.inj he)
    rcases dbResult_cases hv with ⟨-, rfl | ⟨q, packet, -, -, rfl⟩⟩ | ⟨q, -, -, rfl⟩
    · exact hu
    · exact hu.trans ⟨rfl, .refl _⟩
    · exact hu.trans ⟨rfl, .refl _⟩
  | _ => exact hquiet rfl

/-- No monster comes back astray in this tick. -/
def noneAstray (c : Phase × State F) : Step F → Bool
  | .fieldUpdate => c.2.monsters.all fun id => !decide (c.2.monster id).Astray
  | _ => true

def NoneAstray (c : Phase × State F) (l : Step F) : Prop := noneAstray c l = true

/-- Where the monsters are registered at each place of the loop. -/
def Phase.Registered : Phase → State F → Prop
  | .packets => Each Monster.Arrived
  | _ => Each Monster.Placed

theorem Phase.Registered.same {phase : Phase} (h : phase.Registered s) (hst : SameMonsters s t) :
    phase.Registered t := by
  cases phase <;> exact hst.each h

theorem registered_step {c d : Phase × State F} {l : Step F} (hs : Sound c.2)
    (h : c.1.Registered c.2) (hl : NoneAstray c l) (he : fieldThread.next c l = some d) :
    d.1.Registered d.2 := by
  obtain ⟨phase, s⟩ := c
  obtain ⟨phase', t⟩ := d
  obtain ⟨hafter, hstep⟩ := fieldThread_next he
  dsimp only at *
  by_cases hupdate : l = .fieldUpdate
  · subst hupdate
    have hhome : ∀ id ∈ s.monsters, ¬(s.monster id).Astray := fun id hid => by
      have := List.all_eq_true.mp hl id hid
      simpa using this
    cases phase with
    | messages =>
      cases hafter
      exact arrived_fieldUpdate hs h hhome (Option.some.inj hstep)
    | _ => cases hafter
  · by_cases hproc : l = .monsterProc
    · subst hproc
      cases phase with
      | packets =>
        cases hafter
        exact placed_monsterProc hs h (Option.some.inj hstep)
      | _ => cases hafter
    · have hsame := Phase.Registered.same h (same_step ⟨hupdate, hproc⟩ hstep)
      -- the place of the loop changes only between those that rely on the same
      unfold Phase.after at hafter
      split at hafter
      · cases hafter
        exact hsame
      · split at hafter <;> cases hafter
        · exact hsame
        · exact absurd rfl hupdate
        · exact hsame
        · exact absurd rfl hproc
        · exact hsame
        · exact hsame
        · exact hsame

/-- At the end of a tick, and until the next, every monster that lives is registered where it is. -/
theorem monsters_placed {c : Phase × State F} (h : (fieldThread.restrict NoneAstray).Reachable c)
    (hphase : c.1 ≠ .packets) :
    ∀ id ∈ c.2.monsters, (c.2.monster id).state ≠ .dead →
      (c.2.monster id).sector = (c.2.monster id).destSector ∧
    (c.2.monster id).destSector = calcSector (c.2.monster id).pos := by
  have hinv : (fieldThread.restrict NoneAstray).Invariant
      (fun c : Phase × State F => fieldThread.Reachable c ∧ c.1.Registered c.2) := by
    apply System.restrict_invariant
    · rintro ⟨phase, s⟩ hinit
      refine ⟨.start hinit, ?_⟩
      obtain ⟨hphase, rands, hs⟩ := hinit
      dsimp only at hphase hs ⊢
      rw [hphase, hs]
      intro id hid _
      obtain ⟨-, -, hdest, hsector⟩ := (fresh_spawnMonsters (F := F) rands).still id hid
      exact ⟨hdest.symm, hdest.trans hsector⟩
    · intro c d l hc hl he
      exact ⟨hc.1.step l he, registered_step (sound (fieldThread_reachable hc.1)) hc.2 hl he⟩
  have hregistered := (hinv.reachable h).2
  obtain ⟨phase, s⟩ := c
  cases phase with
  | packets => exact absurd rfl hphase
  | _ => exact hregistered

/-! ### A monster that comes back astray -/

theorem nextMonster_of_dead (hdead : (s.monster id).state = .dead) : nextMonster s id = .ok
    (if MONSTER_RESPAWN_FRAME ≤ (s.monster id).animFrame + 1 then
      { s.monster id with
        beforeState := (s.monster id).state, beforeDirection := (s.monster id).direction, state :=
  .idle, animFrame := 0
        startMovePos := (s.monster id).spawnPos, pos := (s.monster id).spawnPos,
          hp := (s.monster id).maxHp }
    else { s.monster id with
      beforeState := (s.monster id).state, beforeDirection := (s.monster id).direction,
        animFrame := (s.monster id).animFrame + 1 },
      s.rands) := by
  unfold nextMonster
  dsimp only
  rw [if_neg (by rw [hdead]; decide)]
  exact update_dead (by exact hdead) s.rands

theorem updateMonster_ok (hm : nextMonster s id = .ok (m, rands)) (hstate : m.state ≠ .attack) :
    updateMonster s id = .ok
      ((s.ticked id m rands).setMonster id (updateMonsterSectorCheck m)) := by
  rw [updateMonster_bind, hm]
  dsimp only [bind, Except.bind]
  rw [if_neg fun hhit => hstate hhit.1]
  rfl

theorem updateMonsterSectorCheck_self (h : m.destSector = calcSector m.pos) :
    updateMonsterSectorCheck m = m := by
  unfold updateMonsterSectorCheck
  dsimp only
  split_ifs
  · rfl
  · rw [← h]

/-- Nobody is there, and the monster 0 has been dead for `n` frames and is to cross out of its
sector, where it comes back. -/
structure Waits (n : ℤ) (s : State F) : Prop where
  players : s.players = []
  monsters : s.monsters = [0]
  items : s.items = [1]
  results : s.dbResQ = []
  state : (s.monster 0).state = .dead
  frame : (s.monster 0).animFrame = n
  life : (s.item 1).lifeFrame ≤ n
  home : calcSector (s.monster 0).spawnPos = (s.monster 0).sector
  dest : (s.monster 0).destSector = calcSector (s.monster 0).pos
  away : (s.monster 0).destSector ≠ (s.monster 0).sector

omit [Machine F] in
theorem foldlM_one {α : Type} {f : State F → α → Except Stop (State F)} {a : α}
    (h : f s a = .ok t) :
    [a].foldlM f s = .ok t := by
  rw [List.foldlM_cons, h]
  rfl

theorem Waits.fieldUpdate {n : ℤ} (h : Waits n s) (hn : n ≤ MONSTER_RESPAWN_FRAME)
    (hm : nextMonster (s.record .fieldUpdate) 0 = .ok (m, rands)) :
    ∃ t, fieldUpdate s = .ok t ∧ t.players = [] ∧ t.monsters = [0] ∧ t.items = [1] ∧ t.dbResQ = [] ∧
      (t.item 1).lifeFrame ≤ n + 1 ∧ t.monster 0 = updateMonsterSectorCheck m := by
  have hbefore : m.beforeState = .dead := by
    rw [nextMonster_eq hm]
    exact h.state
  have hstate : m.state ≠ .attack := by
    rcases nextMonster_respawn hm h.state with he | ⟨-, he, -⟩ <;> rw [he] <;> decide
  generalize hs1 : s.record .fieldUpdate = s1 at hm
  have h1 : s.players.foldlM updatePlayer s1 = .ok s1 := by
    rw [h.players]
    rfl
  have h2 : s1.players.foldlM updateSector s1 = .ok s1 := by
    rw [← hs1]
    change s.players.foldlM _ _ = _
    rw [h.players]
    rfl
  generalize hs3 : (s1.ticked 0 m rands).setMonster 0 (updateMonsterSectorCheck m) = s3
  have hself : s3.monster 0 = updateMonsterSectorCheck m := by
    rw [← hs3, setMonster_monster, if_pos rfl]
  have h3 : s1.monsters.foldlM updateMonster s1 = .ok s3 := by
    have hone : s1.monsters = [0] := by
      rw [← hs1]
      exact h.monsters
    rw [hone]
    exact foldlM_one (hs3 ▸ updateMonster_ok hm hstate)
  have h4 : s3.monsters.foldlM updateMonsterSector s3 = .ok s3 := by
    have hone : s3.monsters = [0] := by
      rw [← hs3, ← hs1]
      exact h.monsters
    have hstay : updateMonsterSector s3 0 = .ok s3 := by
      unfold updateMonsterSector
      dsimp only
      rw [if_neg]
      · rfl
      · rw [hself, updateMonsterSectorCheck_eq]
        exact fun hcross => hcross.1 hbefore
    rw [hone]
    exact foldlM_one hstay
  have hitem : s3.item = s.item := by
    rw [← hs3, ← hs1]
    rfl
  have h5 : s3.items.foldlM updateItem s3 = .ok { s3 with
      item := Function.update s3.item 1 (s3.item 1).update } := by
    have hone : s3.items = [1] := by
      rw [← hs3, ← hs1]
      exact h.items
    have hstay : updateItem s3 1 = .ok { s3 with
        item := Function.update s3.item 1 (s3.item 1).update } := by
      unfold updateItem
      dsimp only
      rw [if_neg]
      · rfl
      · have hlife := h.life
        rw [hitem]
        intro hexpired
        have hframe : ITEM_DESPAWN_FRAME ≤ (s.item 1).lifeFrame + 1 := of_decide_eq_true hexpired
        unfold ITEM_DESPAWN_FRAME at hframe
        unfold MONSTER_RESPAWN_FRAME at hn
        omega
    calc s3.items.foldlM updateItem s3 = [1].foldlM updateItem s3 := by rw [hone]
      _ = _ := foldlM_one hstay
  refine ⟨{ s3 with item := Function.update s3.item 1 (s3.item 1).update }, ?_, ?_, ?_, ?_,
    ?_, ?_, hself⟩
  · unfold Field.fieldUpdate
    rw [hs1, h1]
    change (s1.players.foldlM updateSector s1 >>= _) = _
    rw [h2]
    change (s1.monsters.foldlM updateMonster s1 >>= _) = _
    rw [h3]
    change (s3.monsters.foldlM updateMonsterSector s3 >>= _) = _
    rw [h4]
    exact h5
  · rw [← hs3, ← hs1]
    exact h.players
  · rw [← hs3, ← hs1]
    exact h.monsters
  · rw [← hs3, ← hs1]
    exact h.items
  · rw [← hs3, ← hs1]
    exact h.results
  · change (Function.update s3.item 1 (s3.item 1).update 1).lifeFrame ≤ _
    rw [Function.update_self, hitem]
    exact Int.add_le_add_right h.life 1

theorem fieldThread_ok {phase phase' : Phase} {l : Step F} (hafter : phase.after l = some phase')
    (he : step s l = some (.ok t)) : fieldThread.next (phase, s) l = some (phase', t) := by
  unfold fieldThread
  dsimp only
  rw [hafter, Option.bind_some, field_next.mpr he]
  rfl

/-- A dead monster is still dead after a pass of the loop. -/
theorem Waits.pass {n : ℤ} (h : Waits n s) (hn : n + 1 < MONSTER_RESPAWN_FRAME) :
    ∃ t, fieldThread.exec (.messages, s) (pass []) = some (.messages, t) ∧ Waits (n + 1) t := by
  have hnext := nextMonster_of_dead (s := s.record .fieldUpdate) h.state
  rw [if_neg (by rw [show ((s.record .fieldUpdate).monster 0).animFrame = n from h.frame]; omega)]
    at hnext
  obtain ⟨t, he, hplayers, hmonsters, hitems, hresults, hlife, hself⟩ :=
    h.fieldUpdate (by omega) hnext
  have hmonster : t.monster 0 = { s.monster 0 with
      beforeState := (s.monster 0).state, beforeDirection := (s.monster 0).direction,
        animFrame := n + 1 } := by
    rw [← h.frame]
    exact hself.trans (updateMonsterSectorCheck_self (by exact h.dest))
  have hproc : monsterProc t = .ok t := by
    have hstay : procMonster t 0 = .ok t := by
      unfold procMonster
      rw [hmonster]
      exact if_pos ⟨rfl, rfl⟩
    unfold monsterProc
    rw [hmonsters]
    exact foldlM_one hstay
  have hleave : checkDisConnectedAndLeavePlayer t = .ok t := by
    unfold checkDisConnectedAndLeavePlayer
    rw [hplayers]
    rfl
  have hdb : dbResultPacketProc t = .ok t := by
    unfold dbResultPacketProc
    rw [hresults]
    change Except.ok { t with dbResQ := [] } = _
    rw [← hresults]
  refine ⟨t, ?_, hplayers, hmonsters, hitems, hresults, ?_, ?_, hlife, ?_, ?_, ?_⟩
  · change fieldThread.exec _ [.fieldUpdate, .monsterProc, .checkDisConnected, .dbResults] = _
    rw [System.exec_cons (fieldThread_ok (l := .fieldUpdate) rfl (congrArg some he)),
      System.exec_cons (fieldThread_ok (l := .monsterProc) rfl (congrArg some hproc)),
      System.exec_cons (fieldThread_ok (l := .checkDisConnected) rfl (congrArg some hleave)),
      System.exec_cons (fieldThread_ok (l := .dbResults) rfl (congrArg some hdb))]
    rfl
  · rw [hmonster]
    exact h.state
  · rw [hmonster]
  · rw [hmonster]
    exact h.home
  · rw [hmonster]
    exact h.dest
  · rw [hmonster]
    exact h.away

theorem Waits.passes {n : ℤ} (h : Waits n s) (k : ℕ) (hn : n + k < MONSTER_RESPAWN_FRAME) :
    ∃ t, fieldThread.exec (.messages, s) (List.replicate k (Field.pass [])).flatten = some
      (.messages, t) ∧ Waits (n + k) t := by
  induction k generalizing n s with
  | zero => exact ⟨s, rfl, by simpa using h⟩
  | succ k ih =>
    push_cast at hn ⊢
    obtain ⟨u, hu, hwaits⟩ := h.pass (by omega)
    obtain ⟨t, ht, hwaits⟩ := ih hwaits (by omega)
    refine ⟨t, ?_, ?_⟩
    · rw [List.replicate_succ, List.flatten_cons, System.exec_append, hu]
      exact ht
    · rwa [add_right_comm, add_assoc] at hwaits

omit [Machine F] in
/-- `monsterProc` never fails of a monster that is registered. -/
theorem procMonster_ok (hs : Sound s) (hid : id ∈ s.monsters) : ∃ t, procMonster s id = .ok t := by
  obtain ⟨hgrid, hdest⟩ := hs.monsters.grid id hid
  suffices hpackets : ∃ u, monsterPackets s id = .ok u by
    obtain ⟨u, hu⟩ := hpackets
    unfold procMonster
    dsimp only
    split
    · exact ⟨s, rfl⟩
    · rw [hu]
      exact ⟨_, rfl⟩
  unfold monsterPackets
  dsimp only
  rw [getAroundSectors_ok hgrid]
  split
  iterate 4 exact ⟨_, rfl⟩
  · split
    · dsimp only [bind, Except.bind]
      split
      · have hcell : id ∈ s.monsterSectors (s.monster id).sector := hs.monsters.cells.self_mem hid
        rw [myAssert_true (by exact decide_eq_true hcell)]
        dsimp only [pure, Except.pure]
        rw [moveMonster_monster, getAroundSectors_ok hdest]
        exact ⟨_, rfl⟩
      · dsimp only [pure, Except.pure]
        rw [getAroundSectors_ok (by exact hgrid)]
        exact ⟨_, rfl⟩
    · exact ⟨_, rfl⟩
  iterate 2 exact ⟨_, rfl⟩

/-- It comes back where it was, and `monsterProc` takes it to the sector that it was to cross into.
-/
theorem Waits.astray (h : Waits (MONSTER_RESPAWN_FRAME - 1) s) (hs : Sound s) :
    ∃ t, fieldThread.exec (.messages, s) [.fieldUpdate, .monsterProc] = some
        (.leaving, t) ∧ t.monsters = [0] ∧
      (t.monster 0).state = .idle ∧ (t.monster 0).destSector ≠ calcSector (t.monster 0).pos := by
  have hnext := nextMonster_of_dead (s := s.record .fieldUpdate) h.state
  rw [if_pos (by rw [show ((s.record .fieldUpdate).monster 0).animFrame = _ from h.frame]; omega)]
    at hnext
  obtain ⟨t, he, -, hmonsters, -, -, -, hself⟩ := h.fieldUpdate (by omega) hnext
  have hmonster : t.monster 0 = { s.monster 0 with
      beforeState := (s.monster 0).state, beforeDirection := (s.monster 0).direction,
        state := .idle, animFrame := 0
      startMovePos := (s.monster 0).spawnPos, pos := (s.monster 0).spawnPos,
        hp := (s.monster 0).maxHp } := by
    rw [hself]
    exact if_pos h.home
  have hid : 0 ∈ t.monsters := by
    rw [hmonsters]
    exact List.mem_singleton_self 0
  have ht : Sound t :=
    stays_fieldUpdate (fun u hu => (hu.sound hs).items.cells.nodup) he |>.sound hs
  obtain ⟨u, hu⟩ := procMonster_ok ht hid
  have hproc : monsterProc t = .ok u := by
    unfold monsterProc
    rw [hmonsters]
    exact foldlM_one hu
  refine ⟨u, ?_, ?_⟩
  · rw [System.exec_cons (fieldThread_ok (l := .fieldUpdate) rfl (congrArg some he)),
      System.exec_cons (fieldThread_ok (l := .monsterProc) rfl (congrArg some hproc))]
    rfl
  · have hstate : (t.monster 0).state = .idle := by rw [hmonster]
    have hbefore : (t.monster 0).beforeState = .dead := by
      rw [hmonster]
      exact h.state
    have hne : (t.monster 0).sector ≠ (t.monster 0).destSector := by
      rw [hmonster]
      exact fun he => h.away he.symm
    rcases act_procMonster hid hu with ⟨-, hsame⟩ | hact
    · rw [hstate, hbefore] at hsame
      cases hsame
    · cases hact with
      | moveStart _ hmoving | moveAgain _ hmoving =>
        rw [hstate] at hmoving
        exact absurd hmoving (by decide)
      | attack _ he | settle _ he => simp [hstate] at he
      | moveStop _ _ hother => exact absurd hbefore hother
      | respawn _ _ _ hsame => exact absurd hsame hne
      | respawnAway =>
        refine ⟨hmonsters, ?_⟩
        rw [settle_self]
        generalize hv : (t.broadcastMonsterDespawn (t.monster 0)
          (t.monster 0).sector.around).moveMonster 0 (t.monster 0) = v
        have hmoved : v.monster 0 = { t.monster 0 with sector := (t.monster 0).destSector } := by
          rw [← hv, moveMonster_monster]
        change (v.monster 0).state = .idle ∧ (v.monster 0).destSector ≠ calcSector (v.monster 0).pos
        rw [hmoved, hmonster]
        exact ⟨rfl, fun he => h.away (he.trans h.home)⟩

end

/-- The field before anybody enters, with the monster 0 at (250, 0). -/
def borderMonster : State ℚ := spawnMonsters (empty fun n => if n = 0 then 1 else if n = 1 then 250
      else if n < 402 then 0 else 1)

theorem borderMonster_init : field.init borderMonster := ⟨_, rfl⟩

/-- MOVE_START at (200, 0) to the right. -/
def rightMsg : Message :=
  packet [106, 0, 0, 0, 0, 0, 0, 0, 0, 0, 0, 0, 0x48, 0x43, 0, 0, 0, 0, 4, 0, 0, 0x90, 0x40]

/-- Session 1 turns to the right and attacks. -/
def push : List (Step ℚ) :=
  pass [.contentsPacket 1 rightMsg, .contentsPacket 1 attackMsg] ++
    (List.replicate 7 (pass [])).flatten

/-- Session 1 knocks the monster to 280 and 310, and dead to 340, over the border at 320. -/
def pushRun : List (Step ℚ) :=
  [.registerPlayer 1 7 11 ⟨200, 0⟩ []] ++ push ++ push ++ push ++ pass []

/-- And then it leaves. -/
def departRun : List (Step ℚ) :=
  [.onRelease 1, .dbDequeue, .dbAnswer ⟨[], 0, 0⟩] ++ pass [] ++
    [.dbDequeue, .dbAnswer ⟨[], 0, 0⟩] ++ pass []

theorem monsters_placed_strikeBack : ∃ c : Phase × State ℚ, (c.2.monster 0).state = .attack ∧
    (c.2.monster 0).destSector = calcSector (c.2.monster 0).pos := by
  have hrun : (fieldThread.execIf noneAstray (Phase.messages, oneMonster) strikeBack).any
      (fun c => c.1 ≠ .packets ∧ 0 ∈ c.2.monsters ∧ (c.2.monster 0).state = .attack) = true := by
        decide +kernel
  obtain ⟨c, hc, hp⟩ := Option.any_eq_true _ _ |>.mp hrun
  obtain ⟨hphase, hid, hstate⟩ := of_decide_eq_true hp
  have hreach : (fieldThread.restrict NoneAstray).Reachable c :=
    System.Reachable.execIf (fun _ _ h => h) _ (.start (fieldThread_init oneMonster_init)) hc
  exact ⟨c, hstate, (monsters_placed hreach hphase 0 hid (by rw [hstate]; decide)).2⟩

theorem waits_pushRun : ∃ s : State ℚ, fieldThread.Reachable (.messages, s) ∧ Waits 3 s := by
  have hrun :
      (fieldThread.exec (Phase.messages, borderMonster) (pushRun ++ departRun)).any (fun c =>
      c.1 = .messages ∧ c.2.players = [] ∧ c.2.monsters = [0] ∧ c.2.items = [1] ∧
        c.2.dbResQ.isEmpty ∧
        (c.2.monster 0).state = .dead ∧ (c.2.monster 0).animFrame = 3 ∧ (c.2.item 1).lifeFrame ≤ 3 ∧
        calcSector (c.2.monster 0).spawnPos = (c.2.monster 0).sector ∧
        (c.2.monster 0).destSector = calcSector (c.2.monster 0).pos ∧
        (c.2.monster 0).destSector ≠ (c.2.monster 0).sector) = true := by
    decide +kernel
  obtain ⟨⟨phase, s⟩, hs, hp⟩ := Option.any_eq_true _ _ |>.mp hrun
  obtain ⟨hphase, h⟩ := of_decide_eq_true hp
  obtain ⟨hplayers, hmonsters, hitems, hresults, hstate, hframe, hlife, hhome, hdest, haway⟩ := h
  dsimp only at hphase
  subst hphase
  exact ⟨s, .exec _ (.start (fieldThread_init borderMonster_init)) hs,
    ⟨hplayers, hmonsters, hitems, List.isEmpty_iff.mp hresults, hstate, hframe, hlife, hhome,
      hdest, haway⟩⟩

/-- The monster comes back at (250, 0) and is registered in the sector where it died. -/
theorem comes_back_astray : ¬ ∀ c : Phase × State ℚ, fieldThread.Reachable c → c.1 ≠ .packets →
    ∀ id ∈ c.2.monsters, (c.2.monster id).state ≠ .dead →
      (c.2.monster id).sector = (c.2.monster id).destSector ∧
    (c.2.monster id).destSector = calcSector (c.2.monster id).pos := by
  intro hall
  obtain ⟨s, hs, hwaits⟩ := waits_pushRun
  obtain ⟨u, hu, hwaits⟩ := hwaits.passes 496 (by decide)
  have hreach : fieldThread.Reachable (.messages, u) := hs.exec _ hu
  obtain ⟨t, ht, hmonsters, hidle, haway⟩ :=
    Waits.astray hwaits (sound (fieldThread_reachable hreach))
  have hid : (0 : ℤ) ∈ t.monsters := by
    rw [hmonsters]
    exact List.mem_singleton_self 0
  exact haway (hall (.leaving, t) (hreach.exec _ ht) nofun 0 hid (by rw [hidle]; decide)).2

end Field
end MyMMO
