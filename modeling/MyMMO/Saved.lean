/-
# The position that is saved

`checkDisConnectedAndLeavePlayer` asks for a PositionSave of each player whose session has ended,
and the player stays in `players` until `dbResultPacketProc` gets the result. Meanwhile nothing
moves it but the hit of a monster: `processMonsterAttackHit` looks at `mState` and not at
`mBConnect`. In the runs in which no hit finds a player that waits, the position that is saved is
the one at the removal (`saved_position`); in `knocked_back` it is not.
-/
import MyMMO.FieldIndex
import MyMMO.Players

namespace MyMMO
namespace Field

open Outcome

variable {F : Type}

/-- The session of `q` has ended, `q` stands at `pos`, and it waits for its PositionSave or is gone.
-/
structure Frozen (q : ℕ) (pos : Position F) (s : State F) : Prop where
  met : q ∈ s.met
  connect : (s.player q).connect = false
  pos : (s.player q).pos = pos
  waits : q ∈ s.players → (s.player q).savePending = true

section

variable {s t : State F} {q : ℕ} {pos : Position F}

theorem Frozen.same (h : Frozen q pos s) (hst : SamePlayers s t) : Frozen q pos t := by
  refine ⟨?_, ?_, ?_, fun hq => ?_⟩
  · rw [hst.met]
    exact h.met
  · rw [hst.player]
    exact h.connect
  · rw [hst.player]
    exact h.pos
  · rw [hst.player]
    exact h.waits (hst.players ▸ hq)

/-- A player is rewritten, and `q` stays as it is if it is the one. -/
theorem Frozen.rewrites (h : Frozen q pos s) {q' : ℕ} {p : Player F} (hst : Rewrites q' p s t)
    (hp : q' = q → p.connect = false ∧ p.pos = (s.player q).pos ∧
      p.savePending = (s.player q).savePending) :
    Frozen q pos t := by
  have hself : (t.player q).connect = false ∧ (t.player q).pos = (s.player q).pos ∧
      (t.player q).savePending = (s.player q).savePending := by
    by_cases hq : q' = q
    · subst hq
      rw [hst.self]
      exact hp rfl
    · rw [hst.of_ne (fun he => hq he.symm)]
      exact ⟨h.connect, rfl, rfl⟩
  refine ⟨?_, hself.1, hself.2.1.trans h.pos, fun hq => ?_⟩
  · rw [hst.met]
    exact h.met
  · rw [hself.2.2]
    exact h.waits (hst.players ▸ hq)

theorem Frozen.enters (h : Frozen q pos s) {q' : ℕ} {p : Player F} (hst : Enters q' p s t)
    (hnew : q' ∉ s.met) :
    Frozen q pos t := by
  have hne : q ≠ q' := by
    rintro rfl
    exact hnew h.met
  have hself : t.player q = s.player q := by
    rw [hst.player, Function.update_of_ne hne]
  refine ⟨?_, ?_, ?_, fun hq => ?_⟩
  · rw [hst.met]
    exact List.mem_cons_of_mem _ h.met
  · rw [hself]
    exact h.connect
  · rw [hself]
    exact h.pos
  · rw [hself]
    rw [hst.players] at hq
    exact h.waits ((List.mem_cons.mp hq).resolve_left hne)

/-- A container in another order. -/
theorem Frozen.perm (h : Frozen q pos s) (hplayer : t.player = s.player) (hmet : t.met = s.met)
    (hplayers : ∀ q ∈ t.players, q ∈ s.players) : Frozen q pos t := by
  refine ⟨?_, ?_, ?_, fun hq => ?_⟩
  · rw [hmet]
    exact h.met
  · rw [hplayer]
    exact h.connect
  · rw [hplayer]
    exact h.pos
  · rw [hplayer]
    exact h.waits (hplayers q hq)

theorem Frozen.handBack (h : Frozen q pos s) (hnd : s.players.Nodup) (q' : ℕ) :
    Frozen q pos (s.handBack q') := by
  have hset : (s.handBack q').player = Function.update s.player q' { s.player q' with
      savePending := false } := rfl
  have hplayers : (s.handBack q').players = s.players.erase q' := rfl
  by_cases hq : q = q'
  · subst hq
    have hself : (s.handBack q).player q = { s.player q with savePending := false } := by
      rw [hset, Function.update_self]
    refine ⟨h.met, by rw [hself]; exact h.connect, by rw [hself]; exact h.pos, fun hmem => ?_⟩
    rw [hplayers] at hmem
    exact absurd rfl (hnd.mem_erase_iff.mp hmem).1
  · have hother : (s.handBack q').player q = s.player q := by
      rw [hset, Function.update_of_ne hq]
    refine ⟨h.met, by rw [hother]; exact h.connect, by rw [hother]; exact h.pos, fun hmem => ?_⟩
    rw [hother]
    exact h.waits (List.mem_of_mem_erase hmem)

end

section

variable [Machine F] {s t : State F} {q : ℕ} {pos : Position F}

/-! ### A tick -/

/-- The hit of `m`, if it is at that frame, does not find a player that waits. -/
def hitSpares (s : State F) (m : Monster F) : Bool :=
  !(m.state = .attack && m.animFrame = MONSTER_ATTACK_WINDUP_FRAME) || (struck s m).all fun q =>
    !(s.player q).savePending

/-- The monsters `ids` are updated one after the other, and no hit of theirs finds a player that
waits. -/
def sparesWaiting : List ℤ → State F → Bool
  | [], _ => true
  | id :: ids, s =>
    (match nextMonster s id with
      | .ok (m, _) => hitSpares s m
      | .error _ => true) &&
    (match updateMonster s id with
      | .ok t => sparesWaiting ids t
      | .error _ => true)

/-- No monster hits a player that waits for its PositionSave. -/
def nobodyKnocked (s : State F) : Step F → Bool
  | .fieldUpdate =>
    match s.players.foldlM updatePlayer (s.record .fieldUpdate) with
    | .error _ => true
    | .ok u =>
      match u.players.foldlM updateSector u with
      | .error _ => true
      | .ok v => sparesWaiting v.monsters v
  | _ => true

/-- `nobodyKnocked` as a condition on a step. -/
def NobodyKnocked (s : State F) (l : Step F) : Prop := nobodyKnocked s l = true

theorem sparesWaiting_cons {id : ℤ} {ids : List ℤ} (h : sparesWaiting (id :: ids) s = true) :
    (∀ m rands, nextMonster s id = .ok (m, rands) → hitSpares s m = true) ∧
      ∀ t, updateMonster s id = .ok t → sparesWaiting ids t = true := by
  unfold sparesWaiting at h
  obtain ⟨hhit, hrest⟩ := Bool.and_eq_true_iff.mp h
  constructor
  · intro m rands hm
    rw [hm] at hhit
    exact hhit
  · intro t ht
    rw [ht] at hrest
    exact hrest

theorem hitSpares_struck {m : Monster F} (h : hitSpares s m = true) (hstate : m.state = .attack)
    (hframe : m.animFrame = MONSTER_ATTACK_WINDUP_FRAME) (hq : struck s m = some q) :
    (s.player q).savePending = false := by
  unfold hitSpares at h
  rw [hstate, hframe, hq] at h
  simpa using h

theorem NobodyKnocked.fieldUpdate (h : NobodyKnocked s .fieldUpdate) {u v : State F}
    (hu : s.players.foldlM updatePlayer (s.record .fieldUpdate) = .ok u)
    (hv : u.players.foldlM updateSector u = .ok v) :
    sparesWaiting v.monsters v = true := by
  unfold NobodyKnocked nobodyKnocked at h
  dsimp only at h
  rw [hu] at h
  dsimp only at h
  rw [hv] at h
  exact h

theorem Frozen.updatePlayers (h : Frozen q pos s) {qs : List ℕ}
    (he : qs.foldlM updatePlayer s = .ok t) :
    Frozen q pos t := by
  apply foldlM_keeps (P := Frozen q pos) _ h he
  intro u v q' _ hu hv
  obtain ⟨p, hp, hrewrites⟩ := updatePlayer_player hv
  refine hu.rewrites hrewrites ?_
  rintro rfl
  exact ⟨hp.connect.trans hu.connect, hp.pos hu.connect, hp.savePending⟩

omit [Machine F] in
theorem Frozen.updateSectors (h : Frozen q pos s) {qs : List ℕ}
    (he : qs.foldlM updateSector s = .ok t) :
    Frozen q pos t := by
  apply foldlM_keeps (P := Frozen q pos) _ h he
  intro u v q' _ hu hv
  refine hu.rewrites (updateSector_player hv) ?_
  rintro rfl
  exact ⟨hu.connect, rfl, rfl⟩

/-- The one whom a monster hits is in `players`. -/
theorem Sound.struck_mem (hs : Sound s) {m : Monster F} (h : struck s m = some q) :
    q ∈ s.players := by
  obtain ⟨hq, -⟩ := (mem_near_of_closestPlayer h).resolve_left (by simp)
  exact (hs.players.mem_near.mp hq).1

theorem Frozen.updateMonsters (h : Frozen q pos s) (hs : Sound s)
    {ids : List ℤ} (hids : ∀ id ∈ ids, id ∈ s.monsters) (hspare : sparesWaiting ids s = true)
    (he : ids.foldlM updateMonster s = .ok t) : Frozen q pos t := by
  induction ids generalizing s with
  | nil =>
    cases he
    exact h
  | cons id ids ih =>
    obtain ⟨u, hu, he⟩ := foldlM_cons_ok he
    obtain ⟨hcalms, hmonsters⟩ := calms_updateMonster (hids id List.mem_cons_self) hu
    have hids' : ∀ id ∈ ids, id ∈ u.monsters := fun id' hid' => by
      rw [hmonsters]
      exact hids id' (List.mem_cons_of_mem _ hid')
    obtain ⟨hhit, hrest⟩ := sparesWaiting_cons hspare
    refine ih ?_ (Stays.sound hcalms.ticks.stays hs) hids' (hrest u hu) he
    rcases updateMonster_player hu with hsame |
        ⟨m, rands, q', p, hm, hstate, hframe, hstruck, hp, hrewrites⟩
    · exact h.same hsame
    · -- the hit finds somebody who does not wait
      refine h.rewrites hrewrites ?_
      rintro rfl
      have hfree := hitSpares_struck (hhit m rands hm) hstate hframe hstruck
      rw [h.waits (hs.struck_mem hstruck)] at hfree
      cases hfree

theorem Frozen.fieldUpdate (h : Frozen q pos s) (hs : Sound s)
    (hspare : NobodyKnocked s .fieldUpdate) (he : fieldUpdate s = .ok t) : Frozen q pos t := by
  unfold Field.fieldUpdate at he
  obtain ⟨s1, h1, he⟩ := bind_ok he
  obtain ⟨s2, h2, he⟩ := bind_ok he
  obtain ⟨s3, h3, he⟩ := bind_ok he
  obtain ⟨s4, h4, he⟩ := bind_ok he
  have hstart : Frozen q pos (s.record .fieldUpdate) := h.same ⟨rfl, rfl, rfl, rfl⟩
  have hs0 : Sound (s.record .fieldUpdate) := Act.sound .fieldUpdate hs
  have hticks : Ticks (s.record .fieldUpdate) s2 :=
    (ticks_updatePlayers h1).1.trans (acts_updateSectors h2).1.calms.ticks
  have hs2 : Sound s2 := Stays.sound hticks.stays hs0
  have hf3 := Frozen.updateMonsters (Frozen.updateSectors (Frozen.updatePlayers hstart h1) h2) hs2
    (fun _ => id) (hspare.fieldUpdate h1 h2) h3
  have hf4 : Frozen q pos s4 := foldlM_keeps (P := Frozen q pos)
    (fun _ _ _ _ hu hv => hu.same (updateMonsterSector_player hv)) hf3 h4
  exact foldlM_keeps (P := Frozen q pos)
    (fun _ _ _ _ hu hv => hu.same (updateItem_player hv)) hf4 he

/-! ### The other steps -/

theorem Frozen.monsterProc (h : Frozen q pos s) (he : monsterProc s = .ok t) : Frozen q pos t := by
  have hloop := foldlM_keeps (P := fun u => Frozen q pos u ∧ u.monsters = s.monsters) ?_ ⟨h, rfl⟩ he
  · exact hloop.1
  · intro u v id hid hu hv
    rw [← hu.2] at hid
    exact ⟨hu.1.same (procMonster_player hid hv), (calms_procMonster hid hv).2.trans hu.2⟩

omit [Machine F] in
theorem Frozen.saveDisconnected (h : Frozen q pos s) {q' : ℕ} (he : saveDisconnected s q' = .ok t) :
    Frozen q pos t := by
  rcases saveDisconnected_cases he with rfl | ⟨hq', hpending, rfl⟩
  · exact h
  · have hne : q ≠ q' := by
      rintro rfl
      rw [h.waits hq'] at hpending
      cases hpending
    have hother : (Function.update s.player q' { s.player q' with savePending := true }) q =
      s.player q :=
      Function.update_of_ne hne _ _
    refine ⟨h.met, ?_, ?_, fun hq => ?_⟩
    · exact (congrArg Player.connect hother).trans h.connect
    · exact (congrArg Player.pos hother).trans h.pos
    · exact (congrArg Player.savePending hother).trans (h.waits hq)

omit [Machine F] in
theorem Frozen.checkDisConnected (h : Frozen q pos s)
    (he : checkDisConnectedAndLeavePlayer s = .ok t) :
    Frozen q pos t :=
  foldlM_keeps (P := Frozen q pos) (fun _ _ _ _ hu hv => hu.saveDisconnected hv) h he

omit [Machine F] in
theorem Frozen.dbResults (h : Frozen q pos s) (hnd : s.players.Nodup)
    (he : dbResultPacketProc s = .ok t) :
    Frozen q pos t := by
  unfold dbResultPacketProc at he
  have hstart : Frozen q pos { s with dbResQ := [] } := h.perm rfl rfl fun _ hq => hq
  have hloop := foldlM_keeps (P := fun u => Frozen q pos u ∧ u.players.Nodup) ?_ ⟨hstart, hnd⟩ he
  · exact hloop.1
  · intro u v result _ hu hv
    rcases dbResult_cases hv with ⟨-, rfl | ⟨q', packet, -, -, rfl⟩⟩ | ⟨q', -, -, rfl⟩
    · exact hu
    · exact ⟨hu.1.perm rfl rfl fun _ hq => hq, hu.2⟩
    · exact ⟨hu.1.handBack hu.2 q', hu.2.erase q'⟩

/-- Nothing moves who waits. -/
theorem frozen_step {l : Step F} (hs : Sound s) (h : Frozen q pos s) (hspare : NobodyKnocked s l)
    (he : step s l = some (.ok t)) : Frozen q pos t := by
  cases l with
  | fieldUpdate => exact h.fieldUpdate hs hspare (Option.some.inj he)
  | monsterProc => exact h.monsterProc (Option.some.inj he)
  | checkDisConnected => exact h.checkDisConnected (Option.some.inj he)
  | dbResults => exact h.dbResults hs.players.cells.nodup (Option.some.inj he)
  | registerPlayer q' accountNo characterID p nickname =>
    unfold step at he
    dsimp only at he
    split_ifs at he with hnew
    exact h.enters (handleRegisterPlayer_player (Option.some.inj he)) hnew.1
  | contentsPacket q' msg =>
    unfold step at he
    dsimp only at he
    split_ifs at he with hq'
    obtain ⟨p, -, hrewrites⟩ := handled_fieldContentsPacketProc (Option.some.inj he)
    refine h.rewrites hrewrites ?_
    rintro rfl
    rw [h.connect] at hq'
    cases hq'.2
  | onRelease q' =>
    cases he
    have hrewrites : Rewrites q' { s.player q' with
        connect := false } s (s.setPlayer q' { s.player q' with connect := false }) :=
      ⟨rfl, rfl, rfl, rfl⟩
    refine h.rewrites hrewrites ?_
    rintro rfl
    exact ⟨rfl, rfl, rfl⟩
  | _ =>
    have hshuffles := shuffles_step rfl he
    exact h.perm hshuffles.player hshuffles.met fun _ hq => hshuffles.players.mem_iff.mp hq

/-! ### The jobs -/

/-- The PositionSaves of `t` that wait for `dbThread` wait in `s`. -/
def NoNewSave (s t : State F) : Prop :=
  ∀ q accountNo pos, DBJob.positionSave q accountNo pos ∈ t.dbReqQ →
    DBJob.positionSave q accountNo pos ∈ s.dbReqQ

omit [Machine F] in
theorem noNewSave_of_saves (h : t.dbReqQ.filter DBJob.isSave = s.dbReqQ.filter DBJob.isSave) :
    NoNewSave s t := by
  intro q accountNo pos hjob
  have hmem : DBJob.positionSave q accountNo pos ∈ t.dbReqQ.filter DBJob.isSave :=
    List.mem_filter.mpr ⟨hjob, rfl⟩
  rw [h] at hmem
  exact (List.mem_filter.mp hmem).1

theorem saves_fieldUpdate (h : fieldUpdate s = .ok t) :
    t.dbReqQ.filter DBJob.isSave = s.dbReqQ.filter DBJob.isSave := by
  -- a loop whose passes leave them alone
  have hloop : ∀ {α : Type} {f : State F → α → Except Stop (State F)},
      (∀ u v a, f u a = .ok v → v.dbReqQ.filter DBJob.isSave = u.dbReqQ.filter DBJob.isSave) →
      ∀ {l : List α} {u v : State F}, l.foldlM f u = .ok v →
        v.dbReqQ.filter DBJob.isSave = u.dbReqQ.filter DBJob.isSave := by
    intro α f hf l u v he
    exact foldlM_keeps (P := fun w => w.dbReqQ.filter DBJob.isSave = u.dbReqQ.filter DBJob.isSave)
      (fun x y a _ hx hy => (hf x y a hy).trans hx) rfl he
  unfold fieldUpdate at h
  obtain ⟨s1, h1, h⟩ := bind_ok h
  obtain ⟨s2, h2, h⟩ := bind_ok h
  obtain ⟨s3, h3, h⟩ := bind_ok h
  obtain ⟨s4, h4, h⟩ := bind_ok h
  have hplayer : ∀ (u v : State F) q, updatePlayer u q = .ok v →
      v.dbReqQ.filter DBJob.isSave = u.dbReqQ.filter DBJob.isSave := by
    intro u v q hv
    obtain ⟨p, -, hrewrites⟩ := updatePlayer_player hv
    exact hrewrites.saves
  have hmonster : ∀ (u v : State F) id, updateMonster u id = .ok v →
      v.dbReqQ.filter DBJob.isSave = u.dbReqQ.filter DBJob.isSave := by
    intro u v id hv
    rcases updateMonster_player hv with hsame | ⟨_, _, _, _, _, _, _, _, _, hrewrites⟩
    · exact hsame.saves
    · exact hrewrites.saves
  calc t.dbReqQ.filter DBJob.isSave
      = s4.dbReqQ.filter DBJob.isSave := hloop (fun _ _ _ hv => (updateItem_player hv).saves) h
    _ = s3.dbReqQ.filter DBJob.isSave :=
      hloop (fun _ _ _ hv => (updateMonsterSector_player hv).saves) h4
    _ = s2.dbReqQ.filter DBJob.isSave := hloop hmonster h3
    _ = s1.dbReqQ.filter DBJob.isSave := hloop (fun _ _ _ hv => (updateSector_player hv).saves) h2
    _ = (s.record .fieldUpdate).dbReqQ.filter DBJob.isSave := hloop hplayer h1
    _ = s.dbReqQ.filter DBJob.isSave := rfl

theorem saves_monsterProc (h : monsterProc s = .ok t) :
    t.dbReqQ.filter DBJob.isSave = s.dbReqQ.filter DBJob.isSave := by
  have hloop :=
      foldlM_keeps (P := fun u => u.dbReqQ.filter DBJob.isSave = s.dbReqQ.filter DBJob.isSave ∧
    u.monsters = s.monsters) ?_ ⟨rfl, rfl⟩ h
  · exact hloop.1
  · intro u v id hid hu hv
    rw [← hu.2] at hid
    exact ⟨(procMonster_player hid hv).saves.trans hu.1, (calms_procMonster hid hv).2.trans hu.2⟩

omit [Machine F] in
theorem saves_dbResults (h : dbResultPacketProc s = .ok t) :
    t.dbReqQ.filter DBJob.isSave = s.dbReqQ.filter DBJob.isSave := by
  unfold dbResultPacketProc at h
  apply foldlM_keeps (P := fun u => u.dbReqQ.filter DBJob.isSave =
    s.dbReqQ.filter DBJob.isSave) _ rfl h
  intro u v result _ hu hv
  rcases dbResult_cases hv with ⟨-, rfl | ⟨q', packet, -, -, rfl⟩⟩ | ⟨q', -, -, rfl⟩
  · exact hu
  · exact hu
  · exact hu

/-- A PositionSave is asked for by `checkDisConnectedAndLeavePlayer` alone. -/
theorem noNewSave_step {l : Step F} (hl : l ≠ .checkDisConnected) (he : step s l = some (.ok t)) :
    NoNewSave s t := by
  cases l with
  | checkDisConnected => exact absurd rfl hl
  | fieldUpdate => exact noNewSave_of_saves (saves_fieldUpdate (Option.some.inj he))
  | monsterProc => exact noNewSave_of_saves (saves_monsterProc (Option.some.inj he))
  | dbResults => exact noNewSave_of_saves (saves_dbResults (Option.some.inj he))
  | registerPlayer q' accountNo characterID p nickname =>
    unfold step at he
    dsimp only at he
    split_ifs at he
    exact noNewSave_of_saves (handleRegisterPlayer_player (Option.some.inj he)).saves
  | contentsPacket q' msg =>
    unfold step at he
    dsimp only at he
    split_ifs at he
    obtain ⟨p, -, hrewrites⟩ := handled_fieldContentsPacketProc (Option.some.inj he)
    exact noNewSave_of_saves hrewrites.saves
  | onRelease q' =>
    cases he
    exact noNewSave_of_saves rfl
  | _ => exact fun _ _ _ hjob => (shuffles_step rfl he).jobs _ hjob

/-- Whoever has a PositionSave that waits for `dbThread` is where it says. -/
def Saving (s : State F) : Prop :=
  ∀ q accountNo pos, DBJob.positionSave q accountNo pos ∈ s.dbReqQ → Frozen q pos s

theorem Saving.checkDisConnected (h : Saving s) (hs : Sound s)
    (he : checkDisConnectedAndLeavePlayer s = .ok t) :
    Saving t := by
  have hloop := foldlM_keeps (P := fun u => Saving u ∧ Sound u ∧ u.players = s.players ∧
    ∀ q', (u.player q').connect = (s.player q').connect) ?_ ⟨h, hs, rfl, fun _ => rfl⟩ he
  · exact hloop.1
  · intro u v q' hq' ⟨hu, hsu, hplayers, hconnect⟩ hv
    obtain ⟨hmem, hout⟩ := List.mem_filter.mp (List.mem_of_mem_take hq')
    have hmem' : q' ∈ u.players := by
      rw [hplayers]
      exact hmem
    have hout' : (u.player q').connect = false := by
      rw [hconnect]
      simpa using hout
    have hkeeps := saveDisconnected_keeps hv
    have hsv : Sound v := Stays.sound (acts_saveDisconnected hmem' hout' hv).calms.ticks.stays hsu
    refine ⟨fun q accountNo pos hjob => ?_, hsv, hkeeps.1.trans hplayers,
      fun q => (hkeeps.2 q).trans (hconnect q)⟩
    by_cases hold : DBJob.positionSave q accountNo pos ∈ u.dbReqQ
    · exact (hu q accountNo pos hold).saveDisconnected hv
    · -- the job is the one of `q'`
      rcases saveDisconnected_cases hv with rfl | ⟨-, -, rfl⟩
      · exact absurd hjob hold
      · have hnew : DBJob.positionSave q accountNo pos =
            .positionSave (u.player q').seqID (u.player q').accountNo (u.player q').pos :=
          List.mem_singleton.mp ((List.mem_append.mp hjob).resolve_left hold)
        rw [hsu.players.name q' hmem'] at hnew
        cases hnew
        have hself : (Function.update u.player q' { u.player q' with savePending := true }) q' =
            { u.player q' with savePending := true } := Function.update_self _ _ _
        refine ⟨hsu.players.met q' hmem', ?_, ?_, fun _ => ?_⟩
        · exact (congrArg Player.connect hself).trans hout'
        · exact (congrArg Player.pos hself).trans rfl
        · exact congrArg Player.savePending hself

theorem saving_step {l : Step F} (hs : Sound s) (h : Saving s) (hspare : NobodyKnocked s l)
    (he : step s l = some (.ok t)) : Saving t := by
  by_cases hl : l = .checkDisConnected
  · subst hl
    exact h.checkDisConnected hs (Option.some.inj he)
  · intro q accountNo pos hjob
    exact frozen_step hs (h q accountNo pos (noNewSave_step hl he q accountNo pos hjob)) hspare he

/-! ### The runs -/

theorem saving_reachable (h : (field.restrict NobodyKnocked).Reachable s) : Saving s := by
  refine field_runs_if (fun hs q accountNo pos hjob => ?_)
    (fun hs h hl he => saving_step hs h hl he) h
  rw [hs.idle.1] at hjob
  cases hjob

theorem frozen_exec {ls : List (Step F)} (h : (field.restrict NobodyKnocked).Reachable s)
    (hq : Frozen q pos s) (hrun : (field.restrict NobodyKnocked).exec s ls = some t) :
    Frozen q pos t := by
  induction ls generalizing s with
  | nil =>
    cases hrun
    exact hq
  | cons l ls ih =>
    obtain ⟨u, hu, hrun⟩ := Option.bind_eq_some_iff.mp hrun
    have hnext := System.restrict_next.mp hu
    refine ih (h.step l hu) ?_ hrun
    exact frozen_step (sound h.of_restrict) hq hnext.1 (field_next.mp hnext.2)

/-- From the request to the removal, and after it, the player stands where its PositionSave says. -/
theorem saved_position {ls : List (Step F)} {accountNo : ℤ}
    (h : (field.restrict NobodyKnocked).Reachable s)
    (hjob : DBJob.positionSave q accountNo pos ∈ s.dbReqQ)
    (hrun : (field.restrict NobodyKnocked).exec s ls = some t) : (t.player q).pos = pos :=
  (frozen_exec h (saving_reachable h q accountNo pos hjob) hrun).pos

end

/-! ### Two runs -/

/-- A PositionSave of the session 1. -/
def saveOf1 : DBJob ℚ → Bool
  | .positionSave q _ _ => q = 1
  | _ => false

/-- A PositionSave at the upper edge. -/
def at0 : DBJob ℚ → Bool
  | .positionSave _ _ pos => pos.y = 0
  | _ => false

/-- Session 1 enters and ends, and asks for its PositionSave. -/
def logout : List (Step ℚ) :=
  [.registerPlayer 1 7 11 ⟨0, 0⟩ [], .fieldUpdate, .monsterProc, .onRelease 1, .checkDisConnected]

theorem exists_save {s : State ℚ} (h : s.dbReqQ.any saveOf1 = true) :
    ∃ accountNo pos, DBJob.positionSave 1 accountNo pos ∈ s.dbReqQ := by
  obtain ⟨job, hjob, hone⟩ := List.any_eq_true.mp h
  cases job with
  | positionSave q accountNo pos =>
    obtain rfl : q = 1 := of_decide_eq_true hone
    exact ⟨accountNo, pos, hjob⟩
  | _ => cases hone

/-- Its PositionSave is done while the field goes on. -/
def saved1 : List (Step ℚ) :=
  [.dbDequeue, .fieldUpdate, .monsterProc, .dbAnswer ⟨[], 0, 0⟩, .fieldUpdate, .dbResults]

/-- The player is removed where its PositionSave says. -/
theorem saved_position_logout : ∃ (s t : State ℚ) (accountNo : ℤ) (pos : Position ℚ),
    DBJob.positionSave 1 accountNo pos ∈ s.dbReqQ ∧ 1 ∈ s.players ∧ 1 ∉ t.players ∧
      (t.player 1).pos = pos := by
  have hrun : (field.execIf nobodyKnocked oneMonster logout).any (fun s => s.dbReqQ.any saveOf1 ∧
      1 ∈ s.players ∧
      (field.execIf nobodyKnocked s saved1).any fun t => 1 ∉ t.players) = true := by decide +kernel
  obtain ⟨s, hs, hp⟩ := Option.any_eq_true _ _ |>.mp hrun
  obtain ⟨hsave, hin, hrest⟩ := of_decide_eq_true hp
  obtain ⟨t, ht, hout⟩ := Option.any_eq_true _ _ |>.mp hrest
  obtain ⟨accountNo, pos, hjob⟩ := exists_save hsave
  have hreach : (field.restrict NobodyKnocked).Reachable s :=
    System.Reachable.execIf (fun _ _ h => h) _ (.start oneMonster_init) hs
  exact ⟨s, t, accountNo, pos, hjob, hin, of_decide_eq_true hout,
    saved_position hreach hjob (System.exec_of_execIf (fun _ _ h => h) ht)⟩

/-- Session 1 hits the monster, ends, and asks for its PositionSave. -/
def strikeAndLeave : List (Step ℚ) :=
  [.registerPlayer 1 7 11 ⟨0, 0⟩ []] ++ strike ++ [.fieldUpdate, .onRelease 1, .checkDisConnected]

/-- The monster attacks while the player waits, and knocks it back. -/
theorem knocked_back : ∃ (s t : State ℚ) (ls : List (Step ℚ)) (accountNo : ℤ) (pos : Position ℚ),
    field.Reachable s ∧
    DBJob.positionSave 1 accountNo pos ∈ s.dbReqQ ∧ field.exec s ls = some t ∧ 1 ∈ s.players ∧
      1 ∉ t.players ∧
      (t.player 1).pos ≠ pos := by
  have hrun : (field.exec oneMonster strikeAndLeave).any (fun s => s.dbReqQ.any saveOf1 ∧
      1 ∈ s.players ∧
      (∀ job ∈ s.dbReqQ, at0 job) ∧ (field.exec s (List.replicate 70 .fieldUpdate ++ saved1)).any
        fun t => 1 ∉ t.players ∧ (t.player 1).pos.y = 100) = true := by decide +kernel
  obtain ⟨s, hs, hp⟩ := Option.any_eq_true _ _ |>.mp hrun
  obtain ⟨hsave, hin, hat, hrest⟩ := of_decide_eq_true hp
  obtain ⟨t, ht, hout⟩ := Option.any_eq_true _ _ |>.mp hrest
  obtain ⟨hgone, hy⟩ := of_decide_eq_true hout
  obtain ⟨accountNo, pos, hjob⟩ := exists_save hsave
  refine ⟨s, t, _, accountNo, pos, .exec _ (.start oneMonster_init) hs, hjob, ht, hin, hgone, ?_⟩
  rintro rfl
  have h0 : (t.player 1).pos.y = 0 := of_decide_eq_true (hat _ hjob)
  rw [hy] at h0
  cases h0

end Field
end MyMMO
