/-
# What the functions of the field do to its players

Each function of the field thread rewrites the object of one player or of none. `Handles` is what a
packet leaves of the player it comes from, `Keeps` what a tick leaves of each, and the others say
which object becomes what.
-/
import MyMMO.Acts

namespace MyMMO
namespace Field

open Machine Outcome
open Sector (getAroundSectors)

variable {F : Type}

/-- A PositionSave. -/
def DBJob.isSave : DBJob F → Bool
  | .positionSave _ _ _ => true
  | _ => false

/-- Nobody is rewritten. -/
structure SamePlayers (s t : State F) : Prop where
  player : t.player = s.player
  players : t.players = s.players
  met : t.met = s.met
  saves : t.dbReqQ.filter DBJob.isSave = s.dbReqQ.filter DBJob.isSave

/-- `q` becomes `p`, and nobody else is rewritten. -/
structure Rewrites (q : ℕ) (p : Player F) (s t : State F) : Prop where
  player : t.player = Function.update s.player q p
  players : t.players = s.players
  met : t.met = s.met
  saves : t.dbReqQ.filter DBJob.isSave = s.dbReqQ.filter DBJob.isSave

theorem SamePlayers.trans {s t u : State F} (h : SamePlayers s t) (h' : SamePlayers t u) :
    SamePlayers s u :=
  ⟨h'.player.trans h.player, h'.players.trans h.players, h'.met.trans h.met, h'.saves.trans h.saves⟩

theorem SamePlayers.rewrites {s t : State F} (h : SamePlayers s t) (q : ℕ) :
    Rewrites q (s.player q) s t :=
  ⟨by rw [h.player, Function.update_eq_self], h.players, h.met, h.saves⟩

theorem Rewrites.trans {s t u : State F} {q : ℕ} {p p' : Player F} (h : Rewrites q p s t)
    (h' : Rewrites q p' t u) :
    Rewrites q p' s u :=
  ⟨by rw [h'.player, h.player, Function.update_idem], h'.players.trans h.players,
    h'.met.trans h.met, h'.saves.trans h.saves⟩

theorem Rewrites.self {s t : State F} {q : ℕ} {p : Player F} (h : Rewrites q p s t) :
    t.player q = p := by
  rw [h.player, Function.update_self]

theorem Rewrites.of_ne {s t : State F} {q q' : ℕ} {p : Player F} (h : Rewrites q p s t)
    (hne : q' ≠ q) :
    t.player q' = s.player q' := by
  rw [h.player, Function.update_of_ne hne]

/-! ### Packets -/

section

variable [Machine F]

/-- What a MOVE_START or MOVE_STOP reports. -/
def readReport (msg : Message) : Except Stop (Position F × ℤ) := do
  let (_, msg) ← msg.readInt 8
  let (x, msg) ← readFloat msg
  let (y, msg) ← readFloat msg
  let (direction, _) ← msg.readInt 1
  return (⟨x, y⟩, direction)

omit [Machine F] in
/-- A state in which a MOVE_START is taken. -/
def Player.starts (p : Player F) : Bool :=
  p.state = .idle ∨ p.state = .attack ∧ PLAYER_ATTACK_TOTAL_FRAME - p.animFrame < ALLOW_DELAY_FRAME

omit [Machine F] in
/-- A state in which a MOVE_STOP is. -/
def Player.stops (p : Player F) : Bool := p.state = .idle ∨ p.state = .move

theorem readReport_ok {msg msg1 msg2 msg3 msg4 : Message} {id direction : ℤ} {x y : F}
    (h1 : msg.readInt 8 = .ok (id, msg1)) (h2 : readFloat msg1 = .ok (x, msg2))
    (h3 : readFloat msg2 = .ok (y, msg3)) (h4 : msg3.readInt 1 = .ok (direction, msg4)) :
    readReport msg = .ok (⟨x, y⟩, direction) := by
  unfold readReport
  rw [h1]
  dsimp only [bind, Except.bind]
  rw [h2]
  dsimp only
  rw [h3]
  dsimp only
  rw [h4]
  rfl

omit [Machine F] in
/-- A move of `q` is not taken: `mSyncCnt` may grow by the rest of an attack, and if it grows too
far, the session is ended. -/
def NotTaken (q : ℕ) (s t : State F) : Prop :=
  ∃ syncCnt, Rewrites q { s.player q with syncCnt } s t ∧
    (syncCnt = (s.player q).syncCnt ∨
      syncCnt = ((s.player q).addSync
          (PLAYER_ATTACK_TOTAL_FRAME - (s.player q).animFrame).toNat).syncCnt ∧
        syncCnt ≤ CONFIG_SINK_MAXCOUNT ∨ q ∈ t.disconnects)

variable {s t : State F} {msg : Message} {q : ℕ}

omit [Machine F] in
theorem notTaken_self : NotTaken q s s :=
  ⟨(s.player q).syncCnt, SamePlayers.rewrites ⟨rfl, rfl, rfl, rfl⟩ q, Or.inl rfl⟩

/-- A MOVE_START is not taken, or the player starts where it reports. -/
theorem handleMoveStart_player (h : handleMoveStart s msg q = .ok t) :
    NotTaken q s t ∨ ∃ packetPos direction p, readReport msg = .ok
        (packetPos, direction) ∧ (s.player q).starts = true ∧
      (s.player q).outOfSync packetPos = false ∧
    ((s.player q).place packetPos direction).changeState .move = .ok p ∧
      Rewrites q p s t := by
  unfold handleMoveStart at h
  obtain ⟨⟨_, msg1⟩, h1, h⟩ := bind_ok h
  obtain ⟨⟨x, msg2⟩, h2, h⟩ := bind_ok h
  obtain ⟨⟨y, msg3⟩, h3, h⟩ := bind_ok h
  obtain ⟨⟨direction, msg4⟩, h4, h⟩ := bind_ok h
  obtain ⟨⟨speed, msg5⟩, -, h⟩ := bind_ok h
  obtain ⟨_, -, h⟩ := bind_ok h
  have hreport := readReport_ok h1 h2 h3 h4
  have hstart : (s.player q).starts = true →
      handleMoveStart.start s q x y direction speed (s.player q) = .ok t →
      ∃ packetPos direction p, readReport msg = .ok (packetPos, direction) ∧
        (s.player q).starts = true ∧
        (s.player q).outOfSync packetPos = false ∧
          ((s.player q).place packetPos direction).changeState .move = .ok p ∧
        Rewrites q p s t := by
    intro hstate h
    unfold handleMoveStart.start at h
    obtain ⟨_, hsync, h⟩ := bind_ok h
    obtain ⟨p, hp, h⟩ := bind_ok h
    obtain ⟨_, -, h⟩ := bind_ok h
    obtain ⟨near, -, h⟩ := bind_ok h
    cases h
    exact ⟨⟨x, y⟩, direction, p, hreport, hstate, by simpa using myAssert_ok hsync, hp, rfl,
      rfl, rfl, rfl⟩
  dsimp only at h
  split at h
  iterate 3
    · cases h
      exact Or.inl notTaken_self
  · next hstate =>
    split at h
    · cases h
      refine Or.inl ⟨((s.player q).syncCnt +
        (PLAYER_ATTACK_TOTAL_FRAME - (s.player q).animFrame).toNat) % 2 ^ 64, ?_⟩
      split_ifs with hcnt
      · exact ⟨⟨rfl, rfl, rfl, rfl⟩,
          Or.inr (Or.inr (List.mem_append_right _ (List.mem_singleton_self q)))⟩
      · exact ⟨⟨rfl, rfl, rfl, rfl⟩, Or.inr (Or.inl ⟨rfl, not_lt.mp hcnt⟩)⟩
    · next hlate => exact Or.inr (hstart (by simp [Player.starts, hstate, not_le.mp hlate]) h)
  · next hstate => exact Or.inr (hstart (by simp [Player.starts, hstate]) h)

/-- A MOVE_STOP is not taken, or the player stops where it reports. -/
theorem handleMoveStop_player (h : handleMoveStop s msg q = .ok t) :
    NotTaken q s t ∨ ∃ packetPos direction p, readReport msg = .ok
        (packetPos, direction) ∧ (s.player q).stops = true ∧
      (s.player q).outOfSync packetPos = false ∧ packetPos.InWorld ∧
      (p = (s.player q).place packetPos direction ∨
          ((s.player q).place packetPos direction).changeState .idle = .ok p) ∧
      Rewrites q p s t := by
  unfold handleMoveStop at h
  obtain ⟨⟨_, msg1⟩, h1, h⟩ := bind_ok h
  obtain ⟨⟨x, msg2⟩, h2, h⟩ := bind_ok h
  obtain ⟨⟨y, msg3⟩, h3, h⟩ := bind_ok h
  obtain ⟨⟨direction, msg4⟩, h4, h⟩ := bind_ok h
  obtain ⟨_, -, h⟩ := bind_ok h
  have hreport := readReport_ok h1 h2 h3 h4
  dsimp only at h
  split at h
  iterate 3
    · cases h
      exact Or.inl notTaken_self
  all_goals
    next hstate =>
    have hstops : (s.player q).stops = true := by simp [Player.stops, hstate]
    obtain ⟨_, hleft, h⟩ := bind_ok h
    obtain ⟨_, htop, h⟩ := bind_ok h
    obtain ⟨_, hright, h⟩ := bind_ok h
    obtain ⟨_, hbottom, h⟩ := bind_ok h
    have hworld : Position.InWorld (⟨x, y⟩ : Position F) :=
      ⟨myAssert_ok hleft, myAssert_ok hright, myAssert_ok htop, myAssert_ok hbottom⟩
    split at h
    · cases h
      refine Or.inl ⟨((s.player q).syncCheck ⟨x, y⟩).syncCnt, ?_⟩
      rw [← syncCheck_eq]
      exact ⟨⟨rfl, rfl, rfl, rfl⟩,
        Or.inr (Or.inr (List.mem_append_right _ (List.mem_singleton_self q)))⟩
    · next hsync =>
      split at h
      · obtain ⟨p, hp, h⟩ := bind_ok h
        obtain ⟨near, -, h⟩ := bind_ok h
        cases h
        exact Or.inr ⟨⟨x, y⟩, direction, p, hreport, hstops, by simpa using hsync, hworld,
          Or.inr hp, rfl, rfl, rfl, rfl⟩
      · obtain ⟨p, hp, h⟩ := bind_ok h
        cases hp
        obtain ⟨near, -, h⟩ := bind_ok h
        cases h
        exact Or.inr ⟨⟨x, y⟩, direction, _, hreport, hstops, by simpa using hsync, hworld,
          Or.inl rfl, rfl, rfl, rfl, rfl⟩

/-- A packet is dropped, or it is one of those of `fieldContentsPacketProc`. -/
theorem fieldContentsPacketProc_cases (h : fieldContentsPacketProc s msg q = .ok t) : ∃ type rest,
    msg.readInt 2 = .ok (type, rest) ∧
      (type = PacketType.MOVE_START ∧ handleMoveStart s rest q = .ok t ∨
      type = PacketType.MOVE_STOP ∧ handleMoveStop s rest q = .ok t ∨
        handleAttackReq s rest q = .ok t ∨
      handleLootReq s rest q = .ok t ∨ SamePlayers s t) := by
  unfold fieldContentsPacketProc at h
  obtain ⟨⟨type, rest⟩, htype, h⟩ := bind_ok h
  obtain ⟨_, -, h⟩ := bind_ok h
  refine ⟨type, rest, htype, ?_⟩
  split_ifs at h with hstart hstop
  · exact Or.inl ⟨hstart, h⟩
  · exact Or.inr (Or.inl ⟨hstop, h⟩)
  · exact Or.inr (Or.inr (Or.inl h))
  · exact Or.inr (Or.inr (Or.inr (Or.inl h)))
  · refine Or.inr (Or.inr (Or.inr (Or.inr ?_)))
    unfold handleRankingReq at h
    obtain ⟨_, -, h⟩ := bind_ok h
    cases h
    exact ⟨rfl, rfl, rfl, (List.filter_append _ _).trans (List.append_nil _)⟩
  · cases h
    exact Or.inr (Or.inr (Or.inr (Or.inr ⟨rfl, rfl, rfl, rfl⟩)))

/-- An attack leaves a player as it is, or starts where it is. -/
theorem handleAttackReq_player (h : handleAttackReq s msg q = .ok t) : SamePlayers s t ∨
    ∃ p pendingAttackSkillId pendingAttackTargets,
        (s.player q).stops = true ∧ (s.player q).changeState .attack = .ok p ∧
      Rewrites q { p with pendingAttackSkillId, pendingAttackTargets } s t := by
  unfold handleAttackReq at h
  obtain ⟨⟨skillId, msg⟩, -, h⟩ := bind_ok h
  obtain ⟨⟨targetCnt, msg⟩, -, h⟩ := bind_ok h
  dsimp only at h
  split at h
  · cases h
    exact Or.inl ⟨rfl, rfl, rfl, rfl⟩
  · split at h
    · cases h
      exact Or.inl ⟨rfl, rfl, rfl, rfl⟩
    · obtain ⟨_, -, h⟩ := bind_ok h
      split at h
      iterate 3
        · cases h
          exact Or.inl ⟨rfl, rfl, rfl, rfl⟩
      all_goals
        next hstate =>
        obtain ⟨near, -, h⟩ := bind_ok h
        obtain ⟨p, hp, h⟩ := bind_ok h
        obtain ⟨targets, -, h⟩ := bind_ok h
        cases h
        refine Or.inr ⟨p, skillId, targets, by simp [Player.stops, hstate], hp, ?_, rfl, rfl, rfl⟩
        simp only [State.broadcastPlayerAttack, State.broadcast, State.record, State.setPlayer,
          Function.update_self, Function.update_idem]

theorem handleLootReq_player (h : handleLootReq s msg q = .ok t) :
    SamePlayers s t ∨ ∃ id, Rewrites q ((s.player q).addItem (s.item id)) s t := by
  unfold handleLootReq at h
  obtain ⟨⟨id, msg⟩, -, h⟩ := bind_ok h
  obtain ⟨_, -, h⟩ := bind_ok h
  dsimp only at h
  split at h
  · cases h
    exact Or.inl ⟨rfl, rfl, rfl, rfl⟩
  · split at h
    · cases h
      exact Or.inl ⟨rfl, rfl, rfl, rfl⟩
    · obtain ⟨near, -, h⟩ := bind_ok h
      obtain ⟨_, -, h⟩ := bind_ok h
      cases h
      exact Or.inr ⟨id, rfl, rfl, rfl, rfl⟩

end

/-- What a packet of its client may change of a player. -/
structure Handles (p p' : Player F) : Prop where
  connect : p'.connect = p.connect
  savePending : p'.savePending = p.savePending
  currentSector : p'.currentSector = p.currentSector
  destSector : p'.destSector = p.destSector
  hp : p'.hp = p.hp
  hitStunFrame : p'.hitStunFrame = p.hitStunFrame
  stun : p'.state = .stun ↔ p.state = .stun
  dead : p'.state = .dead ↔ p.state = .dead

theorem handles_iff {p p' : Player F} : Handles p p' ↔
    p'.connect = p.connect ∧ p'.savePending = p.savePending ∧ p'.currentSector = p.currentSector ∧
      p'.destSector = p.destSector ∧ p'.hp = p.hp ∧ p'.hitStunFrame = p.hitStunFrame ∧
      (p'.state = .stun ↔ p.state = .stun) ∧ (p'.state = .dead ↔ p.state = .dead) :=
  ⟨fun ⟨h₁, h₂, h₃, h₄, h₅, h₆, h₇, h₈⟩ => ⟨h₁, h₂, h₃, h₄, h₅, h₆, h₇, h₈⟩,
    fun ⟨h₁, h₂, h₃, h₄, h₅, h₆, h₇, h₈⟩ => ⟨h₁, h₂, h₃, h₄, h₅, h₆, h₇, h₈⟩⟩

instance (p p' : Player F) : Decidable (Handles p p') := decidable_of_iff _ handles_iff.symm

theorem Handles.refl (p : Player F) : Handles p p :=
  ⟨rfl, rfl, rfl, rfl, rfl, rfl, Iff.rfl, Iff.rfl⟩

/-- `q` alone is rewritten, within `Handles`. -/
def Handled (q : ℕ) (s t : State F) : Prop := ∃ p, Handles (s.player q) p ∧ Rewrites q p s t

section

variable {s t : State F} {msg : Message} {q : ℕ}

theorem handled_same (h : SamePlayers s t) : Handled q s t := ⟨s.player q, .refl _, h.rewrites q⟩

theorem handled_set {p : Player F} (hp : Handles (s.player q) p) (h : Rewrites q p s t) :
    Handled q s t := ⟨p, hp, h⟩

variable [Machine F]

theorem handles_place {p : Player F} {packetPos : Position F} {direction : ℤ} :
    Handles p (p.place packetPos direction) := by
  unfold Player.place
  rw [syncCheck_eq]
  exact ⟨rfl, rfl, rfl, rfl, rfl, rfl, Iff.rfl, Iff.rfl⟩

omit [Machine F] in
/-- A change between the states in which a player may act. -/
theorem Handles.changeState {p p' p'' : Player F} {state : PlayerState} (h : Handles p p')
    (hp : p.state ≠ .stun ∧ p.state ≠ .dead) (hstate : state ≠ .stun ∧ state ≠ .dead)
    (hc : p'.changeState state = .ok p'') : Handles p p'' := by
  rw [(changeState_eq hc).2]
  exact ⟨h.connect, h.savePending, h.currentSector, h.destSector, h.hp, h.hitStunFrame,
    iff_of_false hstate.1 hp.1, iff_of_false hstate.2 hp.2⟩

omit [Machine F] in
theorem Player.starts_free {p : Player F} (h : p.starts = true) :
    p.state ≠ .stun ∧ p.state ≠ .dead := by
  rcases of_decide_eq_true h with he | ⟨he, -⟩ <;> rw [he] <;> decide

omit [Machine F] in
theorem Player.stops_free {p : Player F} (h : p.stops = true) :
    p.state ≠ .stun ∧ p.state ≠ .dead := by
  rcases of_decide_eq_true h with he | he <;> rw [he] <;> decide

omit [Machine F] in
theorem NotTaken.handled (h : NotTaken q s t) : Handled q s t := by
  obtain ⟨syncCnt, hst, -⟩ := h
  exact handled_set (p := { s.player q with syncCnt }) ⟨rfl, rfl, rfl, rfl, rfl, rfl, Iff.rfl,
    Iff.rfl⟩ hst

theorem handled_handleMoveStart (h : handleMoveStart s msg q = .ok t) : Handled q s t := by
  rcases handleMoveStart_player h with hnot | ⟨packetPos, direction, p, -, hstart, -, hp, hst⟩
  · exact hnot.handled
  · exact handled_set (handles_place.changeState (Player.starts_free hstart) ⟨by decide,
      by decide⟩ hp) hst

theorem handled_handleMoveStop (h : handleMoveStop s msg q = .ok t) : Handled q s t := by
  rcases handleMoveStop_player h with hnot |
      ⟨packetPos, direction, p, -, hstop, -, -, rfl | hp, hst⟩
  · exact hnot.handled
  · exact handled_set handles_place hst
  · exact handled_set (handles_place.changeState (Player.stops_free hstop) ⟨by decide,
      by decide⟩ hp) hst

theorem handled_handleAttackReq (h : handleAttackReq s msg q = .ok t) : Handled q s t := by
  rcases handleAttackReq_player h with hsame | ⟨p, skillId, targets, hstop, hp, hst⟩
  · exact handled_same hsame
  · have hstart :=
      Handles.changeState (.refl (s.player q)) (Player.stops_free hstop) ⟨by decide, by decide⟩ hp
    refine handled_set ?_ hst
    exact ⟨hstart.connect, hstart.savePending, hstart.currentSector, hstart.destSector, hstart.hp,
      hstart.hitStunFrame, hstart.stun, hstart.dead⟩

theorem handled_handleLootReq (h : handleLootReq s msg q = .ok t) : Handled q s t := by
  rcases handleLootReq_player h with hsame | ⟨id, hst⟩
  · exact handled_same hsame
  · exact handled_set (p := (s.player q).addItem (s.item id)) ⟨rfl, rfl, rfl, rfl, rfl, rfl,
      Iff.rfl, Iff.rfl⟩ hst

/-- A packet changes nobody but the player it comes from. -/
theorem handled_fieldContentsPacketProc (h : fieldContentsPacketProc s msg q = .ok t) :
    Handled q s t := by
  obtain ⟨type, rest, -, h⟩ := fieldContentsPacketProc_cases h
  rcases h with ⟨-, h⟩ | ⟨-, h⟩ | h | h | hsame
  · exact handled_handleMoveStart h
  · exact handled_handleMoveStop h
  · exact handled_handleAttackReq h
  · exact handled_handleLootReq h
  · exact handled_same hsame

/-! ### Ticks -/

/-- What a tick of the players leaves of each of them. -/
structure Keeps (p p' : Player F) : Prop where
  connect : p'.connect = p.connect
  savePending : p'.savePending = p.savePending
  currentSector : p'.currentSector = p.currentSector
  pos : p.connect = false → p'.pos = p.pos

theorem dropItem_player {m : Monster F} (h : dropItem s m = .ok t) : SamePlayers s t := by
  have hdrop := dropItem_dropped h
  cases hdrop <;> exact ⟨rfl, rfl, rfl, rfl⟩

omit [Machine F] in
theorem requestKillCountUpdate_player (s : State F) (q : ℕ) (killCnt monsterID : ℤ) :
    SamePlayers s (requestKillCountUpdate s q killCnt monsterID) := by
  refine ⟨rfl, rfl, rfl, ?_⟩
  exact (List.filter_append _ _).trans (List.append_nil _)

theorem hitTargets_player {rangeLen : F} {ids : List ℤ} {maxTargetCnt : ℤ}
    (h : hitTargets q rangeLen ids maxTargetCnt s = .ok t) : SamePlayers s t := by
  induction ids generalizing s maxTargetCnt with
  | nil =>
    cases h
    exact ⟨rfl, rfl, rfl, rfl⟩
  | cons id ids ih =>
    unfold hitTargets at h
    dsimp only at h
    split at h
    · exact ih h
    · obtain ⟨m, -, h⟩ := bind_ok h
      obtain ⟨near, -, h⟩ := bind_ok h
      -- the other targets, after the monster has been hit
      have hrest : ∀ u : State F, SamePlayers s u →
          (if maxTargetCnt - 1 = 0 then pure u else
              hitTargets q rangeLen ids (maxTargetCnt - 1) u) = Except.ok t →
          SamePlayers s t := by
        intro u hu h
        split at h
        · cases h
          exact hu
        · exact hu.trans (ih h)
      split at h
      · obtain ⟨u, hu, h⟩ := bind_ok h
        obtain ⟨v, hv, rfl⟩ := map_ok hu
        have hv := (dropItem_player hv).trans (requestKillCountUpdate_player v q 1 id)
        exact hrest (requestKillCountUpdate v q 1 id) ⟨hv.player, hv.players, hv.met, hv.saves⟩ h
      · obtain ⟨u, hu, h⟩ := bind_ok h
        cases hu
        have hsame := fun hplayer => hrest _ hplayer h
        exact hsame ⟨rfl, rfl, rfl, rfl⟩

/-- The hits of an attack change the targets of who attacks. -/
theorem processPlayerAttackHit_player (h : processPlayerAttackHit s q = .ok t) :
    ∃ targets, Rewrites q { s.player q with pendingAttackTargets := targets } s t := by
  unfold processPlayerAttackHit at h
  dsimp only at h
  split at h
  · cases h
    exact ⟨(s.player q).pendingAttackTargets, (Function.update_eq_self q s.player).symm,
      rfl, rfl, rfl⟩
  · have hsame := hitTargets_player h
    exact ⟨_, ⟨hsame.player, hsame.players, hsame.met, hsame.saves⟩⟩

theorem updateSectorChechk_player (s : State F) (q : ℕ) :
    ∃ destSector, Rewrites q { s.player q with destSector } s (updateSectorChechk s q) := by
  unfold updateSectorChechk
  dsimp only
  split_ifs
  · exact ⟨(s.player q).destSector, SamePlayers.rewrites ⟨rfl, rfl, rfl, rfl⟩ q⟩
  · exact ⟨calcSector (s.player q).pos, rfl, rfl, rfl, rfl⟩

/-- A tick of the player `q`: it is updated, then its targets change, and last `updateSectorChechk`
looks at its sector. -/
theorem updatePlayer_check (h : updatePlayer s q = .ok t) : ∃ p pendingAttackTargets u,
    (s.player q).update = .ok p ∧ Rewrites q
    { p with pendingAttackTargets } s u ∧ t = updateSectorChechk u q := by
  unfold updatePlayer at h
  obtain ⟨p, hp, h⟩ := bind_ok h
  have hset : Rewrites q p s (s.setPlayer q p) := ⟨rfl, rfl, rfl, rfl⟩
  dsimp only at h
  split at h
  · obtain ⟨u, hu, h⟩ := bind_ok h
    cases h
    obtain ⟨targets, htargets⟩ := processPlayerAttackHit_player hu
    rw [hset.self] at htargets
    exact ⟨p, targets, u, hp, hset.trans htargets, rfl⟩
  · cases h
    exact ⟨p, p.pendingAttackTargets, s.setPlayer q p, hp, hset, rfl⟩

theorem updatePlayer_self (h : updatePlayer s q = .ok t) : ∃ p pendingAttackTargets destSector,
    (s.player q).update = .ok p ∧ Rewrites q { p with pendingAttackTargets, destSector } s t := by
  obtain ⟨p, targets, u, hp, hu, rfl⟩ := updatePlayer_check h
  obtain ⟨destSector, hlast⟩ := updateSectorChechk_player u q
  rw [hu.self] at hlast
  exact ⟨p, targets, destSector, hp, hu.trans hlast⟩

theorem keeps_update {p p' : Player F} (h : p.update = .ok p') : Keeps p p' := by
  have hpos : p.connect = false → p'.pos = p.pos := by
    intro hc
    unfold Player.update at h
    rw [if_pos hc] at h
    cases h
    rfl
  have heq := update_eq h
  exact ⟨by rw [heq], by rw [heq], by rw [heq], hpos⟩

theorem updatePlayer_player (h : updatePlayer s q = .ok t) :
    ∃ p, Keeps (s.player q) p ∧ Rewrites q p s t := by
  obtain ⟨p, targets, destSector, hp, hrewrites⟩ := updatePlayer_self h
  have hk := keeps_update hp
  refine ⟨{ p with pendingAttackTargets := targets, destSector }, ?_, hrewrites⟩
  exact ⟨hk.connect, hk.savePending, hk.currentSector, hk.pos⟩

omit [Machine F] in
/-- The player `q` is where it is to be. -/
theorem updateSector_player (h : updateSector s q = .ok t) :
    Rewrites q { s.player q with currentSector := (s.player q).destSector } s t := by
  unfold updateSector at h
  dsimp only at h
  split_ifs at h with hne
  · cases h
    refine ⟨?_, rfl, rfl, rfl⟩
    rw [← hne, Function.update_eq_self]
  · obtain ⟨_, -, h⟩ := bind_ok h
    obtain ⟨⟨spawnSector, despawnSector⟩, -, h⟩ := bind_ok h
    obtain ⟨sent, hsent⟩ : Sends s ((s.sendSpawns q spawnSector).sendDespawns q despawnSector) :=
      (sends_sendSpawns q spawnSector).trans (sends_sendDespawns q despawnSector)
    dsimp only at h
    rw [hsent] at h
    cases h
    exact ⟨rfl, rfl, rfl, rfl⟩

/-- The player that the hit of a monster finds. -/
def struck (s : State F) (m : Monster F) : Option ℕ :=
  closestPlayer s m.pos (s.near m.sector.around) Monster.MONSTER_ATTACK_RANGE none

theorem processMonsterAttackHit_player {m : Monster F} (h : processMonsterAttackHit s m = .ok t) :
    SamePlayers s t ∨ ∃ q p, struck s m = some q ∧
      (s.player q).takeDamage MONSTER_ATTACK_DAMAGE m = .ok p ∧
      Rewrites q p s t := by
  unfold processMonsterAttackHit at h
  obtain ⟨near, hnear, h⟩ := bind_ok h
  obtain ⟨-, rfl⟩ := Sector.getAroundSectors_eq hnear
  split at h
  · cases h
    exact Or.inl ⟨rfl, rfl, rfl, rfl⟩
  · next q hclosest =>
    obtain ⟨p, hp, h⟩ := bind_ok h
    obtain ⟨near, -, h⟩ := bind_ok h
    cases h
    exact Or.inr ⟨q, p, hclosest, hp, rfl, rfl, rfl, rfl⟩

/-- In a tick of a monster, the players change by its hit alone. -/
theorem updateMonster_player {id : ℤ} (h : updateMonster s id = .ok t) :
    SamePlayers s t ∨ ∃ m rands q p, nextMonster s id = .ok (m, rands) ∧ m.state = .attack ∧
      m.animFrame = MONSTER_ATTACK_WINDUP_FRAME ∧ struck s m = some q ∧
      (s.player q).takeDamage MONSTER_ATTACK_DAMAGE m = .ok p ∧ Rewrites q p s t := by
  obtain ⟨m, rands, hm, u, rfl, hu⟩ := updateMonster_next h
  rcases hu with ⟨hstate, hframe, hu⟩ | ⟨-, rfl⟩
  · rcases processMonsterAttackHit_player hu with hsame | ⟨q, p, hq, hp, hplayer⟩
    · exact Or.inl ⟨hsame.player, hsame.players, hsame.met, hsame.saves⟩
    · refine Or.inr ⟨m, rands, q, p, hm, hstate, hframe, ?_, hp, hplayer.player, hplayer.players,
        hplayer.met, hplayer.saves⟩
      exact (closestPlayer_congr (s := s) (t := s.ticked id m rands) rfl _ _ _ _).symm.trans hq
  · exact Or.inl ⟨rfl, rfl, rfl, rfl⟩

omit [Machine F] in
theorem updateMonsterSector_player {id : ℤ} (h : updateMonsterSector s id = .ok t) :
    SamePlayers s t := by
  rcases updateMonsterSector_cases h with ⟨rfl, -⟩ | ⟨-, -, rfl⟩ <;> exact ⟨rfl, rfl, rfl, rfl⟩

omit [Machine F] in
theorem updateItem_player {id : ℤ} (h : updateItem s id = .ok t) : SamePlayers s t := by
  unfold updateItem at h
  dsimp only at h
  split at h
  · obtain ⟨near, -, h⟩ := bind_ok h
    cases h
    exact ⟨rfl, rfl, rfl, rfl⟩
  · cases h
    exact ⟨rfl, rfl, rfl, rfl⟩

omit [Machine F] in
theorem procMonster_player {id : ℤ} (hid : id ∈ s.monsters) (h : procMonster s id = .ok t) :
    SamePlayers s t := by
  rcases act_procMonster hid h with ⟨rfl, -⟩ | hproc
  · exact ⟨rfl, rfl, rfl, rfl⟩
  · cases hproc <;> exact ⟨rfl, rfl, rfl, rfl⟩

/-! ### Entering and leaving -/

/-- `q` enters as `p`. -/
structure Enters (q : ℕ) (p : Player F) (s t : State F) : Prop where
  player : t.player = Function.update s.player q p
  players : t.players = q :: s.players
  met : t.met = q :: s.met
  saves : t.dbReqQ.filter DBJob.isSave = s.dbReqQ.filter DBJob.isSave

theorem handleRegisterPlayer_player
    {accountNo characterID : ℤ} {pos : Position F} {nickname : List UInt8}
    (h : handleRegisterPlayer s (.login q accountNo characterID pos nickname) = .ok t) :
    Enters q (entered q accountNo characterID pos nickname) s t := by
  obtain rfl := handleRegisterPlayer_eq h
  obtain ⟨sent, hsent⟩ := sends_sendSpawns
    (s := s.enter q (entered q accountNo characterID pos nickname)) q (calcSector pos).around
  rw [hsent]
  exact ⟨rfl, rfl, rfl, rfl⟩

omit [Machine F] in
theorem saveDisconnected_cases (h : saveDisconnected s q = .ok t) : t = s ∨
    q ∈ s.players ∧ (s.player q).savePending = false ∧ t =
      ((s.setPlayer q { s.player q with savePending := true }).record (.positionSave q)).enqueueJob
      (.positionSave (s.player q).seqID (s.player q).accountNo (s.player q).pos) := by
  unfold saveDisconnected at h
  obtain ⟨_, hq, h⟩ := bind_ok h
  split_ifs at h with hpending
  · cases h
    exact Or.inl rfl
  · unfold requestPositionSave at h
    obtain ⟨_, -, h⟩ := bind_ok h
    cases h
    exact Or.inr ⟨of_decide_eq_true (myAssert_ok hq), by simpa using hpending, rfl⟩

/-! ### The steps beside the field thread -/

omit [Machine F] in
/-- What `dbThread` does, and a container that is gone through in another order. -/
def Step.quiet : Step F → Bool
  | .dbDequeue | .dbAnswer _ | .rehashPlayers _ | .rehashSector _ _ | .rehashMonsters _
  | .rehashMonsterSector _ _
  | .rehashItems _ | .rehashItemSector _ _ => true
  | _ => false

/-- The players are the same, in some order, and there are no new jobs. -/
structure Shuffles (s t : State F) : Prop where
  player : t.player = s.player
  players : t.players.Perm s.players
  met : t.met = s.met
  jobs : ∀ job ∈ t.dbReqQ, job ∈ s.dbReqQ

theorem shuffles_step {l : Step F} (hl : l.quiet = true) (h : step s l = some (.ok t)) :
    Shuffles s t := by
  unfold step at h
  cases l with
  | dbDequeue =>
    dsimp only at h
    split at h
    · next job dbReqQ hjob hqueue =>
      cases h
      exact ⟨rfl, .refl _, rfl,
        fun job' hjob' => by rw [hqueue]; exact List.mem_cons_of_mem _ hjob'⟩
    · cases h
  | dbAnswer ranking =>
    dsimp only at h
    split at h
    · cases h
    · cases h
      exact ⟨rfl, .refl _, rfl, fun _ hjob => hjob⟩
  | rehashPlayers players =>
    dsimp only at h
    split_ifs at h with hp
    cases h
    exact ⟨rfl, hp, rfl, fun _ hjob => hjob⟩
  | rehashSector | rehashMonsters | rehashMonsterSector | rehashItems | rehashItemSector =>
    dsimp only at h
    split_ifs at h
    cases h
    exact ⟨rfl, .refl _, rfl, fun _ hjob => hjob⟩
  | _ => cases hl

end

end Field
end MyMMO
