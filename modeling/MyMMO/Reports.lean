/-
# How far position reports take a player

MOVE_START and MOVE_STOP put a player where they report. What is beyond `syncDistance` of where the
server has it is added to `mSyncCnt`, rounded down, and the report is not taken if that comes over
CONFIG_SINK_MAXCOUNT; what is within is free, and takes 10 off. So between two ticks the reports can
take a player as far as there are reports (`slides`), and no farther than that (`reports_bounded`).
-/
import MyMMO.Kinematics

namespace MyMMO
namespace Field

open Machine Outcome

/-! ### Ended sessions -/

section

variable {F : Type} [Machine F] {s t : State F} {q : ℕ}

theorem Dropped.disconnects {m : Monster F} (h : Dropped s m t) :
    t.disconnects = s.disconnects := by
  cases h <;> rfl

/-- No effect takes back a call of `disconnectSession`. -/
theorem Act.ended (ha : Act s t) (h : q ∈ s.disconnects) : q ∈ t.disconnects := by
  cases ha with
  | kill q' id m u hq hid hstate hm hdead hgrid hu =>
    change q ∈ u.disconnects
    rw [hu.disconnects]
    exact h
  | cross q' hq hne =>
    obtain ⟨sent, hrest⟩ := cross_rest (s := s) q'
    rw [hrest]
    exact h
  | disconnectSession q' => exact List.mem_append_left _ h
  | _ => exact h

theorem MonsterAct.ended {id : ℤ} (ha : MonsterAct id s t) (h : q ∈ s.disconnects) :
    q ∈ t.disconnects := by
  cases ha with
  | proc ht => cases ht <;> exact h
  | _ => exact h

theorem ended_step (hs : Sound s) {l : Step F} (he : step s l = some (.ok t))
    (h : q ∈ s.disconnects) : q ∈ t.disconnects := by
  have heffects := effects_step (fun u hu => (hu.sound hs).items.cells.nodup) he
  refine heffects.keeps (P := fun u => q ∈ u.disconnects) (fun hu ha => ?_) (fun hu => hu)
    (fun hu _ => hu) h
  rcases ha with ((ha | ⟨id, ha⟩) | ⟨q', ha⟩) | ⟨id, ha⟩ | ⟨q', rfl⟩
  · exact ha.ended hu
  · exact ha.ended hu
  · cases ha <;> exact hu
  · cases ha <;> exact hu
  · exact hu

/-! ### Who is not moved -/

/-- `q` is where it was, with the `mSyncCnt` that it had. -/
structure Unmoved (q : ℕ) (s t : State F) : Prop where
  pos : (t.player q).pos = (s.player q).pos
  syncCnt : (t.player q).syncCnt = (s.player q).syncCnt
  animFrame : (t.player q).animFrame = (s.player q).animFrame
  met : q ∈ s.met → q ∈ t.met

omit [Machine F] in
theorem Unmoved.refl (q : ℕ) (s : State F) : Unmoved q s s := ⟨rfl, rfl, rfl, fun h => h⟩

omit [Machine F] in
theorem Unmoved.trans {u : State F} (h : Unmoved q s t) (h' : Unmoved q t u) : Unmoved q s u :=
  ⟨h'.pos.trans h.pos, h'.syncCnt.trans h.syncCnt, h'.animFrame.trans h.animFrame,
    fun hq => h'.met (h.met hq)⟩

omit [Machine F] in
theorem unmoved_of_player (h : t.player q = s.player q) (hmet : t.met = s.met) : Unmoved q s t :=
  ⟨by rw [h], by rw [h], by rw [h], fun hq => hmet ▸ hq⟩

omit [Machine F] in
theorem unmoved_setPlayer {q' : ℕ} {p : Player F}
    (hplayer : t.player = Function.update s.player q' p) (hpos : p.pos = (s.player q').pos)
    (hsync : p.syncCnt = (s.player q').syncCnt) (hframe : p.animFrame = (s.player q').animFrame)
    (hmet : t.met = s.met) : Unmoved q s t := by
  by_cases he : q = q'
  · subst he
    have hself : t.player q = p := by rw [hplayer, Function.update_self]
    exact ⟨by rw [hself, hpos], by rw [hself, hsync], by rw [hself, hframe], fun hq => hmet ▸ hq⟩
  · exact unmoved_of_player (by rw [hplayer, Function.update_of_ne he]) hmet

/-- What is neither a tick nor from `q` leaves `q` where it is. -/
theorem unmoved_step {l : Step F} (hupdate : l ≠ .fieldUpdate)
    (hpacket : ∀ msg, l ≠ .contentsPacket q msg)
    (henter : q ∈ s.met ∨ ∀ accountNo characterID pos nickname,
      l ≠ .registerPlayer q accountNo characterID pos nickname) (he : step s l = some (.ok t)) :
    Unmoved q s t := by
  cases l with
  | fieldUpdate => exact absurd rfl hupdate
  | monsterProc =>
    have hloop := foldlM_keeps (P := fun u => Unmoved q s u ∧ u.monsters = s.monsters) ?_
      ⟨.refl q s, rfl⟩ (Option.some.inj he)
    · exact hloop.1
    · intro u v id hid hu hv
      rw [← hu.2] at hid
      have hsame := procMonster_player hid hv
      exact ⟨hu.1.trans (unmoved_of_player (by rw [hsame.player]) hsame.met),
        (calms_procMonster hid hv).2.trans hu.2⟩
  | checkDisConnected =>
    refine foldlM_keeps (P := Unmoved q s) (fun u v q' _ hu hv => ?_) (.refl q s)
      (Option.some.inj he)
    rcases saveDisconnected_cases hv with rfl | ⟨-, -, rfl⟩
    · exact hu
    · exact hu.trans (unmoved_setPlayer (p := { u.player q' with
        savePending := true }) rfl rfl rfl rfl rfl)
  | dbResults =>
    have hstart : Unmoved q s { s with dbResQ := [] } := ⟨rfl, rfl, rfl, fun h => h⟩
    refine foldlM_keeps (P := Unmoved q s) (fun u v result _ hu hv => ?_) hstart
      (Option.some.inj he)
    rcases dbResult_cases hv with ⟨-, rfl | ⟨q', packet, -, -, rfl⟩⟩ | ⟨q', -, -, rfl⟩
    · exact hu
    · exact hu.trans ⟨rfl, rfl, rfl, fun h => h⟩
    · exact hu.trans (unmoved_setPlayer (p := { u.player q' with
        savePending := false }) rfl rfl rfl rfl rfl)
  | registerPlayer q' accountNo characterID pos nickname =>
    unfold step at he
    dsimp only at he
    split_ifs at he with hnew
    have hne : q ≠ q' := by
      rintro rfl
      rcases henter with hmet | hother
      · exact hnew.1 hmet
      · exact hother _ _ _ _ rfl
    have henters := handleRegisterPlayer_player (Option.some.inj he)
    have hother : t.player q = s.player q := by rw [henters.player, Function.update_of_ne hne]
    refine ⟨by rw [hother], by rw [hother], by rw [hother], fun hq => ?_⟩
    rw [henters.met]
    exact List.mem_cons_of_mem _ hq
  | contentsPacket q' msg =>
    unfold step at he
    dsimp only at he
    split_ifs at he
    obtain ⟨p, -, hst⟩ := handled_fieldContentsPacketProc (Option.some.inj he)
    have hne : q ≠ q' := by
      rintro rfl
      exact hpacket msg rfl
    exact unmoved_of_player (hst.of_ne hne) hst.met
  | onRelease q' =>
    cases he
    exact unmoved_setPlayer (p := { s.player q' with connect := false }) rfl rfl rfl rfl rfl
  | _ =>
    have hshuffles := shuffles_step rfl he
    exact unmoved_of_player (by rw [hshuffles.player]) hshuffles.met

/-! ### What a tick leaves -/

omit [Machine F] in
/-- `mSyncCnt` stays, and `mAnimFrame` does not go below 0. -/
def Player.Counts (p p' : Player F) : Prop :=
  p'.syncCnt = p.syncCnt ∧ (0 ≤ p.animFrame → 0 ≤ p'.animFrame)

theorem counts_update {p p' : Player F} (h : p.update = .ok p') : p.Counts p' := by
  refine ⟨by rw [update_eq h], fun hframe => ?_⟩
  unfold Player.update at h
  dsimp only at h
  split at h
  · cases h
    exact hframe
  · split at h
    · cases h
      exact Int.add_nonneg hframe (by decide)
    · split at h
      · rw [(changeState_eq h).2]
      · cases h
        exact Int.add_nonneg hframe (by decide)
    · split at h
      · cases h
        exact Int.add_nonneg hframe (by decide)
      · rw [(changeState_eq h).2]
    iterate 2
      · cases h
        exact Int.add_nonneg hframe (by decide)

theorem counts_takeDamage {p p' : Player F} {damage : ℤ} {m : Monster F}
    (h : p.takeDamage damage m = .ok p') : p.Counts p' := by
  refine ⟨by rw [takeDamage_eq h], fun hframe => ?_⟩
  unfold Player.takeDamage at h
  dsimp only at h
  split_ifs at h
  · cases h
    exact hframe
  · rw [(changeState_eq h).2]
  · cases h
    exact le_rfl
  · rw [(changeState_eq h).2]

theorem counts_fieldUpdate (he : fieldUpdate s = .ok t) (q : ℕ) :
    (s.player q).Counts (t.player q) := by
  -- each pass of the loops rewrites at most one player
  have hsame : ∀ {u v : State F}, SamePlayers u v → (u.player q).Counts (v.player q) := fun h => by
    rw [h.player]
    exact ⟨rfl, id⟩
  have hrewrites : ∀ {u v : State F} {q' : ℕ} {p : Player F}, Rewrites q' p u v →
      (u.player q').Counts p →
      (u.player q).Counts (v.player q) := by
    intro u v q' p h hp
    by_cases he : q = q'
    · subst he
      rwa [h.self]
    · rw [h.of_ne he]
      exact ⟨rfl, id⟩
  have hloop : ∀ {α : Type} {f : State F → α → Except Stop (State F)} {as : List α} {u v : State F},
      (∀ u v a, f u a = .ok v → (u.player q).Counts (v.player q)) → as.foldlM f u = .ok v →
      (u.player q).Counts (v.player q) := fun hf h =>
    foldlM_rel (R := fun u v : State F => (u.player q).Counts (v.player q)) (fun _ => ⟨rfl, id⟩)
      (fun _ _ _ h h' => ⟨h'.1.trans h.1, fun hframe => h'.2 (h.2 hframe)⟩) hf h
  unfold fieldUpdate at he
  obtain ⟨s1, h1, he⟩ := bind_ok he
  obtain ⟨s2, h2, he⟩ := bind_ok he
  obtain ⟨s3, h3, he⟩ := bind_ok he
  obtain ⟨s4, h4, he⟩ := bind_ok he
  have hs1 := hloop (fun u v q' hv => by
    obtain ⟨p, targets, destSector, hp, hst⟩ := updatePlayer_self hv
    have hcounts := counts_update hp
    exact hrewrites hst ⟨hcounts.1, hcounts.2⟩) h1
  have hs2 := hloop (fun u v q' hv => hrewrites (updateSector_player hv) ⟨rfl, id⟩) h2
  have hs3 := hloop (fun u v id hv => by
    rcases updateMonster_player hv with h | ⟨m, rands, q', p, -, -, -, -, hp, hst⟩
    · exact hsame h
    · exact hrewrites hst (counts_takeDamage hp)) h3
  have hs4 := hloop (fun u v id hv => hsame (updateMonsterSector_player hv)) h4
  have hs5 := hloop (fun u v id hv => hsame (updateItem_player hv)) he
  exact ⟨hs5.1.trans (hs4.1.trans (hs3.1.trans (hs2.1.trans hs1.1))),
    fun hframe => hs5.2 (hs4.2 (hs3.2 (hs2.2 (hs1.2 hframe))))⟩

/-! ### A packet of the player -/

/-- Of a session that is not ended, `mSyncCnt` is within CONFIG_SINK_MAXCOUNT. -/
structure Patient (q : ℕ) (s : State F) : Prop where
  animFrame : 0 ≤ (s.player q).animFrame
  syncCnt : q ∉ s.disconnects → (s.player q).syncCnt ≤ CONFIG_SINK_MAXCOUNT

theorem place_syncCnt {p : Player F} {packetPos : Position F} (direction : ℤ)
    (hcnt : p.syncCnt ≤ CONFIG_SINK_MAXCOUNT) (hsync : p.outOfSync packetPos = false) :
    (p.place packetPos direction).syncCnt ≤ CONFIG_SINK_MAXCOUNT := by
  change (p.syncCheck packetPos).syncCnt ≤ CONFIG_SINK_MAXCOUNT
  unfold Player.outOfSync at hsync
  by_cases hfar : lt syncDistance (p.pos.dist packetPos) = true
  · rw [hfar, Bool.true_and] at hsync
    exact not_lt.mp (of_decide_eq_false hsync)
  · unfold Player.syncCheck
    dsimp only
    rw [if_neg hfar]
    split_ifs
    · exact (Nat.sub_le _ _).trans hcnt
    · exact hcnt

theorem place_animFrame (p : Player F) (packetPos : Position F) (direction : ℤ) :
    (p.place packetPos direction).animFrame = p.animFrame := by
  unfold Player.place
  rw [syncCheck_eq]

/-- What a packet of `q` comes to: it stays where it is and its `mSyncCnt` does not fall, or it is
put where it reports. -/
inductive Packeted (q : ℕ) (msg : Message) (s t : State F) : Prop
  | stays (hpos : (t.player q).pos = (s.player q).pos)
      (hcnt : q ∉ t.disconnects → (s.player q).syncCnt ≤ CONFIG_SINK_MAXCOUNT →
        (s.player q).syncCnt ≤ (t.player q).syncCnt ∧ (t.player q).syncCnt ≤ CONFIG_SINK_MAXCOUNT)
  | placed (type : ℤ) (rest : Message) (packetPos : Position F) (direction : ℤ)
      (htype : msg.readInt 2 = .ok (type, rest))
      (hmove : type = PacketType.MOVE_START ∨ type = PacketType.MOVE_STOP)
      (hreport : readReport rest = .ok (packetPos, direction))
      (hsync : (s.player q).outOfSync packetPos = false) (hpos : (t.player q).pos = packetPos)
      (hcnt : (t.player q).syncCnt = ((s.player q).place packetPos direction).syncCnt)

theorem NotTaken.stays {msg : Message} (h : NotTaken q s t) (hframe : 0 ≤ (s.player q).animFrame) :
    Packeted q msg s t ∧ (t.player q).animFrame = (s.player q).animFrame := by
  obtain ⟨syncCnt, hst, hcnt⟩ := h
  have hself := hst.self
  refine ⟨.stays (by rw [hself]) fun hlive hold => ?_, by rw [hself]⟩
  rw [hself]
  rcases hcnt with he | ⟨he, hmax⟩ | hend
  · exact ⟨he.ge, he.le.trans hold⟩
  · refine ⟨?_, hmax⟩
    -- an attack has no more than 30 frames, so nothing overflows
    unfold Player.addSync PLAYER_ATTACK_TOTAL_FRAME at he
    dsimp only at he ⊢
    unfold CONFIG_SINK_MAXCOUNT at hold
    rw [he, Nat.mod_eq_of_lt (by omega)]
    exact Nat.le_add_right _ _
  · exact absurd hend hlive

theorem packeted {msg : Message} (he : fieldContentsPacketProc s msg q = .ok t)
    (hframe : 0 ≤ (s.player q).animFrame) :
    Packeted q msg s t ∧ 0 ≤ (t.player q).animFrame := by
  have hstays : ∀ {p : Player F}, Rewrites q p s t → p.pos = (s.player q).pos →
      p.syncCnt = (s.player q).syncCnt →
      Packeted q msg s t := by
    intro p hst hpos hcnt
    refine .stays (by rw [hst.self, hpos]) fun _ hold => ?_
    rw [hst.self, hcnt]
    exact ⟨le_rfl, hold⟩
  have hsame : SamePlayers s t → Packeted q msg s t ∧ 0 ≤ (t.player q).animFrame := fun h =>
    ⟨hstays (h.rewrites q) rfl rfl, by rwa [h.player]⟩
  obtain ⟨type, rest, htype, he⟩ := fieldContentsPacketProc_cases he
  rcases he with ⟨hmove, he⟩ | ⟨hmove, he⟩ | he | he | he
  · rcases handleMoveStart_player he with hnot |
        ⟨packetPos, direction, p, hreport, -, hsync, hp, hst⟩
    · obtain ⟨hpacketed, hsame⟩ : Packeted q msg s t ∧ _ := hnot.stays hframe
      exact ⟨hpacketed, by rwa [hsame]⟩
    · rw [(changeState_eq hp).2] at hst
      refine ⟨.placed type rest packetPos direction htype (Or.inl hmove) hreport hsync ?_ ?_, ?_⟩
      · rw [hst.self]
        rfl
      · rw [hst.self]
      · rw [hst.self]
  · rcases handleMoveStop_player he with hnot |
        ⟨packetPos, direction, p, hreport, -, hsync, -, hp, hst⟩
    · obtain ⟨hpacketed, hsame⟩ : Packeted q msg s t ∧ _ := hnot.stays hframe
      exact ⟨hpacketed, by rwa [hsame]⟩
    · rcases hp with rfl | hp
      · refine ⟨.placed type rest packetPos direction htype (Or.inr hmove) hreport hsync ?_ ?_, ?_⟩
        · rw [hst.self]
          rfl
        · rw [hst.self]
        · rw [hst.self, place_animFrame]
          exact hframe
      · rw [(changeState_eq hp).2] at hst
        refine ⟨.placed type rest packetPos direction htype (Or.inr hmove) hreport hsync ?_ ?_, ?_⟩
        · rw [hst.self]
          rfl
        · rw [hst.self]
        · rw [hst.self]
  · rcases handleAttackReq_player he with h | ⟨p, skillId, targets, -, hp, hst⟩
    · exact hsame h
    · rw [(changeState_eq hp).2] at hst
      exact ⟨hstays hst rfl rfl, by rw [hst.self]⟩
  · rcases handleLootReq_player he with h | ⟨id, hst⟩
    · exact hsame h
    · refine ⟨hstays hst rfl rfl, ?_⟩
      rw [hst.self]
      exact hframe
  · exact hsame he

theorem Packeted.patient {msg : Message} (h : Packeted q msg s t)
    (hs : q ∉ t.disconnects → q ∉ s.disconnects) (hp : Patient q s) (hlive : q ∉ t.disconnects) :
    (t.player q).syncCnt ≤ CONFIG_SINK_MAXCOUNT := by
  have hold := hp.syncCnt (hs hlive)
  cases h with
  | stays hpos hcnt => exact (hcnt hlive hold).2
  | placed type rest packetPos direction htype hmove hreport hsync hpos hcnt =>
    rw [hcnt]
    exact place_syncCnt direction hold hsync

theorem patient_step {l : Step F} (hs : Sound s) (hp : Patient q s) (he : step s l = some (.ok t)) :
    Patient q t := by
  have hended : q ∉ t.disconnects → q ∉ s.disconnects := fun h hq => h (ended_step hs he hq)
  have hunmoved : Unmoved q s t → Patient q t := fun hu =>
    ⟨by rw [hu.animFrame]; exact hp.animFrame,
      fun hlive => by rw [hu.syncCnt]; exact hp.syncCnt (hended hlive)⟩
  by_cases hupdate : l = .fieldUpdate
  · subst hupdate
    obtain ⟨hsync, hframe⟩ := counts_fieldUpdate (Option.some.inj he) q
    exact ⟨hframe hp.animFrame, fun hlive => by rw [hsync]; exact hp.syncCnt (hended hlive)⟩
  · by_cases hpacket : ∃ msg, l = .contentsPacket q msg
    · obtain ⟨msg, rfl⟩ := hpacket
      unfold step at he
      dsimp only at he
      split_ifs at he
      obtain ⟨hpacketed, hframe⟩ := packeted (Option.some.inj he) hp.animFrame
      exact ⟨hframe, hpacketed.patient hended hp⟩
    · by_cases henter : ∃ accountNo characterID pos nickname, l =
        .registerPlayer q accountNo characterID pos nickname
      · obtain ⟨accountNo, characterID, pos, nickname, rfl⟩ := henter
        unfold step at he
        dsimp only at he
        split_ifs at he
        have henters := handleRegisterPlayer_player (Option.some.inj he)
        have hself : t.player q = entered q accountNo characterID pos nickname := by
          rw [henters.player, Function.update_self]
        exact ⟨by rw [hself]; exact le_rfl, fun _ => by rw [hself]; exact Nat.zero_le _⟩
      · refine hunmoved (unmoved_step hupdate (fun msg hl => hpacket ⟨msg, hl⟩) (Or.inr ?_) he)
        exact fun accountNo characterID pos nickname hl =>
          henter ⟨accountNo, characterID, pos, nickname, hl⟩

theorem player_spawnMonsters (rands : Rands) (q : ℕ) :
    (spawnMonsters (empty rands) : State F).player q = .login q 0 0 ⟨lit 0, lit 0⟩ [] := by
  unfold spawnMonsters
  generalize cells = cs
  refine List.foldlRecOn (motive := fun s : State F => s.player q = .login q 0 0 ⟨lit 0, lit 0⟩ [])
    cs spawnMonster rfl ?_
  intro s h cell _
  unfold spawnMonster
  dsimp only
  split_ifs
  · exact h
  · exact h

theorem patient (h : field.Reachable s) (q : ℕ) : Patient q s := by
  have hinv : field.Invariant (fun s : State F => field.Reachable s ∧ Patient q s) := by
    constructor
    · intro s hs
      have hreach := System.Reachable.start hs
      obtain ⟨rands, hs⟩ := hs
      have hplayer : (s.player q) = .login q 0 0 ⟨lit 0, lit 0⟩ [] := by
        rw [hs, player_spawnMonsters]
      refine ⟨hreach, ?_, fun _ => ?_⟩
      · rw [hplayer]
        exact le_rfl
      · rw [hplayer]
        exact Nat.zero_le _
    · intro s t l hs he
      exact ⟨hs.1.step l he, patient_step (sound hs.1) hs.2 (field_next.mp he)⟩
  exact (hinv.reachable h).2

/-! ### The reports of a player -/

/-- Where a MOVE_START or MOVE_STOP puts the player, if it is taken. -/
def reported (msg : Message) : Option (Position F) :=
  match msg.readInt 2 with
  | .error _ => none
  | .ok (type, msg) =>
    if type = PacketType.MOVE_START ∨ type = PacketType.MOVE_STOP then
      match readReport msg with
      | .error _ => none
      | .ok (packetPos, _) => some packetPos
    else none

/-- What the step reports of `q`. -/
def Step.reports (q : ℕ) : Step F → Option (Position F)
  | .contentsPacket q' msg => if q' = q then reported msg else none
  | _ => none

/-- The step comes between two ticks, and if it is a report of `q`, `mSyncCnt` has room for it. -/
def BetweenTicks (q : ℕ) (s : State F) (l : Step F) : Prop :=
  l ≠ .fieldUpdate ∧ ∀ packetPos, l.reports q = some packetPos →
    toUInt64 ((s.player q).pos.dist packetPos - syncDistance) + CONFIG_SINK_MAXCOUNT < 2 ^ 64

theorem reported_of_readReport {msg rest : Message} {type direction : ℤ} {packetPos : Position F}
    (htype : msg.readInt 2 = .ok (type, rest))
    (hmove : type = PacketType.MOVE_START ∨ type = PacketType.MOVE_STOP)
    (hreport : readReport rest = .ok (packetPos, direction)) : reported msg = some packetPos := by
  unfold reported
  rw [htype]
  dsimp only
  rw [if_pos hmove, hreport]

end

/-! ### In exact arithmetic -/

theorem syncDistance_real : (syncDistance : ℝ) = 100 := by
  show ((100 : ℚ) : ℝ) = 100
  norm_num

/-- A report within `syncDistance` takes no more than 10 off, and one beyond it adds what is beyond,
rounded down. -/
theorem syncCheck_real {p : Player ℝ} {packetPos : Position ℝ}
    (hroom : p.syncCnt + toUInt64 (p.pos.dist packetPos - syncDistance) < 2 ^ 64) :
    p.pos.dist packetPos ≤ 100 ∧ p.syncCnt ≤ (p.syncCheck packetPos).syncCnt + 10 ∨
      p.syncCnt ≤ (p.syncCheck packetPos).syncCnt ∧
        p.pos.dist packetPos < 101 + ((p.syncCheck packetPos).syncCnt - p.syncCnt : ℝ) := by
  unfold Player.syncCheck
  dsimp only
  by_cases hfar : lt syncDistance (p.pos.dist packetPos) = true
  · rw [if_pos hfar]
    refine Or.inr ?_
    have hcnt : (p.addSync (toUInt64 (p.pos.dist packetPos - syncDistance))).syncCnt =
        p.syncCnt + toUInt64 (p.pos.dist packetPos - syncDistance) := Nat.mod_eq_of_lt hroom
    rw [hcnt, syncDistance_real]
    refine ⟨Nat.le_add_right _ _, ?_⟩
    rw [lt_real, syncDistance_real] at hfar
    have hfloor : 0 ≤ ⌊p.pos.dist packetPos - 100⌋ := Int.floor_nonneg.mpr (by linarith)
    have hcast : ((toUInt64 (p.pos.dist packetPos - 100) : ℕ) : ℝ) =
        ⌊p.pos.dist packetPos - 100⌋ := by
      exact_mod_cast congrArg (Int.cast (R := ℝ)) (Int.toNat_of_nonneg hfloor)
    have hround := Int.lt_floor_add_one (p.pos.dist packetPos - 100)
    rw [Nat.cast_add, hcast]
    linarith
  · rw [if_neg hfar]
    rw [lt_real, syncDistance_real, not_lt] at hfar
    refine Or.inl ⟨hfar, ?_⟩
    split_ifs
    · exact Nat.le_add_of_sub_le le_rfl
    · exact Nat.le_add_right _ _

section

variable {s t : State ℝ} {q n c : ℕ} {a : Position ℝ}

/-- How far `n` reports have taken `q` from `a`, where its `mSyncCnt` was `c`. -/
structure Travelled (a : Position ℝ) (c n q : ℕ) (s : State ℝ) : Prop where
  forgiven : c ≤ (s.player q).syncCnt + 10 * n
  dist : a.dist (s.player q).pos ≤ 100 * n ∨
    a.dist (s.player q).pos + 9 ≤ 110 * n + ((s.player q).syncCnt - c : ℝ)

theorem Travelled.stays (h : Travelled a c n q s) (hpos : (t.player q).pos = (s.player q).pos)
    (hcnt : (s.player q).syncCnt ≤ (t.player q).syncCnt) : Travelled a c n q t := by
  refine ⟨h.forgiven.trans (Nat.add_le_add_right hcnt _), ?_⟩
  rw [hpos]
  have hcast : ((s.player q).syncCnt : ℝ) ≤ (t.player q).syncCnt := Nat.cast_le.mpr hcnt
  rcases h.dist with hdist | hdist
  · exact Or.inl hdist
  · exact Or.inr (by linarith)

theorem Travelled.more (h : Travelled a c n q s) : Travelled a c (n + 1) q s := by
  refine ⟨h.forgiven.trans (by omega), ?_⟩
  rcases h.dist with hdist | hdist
  · left
    push_cast
    linarith
  · right
    push_cast
    linarith

/-- A report that is taken. -/
theorem Travelled.placed (h : Travelled a c n q s) {packetPos : Position ℝ} {direction : ℤ}
    (hroom : (s.player q).syncCnt + toUInt64 ((s.player q).pos.dist packetPos - syncDistance) <
      2 ^ 64) (hpos : (t.player q).pos = packetPos)
    (hcnt : (t.player q).syncCnt = ((s.player q).place packetPos direction).syncCnt) :
    Travelled a c (n + 1) q t := by
  have hcheck := syncCheck_real hroom
  rw [← show (t.player q).syncCnt = ((s.player q).syncCheck packetPos).syncCnt from hcnt,
    ← hpos] at hcheck
  have htriangle := pos_dist_triangle a (s.player q).pos (t.player q).pos
  have hforgiven : (c : ℝ) ≤ (s.player q).syncCnt + 10 * n := by exact_mod_cast h.forgiven
  have hslack := h.forgiven
  rcases hcheck with ⟨hnear, hless⟩ | ⟨hmore, hfar⟩
  · have hless' : ((s.player q).syncCnt : ℝ) ≤ (t.player q).syncCnt + 10 := by exact_mod_cast hless
    refine ⟨by omega, ?_⟩
    push_cast
    rcases h.dist with hdist | hdist
    · exact Or.inl (by linarith)
    · exact Or.inr (by linarith)
  · refine ⟨by omega, Or.inr ?_⟩
    push_cast
    rcases h.dist with hdist | hdist
    · linarith
    · linarith

/-- One step between two ticks. -/
theorem travelled_step {l : Step ℝ} (hs : Sound s) (hp : Patient q s) (hq : q ∈ s.met)
    (hl : BetweenTicks q s l) (he : step s l = some (.ok t)) (hlive : q ∉ t.disconnects)
    (h : Travelled a c n q s) :
    Travelled a c (n + if (l.reports q).isSome then 1 else 0) q t := by
  have hold : q ∉ s.disconnects := fun hend => hlive (ended_step hs he hend)
  have hcount : Travelled a c n q t →
      Travelled a c (n + if (l.reports q).isSome then 1 else 0) q t := by
    intro h
    split_ifs
    · exact h.more
    · exact h
  by_cases hpacket : ∃ msg, l = .contentsPacket q msg
  · obtain ⟨msg, rfl⟩ := hpacket
    unfold step at he
    dsimp only at he
    split_ifs at he
    obtain ⟨hpacketed, -⟩ := packeted (Option.some.inj he) hp.animFrame
    cases hpacketed with
    | stays hpos hcnt => exact hcount (h.stays hpos (hcnt hlive (hp.syncCnt hold)).1)
    | placed type rest packetPos direction htype hmove hreport hsync hpos hcnt =>
      have hreports : (Step.contentsPacket q msg : Step ℝ).reports q = some packetPos := by
        unfold Step.reports
        dsimp only
        rw [if_pos rfl, reported_of_readReport htype hmove hreport]
      have hroom := hl.2 packetPos hreports
      have hpatient := hp.syncCnt hold
      rw [hreports, Option.isSome_some, if_pos rfl]
      exact h.placed (by omega) hpos hcnt
  · have hunmoved := unmoved_step hl.1 (fun msg hmsg => hpacket ⟨msg, hmsg⟩) (Or.inl hq) he
    exact hcount (h.stays hunmoved.pos hunmoved.syncCnt.ge)

theorem met_step {l : Step ℝ} (hl : l ≠ .fieldUpdate) (hq : q ∈ s.met)
    (he : step s l = some (.ok t)) : q ∈ t.met := by
  by_cases hpacket : ∃ msg, l = .contentsPacket q msg
  · obtain ⟨msg, rfl⟩ := hpacket
    unfold step at he
    dsimp only at he
    split_ifs at he
    obtain ⟨p, -, hst⟩ := handled_fieldContentsPacketProc (Option.some.inj he)
    rwa [hst.met]
  · exact (unmoved_step hl (fun msg hmsg => hpacket ⟨msg, hmsg⟩) (Or.inl hq) he).met hq

theorem ended_exec {ls : List (Step ℝ)} (hs : field.Reachable s)
    (he : (field.restrict (BetweenTicks q)).exec s ls = some t) (h : q ∈ s.disconnects) :
    q ∈ t.disconnects := by
  induction ls generalizing s with
  | nil =>
    cases he
    exact h
  | cons l ls ih =>
    obtain ⟨u, hu, he⟩ := Option.bind_eq_some_iff.mp he
    obtain ⟨-, hu⟩ := System.restrict_next.mp hu
    exact ih (hs.step l hu) he (ended_step (sound hs) (field_next.mp hu) h)

theorem travelled_exec {ls : List (Step ℝ)} (hs : field.Reachable s) (hq : q ∈ s.met)
    (he : (field.restrict (BetweenTicks q)).exec s ls = some t) (hlive : q ∉ t.disconnects)
    (h : Travelled a c n q s) :
    Travelled a c (n + ls.countP fun l => (l.reports q).isSome) q t ∧ field.Reachable t := by
  induction ls generalizing s n with
  | nil =>
    cases he
    exact ⟨h, hs⟩
  | cons l ls ih =>
    obtain ⟨u, hu, he⟩ := Option.bind_eq_some_iff.mp he
    obtain ⟨hl, hu⟩ := System.restrict_next.mp hu
    have hstep := field_next.mp hu
    have hsound := sound hs
    have hafter : field.Reachable u := hs.step l hu
    -- an end of the session would have stayed
    have hlive' : q ∉ u.disconnects := fun hend => hlive (ended_exec hafter he hend)
    have hone := travelled_step hsound (patient hs q) hq hl hstep hlive' h
    rw [List.countP_cons, Nat.add_comm (List.countP _ ls), ← Nat.add_assoc]
    exact ih hafter (met_step hl.1 hq hstep) he hone

/-- Between two ticks, a player whose session is not ended gets no farther than its reports can take
it: the first as far as `syncDistance`, CONFIG_SINK_MAXCOUNT and what is rounded off, each of the
others as far as `syncDistance` and the 10 that a report takes off `mSyncCnt`. -/
theorem reports_bounded {ls : List (Step ℝ)} (h : field.Reachable s) (hq : q ∈ s.players)
    (he : (field.restrict (BetweenTicks q)).exec s ls = some t) : q ∈ t.disconnects ∨
      (s.player q).pos.dist (t.player q).pos ≤ syncDistance + CONFIG_SINK_MAXCOUNT + 1 +
        (syncDistance + 10) * ((ls.countP fun l => (l.reports q).isSome : ℕ) - 1) := by
  refine or_iff_not_imp_left.mpr fun hlive => ?_
  have hstart : Travelled (s.player q).pos (s.player q).syncCnt 0 q s := by
    refine ⟨le_rfl, Or.inl ?_⟩
    rw [pos_dist_self]
    norm_num
  obtain ⟨htravelled, hreach⟩ := travelled_exec h ((sound h).players.met q hq) he hlive hstart
  have hmax : ((t.player q).syncCnt : ℝ) ≤ 300 := by exact_mod_cast (patient hreach q).syncCnt hlive
  have hcnt : (0 : ℝ) ≤ (s.player q).syncCnt := Nat.cast_nonneg _
  have hdist := htravelled.dist
  rw [Nat.zero_add] at hdist
  rw [syncDistance_real, show ((CONFIG_SINK_MAXCOUNT : ℕ) : ℝ) =
    300 by norm_num [CONFIG_SINK_MAXCOUNT]]
  have hn : (0 : ℝ) ≤ (ls.countP fun l => (l.reports q).isSome : ℕ) := Nat.cast_nonneg _
  rcases hdist with hdist | hdist <;> linarith

end

/-! ### Examples -/

/-- MOVE_STOP at `x` in the first row; the upper half of `x` as the two bytes. -/
def moveStopMsg (lo hi : UInt8) : Message :=
  packet [107, 0, 0, 0, 0, 0, 0, 0, 0, 0, 0, 0, lo, hi, 0, 0, 0, 0, 4]

/-- Anybody can enter an empty field. -/
theorem enters_fresh {F : Type} [Machine F] {s : State F}
    (hs : Fresh s) (q : ℕ) (accountNo characterID : ℤ) (pos : Position F) (nickname : List UInt8) :
    ∃ t, field.next s (.registerPlayer q accountNo characterID pos nickname) = some t ∧
      t.players = [q] ∧ t.player q = entered q accountNo characterID pos nickname := by
  obtain ⟨t, ht⟩ :
      ∃ t, handleRegisterPlayer s (.login q accountNo characterID pos nickname) = .ok t := by
    have hplayer : q ∉ s.players := by
      rw [hs.nobody.1]
      exact List.not_mem_nil
    have hsector : q ∉ s.sectors (calcSector pos) :=
      fun hq => hplayer ((hs.players.cells.mem _ _).mp hq).1
    unfold handleRegisterPlayer enterSector State.setPlayer
    dsimp only [Player.login]
    rw [myAssert_true (decide_eq_true hplayer)]
    simp only [Function.update_self, bind, Except.bind, pure, Except.pure]
    rw [myAssert_true (decide_eq_true hsector)]
    dsimp only
    rw [Function.update_self, Sector.getAroundSectors_ok (calcSector_inGrid pos)]
    exact ⟨_, rfl⟩
  have henters := handleRegisterPlayer_player ht
  refine ⟨t, field_next.mpr ?_, ?_, ?_⟩
  · unfold step
    dsimp only
    rw [if_pos ⟨by rw [hs.nobody.2.1]; exact List.not_mem_nil,
      by rw [hs.nobody.1]; exact fun _ h => absurd h List.not_mem_nil⟩, ht]
  · rw [henters.players, hs.nobody.1]
  · rw [henters.player, Function.update_self]

theorem readFloat_zero {msg msg' : Message} (h : msg.getData 4 = .ok ([0, 0, 0, 0], msg')) :
    readFloat msg = .ok ((0 : ℝ), msg') := by
  have hfloat : (Machine.ofBytes [0, 0, 0, 0] : ℝ) = 0 := by
    show ((singleOfBytes [0, 0, 0, 0] : ℚ) : ℝ) = 0
    rw [show singleOfBytes [0, 0, 0, 0] = 0 by decide +kernel]
    exact Rat.cast_zero
  unfold readFloat
  rw [h]
  dsimp only [bind, Except.bind]
  rw [hfloat]
  rfl

/-- The rest of `moveStopMsg 0 0` from `front`. -/
def stoppedAt (front : ℕ) : Message := { moveStopMsg 0 0 with front }

/-- A player at rest may report that it is where it is. -/
theorem stands {s : State ℝ} (hs : Index s) (hq : q ∈ s.players) (hpos : (s.player q).pos = ⟨0, 0⟩)
    (hstate : (s.player q).state = .idle) : ∃ t, handleMoveStop s (stoppedAt 2) q = .ok t := by
  have hsync : (s.player q).outOfSync ⟨0, 0⟩ = false := by
    unfold Player.outOfSync
    rw [hpos, pos_dist_self, Bool.and_eq_false_imp]
    intro hfar
    rw [lt_real, syncDistance_real] at hfar
    norm_num at hfar
  have hworld : Position.InWorld (⟨0, 0⟩ : Position ℝ) := by
    rw [inWorld_real]
    norm_num
  unfold handleMoveStop
  rw [show (stoppedAt 2).readInt 8 = .ok (0, stoppedAt 10) from rfl]
  dsimp only [bind, Except.bind]
  rw [readFloat_zero (show (stoppedAt 10).getData 4 = .ok ([0, 0, 0, 0], stoppedAt 14) from rfl)]
  dsimp only
  rw [readFloat_zero (show (stoppedAt 14).getData 4 = .ok ([0, 0, 0, 0], stoppedAt 18) from rfl)]
  dsimp only
  rw [show (stoppedAt 18).readInt 1 = .ok (4, stoppedAt 19) from rfl]
  dsimp only
  unfold State.hasPlayer
  rw [myAssert_true (decide_eq_true hq)]
  dsimp only
  rw [hstate]
  dsimp only
  rw [myAssert_true hworld.1, myAssert_true hworld.2.1, myAssert_true hworld.2.2.2, hsync]
  have hidle : ((s.player q).place ⟨0, 0⟩ 4).state = .idle := by
    unfold Player.place
    rw [syncCheck_eq]
    exact hstate
  have hgrid : ((s.player q).place ⟨0, 0⟩ 4).currentSector.InGrid := by
    unfold Player.place
    rw [syncCheck_eq]
    exact (hs.grid q hq).1
  dsimp only
  rw [if_neg Bool.false_ne_true, if_neg (not_not.mpr hidle)]
  dsimp only [pure, Except.pure]
  rw [Sector.getAroundSectors_ok hgrid]
  exact ⟨_, rfl⟩

/-- Session 1 reports that it stands where it is. -/
theorem reports_bounded_zero : ∃ s t : State ℝ, field.Reachable s ∧
    field.next s (.contentsPacket 1 (moveStopMsg 0 0)) = some t ∧
    (1 ∈ t.disconnects ∨ (s.player 1).pos.dist (t.player 1).pos ≤
      syncDistance + CONFIG_SINK_MAXCOUNT + 1 + (syncDistance + 10) * (([Step.contentsPacket 1
      (moveStopMsg 0 0)].countP fun l : Step ℝ => (l.reports 1).isSome : ℕ) - 1)) := by
  have hinit : field.init (spawnMonsters (empty fun _ => 0) : State ℝ) := ⟨_, rfl⟩
  obtain ⟨s, hs, hplayers, hplayer⟩ :=
    enters_fresh (F := ℝ) (fresh_spawnMonsters fun _ => 0) 1 0 0 ⟨0, 0⟩ []
  have hreach := (System.Reachable.start hinit).step _ hs
  have hq : 1 ∈ s.players := by
    rw [hplayers]
    exact List.mem_singleton_self 1
  have htype : (moveStopMsg 0 0).readInt 2 = .ok (107, stoppedAt 2) := rfl
  have hreported : (Step.contentsPacket 1 (moveStopMsg 0 0) : Step ℝ).reports 1 = some ⟨0, 0⟩ := by
    refine reported_of_readReport htype
      (Or.inr rfl) (readReport_ok (show (stoppedAt 2).readInt 8 = .ok (0, stoppedAt 10) from rfl)
      (readFloat_zero (show (stoppedAt 10).getData 4 = .ok ([0, 0, 0, 0], stoppedAt 14) from rfl))
      (readFloat_zero (show (stoppedAt 14).getData 4 = .ok ([0, 0, 0, 0], stoppedAt 18) from rfl))
      (show (stoppedAt 18).readInt 1 = .ok (4, stoppedAt 19) from rfl))
  obtain ⟨t, ht⟩ := stands (sound hreach).players hq (by rw [hplayer]; rfl) (by rw [hplayer]; rfl)
  have hnext : field.next s (.contentsPacket 1 (moveStopMsg 0 0)) = some t := by
    refine field_next.mpr ?_
    unfold step
    dsimp only
    rw [if_pos ⟨hq, by rw [hplayer]; rfl⟩, ← ht]
    rfl
  have hbetween : BetweenTicks 1 s (.contentsPacket 1 (moveStopMsg 0 0)) := by
    refine ⟨nofun, fun packetPos hpos => ?_⟩
    rw [hreported] at hpos
    cases hpos
    have hdist : (s.player 1).pos.dist ⟨0, 0⟩ = 0 := by
      rw [hplayer]
      exact pos_dist_self _
    rw [hdist, syncDistance_real]
    change ⌊(0 - 100 : ℝ)⌋.toNat + 300 < 2 ^ 64
    rw [show (0 - 100 : ℝ) = ((-100 : ℤ) : ℝ) by norm_num, Int.floor_intCast]
    decide
  refine ⟨s, t, hreach, hnext, reports_bounded hreach hq ?_⟩
  rw [System.exec_cons (System.restrict_next.mpr ⟨hbetween, hnext⟩)]
  rfl

/-- Session 1 slides along the upper edge, five reports of 100 each. -/
def slide : List (Step ℚ) :=
  [.contentsPacket 1 (moveStopMsg 0xC8 0x42), .contentsPacket 1 (moveStopMsg 0x48 0x43),
    .contentsPacket 1 (moveStopMsg 0x96 0x43), .contentsPacket 1 (moveStopMsg 0xC8 0x43),
    .contentsPacket 1 (moveStopMsg 0xFA 0x43)]

/-- Between two ticks session 1 gets from 0 to 500. -/
theorem slides : ¬ ∀ (s t : State ℚ) (q : ℕ) (ls : List (Step ℚ)), field.Reachable s →
    q ∈ s.players →
    (∀ l ∈ ls, (l.reports q).isSome = true) → field.exec s ls = some t →
      q ∈ t.disconnects ∨ le ((s.player q).pos.dist (t.player q).pos)
        (syncDistance + ofInt CONFIG_SINK_MAXCOUNT) = true := by
  intro hall
  have hrun : (field.exec oneMonster [.registerPlayer 1 7 11 ⟨0, 0⟩ []]).any
      (fun s => 1 ∈ s.players ∧
      (field.exec s slide).any (fun t => 1 ∉ t.disconnects ∧
        le ((s.player 1).pos.dist (t.player 1).pos) (syncDistance + ofInt CONFIG_SINK_MAXCOUNT) =
          false) = true) = true := by
    decide +kernel
  obtain ⟨s, hs, hp⟩ := Option.any_eq_true _ _ |>.mp hrun
  obtain ⟨hq, hslide⟩ := of_decide_eq_true hp
  obtain ⟨t, ht, hp⟩ := Option.any_eq_true _ _ |>.mp hslide
  obtain ⟨hlive, hfar⟩ := of_decide_eq_true hp
  rcases hall s t 1 slide (.exec _ (.start oneMonster_init) hs) hq
      (by decide +kernel) ht with hend | hnear
  · exact hlive hend
  · rw [hfar] at hnear
    cases hnear

end Field
end MyMMO
