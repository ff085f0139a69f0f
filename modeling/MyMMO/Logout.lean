/-
# Logout

A player whose session has ended is saved before it is removed: the scan of
`checkDisConnectedAndLeavePlayer` issues a PositionSave and sets DB_POSITION_SAVE_PENDING_BIT,
`dbThread` answers, and `dbResultPacketProc` removes the player. The saves are issued, answered and
received in one order (`Logout.order`), which makes each of these happen at most once
(`logout_once`).
-/
import MyMMO.FieldIndex

namespace MyMMO
namespace Field

open Outcome

variable {F : Type}

/-! ### Saves -/

/-- The sessions whose PositionSave is among `jobs`. -/
def saves (jobs : List (DBJob F)) : List ℕ :=
  jobs.filterMap fun
    | .positionSave q _ _ => some q
    | _ => none

/-- The sessions whose PositionSave is answered by one of `results`. -/
def saved (results : List DBResult) : List ℕ :=
  results.filterMap fun
    | .positionSave q => some q
    | _ => none

/-- The sessions whose PositionSave is in `mDBResQ`, in `dbThread` or in `mDBReqQ`. -/
def inFlight (s : State F) : List ℕ := saved s.dbResQ ++ (saves s.dbJob.toList ++ saves s.dbReqQ)

/-- The sessions whose PositionSave is received in the step `l`. -/
def received (s : State F) : Step F → List ℕ
  | .dbResults => saved s.dbResQ
  | _ => []

/-- The sessions for which a PositionSave was issued. -/
def issued (h : List Event) : List ℕ :=
  h.filterMap fun
    | .positionSave q => some q
    | _ => none

/-- The sessions for which PLAYER_DISCONNECTED was sent. -/
def removed (h : List Event) : List ℕ :=
  h.filterMap fun
    | .playerDisconnected q => some q
    | _ => none

@[simp] theorem saves_append (as bs : List (DBJob F)) : saves (as ++ bs) = saves as ++ saves bs :=
  List.filterMap_append

@[simp] theorem saved_append (as bs : List DBResult) : saved (as ++ bs) = saved as ++ saved bs :=
  List.filterMap_append

@[simp] theorem issued_append (h es : List Event) : issued (h ++ es) = issued h ++ issued es :=
  List.filterMap_append

@[simp] theorem removed_append (h es : List Event) : removed (h ++ es) = removed h ++ removed es :=
  List.filterMap_append

/-- The answer to a job is the answer to its save. -/
theorem saved_answer (ranking : Ranking) (job : DBJob F) :
    saved [answer ranking job] = saves [job] := by
  cases job <;> rfl

/-! ### Effects that leave the logouts alone -/

/-- `t` is `s` as far as the logouts go. -/
structure Unsaved (s t : State F) : Prop where
  players : t.players.Perm s.players
  met : t.met = s.met
  savePending : ∀ q, (t.player q).savePending = (s.player q).savePending
  accountNo : ∀ q, (t.player q).accountNo = (s.player q).accountNo
  inFlight : inFlight t = inFlight s
  notifyMsgQ : t.notifyMsgQ = s.notifyMsgQ
  issued : issued t.history = issued s.history
  removed : removed t.history = removed s.history

/-- What an effect comes to for the logouts. -/
inductive Turn (s : State F) : State F → Prop
  | unsaved {t : State F} (h : Unsaved s t) : Turn s t
  | enter {t : State F} (q : ℕ) (hq : q ∉ s.met) (hplayers : t.players = q :: s.players)
      (hmet : t.met = q :: s.met) (hother : ∀ q' ∈ s.met, t.player q' = s.player q')
      (hnew : (t.player q).savePending = false) (hflight : inFlight t = inFlight s)
      (hnotify : t.notifyMsgQ = s.notifyMsgQ) (hhistory : t.history = s.history) : Turn s t
  | save (q : ℕ) (hq : q ∈ s.players) (hpending : (s.player q).savePending = false) :
      Turn s (((s.setPlayer q { s.player q with savePending := true }).record
        (.positionSave q)).enqueueJob
          (.positionSave (s.player q).seqID (s.player q).accountNo (s.player q).pos))

section

variable {s t u : State F}

theorem Unsaved.trans (h : Unsaved s t) (h' : Unsaved t u) : Unsaved s u :=
  ⟨h'.players.trans h.players, h'.met.trans h.met,
    fun q => (h'.savePending q).trans (h.savePending q),
    fun q => (h'.accountNo q).trans (h.accountNo q), h'.inFlight.trans h.inFlight,
    h'.notifyMsgQ.trans h.notifyMsgQ, h'.issued.trans h.issued, h'.removed.trans h.removed⟩

theorem unsaved_setPlayer
    {q : ℕ} {p : Player F} (hpending : p.savePending = (s.player q).savePending)
    (haccount : p.accountNo = (s.player q).accountNo) : Unsaved s (s.setPlayer q p) := by
  have hsame : ∀ q', ((s.setPlayer q p).player q').savePending = (s.player q').savePending ∧
      ((s.setPlayer q p).player q').accountNo = (s.player q').accountNo := by
    intro q'
    rw [setPlayer_player]
    split_ifs with hq
    · rw [hq]
      exact ⟨hpending, haccount⟩
    · exact ⟨rfl, rfl⟩
  exact ⟨.refl _, rfl, fun q' => (hsame q').1, fun q' => (hsame q').2, rfl, rfl, rfl, rfl⟩

theorem unsaved_record {e : Event} (h : issued [e] = []) (h' : removed [e] = []) :
    Unsaved s (s.record e) := by
  refine ⟨.refl _, rfl, fun _ => rfl, fun _ => rfl, rfl, rfl, ?_, ?_⟩
  · exact (issued_append _ _).trans (by rw [h, List.append_nil])
  · exact (removed_append _ _).trans (by rw [h', List.append_nil])

/-- The rest of the state has nothing to do with it. -/
theorem unsaved_rest (hp : t.player = s.player) (hps : t.players = s.players) (hmet : t.met = s.met)
    (hflight : inFlight t = inFlight s) (hnotify : t.notifyMsgQ = s.notifyMsgQ)
    (hhistory : t.history = s.history) :
    Unsaved s t :=
  ⟨by rw [hps], hmet, fun q => by rw [hp], fun q => by rw [hp], hflight, hnotify, by rw [hhistory],
    by rw [hhistory]⟩

theorem Sends.unsaved (h : Sends s t) : Unsaved s t := by
  obtain ⟨ks, rfl⟩ := h
  exact unsaved_rest rfl rfl rfl rfl rfl rfl

theorem unsaved_broadcast (near : List Sector) (skip : ℕ → Bool) (packet : Packet F) :
    Unsaved s (s.broadcast near skip packet) := (sends_broadcast s near skip packet).unsaved

theorem unsaved_sendPost (q : ℕ) (packet : Packet F) : Unsaved s (s.sendPost q packet) :=
  Sends.unsaved ⟨[(q, packet)], rfl⟩

theorem unsaved_setMonster (id : ℤ) (m : Monster F) : Unsaved s (s.setMonster id m) :=
  unsaved_rest rfl rfl rfl rfl rfl rfl

theorem unsaved_moveMonster (id : ℤ) (m : Monster F) : Unsaved s (s.moveMonster id m) :=
  unsaved_rest rfl rfl rfl rfl rfl rfl

theorem unsaved_hitMonster (q : ℕ) (id : ℤ) (m : Monster F) : Unsaved s (s.hitMonster q id m) :=
  ((unsaved_setMonster id m).trans (unsaved_record rfl rfl)).trans (unsaved_broadcast _ _ _)

/-- A player is rewritten, and those around are told. -/
theorem unsaved_report {q : ℕ} {p : Player F} (hpending : p.savePending = (s.player q).savePending)
    (haccount : p.accountNo = (s.player q).accountNo) {e : Event} (he : issued [e] = [])
    (he' : removed [e] = []) (near : List Sector) (skip : ℕ → Bool) (packet : Packet F) :
    Unsaved s (((s.setPlayer q p).record e).broadcast near skip packet) :=
  ((unsaved_setPlayer hpending haccount).trans (unsaved_record he he')).trans
    (unsaved_broadcast _ _ _)

variable [Machine F]

theorem place_saved (p : Player F) (packetPos : Position F) (direction : ℤ) :
    (p.place packetPos direction).savePending = p.savePending ∧
      (p.place packetPos direction).accountNo = p.accountNo := by
  unfold Player.place
  rw [syncCheck_eq]
  exact ⟨rfl, rfl⟩

theorem Dropped.unsaved {m : Monster F} (h : Dropped s m t) : Unsaved s t := by
  have hdrop : Unsaved s (s.record (.dropItem m.monsterID)) := unsaved_record rfl rfl
  cases h with
  | nothing rands => exact hdrop.trans (unsaved_rest rfl rfl rfl rfl rfl rfl)
  | item itemId count rands =>
    apply Unsaved.trans _ (unsaved_broadcast _ _ _)
    have hcreate :=
      hdrop.trans (unsaved_record (e := .itemCreated (s.itemUniqueID + 1) itemId count) rfl rfl)
    exact hcreate.trans (unsaved_rest rfl rfl rfl rfl rfl rfl)

theorem Act.turn (h : Act s t) : Turn s t := by
  cases h with
  | fieldUpdate => exact .unsaved (unsaved_record rfl rfl)
  | adjust q syncCnt targets hq => exact .unsaved (unsaved_setPlayer rfl rfl)
  | hit q id m hq hid hstate hm hdead hgrid => exact .unsaved (unsaved_hitMonster q id m)
  | kill q id m u hq hid hstate hm hdead hgrid hu =>
    have hrecord := ((unsaved_hitMonster q id m).trans hu.unsaved).trans
      (unsaved_record (e := .killCountUpdate id q (u.player q).accountNo (u.player q).nickname)
        rfl rfl)
    refine .unsaved (hrecord.trans (unsaved_rest rfl rfl rfl ?_ rfl rfl))
    -- the job is no PositionSave
    unfold inFlight requestKillCountUpdate State.enqueueJob
    dsimp only
    rw [saves_append]
    exact congrArg _ (congrArg _ (List.append_nil _))
  | aim q hq hne => exact .unsaved (unsaved_setPlayer rfl rfl)
  | cross q hq hne =>
    unfold State.cross
    have hspawns := sends_sendSpawns (s := s) q
      ((s.player q).destSector.around.diff (s.player q).currentSector.around)
    have hsend := hspawns.trans
      (sends_sendDespawns q ((s.player q).currentSector.around.diff (s.player q).destSector.around))
    generalize hu : State.sendDespawns _ q _ = u at hsend ⊢
    have hplayer : u.player = s.player := by
      rw [← hu, sendDespawns_player, sendSpawns_player]
    have hset :
        Unsaved u (u.setPlayer q { s.player q with currentSector := (s.player q).destSector }) :=
      unsaved_setPlayer (by rw [hplayer]) (by rw [hplayer])
    exact .unsaved ((hsend.unsaved.trans hset).trans (unsaved_rest rfl rfl rfl rfl rfl rfl))
  | damaged q m p hq hstate hp =>
    exact .unsaved (unsaved_report (by rw [takeDamage_eq hp])
      (by rw [takeDamage_eq hp]) rfl rfl _ _ _)
  | enter q accountNo characterID pos nickname hq hid =>
    have hsend := sends_sendSpawns (s := s.enter q (entered q accountNo characterID pos nickname)) q
      (calcSector pos).around
    generalize hu : State.sendSpawns _ q _ = u at hsend ⊢
    obtain ⟨ks, rfl⟩ := hsend
    have hother : ∀ q' ∈ s.met,
        (s.enter q (entered q accountNo characterID pos nickname)).player q' = s.player q' := by
      intro q' hq'
      apply Function.update_of_ne
      rintro rfl
      exact hq hq'
    have hself : (s.enter q (entered q accountNo characterID pos nickname)).player q =
        entered q accountNo characterID pos nickname := Function.update_self _ _ _
    exact .enter q hq rfl rfl hother (congrArg Player.savePending hself) rfl rfl rfl
  | moveStart q p packetPos direction hq hstate hsync hp =>
    have hplace := place_saved (s.player q) packetPos direction
    refine .unsaved (unsaved_report ?_ ?_ rfl rfl _ _ _)
    · rw [(changeState_eq hp).2]
      exact hplace.1
    · rw [(changeState_eq hp).2]
      exact hplace.2
  | moveStop q p packetPos direction hq hsync hp =>
    have hplace := place_saved (s.player q) packetPos direction
    have hsame : p.savePending = (s.player q).savePending ∧
        p.accountNo = (s.player q).accountNo := by
      rcases hp with ⟨-, rfl⟩ | ⟨-, hp⟩
      · exact hplace
      · rw [(changeState_eq hp).2]
        exact hplace
    exact .unsaved (unsaved_report hsame.1 hsame.2 rfl rfl _ _ _)
  | attackReq q p skillId hq hstate hp =>
    refine .unsaved (unsaved_report ?_ ?_ rfl rfl _ _ _)
    · rw [(changeState_eq hp).2]
    · rw [(changeState_eq hp).2]
  | loot q id hq hid hgrid hcell =>
    have hset : Unsaved s (s.setPlayer q ((s.player q).addItem (s.item id))) :=
      unsaved_setPlayer rfl rfl
    have hsend : Unsaved s (((s.setPlayer q ((s.player q).addItem (s.item id))).broadcastItemDespawn
        (s.item id) (s.item id).sector.around).sendLootRes q true (s.item id).itemId
        (s.item id).count) :=
      (hset.trans (unsaved_broadcast _ _ _)).trans (unsaved_sendPost _ _)
    exact .unsaved ((hsend.trans (unsaved_record rfl rfl)).trans
      (unsaved_rest rfl rfl rfl rfl rfl rfl))
  | send q packet hq hp => exact .unsaved (unsaved_sendPost q packet)
  | disconnectSession q => exact .unsaved (unsaved_rest rfl rfl rfl rfl rfl rfl)
  | request q hq =>
    refine .unsaved (unsaved_rest rfl rfl rfl ?_ rfl rfl)
    unfold inFlight State.enqueueJob
    dsimp only
    rw [saves_append]
    exact congrArg _ (congrArg _ (List.append_nil _))
  | save q hq hconnect hpending => exact .save q hq hpending
  | dbDequeue job dbReqQ hjob hqueue =>
    refine .unsaved (unsaved_rest rfl rfl rfl ?_ rfl rfl)
    unfold inFlight
    dsimp only
    rw [hjob, hqueue, ← saves_append, ← saves_append]
    rfl
  | dbAnswer job ranking hjob =>
    refine .unsaved (unsaved_rest rfl rfl rfl ?_ rfl rfl)
    unfold inFlight
    dsimp only
    rw [hjob, saved_append, saved_answer, List.append_assoc]
    rfl
  | rehash players sectors monsters monsterSectors items itemSectors hp hs hm hms hi his =>
    exact .unsaved ⟨hp, rfl, fun _ => rfl, fun _ => rfl, rfl, rfl, rfl, rfl⟩

theorem PlayerAct.unsaved {q : ℕ} (h : PlayerAct q s t) : Unsaved s t := by
  cases h with
  | update p hq hp hframe => exact unsaved_setPlayer (by rw [update_eq hp]) (by rw [update_eq hp])
  | attackHit p hq hp hstate hframe =>
    have hset : Unsaved s (s.setPlayer q p) :=
      unsaved_setPlayer (by rw [update_eq hp]) (by rw [update_eq hp])
    exact hset.trans (unsaved_record rfl rfl)

theorem MonsterAct.unsaved {id : ℤ} (h : MonsterAct id s t) : Unsaved s t := by
  cases h with
  | update m rands hid hm =>
    have hrecord := (unsaved_setMonster (s := s) id (updateMonsterSectorCheck m)).trans
      (unsaved_record (e := .monsterState none id (s.monster id).state m.state) rfl rfl)
    exact hrecord.trans (unsaved_rest rfl rfl rfl rfl rfl rfl)
  | cross hid hstate hne =>
    exact ((unsaved_broadcast _ _ _).trans (unsaved_broadcast _ _ _)).trans
      (unsaved_moveMonster _ _)
  | proc ht =>
    cases ht with
    | moveStart hid hstate hbefore => exact (unsaved_broadcast _ _ _).trans (unsaved_setMonster _ _)
    | moveAgain hid hstate hbefore =>
      exact ((unsaved_broadcast _ _ _).trans (unsaved_broadcast _ _ _)).trans
        (unsaved_setMonster _ _)
    | attack hid hstate =>
      exact ((unsaved_broadcast _ _ _).trans (unsaved_broadcast _ _ _)).trans
        (unsaved_setMonster _ _)
    | moveStop hid hstate hbefore => exact (unsaved_broadcast _ _ _).trans (unsaved_setMonster _ _)
    | respawn hid hstate hbefore hsame =>
      exact ((unsaved_broadcast _ _ _).trans (unsaved_broadcast _ _ _)).trans
        (unsaved_setMonster _ _)
    | respawnAway hid hstate hbefore hne =>
      exact (((unsaved_broadcast _ _ _).trans (unsaved_moveMonster _ _)).trans
        (unsaved_broadcast _ _ _)).trans (unsaved_setMonster _ _)
    | settle hid hstate => exact unsaved_setMonster _ _

omit [Machine F] in
theorem ItemAct.unsaved {id : ℤ} (h : ItemAct id s t) : Unsaved s t := by
  cases h with
  | update hid hlife => exact unsaved_rest rfl rfl rfl rfl rfl rfl
  | expire hid hlife hgrid =>
    have hgrow : Unsaved s { s with item := Function.update s.item id (s.item id).update } :=
      unsaved_rest rfl rfl rfl rfl rfl rfl
    have hsend : Unsaved s (({ s with
        item := Function.update s.item id (s.item id).update }.broadcastItemDespawn
      (s.item id).update (s.item id).sector.around).record (.expired id)) :=
      (hgrow.trans (unsaved_broadcast _ _ _)).trans (unsaved_record rfl rfl)
    exact hsend.trans (unsaved_rest rfl rfl rfl rfl rfl rfl)

theorem Stay.turn (h : Stay s t) : Turn s t := by
  rcases h with ((h | ⟨id, h⟩) | ⟨q, h⟩) | ⟨id, h⟩ | ⟨q, rfl⟩
  · exact h.turn
  · exact .unsaved h.unsaved
  · exact .unsaved h.unsaved
  · exact .unsaved h.unsaved
  · exact .unsaved (unsaved_setPlayer rfl rfl)

end

/-! ### The invariant -/

/-- Saves are issued, in flight and received in one order. -/
structure Logout (s : State F) : Prop where
  order : issued s.history = removed s.history ++ inFlight s
  once : (issued s.history).Nodup
  pending : ∀ q ∈ s.players, (s.player q).savePending = true ↔ q ∈ inFlight s
  present : ∀ q ∈ inFlight s, q ∈ s.players
  gone : ∀ q ∈ s.met, q ∈ s.players ↔ q ∉ removed s.history
  met : ∀ q ∈ issued s.history, q ∈ s.met
  notices : s.notifyMsgQ = (removed s.history).map fun q => (s.player q).accountNo

section

variable {s t : State F}

theorem Logout.removed_met (h : Logout s) {q : ℕ} (hq : q ∈ removed s.history) : q ∈ s.met :=
  h.met q (by rw [h.order]; exact List.mem_append_left _ hq)

theorem Logout.inFlight_met (h : Logout s) {q : ℕ} (hq : q ∈ inFlight s) : q ∈ s.met :=
  h.met q (by rw [h.order]; exact List.mem_append_right _ hq)

theorem Logout.unsaved (h : Logout s) (hu : Unsaved s t) : Logout t := by
  refine ⟨?_, ?_, fun q hq => ?_, fun q hq => ?_, fun q hq => ?_, fun q hq => ?_, ?_⟩
  · rw [hu.issued, hu.removed, hu.inFlight]
    exact h.order
  · rw [hu.issued]
    exact h.once
  · rw [hu.savePending, hu.inFlight]
    exact h.pending q (hu.players.mem_iff.mp hq)
  · rw [hu.inFlight] at hq
    exact hu.players.mem_iff.mpr (h.present q hq)
  · rw [hu.players.mem_iff, hu.removed]
    rw [hu.met] at hq
    exact h.gone q hq
  · rw [hu.issued] at hq
    rw [hu.met]
    exact h.met q hq
  · rw [hu.notifyMsgQ, hu.removed]
    simp only [hu.accountNo]
    exact h.notices

theorem Logout.save (h : Logout s) (hs : Sound s) {q : ℕ} (hq : q ∈ s.players)
    (hpending : (s.player q).savePending = false) :
    Logout
      (((s.setPlayer q { s.player q with savePending := true }).record (.positionSave q)).enqueueJob
      (.positionSave (s.player q).seqID (s.player q).accountNo (s.player q).pos)) := by
  rw [hs.players.name q hq]
  generalize ht : State.enqueueJob _ _ = t
  have hissued : issued t.history = issued s.history ++ [q] := by
    rw [← ht]
    exact issued_append _ _
  have hremoved : removed t.history = removed s.history := by
    rw [← ht]
    exact (removed_append _ _).trans (List.append_nil _)
  have hflight : inFlight t = inFlight s ++ [q] := by
    rw [← ht]
    unfold inFlight State.enqueueJob
    dsimp only
    rw [saves_append, ← List.append_assoc, ← List.append_assoc, List.append_assoc (saved _)]
    rfl
  have hplayer : ∀ q', t.player q' = if q' = q then { s.player q with savePending := true } else
    s.player q' := by
    rw [← ht]
    exact setPlayer_player s q _
  have hplayers : t.players = s.players := by rw [← ht]; rfl
  have hmet : t.met = s.met := by rw [← ht]; rfl
  have hnotify : t.notifyMsgQ = s.notifyMsgQ := by rw [← ht]; rfl
  clear ht
  have hnot : q ∉ inFlight s := by
    intro hin
    rw [(h.pending q hq).mpr hin] at hpending
    cases hpending
  have hfirst : q ∉ issued s.history := by
    rw [h.order, List.mem_append, not_or]
    exact ⟨(h.gone q (hs.players.met q hq)).mp hq, hnot⟩
  refine ⟨?_, ?_, fun q' hq' => ?_, fun q' hq' => ?_, fun q' hq' => ?_, fun q' hq' => ?_, ?_⟩
  · rw [hissued, hremoved, hflight, h.order, List.append_assoc]
  · rw [hissued, List.nodup_append]
    refine ⟨h.once, List.nodup_singleton q, fun a ha b hb => ?_⟩
    rw [List.mem_singleton.mp hb]
    rintro rfl
    exact hfirst ha
  · rw [hplayers] at hq'
    rw [hplayer, hflight, List.mem_append, List.mem_singleton]
    by_cases he : q' = q
    · rw [if_pos he]
      exact ⟨fun _ => Or.inr he, fun _ => rfl⟩
    · rw [if_neg he, h.pending q' hq']
      exact ⟨Or.inl, fun hin => hin.resolve_right he⟩
  · rw [hflight] at hq'
    rw [hplayers]
    rcases List.mem_append.mp hq' with hin | he
    · exact h.present q' hin
    · rw [List.mem_singleton.mp he]
      exact hq
  · rw [hmet] at hq'
    rw [hplayers, hremoved]
    exact h.gone q' hq'
  · rw [hmet]
    rw [hissued] at hq'
    rcases List.mem_append.mp hq' with hin | he
    · exact h.met q' hin
    · rw [List.mem_singleton.mp he]
      exact hs.players.met q hq
  · rw [hnotify, hremoved, h.notices]
    apply List.map_congr_left
    intro q' _
    rw [hplayer]
    split_ifs with he
    · rw [he]
    · rfl

theorem Logout.turn (h : Logout s) (hs : Sound s) (ht : Turn s t) : Logout t := by
  cases ht with
  | unsaved hu => exact h.unsaved hu
  | save q hq hpending => exact h.save hs hq hpending
  | enter q hq hplayers hmet hother hnew hflight hnotify hhistory =>
    have hin : q ∉ inFlight s := fun hin => hq (h.inFlight_met hin)
    have hremoved : q ∉ removed s.history := fun hr => hq (h.removed_met hr)
    refine ⟨?_, ?_, fun q' hq' => ?_, fun q' hq' => ?_, fun q' hq' => ?_, fun q' hq' => ?_, ?_⟩
    · rw [hhistory, hflight]
      exact h.order
    · rw [hhistory]
      exact h.once
    · rw [hflight]
      rw [hplayers] at hq'
      rcases List.mem_cons.mp hq' with rfl | hq'
      · simp [hnew, hin]
      · rw [hother q' (hs.players.met q' hq')]
        exact h.pending q' hq'
    · rw [hflight] at hq'
      rw [hplayers]
      exact List.mem_cons_of_mem _ (h.present q' hq')
    · rw [hmet] at hq'
      rw [hplayers, hhistory]
      rcases List.mem_cons.mp hq' with rfl | hold
      · exact iff_of_true List.mem_cons_self hremoved
      · rw [← h.gone q' hold, List.mem_cons]
        refine ⟨fun hmem => hmem.resolve_left ?_, Or.inr⟩
        rintro rfl
        exact hq hold
    · rw [hhistory] at hq'
      rw [hmet]
      exact List.mem_cons_of_mem _ (h.met q' hq')
    · rw [hnotify, hhistory, h.notices]
      apply List.map_congr_left
      intro q' hq'
      rw [hother q' (h.removed_met hq')]

/-- A result that is not in the way is received. -/
theorem Logout.handBack {results : List DBResult} {q : ℕ} (hnd : s.players.Nodup)
    (h : Logout { s with dbResQ := .positionSave q :: results }) :
    Logout { s.handBack q with dbResQ := results } := by
  generalize ht : ({ s.handBack q with dbResQ := results } : State F) = t
  have hissued : issued t.history = issued s.history := by
    rw [← ht]
    exact (issued_append _ _).trans (List.append_nil _)
  have hremoved : removed t.history = removed s.history ++ [q] := by
    rw [← ht]
    exact removed_append _ _
  have hflight : inFlight { s with dbResQ := .positionSave q :: results } = q :: inFlight t := by
    rw [← ht]
    rfl
  have hplayer : ∀ q', t.player q' = if q' = q then { s.player q with savePending := false } else
    s.player q' := by
    rw [← ht]
    exact setPlayer_player s q _
  have hplayers : t.players = s.players.erase q := by rw [← ht]; rfl
  have hmet : t.met = s.met := by rw [← ht]; rfl
  have hnotify : t.notifyMsgQ = s.notifyMsgQ ++ [(s.player q).accountNo] := by rw [← ht]; rfl
  clear ht
  obtain ⟨order, once, pending, present, gone, met, notices⟩ := h
  rw [hflight] at order pending present
  dsimp only at order once pending present gone met notices
  -- the save is not in flight twice
  have hnot : q ∉ inFlight t := by
    rw [order] at once
    exact (List.nodup_cons.mp (List.nodup_append.mp once).2.1).1
  refine ⟨?_, ?_, fun q' hq' => ?_, fun q' hq' => ?_, fun q' hq' => ?_, fun q' hq' => ?_, ?_⟩
  · rw [hissued, hremoved, order, List.append_assoc]
    rfl
  · rw [hissued]
    exact once
  · rw [hplayers, hnd.mem_erase_iff] at hq'
    rw [hplayer, if_neg hq'.1, pending q' hq'.2, List.mem_cons]
    exact ⟨fun hin => hin.resolve_left hq'.1, Or.inr⟩
  · rw [hplayers, hnd.mem_erase_iff]
    refine ⟨?_, present q' (List.mem_cons_of_mem _ hq')⟩
    rintro rfl
    exact hnot hq'
  · rw [hmet] at hq'
    rw [hplayers, hnd.mem_erase_iff, hremoved, List.mem_append, List.mem_singleton, gone q' hq']
    tauto
  · rw [hissued] at hq'
    rw [hmet]
    exact met q' hq'
  · rw [hnotify, hremoved, notices, List.map_append, List.map_singleton]
    have hsame : ∀ q', (t.player q').accountNo = (s.player q').accountNo := by
      intro q'
      rw [hplayer]
      split_ifs with he
      · rw [he]
      · rfl
    simp only [hsame]

/-- The loop over the results removes exactly those that it says. -/
theorem logout_dbResults {results : List DBResult} (hnd : s.players.Nodup) (hq : s.dbResQ = [])
    (h : Logout { s with dbResQ := results }) (he : results.foldlM dbResult s = .ok t) :
    Logout t ∧ removed t.history = removed s.history ++ saved results := by
  induction results generalizing s with
  | nil =>
    cases he
    rw [← hq] at h
    exact ⟨h, (List.append_nil _).symm⟩
  | cons result results ih =>
    obtain ⟨u, hu, hloop⟩ := foldlM_cons_ok he
    rcases dbResult_cases hu with ⟨hno, hsame⟩ | ⟨q, hmem, rfl, rfl⟩
    · have hsaved : saved [result] = [] := by
        cases result with
        | positionSave q =>
          have hin : q ∈ inFlight { s with dbResQ := .positionSave q :: results } :=
            List.mem_cons_self
          exact absurd rfl (hno q (h.present q hin))
        | _ => rfl
      have hrest : Logout { s with dbResQ := results } := by
        refine h.unsaved (unsaved_rest rfl rfl rfl ?_ rfl rfl)
        unfold inFlight
        dsimp only
        rw [← List.singleton_append (x := result), saved_append, hsaved, List.nil_append]
      rw [← List.singleton_append (x := result), saved_append, hsaved, List.nil_append]
      rcases hsame with rfl | ⟨q, packet, -, -, rfl⟩
      · exact ih hnd hq hrest hloop
      · exact ih (s := s.sendPost q packet) hnd hq
          (hrest.unsaved (unsaved_rest rfl rfl rfl rfl rfl rfl)) hloop
    · obtain ⟨hlogout, hremoved⟩ := ih (s := s.handBack q) (hnd.erase q) hq (h.handBack hnd) hloop
      refine ⟨hlogout, ?_⟩
      have hone : removed (s.handBack q).history = removed s.history ++ [q] := removed_append _ _
      rw [hremoved, hone, List.append_assoc]
      rfl

variable [Machine F]

theorem logout_stays (hst : Stays s t) (hs : Sound s) (h : Logout s) :
    Logout t ∧ removed t.history = removed s.history := by
  induction hst with
  | refl => exact ⟨h, rfl⟩
  | tail hpre ha ih =>
    have hturn := ha.turn
    refine ⟨ih.1.turn (Stays.sound hpre hs) hturn, Eq.trans ?_ ih.2⟩
    cases hturn with
    | unsaved hu => exact hu.removed
    | enter q hq hplayers hmet hother hnew hflight hnotify hhistory => rw [hhistory]
    | save q hq hpending => exact (removed_append _ _).trans (List.append_nil _)

/-- Players are removed by `dbResultPacketProc` alone, one for each PositionSave that is answered.
-/
theorem logout_step {l : Step F} (hs : Sound s) (h : Logout s) (he : step s l = some (.ok t)) :
    Logout t ∧ removed t.history = removed s.history ++ received s l := by
  by_cases hl : l = .dbResults
  · subst hl
    have he := Option.some.inj he
    unfold dbResultPacketProc at he
    exact logout_dbResults (s := { s with dbResQ := [] }) hs.players.cells.nodup rfl h he
  · have hst := (stays_step (fun u hu => (Stays.sound hu hs).items.cells.nodup) he).resolve_right
      fun hr => hl hr.1
    obtain ⟨hlogout, hremoved⟩ := logout_stays hst hs h
    refine ⟨hlogout, ?_⟩
    have hnone : received s l = [] := by
      cases l <;> first | exact absurd rfl hl | rfl
    rw [hremoved, hnone, List.append_nil]

theorem Fresh.logout (h : Fresh s) : Logout s := by
  obtain ⟨hplayers, hmet, hsent, hhistory⟩ := h.nobody
  obtain ⟨hreq, hjob, hres, hnotify⟩ := h.idle
  have hflight : inFlight s = [] := by
    unfold inFlight
    rw [hreq, hjob, hres]
    rfl
  refine ⟨?_, ?_, ?_, ?_, ?_, ?_, ?_⟩
  · rw [hhistory, hflight]
    rfl
  · rw [hhistory]
    exact .nil
  · rw [hplayers]
    exact fun _ hq => absurd hq List.not_mem_nil
  · rw [hflight]
    exact fun _ hq => absurd hq List.not_mem_nil
  · rw [hmet]
    exact fun _ hq => absurd hq List.not_mem_nil
  · rw [hhistory]
    exact fun _ hq => absurd hq List.not_mem_nil
  · rw [hhistory, hnotify]
    rfl

theorem logout_reachable (h : field.Reachable s) : Logout s :=
  field_runs (fun hs => hs.logout) (fun hs hl he => (logout_step hs hl he).1) h

omit [Machine F] in
theorem requestPositionSave_ok {q : ℕ} (h : (s.player q).savePending = false) :
    requestPositionSave s q =
    .ok
      (((s.setPlayer q { s.player q with savePending := true }).record (.positionSave q)).enqueueJob
      (.positionSave (s.player q).seqID (s.player q).accountNo (s.player q).pos)) := by
  unfold requestPositionSave
  dsimp only
  rw [myAssert_true (decide_eq_true h)]
  rfl

omit [Machine F] in
/-- The scan asserts nothing that is not so. -/
theorem checkDisConnected_ok (s : State F) : ∃ t, checkDisConnectedAndLeavePlayer s = .ok t := by
  have hpass : ∀ u : State F, ∀ q ∈ (s.players.filter fun q => !(s.player q).connect).take
      CONFIG_DISCONNECT_AND_LEAVE_CAP, u.players = s.players →
      ∃ v, saveDisconnected u q = .ok v ∧ v.players = s.players := by
    intro u q hq hu
    have hmem : q ∈ u.players := by
      rw [hu]
      exact List.mem_of_mem_filter (List.mem_of_mem_take hq)
    unfold saveDisconnected
    rw [myAssert_true (decide_eq_true hmem)]
    by_cases hpending : (u.player q).savePending = true
    · exact ⟨u, if_pos hpending, hu⟩
    · exact ⟨_, (if_neg hpending).trans (requestPositionSave_ok (by simpa using hpending)), hu⟩
  obtain ⟨t, ht, -⟩ := foldlM_runs hpass rfl
  exact ⟨t, ht⟩

/-- Every logout happens once: a PositionSave, its result, and only then the removal. -/
structure ExactlyOnce (s : State F) : Prop where
  pending : ∀ q ∈ s.players, (s.player q).savePending = true ↔ (inFlight s).count q = 1
  flight : ∀ q, (inFlight s).count q = if q ∈ s.players ∧ (s.player q).savePending =
    true then 1 else 0
  once : ∀ q, (issued s.history).count q ≤ 1
  order : issued s.history = removed s.history ++ inFlight s
  gone : ∀ q ∈ s.met, (removed s.history).count q = if q ∈ s.players then 0 else 1
  notices : s.notifyMsgQ = (removed s.history).map fun q => (s.player q).accountNo
  -- only a result of a PositionSave removes a player
  step : ∀ l t, field.next s l = some t → removed t.history = removed s.history ++ received s l
  scan : ∃ t, checkDisConnectedAndLeavePlayer s = .ok t

theorem logout_once (h : field.Reachable s) : ExactlyOnce s := by
  have hl := logout_reachable h
  have hnd := hl.once
  rw [hl.order, List.nodup_append] at hnd
  have hcount : ∀ q, (inFlight s).count q = if q ∈ inFlight s then 1 else 0 := by
    intro q
    split_ifs with hq
    · exact List.count_eq_one_of_mem hnd.2.1 hq
    · exact List.count_eq_zero_of_not_mem hq
  refine ⟨fun q hq => ?_, fun q => ?_, fun q => List.nodup_iff_count_le_one.mp hl.once q, hl.order,
    fun q hq => ?_, hl.notices, fun l t he => (logout_step (sound h) hl (field_next.mp he)).2,
    checkDisConnected_ok s⟩
  · rw [hl.pending q hq, hcount]
    simp
  · rw [hcount]
    refine if_congr ⟨fun hin => ?_, fun hin => (hl.pending q hin.1).mp hin.2⟩ rfl rfl
    have hq := hl.present q hin
    exact ⟨hq, (hl.pending q hq).mpr hin⟩
  · split_ifs with hmem
    · exact List.count_eq_zero_of_not_mem ((hl.gone q hq).mp hmem)
    · have hr : q ∈ removed s.history := by
        by_contra hno
        exact hmem ((hl.gone q hq).mpr hno)
      exact List.count_eq_one_of_mem hnd.1 hr

/-- Session 1 enters and ends, and its PositionSave is answered. -/
theorem logout_once_leaveRun : ∃ s : State ℚ, removed s.history = [1] ∧ ExactlyOnce s := by
  have hrun : (field.exec oneMonster [.registerPlayer 1 7 11 ⟨0, 0⟩ [], .onRelease 1,
      .checkDisConnected, .fieldUpdate, .checkDisConnected, .dbDequeue, .dbAnswer ⟨[], 0, 0⟩,
      .dbResults]).any (fun s => removed s.history = [1]) = true := by
    decide +kernel
  obtain ⟨s, hs, hp⟩ := Option.any_eq_true _ _ |>.mp hrun
  exact ⟨s, of_decide_eq_true hp, logout_once (.exec _ (.start oneMonster_init) hs)⟩

end

end Field
end MyMMO
