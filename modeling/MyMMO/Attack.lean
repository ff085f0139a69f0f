/-
# Attacks

PLAYER_ATTACK_REQ starts the animation of an attack, and `fieldUpdate` evaluates the hit when the
animation is at `PLAYER_ATTACK_AWINDUP_FRAME`. The animation of a player whose session has ended
stands still. Unless it stands at that very frame (`NobodyFrozen`), a request is evaluated once
(`evaluated_once`); if it does, the hit is evaluated again in every tick (`struck_twice`).
-/
import MyMMO.FieldIndex

namespace MyMMO
namespace Field

open Outcome

variable {F : Type}

/-! ### Requests and hits -/

/-- An accepted request of `q` waits for its evaluation. -/
def Charged (q : ℕ) (h : List Event) : Prop :=
  ∃ a b, h = a ++ .attackAccepted q :: b ∧ .attackHit q ∉ b

/-- Every evaluation is that of a request that was accepted before it and not evaluated yet. -/
def EvaluatedOnce (h : List Event) : Prop := ∀ q h1 h2, h = h1 ++ .attackHit q :: h2 → Charged q h1

section

variable {q : ℕ} {h es : List Event}

theorem Charged.append (hc : Charged q h) (hes : .attackHit q ∉ es) : Charged q (h ++ es) := by
  obtain ⟨a, b, rfl, hb⟩ := hc
  refine ⟨a, b ++ es, by rw [List.append_assoc, List.cons_append], ?_⟩
  rw [List.mem_append, not_or]
  exact ⟨hb, hes⟩

theorem EvaluatedOnce.append (he : EvaluatedOnce h) (hes : ∀ q, .attackHit q ∉ es) :
    EvaluatedOnce (h ++ es) := by
  intro q h1 h2 heq
  rcases List.append_eq_append_iff.mp heq with ⟨m, rfl, hm⟩ | ⟨m, rfl, hm⟩
  · -- the evaluation would be among `es`
    exact absurd (hm ▸ List.mem_append_right m List.mem_cons_self) (hes q)
  · cases m with
    | nil =>
      rw [List.nil_append] at hm
      exact absurd (hm ▸ List.mem_cons_self) (hes q)
    | cons e m =>
      obtain ⟨rfl, rfl⟩ := List.cons.inj hm
      exact he q h1 m rfl

theorem EvaluatedOnce.hit (he : EvaluatedOnce h) (hc : Charged q h) :
    EvaluatedOnce (h ++ [.attackHit q]) := by
  intro q' h1 h2 heq
  rcases List.eq_nil_or_concat h2 with rfl | ⟨m, e, rfl⟩
  · obtain ⟨rfl, hq⟩ := List.append_inj' heq rfl
    obtain rfl : q = q' := by injection hq with hq; injection hq
    exact hc
  · rw [List.concat_eq_append, ← List.cons_append, ← List.append_assoc] at heq
    exact he q' h1 m (List.append_inj' heq rfl).1

/-- There are no more evaluations than accepted requests. -/
theorem EvaluatedOnce.count_le (he : EvaluatedOnce h) (q : ℕ) :
    h.count (.attackHit q) ≤ h.count (.attackAccepted q) := by
  -- the evaluation of a request that waits is still to come
  have hboth : h.count (.attackHit q) ≤ h.count (.attackAccepted q) ∧
      (Charged q h → h.count (.attackHit q) < h.count (.attackAccepted q)) := by
    induction h using List.reverseRecOn with
    | nil =>
      refine ⟨le_rfl, fun hc => ?_⟩
      obtain ⟨a, b, hab, -⟩ := hc
      simp at hab
    | append_singleton h e ih =>
      have hprefix : EvaluatedOnce h :=
        fun q' h1 h2 heq => he q' h1 (h2 ++ [e]) (by rw [heq, List.append_assoc, List.cons_append])
      obtain ⟨hle, hlt⟩ := ih hprefix
      have hlast : Charged q (h ++ [e]) →
          e = .attackAccepted q ∨ e ≠ .attackHit q ∧ Charged q h := by
        rintro ⟨a, b, hab, hb⟩
        rcases List.eq_nil_or_concat b with rfl | ⟨c, e', rfl⟩
        · obtain ⟨-, heq⟩ := List.append_inj' hab rfl
          exact Or.inl (List.cons.inj heq).1
        · rw [List.concat_eq_append, ← List.cons_append, ← List.append_assoc] at hab
          obtain ⟨hh, heq⟩ := List.append_inj' hab rfl
          rw [List.concat_eq_append, List.mem_append, not_or] at hb
          rw [(List.cons.inj heq).1]
          exact Or.inr ⟨fun hbad => hb.2 (by rw [hbad]; exact List.mem_singleton_self _), a,
            c, hh, hb.1⟩
      rw [List.count_append, List.count_append, List.count_singleton, List.count_singleton]
      by_cases hhit : e = .attackHit q
      · subst hhit
        have hcharged := hlt (he q h [] rfl)
        refine ⟨?_, fun hc => ?_⟩
        · simp
          omega
        · rcases hlast hc with hbad | ⟨hbad, -⟩
          · cases hbad
          · exact absurd rfl hbad
      · have hno : (e == .attackHit q) = false := by simpa using hhit
        rw [hno]
        by_cases haccepted : e = .attackAccepted q
        · subst haccepted
          simp
          omega
        · have hno' : (e == .attackAccepted q) = false := by simpa using haccepted
          rw [hno']
          exact ⟨hle, fun hc => hlt ((hlast hc).resolve_left haccepted).2⟩
  exact hboth.1

end

/-! ### The animation -/

/-- The animation of `p` stands at the frame of the hit. -/
def Player.Frozen (p : Player F) : Prop :=
  p.connect = false ∧ p.state = .attack ∧ p.animFrame = PLAYER_ATTACK_AWINDUP_FRAME

instance (p : Player F) : Decidable p.Frozen := inferInstanceAs (Decidable (_ ∧ _))

/-- Hits are evaluated once, and an animation that has not come to its hit has a request that waits.
-/
structure Armed (s : State F) : Prop where
  once : EvaluatedOnce s.history
  charged : ∀ q ∈ s.players, (s.player q).state = .attack →
    (s.player q).animFrame < PLAYER_ATTACK_AWINDUP_FRAME →
    Charged q s.history

/-- Whoever attacks in `t` attacked in `s`. -/
def SameAttacks (s t : State F) : Prop := ∀ q ∈ t.players, (t.player q).state = .attack →
  q ∈ s.players ∧ (s.player q).state = .attack ∧ (s.player q).animFrame = (t.player q).animFrame ∧
    (s.player q).connect = (t.player q).connect

section

variable {s t : State F}

theorem sameAttacks_of_eq (hp : t.player = s.player) (hps : ∀ q ∈ t.players, q ∈ s.players) :
    SameAttacks s t :=
  fun q hq hstate => ⟨hps q hq, by rw [← hp]; exact hstate, by rw [hp], by rw [hp]⟩

/-- The attack of a player, if it is in one, is the one that it was in. -/
theorem sameAttacks_setPlayer {q : ℕ} {p : Player F}
    (h : p.state = .attack → (s.player q).state = .attack ∧ (s.player q).animFrame = p.animFrame ∧
      (s.player q).connect = p.connect) :
      SameAttacks s (s.setPlayer q p) := by
  intro q' hq' hstate
  rw [setPlayer_player] at hstate ⊢
  refine ⟨hq', ?_⟩
  split_ifs at hstate ⊢ with he
  · rw [he]
    exact h hstate
  · exact ⟨hstate, rfl, rfl⟩

theorem Armed.of_events {es : List Event} (h : Armed s) (ha : SameAttacks s t)
    (hh : t.history = s.history ++ es) (hes : ∀ q, .attackHit q ∉ es) : Armed t := by
  refine ⟨?_, fun q hq hstate hframe => ?_⟩
  · rw [hh]
    exact h.once.append hes
  · obtain ⟨hq, hstate, hsame, -⟩ := ha q hq hstate
    rw [← hsame] at hframe
    rw [hh]
    exact (h.charged q hq hstate hframe).append (hes q)

theorem SameAttacks.frozen (ha : SameAttacks s t) (h : ∀ q ∈ s.players, ¬(s.player q).Frozen)
    {q : ℕ} (hq : q ∈ t.players) :
    ¬(t.player q).Frozen := by
  rintro ⟨hconnect, hstate, hframe⟩
  obtain ⟨hq, hstate, hsame, hc⟩ := ha q hq hstate
  exact h q hq ⟨hc.trans hconnect, hstate, hsame.trans hframe⟩

/-- What an effect comes to for the attacks. -/
inductive Strike (s : State F) : State F → Prop
  | still {t : State F} (es : List Event) (ha : SameAttacks s t) (hh : t.history = s.history ++ es)
      (hes : ∀ q, .attackHit q ∉ es) : Strike s t
  | accept {t : State F} (q : ℕ) (hps : t.players = s.players) (hp : (t.player q).animFrame = 0)
      (hother : ∀ q', q' ≠ q → t.player q' = s.player q')
      (hh : t.history = s.history ++ [.attackAccepted q]) : Strike s t

theorem Strike.armed (hst : Strike s t) (h : Armed s) : Armed t := by
  cases hst with
  | still es ha hh hes => exact h.of_events ha hh hes
  | accept q hps hp hother hh =>
    refine ⟨?_, fun q' hq' hstate hframe => ?_⟩
    · rw [hh]
      exact h.once.append fun q' hmem => by cases List.mem_singleton.mp hmem
    · rw [hh]
      by_cases he : q' = q
      · rw [he]
        exact ⟨s.history, [], rfl, List.not_mem_nil⟩
      · rw [hps] at hq'
        rw [hother q' he] at hstate hframe
        exact (h.charged q' hq' hstate hframe).append fun hmem => by
          cases List.mem_singleton.mp hmem

theorem Strike.frozen (hst : Strike s t) (h : ∀ q ∈ s.players, ¬(s.player q).Frozen) {q : ℕ}
    (hq : q ∈ t.players) :
    ¬(t.player q).Frozen := by
  cases hst with
  | still es ha hh hes => exact ha.frozen h hq
  | accept q' hps hp hother hh =>
    by_cases he : q = q'
    · rintro ⟨-, -, hframe⟩
      rw [he, hp] at hframe
      cases hframe
    · rw [hps] at hq
      rw [hother q he]
      exact h q hq

theorem strike_of_eq (hp : t.player = s.player) (hps : ∀ q ∈ t.players, q ∈ s.players)
    (hh : t.history = s.history) :
    Strike s t :=
  .still [] (sameAttacks_of_eq hp hps) (hh.trans (List.append_nil _).symm) fun _ => List.not_mem_nil

theorem strike_of_event {e : Event} (hp : t.player = s.player)
    (hps : ∀ q ∈ t.players, q ∈ s.players) (hh : t.history = s.history ++ [e])
    (he : ∀ q, e ≠ .attackHit q) : Strike s t :=
  .still [e] (sameAttacks_of_eq hp hps) hh fun q hmem => he q (List.mem_singleton.mp hmem).symm

/-- A player is rewritten who is in no attack, or in the same as before. -/
theorem strike_setPlayer {q : ℕ} {p : Player F} {es : List Event}
    (hp : ∀ q', t.player q' = (s.setPlayer q p).player q') (hps : t.players = s.players)
    (h : p.state = .attack → (s.player q).state = .attack ∧ (s.player q).animFrame = p.animFrame ∧
      (s.player q).connect = p.connect) (hh : t.history = s.history ++ es)
    (hes : ∀ q, .attackHit q ∉ es) : Strike s t := by
  refine .still es (fun q' hq' hstate => ?_) hh hes
  rw [hp] at hstate ⊢
  rw [hps] at hq'
  exact sameAttacks_setPlayer h q' hq' hstate

theorem strike_handBack (s : State F) (q : ℕ) : Strike s (s.handBack q) := by
  refine .still [.playerDisconnected q] (fun q' hq' hstate => ?_) rfl (by simp)
  change ((s.setPlayer q { s.player q with savePending := false }).player q').state =
    .attack at hstate
  change _ ∧ _ ∧
    _ = ((s.setPlayer q { s.player q with savePending := false }).player q').animFrame ∧
    _ = ((s.setPlayer q { s.player q with savePending := false }).player q').connect
  rw [setPlayer_player] at hstate ⊢
  refine ⟨List.mem_of_mem_erase hq', ?_⟩
  split_ifs at hstate ⊢ with he
  · rw [he]
    exact ⟨hstate, rfl, rfl⟩
  · exact ⟨hstate, rfl, rfl⟩

variable [Machine F]

omit [Machine F] in
theorem changeState_state {p p' : Player F} {state : PlayerState}
    (h : p.changeState state = .ok p') : p'.state = state := by
  rw [(changeState_eq h).2]

/-- Nobody attacks who has just been hit. -/
theorem takeDamage_state {p p' : Player F} {damage : ℤ} {m : Monster F} (hstate : p.state ≠ .dead)
    (h : p.takeDamage damage m = .ok p') : p'.state = .dead ∨ p'.state = .stun := by
  unfold Player.takeDamage at h
  dsimp only at h
  rw [if_neg hstate] at h
  split_ifs at h with hzero hstun
  · exact Or.inl (changeState_state h)
  · cases h
    exact Or.inr hstun
  · exact Or.inr (changeState_state h)

theorem place_attack (p : Player F) (packetPos : Position F) (direction : ℤ) :
    (p.place packetPos direction).state = p.state := by
  unfold Player.place
  rw [syncCheck_eq]

theorem Dropped.strike {m : Monster F} (h : Dropped s m t) :
    ∃ es, t.history = s.history ++ es ∧ (∀ q, .attackHit q ∉ es) ∧
    t.player = s.player ∧ t.players = s.players := by
  cases h with
  | nothing rands => exact ⟨[.dropItem m.monsterID], rfl, by simp, rfl, rfl⟩
  | item itemId count rands =>
    exact ⟨[.dropItem m.monsterID, .itemCreated (s.itemUniqueID + 1) itemId count],
      List.append_assoc _ _ _, by simp, rfl, rfl⟩

theorem Act.strike (h : Act s t) : Strike s t := by
  have hno : ∀ (e : Event), (∀ q, e ≠ .attackHit q) → ∀ q, .attackHit q ∉ [e] :=
    fun e he q hmem => he q (List.mem_singleton.mp hmem).symm
  cases h with
  | fieldUpdate => exact strike_of_event rfl (fun _ => id) rfl (by simp)
  | adjust q syncCnt targets hq =>
    exact strike_setPlayer (fun _ => rfl) rfl (fun hstate => ⟨hstate, rfl, rfl⟩)
      (List.append_nil _).symm (by simp)
  | hit q id m hq hid hstate hm hdead hgrid =>
      exact strike_of_event rfl (fun _ hq => hq) rfl (by simp)
  | kill q id m u hq hid hstate hm hdead hgrid hu =>
    obtain ⟨es, hh, hes, hp, hps⟩ := hu.strike
    refine .still ([.monsterState (some q) id (s.monster id).state m.state] ++ es ++
      [.killCountUpdate id q (u.player q).accountNo (u.player q).nickname])
        (sameAttacks_of_eq hp fun q' hq' => ?_) ?_ ?_
    · exact (congrArg (q' ∈ ·) hps).mp hq'
    · change u.history ++ [_] = _
      rw [hh]
      change (s.history ++ [_]) ++ es ++ [_] = _
      rw [List.append_assoc, List.append_assoc, List.append_assoc]
    · simpa using hes
  | aim q hq hne =>
    exact strike_setPlayer (fun _ => rfl) rfl (fun hstate => ⟨hstate, rfl, rfl⟩)
      (List.append_nil _).symm (by simp)
  | cross q hq hne =>
    obtain ⟨sent, hrest⟩ := cross_rest (s := s) q
    refine strike_setPlayer (p := { s.player q with currentSector := (s.player q).destSector })
      (fun q' => ?_) (by rw [hrest]) (fun hstate => ⟨hstate, rfl, rfl⟩)
      (by rw [hrest, List.append_nil]) (by simp)
    rw [cross_player, setPlayer_player]
  | damaged q m p hq hstate hp =>
    refine strike_setPlayer (fun _ => rfl) rfl (fun hattack => ?_) rfl (hno (.damaged q) (by simp))
    rcases takeDamage_state hstate hp with he | he
    · rw [he] at hattack
      cases hattack
    · rw [he] at hattack
      cases hattack
  | enter q accountNo characterID pos nickname hq hid =>
    refine .still [] (fun q' hq' hstate => ?_) (List.append_nil _).symm (by simp)
    rw [sendSpawns_player] at hstate ⊢
    change (Function.update s.player q (entered q accountNo characterID pos nickname) q').state =
      .attack at hstate
    change _ ∧ _ ∧ (s.player q').animFrame =
      (Function.update s.player q (entered q accountNo characterID pos nickname) q').animFrame ∧
        (s.player q').connect =
      (Function.update s.player q (entered q accountNo characterID pos nickname) q').connect
    by_cases he : q' = q
    · rw [he, Function.update_self] at hstate
      cases hstate
    · rw [Function.update_of_ne he] at hstate ⊢
      exact ⟨(List.mem_cons.mp hq').resolve_left he, hstate, rfl, rfl⟩
  | moveStart q p packetPos direction hq hstate hsync hp =>
    refine strike_setPlayer (fun _ => rfl) rfl (fun hattack => ?_)
      rfl (hno (.moveStart q) (by simp))
    rw [changeState_state hp] at hattack
    cases hattack
  | moveStop q p packetPos direction hq hsync hp =>
    refine strike_setPlayer (fun _ => rfl) rfl (fun hattack => ?_) rfl (hno (.moveStop q) (by simp))
    rcases hp with ⟨hidle, rfl⟩ | ⟨-, hp⟩
    · rw [place_attack, hidle] at hattack
      cases hattack
    · rw [changeState_state hp] at hattack
      cases hattack
  | attackReq q p skillId hq hstate hp =>
    refine .accept q rfl ?_ (fun q' hne => Function.update_of_ne hne _ _) rfl
    change (Function.update s.player q { p with pendingAttackSkillId := skillId } q).animFrame = 0
    rw [Function.update_self, (changeState_eq hp).2]
  | loot q id hq hid hgrid hcell =>
    exact strike_setPlayer (p := (s.player q).addItem (s.item id))
      (fun _ => rfl) rfl (fun hstate => ⟨hstate, rfl, rfl⟩) rfl (hno (.looted q id) (by simp))
  | save q hq hconnect hpending =>
    exact strike_setPlayer (p := { s.player q with savePending := true }) (fun _ => rfl) rfl
      (fun hstate => ⟨hstate, rfl, rfl⟩) rfl (hno (.positionSave q) (by simp))
  | rehash players sectors monsters monsterSectors items itemSectors hp hs hm hms hi his =>
    exact strike_of_eq rfl (fun _ => hp.mem_iff.mp) rfl
  | _ => exact strike_of_eq rfl (fun _ => id) rfl

theorem MonsterAct.strike {id : ℤ} (h : MonsterAct id s t) : Strike s t := by
  cases h with
  | update m rands hid hm =>
    exact strike_of_event (e := .monsterState none id (s.monster id).state m.state)
      rfl (fun _ hq => hq) rfl (by simp)
  | cross hid hstate hne => exact strike_of_eq rfl (fun _ hq => hq) rfl
  | proc ht => cases ht <;> exact strike_of_eq rfl (fun _ hq => hq) rfl

omit [Machine F] in
theorem ItemAct.strike {id : ℤ} (h : ItemAct id s t) : Strike s t := by
  cases h with
  | update hid hlife => exact strike_of_eq rfl (fun _ hq => hq) rfl
  | expire hid hlife hgrid =>
      exact strike_of_event (e := .expired id) rfl (fun _ hq => hq) rfl (by simp)

/-! ### Ticks and runs -/

/-- The animation of an attack goes on by one frame, or stands still. -/
theorem update_attack {p p' : Player F} (h : p.update = .ok p') (hstate : p'.state = .attack) :
    p.connect = false ∧ p' = p ∨
      p.connect = true ∧ p'.connect = true ∧ p.state = .attack ∧
        p'.animFrame = p.animFrame + 1 := by
  unfold Player.update at h
  split_ifs at h with hc
  · cases h
    exact Or.inl ⟨hc, rfl⟩
  · have hconnect : p.connect = true := by simpa using hc
    right
    dsimp only at h
    split at h
    · next hmove =>
      cases h
      change p.state = .attack at hstate
      rw [hmove] at hstate
      cases hstate
    · next hattack =>
      split_ifs at h
      · rw [changeState_state h] at hstate
        cases hstate
      · cases h
        exact ⟨hconnect, hconnect, hattack, rfl⟩
    · next hstun =>
      split_ifs at h
      · cases h
        rw [hstun] at hstate
        cases hstate
      · rw [changeState_state h] at hstate
        cases hstate
    · next hdead =>
      cases h
      rw [hdead] at hstate
      cases hstate
    · next hidle =>
      cases h
      rw [hidle] at hstate
      cases hstate

theorem PlayerAct.armed {q : ℕ} (ha : PlayerAct q s t)
    (hthaw : ∀ q ∈ s.players, ¬(s.player q).Frozen) (h : Armed s) :
    Armed t ∧ ∀ q ∈ t.players, ¬(t.player q).Frozen := by
  have hfrozen : ∀ {p : Player F}, (s.player q).update = .ok p → q ∈ s.players → ¬p.Frozen := by
    rintro p hp hq ⟨hc, hstate, hframe⟩
    rcases update_attack hp hstate with ⟨-, rfl⟩ | ⟨-, hc', -, -⟩
    · exact hthaw q hq ⟨hc, hstate, hframe⟩
    · rw [hc] at hc'
      cases hc'
  have hset : ∀ {p : Player F}, (s.player q).update = .ok p → q ∈ s.players → ∀ q' ∈ s.players,
      ¬((s.setPlayer q p).player q').Frozen := by
    intro p hp hq q' hq'
    rw [setPlayer_player]
    split_ifs
    · exact hfrozen hp hq
    · exact hthaw q' hq'
  cases ha with
  | update p hq hp hframe =>
    refine ⟨⟨h.once, fun q' hq' hstate hlt => ?_⟩, hset hp hq⟩
    rw [setPlayer_player] at hstate hlt
    split_ifs at hstate hlt with he
    · rw [he]
      rcases update_attack hp hstate with ⟨-, rfl⟩ | ⟨-, -, hattack, hnext⟩
      · exact h.charged q hq hstate hlt
      · exact h.charged q hq hattack (by omega)
    · exact h.charged q' hq' hstate hlt
  | attackHit p hq hp hstate hframe =>
    have hcharged : Charged q s.history := by
      rcases update_attack hp hstate with ⟨hc, rfl⟩ | ⟨-, -, hattack, hnext⟩
      · exact absurd ⟨hc, hstate, hframe⟩ (hthaw q hq)
      · exact h.charged q hq hattack (by omega)
    refine ⟨⟨h.once.hit hcharged, fun q' hq' hattack hlt => ?_⟩, hset hp hq⟩
    change ((s.setPlayer q p).player q').state = .attack at hattack
    change ((s.setPlayer q p).player q').animFrame < _ at hlt
    rw [setPlayer_player] at hattack hlt
    split_ifs at hattack hlt with he
    · omega
    · refine (h.charged q' hq' hattack hlt).append fun hmem => he ?_
      injection List.mem_singleton.mp hmem

/-- In a tick that finds no animation standing at the frame of the hit. -/
theorem armed_ticks (hticks : Ticks s t) (hthaw : ∀ q ∈ s.players, ¬(s.player q).Frozen)
    (h : Armed s) : Armed t :=
  (hticks.keeps (P := fun u => Armed u ∧ ∀ q ∈ u.players, ¬(u.player q).Frozen)
    (fun hu ha => ⟨ha.strike.armed hu.1, fun _ hq => ha.strike.frozen hu.2 hq⟩)
    (fun hu ha => ⟨ha.strike.armed hu.1, fun _ hq => ha.strike.frozen hu.2 hq⟩)
    (fun hu ha => ha.armed hu.2 hu.1) ⟨h, hthaw⟩).1

/-- No tick finds a player whose session has ended and whose animation stands at the frame of the
hit. -/
def NobodyFrozen (s : State F) (l : Step F) : Prop :=
  match l with
  | .fieldUpdate => ∀ q ∈ s.players, ¬(s.player q).Frozen
  | _ => True

theorem armed_step {l : Step F} (hs : Sound s) (h : Armed s) (hl : NobodyFrozen s l)
    (he : step s l = some (.ok t)) :
    Armed t := by
  rcases step_cases he with hc | ⟨rfl, hu⟩ | ⟨-, hr⟩ | ⟨q, -, rfl⟩
  · exact hc.keeps (P := Armed) (fun hu ha => ha.strike.armed hu)
      (fun hu ha => ha.strike.armed hu) h
  · obtain ⟨u, hticks, hitems⟩ := fieldUpdate_cases hu
    have hbegin : Armed (s.record .fieldUpdate) := (Act.fieldUpdate : Act s _).strike.armed h
    have hu : Sound u := (hticks.stays).sound ((Act.fieldUpdate : Act s _).sound hs)
    have hitem :=
      itemActs_updateItems hu.items.cells.nodup hu.items.cells.nodup (fun _ h => h) hitems
    exact hitem.keeps (P := Armed) (fun hu ha => ha.strike.armed hu) (armed_ticks hticks hl hbegin)
  · unfold dbResultPacketProc at hr
    have htake : Strike s { s with dbResQ := [] } := strike_of_eq rfl (fun _ hq => hq) rfl
    refine foldlM_keeps (P := Armed) (fun u v result _ hu hv => ?_) (htake.armed h) hr
    rcases dbResult_cases hv with ⟨-, rfl | ⟨q, packet, -, -, rfl⟩⟩ | ⟨q, -, -, rfl⟩
    · exact hu
    · have hsend : Strike u (u.sendPost q packet) := strike_of_eq rfl (fun _ hq => hq) rfl
      exact hsend.armed hu
    · exact (strike_handBack u q).armed hu
  · refine ⟨h.once, fun q' hq' hattack hlt => ?_⟩
    rw [State.disconnect, setPlayer_player] at hattack hlt
    split_ifs at hattack hlt with he
    · rw [he] at hq' ⊢
      exact h.charged q hq' hattack hlt
    · exact h.charged q' hq' hattack hlt

theorem Fresh.armed (h : Fresh s) : Armed s := by
  obtain ⟨hplayers, -, -, hhistory⟩ := h.nobody
  refine ⟨?_, fun q hq => ?_⟩
  · rw [hhistory]
    intro q h1 h2 heq
    exact absurd heq.symm (by simp)
  · rw [hplayers] at hq
    cases hq

/-- In a run in which nobody is frozen when the field is updated, every hit is that of a request of
its own. -/
theorem evaluated_once (h : (field.restrict NobodyFrozen).Reachable s) : EvaluatedOnce s.history :=
  (field_runs_if (P := Armed) (fun hs => hs.armed)
    (fun hs ha hl he => armed_step hs ha hl he) h).once

end

/-! ### Two runs -/

section

/-- `NobodyFrozen` as a test. -/
def nobodyFrozen (s : State ℚ) : Step ℚ → Bool
  | .fieldUpdate => s.players.all fun q => !(s.player q).Frozen
  | _ => true

theorem nobodyFrozen_sound {s : State ℚ} {l : Step ℚ} (h : nobodyFrozen s l = true) :
    NobodyFrozen s l := by
  cases l with
  | fieldUpdate => simpa [nobodyFrozen, NobodyFrozen] using h
  | _ => trivial

/-- Session 1 kills the monster; each of its three hits was asked for. -/
theorem evaluated_once_killRun :
    ∃ s : State ℚ, s.history.count (.attackHit 1) = 3 ∧ EvaluatedOnce s.history := by
  have hrun : (field.execIf nobodyFrozen oneMonster killRun).any
      (fun s => s.history.count (.attackHit 1) = 3) = true := by
    decide +kernel
  obtain ⟨s, hs, hp⟩ := Option.any_eq_true _ _ |>.mp hrun
  have hreach : (field.restrict NobodyFrozen).Reachable s :=
    System.Reachable.execIf (fun _ _ => nobodyFrozen_sound) _ (.start oneMonster_init) hs
  exact ⟨s, of_decide_eq_true hp, evaluated_once hreach⟩

/-- Session 1 ends when its attack has just hit, and the next tick evaluates the attack again. -/
theorem struck_twice : ∃ s : State ℚ, field.Reachable s ∧ ¬ EvaluatedOnce s.history := by
  have hrun : (field.exec oneMonster ([.registerPlayer 1 7 11 ⟨0, 0⟩ []] ++
      strike ++ [.onRelease 1, .fieldUpdate])).any (fun s => s.history.count (.attackHit 1) = 2 ∧
      s.history.count (.attackAccepted 1) = 1) = true := by decide +kernel
  obtain ⟨s, hs, hp⟩ := Option.any_eq_true _ _ |>.mp hrun
  obtain ⟨hhits, haccepted⟩ := of_decide_eq_true hp
  refine ⟨s, .exec _ (.start oneMonster_init) hs, fun h => ?_⟩
  have hle := h.count_le 1
  omega

end

end Field
end MyMMO
