/-
# The cooldown of an attack

The hit of an attack is evaluated in the tick that brings its animation to
`PLAYER_ATTACK_AWINDUP_FRAME`, and the animation ends `PLAYER_ATTACK_TOTAL_FRAME` ticks after its
start. It is left earlier by a monster's hit, whose stun lasts longer than what is left, or by a
MOVE_START that comes less than ALLOW_DELAY_FRAME frames too early. So the next hit may follow after
the windup alone (`hits_close`); without such a MOVE_START it does not follow before the whole
animation (`cooled`).
-/
import MyMMO.Attack
import MyMMO.Players

namespace MyMMO
namespace Field

open Outcome

variable {F : Type}

/-! ### Ticks between hits -/

/-- The ticks in `h`. -/
def ticks (h : List Event) : ℤ := (h.count .fieldUpdate : ℕ)

/-- In `h`, which begins with a hit of `q`, a MOVE_START of `q` is accepted before the animation of
that attack is over. -/
def Hurried (q : ℕ) (h : List Event) : Prop :=
  ∃ a b, h = a ++ .moveStart q :: b ∧
    ticks a < PLAYER_ATTACK_TOTAL_FRAME - PLAYER_ATTACK_AWINDUP_FRAME

/-- Two hits of `q` are as far apart as the windup, and as the whole animation if no MOVE_START cuts
it short. -/
def Cooled (q : ℕ) (h : List Event) : Prop :=
  ∀ a b c, h = a ++ .attackHit q :: (b ++ .attackHit q :: c) →
  PLAYER_ATTACK_AWINDUP_FRAME ≤ ticks b ∧ (Hurried q b ∨ PLAYER_ATTACK_TOTAL_FRAME ≤ ticks b)

/-- `n` ticks after a hit, neither the attack that it came from nor what followed has run ahead of
the ticks. -/
structure Player.Cools (p : Player F) (n : ℤ) : Prop where
  after : p.state = .attack → p.animFrame ≤ n + PLAYER_ATTACK_AWINDUP_FRAME
  before : p.state = .attack → p.animFrame < PLAYER_ATTACK_AWINDUP_FRAME →
    p.animFrame + (PLAYER_ATTACK_TOTAL_FRAME - PLAYER_ATTACK_AWINDUP_FRAME) ≤ n
  free : p.state = .idle ∨ p.state = .move →
    PLAYER_ATTACK_TOTAL_FRAME - PLAYER_ATTACK_AWINDUP_FRAME ≤ n
  stun : p.state = .stun → PLAYER_ATTACK_TOTAL_FRAME - PLAYER_ATTACK_AWINDUP_FRAME ≤
    n + p.hitStunFrame

/-- `n` ticks after a hit of `p`, hurried since or not. -/
structure Player.Rests (p : Player F) (n : ℤ) (hurried : Prop) : Prop where
  windup : p.state = .attack → p.animFrame < PLAYER_ATTACK_AWINDUP_FRAME → p.animFrame ≤ n
  cools : hurried ∨ p.Cools n

/-- Every hit of `q` is `ticks` ago, `late` of which `q` has still to be updated in. -/
def Paced (late : ℤ) (q : ℕ) (s : State F) : Prop :=
  ∀ a b, s.history = a ++ .attackHit q :: b → (s.player q).Rests (ticks b - late) (Hurried q b)

section

variable {q : ℕ} {h es a b : List Event}

theorem ticks_append (h es : List Event) : ticks (h ++ es) = ticks h + ticks es := by
  simp [ticks, List.count_append]

theorem ticks_nonneg (h : List Event) : 0 ≤ ticks h := Int.natCast_nonneg _

theorem ticks_of_notMem (h : .fieldUpdate ∉ es) : ticks es = 0 := by
  rw [ticks, List.count_eq_zero_of_not_mem h]
  rfl

theorem ticks_concat {e : Event} (he : e ≠ .fieldUpdate) : ticks (h ++ [e]) = ticks h := by
  have hnot : .fieldUpdate ∉ [e] := fun hmem => he (List.mem_singleton.mp hmem).symm
  rw [ticks_append, ticks_of_notMem hnot, add_zero]

theorem Hurried.append (h : Hurried q b) (es : List Event) : Hurried q (b ++ es) := by
  obtain ⟨a, c, rfl, ha⟩ := h
  exact ⟨a, c ++ es, by rw [List.append_assoc, List.cons_append], ha⟩

/-- A hit in `h ++ es` is one in `h` if there is none in `es`. -/
theorem hit_append (hes : .attackHit q ∉ es) {c : List Event}
    (heq : h ++ es = a ++ .attackHit q :: c) :
    ∃ b, h = a ++ .attackHit q :: b ∧ c = b ++ es := by
  rcases List.append_eq_append_iff.mp heq with ⟨m, rfl, hm⟩ | ⟨m, rfl, hm⟩
  · exact absurd (hm ▸ List.mem_append_right m List.mem_cons_self) hes
  · cases m with
    | nil =>
      rw [List.nil_append] at hm
      exact absurd (hm ▸ List.mem_cons_self) hes
    | cons e m =>
      obtain ⟨rfl, rfl⟩ := List.cons.inj hm
      exact ⟨m, rfl, rfl⟩

theorem Cooled.append (hc : Cooled q h) (hes : .attackHit q ∉ es) : Cooled q (h ++ es) := by
  intro a b c heq
  obtain ⟨m, rfl, hm⟩ := hit_append hes heq
  obtain ⟨c', rfl, -⟩ := hit_append hes hm.symm
  exact hc a b c' rfl

/-- A hit that every earlier one is far enough from. -/
theorem Cooled.hit (hc : Cooled q h)
    (hfar : ∀ a b, h = a ++ .attackHit q :: b →
      PLAYER_ATTACK_AWINDUP_FRAME ≤ ticks b ∧ (Hurried q b ∨ PLAYER_ATTACK_TOTAL_FRAME ≤ ticks b)) :
    Cooled q (h ++ [.attackHit q]) := by
  intro a b c heq
  rcases List.eq_nil_or_concat c with rfl | ⟨m, e, rfl⟩
  · rw [← List.cons_append, ← List.append_assoc] at heq
    exact hfar a b (List.append_inj' heq rfl).1
  · rw [List.concat_eq_append, ← List.cons_append, ← List.append_assoc, ← List.cons_append,
      ← List.append_assoc] at heq
    refine hc a b m ?_
    rw [(List.append_inj' heq rfl).1, List.append_assoc, List.cons_append]

end

section

variable {p p' : Player F} {n n' : ℤ} {hurried hurried' : Prop}

/-- Later, with the same animation. -/
theorem Player.Rests.mono (h : p.Rests n hurried) (hstate : p'.state = p.state)
    (hframe : p'.animFrame = p.animFrame) (hstun : p'.hitStunFrame = p.hitStunFrame) (hn : n ≤ n')
    (hh : hurried → hurried') : p'.Rests n' hurried' := by
  refine ⟨fun ha hlt => ?_,
    h.cools.imp hh fun hc => ⟨fun ha => ?_, fun ha hlt => ?_, fun hf => ?_, fun hs => ?_⟩⟩
  · rw [hframe] at hlt ⊢
    exact (h.windup (hstate ▸ ha) hlt).trans hn
  · have hle := hc.after (hstate ▸ ha)
    omega
  · have hle := hc.before (hstate ▸ ha) (by omega)
    omega
  · have hle := hc.free (hstate ▸ hf)
    omega
  · have hle := hc.stun (hstate ▸ hs)
    omega

/-- Into a state that takes longer than the rest of the animation. -/
theorem rests_hit (hn : 0 ≤ n)
    (hp : p.state = .dead ∨ p.state = .stun ∧ p.hitStunFrame = PLAYER_HIT_STUN_FRAME) :
    p.Rests n hurried := by
  have hattack : p.state ≠ .attack := by
    rcases hp with hs | ⟨hs, -⟩ <;> simp [hs]
  have hfree : ¬(p.state = .idle ∨ p.state = .move) := by
    rcases hp with hs | ⟨hs, -⟩ <;> simp [hs]
  refine ⟨fun ha => absurd ha hattack, .inr ⟨fun ha => absurd ha hattack,
    fun ha => absurd ha hattack, fun hf => absurd hf hfree, fun hs => ?_⟩⟩
  rcases hp with hdead | ⟨-, hframe⟩
  · rw [hdead] at hs
    cases hs
  · rw [hframe]
    unfold PLAYER_ATTACK_TOTAL_FRAME PLAYER_ATTACK_AWINDUP_FRAME PLAYER_HIT_STUN_FRAME
    omega

/-- An attack begins. -/
theorem Player.Rests.attack (h : p.Rests n hurried) (hn : 0 ≤ n)
    (hp : p.state = .idle ∨ p.state = .move) (hstate : p'.state = .attack)
    (hframe : p'.animFrame = 0) : p'.Rests n hurried := by
  refine ⟨fun _ _ => by omega, h.cools.imp_right fun hc => ?_⟩
  have hlong := hc.free hp
  refine ⟨fun _ => ?_, fun _ _ => by omega, fun hf => ?_, fun hs => ?_⟩
  · rw [hframe]
    unfold PLAYER_ATTACK_AWINDUP_FRAME
    omega
  · rcases hf with hf | hf <;> rw [hstate] at hf <;> cases hf
  · rw [hstate] at hs
    cases hs

/-- The player stands or walks, and may have cut its attack short. -/
theorem Player.Rests.free (h : p.Rests n hurried)
    (hp : (p.state = .idle ∨ p.state = .move) ∨ p.state = .attack)
    (hstate : p'.state = .idle ∨ p'.state = .move) (hh : hurried → hurried')
    (hcut : p.state = .attack →
      n < PLAYER_ATTACK_TOTAL_FRAME - PLAYER_ATTACK_AWINDUP_FRAME → hurried') :
    p'.Rests n hurried' := by
  have hattack : p'.state ≠ .attack := by
    rcases hstate with hs | hs <;> simp [hs]
  have hlong : hurried' ∨ PLAYER_ATTACK_TOTAL_FRAME - PLAYER_ATTACK_AWINDUP_FRAME ≤ n := by
    rcases hp with hf | ha
    · exact h.cools.imp hh fun hc => hc.free hf
    · exact (lt_or_ge n _).imp_left (hcut ha)
  refine ⟨fun ha => absurd ha hattack, hlong.imp_right fun hle =>
    ⟨fun ha => absurd ha hattack, fun ha => absurd ha hattack, fun _ => hle, fun hs => ?_⟩⟩
  rcases hstate with hf | hf <;> rw [hs] at hf <;> cases hf

variable [Machine F]

/-- What a tick of a connected player does to its animation and its stun. -/
theorem update_frames (hconnect : p.connect = true) (hp : p.update = .ok p') :
    p'.state = p.state ∧ (p.state = .attack → p'.animFrame = p.animFrame + 1) ∧
        (p.state = .stun → p'.hitStunFrame = p.hitStunFrame - 1) ∨
      p'.state = .idle ∧ (p.state = .attack ∧ PLAYER_ATTACK_TOTAL_FRAME ≤ p.animFrame + 1 ∨
        p.state = .stun ∧ p.hitStunFrame ≤ 0) := by
  unfold Player.update at hp
  rw [if_neg (by simp [hconnect])] at hp
  dsimp only at hp
  split at hp
  · next hs =>
    cases hp
    exact .inl ⟨rfl, fun ha => (nomatch hs.symm.trans ha), fun ha => (nomatch hs.symm.trans ha)⟩
  · next hs =>
    split_ifs at hp with hlast
    · exact .inr ⟨changeState_state hp, .inl ⟨hs, hlast⟩⟩
    · cases hp
      exact .inl ⟨rfl, fun _ => rfl, fun ha => (nomatch hs.symm.trans ha)⟩
  · next hs =>
    split_ifs at hp with hlast
    · cases hp
      exact .inl ⟨rfl, fun ha => (nomatch hs.symm.trans ha), fun _ => rfl⟩
    · exact .inr ⟨changeState_state hp, .inr ⟨hs, not_lt.mp hlast⟩⟩
  all_goals
    next hs =>
    cases hp
    exact .inl ⟨rfl, fun ha => (nomatch hs.symm.trans ha), fun ha => (nomatch hs.symm.trans ha)⟩

/-- A tick of a connected player. -/
theorem Player.Rests.update (h : p.Rests (n - 1) hurried) (hconnect : p.connect = true)
    (hp : p.update = .ok p') :
    p'.Rests n hurried := by
  rcases update_frames hconnect hp with ⟨hstate, hframe, hstun⟩ | ⟨hidle, hlast⟩
  · refine ⟨fun ha hlt => ?_,
      h.cools.imp_right fun hc => ⟨fun ha => ?_, fun ha hlt => ?_, fun hf => ?_, fun hs => ?_⟩⟩
    · rw [hframe (hstate ▸ ha)] at hlt ⊢
      have hle := h.windup (hstate ▸ ha) (by omega)
      omega
    · rw [hframe (hstate ▸ ha)]
      have hle := hc.after (hstate ▸ ha)
      omega
    · rw [hframe (hstate ▸ ha)] at hlt ⊢
      have hle := hc.before (hstate ▸ ha) (by omega)
      omega
    · have hle := hc.free (hstate ▸ hf)
      omega
    · rw [hstun (hstate ▸ hs)]
      have hle := hc.stun (hstate ▸ hs)
      omega
  · refine ⟨fun ha => (nomatch hidle.symm.trans ha), h.cools.imp_right fun hc =>
      ⟨fun ha => (nomatch hidle.symm.trans ha), fun ha => (nomatch hidle.symm.trans ha),
      fun _ => ?_, fun ha => (nomatch hidle.symm.trans ha)⟩⟩
    rcases hlast with ⟨ha, hle⟩ | ⟨hs, hle⟩
    · have hafter := hc.after ha
      omega
    · have hstun := hc.stun hs
      omega

end

/-! ### A tick of the players -/

/-- What the hits of an attack record. -/
def Event.ofHit : Event → Bool
  | .monsterState _ _ _ _ | .dropItem _ | .killCountUpdate _ _ _ _ | .itemCreated _ _ _ => true
  | _ => false

/-- Only hits of attacks are recorded. -/
def Hits (s t : State F) : Prop := ∃ es, t.history = s.history ++ es ∧ ∀ e ∈ es, e.ofHit = true

section

variable {s t u : State F}

theorem Hits.refl (s : State F) : Hits s s := ⟨[], (List.append_nil _).symm, by simp⟩

theorem Hits.trans (h : Hits s t) (h' : Hits t u) : Hits s u := by
  obtain ⟨es, hes, he⟩ := h
  obtain ⟨fs, hfs, hf⟩ := h'
  refine ⟨es ++ fs, by rw [hfs, hes, List.append_assoc], fun e hmem => ?_⟩
  exact (List.mem_append.mp hmem).elim (he e) (hf e)

theorem hits_of_events {es : List Event} (hh : t.history = s.history ++ es)
    (hes : ∀ e ∈ es, e.ofHit = true) : Hits s t :=
  ⟨es, hh, hes⟩

variable [Machine F] {q : ℕ}

theorem hits_dropItem {m : Monster F} (h : dropItem s m = .ok t) : Hits s t := by
  cases dropItem_dropped h with
  | nothing rands => exact hits_of_events rfl (by simp [Event.ofHit])
  | item itemId count rands =>
      exact hits_of_events (List.append_assoc _ _ _) (by simp [Event.ofHit])

theorem hits_hitTargets {rangeLen : F} {ids : List ℤ} {maxTargetCnt : ℤ}
    (h : hitTargets q rangeLen ids maxTargetCnt s = .ok t) : Hits s t := by
  induction ids generalizing s maxTargetCnt with
  | nil =>
    cases h
    exact .refl _
  | cons id ids ih =>
    unfold hitTargets at h
    dsimp only at h
    split at h
    · exact ih h
    · obtain ⟨m, -, h⟩ := bind_ok h
      obtain ⟨near, -, h⟩ := bind_ok h
      -- the other targets, after the monster has been hit
      have hrest : ∀ u : State F, Hits s u →
          (if maxTargetCnt - 1 = 0 then pure u else
              hitTargets q rangeLen ids (maxTargetCnt - 1) u) = Except.ok t →
          Hits s t := by
        intro u hu h
        split at h
        · cases h
          exact hu
        · exact hu.trans (ih h)
      have hfirst : Hits s (((s.setMonster id m).record
          (.monsterState (some q) id (s.monster id).state m.state)).broadcastMonsterDamaged m near) :=
        hits_of_events rfl (by simp [Event.ofHit])
      split at h
      · obtain ⟨u, hu, h⟩ := bind_ok h
        obtain ⟨v, hv, rfl⟩ := map_ok hu
        have hkill : Hits v (requestKillCountUpdate v q 1 id) :=
          hits_of_events rfl (by simp [Event.ofHit])
        exact hrest _ ((hfirst.trans (hits_dropItem hv)).trans hkill) h
      · obtain ⟨u, hu, h⟩ := bind_ok h
        cases hu
        exact hrest _ hfirst h

theorem hits_processPlayerAttackHit (h : processPlayerAttackHit s q = .ok t) :
    Hits (s.record (.attackHit q)) t := by
  unfold processPlayerAttackHit at h
  dsimp only at h
  split at h
  · cases h
    exact .refl _
  · have hrest := hits_hitTargets h
    exact hrest

/-- In a tick of a player, its attack may come to its hit. -/
theorem updatePlayer_history (h : updatePlayer s q = .ok t) {p : Player F}
    (hp : (s.player q).update = .ok p) :
    p.state = .attack ∧ p.animFrame = PLAYER_ATTACK_AWINDUP_FRAME ∧ Hits
        (s.record (.attackHit q)) t ∨
      ¬(p.state = .attack ∧ p.animFrame = PLAYER_ATTACK_AWINDUP_FRAME) ∧ t.history = s.history := by
  have hhistory : ∀ u : State F, (updateSectorChechk u q).history = u.history := by
    intro u
    unfold updateSectorChechk
    dsimp only
    split_ifs <;> rfl
  unfold updatePlayer at h
  rw [hp] at h
  obtain ⟨p', hp', h⟩ := bind_ok h
  cases hp'
  dsimp only at h
  split at h
  · next hhit =>
    obtain ⟨u, hu, h⟩ := bind_ok h
    cases h
    obtain ⟨es, hes, he⟩ := hits_processPlayerAttackHit hu
    exact .inl ⟨hhit.1, hhit.2, es, (hhistory u).trans hes, he⟩
  · next hhit =>
    cases h
    exact .inr ⟨hhit, hhistory _⟩

/-- The hits of `q` so far are far enough apart, and the next one will be. -/
structure Pace (q : ℕ) (s : State F) : Prop where
  fresh : q ∉ s.met → .attackHit q ∉ s.history
  cooled : q ∈ s.players → (s.player q).connect = true → Cooled q s.history
  paced : q ∈ s.players → (s.player q).connect = true → Paced 0 q s

omit [Machine F] in
/-- `q` becomes `p'` in a tick that has begun. -/
theorem Paced.of_hits {late late' : ℤ} {p' : Player F} {es : List Event} (h : Paced late q s)
    (hh : t.history = s.history ++ es) (hes : .attackHit q ∉ es)
    (htick : .fieldUpdate ∉ es) (hp' : t.player q = p')
    (hrests : ∀ n hurried, (s.player q).Rests (n - late) hurried → p'.Rests (n - late') hurried) :
    Paced late' q t := by
  intro a b heq
  rw [hh] at heq
  obtain ⟨m, hm, rfl⟩ := hit_append hes heq
  rw [ticks_append, ticks_of_notMem htick, add_zero, hp']
  exact (hrests _ _ (h a m hm)).mono rfl rfl rfl le_rfl fun hhurried => hhurried.append es

/-- The pass of the loop over the players that comes to `q`. -/
theorem pace_self (hc : Cooled q s.history)
    (hp : Paced 1 q s) (hconnect : (s.player q).connect = true) (h : updatePlayer s q = .ok t) :
    Cooled q t.history ∧ Paced 0 q t := by
  obtain ⟨p, targets, destSector, hup, hrw⟩ := updatePlayer_self h
  have hself := hrw.self
  generalize hp' : ({ p with pendingAttackTargets := targets, destSector } : Player F) = p' at hself
  have hstate : p'.state = p.state := by rw [← hp']
  have hframe : p'.animFrame = p.animFrame := by rw [← hp']
  have hstun : p'.hitStunFrame = p.hitStunFrame := by rw [← hp']
  have hrests : ∀ n hurried, (s.player q).Rests (n - 1) hurried → p'.Rests (n - 0) hurried :=
    fun n hurried hr =>
    (hr.update hconnect hup).mono hstate hframe hstun (by omega) id
  rcases updatePlayer_history h hup with ⟨hattack, hlast, es, hes, hev⟩ | ⟨-, hhistory⟩
  · have hq : .attackHit q ∉ es := fun hmem => by cases hev _ hmem
    have htick : .fieldUpdate ∉ es := fun hmem => by cases hev _ hmem
    -- the animation was one frame before the hit
    obtain ⟨hbefore, hseven⟩ : (s.player q).state = .attack ∧
        (s.player q).animFrame + 1 = PLAYER_ATTACK_AWINDUP_FRAME := by
      rcases update_frames hconnect hup with ⟨hsame, hnext, -⟩ | ⟨hidle, -⟩
      · have hb := hsame.symm.trans hattack
        exact ⟨hb, (hnext hb).symm.trans hlast⟩
      · rw [hidle] at hattack
        cases hattack
    refine ⟨?_, fun a b hab => ?_⟩
    · rw [hes]
      refine Cooled.append (hc.hit fun a b hab => ?_) hq
      have hr := hp a b hab
      have hwindup := hr.windup hbefore (by omega)
      refine ⟨by omega, hr.cools.imp_right fun hcools => ?_⟩
      have htotal := hcools.before hbefore (by omega)
      omega
    · rw [hes] at hab
      obtain ⟨m, hm, rfl⟩ := hit_append hq hab
      rw [ticks_append, ticks_of_notMem htick, hself]
      rcases List.eq_nil_or_concat m with rfl | ⟨m, e, rfl⟩
      · -- the hit itself
        have hzero : ticks [] = 0 := rfl
        refine ⟨fun _ hlt => by omega,
          .inr ⟨fun _ => by omega, fun _ hlt => by omega, fun hf => ?_, fun hs => ?_⟩⟩
        · rw [hstate, hattack] at hf
          rcases hf with hf | hf <;> cases hf
        · rw [hstate, hattack] at hs
          cases hs
      · rw [List.concat_eq_append, ← List.cons_append, ← List.append_assoc] at hm
        obtain ⟨hold, he⟩ := List.append_inj' hm rfl
        obtain rfl := (List.cons.inj he).1
        have hone : ticks [.attackHit q] = 0 := rfl
        refine (hrests _ _ (hp a m hold)).mono rfl rfl rfl ?_ fun hh => ?_
        · rw [List.concat_eq_append, ticks_append, hone]
          omega
        · rw [List.concat_eq_append]
          exact (hh.append _).append es
  · refine ⟨hhistory ▸ hc, ?_⟩
    exact hp.of_hits (hhistory.trans (List.append_nil _).symm) List.not_mem_nil List.not_mem_nil
      hself hrests

/-- The pass that comes to another player. -/
theorem pace_other {late : ℤ} {q' : ℕ} (hne : q' ≠ q) (hc : Cooled q s.history)
    (hp : Paced late q s) (h : updatePlayer s q' = .ok t) :
    Cooled q t.history ∧ Paced late q t := by
  obtain ⟨p, targets, destSector, hup, hrw⟩ := updatePlayer_self h
  have hsame : t.player q = s.player q := hrw.of_ne hne.symm
  obtain ⟨es, hes, hq, htick⟩ :
      ∃ es, t.history = s.history ++ es ∧ .attackHit q ∉ es ∧ .fieldUpdate ∉ es := by
    rcases updatePlayer_history h hup with ⟨-, -, es, hes, hev⟩ | ⟨-, hhistory⟩
    · refine ⟨.attackHit q' :: es, hes.trans (List.append_assoc _ _ _), fun hmem => ?_,
        fun hmem => ?_⟩
      · rcases List.mem_cons.mp hmem with he | hmem
        · injection he with he
          exact hne he.symm
        · cases hev _ hmem
      · cases hev _ ((List.mem_cons.mp hmem).resolve_left nofun)
    · exact ⟨[], hhistory.trans (List.append_nil _).symm, List.not_mem_nil, List.not_mem_nil⟩
  exact ⟨hes ▸ hc.append hq, hp.of_hits hes hq htick hsame fun _ _ hr => hr⟩

/-- The loop over the players, in a tick that has begun. -/
theorem pace_updatePlayers {players : List ℕ} (hnd : players.Nodup)
    (hs : ∀ q ∈ players, (s.player q).connect = true → Cooled q s.history ∧ Paced 1 q s)
    (h : players.foldlM updatePlayer s = .ok t) :
    ∀ q ∈ players, (t.player q).connect = true → Cooled q t.history ∧ Paced 0 q t := by
  refine (foldlM_each (I := fun _ => True) (A := fun u q => (u.player q).connect = true →
    Cooled q u.history ∧ Paced 1 q u) (B := fun u q => (u.player q).connect = true →
    Cooled q u.history ∧ Paced 0 q u) hnd ?_ trivial hs h).2
  intro u v q _ _ hA hv
  obtain ⟨p, targets, destSector, hup, hrw⟩ := updatePlayer_self hv
  have hconnect : (v.player q).connect = (u.player q).connect := by
    rw [hrw.self]
    exact (keeps_update hup).connect
  refine ⟨trivial, fun hc => ?_, fun q' _ hne => ⟨fun hA' hc => ?_, fun hB' hc => ?_⟩⟩
  · rw [hconnect] at hc
    exact pace_self (hA hc).1 (hA hc).2 hc hv
  · rw [hrw.of_ne hne] at hc
    exact pace_other hne.symm (hA' hc).1 (hA' hc).2 hv
  · rw [hrw.of_ne hne] at hc
    exact pace_other hne.symm (hB' hc).1 (hB' hc).2 hv

end

/-! ### Effects and runs -/

/-- What an effect is for the hits of `q`: it records none, and the animation of `q` does not run
ahead of the ticks. -/
structure Beats (q : ℕ) (s t : State F) : Prop where
  met : ∀ q ∈ s.met, q ∈ t.met
  beat : ∃ es, t.history = s.history ++ es ∧ .attackHit q ∉ es ∧
    (q ∈ t.players → (t.player q).connect = true →
    q ∉ s.met ∨ q ∈ s.players ∧ (s.player q).connect = true ∧
      ∀ b, (s.player q).Rests (ticks b) (Hurried q b) →
      (t.player q).Rests (ticks (b ++ es)) (Hurried q (b ++ es)))

section

variable {s t : State F} {q q' : ℕ} {es : List Event}

theorem Beats.pace (hb : Beats q s t) (h : Pace q s) : Pace q t := by
  obtain ⟨es, hh, hes, hbeat⟩ := hb.beat
  have hfresh : q ∉ s.met → .attackHit q ∉ t.history := by
    intro hq
    rw [hh, List.mem_append, not_or]
    exact ⟨h.fresh hq, hes⟩
  refine ⟨fun hq => hfresh fun hmet => hq (hb.met q hmet), fun hq hc => ?_, fun hq hc a b heq => ?_⟩
  · rcases hbeat hq hc with hnew | ⟨hq, hc, -⟩
    · intro a b c heq
      exact absurd (by rw [heq]; simp) (hfresh hnew)
    · exact hh ▸ (h.cooled hq hc).append hes
  · rcases hbeat hq hc with hnew | ⟨hq, hc, hrests⟩
    · exact absurd (by rw [heq]; simp) (hfresh hnew)
    · rw [hh] at heq
      obtain ⟨m, hm, rfl⟩ := hit_append hes heq
      have hold := h.paced hq hc a m hm
      rw [sub_zero] at hold ⊢
      exact hrests m hold

theorem beats_of_eq (hp : t.player = s.player) (hps : ∀ q ∈ t.players, q ∈ s.players)
    (hmet : t.met = s.met) (hh : t.history = s.history ++ es) (hes : .attackHit q ∉ es) :
    Beats q s t := by
  refine ⟨fun _ hq => hmet ▸ hq, es, hh, hes, fun hq hc => .inr ⟨hps q hq, hp ▸ hc, fun b hr => ?_⟩⟩
  rw [hp]
  refine hr.mono rfl rfl rfl ?_ fun hhurried => hhurried.append es
  rw [ticks_append]
  have hnonneg := ticks_nonneg es
  omega

/-- The player `q'` becomes `p`. -/
theorem beats_setPlayer {p : Player F} (hp : ∀ q, t.player q = (s.setPlayer q' p).player q)
    (hps : ∀ q ∈ t.players, q ∈ s.players) (hmet : t.met = s.met) (hh : t.history = s.history ++ es)
    (hes : .attackHit q ∉ es) (hconnect : p.connect = true → (s.player q').connect = true)
    (hrests : q = q' → ∀ b, (s.player q').Rests (ticks b) (Hurried q' b) →
      p.Rests (ticks (b ++ es)) (Hurried q' (b ++ es))) :
    Beats q s t := by
  refine ⟨fun _ hq => hmet ▸ hq, es, hh, hes, fun hq hc => .inr ⟨hps q hq, ?_⟩⟩
  rw [hp, setPlayer_player] at hc
  rw [hp, setPlayer_player]
  split_ifs at hc ⊢ with he
  · rw [he]
    exact ⟨hconnect hc, hrests he⟩
  · refine ⟨hc, fun b hr => hr.mono rfl rfl rfl ?_ fun hhurried => hhurried.append es⟩
    rw [ticks_append]
    have hnonneg := ticks_nonneg es
    omega

/-- The same, with the animation and the stun where they were. -/
theorem beats_still {p : Player F} (hp : ∀ q, t.player q = (s.setPlayer q' p).player q)
    (hps : ∀ q ∈ t.players, q ∈ s.players) (hmet : t.met = s.met) (hh : t.history = s.history ++ es)
    (hes : .attackHit q ∉ es) (hconnect : p.connect = true → (s.player q').connect = true)
    (hstate : p.state = (s.player q').state) (hframe : p.animFrame = (s.player q').animFrame)
    (hstun : p.hitStunFrame = (s.player q').hitStunFrame) : Beats q s t := by
  refine beats_setPlayer hp hps hmet hh hes hconnect fun _ b hr =>
    hr.mono hstate hframe hstun ?_ fun hh => hh.append es
  rw [ticks_append]
  have hnonneg := ticks_nonneg es
  omega

variable [Machine F]

theorem takeDamage_stun {p p' : Player F} {damage : ℤ} {m : Monster F} (hstate : p.state ≠ .dead)
    (h : p.takeDamage damage m = .ok p') :
    p'.state = .dead ∨ p'.state = .stun ∧ p'.hitStunFrame = PLAYER_HIT_STUN_FRAME := by
  unfold Player.takeDamage at h
  dsimp only at h
  rw [if_neg hstate] at h
  split_ifs at h with hzero hstun
  · exact Or.inl (changeState_state h)
  · cases h
    exact Or.inr ⟨hstun, rfl⟩
  · refine Or.inr ⟨changeState_state h, ?_⟩
    rw [(changeState_eq h).2]

theorem Act.beats (h : Act s t) (q : ℕ) : Beats q s t := by
  have hone : ∀ {e : Event}, e ≠ .attackHit q → .attackHit q ∉ [e] :=
    fun he hmem => he (List.mem_singleton.mp hmem).symm
  have hnil : s.history = s.history ++ [] := (List.append_nil _).symm
  cases h with
  | fieldUpdate => exact beats_of_eq rfl (fun _ => id) rfl rfl (hone nofun)
  | adjust q' syncCnt targets hq =>
    exact beats_still (fun _ => rfl) (fun _ => id) rfl hnil List.not_mem_nil id rfl rfl rfl
  | hit q' id m hq hid hstate hm hdead hgrid =>
      exact beats_of_eq rfl (fun _ hq => hq) rfl rfl (hone nofun)
  | kill q' id m u hq hid hstate hm hdead hgrid hu =>
    obtain ⟨es, hh, hes, hp, hps⟩ := hu.strike
    have hmet : u.met = s.met := by cases hu <;> rfl
    have hes' : Event.attackHit q ∉ [.monsterState (some q') id (s.monster id).state m.state] ++
        es ++ [.killCountUpdate id q' (u.player q').accountNo (u.player q').nickname] := by
      simpa using hes q
    refine beats_of_eq hp (fun q hq => ?_) hmet ?_ hes'
    · exact (congrArg (q ∈ ·) hps).mp hq
    · change u.history ++ [_] = _
      rw [hh]
      change (s.history ++ [_]) ++ es ++ [_] = _
      rw [List.append_assoc, List.append_assoc, List.append_assoc]
  | aim q' hq hne =>
      exact beats_still (fun _ => rfl) (fun _ => id) rfl hnil List.not_mem_nil id rfl rfl rfl
  | cross q' hq hne =>
    obtain ⟨sent, hrest⟩ := cross_rest (s := s) q'
    refine beats_still (p := { s.player q' with currentSector := (s.player q').destSector })
      (fun q => ?_) (by rw [hrest]; exact fun _ => id) (by rw [hrest])
      (by rw [hrest, List.append_nil]) List.not_mem_nil id rfl rfl rfl
    rw [cross_player, setPlayer_player]
  | damaged q' m p hq hstate hp =>
    refine beats_setPlayer (fun _ => rfl) (fun _ => id) rfl rfl (hone nofun)
      (fun hc => ?_) fun _ b hr => ?_
    · rwa [takeDamage_eq hp] at hc
    · exact rests_hit (ticks_nonneg _) (takeDamage_stun hstate hp)
  | enter q' accountNo characterID pos nickname hq hid =>
    have hplayer : ∀ q, ((s.enter q' (entered q' accountNo characterID pos nickname)).sendSpawns q'
        (calcSector pos).around).player q =
          (s.setPlayer q' (entered q' accountNo characterID pos nickname)).player q := by
      intro q
      rw [sendSpawns_player]
      rfl
    refine ⟨fun _ hmet => List.mem_cons_of_mem _ hmet, [], hnil, List.not_mem_nil, fun hin hc => ?_⟩
    by_cases he : q = q'
    · exact .inl (he ▸ hq)
    · rw [hplayer, setPlayer_player, if_neg he] at hc
      rw [hplayer, setPlayer_player, if_neg he]
      refine .inr ⟨(List.mem_cons.mp hin).resolve_left he, hc, fun b hr => ?_⟩
      rwa [List.append_nil]
  | moveStart q' p packetPos direction hq hstate hsync hp hcon =>
    refine beats_setPlayer (fun _ => rfl) (fun _ => id) rfl rfl (hone nofun)
      (fun _ => hcon) fun _ b hr => ?_
    rw [ticks_concat (e := .moveStart q') nofun]
    refine hr.free (hstate.imp .inl And.left) (.inr (changeState_state hp))
      (fun hh => hh.append _) fun _ hlt => ?_
    exact ⟨b, [], rfl, hlt⟩
  | moveStop q' p packetPos direction hq hsync hp hcon =>
    refine beats_setPlayer (fun _ => rfl) (fun _ => id) rfl rfl (hone nofun)
      (fun _ => hcon) fun _ b hr => ?_
    rw [ticks_concat (e := .moveStop q') nofun]
    rcases hp with ⟨hidle, rfl⟩ | ⟨hmove, hp⟩
    · refine hr.free (.inl (.inl hidle)) (.inl ?_) (fun hh => hh.append _) fun ha =>
        (nomatch hidle.symm.trans ha)
      rw [place_attack, hidle]
    · exact hr.free (.inl (.inr hmove)) (.inl (changeState_state hp)) (fun hh => hh.append _)
        fun ha => (nomatch hmove.symm.trans ha)
  | attackReq q' p skillId hq hstate hp =>
    refine beats_setPlayer (p := { p with pendingAttackSkillId := skillId }) (fun _ => rfl)
      (fun _ => id) rfl rfl (hone nofun) (fun hc => ?_) fun _ b hr => ?_
    · rwa [show ({ p with pendingAttackSkillId := skillId } : Player F).connect =
        p.connect from rfl, (changeState_eq hp).2] at hc
    · have hattack : p.Rests (ticks b) (Hurried q' b) := by
        refine hr.attack (ticks_nonneg _) hstate (changeState_state hp) ?_
        rw [(changeState_eq hp).2]
      rw [ticks_concat (e := .attackAccepted q') nofun]
      exact hattack.mono rfl rfl rfl le_rfl fun hh => hh.append _
  | loot q' itemId hq hid hgrid hcell =>
    exact beats_still (p := (s.player q').addItem (s.item itemId)) (fun _ => rfl)
      (fun _ => id) rfl rfl (hone nofun) id rfl rfl rfl
  | save q' hq hconnect hpending =>
    exact beats_still (p := { s.player q' with savePending := true }) (fun _ => rfl)
      (fun _ => id) rfl rfl (hone nofun) id rfl rfl rfl
  | rehash players sectors monsters monsterSectors items itemSectors hp hs hm hms hi his =>
    exact beats_of_eq rfl (fun _ => hp.mem_iff.mp) rfl hnil List.not_mem_nil
  | _ => exact beats_of_eq rfl (fun _ => id) rfl hnil List.not_mem_nil

theorem MonsterAct.beats {id : ℤ} (h : MonsterAct id s t) (q : ℕ) : Beats q s t := by
  have hnil : s.history = s.history ++ [] := (List.append_nil _).symm
  cases h with
  | update m rands hid hm =>
    have hes : Event.attackHit q ∉ [.monsterState none id (s.monster id).state m.state] := by simp
    exact beats_of_eq rfl (fun _ hq => hq) rfl rfl hes
  | cross hid hstate hne => exact beats_of_eq rfl (fun _ hq => hq) rfl hnil List.not_mem_nil
  | proc ht => cases ht <;> exact beats_of_eq rfl (fun _ hq => hq) rfl hnil List.not_mem_nil

omit [Machine F] in
theorem ItemAct.beats {id : ℤ} (h : ItemAct id s t) (q : ℕ) : Beats q s t := by
  cases h with
  | update hid hlife =>
      exact beats_of_eq rfl (fun _ hq => hq) rfl (List.append_nil _).symm List.not_mem_nil
  | expire hid hlife hgrid =>
    have hes : Event.attackHit q ∉ [.expired id] := by simp
    exact beats_of_eq rfl (fun _ hq => hq) rfl rfl hes

omit [Machine F] in
theorem beats_disconnect (s : State F) (q q' : ℕ) : Beats q s (s.disconnect q') :=
  beats_still (p := { s.player q' with connect := false }) (fun _ => rfl)
    (fun _ => id) rfl (List.append_nil _).symm List.not_mem_nil nofun rfl rfl rfl

omit [Machine F] in
theorem beats_handBack (s : State F) (q q' : ℕ) : Beats q s (s.handBack q') :=
  have hes : Event.attackHit q ∉ [.playerDisconnected q'] := by simp
  beats_still (p := { s.player q' with savePending := false }) (fun _ => rfl)
    (fun _ hq => List.mem_of_mem_erase hq) rfl rfl hes id rfl rfl rfl

omit [Machine F] in
/-- A tick begins, and nobody has been updated in it. -/
theorem Paced.begin (h : Paced 0 q s) : Paced 1 q (s.record .fieldUpdate) := by
  intro a b heq
  have hes : Event.attackHit q ∉ [.fieldUpdate] := by simp
  obtain ⟨m, hm, rfl⟩ := hit_append hes heq
  have hone : ticks [.fieldUpdate] = 1 := rfl
  refine (h a m hm).mono rfl rfl rfl ?_ fun hh => hh.append _
  rw [ticks_append, hone]
  omega

/-- Only a session that has been registered comes to a hit. -/
theorem fresh_ticks (hs : Sound s ∧ (q ∉ s.met → .attackHit q ∉ s.history)) (h : Ticks s t) :
    q ∉ t.met → .attackHit q ∉ t.history := by
  have hbeats : ∀ {u v : State F}, (q ∉ u.met → .attackHit q ∉ u.history) →
      Beats q u v → q ∉ v.met →
      .attackHit q ∉ v.history := by
    intro u v hu hb hq
    obtain ⟨es, hh, hes, -⟩ := hb.beat
    rw [hh, List.mem_append, not_or]
    exact ⟨hu fun hmet => hq (hb.met q hmet), hes⟩
  refine (h.keeps (P := fun u => Sound u ∧ (q ∉ u.met → .attackHit q ∉ u.history))
    (fun hu ha => ⟨ha.sound hu.1, hbeats hu.2 (ha.beats q)⟩)
      (fun hu ha => ⟨ha.sound hu.1, hbeats hu.2 (ha.beats q)⟩)
    (fun hu ha => ⟨ha.sound hu.1, ?_⟩) hs).2
  cases ha with
  | update p hq hp hframe => exact hu.2
  | attackHit p hq hp hstate hframe =>
    intro hnew hmem
    rcases List.mem_append.mp hmem with hmem | hmem
    · exact hu.2 hnew hmem
    · obtain rfl : q = _ := by injection List.mem_singleton.mp hmem
      exact hnew (hu.1.players.met q hq)

theorem pace_fieldUpdate (hs : Sound s) (h : ∀ q, Pace q s) (he : fieldUpdate s = .ok t) (q : ℕ) :
    Pace q t := by
  unfold fieldUpdate at he
  obtain ⟨s1, h1, he⟩ := bind_ok he
  obtain ⟨s2, h2, he⟩ := bind_ok he
  obtain ⟨s3, h3, he⟩ := bind_ok he
  obtain ⟨s4, h4, he⟩ := bind_ok he
  have hbegin : Sound (s.record .fieldUpdate) := (Act.fieldUpdate : Act s _).sound hs
  obtain ⟨hticks, hplayers⟩ := ticks_updatePlayers h1
  have hpaced := pace_updatePlayers (s := s.record .fieldUpdate) hs.players.cells.nodup
    (fun q hq hc => ⟨((h q).cooled hq hc).append (by simp), ((h q).paced hq hc).begin⟩) h1
  have hone : Pace q s1 := by
    refine ⟨fresh_ticks ⟨hbegin, fun hq hmem => ?_⟩ hticks, fun hq hc => ?_, fun hq hc => ?_⟩
    · rcases List.mem_append.mp hmem with hmem | hmem
      · exact (h q).fresh hq hmem
      · cases List.mem_singleton.mp hmem
    · exact (hpaced q (hplayers ▸ hq) hc).1
    · exact (hpaced q (hplayers ▸ hq) hc).2
  have hcalm : Calms s1 s4 :=
    ((acts_updateSectors h2).1.calms.trans (calms_updateMonsters h3).1).trans
      (calms_updateMonsterSectors h4).1
  have hfour : Pace q s4 :=
    hcalm.keeps (P := Pace q) (fun hu ha => (ha.beats q).pace hu)
      (fun hu ha => (ha.beats q).pace hu) hone
  have hsound : Sound s4 := (Ticks.stays (hticks.trans hcalm.ticks)).sound hbegin
  have hitem :=
    itemActs_updateItems hsound.items.cells.nodup hsound.items.cells.nodup (fun _ h => h) he
  exact hitem.keeps (P := Pace q) (fun hu ha => (ha.beats q).pace hu) hfour

theorem pace_step {l : Step F} (hs : Sound s) (h : ∀ q, Pace q s) (he : step s l = some (.ok t))
    (q : ℕ) : Pace q t := by
  rcases step_cases he with hc | ⟨rfl, hu⟩ | ⟨-, hr⟩ | ⟨q', -, rfl⟩
  · exact hc.keeps (P := Pace q) (fun hu ha => (ha.beats q).pace hu)
      (fun hu ha => (ha.beats q).pace hu) (h q)
  · exact pace_fieldUpdate hs h hu q
  · unfold dbResultPacketProc at hr
    have htake : Beats q s { s with dbResQ := [] } :=
      beats_of_eq rfl (fun _ hq => hq) rfl (List.append_nil _).symm List.not_mem_nil
    refine foldlM_keeps (P := Pace q) (fun u v result _ hu hv => ?_) (htake.pace (h q)) hr
    rcases dbResult_cases hv with ⟨-, rfl | ⟨q', packet, -, -, rfl⟩⟩ | ⟨q', -, -, rfl⟩
    · exact hu
    · have hsend : Beats q u (u.sendPost q' packet) :=
        beats_of_eq rfl (fun _ hq => hq) rfl (List.append_nil _).symm List.not_mem_nil
      exact hsend.pace hu
    · exact (beats_handBack u q q').pace hu
  · exact (beats_disconnect s q q').pace (h q)

theorem Fresh.pace (h : Fresh s) (q : ℕ) : Pace q s := by
  obtain ⟨hplayers, -, -, hhistory⟩ := h.nobody
  refine ⟨fun _ => ?_, fun hq => ?_, fun hq => ?_⟩
  · rw [hhistory]
    exact List.not_mem_nil
  · rw [hplayers] at hq
    cases hq
  · rw [hplayers] at hq
    cases hq

/-- In every run, the hits of a connected player are that far apart. -/
theorem attack_cooldown (h : field.Reachable s) (hq : q ∈ s.players)
    (hconnect : (s.player q).connect = true) :
    Cooled q s.history :=
  (field_runs (P := fun u => ∀ q, Pace q u) (fun hs => hs.pace)
    (fun hs ha he => pace_step hs ha he) h q).cooled hq hconnect

end

/-- The three hits of session 1. -/
theorem attack_cooldown_killRun :
    ∃ s : State ℚ, s.history.count (.attackHit 1) = 3 ∧ Cooled 1 s.history := by
  have hrun : (field.exec oneMonster killRun).any (fun s =>
      s.history.count (.attackHit 1) = 3 ∧ 1 ∈ s.players ∧ (s.player 1).connect = true) = true := by
    decide +kernel
  obtain ⟨s, hs, hp⟩ := Option.any_eq_true _ _ |>.mp hrun
  obtain ⟨hcount, hq, hconnect⟩ := of_decide_eq_true hp
  exact ⟨s, hcount, attack_cooldown (.exec _ (.start oneMonster_init) hs) hq hconnect⟩

/-- Session 1 sets out and attacks again as soon as its attack has hit, and the second hit comes 8
ticks after the first. -/
theorem hits_close : ¬ ∀ (s : State ℚ) (q : ℕ), field.Reachable s → q ∈ s.players →
    (s.player q).connect = true →
    ∀ a b c, s.history = a ++ .attackHit q :: (b ++ .attackHit q :: c) →
      PLAYER_ATTACK_TOTAL_FRAME ≤ ticks b := by
  intro hall
  have hrun :
      (field.exec oneMonster ([.registerPlayer 1 7 11 ⟨0, 0⟩ []] ++ strike ++ strike)).any (fun s =>
      1 ∈ s.players ∧ (s.player 1).connect = true ∧
        ((s.history.drop 18).take 19).count .fieldUpdate = 8 ∧
        s.history = s.history.take 17 ++
          .attackHit 1 :: ((s.history.drop 18).take 19 ++ .attackHit 1 :: s.history.drop 38)) =
      true := by
    decide +kernel
  obtain ⟨s, hs, hp⟩ := Option.any_eq_true _ _ |>.mp hrun
  obtain ⟨hq, hconnect, hcount, hhits⟩ := of_decide_eq_true hp
  have hfar := hall s 1 (.exec _ (.start oneMonster_init) hs) hq hconnect _ _ _ hhits
  rw [ticks, hcount] at hfar
  cases hfar

end Field
end MyMMO
