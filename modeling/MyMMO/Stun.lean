/-
# When a stun ends

A hit stuns the player of `Contents/Player.cpp` and, when its packet comes, the `actors::Player` of
the client. Both count the stun down in their ticks: the server tests the counter before it
decrements it (`Player::update`), the client after (`actorUpdate`), so the server's stun lasts one
tick more. `stuns_agree_iff` says for which sequences of ticks and hits the two agree. What the
client's packets change of the server's player meanwhile is `Handles`
(`handled_fieldContentsPacketProc`).
-/
import MyMMO.Players

namespace MyMMO

open MyMMO.Field Machine Outcome

/-! ### The client's player -/

namespace Client

/-- `eActorState`. -/
inductive ActorState
  | idle
  | move
  | attack
  | stun
  | down
  | guard
  deriving DecidableEq, Repr

/-- `actors::Player`, without its place and its sprites. -/
structure Player where
  state : ActorState
  attackFrame : ℤ
  hp : ℤ
  hitTimer : ℤ
  deriving DecidableEq, Repr

namespace Player

/-- The constructor. -/
def new : Player where
  state := .idle
  attackFrame := 0
  hp := PLAYER_MAX_HP
  hitTimer := 0

def onDamaged (p : Player) (hp : ℤ) : Player :=
  if hp ≤ 0 then { p with hp, hitTimer := 0, state := .down }
  else { p with hp, hitTimer := PLAYER_HIT_STUN_FRAME, state := .stun }

/-- `bMove`: a key of a direction is down. -/
def inputFunction (p : Player) (bMove : Bool) : Player :=
  { p with state := if bMove then .move else .idle }

/-- `actorUpdate`. -/
def update (p : Player) (bMove : Bool) : Player :=
  match p.state with
  | .idle | .move => p.inputFunction bMove
  | .attack =>
    let p := { p with attackFrame := p.attackFrame + 1 }
    if PLAYER_ATTACK_TOTAL_FRAME = p.attackFrame then { p with state := .idle } else p
  | .stun =>
    let p := { p with hitTimer := p.hitTimer - 1 }
    if p.hitTimer = 0 then { p with state := .idle } else p
  | .down | .guard => p

/-- `inputFunction` sends a MOVE_START; `turned`: the direction is not the one before. -/
def sendsMoveStart (p : Player) (bMove turned : Bool) : Prop :=
  (p.state = .idle ∨ p.state = .move) ∧ bMove ∧ (p.state ≠ .move ∨ turned)

/-- `TryAttack`, and whether it lets an attack be sent. -/
def tryAttack (p : Player) : Player × Bool :=
  if p.hp ≤ 0 ∨ 0 < p.hitTimer then (p, false)
  else if p.state = .attack then (p, false)
  else ({ p with attackFrame := 0, state := .attack }, true)

end Player

end Client

namespace Stun

variable {F : Type}

/-- The player on the server and on its client. -/
structure Sides (F : Type) where
  server : Player F
  client : Client.Player

/-- A tick of both sides, a monster's hit with its packet, a click, and a packet of the client on
the server, which leaves the player as `p`. -/
inductive Event (F : Type)
  | tick (bMove turned : Bool)
  | hit (damage : ℤ) (attacker : Monster F)
  | click
  | packet (p : Player F)

namespace Event

def IsTick : Event F → Bool
  | .tick _ _ => true
  | _ => false

def IsHit : Event F → Bool
  | .hit _ _ => true
  | _ => false

end Event

/-- A hit is one that does not kill. -/
def step [Machine F] (s : Sides F) : Event F → Option (Sides F)
  | .tick bMove _ => (s.server.update).toOption.map fun server => ⟨server, s.client.update bMove⟩
  | .hit damage attacker =>
    if damage < s.server.hp then
      (s.server.takeDamage damage attacker).toOption.map fun server =>
        ⟨server, s.client.onDamaged server.hp⟩
    else none
  | .click => some ⟨s.server, s.client.tryAttack.1⟩
  | .packet p => if Handles s.server p then some ⟨p, s.client⟩ else none

/-- A connected player, alive and not stunned. -/
structure Fresh (s : Sides F) : Prop where
  connect : s.server.connect = true
  dead : s.server.state ≠ .dead
  stun : s.server.state ≠ .stun
  client : s.client.state ≠ .stun
  down : s.client.state ≠ .down
  hitTimer : s.client.hitTimer = 0

def sides [Machine F] : System (Sides F) (Event F) where
  init := Fresh
  next := step

/-! ### The ticks since the last hit -/

/-- The ticks since the last hit, if there was one. -/
def sinceHit : Option ℕ → Event F → Option ℕ
  | k, .tick _ _ => k.map Nat.succ
  | _, .hit _ _ => some 0
  | k, _ => k

/-- The server counts from PLAYER_HIT_STUN_FRAME to 0, and the stun ends in the tick after. -/
inductive ServerAt (p : Player F) (k : Option ℕ) : Prop
  | free : p.state ≠ .stun → (∀ n ∈ k, PLAYER_HIT_STUN_FRAME < n) → ServerAt p k
  | stunned (n : ℕ) : k = some n → n ≤ PLAYER_HIT_STUN_FRAME → p.state = .stun →
      p.hitStunFrame = PLAYER_HIT_STUN_FRAME - n → ServerAt p k

/-- The client counts from PLAYER_HIT_STUN_FRAME to 0, where the stun ends. -/
inductive ClientAt (p : Client.Player) (k : Option ℕ) : Prop
  | free : p.state ≠ .stun → p.hitTimer = 0 → (∀ n ∈ k, PLAYER_HIT_STUN_FRAME ≤ n) → ClientAt p k
  | stunned (n : ℕ) : k = some n → n < PLAYER_HIT_STUN_FRAME → p.state = .stun →
      p.hitTimer = PLAYER_HIT_STUN_FRAME - n → ClientAt p k

/-- Both sides, `k` ticks after the last hit. -/
structure At (s : Sides F) (k : Option ℕ) : Prop where
  connect : s.server.connect = true
  dead : s.server.state ≠ .dead
  down : s.client.state ≠ .down
  server : ServerAt s.server k
  client : ClientAt s.client k

theorem serverAt_stun {p : Player F} {k : Option ℕ} (h : ServerAt p k) :
    p.state = .stun ↔ ∃ n ∈ k, (n : ℤ) ≤ PLAYER_HIT_STUN_FRAME := by
  cases h with
  | free hstate hk => exact iff_of_false hstate fun ⟨n, hn, hle⟩ => absurd (hk n hn) (by omega)
  | stunned n hk hle hstate _ => exact iff_of_true hstate ⟨n, hk, hle⟩

theorem clientAt_stun {p : Client.Player} {k : Option ℕ} (h : ClientAt p k) :
    p.state = .stun ↔ ∃ n ∈ k, (n : ℤ) < PLAYER_HIT_STUN_FRAME := by
  cases h with
  | free hstate _ hk => exact iff_of_false hstate fun ⟨n, hn, hlt⟩ => absurd (hk n hn) (by omega)
  | stunned n hk hlt hstate _ => exact iff_of_true hstate ⟨n, hk, hlt⟩

section

variable [Machine F]

/-- A tick of the server. -/
theorem serverAt_update {p p' : Player F} {k : Option ℕ} (hc : p.connect = true)
    (hd : p.state ≠ .dead) (h : ServerAt p k) (hu : p.update = .ok p') :
    p'.connect = true ∧ p'.state ≠ .dead ∧ ServerAt p' (k.map Nat.succ) := by
  have hlater : (∀ n ∈ k, PLAYER_HIT_STUN_FRAME ≤ n) →
      ∀ n ∈ k.map Nat.succ, PLAYER_HIT_STUN_FRAME < n := by
    intro hk n hn
    obtain ⟨n, hn', rfl⟩ := Option.mem_map.mp hn
    have := hk n hn'
    rw [Nat.cast_succ]
    omega
  have hconnect : p'.connect = true := by rw [update_eq hu, ← hc]
  refine ⟨hconnect, ?_⟩
  unfold Player.update at hu
  rw [if_neg (show ¬p.connect = false by simp [hc])] at hu
  dsimp only at hu
  cases h with
  | free hstate hk =>
    have hk : ∀ n ∈ k.map Nat.succ, PLAYER_HIT_STUN_FRAME < n := hlater fun n hn => (hk n hn).le
    split at hu
    · next hs =>
      cases hu
      exact ⟨by simp [Player.moveUpdate, hs], .free (by simp [Player.moveUpdate, hs]) hk⟩
    · next hs =>
      split at hu
      · rw [(changeState_eq hu).2]
        exact ⟨by simp, .free (by simp) hk⟩
      · cases hu
        exact ⟨hd, .free hstate hk⟩
    · next hs => exact absurd hs hstate
    all_goals
      cases hu
      exact ⟨hd, .free hstate hk⟩
  | stunned n hk hle hstate hframe =>
    rw [hstate] at hu
    dsimp only at hu
    split at hu
    · next hpos =>
      cases hu
      refine ⟨by simp, .stunned (n + 1) (by rw [hk]; rfl) ?_ rfl ?_⟩
      · push_cast
        omega
      · push_cast
        omega
    · next hzero =>
      rw [(changeState_eq hu).2]
      refine ⟨by simp, .free (by simp) (hlater fun m hm => ?_)⟩
      obtain rfl : n = m := by rw [hk] at hm; exact Option.some.inj hm
      omega

/-- A hit that does not kill. -/
theorem serverAt_takeDamage {p p' : Player F} {damage : ℤ}
    {attacker : Monster F} (hc : p.connect = true) (hd : p.state ≠ .dead) (hlive : damage < p.hp)
    (ht : p.takeDamage damage attacker = .ok p') :
    p'.connect = true ∧ p'.state ≠ .dead ∧ 0 < p'.hp ∧ ServerAt p' (some 0) := by
  have hconnect : p'.connect = true := by rw [takeDamage_eq ht, ← hc]
  refine ⟨hconnect, ?_⟩
  have hhp : max (p.hp - damage) 0 ≠ 0 := by omega
  have hpos : 0 < max (p.hp - damage) 0 := by omega
  unfold Player.takeDamage at ht
  rw [if_neg hd] at ht
  dsimp only at ht
  rw [if_neg hhp] at ht
  split at ht
  · next hstun =>
    cases ht
    refine ⟨by simp [Player.resetAnimStart, hstun], hpos, .stunned 0 rfl (by decide) hstun ?_⟩
    simp [Player.resetAnimStart]
  · rw [(changeState_eq ht).2]
    exact ⟨by simp, hpos, .stunned 0 rfl (by decide) rfl (by simp)⟩

end

/-- A tick of the client. -/
theorem clientAt_update {p : Client.Player} {k : Option ℕ} (bMove : Bool) (hd : p.state ≠ .down)
    (h : ClientAt p k) :
    (p.update bMove).state ≠ .down ∧ ClientAt (p.update bMove) (k.map Nat.succ) := by
  have hlater : (∀ n ∈ k, PLAYER_HIT_STUN_FRAME ≤ n + 1) →
      ∀ n ∈ k.map Nat.succ, PLAYER_HIT_STUN_FRAME ≤ n := by
    intro hk n hn
    obtain ⟨n, hn', rfl⟩ := Option.mem_map.mp hn
    have := hk n hn'
    rw [Nat.cast_succ]
    omega
  unfold Client.Player.update
  cases h with
  | free hstate htimer hk =>
    have hk : ∀ n ∈ k.map Nat.succ, PLAYER_HIT_STUN_FRAME ≤ n := hlater fun n hn => by
      have := hk n hn
      omega
    split
    iterate 2
      · unfold Client.Player.inputFunction
        split_ifs <;> exact ⟨by simp, .free (by simp) htimer hk⟩
    · next hs =>
      dsimp only
      split_ifs
      · exact ⟨by simp, .free (by simp) htimer hk⟩
      · exact ⟨hd, .free hstate htimer hk⟩
    · next hs => exact absurd hs hstate
    all_goals exact ⟨hd, .free hstate htimer hk⟩
  | stunned n hk hlt hstate htimer =>
    rw [hstate]
    dsimp only
    split_ifs with hzero
    · refine ⟨by simp, .free (by simp) hzero (hlater fun m hm => ?_)⟩
      obtain rfl : n = m := by rw [hk] at hm; exact Option.some.inj hm
      omega
    · refine ⟨by simp, .stunned (n + 1) (by rw [hk]; rfl) ?_ rfl ?_⟩
      · push_cast
        omega
      · push_cast
        omega

theorem clientAt_onDamaged {p : Client.Player} {hp : ℤ} (h : 0 < hp) :
    (p.onDamaged hp).state ≠ .down ∧ ClientAt (p.onDamaged hp) (some 0) := by
  unfold Client.Player.onDamaged
  rw [if_neg (by omega)]
  exact ⟨by simp, .stunned 0 rfl (by decide) rfl (by simp)⟩

theorem clientAt_tryAttack {p : Client.Player} {k : Option ℕ} (hd : p.state ≠ .down)
    (h : ClientAt p k) :
    p.tryAttack.1.state ≠ .down ∧ ClientAt p.tryAttack.1 k := by
  unfold Client.Player.tryAttack
  split_ifs with hcan
  · exact ⟨hd, h⟩
  · exact ⟨hd, h⟩
  · cases h with
    | free hstate htimer hk => exact ⟨by simp, .free (by simp) htimer hk⟩
    | stunned n hk hlt hstate htimer =>
      -- a stunned client does not attack
      exact absurd (Or.inr (by omega)) hcan

theorem tryAttack_state {p : Client.Player} (h : p.tryAttack.2 = true) :
    p.tryAttack.1.state = .attack := by
  unfold Client.Player.tryAttack at h ⊢
  by_cases hcan : p.hp ≤ 0 ∨ 0 < p.hitTimer
  · rw [if_pos hcan] at h
    cases h
  · by_cases hattack : p.state = .attack
    · rw [if_neg hcan, if_pos hattack] at h
      cases h
    · rw [if_neg hcan, if_neg hattack]

theorem serverAt_handles {p p' : Player F} {k : Option ℕ} (h : ServerAt p k) (hp : Handles p p') :
    ServerAt p' k := by
  cases h with
  | free hstate hk => exact .free (fun h => hstate (hp.stun.mp h)) hk
  | stunned n hk hle hstate hframe =>
      exact .stunned n hk hle (hp.stun.mpr hstate) (by rw [hp.hitStunFrame, hframe])

/-- One event. -/
theorem at_step [Machine F] {s t : Sides F} {k : Option ℕ} (h : At s k) (e : Event F)
    (hstep : step s e = some t) :
    At t (sinceHit k e) := by
  cases e with
  | tick bMove turned =>
    obtain ⟨p, hp, rfl⟩ := Option.map_eq_some_iff.mp hstep
    obtain ⟨hc, hd, hserver⟩ := serverAt_update h.connect h.dead h.server (toOption_ok hp)
    obtain ⟨hdown, hclient⟩ := clientAt_update bMove h.down h.client
    exact ⟨hc, hd, hdown, hserver, hclient⟩
  | hit damage attacker =>
    unfold step at hstep
    dsimp only at hstep
    split_ifs at hstep with hlive
    obtain ⟨p, hp, rfl⟩ := Option.map_eq_some_iff.mp hstep
    obtain ⟨hc, hd, hpos, hserver⟩ := serverAt_takeDamage h.connect h.dead hlive (toOption_ok hp)
    obtain ⟨hdown, hclient⟩ := clientAt_onDamaged (p := s.client) hpos
    exact ⟨hc, hd, hdown, hserver, hclient⟩
  | click =>
    cases hstep
    obtain ⟨hdown, hclient⟩ := clientAt_tryAttack h.down h.client
    exact ⟨h.connect, h.dead, hdown, h.server, hclient⟩
  | packet p =>
    unfold step at hstep
    dsimp only at hstep
    split_ifs at hstep with hp
    cases hstep
    exact ⟨by rw [hp.connect, h.connect], fun hd => h.dead (hp.dead.mp hd), h.down,
      serverAt_handles h.server hp, h.client⟩

theorem at_fresh {s : Sides F} (h : Fresh s) : At s none :=
  ⟨h.connect, h.dead, h.down, .free h.stun (by simp), .free h.client h.hitTimer (by simp)⟩

/-- A whole sequence of events. -/
theorem at_exec [Machine F] {s t : Sides F} {k : Option ℕ} (h : At s k) (evs : List (Event F))
    (hrun : sides.exec s evs = some t) : At t (evs.foldl sinceHit k) := by
  induction evs generalizing s k with
  | nil =>
    cases hrun
    exact h
  | cons e evs ih =>
    obtain ⟨u, hu, hrun⟩ := Option.bind_eq_some_iff.mp hrun
    exact ih (at_step h e hu) hrun

/-! ### When the two sides agree -/

/-- The client sends a MOVE_START or an attack. -/
def Sends (p : Client.Player) : Event F → Prop
  | .tick bMove turned => p.sendsMoveStart bMove turned
  | .click => p.tryAttack.2 = true
  | _ => False

/-- After every tick of the run `evs` both sides are stunned or neither is, and the server is not
when the client sends a MOVE_START or an attack. -/
def Agrees [Machine F] (s : Sides F) (evs : List (Event F)) : Prop :=
  ∀ pre e, pre ++ [e] <+: evs → ∀ u t, sides.exec s pre = some u → step u e = some t →
    (e.IsTick → (t.server.state = .stun ↔ t.client.state = .stun)) ∧
      (Sends u.client e → t.server.state ≠ .stun)

/-- After no hit come PLAYER_HIT_STUN_FRAME ticks without another hit. -/
def Restunned (evs : List (Event F)) : Prop :=
  ∀ pre damage attacker mid post, evs = pre ++ .hit damage attacker :: (mid ++ post) →
    (∀ e ∈ mid, e.IsHit = false) →
    (mid.countP Event.IsTick : ℤ) < PLAYER_HIT_STUN_FRAME

theorem foldl_sinceHit {evs : List (Event F)} (h : ∀ e ∈ evs, e.IsHit = false) (k : ℕ) :
    evs.foldl sinceHit (some k) = some (k + evs.countP Event.IsTick) := by
  induction evs generalizing k with
  | nil => rfl
  | cons e evs ih =>
    have ih := fun k => ih (fun e he => h e (List.mem_cons_of_mem _ he)) k
    cases e with
    | tick bMove turned =>
      rw [List.foldl_cons, List.countP_cons_of_pos (by rfl)]
      exact (ih (k + 1)).trans (congrArg some (by omega))
    | hit damage attacker => exact absurd (h _ List.mem_cons_self) (by simp [Event.IsHit])
    | click => exact ih k
    | packet p => exact ih k

theorem exists_hit {evs : List (Event F)} {k : ℕ} (h : evs.foldl sinceHit none = some k) :
    ∃ pre damage attacker mid, evs = pre ++ .hit damage attacker :: mid ∧
      (∀ e ∈ mid, e.IsHit = false) ∧
      mid.countP Event.IsTick = k := by
  induction evs using List.reverseRecOn generalizing k with
  | nil => cases h
  | append_singleton evs e ih =>
    rw [List.foldl_append] at h
    -- an event that is no hit comes after the last one
    have hnext : e.IsHit = false → ∀ k', evs.foldl sinceHit none = some k' →
        k' + (if e.IsTick then 1 else 0) = k →
        ∃ pre damage attacker mid, evs ++ [e] = pre ++ .hit damage attacker :: mid ∧
          (∀ e ∈ mid, e.IsHit = false) ∧
          mid.countP Event.IsTick = k := by
      intro he k' hk' hk
      obtain ⟨pre, damage, attacker, mid, hevs, hmid, hcount⟩ := ih hk'
      refine ⟨pre, damage, attacker, mid ++ [e], by simp [hevs], fun e' he' => ?_, ?_⟩
      · rcases List.mem_append.mp he' with he' | he'
        · exact hmid e' he'
        · rw [List.mem_singleton.mp he']
          exact he
      · rw [List.countP_append, hcount, List.countP_singleton]
        exact hk
    cases e with
    | tick bMove turned =>
      obtain ⟨k', hk', hk⟩ := Option.map_eq_some_iff.mp h
      exact hnext rfl k' hk' hk
    | hit damage attacker =>
      cases h
      exact ⟨evs, damage, attacker, [], rfl, by simp, rfl⟩
    | click => exact hnext rfl k h rfl
    | packet p => exact hnext rfl k h rfl

/-- The element at which a count is reached. -/
theorem exists_countP_eq {α : Type} {p : α → Bool} {l : List α} {n : ℕ} (h : n < l.countP p) :
    ∃ l₁ a l₂, l = l₁ ++ a :: l₂ ∧ p a = true ∧ l₁.countP p = n := by
  induction l generalizing n with
  | nil => simp at h
  | cons a l ih =>
    by_cases ha : p a = true
    · rw [List.countP_cons_of_pos ha] at h
      cases n with
      | zero => exact ⟨[], a, l, rfl, ha, rfl⟩
      | succ n =>
        obtain ⟨l₁, b, l₂, rfl, hb, hl⟩ := ih (show n < l.countP p by omega)
        exact ⟨a :: l₁, b, l₂, rfl, hb, by rw [List.countP_cons_of_pos ha, hl]⟩
    · rw [List.countP_cons_of_neg ha] at h
      obtain ⟨l₁, b, l₂, rfl, hb, hl⟩ := ih h
      exact ⟨a :: l₁, b, l₂, rfl, hb, by rw [List.countP_cons_of_neg ha, hl]⟩

variable [Machine F]

theorem exec_prefix {s t : Sides F} {pre post : List (Event F)}
    (h : sides.exec s (pre ++ post) = some t) :
    ∃ u, sides.exec s pre = some u ∧ sides.exec u post = some t := by
  rw [System.exec_append] at h
  exact Option.bind_eq_some_iff.mp h

/-- PLAYER_HIT_STUN_FRAME ticks after a hit the stun has ended on the client only. -/
theorem not_agrees_of_ticks
    {s t : Sides F} {pre mid post : List (Event F)} {damage : ℤ} {attacker : Monster F}
    (h : Fresh s) (hrun : sides.exec s (pre ++ .hit damage attacker :: (mid ++ post)) = some t)
    (hmid : ∀ e ∈ mid, e.IsHit = false) (hlong : PLAYER_HIT_STUN_FRAME ≤ mid.countP Event.IsTick) :
    ¬Agrees s (pre ++ .hit damage attacker :: (mid ++ post)) := by
  intro hagree
  obtain ⟨l, e, rest, rfl, he, hl⟩ := exists_countP_eq (show 29 < mid.countP Event.IsTick by
    unfold PLAYER_HIT_STUN_FRAME at hlong
    omega)
  have hevs : pre ++ .hit damage attacker :: (l ++ e :: rest ++ post) =
      pre ++ .hit damage attacker :: l ++ [e] ++ (rest ++ post) := by simp
  rw [hevs] at hrun hagree
  obtain ⟨t', ht', -⟩ := exec_prefix hrun
  obtain ⟨u, hu, hlast⟩ := exec_prefix ht'
  obtain ⟨_, hstep, hnil⟩ := Option.bind_eq_some_iff.mp hlast
  cases hnil
  have hk : (pre ++ .hit damage attacker :: l ++ [e]).foldl sinceHit none = some 30 := by
    have hle : ∀ e' ∈ l ++ [e], e'.IsHit = false := fun e' he' => hmid e' (by
      rcases List.mem_append.mp he' with he' | he'
      · exact List.mem_append_left _ he'
      · rw [List.mem_singleton.mp he']
        exact List.mem_append_right _ List.mem_cons_self)
    rw [List.append_assoc, List.cons_append, List.foldl_append, List.foldl_cons]
    refine (foldl_sinceHit hle 0).trans ?_
    rw [List.countP_append, hl, List.countP_singleton, if_pos he]
  have hat := at_exec (at_fresh h) _ ht'
  rw [hk] at hat
  have hserver : t'.server.state = .stun := (serverAt_stun hat.server).mpr ⟨30, rfl, by decide⟩
  have hclient := (clientAt_stun hat.client).mp
    (((hagree _ e (List.prefix_append _ _) u t' hu hstep).1 he).mp hserver)
  obtain ⟨n, hn, hlt⟩ := hclient
  cases hn
  exact absurd hlt (by decide)

/-- Before that the two sides agree after every event. -/
theorem agrees_of_restunned {s : Sides F} {evs : List (Event F)} (h : Fresh s)
    (hshort : Restunned evs) :
    Agrees s evs := by
  intro pre e hpre u t hu hstep
  obtain ⟨post, rfl⟩ := hpre
  have hat := at_step (at_exec (at_fresh h) _ hu) e hstep
  have hk : ∀ n ∈ sinceHit (pre.foldl sinceHit none) e, (n : ℤ) < PLAYER_HIT_STUN_FRAME := by
    intro n hn
    have hfold : (pre ++ [e]).foldl sinceHit none = some n := by
      rw [List.foldl_append]
      exact hn
    obtain ⟨pre', damage, attacker, mid, hevs, hmid, rfl⟩ := exists_hit hfold
    exact hshort pre' damage attacker mid post (by rw [hevs]; simp) hmid
  have hboth : t.server.state = .stun ↔ t.client.state = .stun := by
    rw [serverAt_stun hat.server, clientAt_stun hat.client]
    constructor
    · rintro ⟨n, hn, -⟩
      exact ⟨n, hn, hk n hn⟩
    · rintro ⟨n, hn, hlt⟩
      exact ⟨n, hn, hlt.le⟩
  refine ⟨fun _ => hboth, fun hsends hserver => ?_⟩
  -- the client that sends does not end the event stunned
  have hclient := hboth.mp hserver
  cases e with
  | tick bMove turned =>
    obtain ⟨p, -, rfl⟩ := Option.map_eq_some_iff.mp hstep
    unfold Client.Player.update Client.Player.inputFunction at hclient
    rcases hsends.1 with hs | hs
    all_goals
      rw [hs] at hclient
      dsimp only at hclient
      split_ifs at hclient
  | click =>
    cases hstep
    cases hclient.symm.trans (tryAttack_state hsends)
  | hit damage attacker => exact hsends
  | packet p => exact hsends

/-- Server and client agree exactly in the runs in which no stun comes to its end. -/
theorem stuns_agree_iff {s t : Sides F} {evs : List (Event F)} (h : Fresh s)
    (hrun : sides.exec s evs = some t) :
    Agrees s evs ↔ Restunned evs := by
  constructor
  · intro hagree pre damage attacker mid post hevs hmid
    subst hevs
    by_contra hlong
    exact not_agrees_of_ticks h hrun hmid (not_lt.mp hlong) hagree
  · exact agrees_of_restunned h

/-- A player and its client after the login. -/
def loggedIn : Sides ℚ := ⟨.login 1 0 0 ⟨100, 100⟩ [], .new⟩

/-- A hit, then 30 ticks. -/
def oneHit : List (Event ℚ) :=
  .hit MONSTER_ATTACK_DAMAGE (.new 1 ⟨110, 100⟩ 0) :: List.replicate 30 (.tick false false)

theorem stuns_agree_iff_oneHit : Agrees loggedIn oneHit ↔ Restunned oneHit := by
  have hrun : (sides.exec loggedIn oneHit).isSome := by decide +kernel
  obtain ⟨t, ht⟩ := Option.isSome_iff_exists.mp hrun
  exact stuns_agree_iff ⟨rfl, by decide, by decide, by decide, by decide, rfl⟩ ht

/-- After the 30 ticks the client attacks, and the server still holds the player stunned. -/
theorem oneHit_not_agrees : Fresh loggedIn ∧
    ((sides.exec loggedIn oneHit).map fun t => (t.server.state, t.client.state,
      t.client.tryAttack.2)) = some (.stun, .idle, true) ∧ ¬Agrees loggedIn oneHit := by
  have hfresh : Fresh loggedIn := ⟨rfl, by decide, by decide, by decide, by decide, rfl⟩
  have hrun : ((sides.exec loggedIn oneHit).map fun t => (t.server.state, t.client.state,
      t.client.tryAttack.2)) = some (.stun, .idle, true) := by decide +kernel
  refine ⟨hfresh, hrun, ?_⟩
  obtain ⟨t, ht, -⟩ := Option.map_eq_some_iff.mp hrun
  have hsplit : oneHit = [] ++ .hit MONSTER_ATTACK_DAMAGE (.new 1 ⟨110, 100⟩ 0) ::
      (List.replicate 30 (.tick false false) ++ []) := by
    rw [List.append_nil]
    rfl
  rw [hsplit] at ht ⊢
  exact not_agrees_of_ticks hfresh ht
    (fun e he => by rw [List.eq_of_mem_replicate he]; rfl) (by decide)

end Stun

end MyMMO
