/-
# Dead reckoning

A bot that walks and the server that walks its player say to each other where a walk begins and
where it ends; in between each of them counts its own frames. A session of the field and its bot,
with the requests that are on their way (`link`).

As long as nobody hits the player and every request arrives in time (`InTime`), the server never
finds the bot out of sync, and what is on its way leads from where the server has it to where it is
(`never_out_of_sync`): when all has arrived, the player stands exactly where its bot stands, or
walks from where its bot set out, in its direction.
-/
import MyMMO.Bot
import MyMMO.Exact
import MyMMO.Reports
import MyMMO.Lib.InFlight

namespace MyMMO
namespace Reckoning

open Machine Outcome Wire InFlight
open MyMMO.Field (Position Player State directionVector Direction.Valid Rewrites SamePlayers)

/-- What the requests of a client say of it: where it stands, or where a walk has begun. -/
inductive Track (F : Type)
  | rests (pos : Position F)
  | walks (start : Position F) (direction : ℤ)

section

variable {F : Type} [ExactMachine F]

/-- `n` frames from `start`. -/
def along (start : Position F) (direction n : ℤ) : Position F :=
  let d : F × F := directionVector direction
  .clamp (start.x + d.1 * lit 4.5 * ofInt n) (start.y + d.2 * lit 4.5 * ofInt n)

/-- A request, with the frames of the walk that it ends. -/
inductive Leads : Track F → Request F × ℤ → Track F → Prop
  | start {pos : Position F} {characterID direction n : ℤ} {speed : F} (hpos : pos.InWorld)
      (hdirection : Direction.Valid direction) :
      Leads (.rests pos) (.moveStart characterID pos direction speed, n) (.walks pos direction)
  | stop {start : Position F} {direction characterID facing n : ℤ} :
      Leads (.walks start direction) (.moveStop characterID (along start direction n) facing, n)
        (.rests (along start direction n))
  | attack {pos : Position F} {skillId n : ℤ} {targets : List ℤ} :
      Leads (.rests pos) (.playerAttackReq skillId targets, n) (.rests pos)
  | loot {pos : Position F} {itemUniqueId n : ℤ} :
      Leads (.rests pos) (.lootReq itemUniqueId, n) (.rests pos)

/-! ### Frames that differ -/

/-- `pos` is `n` frames from `start`. -/
def At (start : Position F) (direction n : ℤ) (pos : Position F) : Prop :=
  let d : F × F := directionVector direction
  real pos.x = Descent.keep (real start.x + real d.1 * 4.5 * n) 0
      (SECTOR_WORLD_W * SECTOR_COL_CNT : ℤ) ∧
    real pos.y = Descent.keep (real start.y + real d.2 * 4.5 * n) 0
      (SECTOR_WORLD_H * SECTOR_ROW_CNT : ℤ)

theorem real_clamp (v : F) (n : ℤ) :
    real (MyMMO.clamp v (lit 0) (ofInt n)) = Descent.keep (real v) 0 n := by
  unfold MyMMO.clamp Descent.keep
  simp only [ExactMachine.lt_iff, ExactMachine.real_lit, ExactMachine.real_ofInt, Rat.cast_zero]
  split_ifs
  · rw [ExactMachine.real_lit, Rat.cast_zero]
  · rw [ExactMachine.real_ofInt]
  · rfl

theorem real_width : ((SECTOR_WORLD_W * SECTOR_COL_CNT : ℤ) : ℝ) = 6400 := by
  norm_num [SECTOR_WORLD_W, SECTOR_COL_CNT]

theorem real_height : ((SECTOR_WORLD_H * SECTOR_ROW_CNT : ℤ) : ℝ) = 4700 := by
  norm_num [SECTOR_WORLD_H, SECTOR_ROW_CNT]

theorem inWorld_iff {p : Position F} : p.InWorld ↔
    (0 ≤ real p.x ∧ real p.x ≤ 6400) ∧ 0 ≤ real p.y ∧ real p.y ≤ 4700 := by
  unfold Field.Position.InWorld
  simp only [ExactMachine.le_iff, ExactMachine.real_lit, ExactMachine.real_ofInt, real_width,
    real_height, Rat.cast_zero]
  tauto

theorem inWorld_clamp (x y : F) : (Position.clamp x y).InWorld := by
  rw [inWorld_iff]
  unfold Field.Position.clamp
  dsimp only
  rw [real_clamp, real_clamp, real_width, real_height]
  exact ⟨Descent.keep_mem (by norm_num), Descent.keep_mem (by norm_num)⟩

theorem at_along (start : Position F) (direction n : ℤ) :
    At start direction n (along start direction n) := by
  have hlit : real (lit 4.5 : F) = 4.5 := by
    rw [ExactMachine.real_lit]
    norm_num
  unfold At along Field.Position.clamp
  dsimp only
  rw [real_clamp, real_clamp]
  simp only [ExactMachine.real_add, ExactMachine.real_mul, ExactMachine.real_ofInt, hlit, and_self]

theorem at_start {start : Position F} (h : start.InWorld) (direction : ℤ) :
    At start direction 0 start := by
  obtain ⟨⟨hx, hx'⟩, hy, hy'⟩ := inWorld_iff.mp h
  unfold At
  dsimp only
  rw [real_width, real_height, Int.cast_zero, mul_zero, add_zero, mul_zero, add_zero]
  exact ⟨(Descent.keep_of_mem hx hx').symm, (Descent.keep_of_mem hy hy').symm⟩

/-- A direction is a unit vector, but for the rounding of its table. -/
theorem sq_direction {direction : ℤ} (h : Direction.Valid direction) :
    real (directionVector direction : F × F).1 ^ 2 + real
      (directionVector direction : F × F).2 ^ 2 ≤ 1.01 := by
  have hmem := Field.directionVector_mem (F := F) h
  generalize (directionVector direction : F × F) = v at hmem ⊢
  unfold Field.kDirectionVectorTable at hmem
  simp only [List.mem_cons, List.not_mem_nil, or_false] at hmem
  rcases hmem with rfl | rfl | rfl | rfl | rfl | rfl | rfl |
      rfl <;> simp only [ExactMachine.real_lit] <;> norm_num

/-- What 22 frames make of a walk is within `syncDistance`. -/
theorem near_at {start p p' : Position F} {direction n n' : ℤ}
    (hdirection : Direction.Valid direction) (hp : At start direction n p)
    (hp' : At start direction n' p') (h : |n - n'| ≤ 22) :
    lt Field.syncDistance (p.dist p') = false := by
  have hlimit : real (Field.syncDistance : F) = 100 := by
    show real (lit 100 : F) = 100
    rw [ExactMachine.real_lit]
    norm_num
  have hsq : ((n : ℝ) - n') ^ 2 ≤ 22 ^ 2 := by
    have habs : |(n : ℝ) - n'| ≤ 22 := by exact_mod_cast h
    exact sq_le_sq' (abs_le.mp habs).1 (abs_le.mp habs).2
  have hunit := sq_direction (F := F) hdirection
  obtain ⟨hx, hy⟩ := hp
  obtain ⟨hx', hy'⟩ := hp'
  rw [real_width] at hx hx'
  rw [real_height] at hy hy'
  have haxis : ∀ (v x d hi : ℝ), 0 ≤ hi →
      v = Descent.keep (x + d * 4.5 * n) 0 hi - Descent.keep (x + d * 4.5 * n') 0 hi →
      v ^ 2 ≤ d ^ 2 * (4.5 ^ 2 * ((n : ℝ) - n') ^ 2) := by
    intro v x d hi hhi hv
    have hle := Grid.abs_keep_sub_le hhi (x + d * 4.5 * n) (x + d * 4.5 * n')
    rw [← hv] at hle
    have hsub : x + d * 4.5 * n - (x + d * 4.5 * n') = d * 4.5 * (n - n') := by ring
    rw [hsub] at hle
    calc v ^ 2 = |v| ^ 2 := (sq_abs v).symm
      _ ≤ |d * 4.5 * ((n : ℝ) - n')| ^ 2 := pow_le_pow_left₀ (abs_nonneg v) hle 2
      _ = d ^ 2 * (4.5 ^ 2 * ((n : ℝ) - n') ^ 2) := by rw [sq_abs]; ring
  have hdx := haxis (real p.x - real p'.x) _ _ 6400 (by norm_num) (by rw [hx, hx'])
  have hdy := haxis (real p.y - real p'.y) _ _ 4700 (by norm_num) (by rw [hy, hy'])
  rw [← Bool.not_eq_true, ExactMachine.lt_iff, hlimit, not_lt]
  have hroot := ExactMachine.sqrt_le ((p.x - p'.x) * (p.x - p'.x) + (p.y - p'.y) * (p.y - p'.y))
  rw [ExactMachine.real_add, ExactMachine.real_mul, ExactMachine.real_mul, ExactMachine.real_sub,
    ExactMachine.real_sub] at hroot
  refine hroot.trans (Real.sqrt_le_iff.mpr ⟨by norm_num, ?_⟩)
  calc (real p.x - real p'.x) * (real p.x - real p'.x) + (real p.y - real p'.y) *
    (real p.y - real p'.y) = (real p.x - real p'.x) ^ 2 + (real p.y - real p'.y) ^ 2 := by ring
    _ ≤ _ := add_le_add hdx hdy
    _ = (real (directionVector direction : F × F).1 ^ 2 + real
      (directionVector direction : F × F).2 ^ 2) * (4.5 ^ 2 * ((n : ℝ) - n') ^ 2) := by ring
    _ ≤ 1.01 * (4.5 ^ 2 * 22 ^ 2) := by
      refine mul_le_mul hunit ?_ (by positivity) (by norm_num)
      exact mul_le_mul_of_nonneg_left hsq (by norm_num)
    _ ≤ 100 ^ 2 := by norm_num

/-! ### The bot -/

variable {s t u : Bot.Session F} {k : ℤ}

def request : Bot.Mark F → Option (Request F)
  | .sent r => some r
  | .hit => none
  | .lootRes => none

def requests (marks : List (Bot.Mark F)) : List (Request F) := marks.filterMap request

/-- What a bot has said of itself. -/
def track (s : Bot.Session F) : Track F :=
  if s.bMove then .walks s.startMovePos s.direction else .rests s.pos

/-- A bot that is in the world, and walks when it says so. -/
structure Upright (s : Bot.Session F) : Prop where
  still : Bot.Still s.state → s.bMove = false
  move : s.state = .move → s.bMove = true
  pos : s.pos.InWorld
  direction : Direction.Valid s.direction

/-- From `s` to `t` it sends requests, in the `k`th frame of its walk, and they say where it goes.
-/
def Says (k : ℤ) (s t : Bot.Session F) : Prop :=
  ∃ marks, t.log = s.log ++ marks ∧
    Follows Leads (track s) ((requests marks).map fun r => (r, k)) (track t)

theorem Says.trans (h : Says k s t) (h' : Says k t u) : Says k s u := by
  obtain ⟨marks, hlog, htold⟩ := h
  obtain ⟨marks', hlog', htold'⟩ := h'
  refine ⟨marks ++ marks', by rw [hlog', hlog, List.append_assoc], ?_⟩
  unfold requests at *
  rw [List.filterMap_append, List.map_append]
  exact htold.append htold'

/-- It sends nothing. -/
theorem Says.nothing (hlog : t.log = s.log) (htrack : track t = track s) : Says k s t := by
  refine ⟨[], by rw [hlog, List.append_nil], ?_⟩
  rw [htrack]
  exact .nil _

theorem Says.one {r : Request F} (hlog : t.log = s.log ++ [.sent r])
    (h : Leads (track s) (r, k) (track t)) : Says k s t :=
  ⟨[.sent r], hlog, .one h⟩

omit [ExactMachine F] in
theorem enqueueSend_eq [FloatBytes F] {r : Request F} (h : s.enqueueSend r = .ok t) :
    ∃ sendSize, t = { s with sendSize, log := s.log ++ [.sent r] } := by
  unfold Bot.Session.enqueueSend at h
  obtain ⟨-, -, h⟩ := bind_ok h
  cases h
  exact ⟨_, rfl⟩

omit [ExactMachine F] in
theorem bot_changeState_eq {mode : Bot.PlayerState} (h : s.changeState mode = .ok t) :
    t = { s with state := mode, animFrame := 0, startMovePos := s.pos } := by
  unfold Bot.Session.changeState at h
  split at h
  · cases h
  · cases h
    rfl

omit [ExactMachine F] in
/-- A bot that rests. -/
theorem track_rests (h : s.bMove = false) : track s = .rests s.pos := by
  unfold track
  rw [h]
  rfl

omit [ExactMachine F] in
/-- It rests where it rested. -/
theorem track_same (h : s.bMove = false) (h' : t.bMove = false) (hpos : t.pos = s.pos) :
    track t = track s := by
  rw [track_rests h, track_rests h', hpos]

omit [ExactMachine F] in
theorem track_walks (h : s.bMove = true) : track s = .walks s.startMovePos s.direction := by
  unfold track
  rw [h]
  rfl

/-- It rests, and is in another state. -/
theorem says_changeState {mode : Bot.PlayerState} (h : s.changeState mode = .ok t)
    (hrests : s.bMove = false) :
    Says k s t ∧ t.bMove = false ∧ t.state = mode ∧ t.pos = s.pos ∧ t.direction = s.direction := by
  obtain rfl := bot_changeState_eq h
  exact ⟨.nothing rfl (track_same hrests hrests rfl), hrests, rfl, rfl, rfl⟩

/-- What a part of a frame comes to. -/
def Walks (k : ℤ) (s t : Bot.Session F) : Prop := Says k s t ∧ Upright t

theorem Upright.of_rests (h : Upright s) (hrests : t.bMove = false) (hstate : t.state ≠ .move)
    (hpos : t.pos = s.pos) (hdirection : t.direction = s.direction) : Upright t :=
  ⟨fun _ => hrests, fun hmove => absurd hmove hstate, hpos ▸ h.pos, hdirection ▸ h.direction⟩

theorem Upright.of_walks (h : Upright s) (hwalks : t.bMove = true) (hstate : ¬ Bot.Still t.state)
    (hpos : t.pos = s.pos) (hdirection : Direction.Valid t.direction) : Upright t :=
  ⟨fun hstill => absurd hstill hstate, fun _ => hwalks, hpos ▸ h.pos, hdirection⟩

theorem walks_walk (h : Upright s) : Walks k s s.walk ∧
    (s.walk.bMove = true → s.walk.pos = along s.walk.startMovePos s.walk.direction s.animFrame) ∧
    s.walk.state = s.state := by
  unfold Bot.Session.walk
  by_cases hwalks : s.bMove = true
  · rw [if_pos hwalks]
    refine ⟨⟨.nothing rfl ?_, ⟨h.still, h.move, inWorld_clamp _ _, h.direction⟩⟩, fun _ => rfl, rfl⟩
    unfold track
    dsimp only
    rw [hwalks]
    rfl
  · rw [if_neg hwalks]
    exact ⟨⟨.nothing rfl rfl, h⟩, fun hyes => absurd hyes hwalks, rfl⟩

variable [FloatBytes F]

/-- Where it sets out, and whereto. -/
theorem setOut_eq {dir : ℤ} (h : s.postMoveStart dir = .ok t) : ∃ sendSize, t = { s with
    sendSize, log := s.log ++ [.sent (.moveStart s.characterId s.pos dir Bot.kBotSpeed)],
      startMovePos := s.pos, direction := dir
    animFrame := 0 } := by
  unfold Bot.Session.postMoveStart at h
  obtain ⟨s1, h1, h⟩ := bind_ok h
  obtain ⟨sendSize, rfl⟩ := enqueueSend_eq h1
  cases h
  exact ⟨sendSize, rfl⟩

theorem says_setOut {dir : ℤ} (h : s.postMoveStart dir = .ok t)
    (hrests : s.bMove = false) (hpos : s.pos.InWorld) (hdir : Direction.Valid dir) :
    Says k s (t.traceMove true) ∧ (t.traceMove true).state = s.state ∧
      (t.traceMove true).pos = s.pos ∧ (t.traceMove true).direction = dir := by
  obtain ⟨sendSize, rfl⟩ := setOut_eq h
  refine ⟨.one rfl ?_, rfl, rfl, rfl⟩
  rw [track_rests hrests, track_walks rfl]
  exact .start hpos hdir

/-- It says where it stops. -/
theorem says_postMoveStop (h : s.postMoveStop = .ok t) (hwalks : s.bMove = true)
    (hpos : s.pos = along s.startMovePos s.direction k) :
        Says k s (t.traceMove false) ∧ (t.traceMove false).state = s.state ∧
      (t.traceMove false).pos = s.pos ∧ (t.traceMove false).direction = s.direction := by
  unfold Bot.Session.postMoveStop at h
  obtain ⟨s1, h1, h⟩ := bind_ok h
  obtain ⟨sendSize, rfl⟩ := enqueueSend_eq h1
  cases h
  refine ⟨.one rfl ?_, rfl, rfl, rfl⟩
  rw [track_walks hwalks, track_rests rfl]
  show Leads _ (.moveStop _ s.pos _, k) (.rests s.pos)
  rw [hpos]
  exact .stop

theorem says_stopMove (h : s.stopMove = .ok t)
    (hpos : s.bMove = true → s.pos = along s.startMovePos s.direction k) :
    Says k s t ∧ t.bMove = false ∧ t.state = s.state ∧ t.pos = s.pos ∧
      t.direction = s.direction := by
  unfold Bot.Session.stopMove at h
  by_cases hwalks : s.bMove = true
  · rw [if_pos hwalks] at h
    obtain ⟨s1, h1, h⟩ := bind_ok h
    cases h
    obtain ⟨htold, hstate, hsame, hdirection⟩ := says_postMoveStop h1 hwalks (hpos hwalks)
    exact ⟨htold, rfl, hstate, hsame, hdirection⟩
  · rw [if_neg hwalks] at h
    cases h
    exact ⟨.nothing rfl rfl, Bool.not_eq_true _ ▸ hwalks, rfl, rfl, rfl⟩

/-- It asks for something where it stands. -/
theorem says_ask {r : Request F} (h : s.enqueueSend r = .ok t) (hrests : s.bMove = false)
    (hr : ∀ pos, Leads (.rests pos) (r, k) (.rests pos)) :
    Says k s t ∧ t.bMove = false ∧ t.state = s.state ∧ t.pos = s.pos ∧
      t.direction = s.direction := by
  obtain ⟨sendSize, ht⟩ := enqueueSend_eq h
  have hrest : t.bMove = false := by
    rw [ht]
    exact hrests
  have hpos : t.pos = s.pos := by rw [ht]
  refine ⟨.one (by rw [ht]) ?_, hrest, by rw [ht], hpos, by rw [ht]⟩
  rw [track_rests hrests, track_rests hrest, hpos]
  exact hr _

theorem valid_rand (n : ℕ) : Direction.Valid (n % 8 : ℤ) :=
  ⟨Int.emod_nonneg _ (by norm_num), Int.emod_lt_of_pos _ (by norm_num)⟩

theorem walks_idleUpdate {time : ℕ} {rands : Rands} (h : Upright s) (hs : s.state = .idle)
    (he : s.idleUpdate time rands = .ok t) : Walks k s t := by
  unfold Bot.Session.idleUpdate at he
  have hrests := h.still (.inl hs)
  generalize hforget : (if s.monsterKillTime ≠ 0 ∧ (s.monsterKillTime + 10000) % 2 ^ 32 ≤ time then
    { s with targetID := -1, monsterKillTime := 0 } else s) = s0 at he
  -- only what it has in mind is different
  obtain ⟨targetID, monsterKillTime, hs0⟩ :
      ∃ targetID monsterKillTime, s0 = { s with targetID, monsterKillTime } := by
    rw [← hforget]
    split_ifs
    · exact ⟨_, _, rfl⟩
    · exact ⟨s.targetID, s.monsterKillTime, rfl⟩
  have hrests0 : s0.bMove = false := by
    rw [hs0]
    exact hrests
  have htold0 : Says k s s0 := by
    rw [hs0]
    exact .nothing rfl rfl
  have hup0 : Upright s0 := by
    rw [hs0]
    exact ⟨h.still, h.move, h.pos, h.direction⟩
  dsimp only at he
  have hturn : ∀ {mode : Bot.PlayerState}, mode ≠ .move → s0.changeState mode = .ok t →
      Walks k s t := by
    intro mode hmode hc
    obtain ⟨htold, hrest, hstate, hpos, hdirection⟩ := says_changeState (k := k) hc hrests0
    exact ⟨htold0.trans htold, hup0.of_rests hrest (hstate ▸ hmode) hpos hdirection⟩
  split at he
  · exact hturn (by decide) he
  · split at he
    · exact hturn (by decide) he
    · split at he
      · obtain ⟨s1, h1, he⟩ := bind_ok he
        obtain ⟨s2, h2, he⟩ := bind_ok he
        cases he
        obtain ⟨sendSize, rfl⟩ := setOut_eq h1
        obtain rfl := bot_changeState_eq h2
        have hdir := valid_rand rands.rand.2.rand.1
        refine ⟨htold0.trans (.one rfl ?_),
          hup0.of_walks rfl (by simp [Bot.Still, Bot.Session.traceMove]) rfl hdir⟩
        rw [track_rests hrests0, track_walks rfl]
        exact .start hup0.pos hdir
      · cases he
        exact ⟨htold0, hup0⟩

theorem walks_moveUpdate {rands : Rands} (h : Upright s) (hs : s.state = .move)
    (hpos : s.bMove = true → s.pos = along s.startMovePos s.direction k)
    (he : s.moveUpdate rands = .ok t) : Walks k s t := by
  have hwalks := h.move hs
  unfold Bot.Session.moveUpdate at he
  dsimp only at he
  split at he
  · obtain ⟨s1, h1, he⟩ := bind_ok he
    obtain ⟨s2, h2, he⟩ := bind_ok he
    cases he
    obtain ⟨htold, hstate, hsame, hdirection⟩ := says_postMoveStop h1 hwalks (hpos hwalks)
    obtain rfl := bot_changeState_eq h2
    exact ⟨htold.trans (.nothing rfl (track_same rfl rfl rfl)),
      h.of_rests rfl (by simp [Bot.Session.traceMove]) hsame hdirection⟩
  · split at he
    · obtain ⟨s1, h1, he⟩ := bind_ok he
      obtain ⟨s2, h2, he⟩ := bind_ok he
      cases he
      obtain ⟨htold, hstate, hsame, hdirection⟩ := says_postMoveStop h1 hwalks (hpos hwalks)
      have hdir := valid_rand rands.rand.2.rand.1
      obtain ⟨htold', hstate', hsame', hdirection'⟩ :=
        says_setOut (k := k) h2 rfl (hsame ▸ h.pos) hdir
      refine ⟨htold.trans htold', h.of_walks rfl ?_ (hsame'.trans hsame) (hdirection' ▸ hdir)⟩
      rw [hstate', hstate, hs]
      simp [Bot.Still]
    · cases he
      exact ⟨.nothing rfl rfl, h⟩

/-- It stops, if it walks, and sets out again. -/
theorem walks_turn {dir : ℤ} {s1 s2 : Bot.Session F} (h : Upright s)
    (hs : s.state = .chase ∨ s.state = .root)
    (hpos : s.bMove = true → s.pos = along s.startMovePos s.direction k)
    (hdir : Direction.Valid dir) (h1 : s.stopMove = .ok s1) (h2 : s1.postMoveStart dir = .ok s2) :
    Walks k s (s2.traceMove true) := by
  obtain ⟨htold, hrest, hstate, hsame, hdirection⟩ := says_stopMove h1 hpos
  obtain ⟨htold', hstate', hsame', hdirection'⟩ :=
    says_setOut (k := k) h2 hrest (hsame ▸ h.pos) hdir
  refine ⟨htold.trans htold', h.of_walks rfl ?_ (hsame'.trans hsame) (hdirection' ▸ hdir)⟩
  rw [hstate', hstate]
  rcases hs with hs | hs <;> simp [hs, Bot.Still]

theorem walks_chaseUpdate {time : ℕ} (h : Upright s) (hs : s.state = .chase)
    (hpos : s.bMove = true → s.pos = along s.startMovePos s.direction k)
    (he : s.chaseUpdate time = .ok t) : Walks k s t := by
  have hdir := Field.getDirectionTo_valid s.pos s.targetPos
  unfold Bot.Session.chaseUpdate at he
  dsimp only at he
  split at he
  · obtain ⟨s1, h1, he⟩ := bind_ok he
    obtain ⟨s2, h2, he⟩ := bind_ok he
    obtain ⟨htold, hrest, hstate, hsame, -⟩ := says_stopMove h1 hpos
    have haim : Says k s1 (s1.takeAim (Field.getDirectionTo s.pos s.targetPos) time) :=
      .nothing rfl (track_same hrest hrest rfl)
    obtain ⟨hask, hrest', hstate', hsame', hdirection'⟩ :=
      says_ask (k := k) h2 hrest fun _ => .attack
    obtain ⟨hturn, hrest'', hstate'', hsame'', hdirection''⟩ := says_changeState (k := k) he hrest'
    refine ⟨htold.trans (haim.trans (hask.trans hturn)), ⟨fun _ => hrest'', ?_, ?_, ?_⟩⟩
    · rw [hstate'']
      simp
    · rw [hsame'', hsame']
      exact hsame ▸ h.pos
    · rw [hdirection'', hdirection']
      exact hdir
  · split at he
    · obtain ⟨s1, h1, he⟩ := bind_ok he
      obtain ⟨s2, h2, he⟩ := bind_ok he
      cases he
      have hup : Upright { s with animFrame := 0 } := ⟨h.still, h.move, h.pos, h.direction⟩
      obtain ⟨htold, hup'⟩ :=
        walks_turn (s := { s with animFrame := 0 }) hup (.inl hs) hpos hdir h1 h2
      exact ⟨(Says.nothing rfl rfl).trans htold, hup'⟩
    · cases he
      exact ⟨.nothing rfl rfl, h⟩

theorem walks_rootUpdate (h : Upright s) (hs : s.state = .root)
    (hpos : s.bMove = true → s.pos = along s.startMovePos s.direction k)
    (he : s.rootUpdate = .ok t) : Walks k s t := by
  have hdir := Field.getDirectionTo_valid s.pos s.targetItemPos
  unfold Bot.Session.rootUpdate at he
  dsimp only at he
  split at he
  · obtain ⟨s1, h1, he⟩ := bind_ok he
    obtain ⟨htold, hrest, hstate, hsame, hdirection⟩ := says_stopMove h1 hpos
    obtain ⟨hturn, hrest', hstate', hsame', hdirection'⟩ := says_changeState (k := k) he hrest
    exact ⟨htold.trans hturn,
      h.of_rests hrest' (by simp [hstate']) (hsame'.trans hsame) (hdirection'.trans hdirection)⟩
  · split at he
    · cases he
      exact ⟨.nothing rfl rfl, h⟩
    · split at he
      · split at he
        · obtain ⟨s1, h1, he⟩ := bind_ok he
          obtain ⟨s2, h2, he⟩ := bind_ok he
          cases he
          exact walks_turn h (.inr hs) hpos hdir h1 h2
        · cases he
          exact ⟨.nothing rfl rfl, h⟩
      · obtain ⟨s1, h1, he⟩ := bind_ok he
        obtain ⟨s2, h2, he⟩ := bind_ok he
        cases he
        obtain ⟨htold, hrest, hstate, hsame, hdirection⟩ := says_stopMove h1 hpos
        obtain ⟨hask, hrest', hstate', hsame', hdirection'⟩ :=
          says_ask (k := k) h2 hrest fun _ => .loot
        refine ⟨htold.trans (hask.trans (.nothing rfl rfl)),
          h.of_rests hrest' ?_ (hsame'.trans hsame) (hdirection'.trans hdirection)⟩
        show s2.state ≠ .move
        rw [hstate', hstate, hs]
        decide

omit [FloatBytes F] in
/-- A packet that does not hit it. -/
theorem walks_handle {time : ℕ} {packet : Field.Packet F} (h : Upright s)
    (hno : ∀ hp pos direction monsterID,
      packet ≠ .characterDamaged s.characterId hp pos direction monsterID)
    (he : s.handle time (.field packet) = .ok t) : Walks k s t := by
  have hsame : ∀ {u : Bot.Session F}, u.log = s.log → track u = track s → Upright u → Walks k s u :=
    fun hlog htrack hup => ⟨.nothing hlog htrack, hup⟩
  unfold Bot.Session.handle at he
  split at he
  iterate 2 next hp => cases hp
  · cases he
    unfold Bot.Session.handleMonsterMoveStop Bot.Session.chaseTarget
    split
    iterate 3
      split_ifs
      · exact hsame rfl rfl ⟨h.still, h.move, h.pos, h.direction⟩
      · exact hsame rfl rfl ⟨h.still, h.move, h.pos, h.direction⟩
      · exact hsame rfl rfl h
    exact hsame rfl rfl h
  · unfold Bot.Session.handleMonsterDamaged Bot.Session.monsterChaseInit at he
    split at he
    · obtain ⟨s1, h1, he⟩ := bind_ok he
      obtain ⟨-, -, h1⟩ := bind_ok h1
      cases h1
      cases he
      exact hsame rfl rfl ⟨h.still, h.move, h.pos, h.direction⟩
    · cases he
      exact hsame rfl rfl h
  · next characterID hp pos direction monsterID heq =>
    unfold Bot.Session.handleCharecterDamaged at he
    split at he
    · cases he
      exact hsame rfl rfl h
    · next hme =>
      cases heq
      exact absurd (by rw [not_not.mp hme]) (hno hp pos direction monsterID)
  · cases he
    unfold Bot.Session.handleItemSpawn Bot.Session.chaseItem
    split_ifs
    · exact hsame rfl rfl ⟨h.still, h.move, h.pos, h.direction⟩
    · exact hsame rfl rfl h
  · unfold Bot.Session.handleLootRes Bot.Session.itemChaseInit at he
    obtain ⟨-, -, he⟩ := bind_ok he
    cases he
    exact ⟨⟨[.lootRes], rfl, .nil _⟩, ⟨h.still, h.move, h.pos, h.direction⟩⟩
  · cases he
    exact hsame rfl rfl h

/-- In a frame a bot sends what says where it goes. -/
theorem walks_update {time : ℕ} {rands : Rands} (h : Upright s) (he : s.update time rands = .ok t) :
    Walks s.animFrame s t := by
  unfold Bot.Session.update at he
  obtain ⟨s1, h1, he⟩ := bind_ok he
  cases he
  obtain ⟨⟨htold, hup⟩, hpos, hstate⟩ := walks_walk (k := s.animFrame) h
  have hwalks : Walks s.animFrame s.walk s1 := by
    unfold Bot.Session.stateUpdate at h1
    split at h1
    · next hs => exact walks_idleUpdate hup hs h1
    · next hs => exact walks_moveUpdate hup hs hpos h1
    · next hs => exact walks_chaseUpdate hup hs hpos h1
    · next hs =>
      have hrest := hup.still (.inr (.inl hs))
      unfold Bot.Session.attackUpdate at h1
      split at h1
      · obtain ⟨hturn, hrest', hstate', hsame', hdirection'⟩ :=
          says_changeState (k := s.animFrame) h1 hrest
        exact ⟨hturn, hup.of_rests hrest' (by simp [hstate']) hsame' hdirection'⟩
      · cases h1
        exact ⟨.nothing rfl rfl, hup⟩
    · next hs =>
      have hrest := hup.still (.inr (.inr (.inl hs)))
      unfold Bot.Session.stunUpdate at h1
      split at h1
      · obtain ⟨hturn, hrest', hstate', hsame', hdirection'⟩ :=
          says_changeState (k := s.animFrame) h1 hrest
        exact ⟨hturn, hup.of_rests hrest' (by simp [hstate']) hsame' hdirection'⟩
      · cases h1
        exact ⟨.nothing rfl rfl, hup⟩
    · next hs => exact walks_rootUpdate hup hs hpos h1
    · cases h1
      exact ⟨.nothing rfl rfl, ⟨hup.still, hup.move, hup.pos, hup.direction⟩⟩
  exact ⟨(htold.trans hwalks.1).trans (.nothing rfl rfl),
    ⟨hwalks.2.still, hwalks.2.move, hwalks.2.pos, hwalks.2.direction⟩⟩

end

/-! ### The server -/

section

variable {F : Type} [ExactMachine F] {a b : Track F} {p p' : Player F} {s t : State F} {q : ℕ}

/-- The server has the player where `a` says. -/
def On (p : Player F) : Track F → Prop
  | .rests pos => p.pos = pos ∧ (p.state = .idle ∨ p.state = .attack)
  | .walks start direction => p.state = .move ∧ p.startMovePos = start ∧ p.direction = direction ∧
    Direction.Valid direction ∧
      At start direction p.animFrame p.pos

/-- And has never found it out of sync. -/
structure Fit (a : Track F) (p : Player F) : Prop where
  on : On p a
  speed : p.speed = lit 4.5
  syncCnt : p.syncCnt = 0

theorem Fit.of_eq (h : Fit a p) (hpos : p'.pos = p.pos) (hstart : p'.startMovePos = p.startMovePos)
    (hdirection : p'.direction = p.direction) (hframe : p'.animFrame = p.animFrame)
    (hstate : p'.state = p.state) (hspeed : p'.speed = p.speed) (hcnt : p'.syncCnt = p.syncCnt) :
    Fit a p' := by
  refine ⟨?_, hspeed.trans h.speed, hcnt.trans h.syncCnt⟩
  have hon := h.on
  cases a with
  | rests pos =>
    unfold On at *
    rw [hpos, hstate]
    exact hon
  | walks start direction =>
    unfold On at *
    rw [hpos, hstart, hdirection, hframe, hstate]
    exact hon

/-- A tick. -/
theorem Fit.update (h : Fit a p) (hp : p.update = .ok p') : Fit a p' := by
  have hspeed : p'.speed = p.speed := by rw [Field.update_eq hp]
  have hcnt : p'.syncCnt = p.syncCnt := by rw [Field.update_eq hp]
  refine ⟨?_, hspeed.trans h.speed, hcnt.trans h.syncCnt⟩
  have hon := h.on
  unfold Field.Player.update at hp
  by_cases hconnect : p.connect = false
  · rw [if_pos hconnect] at hp
    cases hp
    exact hon
  · rw [if_neg hconnect] at hp
    dsimp only at hp
    cases a with
    | rests pos =>
      obtain ⟨hpos, hs | hs⟩ := hon
      · rw [hs] at hp
        cases hp
        exact ⟨hpos, .inl rfl⟩
      · rw [hs] at hp
        dsimp only at hp
        split at hp
        · obtain ⟨-, rfl⟩ := Field.changeState_eq hp
          exact ⟨hpos, .inl rfl⟩
        · cases hp
          exact ⟨hpos, .inr rfl⟩
    | walks start direction =>
      obtain ⟨hs, rfl, rfl, hvalid, -⟩ := hon
      rw [hs] at hp
      cases hp
      have hat := at_along p.startMovePos p.direction (p.animFrame + 1)
      unfold along at hat
      rw [← h.speed] at hat
      exact ⟨rfl, rfl, rfl, hvalid, hat⟩

/-- It has been hit. -/
def Hit (p : Player F) : Prop := p.state = .stun ∨ p.state = .dead

theorem hit_takeDamage {damage : ℤ} {m : Field.Monster F} (hp : p.takeDamage damage m = .ok p') :
    Hit p' := by
  unfold Field.Player.takeDamage at hp
  dsimp only at hp
  split_ifs at hp with hdead hkill hstun
  · cases hp
    exact .inr hdead
  · exact .inr (by rw [(Field.changeState_eq hp).2])
  · cases hp
    exact .inl hstun
  · exact .inl (by rw [(Field.changeState_eq hp).2])

omit [ExactMachine F] in
/-- What holds of a player, and of whoever is rewritten, holds of it. -/
theorem Rewrites.keeps {P : Player F → Prop} {q' : ℕ} (hst : Rewrites q' p s t) (h : P (s.player q))
    (hp : P (s.player q') → P p) : P (t.player q) := by
  by_cases he : q = q'
  · subst he
    rw [hst.self]
    exact hp h
  · rw [hst.of_ne he]
    exact h

theorem Fit.fieldUpdate (h : Fit a (s.player q)) (he : Field.fieldUpdate s = .ok t) :
    Fit a (t.player q) ∨ Hit (t.player q) := by
  unfold Field.fieldUpdate at he
  obtain ⟨s1, h1, he⟩ := bind_ok he
  obtain ⟨s2, h2, he⟩ := bind_ok he
  obtain ⟨s3, h3, he⟩ := bind_ok he
  obtain ⟨s4, h4, he⟩ := bind_ok he
  have hstart : Fit a ((s.record .fieldUpdate).player q) := h
  have hs1 : Fit a (s1.player q) :=
    foldlM_keeps (P := fun u : State F => Fit a (u.player q)) (fun u v q' _ hu hv => by
    obtain ⟨p, targets, destSector, hp, hst⟩ := Field.updatePlayer_self hv
    exact Rewrites.keeps hst hu fun hq' =>
      (hq'.update hp).of_eq rfl rfl rfl rfl rfl rfl rfl) hstart h1
  have hs2 : Fit a (s2.player q) :=
    foldlM_keeps (P := fun u : State F => Fit a (u.player q)) (fun u v q' _ hu hv =>
    Rewrites.keeps (Field.updateSector_player hv) hu fun hq' =>
      hq'.of_eq rfl rfl rfl rfl rfl rfl rfl) hs1 h2
  have hs3 : Fit a (s3.player q) ∨ Hit (s3.player q) :=
    foldlM_keeps (P := fun u : State F => Fit a (u.player q) ∨ Hit (u.player q))
      (fun u v id _ hu hv => by
      rcases Field.updateMonster_player hv with hsame | ⟨m, rands, q', p, -, -, -, -, hp, hst⟩
      · rw [hsame.player]
        exact hu
      · exact Rewrites.keeps (P := fun p => Fit a p ∨ Hit p) hst hu fun _ =>
          .inr (hit_takeDamage hp)) (.inl hs2) h3
  have hs4 : s4.player = s3.player :=
    foldlM_keeps (P := fun u : State F => u.player = s3.player) (fun u v id _ hu hv =>
    (Field.updateMonsterSector_player hv).player.trans hu) rfl h4
  have ht : t.player = s4.player :=
    foldlM_keeps (P := fun u : State F => u.player = s4.player) (fun u v id _ hu hv =>
    (Field.updateItem_player hv).player.trans hu) rfl he
  rw [ht, hs4]
  exact hs3

/-- A step of the field that is neither a tick nor a packet of `q`. -/
theorem player_step {l : Field.Step F} (hupdate : l ≠ .fieldUpdate)
    (hpacket : ∀ msg, l ≠ .contentsPacket q msg) (hmet : q ∈ s.met)
    (he : Field.step s l = some (.ok t)) :
    ∃ connect savePending, t.player q = { s.player q with connect, savePending } := by
  have hsame : t.player q = s.player q →
      ∃ connect savePending, t.player q = { s.player q with connect, savePending } :=
    fun h => ⟨(s.player q).connect, (s.player q).savePending, h⟩
  cases l with
  | fieldUpdate => exact absurd rfl hupdate
  | contentsPacket q' msg =>
    unfold Field.step at he
    dsimp only at he
    split_ifs at he
    obtain ⟨p, -, hst⟩ := Field.handled_fieldContentsPacketProc (Option.some.inj he)
    have hne : q ≠ q' := by
      rintro rfl
      exact hpacket msg rfl
    exact hsame (hst.of_ne hne)
  | registerPlayer q' accountNo characterID pos nickname =>
    unfold Field.step at he
    dsimp only at he
    split_ifs at he with hnew
    have hne : q ≠ q' := by
      rintro rfl
      exact hnew.1 hmet
    have henters := Field.handleRegisterPlayer_player (Option.some.inj he)
    exact hsame (by rw [henters.player, Function.update_of_ne hne])
  | monsterProc =>
    have hloop := foldlM_keeps (P := fun u : State F => u.player = s.player ∧
      u.monsters = s.monsters) ?_ ⟨rfl, rfl⟩ (Option.some.inj he)
    · exact hsame (by rw [hloop.1])
    · intro u v id hid hu hv
      rw [← hu.2] at hid
      exact ⟨(Field.procMonster_player hid hv).player.trans hu.1,
        (Field.calms_procMonster hid hv).2.trans hu.2⟩
  | checkDisConnected =>
    refine foldlM_keeps (P := fun u : State F => ∃ connect savePending, u.player q = { s.player
      q with connect, savePending }) (fun u v q' _ hu hv => ?_) ⟨_, _, rfl⟩ (Option.some.inj he)
    rcases Field.saveDisconnected_cases hv with rfl | ⟨-, -, rfl⟩
    · exact hu
    · obtain ⟨connect, savePending, hu⟩ := hu
      by_cases hq : q = q'
      · subst hq
        exact ⟨connect, true, (Function.update_self _ _ _).trans (by rw [hu])⟩
      · exact ⟨connect, savePending, (Function.update_of_ne hq _ _).trans hu⟩
  | dbResults =>
    have hstart : ∃ connect savePending, ({ s with dbResQ := [] } : State F).player q =
      { s.player q with connect, savePending } :=
      ⟨_, _, rfl⟩
    refine foldlM_keeps (P := fun u : State F => ∃ connect savePending, u.player q = { s.player
      q with connect, savePending }) (fun u v result _ hu hv => ?_) hstart (Option.some.inj he)
    rcases Field.dbResult_cases hv with ⟨-, rfl | ⟨q', packet, -, -, rfl⟩⟩ | ⟨q', -, -, rfl⟩
    · exact hu
    · exact hu
    · obtain ⟨connect, savePending, hu⟩ := hu
      by_cases hq : q = q'
      · subst hq
        exact ⟨connect, false, (Function.update_self _ _ _).trans (by rw [hu])⟩
      · exact ⟨connect, savePending, (Function.update_of_ne hq _ _).trans hu⟩
  | onRelease q' =>
    cases he
    by_cases hq : q = q'
    · subst hq
      exact ⟨false, (s.player q).savePending, Function.update_self _ _ _⟩
    · exact hsame (Function.update_of_ne hq _ _)
  | _ =>
    have hshuffles := Field.shuffles_step rfl he
    exact hsame (by rw [hshuffles.player])

theorem met_fieldUpdate (he : Field.fieldUpdate s = .ok t) : t.met = s.met := by
  unfold Field.fieldUpdate at he
  obtain ⟨s1, h1, he⟩ := bind_ok he
  obtain ⟨s2, h2, he⟩ := bind_ok he
  obtain ⟨s3, h3, he⟩ := bind_ok he
  obtain ⟨s4, h4, he⟩ := bind_ok he
  have hs1 : s1.met = s.met :=
    foldlM_keeps (P := fun u : State F => u.met = s.met) (fun u v q' _ hu hv => by
    obtain ⟨p, targets, destSector, -, hst⟩ := Field.updatePlayer_self hv
    exact hst.met.trans hu) (s := s.record .fieldUpdate) rfl h1
  have hs2 : s2.met = s1.met :=
    foldlM_keeps (P := fun u : State F => u.met = s1.met) (fun u v q' _ hu hv =>
    (Field.updateSector_player hv).met.trans hu) rfl h2
  have hs3 : s3.met = s2.met :=
    foldlM_keeps (P := fun u : State F => u.met = s2.met) (fun u v id _ hu hv => by
    rcases Field.updateMonster_player hv with hsame | ⟨m, rands, q', p, -, -, -, -, -, hst⟩
    · exact hsame.met.trans hu
    · exact hst.met.trans hu) rfl h3
  have hs4 : s4.met = s3.met :=
    foldlM_keeps (P := fun u : State F => u.met = s3.met) (fun u v id _ hu hv =>
    (Field.updateMonsterSector_player hv).met.trans hu) rfl h4
  have ht : t.met = s4.met :=
    foldlM_keeps (P := fun u : State F => u.met = s4.met) (fun u v id _ hu hv =>
    (Field.updateItem_player hv).met.trans hu) rfl he
  rw [ht, hs4, hs3, hs2, hs1]

/-- A step of the field that is no packet of `q` leaves `q` where `a` says, or hits it. -/
theorem Fit.step {l : Field.Step F} (h : Fit a (s.player q)) (hmet : q ∈ s.met)
    (hpacket : ∀ msg, l ≠ .contentsPacket q msg) (he : Field.step s l = some (.ok t)) :
    (Fit a (t.player q) ∨ Hit (t.player q)) ∧ q ∈ t.met := by
  by_cases hupdate : l = .fieldUpdate
  · subst hupdate
    have hft : Field.fieldUpdate s = .ok t := Option.some.inj he
    exact ⟨h.fieldUpdate hft, met_fieldUpdate hft ▸ hmet⟩
  · obtain ⟨connect, savePending, hplayer⟩ := player_step hupdate hpacket hmet he
    refine ⟨.inl ?_, (Field.unmoved_step hupdate hpacket (.inl hmet) he).met hmet⟩
    rw [hplayer]
    exact h.of_eq rfl rfl rfl rfl rfl rfl rfl

/-! ### A request arrives -/

/-- A walk ends after about as many ticks as frames, and an attack is over for the server too. -/
def InTime (p : Player F) : Request F × ℤ → Prop
  | (.moveStart _ _ _ _, _) => p.state = .attack →
    Field.PLAYER_ATTACK_TOTAL_FRAME - p.animFrame < Field.ALLOW_DELAY_FRAME
  | (.moveStop _ _ _, n) => |p.animFrame - n| ≤ 22
  | _ => True

theorem syncCheck_near {packetPos : Position F} (hcnt : p.syncCnt = 0)
    (hnear : lt Field.syncDistance (p.pos.dist packetPos) = false) :
    p.syncCheck packetPos = p := by
  unfold Field.Player.syncCheck
  dsimp only
  rw [hnear, hcnt]
  rfl

theorem outOfSync_near {packetPos : Position F}
    (hnear : lt Field.syncDistance (p.pos.dist packetPos) = false) :
    p.outOfSync packetPos = false := by
  unfold Field.Player.outOfSync
  rw [hnear]
  rfl

/-- A MOVE_START from where the player stands. -/
theorem fit_start {pos : Position F} {direction : ℤ} {speed : F} (h : Fit (.rests pos) (s.player q))
    (hpos : pos.InWorld) (hdirection : Direction.Valid direction)
    (hstart : Field.handleMoveStart.start s q pos.x pos.y direction speed (s.player q) = .ok t) :
    Fit (.walks pos direction) (t.player q) ∧ t.met = s.met := by
  obtain ⟨hp, hstate⟩ := h.on
  have hnear : lt Field.syncDistance ((s.player q).pos.dist pos) = false := by
    rw [hp]
    exact near_at hdirection (at_start hpos direction) (at_start hpos direction) (by norm_num)
  unfold Field.handleMoveStart.start at hstart
  dsimp only at hstart
  obtain ⟨-, -, hstart⟩ := bind_ok hstart
  obtain ⟨p, hc, hstart⟩ := bind_ok hstart
  obtain ⟨-, -, hstart⟩ := bind_ok hstart
  obtain ⟨near, -, hstart⟩ := bind_ok hstart
  obtain ⟨-, rfl⟩ := Field.changeState_eq hc
  cases hstart
  refine ⟨?_, rfl⟩
  show Fit _ (Function.update s.player q _ q)
  rw [Function.update_self]
  unfold Field.Player.place
  rw [syncCheck_near h.syncCnt hnear]
  exact ⟨⟨rfl, rfl, rfl, hdirection, at_start hpos direction⟩, h.speed, h.syncCnt⟩

/-- A request of `q` takes the server where it says. -/
theorem fit_act {r : Request F} {n : ℤ} (h : Fit a (s.player q))
    (hleads : Leads a (r, n) b) (htime : InTime (s.player q) (r, n)) (he : act s q r = .ok t) :
    Fit b (t.player q) ∧ t.met = s.met := by
  cases hleads with
  | start hpos hdirection =>
    obtain ⟨-, hstate⟩ := h.on
    unfold act moveStarted at he
    obtain ⟨-, -, he⟩ := bind_ok he
    dsimp only at he
    rcases hstate with hstate | hstate
    · rw [hstate] at he
      exact fit_start h hpos hdirection he
    · have hover := htime hstate
      rw [hstate] at he
      dsimp only at he
      rw [if_neg (not_le.mpr hover)] at he
      exact fit_start h hpos hdirection he
  | stop =>
    next start direction characterID facing =>
    obtain ⟨hstate, -, -, hvalid, hat⟩ := h.on
    have hnear := near_at hvalid hat (at_along start direction n) htime
    unfold act moveStopped at he
    obtain ⟨-, -, he⟩ := bind_ok he
    dsimp only at he
    rw [hstate] at he
    dsimp only at he
    obtain ⟨-, -, he⟩ := bind_ok he
    obtain ⟨-, -, he⟩ := bind_ok he
    obtain ⟨-, -, he⟩ := bind_ok he
    obtain ⟨-, -, he⟩ := bind_ok he
    rw [outOfSync_near hnear] at he
    unfold Field.Player.place at he
    have hmoves : (s.player q).state ≠ .idle := by
      rw [hstate]
      decide
    rw [syncCheck_near h.syncCnt hnear, if_neg Bool.false_ne_true] at he
    dsimp only at he
    rw [if_pos hmoves] at he
    obtain ⟨p, hp, he⟩ := bind_ok he
    obtain ⟨-, rfl⟩ := Field.changeState_eq hp
    obtain ⟨near, -, he⟩ := bind_ok he
    cases he
    refine ⟨?_, rfl⟩
    show Fit _ (Function.update s.player q _ q)
    rw [Function.update_self]
    exact ⟨⟨rfl, .inl rfl⟩, h.speed, h.syncCnt⟩
  | attack =>
    obtain ⟨hpos, hstate⟩ := h.on
    unfold act attackRequested at he
    dsimp only at he
    split at he
    · cases he
      exact ⟨h, rfl⟩
    · split at he
      · cases he
        exact ⟨h, rfl⟩
      · obtain ⟨-, -, he⟩ := bind_ok he
        rcases hstate with hstate | hstate
        · rw [hstate] at he
          dsimp only at he
          obtain ⟨near, -, he⟩ := bind_ok he
          obtain ⟨p, hp, he⟩ := bind_ok he
          obtain ⟨-, rfl⟩ := Field.changeState_eq hp
          cases he
          refine ⟨?_, rfl⟩
          simp only [State.setPlayer, State.broadcastPlayerAttack, State.broadcast, State.record,
            Function.update_self]
          exact ⟨⟨hpos, .inr rfl⟩, h.speed, h.syncCnt⟩
        · rw [hstate] at he
          cases he
          exact ⟨h, rfl⟩
  | loot =>
    unfold act lootRequested at he
    obtain ⟨-, -, he⟩ := bind_ok he
    dsimp only at he
    split at he
    · cases he
      exact ⟨h, rfl⟩
    · split at he
      · cases he
        exact ⟨h, rfl⟩
      · obtain ⟨near, -, he⟩ := bind_ok he
        obtain ⟨-, -, he⟩ := bind_ok he
        cases he
        refine ⟨?_, rfl⟩
        show Fit _ (Function.update s.player q _ q)
        rw [Function.update_self]
        exact h.of_eq rfl rfl rfl rfl rfl rfl rfl

end

/-! ### Both of them -/

/-- A field and the bot of one of its sessions; the requests on their way to the server, each with
the frames of the walk that it ends. -/
structure Link (F : Type) where
  field : State F
  bot : Bot.Session F
  sent : List (Request F × ℤ)

/-- A step of the field, of the bot, or the first request arrives. -/
inductive Event (F : Type)
  | server (l : Field.Step F)
  | bot (e : Bot.Event F)
  | arrive

/-- A packet of the session `q`; what its client sends, arrives otherwise. -/
def comesFrom {F : Type} (q : ℕ) : Field.Step F → Bool
  | .contentsPacket q' _ => q' = q
  | _ => false

section

variable {F : Type} [ExactMachine F] [FloatBytes F] {q : ℕ} {L L' : Link F}

/-- The player has just entered, and its bot has had FIELD_AUTH_RES. -/
structure Entered (q : ℕ) (L : Link F) : Prop where
  met : q ∈ L.field.met
  player : ∃ accountNo characterID nickname, L.field.player q =
    Field.entered q accountNo characterID L.bot.pos nickname
  pos : L.bot.pos.InWorld
  bMove : L.bot.bMove = false
  state : L.bot.state = .idle
  direction : Direction.Valid L.bot.direction
  sent : L.sent = []

def link (q : ℕ) : System (Link F) (Event F) where
  init := Entered q
  next L
    | .server l => if comesFrom q l then none else (Field.field.next L.field l).map fun field =>
        { L with field }
    | .bot e => (Bot.bot.next L.bot e).map fun bot => { L with
        bot, sent := L.sent ++ (requests (bot.log.drop L.bot.log.length)).map fun r =>
          (r, L.bot.animFrame) }
    | .arrive =>
      match L.sent with
      | [] => none
      | r :: sent =>
        if q ∈ L.field.players ∧ (L.field.player q).connect = true then
          (act L.field q r.1).toOption.map fun field => { L with field, sent }
        else none

/-- What the bot does on its connection, and it takes no hit. -/
def Unhit (s : Bot.Session F) : Bot.Event F → Prop
  | .update _ _ | .postSend _ => True
  | .packet _ (.field packet) => ∀ hp pos direction monsterID, packet ≠
      .characterDamaged s.characterId hp pos direction monsterID
  | _ => False

/-- Nobody hits the player, and the requests arrive in time. -/
def Calm (q : ℕ) (L : Link F) : Event F → Prop
  | .server l => ∀ s, Field.field.next L.field l = some s → ¬ Hit (s.player q)
  | .bot e => Unhit L.bot e
  | .arrive => ∀ r ∈ L.sent.head?, InTime (L.field.player q) r

/-- What is on its way leads from where the server has the player to where its bot is. -/
structure Agrees (q : ℕ) (L : Link F) : Prop where
  met : q ∈ L.field.met
  upright : Upright L.bot
  follows : ∃ a, Fit a (L.field.player q) ∧ Follows Leads a L.sent (track L.bot)

omit [FloatBytes F] in
theorem Entered.agrees (h : Entered q L) : Agrees q L := by
  obtain ⟨accountNo, characterID, nickname, hplayer⟩ := h.player
  refine ⟨h.met, ⟨fun _ => h.bMove, ?_, h.pos, h.direction⟩, .rests L.bot.pos, ?_, ?_⟩
  · rw [h.state]
    simp
  · rw [hplayer]
    exact ⟨⟨rfl, .inl rfl⟩, rfl, rfl⟩
  · rw [h.sent, track_rests h.bMove]
    exact .nil _

/-- A step of the bot, with what it adds to what is on its way. -/
theorem Agrees.bot {e : Bot.Event F} {t : Bot.Session F} (h : Agrees q L)
    (he : Bot.bot.next L.bot e = some t) (hcalm : Unhit L.bot e) : Agrees q { L with
      bot := t, sent := L.sent ++ (requests (t.log.drop L.bot.log.length)).map fun r =>
        (r, L.bot.animFrame) } := by
  obtain ⟨-, hstep⟩ := Bot.bot_next he
  obtain ⟨a, hfit, hfollows⟩ := h.follows
  have hwalks : Walks L.bot.animFrame L.bot t := by
    cases e with
    | update time rands => exact walks_update h.upright hstep
    | postSend ret =>
      cases hstep
      exact ⟨.nothing rfl rfl, ⟨h.upright.still, h.upright.move, h.upright.pos,
        h.upright.direction⟩⟩
    | packet time p =>
      cases p with
      | auth packet => exact absurd hcalm id
      | field packet => exact walks_handle h.upright hcalm hstep
    | _ => exact absurd hcalm id
  obtain ⟨⟨marks, hlog, htold⟩, hup⟩ := hwalks
  refine ⟨h.met, hup, a, hfit, ?_⟩
  show Follows Leads a (L.sent ++ (requests (t.log.drop L.bot.log.length)).map fun r =>
    (r, L.bot.animFrame)) (track t)
  rw [hlog, List.drop_left]
  exact hfollows.append htold

theorem Agrees.step {e : Event F} (h : Agrees q L) (hcalm : Calm q L e)
    (he : (link q).next L e = some L') : Agrees q L' := by
  obtain ⟨a, hfit, hfollows⟩ := h.follows
  cases e with
  | server l =>
    have hif : (if comesFrom q l then none else (Field.field.next L.field l).map fun field =>
        { L with field }) = some L' := he
    split_ifs at hif with hfrom
    obtain ⟨s, hs, rfl⟩ := Option.map_eq_some_iff.mp hif
    have hpacket : ∀ msg, l ≠ .contentsPacket q msg := by
      rintro msg rfl
      exact hfrom (decide_eq_true rfl)
    obtain ⟨hfit', hmet⟩ := hfit.step h.met hpacket (Field.field_next.mp hs)
    exact ⟨hmet, h.upright, a, hfit'.resolve_right (hcalm s hs), hfollows⟩
  | bot e =>
    obtain ⟨t, ht, rfl⟩ := Option.map_eq_some_iff.mp he
    exact h.bot ht hcalm
  | arrive =>
    obtain ⟨s, bot, sent⟩ := L
    cases sent with
    | nil => cases he
    | cons r sent =>
      obtain ⟨r, n⟩ := r
      have hif : (if q ∈ s.players ∧ (s.player q).connect = true then
          (act s q r).toOption.map fun field => (⟨field, bot, sent⟩ : Link F) else none) =
            some L' := he
      split_ifs at hif
      obtain ⟨t, ht, rfl⟩ := Option.map_eq_some_iff.mp hif
      obtain ⟨b, hleads, hrest⟩ := hfollows.arrives
      obtain ⟨hfit', hmet⟩ := fit_act hfit hleads (hcalm (r, n) rfl) (toOption_ok ht)
      refine ⟨?_, h.upright, b, hfit', hrest⟩
      show q ∈ t.met
      rw [hmet]
      exact h.met

/-- As long as nobody hits the player and every request arrives in time, the server never finds the
bot out of sync, and what is on its way leads from where the server has the player to where the bot
is. -/
theorem never_out_of_sync (h : ((link q).restrict (Calm q)).Reachable L) :
    (L.field.player q).syncCnt = 0 ∧
    (∃ a, On (L.field.player q) a ∧ Follows Leads a L.sent (track L.bot)) ∧
    (L.sent = [] → (L.bot.bMove = false → (L.field.player q).pos = L.bot.pos) ∧
      (L.bot.bMove = true → (L.field.player q).state = .move ∧
          (L.field.player q).startMovePos = L.bot.startMovePos ∧
        (L.field.player q).direction = L.bot.direction)) := by
  have hinv : Agrees q L := by
    refine (System.restrict_invariant (P := Agrees q) ?_ ?_).reachable h
    · intro L hL
      exact hL.agrees
    · intro L L' e hL hcalm he
      exact hL.step hcalm he
  obtain ⟨a, hfit, hfollows⟩ := hinv.follows
  refine ⟨hfit.syncCnt, ⟨a, hfit.on, hfollows⟩, ?_⟩
  intro hsent
  have hon := hfit.on
  rw [hsent] at hfollows
  rw [hfollows.arrived] at hon
  constructor
  · intro hrests
    rw [track_rests hrests] at hon
    exact hon.1
  · intro hwalks
    rw [track_walks hwalks] at hon
    obtain ⟨hstate, hstart, hdirection, -⟩ := hon
    exact ⟨hstate, hstart, hdirection⟩

end

/-! ### A walk -/

/-- Session 1 has entered an empty field. -/
def entry : Link ℚ where
  field := (Field.empty fun _ => 0).enter 1 (Field.entered 1 7 11 ⟨0, 0⟩ [])
  bot := { Bot.Session.new 1 with sessionState := .authed, characterId := 11 }
  sent := []

theorem entry_entered : Entered 1 entry where
  met := List.mem_cons_self
  player := ⟨7, 11, [], rfl⟩
  pos := by decide +kernel
  bMove := rfl
  state := rfl
  direction := Field.valid_down
  sent := rfl

def calm (L : Link ℚ) : Event ℚ → Bool
  | .server .fieldUpdate => (Field.field.next L.field .fieldUpdate).all fun s =>
      (s.player 1).state ≠ .stun ∧ (s.player 1).state ≠ .dead
  | .bot (.update _ _) => true
  | .arrive => L.sent.all fun r => (L.field.player 1).state ≠
      .attack ∧ |(L.field.player 1).animFrame - r.2| ≤ 22
  | _ => false

theorem calm_sound {L : Link ℚ} {e : Event ℚ} (h : calm L e = true) : Calm 1 L e := by
  unfold calm at h
  split at h
  · intro s hs hhit
    rw [hs] at h
    obtain ⟨hstun, hdead⟩ := of_decide_eq_true h
    rcases hhit with hhit | hhit
    · exact hstun hhit
    · exact hdead hhit
  · trivial
  · intro r hr
    obtain ⟨hattack, htime⟩ :=
      of_decide_eq_true (List.all_eq_true.mp h r (List.mem_of_mem_head? hr))
    obtain ⟨r, n⟩ := r
    cases r with
    | moveStart => exact fun hstate => absurd hstate hattack
    | moveStop => exact htime
    | _ => trivial
  · cases h

/-- Bot 1 walks down for three of its frames and `n` ticks. -/
def walkRun (n : ℕ) : List (Event ℚ) :=
  [.bot (.update 0 fun _ => 0), .arrive] ++ List.replicate n (.server .fieldUpdate) ++
    [.bot (.update 0 fun _ => 50), .bot (.update 0 fun _ => 50),
      .bot (.update 0 fun _ => 0), .arrive]

/-- The server has moved it for five ticks when it stops after three frames, and takes it back. -/
theorem never_out_of_sync_walkRun :
    ∃ L : Link ℚ, (L.field.player 1).pos.y = 27 / 2 ∧ (L.field.player 1).pos = L.bot.pos ∧
    (L.field.player 1).syncCnt = 0 := by
  have hrun : ((link 1).execIf calm entry (walkRun 5)).any (fun L =>
      (L.field.player 1).pos.y = 27 / 2 ∧ L.sent.isEmpty = true ∧ L.bot.bMove = false) = true := by
    decide +kernel
  obtain ⟨L, hL, hp⟩ := Option.any_eq_true _ _ |>.mp hrun
  obtain ⟨hy, hsent, hrests⟩ := of_decide_eq_true hp
  obtain ⟨hcnt, -, hagree⟩ :=
    never_out_of_sync (System.Reachable.execIf (fun _ _ => calm_sound) _ (.start entry_entered) hL)
  exact ⟨L, hy, (hagree (List.isEmpty_iff.mp hsent)).1 hrests, hcnt⟩

/-- After 26 ticks it is 103.5 off. -/
example :
    ((link 1).exec entry (walkRun 26)).any (fun L => (L.field.player 1).syncCnt = 3) = true := by
  decide +kernel

end Reckoning
end MyMMO
