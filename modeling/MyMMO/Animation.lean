/-
# Animations

`render::Animation` shows a frame for `mSpeed` ticks (`Run`), and the last one for good or the first
one again. Who sees an actor later than the others starts its animation with `FastForward`, which
takes the frame from the number of ticks but drops what is left of them: from there on the two are
in step only as long as no remainder is carried into a frame (`inStep_iff`).

`At` says where an animation stands by the number of ticks it has run.
-/
import MyMMO.Common
import Mathlib.Tactic

namespace MyMMO

inductive AnimationType
  | loop
  | endStop
  deriving DecidableEq, Repr

structure Animation where
  type : AnimationType
  speed : ℕ
  speedCnt : ℕ
  currentFrame : ℕ
  frameCount : ℕ
  deriving DecidableEq, Repr

namespace Animation

/-- A new animation with its atlas. -/
def new (type : AnimationType) (speed frameCount : ℕ) : Animation := ⟨type, speed, 0, 0, frameCount⟩

/-- `Initialize`. -/
def initialized (a : Animation) : Animation := { a with currentFrame := 0, speedCnt := 0 }

/-- Whether the frame has changed, too. -/
def run (a : Animation) : Animation × Bool :=
  if a.currentFrame ≠ a.frameCount then
    let speedCnt := a.speedCnt + 1
    if speedCnt = a.speed then
      let currentFrame := a.currentFrame + 1
      let currentFrame :=
        if currentFrame = a.frameCount then
          if a.type ≠ .endStop then 0 else a.frameCount - 1
        else currentFrame
      ({ a with currentFrame, speedCnt := 0 }, true)
    else ({ a with speedCnt }, false)
  else (a, false)

def fastForward (a : Animation) (ticks : ℕ) : Except Stop Animation := do
  rtAssert (a.frameCount ≠ 0)
  let frame := ticks / a.speed
  let currentFrame :=
    if a.type = .endStop then if frame < a.frameCount then frame else a.frameCount - 1
    else frame % a.frameCount
  return { a with currentFrame, speedCnt := 0 }

/-- `Run` tick after tick. -/
def runs (a : Animation) : ℕ → Animation
  | 0 => a
  | k + 1 => (a.runs k).run.1

/-! ### Where it stands -/

/-- The frame after `n` times `speed` ticks. -/
def frameAt (type : AnimationType) (frameCount n : ℕ) : ℕ :=
  match type with
  | .loop => n % frameCount
  | .endStop => min n (frameCount - 1)

/-- The animation has run for `ticks`. -/
structure At (type : AnimationType) (frameCount speed ticks : ℕ) (a : Animation) : Prop where
  type_eq : a.type = type
  speed_eq : a.speed = speed
  frameCount_eq : a.frameCount = frameCount
  currentFrame_eq : a.currentFrame = frameAt type frameCount (ticks / speed)
  speedCnt_eq : a.speedCnt = ticks % speed

/-- Up to a whole number of `d`. -/
theorem succ_divMod_of_full {n d : ℕ} (hd : 0 < d) (h : n % d + 1 = d) :
    (n + 1) / d = n / d + 1 ∧ (n + 1) % d = 0 := by
  have hn : n + 1 = d * (n / d + 1) :=
    calc n + 1 = d * (n / d) + n % d + 1 := by rw [Nat.div_add_mod]
      _ = d * (n / d) + d := by rw [Nat.add_assoc, h]
      _ = d * (n / d + 1) := (Nat.mul_succ _ _).symm
  rw [hn]
  exact ⟨Nat.mul_div_cancel_left _ hd, Nat.mul_mod_right _ _⟩

/-- Not yet up to it. -/
theorem succ_divMod_of_ne {n d : ℕ} (hd : 0 < d) (h : n % d + 1 ≠ d) :
    (n + 1) / d = n / d ∧ (n + 1) % d = n % d + 1 := by
  have hlt : n % d + 1 < d := by
    have := Nat.mod_lt n hd
    omega
  have hn : n + 1 = d * (n / d) + (n % d + 1) :=
    calc n + 1 = d * (n / d) + n % d + 1 := by rw [Nat.div_add_mod]
      _ = d * (n / d) + (n % d + 1) := Nat.add_assoc _ _ _
  constructor
  · rw [hn, Nat.mul_add_div hd, Nat.div_eq_of_lt hlt, Nat.add_zero]
  · rw [hn, Nat.mul_add_mod, Nat.mod_eq_of_lt hlt]

theorem succ_mod {n d : ℕ} (hd : 0 < d) : (n + 1) % d = if n % d + 1 = d then 0 else n % d + 1 := by
  split_ifs with hfull
  · exact (succ_divMod_of_full hd hfull).2
  · exact (succ_divMod_of_ne hd hfull).2

section

variable {type : AnimationType} {frameCount speed ticks : ℕ} {a : Animation}

theorem frameAt_lt (h : 1 ≤ frameCount) (n : ℕ) : frameAt type frameCount n < frameCount := by
  cases type with
  | loop => exact Nat.mod_lt _ h
  | endStop =>
    unfold frameAt
    dsimp only
    omega

/-- What `Run` makes of the frame. -/
theorem frameAt_succ (h : 1 ≤ frameCount) (n : ℕ) : frameAt type frameCount (n + 1) =
    if frameAt type frameCount n + 1 = frameCount then if type ≠ .endStop then 0 else frameCount - 1
    else frameAt type frameCount n + 1 := by
  cases type with
  | loop =>
    unfold frameAt
    dsimp only
    have hloop : AnimationType.loop ≠ AnimationType.endStop := AnimationType.noConfusion
    rw [if_pos hloop]
    exact succ_mod h
  | endStop =>
    unfold frameAt
    dsimp only
    split_ifs with hlast hloop
    · exact absurd rfl hloop
    · omega
    · omega

theorem At.initialized (htype : a.type = type) (hspeed : a.speed = speed)
    (hcount : a.frameCount = frameCount) :
    At type frameCount speed 0 a.initialized := by
  refine ⟨htype, hspeed, hcount, ?_, (Nat.zero_mod speed).symm⟩
  rw [Nat.zero_div]
  cases type with
  | loop => exact (Nat.zero_mod _).symm
  | endStop => exact (Nat.zero_min _).symm

/-- A tick. -/
theorem At.run (h : At type frameCount speed ticks a) (hcount : 1 ≤ frameCount)
    (hspeed : 1 ≤ speed) :
    At type frameCount speed (ticks + 1) a.run.1 := by
  obtain ⟨htype, hs, hc, hframe, hcnt⟩ := h
  have hlt : a.currentFrame < a.frameCount := by
    rw [hframe, hc]
    exact frameAt_lt hcount _
  have hmod := Nat.mod_lt ticks hspeed
  unfold Animation.run
  rw [if_pos hlt.ne]
  dsimp only
  by_cases hfull : a.speedCnt + 1 = a.speed
  · have hcarry := succ_divMod_of_full hspeed (by rw [← hcnt, ← hs]; exact hfull)
    rw [if_pos hfull]
    refine ⟨htype, hs, hc, ?_, hcarry.2.symm⟩
    dsimp only
    rw [hcarry.1, frameAt_succ hcount, hframe, hc, htype]
  · have hkeep := succ_divMod_of_ne hspeed (by rw [← hcnt, ← hs]; exact hfull)
    rw [if_neg hfull]
    refine ⟨htype, hs, hc, ?_, ?_⟩
    · rw [hkeep.1]
      exact hframe
    · rw [hkeep.2, ← hcnt]

theorem At.runs (h : At type frameCount speed ticks a) (hcount : 1 ≤ frameCount)
    (hspeed : 1 ≤ speed) (k : ℕ) :
    At type frameCount speed (ticks + k) (a.runs k) := by
  induction k with
  | zero => exact h
  | succ k ih => exact ih.run hcount hspeed

/-- The jump lands where whole frames begin. -/
theorem At.fastForward (h : At type frameCount speed 0 a) (hcount : 1 ≤ frameCount)
    (hspeed : 1 ≤ speed) (ticks : ℕ) :
    ∃ b, a.fastForward ticks = .ok b ∧ At type frameCount speed (ticks / speed * speed) b := by
  obtain ⟨htype, hs, hc, -, -⟩ := h
  have hassert : rtAssert (a.frameCount ≠ 0) = .ok () := rtAssert_true (decide_eq_true (by omega))
  have hframe : (if a.type = .endStop then
      if ticks / a.speed < a.frameCount then ticks / a.speed else a.frameCount - 1
      else ticks / a.speed % a.frameCount) =
        frameAt type frameCount (ticks / speed * speed / speed) := by
    rw [htype, hs, hc, Nat.mul_div_cancel _ hspeed]
    cases type with
    | loop => rfl
    | endStop =>
      rw [if_pos rfl]
      unfold frameAt
      dsimp only
      split_ifs <;> omega
  refine ⟨{ a with currentFrame := _, speedCnt := 0 }, ?_, htype, hs, hc, hframe, ?_⟩
  · unfold Animation.fastForward
    rw [hassert]
    rfl
  · exact (Nat.mul_mod_left _ _).symm

/-- A frame more makes no difference if there is only one, or if it is the last one for good. -/
theorem frameAt_eq_succ_iff (h : 1 ≤ frameCount) (n : ℕ) :
    frameAt type frameCount n = frameAt type frameCount (n + 1) ↔
    frameCount = 1 ∨ type = .endStop ∧ frameCount - 1 ≤ n := by
  cases type with
  | loop =>
    have hlt : n % frameCount < frameCount := Nat.mod_lt n h
    show n % frameCount = (n + 1) % frameCount ↔ _
    rw [succ_mod h]
    constructor
    · intro hsame
      left
      split_ifs at hsame <;> omega
    · rintro (hone | ⟨hstop, -⟩)
      · split_ifs <;> omega
      · cases hstop
  | endStop =>
    unfold frameAt
    dsimp only
    constructor
    · intro hsame
      right
      exact ⟨rfl, by omega⟩
    · rintro (hone | ⟨-, hlast⟩) <;> omega

end

/-- What `k` ticks show after the jump over `ticks`, against what `ticks + k` ticks show. -/
def InStep (a : Animation) (ticks k : ℕ) : Prop :=
  ∃ b, a.initialized.fastForward ticks = .ok b ∧
    (b.runs k).currentFrame = (a.initialized.runs (ticks + k)).currentFrame

theorem inStep_iff_carry {a : Animation} (hcount : 1 ≤ a.frameCount) (hspeed : 1 ≤ a.speed)
    (ticks k : ℕ) :
    a.InStep ticks k ↔ ticks % a.speed + k % a.speed < a.speed ∨ a.frameCount = 1 ∨
      a.type = .endStop ∧ a.frameCount - 1 ≤ ticks / a.speed + k / a.speed := by
  have hstart : At a.type a.frameCount a.speed 0 a.initialized := .initialized rfl rfl rfl
  obtain ⟨b, hb, hjump⟩ := hstart.fastForward hcount hspeed ticks
  have hframes : a.InStep ticks k ↔
      (b.runs k).currentFrame = (a.initialized.runs (ticks + k)).currentFrame := by
    constructor
    · rintro ⟨b', hb', heq⟩
      rw [hb] at hb'
      cases hb'
      exact heq
    · intro heq
      exact ⟨b, hb, heq⟩
  rw [hframes, (hjump.runs hcount hspeed k).currentFrame_eq,
    (hstart.runs hcount hspeed (ticks + k)).currentFrame_eq]
  rw [Nat.zero_add, Nat.add_comm (_ * _), Nat.add_mul_div_right _ _ hspeed,
    Nat.add_comm (k / a.speed)]
  by_cases hcarry : ticks % a.speed + k % a.speed < a.speed
  · have hsum : (ticks + k) / a.speed = ticks / a.speed + k / a.speed := by
      rw [Nat.add_div hspeed, if_neg (by omega), Nat.add_zero]
    rw [hsum]
    exact iff_of_true rfl (Or.inl hcarry)
  · have hsum : (ticks + k) / a.speed = ticks / a.speed + k / a.speed + 1 := by
      rw [Nat.add_div hspeed, if_pos (by omega)]
    rw [hsum, frameAt_eq_succ_iff hcount, or_iff_right hcarry]

/-- Who jumps is in step after `k` more ticks if and only if the remainders come to no whole frame,
or a frame more makes no difference; hence for good if and only if the jump is over whole frames, or
there is nothing left to see. -/
theorem inStep_iff {a : Animation} (hcount : 1 ≤ a.frameCount) (hspeed : 1 ≤ a.speed) (ticks : ℕ) :
    (∀ k, a.InStep ticks k ↔ ticks % a.speed + k % a.speed < a.speed ∨ a.frameCount = 1 ∨
      a.type = .endStop ∧ a.frameCount - 1 ≤ ticks / a.speed + k / a.speed) ∧
    ((∀ k, a.InStep ticks k) ↔ a.speed ∣ ticks ∨ a.frameCount = 1 ∨
      a.type = .endStop ∧ a.frameCount - 1 ≤ ticks / a.speed) := by
  refine ⟨inStep_iff_carry hcount hspeed ticks, fun h => ?_,
    fun h k => (inStep_iff_carry hcount hspeed ticks k).mpr ?_⟩
  · by_cases hdvd : a.speed ∣ ticks
    · exact Or.inl hdvd
    · right
      -- up to the next whole frame the one who jumped has still a frame to go
      have hpos : 0 < ticks % a.speed :=
        Nat.pos_of_ne_zero fun hzero => hdvd (Nat.dvd_of_mod_eq_zero hzero)
      have hlt := Nat.mod_lt ticks hspeed
      have hrest := (inStep_iff_carry hcount hspeed ticks (a.speed - ticks % a.speed)).mp (h _)
      rw [Nat.mod_eq_of_lt (show a.speed - ticks % a.speed < a.speed by omega),
        Nat.div_eq_of_lt (show a.speed - ticks % a.speed < a.speed by omega), Nat.add_zero] at hrest
      exact hrest.resolve_left (by omega)
  · rcases h with hdvd | hone | ⟨hstop, hlast⟩
    · left
      rw [Nat.mod_eq_zero_of_dvd hdvd, Nat.zero_add]
      exact Nat.mod_lt _ hspeed
    · exact Or.inr (Or.inl hone)
    · exact Or.inr (Or.inr ⟨hstop, hlast.trans (Nat.le_add_right _ _)⟩)

/-- A walk of 12 frames of 4 ticks. -/
def walk : Animation := .new .loop 4 12

/-- Jumping over 2 ticks loses them: 2 ticks later the others show the next frame. -/
theorem walk_behind : ¬∀ (a : Animation) (ticks k : ℕ), 1 ≤ a.frameCount → 1 ≤ a.speed →
    a.InStep ticks k := by
  intro h
  obtain ⟨b, hb, heq⟩ := h walk 2 2 (by decide) (by decide)
  have hjump : walk.initialized.fastForward 2 = .ok walk := rfl
  rw [hjump] at hb
  cases hb
  exact absurd heq (by decide)

/-- Jumping over two frames does not. -/
theorem inStep_iff_walk : walk.InStep 8 3 :=
  (inStep_iff (a := walk) (by decide) (by decide) 8).2.mpr (Or.inl ⟨2, rfl⟩) 3

end Animation
end MyMMO
