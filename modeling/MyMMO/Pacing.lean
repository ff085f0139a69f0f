/-
# The pace of the field thread

`fieldThread` keeps the time of the next update as a tick of `timeGetTime`, and compares it with
what it reads. The tick counter wraps every 2^32 milliseconds, and the comparisons know nothing of
it: while the deadline is already round the end and the clock is not, `nextTime <= startTime` holds
at once; while the clock is round and the deadline is not, it does not hold, and `Sleep` gets the
rest of the 49 days.

`Clock` is what the loop relies on: `nextTime` is the tick of the deadline, and the deadline is one
interval behind the updates made. The passes that keep the pace are those in which no wrap comes
between the two (`paced_iff`).
-/
import Mathlib.Tactic

namespace MyMMO
namespace Pacing

/-- `CONFIG_FRAME_INTERVAL`. -/
def FRAME_INTERVAL : ℕ := 20

/-- The locals of `fieldThread`. -/
structure Locals where
  startTime : UInt32
  beforestartTime : UInt32
  nextTime : UInt32
  secondTime : UInt32
  frameCnt : ℕ

/-- What a pass does: whether it calls `fieldUpdate`, the `loopStartTime` for `playerProc`, and the
argument of `Sleep`. -/
structure Pass where
  update : Bool
  loopStartTime : UInt32
  sleep : Option UInt32

/-- Up to the loop. -/
def enter (startTime : UInt32) : Locals :=
  ⟨startTime, startTime, startTime + UInt32.ofNat FRAME_INTERVAL, startTime + 1000, 0⟩

/-- A pass of the loop; `time1` and `time2` are what `timeGetTime` returns. -/
def pass (s : Locals) (time1 time2 : UInt32) : Locals × Pass :=
  let s := { s with frameCnt := s.frameCnt + 1, beforestartTime := s.startTime }
  let s := { s with startTime := time1 }
  let s := if s.secondTime ≤ s.startTime then { s with
    secondTime := s.secondTime + 1000, frameCnt := 0 } else s
  let update := decide (s.nextTime ≤ s.startTime)
  let s := if update then { s with nextTime := s.nextTime + UInt32.ofNat FRAME_INTERVAL } else s
  let s := { s with startTime := time2 }
  (s, ⟨update, s.beforestartTime,
    if s.startTime < s.nextTime then some (s.nextTime - s.startTime) else none⟩)

/-- The thread in real time, in milliseconds: when the loop was entered, what time it is, and how
many updates there were. -/
structure Thread where
  entered : ℕ
  now : ℕ
  updates : ℕ
  locals : Locals

/-- The tick at a time. -/
def timeGetTime (now : ℕ) : UInt32 := UInt32.ofNat now

def start (now : ℕ) : Thread := ⟨now, now, 0, enter (timeGetTime now)⟩

/-- A pass with the milliseconds up to its first reading and from there to the second. -/
def run (s : Thread) (elapsed : ℕ × ℕ) : Thread × Pass :=
  let (locals, p) :=
    pass s.locals (timeGetTime (s.now + elapsed.1)) (timeGetTime (s.now + elapsed.1 + elapsed.2))
  ({ s with
      now := s.now + elapsed.1 + elapsed.2
      updates := if p.update then s.updates + 1 else s.updates
      locals }, p)

/-- A pass keeps the pace: with its update there is none too many for the time that has gone by, and
it does not sleep longer than an interval. -/
def Paced (s : Thread) (elapsed : ℕ × ℕ) : Prop :=
  ((run s elapsed).2.update = true →
      (s.updates + 1) * FRAME_INTERVAL ≤ s.now + elapsed.1 - s.entered) ∧
    ∀ ms, (run s elapsed).2.sleep = some ms → ms.toNat ≤ FRAME_INTERVAL

/-- Every pass of a run is such. -/
def Holds (P : Thread → ℕ × ℕ → Prop) : Thread → List (ℕ × ℕ) → Prop
  | _, [] => True
  | s, elapsed :: rest => P s elapsed ∧ Holds P (run s elapsed).1 rest

/-- When the next update is due. -/
def deadline (s : Thread) : ℕ := s.entered + (s.updates + 1) * FRAME_INTERVAL

/-- When the one behind this pass is due: as the counters have it, an update has come. -/
def deadlineBehind (s : Thread) (elapsed : ℕ × ℕ) : ℕ :=
  if deadline s % 2 ^ 32 ≤ (s.now + elapsed.1) % 2 ^ 32 then deadline s + FRAME_INTERVAL
    else deadline s

/-- A first reading ahead of the deadline is in the same round of the counter; and a second one
behind it is, or at least the counter is not further below the deadline than an interval. -/
def SameRound (s : Thread) (elapsed : ℕ × ℕ) : Prop :=
  (s.now + elapsed.1 < deadline s → (s.now + elapsed.1) / 2 ^ 32 = deadline s / 2 ^ 32) ∧
    (deadlineBehind s elapsed ≤ s.now + elapsed.1 + elapsed.2 →
      deadlineBehind s elapsed % 2 ^ 32 ≤ (s.now + elapsed.1 + elapsed.2) % 2 ^ 32 + FRAME_INTERVAL)

instance (s : Thread) (elapsed : ℕ × ℕ) : Decidable (SameRound s elapsed) :=
  inferInstanceAs (Decidable (_ ∧ _))

/-- What the loop relies on. -/
structure Clock (s : Thread) : Prop where
  nextTime_eq : s.locals.nextTime = timeGetTime (deadline s)
  elapsed : s.entered + s.updates * FRAME_INTERVAL ≤ s.now

section

variable {s : Thread} {elapsed : ℕ × ℕ}

theorem timeGetTime_toNat (now : ℕ) : (timeGetTime now).toNat = now % 2 ^ 32 := UInt32.toNat_ofNat'

theorem timeGetTime_add (n m : ℕ) : timeGetTime n + UInt32.ofNat m = timeGetTime (n + m) :=
  (UInt32.ofNat_add n m).symm

theorem timeGetTime_le (n m : ℕ) : timeGetTime n ≤ timeGetTime m ↔ n % 2 ^ 32 ≤ m % 2 ^ 32 := by
  rw [UInt32.le_iff_toNat_le, timeGetTime_toNat, timeGetTime_toNat]

theorem start_clock (now : ℕ) : Clock (start now) := by
  constructor
  · show timeGetTime now + UInt32.ofNat FRAME_INTERVAL = _
    rw [timeGetTime_add]
    rfl
  · show now + 0 * FRAME_INTERVAL ≤ now
    omega

/-- The counter decides whether there is an update. -/
theorem Clock.update_iff (h : Clock s) (elapsed : ℕ × ℕ) :
    (run s elapsed).2.update = true ↔ deadline s % 2 ^ 32 ≤ (s.now + elapsed.1) % 2 ^ 32 := by
  rw [← timeGetTime_le, ← h.nextTime_eq]
  unfold run pass
  dsimp only
  split_ifs <;> simp

theorem Clock.nextTime_run (h : Clock s) (elapsed : ℕ × ℕ) :
    (run s elapsed).1.locals.nextTime = timeGetTime (deadlineBehind s elapsed) := by
  have hupdate := h.update_iff elapsed
  have hnext : (run s elapsed).1.locals.nextTime =
      if (run s elapsed).2.update then s.locals.nextTime + UInt32.ofNat FRAME_INTERVAL else
        s.locals.nextTime := by
    unfold run pass
    dsimp only
    split_ifs <;> simp_all
  rw [hnext, h.nextTime_eq, timeGetTime_add]
  unfold deadlineBehind
  by_cases hdue : deadline s % 2 ^ 32 ≤ (s.now + elapsed.1) % 2 ^ 32
  · rw [if_pos (hupdate.mpr hdue), if_pos hdue]
  · rw [if_neg (mt hupdate.mp hdue), if_neg hdue]

theorem run_sleep (s : Thread) (elapsed : ℕ × ℕ) : (run s elapsed).2.sleep =
    if timeGetTime (s.now + elapsed.1 + elapsed.2) < (run s elapsed).1.locals.nextTime then
      some ((run s elapsed).1.locals.nextTime - timeGetTime (s.now + elapsed.1 + elapsed.2))
        else none := by
  unfold run pass
  rfl

/-- How long the pass sleeps. -/
theorem Clock.sleep_le_iff (h : Clock s) (elapsed : ℕ × ℕ) :
    (∀ ms, (run s elapsed).2.sleep = some ms → ms.toNat ≤ FRAME_INTERVAL) ↔
      deadlineBehind s elapsed % 2 ^ 32 ≤
        (s.now + elapsed.1 + elapsed.2) % 2 ^ 32 + FRAME_INTERVAL := by
  rw [run_sleep, h.nextTime_run]
  by_cases hlt : timeGetTime (s.now + elapsed.1 + elapsed.2) <
    timeGetTime (deadlineBehind s elapsed)
  · rw [if_pos hlt]
    have hms : (timeGetTime (deadlineBehind s elapsed) - timeGetTime
        (s.now + elapsed.1 + elapsed.2)).toNat =
        deadlineBehind s elapsed % 2 ^ 32 - (s.now + elapsed.1 + elapsed.2) % 2 ^ 32 := by
      rw [UInt32.toNat_sub_of_le _ _ (UInt32.le_of_lt hlt), timeGetTime_toNat, timeGetTime_toNat]
    constructor
    · intro hsleep
      have := hsleep _ rfl
      omega
    · intro hround ms hsome
      obtain rfl := Option.some.inj hsome
      omega
  · rw [if_neg hlt]
    rw [UInt32.not_lt, timeGetTime_le] at hlt
    constructor
    · intro _
      omega
    · intro _ ms hnone
      cases hnone

/-- What an update ahead of the deadline takes. -/
theorem deadline_le_iff (s : Thread) (elapsed : ℕ × ℕ) (h : Clock s) :
    (s.updates + 1) * FRAME_INTERVAL ≤ s.now + elapsed.1 - s.entered ↔
    deadline s ≤ s.now + elapsed.1 := by
  have hnow := h.elapsed
  unfold deadline
  unfold FRAME_INTERVAL at *
  omega

theorem Clock.paced_iff_sameRound (h : Clock s) (elapsed : ℕ × ℕ) : Paced s elapsed ↔
    SameRound s elapsed := by
  have hnow := h.elapsed
  have hdue : deadline s = s.entered + s.updates * FRAME_INTERVAL + FRAME_INTERVAL := by
    unfold deadline
    ring
  unfold Paced SameRound
  rw [h.update_iff, h.sleep_le_iff, deadline_le_iff s elapsed h]
  have hbehind : deadlineBehind s elapsed = deadline s ∨
      deadlineBehind s elapsed = deadline s + FRAME_INTERVAL := by
    unfold deadlineBehind
    split_ifs
    · exact Or.inr rfl
    · exact Or.inl rfl
  constructor
  · rintro ⟨hupdate, hsleep⟩
    refine ⟨fun hahead => ?_, fun _ => hsleep⟩
    -- ahead of the deadline there is no update, so the counters are in order
    have hno : ¬deadline s % 2 ^ 32 ≤ (s.now + elapsed.1) % 2 ^ 32 :=
      fun hc => absurd (hupdate hc) (by omega)
    unfold FRAME_INTERVAL at *
    omega
  · rintro ⟨hfirst, hsecond⟩
    constructor
    · intro hc
      by_contra hahead
      have := hfirst (by omega)
      omega
    · by_cases hlate : deadlineBehind s elapsed ≤ s.now + elapsed.1 + elapsed.2
      · exact hsecond hlate
      · -- ahead of it there is less than an interval to go
        unfold deadlineBehind at *
        unfold FRAME_INTERVAL at *
        split_ifs at * with hc
        · by_cases hahead : s.now + elapsed.1 < deadline s
          · have := hfirst hahead
            omega
          · omega
        · omega

theorem Clock.run (h : Clock s) (hok : Paced s elapsed) : Clock (run s elapsed).1 := by
  have hnext := h.nextTime_run elapsed
  have hupdates : (Pacing.run s elapsed).1.updates =
      if (Pacing.run s elapsed).2.update then s.updates + 1 else s.updates := rfl
  have hupdate := h.update_iff elapsed
  constructor
  · rw [hnext]
    unfold deadlineBehind deadline
    by_cases hdue : deadline s % 2 ^ 32 ≤ (s.now + elapsed.1) % 2 ^ 32
    · rw [hupdates, if_pos (hupdate.mpr hdue)]
      rw [if_pos (by unfold deadline at hdue; exact hdue)]
      congr 1
      show _ = s.entered + _
      ring
    · rw [hupdates, if_neg (mt hupdate.mp hdue)]
      rw [if_neg (by unfold deadline at hdue; exact hdue)]
      rfl
  · show s.entered + (Pacing.run s elapsed).1.updates * FRAME_INTERVAL ≤
      s.now + elapsed.1 + elapsed.2
    have hnow := h.elapsed
    rw [hupdates]
    by_cases hdo : (Pacing.run s elapsed).2.update = true
    · rw [if_pos hdo]
      have := hok.1 hdo
      omega
    · rw [if_neg hdo]
      omega

theorem Clock.holds_iff (h : Clock s) (passes : List (ℕ × ℕ)) : Holds Paced s passes ↔
    Holds SameRound s passes := by
  induction passes generalizing s with
  | nil => exact Iff.rfl
  | cons elapsed rest ih =>
    unfold Holds
    rw [h.paced_iff_sameRound]
    apply and_congr_right
    intro hround
    exact ih (h.run ((h.paced_iff_sameRound elapsed).mpr hround))

end

/-- A run keeps the pace if and only if in every pass the clock and the deadline are in the same
round of the counter. -/
theorem paced_iff (now : ℕ) (passes : List (ℕ × ℕ)) :
    Holds Paced (start now) passes ↔ Holds SameRound (start now) passes :=
  (start_clock now).holds_iff passes

/-- Entered 6 ms before the counter wraps, the loop makes its first update at once. -/
theorem wrap_not_paced : ¬∀ now passes, Holds Paced (start now) passes := by
  intro h
  have hpaced := ((start_clock (2 ^ 32 - 6)).holds_iff [(0, 0)]).mp (h _ _)
  exact absurd hpaced.1 (by decide)

end Pacing
end MyMMO
