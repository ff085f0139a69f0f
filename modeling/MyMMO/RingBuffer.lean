/-
# MyRingBuffer

The byte queue of `utility/MyRingBuffer.cpp`. Pointers are offsets from
`mBegin`, so `mBegin` is 0 and `mEnd` is the buffer's size; the cell type is a
parameter (bytes in the receive buffers, fragments of pointers in the thread
queues). One cell always stays free, to tell a full buffer from an empty one.

A buffer is well formed (`WF`) when both pointers are inside it and no fail
bit is set; its `contents` are then the window from `front` to `rear`. Each
operation has one specification lemma about the contents: `peek_eq`,
`dequeue_eq`, `enqueue_eq`, `moveFront_eq`, `moveRear_eq`.
-/
import MyMMO.Common
import MyMMO.Lib.Circular

namespace MyMMO

open Circular

/-- `eConfig::RINGBUFFER_SIZE`. -/
def RINGBUFFER_SIZE : ℕ := 30000

/-- A ring buffer of `size` cells. -/
structure MyRingBuffer (α : Type) where
  size : ℕ
  buffer : ℕ → α
  front : ℕ
  rear : ℕ
  fail : List RingBufferFailBit

namespace MyRingBuffer

variable {α : Type}

/-- A freshly constructed or cleared buffer. -/
def new (size : ℕ) (buffer : ℕ → α) : MyRingBuffer α := ⟨size, buffer, 0, 0, []⟩

def isFail (b : MyRingBuffer α) : Bool := !b.fail.isEmpty

def getDirectFreeSize (b : MyRingBuffer α) (f r : ℕ) : ℕ :=
  if f ≤ r then
    if f = 0 then b.size - r - 1 else b.size - r
  else f - r - 1

def getDirectUseSize (b : MyRingBuffer α) (f r : ℕ) : ℕ :=
  if f ≤ r then r - f else b.size - f

-- `distance` is a `size_t`, so `f - mBegin - 1` may wrap below zero and back
def getFreeSize (b : MyRingBuffer α) (f r : ℕ) : ℕ :=
  if f ≤ r then b.size - r + f - 1 else f - r - 1

def getUseSize (b : MyRingBuffer α) (f r : ℕ) : ℕ :=
  if f ≤ r then r - f else b.size - f + r

/-- `mBFail |= 1 << bit`. -/
def setFail (b : MyRingBuffer α) (bit : RingBufferFailBit) : MyRingBuffer α :=
  { b with fail := if bit ∈ b.fail then b.fail else bit :: b.fail }

/-- `RINGBUFFER_ASSERT`. -/
def ringBufferAssert (b : MyRingBuffer α) : Except Stop Unit :=
  match b.fail with
  | [] => .ok ()
  | bit :: _ => .error (.ringBufferAssert bit)

/-- A pointer moved on by `move`, around the end once. -/
def advance (b : MyRingBuffer α) (p move : ℕ) : ℕ :=
  if b.size ≤ p + move then p + move - b.size else p + move

def moveFront (b : MyRingBuffer α) (move : ℤ) : MyRingBuffer α :=
  if b.isFail then b
  else if move < 0 then b.setFail .argmentSizeInvalid
  else { b with front := b.advance b.front move.toNat }

def moveRear (b : MyRingBuffer α) (move : ℤ) : Except Stop (MyRingBuffer α) := do
  b.ringBufferAssert
  if move < 0 then return b.setFail .argmentSizeInvalid
  return { b with rear := b.advance b.rear move.toNat }

/-- The copy loops shared by `Peek` and `Dequeue`: in one piece, or up to the
end and on from `mBegin`. -/
def copyOut (b : MyRingBuffer α) (f r size : ℕ) : List α :=
  if size ≤ b.getDirectUseSize f r then load b.buffer f size
  else load b.buffer f (b.getDirectUseSize f r) ++
    load b.buffer 0 (size - b.getDirectUseSize f r)

/-- The copy loops of `Enqueue`. -/
def copyIn (b : MyRingBuffer α) (f r : ℕ) (src : List α) : ℕ → α :=
  if src.length ≤ b.getDirectFreeSize f r then store b.buffer r src
  else store (store b.buffer r (src.take (b.getDirectFreeSize f r))) 0
    (src.drop (b.getDirectFreeSize f r))

/-- `none` in the result is `dest` left unwritten. -/
def peek (b : MyRingBuffer α) (size : ℤ) : Except Stop (Option (List α) × MyRingBuffer α) :=
  if size < 0 then .error (.ringBufferAssert .argmentSizeInvalid)
  else if (b.getUseSize b.front b.rear : ℤ) < size then .ok (none, b.setFail .bufferEmpty)
  else .ok (some (b.copyOut b.front b.rear size.toNat), b)

def enqueue (b : MyRingBuffer α) (src : List α) : Except Stop (MyRingBuffer α) :=
  if b.getFreeSize b.front b.rear < src.length then .error (.ringBufferAssert .bufferFull)
  else { b with buffer := b.copyIn b.front b.rear src }.moveRear src.length

def dequeue (b : MyRingBuffer α) (size : ℤ) : Except Stop (List α × MyRingBuffer α) :=
  if size < 0 then .error (.ringBufferAssert .argmentSizeInvalid)
  else if (b.getUseSize b.front b.rear : ℤ) < size then .error (.ringBufferAssert .bufferEmpty)
  else .ok (b.copyOut b.front b.rear size.toNat, b.moveFront size)

/-! ### Pointers as positions

`H` and `T` count the cells ever read and ever written; `front` and `rear` are
the cells they stand at. -/

theorem advance_eq_mod (b : MyRingBuffer α) {p move : ℕ} (hp : p < b.size) (hm : move < b.size) :
    b.advance p move = (p + move) % b.size := by
  unfold advance
  split_ifs with h
  · rw [mod_wrap h (by omega)]
  · rw [Nat.mod_eq_of_lt (by omega)]

/-- Where the two pointers stand relative to each other: in order, or the
writer already round the end. -/
theorem mod_cases {N H T : ℕ} (h1 : H ≤ T) (h2 : T < H + N) :
    (H % N ≤ T % N ∧ T % N - H % N = T - H) ∨ (T % N < H % N ∧ N - H % N + T % N = T - H) := by
  have hN : 0 < N := by omega
  have hH := Nat.mod_lt H hN
  obtain ⟨d, rfl⟩ := Nat.exists_eq_add_of_le h1
  have hd : d < N := by omega
  rw [Nat.add_mod H d, Nat.mod_eq_of_lt hd]
  rcases Nat.lt_or_ge (H % N + d) N with h | h
  · left; rw [Nat.mod_eq_of_lt h]; omega
  · right; rw [mod_wrap h (by omega)]; omega

theorem getUseSize_mod (b : MyRingBuffer α) {H T : ℕ} (h1 : H ≤ T) (h2 : T < H + b.size) :
    b.getUseSize (H % b.size) (T % b.size) = T - H := by
  unfold getUseSize
  rcases mod_cases h1 h2 with ⟨ha, hb⟩ | ⟨ha, hb⟩
  · rw [if_pos ha, hb]
  · rw [if_neg (by omega), hb]

theorem getFreeSize_mod (b : MyRingBuffer α) {H T : ℕ} (h1 : H ≤ T) (h2 : T < H + b.size) :
    b.getFreeSize (H % b.size) (T % b.size) = b.size - 1 - (T - H) := by
  have hT := Nat.mod_lt T (show 0 < b.size by omega)
  have hH := Nat.mod_lt H (show 0 < b.size by omega)
  unfold getFreeSize
  rcases mod_cases h1 h2 with ⟨ha, hb⟩ | ⟨ha, hb⟩
  · rw [if_pos ha]; omega
  · rw [if_neg (by omega)]; omega

/-- What the producer's copy can do in one piece stops at the end; if that is
not all the room there is, it reaches the end. -/
theorem getDirectFreeSize_cases (b : MyRingBuffer α) {f r : ℕ} (hf : f < b.size) (hr : r < b.size) :
    r + b.getDirectFreeSize f r ≤ b.size ∧
      (b.getDirectFreeSize f r < b.getFreeSize f r → r + b.getDirectFreeSize f r = b.size) := by
  unfold getDirectFreeSize getFreeSize
  split_ifs <;> omega

theorem getDirectFreeSize_le (b : MyRingBuffer α) (f r : ℕ) :
    b.getDirectFreeSize f r ≤ b.getFreeSize f r := by
  unfold getDirectFreeSize getFreeSize
  split_ifs <;> omega

theorem getDirectUseSize_cases (b : MyRingBuffer α) {f r : ℕ} (hf : f < b.size) (hr : r < b.size) :
    f + b.getDirectUseSize f r ≤ b.size ∧
      (b.getDirectUseSize f r < b.getUseSize f r → f + b.getDirectUseSize f r = b.size) := by
  unfold getDirectUseSize getUseSize
  split_ifs <;> omega

/-! ### Contents -/

/-- Both pointers are inside the buffer and no operation has failed. -/
structure WF (b : MyRingBuffer α) : Prop where
  front_lt : b.front < b.size
  rear_lt : b.rear < b.size
  fail_nil : b.fail = []

/-- The cells in use. -/
def useSize (b : MyRingBuffer α) : ℕ := b.getUseSize b.front b.rear

/-- The cells `Enqueue` may still fill. -/
def freeSize (b : MyRingBuffer α) : ℕ := b.getFreeSize b.front b.rear

/-- What the buffer holds, oldest first. -/
def contents (b : MyRingBuffer α) : List α := window b.buffer b.size b.front b.useSize

@[simp] theorem contents_length (b : MyRingBuffer α) : b.contents.length = b.useSize := by
  simp [contents]

theorem new_wf {size : ℕ} (buffer : ℕ → α) (h : 0 < size) : (new size buffer).WF := ⟨h, h, rfl⟩

namespace WF

variable {b : MyRingBuffer α} (hb : b.WF)
include hb

theorem use_add_free : b.useSize + b.freeSize + 1 = b.size := by
  have := hb.front_lt
  have := hb.rear_lt
  unfold useSize freeSize getUseSize getFreeSize
  split_ifs <;> omega

theorem rear_eq : b.rear = (b.front + b.useSize) % b.size := by
  have h1 := hb.front_lt
  have h2 := hb.rear_lt
  unfold useSize getUseSize
  split_ifs with h
  · rw [Nat.mod_eq_of_lt (by omega)]; omega
  · rw [mod_wrap (by omega) (by omega)]; omega

theorem ringBufferAssert_eq : b.ringBufferAssert = .ok () := by
  unfold ringBufferAssert; rw [hb.fail_nil]

/-- A copy loop delivers the oldest cells, in one piece or two. -/
theorem copyOut_eq {n : ℕ} (hn : n ≤ b.useSize) :
    b.copyOut b.front b.rear n = b.contents.take n := by
  obtain ⟨h1, h2⟩ := b.getDirectUseSize_cases hb.front_lt hb.rear_lt
  rw [contents, window_take _ _ _ _ _ hn]
  unfold copyOut
  split_ifs with hd
  · exact load_eq_window (by omega)
  · have hend := h2 (by rw [useSize] at hn; omega)
    have hsz := hb.use_add_free
    obtain ⟨k, hk⟩ := Nat.exists_eq_add_of_le (Nat.le_of_not_le hd)
    rw [load_eq_window h1, hk, window_add, hend, Nat.add_sub_cancel_left,
      load_eq_window (N := b.size) (by omega)]
    congr 1
    exact window_congr_mod _ _ (by simp) _

theorem peek_eq {n : ℕ} (hn : n ≤ b.useSize) : b.peek n = .ok (some (b.contents.take n), b) := by
  unfold peek
  rw [if_neg (by omega), if_neg (by rw [useSize] at hn; omega)]
  simp [hb.copyOut_eq hn]

theorem dequeue_eq {n : ℕ} (hn : n ≤ b.useSize) :
    b.dequeue n = .ok (b.contents.take n, b.moveFront n) := by
  unfold dequeue
  rw [if_neg (by omega), if_neg (by rw [useSize] at hn; omega)]
  simp [hb.copyOut_eq hn]

theorem moveFront_eq (n : ℕ) : b.moveFront n = { b with front := b.advance b.front n } := by
  unfold moveFront
  rw [if_neg (by simp [isFail, hb.fail_nil]), if_neg (by omega), Int.toNat_natCast]

theorem moveFront_useSize {n : ℕ} (hn : n ≤ b.useSize) :
    (b.moveFront n).useSize = b.useSize - n := by
  have h0 := hb.use_add_free
  have h1 := b.getUseSize_mod (H := b.front + n) (T := b.front + b.useSize) (by omega) (by omega)
  rw [← hb.rear_eq, ← b.advance_eq_mod hb.front_lt (by omega)] at h1
  rw [hb.moveFront_eq]
  change b.getUseSize (b.advance b.front n) b.rear = _
  rw [h1]; omega

theorem moveFront_wf {n : ℕ} (hn : n ≤ b.useSize) : (b.moveFront n).WF := by
  have h0 := hb.use_add_free
  have h1 := hb.front_lt
  rw [hb.moveFront_eq]
  refine ⟨?_, hb.rear_lt, hb.fail_nil⟩
  simp only
  rw [b.advance_eq_mod h1 (by omega)]
  exact Nat.mod_lt _ (by omega)

theorem moveFront_contents {n : ℕ} (hn : n ≤ b.useSize) :
    (b.moveFront n).contents = b.contents.drop n := by
  have h0 := hb.use_add_free
  rw [contents, hb.moveFront_useSize hn, contents, window_drop]
  rw [hb.moveFront_eq]
  simp only
  rw [b.advance_eq_mod hb.front_lt (by omega), window_mod]

/-- Moving `rear` on publishes the cells it passes. -/
theorem moveRear_eq {n : ℕ} (hn : n ≤ b.freeSize) : ∃ b', b.moveRear n = .ok b' ∧ b'.WF ∧
    b'.size = b.size ∧ b'.contents = b.contents ++ window b.buffer b.size b.rear n := by
  have h0 := hb.use_add_free
  have h1 := hb.rear_lt
  refine ⟨{ b with rear := b.advance b.rear n }, ?_, ⟨hb.front_lt, ?_, hb.fail_nil⟩, rfl, ?_⟩
  · unfold moveRear
    rw [hb.ringBufferAssert_eq]
    simp only [bind, Except.bind]
    rw [if_neg (by omega), Int.toNat_natCast]
    rfl
  · simp only
    rw [b.advance_eq_mod h1 (by omega)]
    exact Nat.mod_lt _ (by omega)
  · have hr : b.advance b.rear n = (b.front + (b.useSize + n)) % b.size := by
      rw [b.advance_eq_mod h1 (by omega), hb.rear_eq, Nat.mod_add_mod, Nat.add_assoc]
    have hu : b.getUseSize b.front (b.advance b.rear n) = b.useSize + n := by
      have := b.getUseSize_mod (H := b.front) (T := b.front + (b.useSize + n)) (by omega) (by omega)
      rw [Nat.mod_eq_of_lt hb.front_lt] at this
      rw [hr, this]; omega
    have hu' : ({ b with rear := b.advance b.rear n } : MyRingBuffer α).useSize = b.useSize + n :=
      hu
    rw [contents, hu', contents, window_add]
    congr 1
    exact window_congr_mod _ _ (by rw [hb.rear_eq, Nat.mod_mod]) _

/-- A free cell, `j` places behind the contents, is none of theirs. -/
theorem free_ne {i j : ℕ} (hi : i < b.useSize) (hj : j ≤ b.freeSize) :
    (b.front + i) % b.size ≠ (b.rear + j) % b.size := by
  have h0 := hb.use_add_free
  rw [hb.rear_eq, Nat.mod_add_mod]
  exact mod_ne (by omega) (by omega)

/-- Straight copies into free cells leave the contents alone. -/
theorem window_store_free {mem : ℕ → α} {src : List α} {r k : ℕ} (hr : r = (b.rear + k) % b.size)
    (hend : r + src.length ≤ b.size) (hk : k + src.length ≤ b.freeSize + 1) :
    window (store mem r src) b.size b.front b.useSize = window mem b.size b.front b.useSize := by
  refine window_store_ne fun i hi => ?_
  by_contra hc
  obtain ⟨j, hj⟩ := Nat.exists_eq_add_of_le (show r ≤ (b.front + i) % b.size by omega)
  have hne := hb.free_ne hi (show k + j ≤ b.freeSize by omega)
  rw [hj, hr, ← Nat.add_assoc, Nat.add_mod (b.rear + k) j] at hne
  refine hne ?_
  rw [Nat.mod_eq_of_lt (show j < b.size by omega), ← hr, Nat.mod_eq_of_lt (by omega)]

/-- The copy loops of `Enqueue` fill the cells behind `rear` with the source
and leave the contents alone. -/
theorem copyIn_eq {src : List α} (hs : src.length ≤ b.freeSize) :
    window (b.copyIn b.front b.rear src) b.size b.rear src.length = src ∧
      window (b.copyIn b.front b.rear src) b.size b.front b.useSize = b.contents := by
  obtain ⟨h1, h2⟩ := b.getDirectFreeSize_cases hb.front_lt hb.rear_lt
  have h3 := hb.rear_lt
  have hr : b.rear = (b.rear + 0) % b.size := by rw [Nat.add_zero, Nat.mod_eq_of_lt h3]
  unfold copyIn
  split_ifs with hd
  · exact ⟨window_store (by omega), hb.window_store_free hr (by omega) (by omega)⟩
  · set d := b.getDirectFreeSize b.front b.rear with hd'
    have hend := h2 (by rw [freeSize] at hs; omega)
    have hz : 0 = (b.rear + d) % b.size := by rw [hend, Nat.mod_self]
    have hf := hb.use_add_free
    refine ⟨?_, ?_⟩
    · conv_lhs => rw [show src.length = d + (src.drop d).length by rw [List.length_drop]; omega]
      rw [window_add, window_congr_mod _ _ (hz.symm.trans (Nat.zero_mod _).symm)
        (src.drop d).length, window_store (by rw [List.length_drop]; omega)]
      conv_rhs => rw [← List.take_append_drop d src]
      congr 1
      have ht : (src.take d).length = d := by rw [List.length_take]; omega
      have hfill : window (store b.buffer b.rear (src.take d)) b.size b.rear (src.take d).length =
          src.take d := window_store (by omega)
      rw [ht] at hfill
      rw [window_store_ne, hfill]
      intro i hi
      rw [Nat.mod_eq_of_lt (by omega), List.length_drop]
      omega
    · rw [hb.window_store_free hz (by rw [List.length_drop]; omega)
        (by rw [List.length_drop]; omega),
        hb.window_store_free hr (by rw [List.length_take]; omega) (by rw [List.length_take]; omega)]
      rfl

/-- Cells filled behind `rear` and then published are appended. -/
theorem append_eq {mem : ℕ → α} {src : List α} (hs : src.length ≤ b.freeSize)
    (h1 : window mem b.size b.rear src.length = src)
    (h2 : window mem b.size b.front b.useSize = b.contents) :
    ∃ b', MyRingBuffer.moveRear { b with buffer := mem } src.length = .ok b' ∧ b'.WF ∧
      b'.size = b.size ∧ b'.contents = b.contents ++ src := by
  have hb' : WF { b with buffer := mem } := ⟨hb.front_lt, hb.rear_lt, hb.fail_nil⟩
  obtain ⟨b', e1, e2, e3, e4⟩ := hb'.moveRear_eq (n := src.length) hs
  refine ⟨b', e1, e2, e3, e4.trans ?_⟩
  simp only
  rw [h1]
  exact congrArg (· ++ src) h2

theorem enqueue_eq {src : List α} (hs : src.length ≤ b.freeSize) : ∃ b', b.enqueue src = .ok b' ∧
    b'.WF ∧ b'.size = b.size ∧ b'.contents = b.contents ++ src := by
  obtain ⟨h1, h2⟩ := hb.copyIn_eq hs
  obtain ⟨b', e⟩ := hb.append_eq hs h1 h2
  refine ⟨b', ?_⟩
  unfold enqueue
  rw [if_neg (by rw [freeSize] at hs; omega)]
  exact e

end WF

theorem enqueue_full {b : MyRingBuffer α} {src : List α} (h : b.freeSize < src.length) :
    b.enqueue src = .error (.ringBufferAssert .bufferFull) := if_pos h

end MyRingBuffer
end MyMMO
