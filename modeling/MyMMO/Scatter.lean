/-
# What a receive may write

`NetworkLib::registerRecv` gives the kernel the free cells of the receive buffer in one region or
two. They are inside the buffer, apart from each other and from what is still unread, and all the
room there is (`regions_of_wsabufs`), and what the kernel writes into them is, with `MoveRear`
behind it, an `Enqueue` (`moveRear_scatter`).

The client's `recvThread` hands out one region, from `mRear` on, and stops at an empty one; there is
one as long as there is room at all (`getDirectFreeSize_eq_zero_iff`).
-/
import MyMMO.ClientRecv

namespace MyMMO

open Circular

namespace MyRingBuffer

variable {α : Type} (b : MyRingBuffer α)

/-- The cells that hold what is not read yet. -/
def Unread (p : ℕ) : Prop := ∃ i < b.useSize, p = (b.front + i) % b.size

instance (p : ℕ) : Decidable (b.Unread p) := Nat.decidableExistsLT _

variable {b} (hb : b.WF)
include hb

/-- A cell up to `freeSize` places behind `rear` is not one of them. -/
theorem WF.not_unread {j : ℕ} (hj : j < b.freeSize) : ¬b.Unread ((b.rear + j) % b.size) := by
  rintro ⟨i, hi, heq⟩
  exact hb.free_ne hi hj.le heq.symm

/-- The direct room is some of the room, and ends at the buffer's end if it is not all of it. -/
theorem WF.directFreeSize : b.rear + b.getDirectFreeSize b.front b.rear ≤ b.size ∧
    b.getDirectFreeSize b.front b.rear ≤ b.freeSize ∧
      (b.getDirectFreeSize b.front b.rear < b.freeSize →
        b.rear + b.getDirectFreeSize b.front b.rear = b.size) := by
  obtain ⟨hend, hrest⟩ := b.getDirectFreeSize_cases hb.front_lt hb.rear_lt
  exact ⟨hend, b.getDirectFreeSize_le _ _, fun h => hrest h⟩

theorem WF.getDirectFreeSize_eq_zero_iff :
    b.getDirectFreeSize b.front b.rear = 0 ↔ b.getFreeSize b.front b.rear = 0 := by
  have hfront := hb.front_lt
  have hrear := hb.rear_lt
  unfold getDirectFreeSize getFreeSize
  by_cases horder : b.front ≤ b.rear
  · rw [if_pos horder, if_pos horder]
    by_cases hzero : b.front = 0
    · rw [if_pos hzero, hzero, Nat.add_zero]
    · rw [if_neg hzero]
      omega
  · rw [if_neg horder, if_neg horder]

end MyRingBuffer

namespace Receiver

/-- The cells of a `WSABUF`. -/
def Region (buf : ℕ × ℕ) (p : ℕ) : Prop := buf.1 ≤ p ∧ p < buf.1 + buf.2

instance (buf : ℕ × ℕ) (p : ℕ) : Decidable (Region buf p) := inferInstanceAs (Decidable (_ ∧ _))

/-- Regions that the kernel may fill: inside the buffer, apart from each other and from the unread
cells, and as large as the room in it. -/
structure Regions (b : MyRingBuffer UInt8) (bufs : List (ℕ × ℕ)) : Prop where
  count : bufs.length = 1 ∨ bufs.length = 2
  inside : ∀ buf ∈ bufs, buf.1 + buf.2 ≤ b.size
  apart : bufs.Pairwise fun buf buf' => ∀ p, ¬(Region buf p ∧ Region buf' p)
  free : ∀ buf ∈ bufs, ∀ p, Region buf p → ¬b.Unread p
  total : (bufs.map Prod.snd).sum = b.freeSize

variable {b : MyRingBuffer UInt8} (hb : b.WF)
include hb

/-- Behind `rear` up to the end, or as far as there is room. -/
theorem free_direct {p : ℕ} (hp : Region (b.rear, b.getDirectFreeSize b.front b.rear) p) :
    ¬b.Unread p := by
  obtain ⟨hend, hle, -⟩ := hb.directFreeSize
  obtain ⟨hge, hlt⟩ := hp
  dsimp only at hge hlt
  have hcell : p = (b.rear + (p - b.rear)) % b.size := by rw [Nat.mod_eq_of_lt (by omega)]; omega
  rw [hcell]
  exact hb.not_unread (by omega)

/-- The rest of the room, from the beginning on. -/
theorem free_rest {p : ℕ} (hp : Region (0, b.freeSize - b.getDirectFreeSize b.front b.rear) p) :
    ¬b.Unread p := by
  obtain ⟨-, -, hrest⟩ := hb.directFreeSize
  have hlt : p < b.freeSize - b.getDirectFreeSize b.front b.rear := by simpa using hp.2
  have hsize := hb.use_add_free
  have hcell : p = (b.rear + (b.getDirectFreeSize b.front b.rear + p)) % b.size := by
    rw [← Nat.add_assoc, hrest (by omega), Nat.add_mod_left, Nat.mod_eq_of_lt (by omega)]
  rw [hcell]
  exact hb.not_unread (by omega)

theorem regions_of_wsabufs : Regions b (wsabufs b) := by
  obtain ⟨hend, hle, hrest⟩ := hb.directFreeSize
  have hsize := hb.use_add_free
  have hfree : b.getFreeSize b.front b.rear = b.freeSize := rfl
  have hrear := hb.rear_lt
  unfold wsabufs
  rw [hfree]
  dsimp only
  by_cases hwrap : b.freeSize - b.getDirectFreeSize b.front b.rear = 0
  · rw [if_neg (not_not.mpr hwrap)]
    refine ⟨Or.inl rfl, ?_, List.pairwise_singleton _ _, ?_, ?_⟩
    · simpa using hend
    · simpa using fun p => free_direct hb
    · show b.getDirectFreeSize b.front b.rear + 0 = b.freeSize
      omega
  · rw [if_pos hwrap]
    have hlast := hrest (by omega)
    refine ⟨Or.inr rfl, ?_, List.pairwise_pair.mpr ?_, ?_, ?_⟩
    · simp only [List.mem_cons, List.not_mem_nil, or_false, forall_eq_or_imp, forall_eq]
      omega
    · -- the second ends before the first begins: one cell is always left free
      rintro p ⟨⟨hge, -⟩, -, hlt⟩
      dsimp only at hge hlt
      omega
    · simp only [List.mem_cons, List.not_mem_nil, or_false, forall_eq_or_imp, forall_eq]
      exact ⟨fun p => free_direct hb, fun p => free_rest hb⟩
    · show b.getDirectFreeSize b.front b.rear +
        (b.freeSize - b.getDirectFreeSize b.front b.rear + 0) = b.freeSize
      omega

omit hb in
/-- Writing into the regions and moving `rear` on is what `Enqueue` does, to the last cell. -/
theorem moveRear_scatter {bytes : List UInt8} (hfit : bytes.length ≤ b.freeSize) :
    MyRingBuffer.moveRear { b with buffer := scatter b.buffer (wsabufs b) bytes } bytes.length =
      b.enqueue bytes := by
  unfold MyRingBuffer.enqueue
  have hroom : ¬b.getFreeSize b.front b.rear < bytes.length := Nat.not_lt.mpr hfit
  rw [scatter_wsabufs b hfit, if_neg hroom]

omit hb in
/-- What a live session posts. -/
theorem registerRecv_wsabuf {s : Receiver} (hlive : s.live = true)
    (hfree : s.recvBuffer.freeSize ≠ 0) :
    (registerRecv s).wsabuf = some (wsabufs s.recvBuffer) := by
  have hroom : ¬s.recvBuffer.getFreeSize s.recvBuffer.front s.recvBuffer.rear = 0 := hfree
  unfold registerRecv
  rw [if_neg hroom, if_pos hlive]

end Receiver

/-- The regions of a session with room in its buffer; `bytes` is anything the kernel may deliver.
And the client's `recvThread` only stops for want of room. -/
theorem scatter_is_enqueue :
    (∀ s : Receiver, s.recvBuffer.WF → s.recvBuffer.freeSize ≠ 0 →
      (s.live = true → s.registerRecv.wsabuf = some (Receiver.wsabufs s.recvBuffer)) ∧
      Receiver.Regions s.recvBuffer (Receiver.wsabufs s.recvBuffer) ∧
      ∀ bytes : List UInt8, bytes.length ≤ s.recvBuffer.freeSize → ∃ b,
        MyRingBuffer.moveRear { s.recvBuffer with
          buffer := Receiver.scatter s.recvBuffer.buffer
              (Receiver.wsabufs s.recvBuffer) bytes } bytes.length = .ok b ∧
        s.recvBuffer.enqueue bytes = .ok b ∧ b.contents = s.recvBuffer.contents ++ bytes) ∧
    (∀ b : MyRingBuffer UInt8, b.WF →
      (b.getDirectFreeSize b.front b.rear = 0 ↔ b.getFreeSize b.front b.rear = 0)) ∧
    ∀ (c : Network) (chunk : List UInt8 × (ℕ → ℕ)), c.recvBuffer.WF → c.recvBuffer.freeSize ≠ 0 →
      c.recvThread chunk =
        (MyRingBuffer.moveRear
          { c.recvBuffer with buffer := store c.recvBuffer.buffer c.recvBuffer.rear chunk.1 }
          chunk.1.length).bind fun b =>
        Network.unmarshal chunk.2 (b.getUseSize b.front b.rear + 1) 0
          { c with recvBuffer := b } := by
  refine ⟨fun s hwf hfree => ⟨fun hlive => Receiver.registerRecv_wsabuf hlive hfree,
    Receiver.regions_of_wsabufs hwf, fun bytes hfit => ?_⟩,
    fun b hwf => hwf.getDirectFreeSize_eq_zero_iff, fun c chunk hwf hfree => ?_⟩
  · obtain ⟨b, hok, -, -, hcontents⟩ := hwf.enqueue_eq hfit
    exact ⟨b, (Receiver.moveRear_scatter hfit).trans hok, hok, hcontents⟩
  · unfold Network.recvThread
    rw [if_neg fun hzero => hfree (hwf.getDirectFreeSize_eq_zero_iff.mp hzero)]
    rfl

/-- Of eight cells the fourth to the sixth are unread; there are four to fill, in two regions. -/
def wrapped : Receiver := ⟨⟨0, 1⟩, ⟨8, fun p => UInt8.ofNat p, 3, 6, []⟩, true, none⟩

theorem scatter_is_enqueue_wrapped : Receiver.Regions wrapped.recvBuffer [(6, 2), (0, 2)] ∧
    ∃ b, wrapped.recvBuffer.enqueue
      [10, 11, 12] = .ok b ∧ b.contents = wrapped.recvBuffer.contents ++ [10, 11, 12] := by
  have h := scatter_is_enqueue.1 wrapped ⟨by decide, by decide, rfl⟩ (by decide)
  obtain ⟨b, -, hok, hcontents⟩ := h.2.2 [10, 11, 12] (by decide)
  exact ⟨h.2.1, b, hok, hcontents⟩

end MyMMO
