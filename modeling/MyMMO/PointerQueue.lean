/-
# A ring buffer of pointers

The threads hand each other `Message*`s through a `MyRingBuffer`: `Enqueue`
and `Dequeue` of the eight bytes of the pointer. A cell holds one byte of a
pointer, so a buffer can be seen to hold whole pointers or not; one that does
(`Holds`) is a queue, of at most `POINTER_CAPACITY` pointers.
-/
import MyMMO.RingBuffer

namespace MyMMO

/-- `sizeof(size_t)`, `sizeof(utility::Message*)`. -/
def POINTER_SIZE : ℕ := 8

/-- How many pointers a buffer of `RINGBUFFER_SIZE` bytes can hold. -/
def POINTER_CAPACITY : ℕ := (RINGBUFFER_SIZE - 1) / POINTER_SIZE

variable {β : Type}

/-- The bytes of a pointer to `x`. -/
def pointerBytes (x : β) : List (β × ℕ) := (List.range POINTER_SIZE).map fun i => (x, i)

/-- The pointer some bytes are. -/
def readPointer (bytes : List (β × ℕ)) : Option β := bytes.head?.map Prod.fst

@[simp] theorem pointerBytes_length (x : β) : (pointerBytes x).length = POINTER_SIZE := by
  simp [pointerBytes]

@[simp] theorem readPointer_pointerBytes (x : β) : readPointer (pointerBytes x) = some x := rfl

/-- The buffer holds pointers to `xs`, oldest first. -/
structure Holds (b : MyRingBuffer (β × ℕ)) (xs : List β) : Prop where
  wf : b.WF
  size_eq : b.size = RINGBUFFER_SIZE
  contents : b.contents = xs.flatMap pointerBytes

namespace Holds

variable {b : MyRingBuffer (β × ℕ)} {x : β} {xs : List β}

theorem new (buffer : ℕ → β × ℕ) : Holds (.new RINGBUFFER_SIZE buffer) [] :=
  ⟨MyRingBuffer.new_wf _ (by decide), rfl, rfl⟩

theorem useSize_eq (h : Holds b xs) : b.useSize = POINTER_SIZE * xs.length := by
  rw [← b.contents_length, h.contents]
  simp [List.length_flatMap, Nat.mul_comm]

/-- There is room for a pointer as long as fewer than `POINTER_CAPACITY` are held. -/
theorem room_iff (h : Holds b xs) : POINTER_SIZE ≤ b.freeSize ↔ xs.length < POINTER_CAPACITY := by
  have h1 := h.wf.use_add_free
  rw [h.useSize_eq, h.size_eq] at h1
  simp only [POINTER_CAPACITY, POINTER_SIZE, RINGBUFFER_SIZE] at *
  omega

theorem length_le (h : Holds b xs) : xs.length ≤ POINTER_CAPACITY := by
  have h1 := h.wf.use_add_free
  rw [h.useSize_eq, h.size_eq] at h1
  simp only [POINTER_CAPACITY, POINTER_SIZE, RINGBUFFER_SIZE] at *
  omega

/-- There is something to take out exactly if the used size is a pointer's. -/
theorem use_lt_iff (h : Holds b xs) : b.useSize < POINTER_SIZE ↔ xs = [] := by
  rw [h.useSize_eq, ← List.length_eq_zero_iff]
  simp only [POINTER_SIZE]
  omega

theorem enqueue (h : Holds b xs) (hroom : xs.length < POINTER_CAPACITY) (x : β) :
    ∃ b', b.enqueue (pointerBytes x) = .ok b' ∧ Holds b' (xs ++ [x]) := by
  have hfree : (pointerBytes x).length ≤ b.freeSize := by
    rw [pointerBytes_length]; exact h.room_iff.mpr hroom
  obtain ⟨b', h1, h2, h3, h4⟩ := h.wf.enqueue_eq hfree
  refine ⟨b', h1, h2, h3.trans h.size_eq, ?_⟩
  rw [h4, h.contents, List.flatMap_append, List.flatMap_singleton]

/-- At `POINTER_CAPACITY` the next pointer does not fit. -/
theorem enqueue_full (h : Holds b xs) (hfull : POINTER_CAPACITY ≤ xs.length) (x : β) :
    b.enqueue (pointerBytes x) = .error (.ringBufferAssert .bufferFull) := by
  refine MyRingBuffer.enqueue_full ?_
  have := h.room_iff.not
  rw [pointerBytes_length]
  omega

theorem dequeue (h : Holds b (x :: xs)) :
    ∃ b', b.dequeue POINTER_SIZE = .ok (pointerBytes x, b') ∧ Holds b' xs := by
  have hn : POINTER_SIZE ≤ b.useSize := by
    rw [h.useSize_eq, List.length_cons, Nat.mul_succ]; omega
  have hx : b.contents = pointerBytes x ++ xs.flatMap pointerBytes := by
    rw [h.contents, List.flatMap_cons]
  refine ⟨b.moveFront POINTER_SIZE, ?_, h.wf.moveFront_wf hn, ?_, ?_⟩
  · rw [h.wf.dequeue_eq hn, hx, ← pointerBytes_length x, List.take_left]
  · rw [h.wf.moveFront_eq]; exact h.size_eq
  · rw [h.wf.moveFront_contents hn, hx, ← pointerBytes_length x, List.drop_left]

end Holds
end MyMMO
