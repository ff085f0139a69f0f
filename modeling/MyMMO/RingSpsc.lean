/-
# MyRingBuffer between one producer and one consumer

The lock-free use of the ring buffer: one thread enqueues, one peeks and
dequeues, and nothing but the two pointers is shared. Every step is one the
threads can interleave at: a caller's test of the free or used size, the
snapshot of `mFront` and `mRear` at the start of `Enqueue`, `Peek` or
`Dequeue`, the copy of one byte, the jump back to `mBegin`, and the
publication by `MoveRear` or `MoveFront`. The other side's pointer may move on
after every one of them, so all that a thread works on is stale.

The abstract meaning is the bounded queue of `Lib/Fifo.lean`: a published
`Enqueue` pushes its whole block, a published `Dequeue` pops, everything else
does nothing (`simulation`).
-/
import MyMMO.RingBuffer
import MyMMO.Lib.Fifo

namespace MyMMO
namespace Spsc

open Circular

/-- Where the producer stands. In the copy loops, `todo` is what the loop it is
in has left to copy to `ptr`, and `next` what the second loop will copy. -/
inductive ProducerPc (α : Type)
  | idle
  | checked (src : List α)
  | copying (ptr : ℕ) (todo next src : List α)
  | failed

/-- Where the consumer stands, in `Peek` or in `Dequeue`; `dest` is what the
copy loops have delivered. -/
inductive ConsumerPc (α : Type)
  | idle
  | checked (size : ℕ) (peek : Bool)
  | copying (ptr todo next size : ℕ) (peek : Bool) (dest : List α)
  | failed

/-- The buffer, the two threads, the bytes of all published calls, and the
result of the last `Peek` since the last `Dequeue`. -/
structure State (α : Type) where
  ring : MyRingBuffer α
  producer : ProducerPc α
  consumer : ConsumerPc α
  enqueued : List α
  dequeued : List α
  peeked : List α

inductive Step (α : Type)
  | seeFree (src : List α)
  | enqueueSnapshot
  | enqueueCopy
  | enqueueTurn
  | moveRear
  | seeUse (size : ℕ) (peek : Bool)
  | dequeueSnapshot
  | dequeueCopy
  | dequeueTurn
  | moveFront

variable {α : Type}

/-- The caller's test, then `Enqueue` line by line. -/
def producerStep (s : State α) : ProducerPc α → Step α → Option (State α)
  | .idle, .seeFree src =>
    if src.length ≤ s.ring.getFreeSize s.ring.front s.ring.rear then
      some { s with producer := .checked src }
    else some s
  | .checked src, .enqueueSnapshot =>
    if s.ring.getFreeSize s.ring.front s.ring.rear < src.length then
      some { s with ring := s.ring.setFail .bufferFull, producer := .failed }
    else
      -- one loop if the block fits in one piece, else up to the end and on from `mBegin`
      let directFreeSize := s.ring.getDirectFreeSize s.ring.front s.ring.rear
      some { s with
        producer := .copying s.ring.rear (src.take directFreeSize) (src.drop directFreeSize) src }
  | .copying ptr (x :: todo) next src, .enqueueCopy =>
    some { s with
      ring := { s.ring with buffer := Function.update s.ring.buffer ptr x }
      producer := .copying (ptr + 1) todo next src }
  | .copying _ [] (x :: next) src, .enqueueTurn =>
    some { s with producer := .copying 0 (x :: next) [] src }
  | .copying _ [] [] src, .moveRear =>
    match s.ring.moveRear src.length with
    | .ok ring => some { s with ring, producer := .idle, enqueued := s.enqueued ++ src }
    | .error _ => some { s with producer := .failed }
  | _, _ => none

/-- The caller's test, then `Peek` or `Dequeue` line by line. -/
def consumerStep (s : State α) : ConsumerPc α → Step α → Option (State α)
  | .idle, .seeUse size peek =>
    if size ≤ s.ring.getUseSize s.ring.front s.ring.rear then
      some { s with consumer := .checked size peek }
    else some s
  | .checked size peek, .dequeueSnapshot =>
    if s.ring.getUseSize s.ring.front s.ring.rear < size then
      some { s with ring := s.ring.setFail .bufferEmpty, consumer := .failed }
    else
      let directUseSize := s.ring.getDirectUseSize s.ring.front s.ring.rear
      some { s with
        consumer := .copying s.ring.front (min size directUseSize)
          (size - directUseSize) size peek [] }
  | .copying ptr (todo + 1) next size peek dest, .dequeueCopy =>
    some { s with consumer := .copying (ptr + 1) todo next size peek (dest ++ [s.ring.buffer ptr]) }
  | .copying _ 0 (next + 1) size peek dest, .dequeueTurn =>
    some { s with consumer := .copying 0 (next + 1) 0 size peek dest }
  | .copying _ 0 0 size peek dest, .moveFront =>
    if peek then some { s with consumer := .idle, peeked := dest }
    else some { s with
      ring := s.ring.moveFront size
      consumer := .idle
      dequeued := s.dequeued ++ dest
      peeked := [] }
  | _, _ => none

/-- A step of either thread. -/
def next (s : State α) (a : Step α) : Option (State α) :=
  match a with
  | .seeFree _ | .enqueueSnapshot | .enqueueCopy | .enqueueTurn | .moveRear =>
    producerStep s s.producer a
  | _ => consumerStep s s.consumer a

/-- Nothing enqueued yet, both threads outside. -/
def initial (size : ℕ) (buffer : ℕ → α) : State α :=
  ⟨.new size buffer, .idle, .idle, [], [], []⟩

/-- One producer and one consumer on a buffer of `size` cells. -/
def spsc (α : Type) (size : ℕ) : System (State α) (Step α) where
  init s := ∃ buffer, s = initial size buffer
  next := next

/-! ### The invariant

`H` and `T` count the bytes dequeued and enqueued so far, so the pointers
stand at cells `H % N` and `T % N`. A thread's stale snapshot only ever
understates what it may use: once the producer has seen room for its block it
keeps it, since only the producer fills cells, and once the consumer has seen
bytes they stay, since only the consumer frees them. -/

/-- What the producer has in hand: room for its block, and in the copy loops
the bytes already copied, unpublished behind `rear`. -/
def ProducerInv (N H T : ℕ) (buffer : ℕ → α) : ProducerPc α → Prop
  | .idle => True
  | .checked src => T + src.length < H + N
  | .copying ptr todo next src => T + src.length < H + N ∧
      ptr + todo.length ≤ N ∧ (next ≠ [] → ptr + todo.length = N) ∧
      ∃ done, src = done ++ todo ++ next ∧ window buffer N T done.length = done ∧
        ptr % N = (T + done.length) % N
  | .failed => False

/-- What the consumer has in hand: the bytes it saw, and in the copy loops the
first of them in `dest`. -/
def ConsumerInv (N H : ℕ) (enqueued : List α) : ConsumerPc α → Prop
  | .idle => True
  | .checked size _ => H + size ≤ enqueued.length
  | .copying ptr todo next size _ dest => H + size ≤ enqueued.length ∧
      ptr + todo ≤ N ∧ (0 < next → ptr + todo = N) ∧
      dest.length + todo + next = size ∧ dest = (enqueued.drop H).take dest.length ∧
      ptr % N = (H + dest.length) % N
  | .failed => False

/-- The invariant of every interleaving. -/
structure Inv (N : ℕ) (s : State α) : Prop where
  size_eq : s.ring.size = N
  le : s.dequeued.length ≤ s.enqueued.length
  room : s.enqueued.length < s.dequeued.length + N
  front_eq : s.ring.front = s.dequeued.length % N
  rear_eq : s.ring.rear = s.enqueued.length % N
  fail_nil : s.ring.fail = []
  held : window s.ring.buffer N s.dequeued.length (s.enqueued.length - s.dequeued.length) =
    s.enqueued.drop s.dequeued.length
  dequeued_prefix : s.dequeued <+: s.enqueued
  peeked_prefix : s.peeked <+: s.enqueued.drop s.dequeued.length
  producer : ProducerInv N s.dequeued.length s.enqueued.length s.ring.buffer s.producer
  consumer : ConsumerInv N s.dequeued.length s.enqueued s.consumer

namespace Inv

variable {N : ℕ} {s t : State α} (h : Inv N s)
include h

theorem useSize_eq : s.ring.getUseSize s.ring.front s.ring.rear =
    s.enqueued.length - s.dequeued.length := by
  rw [h.front_eq, h.rear_eq, ← h.size_eq]
  exact s.ring.getUseSize_mod h.le (by rw [h.size_eq]; exact h.room)

theorem freeSize_eq : s.ring.getFreeSize s.ring.front s.ring.rear =
    N - 1 - (s.enqueued.length - s.dequeued.length) := by
  rw [h.front_eq, h.rear_eq, ← h.size_eq]
  exact s.ring.getFreeSize_mod h.le (by rw [h.size_eq]; exact h.room)

theorem front_lt : s.ring.front < s.ring.size := by
  have := h.room
  have := h.le
  rw [h.front_eq, h.size_eq]; exact Nat.mod_lt _ (by omega)

theorem rear_lt : s.ring.rear < s.ring.size := by
  have := h.room
  have := h.le
  rw [h.rear_eq, h.size_eq]; exact Nat.mod_lt _ (by omega)

/-- Only the producer moved. -/
theorem of_producer {p : ProducerPc α}
    (hp : ProducerInv N s.dequeued.length s.enqueued.length s.ring.buffer p) :
    Inv N { s with producer := p } :=
  ⟨h.size_eq, h.le, h.room, h.front_eq, h.rear_eq, h.fail_nil, h.held, h.dequeued_prefix,
    h.peeked_prefix, hp, h.consumer⟩

/-- Only the consumer moved. -/
theorem of_consumer {c : ConsumerPc α} (hc : ConsumerInv N s.dequeued.length s.enqueued c) :
    Inv N { s with consumer := c } :=
  ⟨h.size_eq, h.le, h.room, h.front_eq, h.rear_eq, h.fail_nil, h.held, h.dequeued_prefix,
    h.peeked_prefix, h.producer, hc⟩

/-! ### The producer's steps -/

theorem seeFree {src : List α} (he : next s (.seeFree src) = some t) : Inv N t := by
  rcases hp : s.producer with _ | _ | _ |
      _ <;> (unfold next producerStep at he; simp only [hp] at he)
  case idle =>
    split at he
    · rename_i hs
      cases he
      rw [h.freeSize_eq] at hs
      have := h.room
      have := h.le
      exact h.of_producer (by simp only [ProducerInv]; omega)
    · cases he; exact h
  all_goals cases he

theorem enqueueSnapshot (he : next s .enqueueSnapshot = some t) : Inv N t := by
  rcases hp : s.producer with _ | src | _ |
      _ <;> (unfold next producerStep at he; simp only [hp] at he)
  case checked =>
    have hi := h.producer
    simp only [hp, ProducerInv] at hi
    have hfree := h.freeSize_eq
    have := h.room
    have := h.le
    split at he
    · omega
    · cases he
      obtain ⟨h1, h2⟩ := s.ring.getDirectFreeSize_cases h.front_lt h.rear_lt
      rw [h.size_eq] at h1 h2
      set d := s.ring.getDirectFreeSize s.ring.front s.ring.rear with hd
      refine h.of_producer ⟨hi, ?_, fun hne => ?_, [], ?_, rfl, ?_⟩
      · rw [List.length_take]; omega
      · rw [ne_eq, List.drop_eq_nil_iff] at hne
        rw [List.length_take]; omega
      · simp
      · rw [h.rear_eq, Nat.mod_mod]; simp
  all_goals cases he

theorem enqueueCopy (he : next s .enqueueCopy = some t) : Inv N t := by
  rcases hp : s.producer with _ | _ | ⟨ptr, todo, rest, src⟩ | _
  case copying =>
    rcases todo with _ | ⟨x, todo⟩ <;> (unfold next producerStep at he; simp only [hp] at he)
    · cases he
    cases he
    have hi := h.producer
    simp only [hp, ProducerInv, List.length_cons] at hi
    obtain ⟨h1, h2, h3, done, h4, h5, h6⟩ := hi
    have hlen := congrArg List.length h4
    simp only [List.length_append, List.length_cons] at hlen
    have hle := h.le
    -- the byte goes right behind those already copied, ahead of everything unread
    have hptr : ptr = (s.enqueued.length + done.length) % N := by
      rw [← h6, Nat.mod_eq_of_lt (by omega)]
    refine ⟨h.size_eq, h.le, h.room, h.front_eq, h.rear_eq, h.fail_nil, ?_, h.dequeued_prefix,
      h.peeked_prefix, ⟨h1, by omega, fun hne => ?_, done ++ [x], by simp [h4], ?_, ?_⟩,
      h.consumer⟩
    · dsimp only
      rw [hptr, window_update_ahead (by omega) (by omega)]
      exact h.held
    · have := h3 hne; omega
    · rw [List.length_append, List.length_singleton, hptr, window_update_snoc (by omega), h5]
    · rw [List.length_append, List.length_singleton, ← Nat.add_assoc, Nat.add_mod, h6,
        ← Nat.add_mod]
  all_goals
    unfold next producerStep at he
    simp [hp] at he

theorem enqueueTurn (he : next s .enqueueTurn = some t) : Inv N t := by
  rcases hp : s.producer with _ | _ | ⟨ptr, todo, rest, src⟩ | _
  case copying =>
    rcases todo with _ | ⟨x, todo⟩ <;> rcases rest with _ | ⟨y, rest⟩ <;>
      (unfold next producerStep at he; simp only [hp] at he)
    case nil.cons =>
      cases he
      have hi := h.producer
      simp only [hp, ProducerInv, List.length_nil] at hi
      obtain ⟨h1, h2, h3, done, h4, h5, h6⟩ := hi
      have hlen := congrArg List.length h4
      simp only [List.append_nil, List.length_append, List.length_cons] at hlen
      have hle := h.le
      have hroom := h.room
      have hptr := h3 (by simp)
      refine h.of_producer ⟨h1, by simp only [List.length_cons]; omega, fun hne => absurd rfl hne,
        done, by simp [h4], h5, ?_⟩
      rw [← h6, show ptr = N by omega, Nat.mod_self, Nat.zero_mod]
    all_goals cases he
  all_goals
    unfold next producerStep at he
    simp [hp] at he

theorem moveRear (he : next s .moveRear = some t) :
    Inv N t ∧ ∃ src, t.enqueued = s.enqueued ++ src ∧ t.dequeued = s.dequeued := by
  rcases hp : s.producer with _ | _ | ⟨ptr, todo, rest, src⟩ | _
  case copying =>
    rcases todo with _ | ⟨x, todo⟩ <;> rcases rest with _ | ⟨y, rest⟩ <;>
      (unfold next producerStep at he; simp only [hp] at he)
    case nil.nil =>
      have hi := h.producer
      simp only [hp, ProducerInv] at hi
      obtain ⟨h1, -, -, done, h4, h5, -⟩ := hi
      simp only [List.append_nil] at h4
      subst h4
      have hle := h.le
      have hmv : s.ring.moveRear src.length =
          .ok { s.ring with rear := s.ring.advance s.ring.rear src.length } := by
        simp [MyRingBuffer.moveRear, MyRingBuffer.ringBufferAssert, h.fail_nil, bind, Except.bind,
          pure, Except.pure]
      rw [hmv] at he
      cases he
      refine ⟨⟨h.size_eq, ?_, ?_, h.front_eq, ?_, h.fail_nil, ?_, ?_, ?_, trivial, ?_⟩,
        src, rfl, rfl⟩
      · simp only [List.length_append]; omega
      · simp only [List.length_append]; omega
      · simp only [List.length_append]
        rw [s.ring.advance_eq_mod h.rear_lt (by rw [h.size_eq]; omega), h.rear_eq, h.size_eq,
          Nat.mod_add_mod]
      · simp only [List.length_append]
        rw [show s.enqueued.length + src.length - s.dequeued.length =
            (s.enqueued.length - s.dequeued.length) + src.length by omega, window_add, h.held,
          show s.dequeued.length + (s.enqueued.length - s.dequeued.length) = s.enqueued.length by
            omega,
          h5, List.drop_append_of_le_length hle]
      · exact h.dequeued_prefix.trans (List.prefix_append _ _)
      · simp only
        rw [List.drop_append_of_le_length hle]
        exact h.peeked_prefix.trans (List.prefix_append _ _)
      · have hc := h.consumer
        rcases hcp : s.consumer with _ | ⟨size, peek⟩ | ⟨p, k, m, size, peek, dest⟩ | _ <;>
          simp only [hcp, ConsumerInv] at hc ⊢
        · simp only [List.length_append]; omega
        · obtain ⟨c1, c2, c3, c4, c5, c6⟩ := hc
          refine ⟨by simp only [List.length_append]; omega, c2, c3, c4, ?_, c6⟩
          rw [List.drop_append_of_le_length hle, List.take_append_of_le_length]
          · exact c5
          · rw [List.length_drop]; omega
    all_goals cases he
  all_goals
    unfold next producerStep at he
    simp [hp] at he

/-! ### The consumer's steps -/

theorem seeUse {size : ℕ} {peek : Bool} (he : next s (.seeUse size peek) = some t) : Inv N t := by
  rcases hc : s.consumer with _ | _ | _ |
      _ <;> (unfold next consumerStep at he; simp only [hc] at he)
  case idle =>
    split at he
    · rename_i hs
      cases he
      rw [h.useSize_eq] at hs
      have := h.le
      exact h.of_consumer (by simp only [ConsumerInv]; omega)
    · cases he; exact h
  all_goals cases he

theorem dequeueSnapshot (he : next s .dequeueSnapshot = some t) : Inv N t := by
  rcases hc : s.consumer with _ | ⟨size, peek⟩ | _ |
      _ <;> (unfold next consumerStep at he; simp only [hc] at he)
  case checked =>
    have hi := h.consumer
    simp only [hc, ConsumerInv] at hi
    have huse := h.useSize_eq
    have := h.le
    split at he
    · omega
    · cases he
      obtain ⟨h1, h2⟩ := s.ring.getDirectUseSize_cases h.front_lt h.rear_lt
      rw [h.size_eq] at h1 h2
      refine h.of_consumer ⟨hi, by omega, fun hn => by omega, ?_, by simp, ?_⟩
      · simp only [List.length_nil]; omega
      · rw [h.front_eq, Nat.mod_mod]; simp
  all_goals cases he

theorem dequeueCopy (he : next s .dequeueCopy = some t) : Inv N t := by
  rcases hc : s.consumer with _ | _ | ⟨ptr, todo, rest, size, peek, dest⟩ | _
  case copying =>
    rcases todo with _ | todo <;> (unfold next consumerStep at he; simp only [hc] at he)
    · cases he
    cases he
    have hi := h.consumer
    simp only [hc, ConsumerInv] at hi
    obtain ⟨h1, h2, h3, h4, h5, h6⟩ := hi
    -- the byte read is the next of those held: the producer writes behind them
    have hbyte : s.enqueued.drop s.dequeued.length = window s.ring.buffer N s.dequeued.length
        (s.enqueued.length - s.dequeued.length) := h.held.symm
    refine h.of_consumer ⟨h1, by omega, fun hn => by have := h3 hn; omega, ?_, ?_, ?_⟩
    · simp only [List.length_append, List.length_singleton]; omega
    · rw [List.length_append, List.length_singleton, hbyte, window_take _ _ _ _ _ (by omega),
        window_succ, ← window_take _ _ _ (s.enqueued.length - s.dequeued.length) _ (by omega),
        h.held, ← h5]
      congr 2
      rw [← h6, Nat.mod_eq_of_lt (by omega)]
    · rw [List.length_append, List.length_singleton, ← Nat.add_assoc, Nat.add_mod, h6,
        ← Nat.add_mod]
  all_goals
    unfold next consumerStep at he
    simp [hc] at he

theorem dequeueTurn (he : next s .dequeueTurn = some t) : Inv N t := by
  rcases hc : s.consumer with _ | _ | ⟨ptr, todo, rest, size, peek, dest⟩ | _
  case copying =>
    rcases todo with _ | todo <;> rcases rest with _ | rest <;>
      (unfold next consumerStep at he; simp only [hc] at he)
    case zero.succ =>
      cases he
      have hi := h.consumer
      simp only [hc, ConsumerInv] at hi
      obtain ⟨h1, h2, h3, h4, h5, h6⟩ := hi
      have hroom := h.room
      have hptr := h3 (by omega)
      refine h.of_consumer ⟨h1, by omega, fun hn => by omega, by omega, h5, ?_⟩
      rw [← h6, show ptr = N by omega, Nat.mod_self, Nat.zero_mod]
    all_goals cases he
  all_goals
    unfold next consumerStep at he
    simp [hc] at he

theorem moveFront (he : next s .moveFront = some t) : Inv N t ∧ t.enqueued = s.enqueued ∧
    (t.dequeued = s.dequeued ∨ ∃ n, s.dequeued.length + n ≤ s.enqueued.length ∧
      t.dequeued = s.dequeued ++ (s.enqueued.drop s.dequeued.length).take n) := by
  rcases hc : s.consumer with _ | _ | ⟨ptr, todo, rest, size, peek, dest⟩ | _
  case copying =>
    rcases todo with _ | todo <;> rcases rest with _ | rest <;>
      (unfold next consumerStep at he; simp only [hc] at he)
    case zero.zero =>
      have hi := h.consumer
      simp only [hc, ConsumerInv] at hi
      obtain ⟨h1, -, -, h4, h5, -⟩ := hi
      have hsz : dest.length = size := by omega
      rw [hsz] at h5
      have hroom := h.room
      split at he
      · cases he
        refine ⟨⟨h.size_eq, h.le, h.room, h.front_eq, h.rear_eq, h.fail_nil, h.held,
          h.dequeued_prefix, ?_, h.producer, trivial⟩, rfl, Or.inl rfl⟩
        simp only
        rw [h5]
        exact List.take_prefix _ _
      · cases he
        have hmv : s.ring.moveFront size =
            { s.ring with front := s.ring.advance s.ring.front size } := by
          simp [MyRingBuffer.moveFront, MyRingBuffer.isFail, h.fail_nil]
        rw [hmv]
        refine ⟨⟨h.size_eq, ?_, ?_, ?_, h.rear_eq, h.fail_nil, ?_, ?_, List.nil_prefix, ?_,
          trivial⟩, rfl, Or.inr ⟨size, h1, congrArg _ h5⟩⟩
        · simp only [List.length_append]; omega
        · simp only [List.length_append]; omega
        · simp only [List.length_append, hsz]
          rw [s.ring.advance_eq_mod h.front_lt (by rw [h.size_eq]; omega), h.front_eq, h.size_eq,
            Nat.mod_add_mod]
        · simp only [List.length_append, hsz]
          rw [← Nat.sub_sub, ← window_drop, h.held, List.drop_drop]
        · obtain ⟨l, hl⟩ := h.dequeued_prefix
          simp only
          rw [h5, ← hl, List.drop_left]
          exact (List.prefix_append_right_inj _).mpr (List.take_prefix _ _)
        · -- the room the producer saw can only have grown
          have hp := h.producer
          rcases hpp : s.producer with _ | src | ⟨p, todo, rest, src⟩ | _ <;>
            simp only [hpp, ProducerInv] at hp ⊢
          · simp only [List.length_append]; omega
          · obtain ⟨p1, p2, p3, p4⟩ := hp
            exact ⟨by simp only [List.length_append]; omega, p2, p3, p4⟩
    all_goals cases he
  all_goals
    unfold next consumerStep at he
    simp [hc] at he

end Inv

/-! ### The refinement -/

/-- Only the two publications change what has been enqueued or dequeued. -/
theorem quiet {s t : State α} {a : Step α} (h1 : a ≠ .moveRear) (h2 : a ≠ .moveFront)
    (he : next s a = some t) : t.enqueued = s.enqueued ∧ t.dequeued = s.dequeued := by
  cases a <;> simp only [next] at he
  case moveRear => exact absurd rfl h1
  case moveFront => exact absurd rfl h2
  all_goals
    first | unfold producerStep at he | unfold consumerStep at he
    grind

/-- The buffer stands for the queue of its published bytes. -/
def Refines (N : ℕ) (s : State α) (q : Fifo α) : Prop :=
  Inv N s ∧ q.pushed = s.enqueued ∧ q.popped = s.dequeued ∧
    q.held = s.enqueued.drop s.dequeued.length

theorem initial_inv {N : ℕ} (hN : 0 < N) (buffer : ℕ → α) : Inv N (initial N buffer) where
  size_eq := rfl
  le := le_rfl
  room := by simpa [initial] using hN
  front_eq := by simp [initial, MyRingBuffer.new]
  rear_eq := by simp [initial, MyRingBuffer.new]
  fail_nil := rfl
  held := rfl
  dequeued_prefix := List.prefix_rfl
  peeked_prefix := List.prefix_rfl
  producer := trivial
  consumer := trivial

/-- A step keeps the invariant, and is a push, a pop or nothing of the queue. -/
theorem step_refines {N : ℕ} {s t : State α} {q : Fifo α} {a : Step α} (h : Refines N s q)
    (he : next s a = some t) : Refines N t q ∨
      ∃ b q', (Fifo.bounded α (N - 1)).next q b = some q' ∧ Refines N t q' := by
  obtain ⟨hi, h1, h2, h3⟩ := h
  have hroom := hi.room
  have hle := hi.le
  have silent (hi' : Inv N t) (e : t.enqueued = s.enqueued ∧ t.dequeued = s.dequeued) :
      Refines N t q := ⟨hi', by rw [e.1, h1], by rw [e.2, h2], by rw [e.1, e.2, h3]⟩
  cases a with
  | seeFree src => exact Or.inl (silent (hi.seeFree he) (quiet (by simp) (by simp) he))
  | enqueueSnapshot => exact Or.inl (silent (hi.enqueueSnapshot he) (quiet (by simp) (by simp) he))
  | enqueueCopy => exact Or.inl (silent (hi.enqueueCopy he) (quiet (by simp) (by simp) he))
  | enqueueTurn => exact Or.inl (silent (hi.enqueueTurn he) (quiet (by simp) (by simp) he))
  | seeUse size peek => exact Or.inl (silent (hi.seeUse he) (quiet (by simp) (by simp) he))
  | dequeueSnapshot => exact Or.inl (silent (hi.dequeueSnapshot he) (quiet (by simp) (by simp) he))
  | dequeueCopy => exact Or.inl (silent (hi.dequeueCopy he) (quiet (by simp) (by simp) he))
  | dequeueTurn => exact Or.inl (silent (hi.dequeueTurn he) (quiet (by simp) (by simp) he))
  | moveRear =>
    obtain ⟨hi', src, e1, e2⟩ := hi.moveRear he
    have hroom' := hi'.room
    rw [e1, e2, List.length_append] at hroom'
    refine Or.inr ⟨.push src, q.push src, ?_, hi', ?_, ?_, ?_⟩
    · refine if_pos ?_
      rw [h3, List.length_drop]; omega
    · simp [Fifo.push, h1, e1]
    · simp [Fifo.push, h2, e2]
    · simp only [Fifo.push, h3, e1, e2]
      rw [List.drop_append_of_le_length hle]
  | moveFront =>
    obtain ⟨hi', e1, e2 | ⟨n, hn, e2⟩⟩ := hi.moveFront he
    · exact Or.inl (silent hi' ⟨e1, e2⟩)
    · refine Or.inr ⟨.pop n, q.pop n, ?_, hi', ?_, ?_, ?_⟩
      · refine if_pos ?_
        rw [h3, List.length_drop]; omega
      · simp [Fifo.pop, h1, e1]
      · simp [Fifo.pop, h2, h3, e2]
      · simp only [Fifo.pop, h3, e1, e2, List.length_append, List.length_take, List.length_drop,
          List.drop_drop]
        congr 1; omega

/-- Every interleaving of the two threads is a run of the bounded queue. -/
theorem simulation {N : ℕ} (hN : 0 < N) :
    (spsc α N).Simulation (Fifo.bounded α (N - 1)) (Refines N) where
  init := by
    rintro s ⟨buffer, rfl⟩
    exact ⟨Fifo.empty, rfl, initial_inv hN buffer, rfl, rfl, rfl⟩
  step _ h he := step_refines h he

/-- The cell the producer's next copy step writes. -/
def writes (s : State α) : Option ℕ :=
  match s.producer with
  | .copying ptr (_ :: _) _ _ => some ptr
  | _ => none

/-- The producer writes inside the buffer, and not on an unread byte. -/
theorem Inv.writes_free {N : ℕ} {s : State α} (h : Inv N s) {ptr : ℕ} (hw : writes s = some ptr) :
    ptr < N ∧ ∀ i < s.ring.useSize, (s.ring.front + i) % N ≠ ptr := by
  unfold writes at hw
  split at hw
  · rename_i ptr' x todo rest src hp
    cases hw
    have hi := h.producer
    simp only [hp, ProducerInv, List.length_cons] at hi
    obtain ⟨h1, h2, -, done, h4, -, h6⟩ := hi
    have hlen := congrArg List.length h4
    simp only [List.length_append, List.length_cons] at hlen
    have hle := h.le
    refine ⟨by omega, fun i hi' => ?_⟩
    have hu : s.ring.useSize = s.enqueued.length - s.dequeued.length := h.useSize_eq
    rw [h.front_eq, Nat.mod_add_mod, ← Nat.mod_eq_of_lt (show ptr < N by omega), h6]
    exact mod_ne (by omega) (by omega)
  · cases hw

/-- **The ring buffer is a first-in-first-out queue between one producer and
one consumer.** At every point of every interleaving, the bytes dequeued are
a prefix of the bytes enqueued; the bytes between `front` and `rear` are
exactly the rest, never more than `size - 1`; no copy step is about to write an
unread byte or outside the buffer; both pointers are inside it; what `Peek`
delivered is what comes next; and nothing has failed. -/
theorem spsc_fifo {N : ℕ} (hN : 0 < N) {s : State α} (hs : (spsc α N).Reachable s) :
    s.dequeued <+: s.enqueued ∧
    s.ring.contents = s.enqueued.drop s.dequeued.length ∧ s.ring.useSize ≤ N - 1 ∧
    (∀ ptr, writes s = some ptr → ptr < N ∧ ∀ i < s.ring.useSize, (s.ring.front + i) % N ≠ ptr) ∧
    s.ring.front < N ∧ s.ring.rear < N ∧
    s.peeked <+: s.enqueued.drop s.dequeued.length ∧
    s.ring.fail = [] ∧ s.producer ≠ .failed ∧ s.consumer ≠ .failed := by
  obtain ⟨q, hq, hi, h1, h2, h3⟩ := (simulation hN).reachable hs
  have hacc := (Fifo.accounted (N - 1)).reachable hq
  have hu : s.ring.useSize = s.enqueued.length - s.dequeued.length := hi.useSize_eq
  refine ⟨h1 ▸ h2 ▸ hacc.prefix, ?_, ?_, fun ptr hw => hi.writes_free hw, hi.size_eq ▸ hi.front_lt,
    hi.size_eq ▸ hi.rear_lt, hi.peeked_prefix, hi.fail_nil, fun hp => ?_, fun hc => ?_⟩
  · rw [MyRingBuffer.contents, hu, hi.size_eq, hi.front_eq, window_mod, hi.held]
  · have := hacc.length_le
    rw [h3, List.length_drop] at this
    omega
  · have := hi.producer
    rw [hp] at this; exact this
  · have := hi.consumer
    rw [hc] at this; exact this

/-- A run on five cells: three bytes through, then a block that is copied
around the end while the consumer peeks. -/
def wrapRun : List (Step ℕ) :=
  [.seeFree [1, 2, 3], .enqueueSnapshot, .enqueueCopy, .enqueueCopy, .enqueueCopy, .moveRear,
    .seeUse 3 false, .dequeueSnapshot, .dequeueCopy, .seeFree [4], .dequeueCopy,
      .dequeueCopy, .moveFront,
    .enqueueSnapshot, .enqueueCopy, .moveRear, .seeFree [5, 6, 7], .seeUse 1 true, .enqueueSnapshot,
    .enqueueCopy, .enqueueTurn, .dequeueSnapshot, .dequeueCopy, .enqueueCopy, .moveFront]

theorem spsc_fifo_wrapRun : ∃ s, (spsc ℕ 5).exec (initial 5 fun _ => 0) wrapRun = some s ∧
    writes s = some 1 ∧ s.dequeued = [1, 2, 3] ∧ s.enqueued = [1, 2, 3, 4] ∧ s.peeked = [4] ∧
    s.dequeued <+: s.enqueued ∧ s.ring.contents = s.enqueued.drop s.dequeued.length :=
  have h := @spsc_fifo ℕ 5 (by decide) _
    (System.Reachable.exec wrapRun (.start ⟨fun _ => 0, rfl⟩) rfl)
  ⟨_, rfl, rfl, rfl, rfl, rfl, h.1, h.2.1⟩

end Spsc
end MyMMO
