/-
# The client's and the bot's receive paths

`Network::recvThread` and `Network::Unmarshal` of the client: the same header
and payload, taken out of a ring buffer through a temporary array and handed
to the main thread as pointers in a second ring buffer. The client has its own
`MyRingBuffer.cpp`, whose `Peek`, `Enqueue` and `Dequeue` assert first and do
not assert when they fail. `ClientBot::recvPacketProc` of the bot: a linear
buffer that is moved down after every packet.

Each of them scans what it has received, by its own format (`clientFormat`,
`botFormat`). The three formats treat malformed headers differently, and read
valid messages alike.
-/
import MyMMO.RecvStream
import MyMMO.PointerQueue

namespace MyMMO

open Circular Framing

/-! ### The client's ring buffer -/

namespace ClientRingBuffer

variable {α : Type} (b : MyRingBuffer α)

def peek (size : ℤ) : Except Stop (Option (List α) × MyRingBuffer α) := do
  b.ringBufferAssert
  if size < 0 then return (none, b.setFail .argmentSizeInvalid)
  if (b.getUseSize b.front b.rear : ℤ) < size then return (none, b.setFail .bufferEmpty)
  return (some (b.copyOut b.front b.rear size.toNat), b)

def enqueue (src : List α) : Except Stop (MyRingBuffer α) := do
  b.ringBufferAssert
  if b.getFreeSize b.front b.rear < src.length then return b.setFail .bufferFull
  MyRingBuffer.moveRear { b with buffer := b.copyIn b.front b.rear src } src.length

def dequeue (size : ℤ) : Except Stop (Option (List α) × MyRingBuffer α) := do
  b.ringBufferAssert
  if size < 0 then return (none, b.setFail .argmentSizeInvalid)
  if (b.getUseSize b.front b.rear : ℤ) < size then return (none, b.setFail .bufferEmpty)
  return (some (b.copyOut b.front b.rear size.toNat), b.moveFront size)

/-! As long as nothing fails the two versions agree. -/

variable {b} (hb : b.WF)
include hb

theorem peek_eq {n : ℕ} (hn : n ≤ b.useSize) : peek b n = b.peek n := by
  rw [hb.peek_eq hn]
  simp only [peek, hb.ringBufferAssert_eq, bind, Except.bind]
  rw [if_neg (by omega), if_neg (by rw [MyRingBuffer.useSize] at hn; omega), Int.toNat_natCast,
    hb.copyOut_eq hn]
  rfl

theorem enqueue_eq {src : List α} (hs : src.length ≤ b.freeSize) :
    enqueue b src = b.enqueue src := by
  simp only [enqueue, hb.ringBufferAssert_eq, bind, Except.bind, MyRingBuffer.enqueue]
  rw [if_neg (by rw [MyRingBuffer.freeSize] at hs; omega),
    if_neg (by rw [MyRingBuffer.freeSize] at hs; omega)]

theorem dequeue_eq {n : ℕ} (hn : n ≤ b.useSize) :
    dequeue b n = (b.dequeue n).map fun p => (some p.1, p.2) := by
  rw [hb.dequeue_eq hn]
  simp only [dequeue, hb.ringBufferAssert_eq, bind, Except.bind]
  rw [if_neg (by omega), if_neg (by rw [MyRingBuffer.useSize] at hn; omega), Int.toNat_natCast,
    hb.copyOut_eq hn]
  rfl

end ClientRingBuffer

/-! ### The client -/

/-- The receive side of `Network`, and what the main thread has popped so far.
`full` is whether the last `Unmarshal` left off because the packet queue had no
room. -/
structure Network where
  recvBuffer : MyRingBuffer UInt8
  packetQueue : MyRingBuffer (Message × ℕ)
  popped : List Message
  full : Bool

namespace Network

/-- `new utility::Message()`; its owner is the id of the thread, which nothing reads. -/
def newMessage : Message := .initMessage ⟨0, 0⟩ 0

/-- A round of the loop in `Unmarshal` ends in one of three ways. -/
inductive Round
  | wait
  | full
  | message

/-- One round of the loop in `Unmarshal`. -/
def unmarshalRound (c : Network) : Except Stop (Round × Network) := do
  let useSize := c.recvBuffer.getUseSize c.recvBuffer.front c.recvBuffer.rear
  if useSize < Header.size then return (.wait, c)
  let (bytes, b) ← ClientRingBuffer.peek c.recvBuffer Header.size
  let header := Header.ofBytes (bytes.getD [])
  let totalSize := Header.size + header.len
  if (useSize : ℤ) < totalSize then return (.wait, { c with recvBuffer := b })
  if c.packetQueue.getFreeSize c.packetQueue.front c.packetQueue.rear < POINTER_SIZE then
    return (.full, { c with recvBuffer := b })
  let b := b.moveFront Header.size
  let (tempBuf, b) ← ClientRingBuffer.dequeue b header.len
  -- `tempBuf` has room for `BufferSize` bytes
  if (BufferSize : ℤ) < header.len then throw .overrun
  -- a negative length is a huge `SerializeBufferSize`
  if header.len < 0 then throw (.messageException .notEnoughSpace)
  let msg ← newMessage.putData (tempBuf.getD [])
  let q ← ClientRingBuffer.enqueue c.packetQueue (pointerBytes msg)
  return (.message, { c with recvBuffer := b, packetQueue := q })

/-- `PopPacket`, which the main thread calls. -/
def popPacket (c : Network) : Except Stop Network := do
  if c.packetQueue.getUseSize c.packetQueue.front c.packetQueue.rear < POINTER_SIZE then return c
  let (bytes, q) ← ClientRingBuffer.dequeue c.packetQueue POINTER_SIZE
  return { c with packetQueue := q, popped := c.popped ++ (readPointer (bytes.getD [])).toList }

/-- The main thread pops `n` times. -/
def popPackets : ℕ → Network → Except Stop Network
  | 0, c => .ok c
  | n + 1, c => do popPackets n (← c.popPacket)

/-- `Unmarshal`, while the main thread pops `pops i` times before round `i`.
Every round that goes on takes the bytes of a header off the buffer, so the
bytes it holds are fuel enough. -/
def unmarshal (pops : ℕ → ℕ) : ℕ → ℕ → Network → Except Stop Network
  | 0, _, c => .ok c
  | fuel + 1, i, c => do
    let c ← popPackets (pops i) c
    let (round, c) ← c.unmarshalRound
    match round with
    | .wait => return { c with full := false }
    | .full => return { c with full := true }
    | .message => unmarshal pops fuel (i + 1) c

/-- A round of the loop in `recvThread`, with the bytes `recv` delivers. -/
def recvThread (c : Network) (chunk : List UInt8 × (ℕ → ℕ)) : Except Stop Network := do
  if c.recvBuffer.getDirectFreeSize c.recvBuffer.front c.recvBuffer.rear = 0 then throw .debugBreak
  let b := { c.recvBuffer with buffer := store c.recvBuffer.buffer c.recvBuffer.rear chunk.1 }
  let b ← b.moveRear chunk.1.length
  unmarshal chunk.2 (b.getUseSize b.front b.rear + 1) 0 { c with recvBuffer := b }

/-- Receive after receive; with every one comes what the main thread does meanwhile. -/
def run (c : Network) (chunks : List (List UInt8 × (ℕ → ℕ))) : Except Stop Network :=
  chunks.foldlM recvThread c

/-- Every piece is one that `recv` can bring, and the packet queue has room
for what it completes. -/
def Fits : Network → List (List UInt8 × (ℕ → ℕ)) → Prop
  | _, [] => True
  | c, x :: xs =>
    (x.1 ≠ [] ∧ x.1.length ≤ c.recvBuffer.getDirectFreeSize c.recvBuffer.front c.recvBuffer.rear) ∧
      ∀ c', recvThread c x = .ok c' → c'.full = false ∧ Fits c' xs

end Network

/-! ### The bot -/

/-- `SESSION_RECV_BUFFER_SIZE`. -/
def SESSION_RECV_BUFFER_SIZE : ℕ := 40960

/-- The receive side of the bot's `Session`. -/
structure BotSession where
  recvBuffer : ℕ → UInt8
  recvSize : ℕ

namespace BotSession

variable {σ : Type}

/-- The loop of `recvPacketProc`. -/
def recvPacketProc (packetProc : List UInt8 → σ → Except Stop σ) :
    ℕ → BotSession → σ → Except Stop (BotSession × σ)
  | 0, s, app => .ok (s, app)
  | fuel + 1, s, app => do
    if s.recvSize < Header.size then return (s, app)
    let header := Header.ofBytes (load s.recvBuffer 0 Header.size)
    rtAssert (0 < header.len)
    let packetSize := Header.size + header.len.toNat
    if s.recvSize < packetSize then return (s, app)
    let app ← packetProc (load s.recvBuffer Header.size header.len.toNat) app
    let moved := store s.recvBuffer 0 (load s.recvBuffer packetSize (s.recvSize - packetSize))
    recvPacketProc packetProc fuel ⟨moved, s.recvSize - packetSize⟩ app

/-- `Session::Recv` with the bytes `recv` delivers, then `recvPacketProc`. -/
def receive (packetProc : List UInt8 → σ → Except Stop σ) (p : BotSession × σ)
    (chunk : List UInt8) :
    Except Stop (BotSession × σ) := do
  let (s, app) := p
  rtAssert (0 < SESSION_RECV_BUFFER_SIZE - s.recvSize)
  let s : BotSession := ⟨store s.recvBuffer s.recvSize chunk, s.recvSize + chunk.length⟩
  recvPacketProc packetProc s.recvSize s app

def run (packetProc : List UInt8 → σ → Except Stop σ) (p : BotSession × σ)
    (chunks : List (List UInt8)) :
    Except Stop (BotSession × σ) := chunks.foldlM (receive packetProc) p

/-- Every piece is one that `recv` can bring. -/
def Fits (packetProc : List UInt8 → σ → Except Stop σ) : BotSession × σ → List (List UInt8) → Prop
  | _, [] => True
  | p, c :: cs => (c ≠ [] ∧ c.length ≤ SESSION_RECV_BUFFER_SIZE - p.1.recvSize) ∧
      ∀ p', receive packetProc p c = .ok p' → Fits packetProc p' cs

/-- An application that only writes down what it gets. -/
def record (payload : List UInt8) (payloads : List (List UInt8)) :
    Except Stop (List (List UInt8)) :=
  .ok (payloads ++ [payload])

end BotSession

/-! ### Their formats -/

/-- What the beginning of the buffer is to `Unmarshal`. -/
def clientHead (bs : List UInt8) : Head (List UInt8) Stop :=
  let header := Header.ofBytes bs
  if bs.length < Header.size then .more
  else if (bs.length : ℤ) < Header.size + header.len then .more
  else if (BufferSize : ℤ) < header.len then .bad .overrun
  else if header.len < 0 then .bad (.messageException .notEnoughSpace)
  else .frame ((bs.drop Header.size).take header.len.toNat) (Header.size + header.len.toNat)

/-- What the beginning of the buffer is to `recvPacketProc`. -/
def botHead (bs : List UInt8) : Head (List UInt8) Stop :=
  let header := Header.ofBytes bs
  if bs.length < Header.size then .more
  else if header.len ≤ 0 then .bad .rtAssert
  else if bs.length < Header.size + header.len.toNat then .more
  else .frame ((bs.drop Header.size).take header.len.toNat) (Header.size + header.len.toNat)

theorem clientHead_append {bs : List UInt8} (h : clientHead bs ≠ .more) (cs : List UInt8) :
    clientHead (bs ++ cs) = clientHead bs := by
  unfold clientHead at h ⊢
  by_cases h0 : bs.length < Header.size
  · simp [h0] at h
  rw [Header.ofBytes_append (by omega), List.length_append, if_neg (by omega), if_neg h0]
  simp only [if_neg h0] at h
  by_cases h1 : (bs.length : ℤ) < Header.size + (Header.ofBytes bs).len
  · simp [h1] at h
  rw [if_neg h1, if_neg (by omega)]
  by_cases h2 : (BufferSize : ℤ) < (Header.ofBytes bs).len
  · rw [if_pos h2, if_pos h2]
  by_cases h3 : (Header.ofBytes bs).len < 0
  · rw [if_neg h2, if_pos h3, if_neg h2, if_pos h3]
  rw [List.drop_append_of_le_length (by omega),
    List.take_append_of_le_length (by rw [List.length_drop]; omega)]

theorem botHead_append {bs : List UInt8} (h : botHead bs ≠ .more) (cs : List UInt8) :
    botHead (bs ++ cs) = botHead bs := by
  unfold botHead at h ⊢
  by_cases h0 : bs.length < Header.size
  · simp [h0] at h
  rw [Header.ofBytes_append (by omega), List.length_append, if_neg (by omega), if_neg h0]
  simp only [if_neg h0] at h
  by_cases h1 : (Header.ofBytes bs).len ≤ 0
  · rw [if_pos h1, if_pos h1]
  by_cases h2 : bs.length < Header.size + (Header.ofBytes bs).len.toNat
  · simp [h1, h2] at h
  rw [if_neg h1, if_neg h1, if_neg h2, if_neg (by omega), List.drop_append_of_le_length (by omega),
    List.take_append_of_le_length (by rw [List.length_drop]; omega)]

theorem clientHead_frame_le {bs payload : List UInt8} {n : ℕ}
    (h : clientHead bs = .frame payload n) : 0 < n ∧ n ≤ bs.length := by
  simp only [clientHead] at h
  split_ifs at h
  cases h
  rw [Header.size] at *
  omega

theorem clientHead_frame_append {bs payload : List UInt8} {n : ℕ} (cs : List UInt8)
    (h : clientHead bs = .frame payload n) :
    clientHead (bs ++ cs) = .frame payload n := by
  rw [clientHead_append (by simp [h]), h]

theorem clientHead_bad_append {bs : List UInt8} {e : Stop} (cs : List UInt8)
    (h : clientHead bs = .bad e) :
    clientHead (bs ++ cs) = .bad e := by
  rw [clientHead_append (by simp [h]), h]

def clientFormat : Format UInt8 (List UInt8) Stop where
  head := clientHead
  frame_le := clientHead_frame_le
  frame_append := clientHead_frame_append
  bad_append := clientHead_bad_append

theorem botHead_frame_le {bs payload : List UInt8} {n : ℕ} (h : botHead bs = .frame payload n) :
    0 < n ∧ n ≤ bs.length := by
  simp only [botHead] at h
  split_ifs at h
  cases h
  rw [Header.size] at *
  omega

theorem botHead_frame_append {bs payload : List UInt8} {n : ℕ} (cs : List UInt8)
    (h : botHead bs = .frame payload n) :
    botHead (bs ++ cs) = .frame payload n := by
  rw [botHead_append (by simp [h]), h]

theorem botHead_bad_append {bs : List UInt8} {e : Stop} (cs : List UInt8)
    (h : botHead bs = .bad e) :
    botHead (bs ++ cs) = .bad e := by
  rw [botHead_append (by simp [h]), h]

def botFormat : Format UInt8 (List UInt8) Stop where
  head := botHead
  frame_le := botHead_frame_le
  frame_append := botHead_frame_append
  bad_append := botHead_bad_append

theorem clientFormat_reads {fs : List Frame} (h : ∀ f ∈ fs, f.Valid) :
    clientFormat.Reads Frame.bytes Frame.payload fs where
  whole f hf := by
    have hh := (h f hf).ofBytes []
    obtain ⟨h1, h2⟩ := h f hf
    rw [List.append_nil] at hh
    simp only [clientFormat, clientHead, hh, f.bytes_length, f.bytes_drop, Int.toNat_natCast]
    rw [if_neg (by omega), if_neg (by omega), if_neg (by omega), if_neg (by omega),
      List.take_length]
  part f hf bs hp hne := by
    simp only [clientFormat, clientHead]
    rcases (h f hf).part hp hne with h0 | ⟨h0, h1⟩
    · rw [if_pos h0]
    · rw [h0]
      simp only
      by_cases h2 : bs.length < Header.size
      · rw [if_pos h2]
      · rw [if_neg h2, if_pos (by omega)]
  empty := by simp [clientFormat, clientHead, Header.size]

theorem botFormat_reads {fs : List Frame} (h : ∀ f ∈ fs, f.Valid) :
    botFormat.Reads Frame.bytes Frame.payload fs where
  whole f hf := by
    have hh := (h f hf).ofBytes []
    obtain ⟨h1, h2⟩ := h f hf
    rw [List.append_nil] at hh
    simp only [botFormat, botHead, hh, f.bytes_length, f.bytes_drop, Int.toNat_natCast]
    rw [if_neg (by omega), if_neg (by omega), if_neg (by omega), List.take_length]
  part f hf bs hp hne := by
    obtain ⟨hv1, -⟩ := h f hf
    simp only [botFormat, botHead]
    rcases (h f hf).part hp hne with h0 | ⟨h0, h1⟩
    · rw [if_pos h0]
    · rw [h0]
      simp only [Int.toNat_natCast]
      by_cases h2 : bs.length < Header.size
      · rw [if_pos h2]
      · rw [if_neg h2, if_neg (by omega), if_pos h1]
  empty := by simp [botFormat, botHead, Header.size]

namespace Network

/-- The message the main thread gets for a payload. -/
def message (payload : List UInt8) : Message := ⟨⟨0, 0⟩, 0, payload, 0⟩

/-- The receive buffer holds `tail`; `msgs` have been handed to the main
thread, which has popped some of them. -/
structure Delivered (c : Network) (msgs : List Message) (tail : List UInt8) : Prop where
  wf : c.recvBuffer.WF
  size_eq : c.recvBuffer.size = RINGBUFFER_SIZE
  contents : c.recvBuffer.contents = tail
  queue : ∃ queued, Holds c.packetQueue queued ∧ c.popped ++ queued = msgs

theorem Delivered.popPacket {c : Network} {msgs : List Message} {tail : List UInt8}
    (h : Delivered c msgs tail) : ∃ c', c.popPacket = .ok c' ∧ Delivered c' msgs tail := by
  obtain ⟨queued, hq, hm⟩ := h.queue
  have hlt := hq.use_lt_iff
  rw [MyRingBuffer.useSize] at hlt
  unfold Network.popPacket
  rcases queued with _ | ⟨x, queued⟩
  · rw [if_pos (hlt.mpr rfl)]
    exact ⟨c, rfl, h⟩
  · obtain ⟨q, e1, e2⟩ := hq.dequeue
    have hn : ¬c.packetQueue.useSize < POINTER_SIZE := fun hc => by simpa using hlt.mp hc
    rw [if_neg (by exact hn), ClientRingBuffer.dequeue_eq hq.wf (by omega), e1]
    exact ⟨_, rfl, h.wf, h.size_eq, h.contents, queued, e2, by simp [← hm]⟩

theorem Delivered.popPackets {msgs : List Message} {tail : List UInt8} (n : ℕ) {c : Network}
    (h : Delivered c msgs tail) :
    ∃ c', Network.popPackets n c = .ok c' ∧ Delivered c' msgs tail := by
  induction n generalizing c with
  | zero => exact ⟨c, rfl, h⟩
  | succ n ih =>
    obtain ⟨c1, h1, h2⟩ := h.popPacket
    obtain ⟨c2, h3, h4⟩ := ih h2
    exact ⟨c2, by simp only [Network.popPackets, h1]; exact h3, h4⟩

/-- A round waits for an unfinished packet. -/
theorem Delivered.round_more {c : Network} {msgs : List Message} {tail : List UInt8}
    (h : Delivered c msgs tail) (hm : clientFormat.head tail = .more) :
    c.unmarshalRound = .ok (.wait, c) := by
  have huse : c.recvBuffer.getUseSize c.recvBuffer.front c.recvBuffer.rear = tail.length := by
    rw [← h.contents, c.recvBuffer.contents_length]; rfl
  by_cases h0 : tail.length < Header.size
  · simp only [unmarshalRound, huse, if_pos h0]
    rfl
  have hn : Header.size ≤ c.recvBuffer.useSize := by rw [MyRingBuffer.useSize, huse]; omega
  have hpeek := ClientRingBuffer.peek_eq h.wf hn
  rw [h.wf.peek_eq hn, h.contents] at hpeek
  have h1 : (tail.length : ℤ) < Header.size + (Header.ofBytes tail).len := by
    simp only [clientFormat, clientHead, if_neg h0] at hm
    split_ifs at hm with h1
    exact h1
  simp only [unmarshalRound, huse, if_neg h0, hpeek, bind, Except.bind, Option.getD_some,
    Header.ofBytes_take, if_pos h1]
  rfl

/-- A round takes a whole packet off, if the queue has room. -/
theorem Delivered.round_frame {c : Network} {msgs : List Message} {tail : List UInt8}
    (h : Delivered c msgs tail) {f : List UInt8} {n : ℕ}
    (hf : clientFormat.head tail = .frame f n) :
    c.unmarshalRound = .ok (.full, c) ∨
      ∃ c', c.unmarshalRound = .ok (.message, c') ∧ Delivered c' (msgs ++ [message f])
        (tail.drop n) := by
  have huse : c.recvBuffer.getUseSize c.recvBuffer.front c.recvBuffer.rear = tail.length := by
    rw [← h.contents, c.recvBuffer.contents_length]; rfl
  simp only [clientFormat, clientHead] at hf
  split_ifs at hf with h0 h1 h2 h3
  have hn : Header.size ≤ c.recvBuffer.useSize := by rw [MyRingBuffer.useSize, huse]; omega
  have hpeek := ClientRingBuffer.peek_eq h.wf hn
  rw [h.wf.peek_eq hn, h.contents] at hpeek
  set len := (Header.ofBytes tail).len with hlen
  obtain ⟨queued, hq, hm⟩ := h.queue
  by_cases h4 : c.packetQueue.getFreeSize c.packetQueue.front c.packetQueue.rear < POINTER_SIZE
  · left
    simp only [unmarshalRound, huse, if_neg h0, hpeek, bind, Except.bind, Option.getD_some,
      Header.ofBytes_take, ← hlen, if_neg h1, if_pos h4]
    rfl
  right
  cases hf
  have hwf := h.wf.moveFront_wf hn
  have hcont := h.wf.moveFront_contents hn
  rw [h.contents] at hcont
  have hpay : len.toNat ≤ (c.recvBuffer.moveFront Header.size).useSize := by
    rw [← MyRingBuffer.contents_length, hcont, List.length_drop]; omega
  have hdeq := ClientRingBuffer.dequeue_eq hwf hpay
  rw [hwf.dequeue_eq hpay, hcont, show ((len.toNat : ℕ) : ℤ) = len by omega] at hdeq
  have hput : newMessage.putData ((tail.drop Header.size).take len.toNat) =
      .ok (message ((tail.drop Header.size).take len.toNat)) := by
    refine Message.putData_ok ?_
    simp only [newMessage, Message.initMessage, List.length_nil, List.length_take]
    omega
  have hroom : queued.length < POINTER_CAPACITY :=
    hq.room_iff.mp (by rw [MyRingBuffer.freeSize]; omega)
  obtain ⟨q, e1, e2⟩ := hq.enqueue hroom (message ((tail.drop Header.size).take len.toNat))
  rw [← ClientRingBuffer.enqueue_eq hq.wf
    (by rw [pointerBytes_length]; exact hq.room_iff.mpr hroom)] at e1
  refine ⟨{ c with
    recvBuffer := (c.recvBuffer.moveFront Header.size).moveFront len, packetQueue := q }, ?_, ?_,
    ?_, ?_, queued ++ [_], e2, by simp [← hm]⟩
  · simp only [unmarshalRound, huse, if_neg h0, hpeek, bind, Except.bind, Option.getD_some,
      Header.ofBytes_take, ← hlen, if_neg h1, if_neg h4, hdeq, Except.map, if_neg h2,
        if_neg h3, hput, e1]
    rfl
  · rw [show len = ((len.toNat : ℕ) : ℤ) by omega]
    exact hwf.moveFront_wf hpay
  · rw [show len = ((len.toNat : ℕ) : ℤ) by omega]
    simp only
    rw [hwf.moveFront_eq, h.wf.moveFront_eq]
    exact h.size_eq
  · rw [show len = ((len.toNat : ℕ) : ℤ) by omega]
    simp only [Int.toNat_natCast]
    rw [hwf.moveFront_contents hpay, hcont, List.drop_drop]

/-- `Unmarshal` scans the receive buffer, unless the packet queue fills up,
whatever the main thread pops meanwhile. -/
theorem Delivered.unmarshal (pops : ℕ → ℕ) (fuel i : ℕ) {c : Network} {msgs : List Message}
    {bs : List UInt8} (h : Delivered c msgs bs) (hfuel : bs.length < fuel) {tail : List UInt8}
    (hscan : (clientFormat.scan bs).2 = .ok tail) :
    ∃ c', Network.unmarshal pops fuel i c = .ok c' ∧ (c'.full = false →
      Delivered c' (msgs ++ (clientFormat.scan bs).1.map message) tail) := by
  induction fuel generalizing i c msgs bs with
  | zero => omega
  | succ fuel ih =>
    obtain ⟨c1, h1, h2⟩ := h.popPackets (pops i)
    rcases hh : clientFormat.head bs with _ | e | ⟨f, n⟩
    · rw [Format.scan_more hh] at hscan ⊢
      cases hscan
      refine ⟨{ c1 with full := false }, ?_, fun _ => ?_⟩
      · simp only [Network.unmarshal, h1, h2.round_more hh, bind, Except.bind]
        rfl
      · exact ⟨h2.wf, h2.size_eq, h2.contents, by simpa using h2.queue⟩
    · rw [Format.scan_bad hh] at hscan
      cases hscan
    · rcases h2.round_frame hh with h3 | ⟨c2, h3, h4⟩
      · refine ⟨{ c1 with full := true }, ?_, fun hc => by cases hc⟩
        simp only [Network.unmarshal, h1, h3, bind, Except.bind]
        rfl
      · have hn := clientFormat.frame_le hh
        rw [Format.scan_frame hh] at hscan ⊢
        obtain ⟨c3, e1, e2⟩ := ih (i + 1) h4 (by rw [List.length_drop]; omega) hscan
        refine ⟨c3, ?_, fun hc => by simpa using e2 hc⟩
        simp only [Network.unmarshal, h1, h3, bind, Except.bind]
        exact e1

/-- A receive scans what was left and what it brings. -/
theorem Delivered.recvThread {c : Network} {msgs : List Message} {tail : List UInt8}
    (h : Delivered c msgs tail) {x : List UInt8 × (ℕ → ℕ)} (hne : x.1 ≠ [])
    (hfit : x.1.length ≤ c.recvBuffer.getDirectFreeSize c.recvBuffer.front c.recvBuffer.rear)
    {t : List UInt8} (hscan : (clientFormat.scan (tail ++ x.1)).2 = .ok t) :
    ∃ c', Network.recvThread c x = .ok c' ∧ (c'.full = false →
      Delivered c' (msgs ++ (clientFormat.scan (tail ++ x.1)).1.map message) t) := by
  have hpos := List.length_pos_of_ne_nil hne
  have hfree : x.1.length ≤ c.recvBuffer.freeSize :=
    hfit.trans (c.recvBuffer.getDirectFreeSize_le c.recvBuffer.front c.recvBuffer.rear)
  obtain ⟨c1, c2⟩ := h.wf.copyIn_eq hfree
  rw [MyRingBuffer.copyIn, if_pos hfit] at c1 c2
  obtain ⟨b, e1, e2, e3, e4⟩ := h.wf.append_eq hfree c1 c2
  rw [h.contents] at e4
  have huse : b.getUseSize b.front b.rear = (tail ++ x.1).length := by
    rw [← e4, b.contents_length]; rfl
  obtain ⟨c', f1, f2⟩ := Delivered.unmarshal x.2 (b.getUseSize b.front b.rear + 1) 0
    (c := { c with recvBuffer := b }) ⟨e2, e3.trans h.size_eq, e4, h.queue⟩
      (by rw [huse]; omega) hscan
  refine ⟨c', ?_, f2⟩
  simp only [Network.recvThread, bind, Except.bind]
  rw [if_neg (by omega), e1]
  exact f1

end Network

namespace BotSession

/-- What the bot has received and not yet processed. -/
def contents (s : BotSession) : List UInt8 := load s.recvBuffer 0 s.recvSize

/-- The loop scans the buffer. -/
theorem recvPacketProc_eq {fuel : ℕ} {s : BotSession} (payloads : List (List UInt8))
    (hfuel : s.recvSize ≤ fuel) {tail : List UInt8}
    (hscan : (botFormat.scan s.contents).2 = .ok tail) :
    ∃ s', recvPacketProc record fuel s payloads = .ok
        (s', payloads ++ (botFormat.scan s.contents).1) ∧
      s'.contents = tail := by
  induction fuel generalizing s payloads with
  | zero =>
    have hc : s.contents = [] := by rw [contents, show s.recvSize = 0 by omega]; rfl
    rw [hc, Format.scan_more (by simp [botFormat, botHead, Header.size])] at hscan ⊢
    cases hscan
    exact ⟨s, by simp [recvPacketProc], hc⟩
  | succ fuel ih =>
    have hlen : s.contents.length = s.recvSize := load_length _ _
    have htake {n : ℕ} (hn : n ≤ s.recvSize) : load s.recvBuffer 0 n = s.contents.take n :=
      (load_take 0 hn).symm
    unfold recvPacketProc
    by_cases h0 : s.recvSize < Header.size
    · rw [Format.scan_more (by simp only [botFormat, botHead, hlen, if_pos h0])] at hscan ⊢
      cases hscan
      rw [if_pos h0]
      exact ⟨s, by simp [pure, Except.pure], rfl⟩
    rw [if_neg h0, htake (by omega), Header.ofBytes_take]
    set len := (Header.ofBytes s.contents).len with hl
    by_cases h1 : len ≤ 0
    · rw [Format.scan_bad (e := .rtAssert)
        (by simp only [botFormat, botHead, hlen, if_neg h0, ← hl, if_pos h1])] at hscan
      cases hscan
    simp only [← hl]
    rw [rtAssert_true (x := decide (0 < len)) (by simpa using h1)]
    simp only [bind, Except.bind]
    by_cases h2 : s.recvSize < Header.size + len.toNat
    · rw [Format.scan_more (by simp only [botFormat, botHead, hlen, if_neg h0, ← hl, if_neg h1,
        if_pos h2])] at hscan ⊢
      cases hscan
      rw [if_pos h2]
      exact ⟨s, by simp [pure, Except.pure], rfl⟩
    have hh : botFormat.head s.contents =
        .frame ((s.contents.drop Header.size).take len.toNat) (Header.size + len.toNat) := by
      simp only [botFormat, botHead, hlen, if_neg h0, ← hl, if_neg h1, if_neg h2]
    have hpay : load s.recvBuffer Header.size len.toNat =
        (s.contents.drop Header.size).take len.toNat := by
      rw [contents, load_drop 0 (by omega), load_take _ (by omega), Nat.zero_add]
    rw [Format.scan_frame hh] at hscan ⊢
    rw [if_neg h2, hpay]
    set s1 : BotSession := ⟨store s.recvBuffer 0 (load s.recvBuffer (Header.size + len.toNat)
      (s.recvSize - (Header.size + len.toNat))), s.recvSize - (Header.size + len.toNat)⟩ with hs1
    have hc : s1.contents = s.contents.drop (Header.size + len.toNat) := by
      have hld := load_store s.recvBuffer (load s.recvBuffer (Header.size + len.toNat)
        (s.recvSize - (Header.size + len.toNat))) 0
      rw [load_length] at hld
      rw [contents, hs1, hld, contents, load_drop 0 (by omega), Nat.zero_add]
    rw [← hc] at hscan ⊢
    obtain ⟨s', e1, e2⟩ := ih (payloads ++ [(s.contents.drop Header.size).take len.toNat])
      (by simp only [hs1, Header.size]; omega) hscan
    exact ⟨s', by simpa [record] using e1, e2⟩

/-- A receive scans what was left and what it brings. -/
theorem receive_eq {s : BotSession} (payloads : List (List UInt8)) {chunk : List UInt8}
    (hne : chunk ≠ []) (hfit : chunk.length ≤ SESSION_RECV_BUFFER_SIZE - s.recvSize)
    {tail : List UInt8} (hscan : (botFormat.scan (s.contents ++ chunk)).2 = .ok tail) :
    ∃ s', receive record (s, payloads) chunk =
        .ok (s', payloads ++ (botFormat.scan (s.contents ++ chunk)).1) ∧ s'.contents = tail := by
  have hpos := List.length_pos_of_ne_nil hne
  have hc : contents ⟨store s.recvBuffer s.recvSize chunk, s.recvSize + chunk.length⟩ =
      s.contents ++ chunk := by
    have := load_store_snoc s.recvBuffer chunk 0 s.recvSize
    rwa [Nat.zero_add] at this
  rw [← hc] at hscan ⊢
  obtain ⟨s', e1, e2⟩ := recvPacketProc_eq payloads le_rfl hscan
  refine ⟨s', ?_, e2⟩
  simp only [receive, rtAssert_true
    (show decide (0 < SESSION_RECV_BUFFER_SIZE - s.recvSize) = true by
    simp only [decide_eq_true_eq]; omega)]
  exact e1

end BotSession

/-! ### The three receivers -/

/-- The three ends of a stream of valid messages, cut in any way that fits: what
has arrived whole has been handed over, and the beginning of the next message
is kept. -/
structure Received (frames : List Frame) (bs : List UInt8) (k : ℕ) (tail : List UInt8) : Prop where
  server : ∀ sessionID b chunks, b.WF → b.contents = [] → b.size = RINGBUFFER_SIZE →
    chunks.flatten = bs → Receiver.Fits Receiver.record (Receiver.accepted sessionID b, []) chunks →
    ∃ s', Receiver.run Receiver.record (Receiver.accepted sessionID b, []) chunks =
        .ok (s', (frames.take k).map (Frame.message sessionID)) ∧
      s'.recvBuffer.contents = tail ∧ 0 < s'.recvBuffer.freeSize ∧ s'.live = true ∧ s'.wsabuf ≠ none
  client : ∀ c chunks, Network.Delivered c [] [] → (chunks.map Prod.fst).flatten = bs →
    c.Fits chunks →
    ∃ c', c.run chunks = .ok c' ∧
      c'.Delivered ((frames.take k).map fun f => Network.message f.payload) tail
  bot : ∀ buffer chunks, chunks.flatten = bs →
    BotSession.Fits BotSession.record (⟨buffer, 0⟩, []) chunks →
    ∃ s', BotSession.run BotSession.record (⟨buffer, 0⟩, []) chunks =
        .ok (s', (frames.take k).map Frame.payload) ∧ s'.contents = tail

section

variable {frames : List Frame} (hv : ∀ f ∈ frames, f.Valid) {bs tail : List UInt8} {k : ℕ}
  (hcut : Cut Frame.bytes frames bs k tail)
include hv hcut

/-- The rest of a stream of valid messages is shorter than the longest of them. -/
theorem cut_tail_length : tail.length < Header.size + BufferSize := by
  rcases hcut.unfinished with rfl | ⟨f, hf, hp, hne⟩
  · decide
  · obtain ⟨-, h2⟩ := hv f (List.mem_of_getElem? hf)
    have h3 := hp.length_le
    have h4 : tail.length ≠ f.bytes.length := fun he => hne (hp.eq_of_length he)
    rw [f.bytes_length] at h3 h4
    omega

theorem received_server {sessionID : SeqAndIdx}
    {b : MyRingBuffer UInt8} {chunks : List (List UInt8)}
    (hb : b.WF) (hc : b.contents = []) (hs : b.size = RINGBUFFER_SIZE) (hbs : chunks.flatten = bs)
    (hfit : Receiver.Fits Receiver.record (Receiver.accepted sessionID b, []) chunks) :
    ∃ s', Receiver.run Receiver.record (Receiver.accepted sessionID b, []) chunks =
        .ok (s', (frames.take k).map (Frame.message sessionID)) ∧
      s'.recvBuffer.contents = tail ∧ 0 < s'.recvBuffer.freeSize ∧ s'.live = true ∧
        s'.wsabuf ≠ none := by
  obtain ⟨hp, hid⟩ := Receiver.accepted_posted hb hc hs sessionID
  obtain ⟨gs, rest, e1, e2, e3⟩ := Receiver.run_spec hp Receiver.unfinished_nil chunks hfit
  have hlen := cut_tail_length hv hcut
  have hscan := Format.scan_cut (serverFormat_reads hv) hcut
  have hu : Unfinished tail := by
    rcases serverHead_more.mp
        (Format.scan_ok (F := serverFormat) (congrArg Prod.snd hscan)).1 with h | ⟨h1, h2⟩
    · exact Or.inl h
    · refine Or.inr ⟨h1, h2, hlen.trans (by decide)⟩
  have hvk : ∀ f ∈ frames.take k, f.Valid := fun f hf => hv f (List.mem_of_mem_take hf)
  rw [List.nil_append, hbs, hcut.eq] at e1
  rcases e3 with ⟨s', f1, f2, f3⟩ | ⟨s', f1, f2, f3⟩ | ⟨f1, f3⟩
  · obtain ⟨rfl, rfl⟩ := frames_unique hvk e2 (Receiver.not_frame (Or.inl hu))
      (Receiver.not_frame (Or.inl f3)) e1
    have hfull := f2.wf.use_add_free
    rw [← MyRingBuffer.contents_length, f2.contents, f2.size_eq] at hfull
    simp only [Header.size, BufferSize] at hlen
    rw [hid] at f1
    exact ⟨s', f1, f2.contents, by simp only [RINGBUFFER_SIZE] at hfull; omega, f2.live,
      by simp [f2.wsabuf]⟩
  · obtain ⟨rfl, rfl⟩ := frames_unique hvk e2 (Receiver.not_frame (Or.inl hu))
      (Receiver.not_frame (Or.inr (Or.inl f3))) e1
    simp only [Unfinished, Refused, Header.size] at hu f3
    omega
  · obtain ⟨rfl, rfl⟩ := frames_unique hvk e2 (Receiver.not_frame (Or.inl hu))
      (Receiver.not_frame (Or.inr (Or.inr f3))) e1
    simp only [Unfinished, Oversized, Header.size, BufferSize] at hu f3
    omega

theorem received_client (hbs : bs <+: frames.flatMap Frame.bytes) {c : Network}
    {chunks : List (List UInt8 × (ℕ → ℕ))} (hc : Network.Delivered c [] [])
    (hflat : (chunks.map Prod.fst).flatten = bs) (hfit : c.Fits chunks) :
    ∃ c', c.run chunks = .ok c' ∧
      c'.Delivered ((frames.take k).map fun f => Network.message f.payload) tail := by
  have hr := clientFormat_reads hv
  have hnil := Format.scan_more hr.empty
  obtain ⟨c', t, h1, h2, h3⟩ := Format.receiver_run clientFormat Prod.fst Network.Fits
    (fun c fs tail => Network.Delivered c (fs.map Network.message) tail)
      (fun c fs tail x xs t hI hx hs => by
      obtain ⟨⟨hx1, hx2⟩, hx3⟩ := hx
      obtain ⟨c', e1, e2⟩ := hI.recvThread hx1 hx2 hs
      obtain ⟨e3, e4⟩ := hx3 c' e1
      exact ⟨c', e1, by simpa using e2 e3, e4⟩)
    (fun bs hbs => by
      obtain ⟨k, tail, hcut⟩ := exists_cut Frame.bytes frames hbs
      exact ⟨tail, congrArg Prod.snd (Format.scan_cut hr hcut)⟩)
    [] (by rw [hnil]; exact hc) (by rw [hnil]) chunks hfit (by simpa [hflat] using hbs)
  rw [List.nil_append, hflat, Format.scan_cut hr hcut] at h2 h3
  cases h3
  exact ⟨c', h1, by simpa [Function.comp_def] using h2⟩

theorem received_bot (hbs : bs <+: frames.flatMap Frame.bytes) {buffer : ℕ → UInt8}
    {chunks : List (List UInt8)} (hflat : chunks.flatten = bs)
    (hfit : BotSession.Fits BotSession.record (⟨buffer, 0⟩, []) chunks) :
    ∃ s', BotSession.run BotSession.record (⟨buffer, 0⟩, []) chunks =
        .ok (s', (frames.take k).map Frame.payload) ∧ s'.contents = tail := by
  have hr := botFormat_reads hv
  have hnil := Format.scan_more hr.empty
  obtain ⟨⟨s', payloads⟩, t, h1, ⟨h2, h3⟩, h4⟩ := Format.receiver_run botFormat id
    (BotSession.Fits BotSession.record) (fun p fs tail => p.2 = fs ∧ p.1.contents = tail)
    (fun ⟨s, payloads⟩ fs tail x xs t hI hx hs => by
      obtain ⟨rfl, rfl⟩ := hI
      obtain ⟨⟨hx1, hx2⟩, hx3⟩ := hx
      obtain ⟨s', e1, e2⟩ := BotSession.receive_eq payloads hx1 hx2 hs
      exact ⟨_, e1, ⟨rfl, e2⟩, hx3 _ e1⟩)
    (fun bs hbs => by
      obtain ⟨k, tail, hcut⟩ := exists_cut Frame.bytes frames hbs
      exact ⟨tail, congrArg Prod.snd (Format.scan_cut hr hcut)⟩)
    [] (by rw [hnil]; exact ⟨rfl, rfl⟩) (by rw [hnil]; rfl) chunks hfit (by simpa [hflat] using hbs)
  rw [List.nil_append, List.map_id, hflat, Format.scan_cut hr hcut] at h2 h4
  cases h4
  simp only at h2
  subst h2
  exact ⟨s', h1, h3⟩

end

/-- **Framing does not depend on how the stream is cut, in any of the three
receivers.** Whatever has arrived of a stream of valid messages, the server,
the client and the bot hand over the same messages, all that are whole, and
keep the same rest; of the whole stream they hand over every message. -/
theorem framing_independent {frames : List Frame} (hv : ∀ f ∈ frames, f.Valid) {bs : List UInt8}
    (hbs : bs <+: frames.flatMap Frame.bytes) :
    ∃ k tail, Cut Frame.bytes frames bs k tail ∧ Received frames bs k tail ∧
      (bs = frames.flatMap Frame.bytes → frames.take k = frames ∧ tail = []) := by
  obtain ⟨k, tail, hcut⟩ := exists_cut Frame.bytes frames hbs
  refine ⟨k, tail, hcut, ⟨?_, ?_, ?_⟩, ?_⟩
  · exact fun sessionID b chunks hb hc hs hflat hfit => received_server hv hcut hb hc hs hflat hfit
  · exact fun c chunks hc hflat hfit => received_client hv hcut hbs hc hflat hfit
  · exact fun buffer chunks hflat hfit => received_bot hv hcut hbs hflat hfit
  · rintro rfl
    refine hcut.whole fun f _ hnil => ?_
    have := congrArg List.length hnil
    rw [f.bytes_length, Header.size, List.length_nil] at this
    omega

/-- A whole message and two bytes of the next. -/
theorem framing_independent_two :
    ∃ k tail, Cut Frame.bytes [⟨9, [7, 8]⟩, ⟨1, [5]⟩] [2, 0, 9, 7, 8, 1, 0] k tail ∧
      Received [⟨9, [7, 8]⟩, ⟨1, [5]⟩] [2, 0, 9, 7, 8, 1, 0] k tail := by
  obtain ⟨k, tail, h1, h2, -⟩ := @framing_independent [⟨9, [7, 8]⟩, ⟨1, [5]⟩] (by decide)
    [2, 0, 9, 7, 8, 1, 0] ⟨[1, 5], by decide⟩
  exact ⟨k, tail, h1, h2⟩

end MyMMO
