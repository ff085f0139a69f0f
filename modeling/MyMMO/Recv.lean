/-
# The server's receive path

`NetworkLib::registerRecv` and `NetworkLib::completeRecv`. A `WSARecv` hands
the free cells of the receive buffer to the kernel, as one or two `WSABUF`s;
its completion brings a number of bytes, and `completeRecv` takes whole
messages off the buffer and gives them to `onRecv` until it has to wait.
`onRecv` is the application's, so it is a parameter: what it does to the
application's state, and whether it calls `disconnectSession`.

What the buffer's beginning is to the loop is `serverFormat`; one round of the
loop does what it says (`completeRecvRound_spec`), hence a completion delivers
a scan of the buffer (`completeRecvLoop_eq`).
-/
import MyMMO.Message
import MyMMO.RingBuffer
import MyMMO.Lib.Framing

namespace MyMMO

open Circular Framing

/-- What receiving uses of a `Session`. `wsabuf` is what the `WSARecv` that is
outstanding, if one is, may fill: offsets and lengths. -/
structure Receiver where
  sessionID : SeqAndIdx
  recvBuffer : MyRingBuffer UInt8
  live : Bool
  wsabuf : Option (List (ℕ × ℕ))

namespace Receiver

/-- The `WSABUF`s `registerRecv` hands to the kernel. -/
def wsabufs (b : MyRingBuffer UInt8) : List (ℕ × ℕ) :=
  let freeSize := b.getFreeSize b.front b.rear
  let len := b.getDirectFreeSize b.front b.rear
  if freeSize - len ≠ 0 then [(b.rear, len), (0, freeSize - len)] else [(b.rear, len)]

def registerRecv (s : Receiver) : Receiver :=
  -- `disconnectSession`
  if s.recvBuffer.getFreeSize s.recvBuffer.front s.recvBuffer.rear = 0 then { s with live := false }
  else if s.live then { s with wsabuf := some (wsabufs s.recvBuffer) }
  else s

/-- A round of the loop in `completeRecv` ends in one of three ways. -/
inductive Round
  | wait
  | disconnect
  | message (msg : Message)
  deriving DecidableEq

/-- The part of `completeRecv` that puts the payload, in one piece or two, into
a new message. `b` is the buffer behind the header, `r` its `mRear`. -/
def putPayload (sessionID : SeqAndIdx) (header : Header) (b : MyRingBuffer UInt8) (r : ℕ) :
    Except Stop Message := do
  let len := header.len.toNat
  let deqSize := b.getDirectUseSize b.front r
  let msg := Message.initMessage sessionID header.randKey
  if deqSize < len then
    let msg ← msg.putData (load b.buffer b.front deqSize)
    msg.putData (load b.buffer 0 (len - deqSize))
  else msg.putData (load b.buffer b.front len)

/-- One round of the loop in `completeRecv`, up to the call of `onRecv`. -/
def completeRecvRound (sessionID : SeqAndIdx) (b : MyRingBuffer UInt8) :
    Except Stop (Round × MyRingBuffer UInt8) := do
  let r := b.rear
  let useSize := b.getUseSize b.front r
  if useSize ≤ Header.size then return (.wait, b)
  let (bytes, b) ← b.peek Header.size
  let header := Header.ofBytes (bytes.getD [])
  if header.len ≤ 0 then return (.disconnect, b)
  if header.len + Header.size ≤ useSize then
    let (bytes, b) ← b.dequeue Header.size
    let header := Header.ofBytes bytes
    let msg ← putPayload sessionID header b r
    return (.message msg, b.moveFront header.len)
  return (.wait, b)

variable {σ : Type}

/-- The loop in `completeRecv`. Every round that goes on takes at least four
bytes off the buffer, so the bytes it holds are fuel enough. -/
def completeRecvLoop (onRecv : Message → σ → Except Stop (σ × Bool)) :
    ℕ → Receiver → σ → Except Stop (Receiver × σ)
  | 0, s, app => .ok (s.registerRecv, app)
  | fuel + 1, s, app => do
    let (round, b) ← completeRecvRound s.sessionID s.recvBuffer
    let s := { s with recvBuffer := b }
    match round with
    | .wait => return (s.registerRecv, app)
    | .disconnect => return ({ s with live := false }, app)
    | .message msg =>
      let (app, disconnect) ← onRecv msg app
      completeRecvLoop onRecv fuel { s with live := s.live && !disconnect } app

def completeRecv (onRecv : Message → σ → Except Stop (σ × Bool)) (s : Receiver) (transferred : ℕ)
    (app : σ) : Except Stop (Receiver × σ) := do
  let b ← s.recvBuffer.moveRear transferred
  completeRecvLoop onRecv (b.getUseSize b.front b.rear) { s with recvBuffer := b } app

/-- The kernel fills the buffers of a `WSARecv` one after the other. -/
def scatter (mem : ℕ → UInt8) : List (ℕ × ℕ) → List UInt8 → (ℕ → UInt8)
  | [], _ => mem
  | (p, len) :: bufs, bs => scatter (store mem p (bs.take len)) bufs (bs.drop len)

/-- A receive completion with the bytes it brings, as the worker handles it.
Without a `WSARecv` outstanding there is none, and the bytes go nowhere. -/
def receive (onRecv : Message → σ → Except Stop (σ × Bool)) (p : Receiver × σ)
    (bytes : List UInt8) :
    Except Stop (Receiver × σ) :=
  match p.1.wsabuf with
  | none => .ok p
  | some bufs =>
    let b := { p.1.recvBuffer with buffer := scatter p.1.recvBuffer.buffer bufs bytes }
    let s := { p.1 with recvBuffer := b, wsabuf := none }
    -- the client's FIN
    if bytes = [] then .ok ({ s with live := false }, p.2)
    else completeRecv onRecv s bytes.length p.2

/-- Completion after completion. -/
def run (onRecv : Message → σ → Except Stop (σ × Bool)) (p : Receiver × σ)
    (chunks : List (List UInt8)) : Except Stop (Receiver × σ) := chunks.foldlM (receive onRecv) p

/-- Every piece is one that the `WSARecv` outstanding at the time can bring. -/
def Fits (onRecv : Message → σ → Except Stop (σ × Bool)) : Receiver × σ → List (List UInt8) → Prop
  | _, [] => True
  | p, c :: cs => (p.1.wsabuf ≠ none → c ≠ [] ∧ c.length ≤ p.1.recvBuffer.freeSize) ∧
      ∀ p', receive onRecv p c = .ok p' → Fits onRecv p' cs

/-- The receive half of a session on which `completeAcceptEx` has called
`registerRecv`, with an empty buffer. -/
def accepted (sessionID : SeqAndIdx) (b : MyRingBuffer UInt8) : Receiver :=
  registerRecv ⟨sessionID, b, true, none⟩

/-- An application that only writes down what it gets. -/
def record (msg : Message) (msgs : List Message) : Except Stop (List Message × Bool) :=
  .ok (msgs ++ [msg], false)

end Receiver

/-! ### The format -/

/-- A message on the wire. -/
structure Frame where
  randKey : UInt8
  payload : List UInt8
  deriving DecidableEq, Repr

namespace Frame

def bytes (f : Frame) : List UInt8 := Header.bytes f.payload.length f.randKey ++ f.payload

/-- The message `onRecv` gets for it. -/
def message (sessionID : SeqAndIdx) (f : Frame) : Message := ⟨sessionID, f.randKey, f.payload, 0⟩

/-- A payload that a `Message` can carry, and not empty. -/
def Valid (f : Frame) : Prop := 1 ≤ f.payload.length ∧ f.payload.length ≤ BufferSize

instance (f : Frame) : Decidable f.Valid := inferInstanceAs (Decidable (_ ∧ _))

theorem bytes_length (f : Frame) : f.bytes.length = Header.size + f.payload.length := by
  simp [bytes]

theorem bytes_drop (f : Frame) : f.bytes.drop Header.size = f.payload := by
  rw [bytes, ← Header.bytes_length f.payload.length f.randKey, List.drop_left]

theorem Valid.ofBytes {f : Frame} (h : f.Valid) (cs : List UInt8) :
    Header.ofBytes (f.bytes ++ cs) = ⟨f.payload.length, f.randKey⟩ := by
  rw [Valid, BufferSize] at h
  rw [bytes, List.append_assoc, Header.ofBytes_bytes (by omega)]

/-- A beginning of a message that is not all of it: less than a header, or a
header that announces more than there is. -/
theorem Valid.part {f : Frame} (h : f.Valid) {bs : List UInt8} (hp : bs <+: f.bytes)
    (hne : bs ≠ f.bytes) :
    bs.length < Header.size ∨
      Header.ofBytes bs = ⟨f.payload.length, f.randKey⟩ ∧
        bs.length < Header.size + f.payload.length := by
  obtain ⟨cs, hcs⟩ := hp
  have hlen : bs.length < f.bytes.length := by
    refine lt_of_le_of_ne (by rw [← hcs]; simp) fun he => hne ?_
    rw [← hcs, List.length_append] at he
    rw [← hcs, List.eq_nil_of_length_eq_zero (show cs.length = 0 by omega), List.append_nil]
  rw [f.bytes_length] at hlen
  by_cases h0 : bs.length < Header.size
  · exact Or.inl h0
  · have hh := h.ofBytes []
    rw [List.append_nil, ← hcs, Header.ofBytes_append (by omega)] at hh
    exact Or.inr ⟨hh, hlen⟩

end Frame

/-- How a header can be malformed. -/
inductive BadHeader
  | invalidLen
  | tooLong
  deriving DecidableEq, Repr

/-- What the beginning of the buffer is to `completeRecv`. -/
def serverHead (bs : List UInt8) : Head Frame BadHeader :=
  let header := Header.ofBytes bs
  if bs.length ≤ Header.size then .more
  else if header.len ≤ 0 then .bad .invalidLen
  else if bs.length < header.len.toNat + Header.size then .more
  else if BufferSize < header.len.toNat then .bad .tooLong
  else .frame ⟨header.randKey, (bs.drop Header.size).take header.len.toNat⟩
    (Header.size + header.len.toNat)

theorem serverHead_append {bs : List UInt8} (h : serverHead bs ≠ .more) (cs : List UInt8) :
    serverHead (bs ++ cs) = serverHead bs := by
  unfold serverHead at h ⊢
  by_cases h0 : bs.length ≤ Header.size
  · simp [h0] at h
  rw [Header.ofBytes_append (by omega), List.length_append, if_neg (by omega), if_neg h0]
  simp only [if_neg h0] at h
  by_cases h1 : (Header.ofBytes bs).len ≤ 0
  · rw [if_pos h1, if_pos h1]
  rw [if_neg h1, if_neg h1]
  by_cases h2 : bs.length < (Header.ofBytes bs).len.toNat + Header.size
  · simp [h1, h2] at h
  rw [if_neg h2, if_neg (by omega), List.drop_append_of_le_length (by omega),
    List.take_append_of_le_length (by rw [List.length_drop]; omega)]

theorem serverHead_frame_le {bs : List UInt8} {f : Frame} {n : ℕ} (h : serverHead bs = .frame f n) :
    0 < n ∧ n ≤ bs.length := by
  simp only [serverHead] at h
  split_ifs at h
  cases h
  rw [Header.size] at *
  omega

theorem serverHead_frame_append {bs : List UInt8} {f : Frame} {n : ℕ} (cs : List UInt8)
    (h : serverHead bs = .frame f n) :
    serverHead (bs ++ cs) = .frame f n := by
  rw [serverHead_append (by simp [h]), h]

theorem serverHead_bad_append {bs : List UInt8} {e : BadHeader} (cs : List UInt8)
    (h : serverHead bs = .bad e) :
    serverHead (bs ++ cs) = .bad e := by
  rw [serverHead_append (by simp [h]), h]

def serverFormat : Format UInt8 Frame BadHeader where
  head := serverHead
  frame_le := serverHead_frame_le
  frame_append := serverHead_frame_append
  bad_append := serverHead_bad_append

/-- The server's receive path reads every valid message. -/
theorem serverFormat_reads {fs : List Frame} (h : ∀ f ∈ fs, f.Valid) :
    serverFormat.Reads Frame.bytes id fs where
  whole f hf := by
    have hv := h f hf
    have hh := hv.ofBytes []
    obtain ⟨h1, h2⟩ := hv
    rw [List.append_nil] at hh
    simp only [serverFormat, serverHead, hh, f.bytes_length, f.bytes_drop, Int.toNat_natCast]
    rw [if_neg (by omega), if_neg (by omega), if_neg (by omega), if_neg (by omega),
      List.take_length]
    rfl
  part f hf bs hp hne := by
    simp only [serverFormat, serverHead]
    rcases (h f hf).part hp hne with h0 | ⟨h0, h1⟩
    · rw [if_pos (by omega)]
    · obtain ⟨hv1, hv2⟩ := h f hf
      rw [h0]
      simp only [Int.toNat_natCast]
      by_cases h2 : bs.length ≤ Header.size
      · rw [if_pos h2]
      · rw [if_neg h2, if_neg (by omega), if_pos (by omega)]
  empty := by simp [serverFormat, serverHead]

namespace Receiver

/-! ### One round -/

section

variable {b : MyRingBuffer UInt8} (hb : b.WF)
include hb

/-- The message gets the oldest bytes of the buffer, across its end or not. -/
theorem putPayload_eq {header : Header} (hlen : header.len.toNat ≤ b.useSize)
    (sessionID : SeqAndIdx) :
    putPayload sessionID header b b.rear =
      if BufferSize < header.len.toNat then .error (.messageException .notEnoughSpace)
      else .ok ⟨sessionID, header.randKey, b.contents.take header.len.toNat, 0⟩ := by
  have hc := hb.copyOut_eq hlen
  unfold MyRingBuffer.copyOut at hc
  unfold putPayload
  set len := header.len.toNat
  simp only
  by_cases hd : b.getDirectUseSize b.front b.rear < len
  · rw [if_neg (by omega)] at hc
    rw [if_pos hd, ← hc]
    by_cases h1 : BufferSize < b.getDirectUseSize b.front b.rear
    · rw [Message.putData_error (by simpa [Message.initMessage] using h1), if_pos (by omega)]
      rfl
    · rw [Message.putData_ok (by simpa [Message.initMessage] using h1)]
      simp only [bind, Except.bind, Message.initMessage, List.nil_append]
      split_ifs with h2
      · exact Message.putData_error (by simp only [load_length]; omega)
      · exact Message.putData_ok (by simp only [load_length]; omega)
  · rw [if_pos (by omega)] at hc
    rw [if_neg hd, ← hc]
    split_ifs with h2
    · exact Message.putData_error (by simpa [Message.initMessage] using h2)
    · exact Message.putData_ok (by simpa [Message.initMessage] using h2)

/-- A round does what the format says of the buffer's contents. -/
theorem completeRecvRound_spec (sessionID : SeqAndIdx) :
    match serverFormat.head b.contents with
    | .more => completeRecvRound sessionID b = .ok (.wait, b)
    | .bad .invalidLen => completeRecvRound sessionID b = .ok (.disconnect, b)
    | .bad .tooLong => completeRecvRound sessionID b = .error (.messageException .notEnoughSpace)
    | .frame f n => ∃ b', completeRecvRound sessionID b = .ok (.message (f.message sessionID), b') ∧
        b'.WF ∧ b'.size = b.size ∧ b'.contents = b.contents.drop n := by
  have huse : b.getUseSize b.front b.rear = b.contents.length := by rw [b.contents_length]; rfl
  simp only [serverFormat, serverHead]
  by_cases h0 : b.contents.length ≤ Header.size
  · rw [if_pos h0]
    simp only [completeRecvRound, huse, if_pos h0]
    rfl
  have hpeek := hb.peek_eq (n := Header.size) (by rw [← b.contents_length]; omega)
  have hdeq := hb.dequeue_eq (n := Header.size) (by rw [← b.contents_length]; omega)
  rw [if_neg h0]
  set len := (Header.ofBytes b.contents).len with hlen
  by_cases h1 : len ≤ 0
  · rw [if_pos h1]
    simp only [completeRecvRound, huse, if_neg h0, hpeek, bind, Except.bind, Option.getD_some,
      Header.ofBytes_take, ← hlen, if_pos h1]
    rfl
  rw [if_neg h1]
  by_cases h2 : b.contents.length < len.toNat + Header.size
  · rw [if_pos h2]
    simp only [completeRecvRound, huse, if_neg h0, hpeek, bind, Except.bind, Option.getD_some,
      Header.ofBytes_take, ← hlen, if_neg h1]
    rw [if_neg (by omega)]
    rfl
  rw [if_neg h2]
  have hn : Header.size ≤ b.useSize := by rw [← b.contents_length]; omega
  have hwf := hb.moveFront_wf hn
  have hcont := hb.moveFront_contents hn
  have hrear : (b.moveFront Header.size).rear = b.rear := by rw [hb.moveFront_eq]
  have hpay : len.toNat ≤ (b.moveFront Header.size).useSize := by
    rw [← MyRingBuffer.contents_length, hcont, List.length_drop]; omega
  have hput := putPayload_eq hwf hpay sessionID
  rw [hrear, ← hlen] at hput
  have hround : completeRecvRound sessionID b = (do
      let msg ← putPayload sessionID (Header.ofBytes b.contents) (b.moveFront Header.size) b.rear
      return (.message msg, (b.moveFront Header.size).moveFront len)) := by
    simp only [completeRecvRound, huse, if_neg h0, hpeek, hdeq, bind, Except.bind, Option.getD_some,
      Header.ofBytes_take, ← hlen, if_neg h1]
    rw [if_pos (by omega)]
  rw [hround, hput]
  by_cases h3 : BufferSize < len.toNat
  · rw [if_pos h3, if_pos h3]
    rfl
  · rw [if_neg h3, if_neg h3]
    have hl : len = (len.toNat : ℤ) := by omega
    refine ⟨(b.moveFront Header.size).moveFront len.toNat, ?_, hwf.moveFront_wf hpay, ?_, ?_⟩
    · rw [hcont, ← hl]; rfl
    · rw [hwf.moveFront_eq, hb.moveFront_eq]
    · rw [hwf.moveFront_contents hpay, hcont, List.drop_drop]

end

/-! ### One completion -/

variable {σ : Type}

/-- What `onRecv` does with one message after the other. -/
def deliver (onRecv : Message → σ → Except Stop (σ × Bool)) (sessionID : SeqAndIdx) (p : σ × Bool)
    (f : Frame) : Except Stop (σ × Bool) := do
  let (app, disconnect) ← onRecv (f.message sessionID) p.1
  return (app, p.2 && !disconnect)

/-- The loop delivers the whole messages at the beginning of the buffer; then
it waits, disconnects or throws as the format says. -/
theorem completeRecvLoop_eq (onRecv : Message → σ → Except Stop (σ × Bool)) (fuel : ℕ)
    (s : Receiver) (app : σ) (hb : s.recvBuffer.WF) (hfuel : s.recvBuffer.useSize ≤ fuel) :
    ∃ b' : MyRingBuffer UInt8,
      (∀ tail, (serverFormat.scan s.recvBuffer.contents).2 = .ok tail →
        b'.WF ∧ b'.size = s.recvBuffer.size ∧ b'.contents = tail) ∧
      completeRecvLoop onRecv fuel s app = (do
        let (app, live) ← (serverFormat.scan s.recvBuffer.contents).1.foldlM
          (deliver onRecv s.sessionID) (app, s.live)
        match (serverFormat.scan s.recvBuffer.contents).2 with
        | .ok _ => return (registerRecv { s with recvBuffer := b', live }, app)
        | .error .invalidLen => return ({ s with recvBuffer := b', live := false }, app)
        | .error .tooLong => throw (.messageException .notEnoughSpace)) := by
  induction fuel generalizing s app with
  | zero =>
    have hc : s.recvBuffer.contents = [] :=
      List.eq_nil_of_length_eq_zero (by rw [MyRingBuffer.contents_length]; omega)
    rw [hc, Format.scan_more (by simp [serverFormat, serverHead])]
    exact ⟨s.recvBuffer, fun tail h => by cases h; exact ⟨hb, rfl, hc⟩, rfl⟩
  | succ fuel ih =>
    have hspec := completeRecvRound_spec hb s.sessionID
    rcases hh : serverFormat.head s.recvBuffer.contents with _ | (_ | _) | ⟨f, n⟩ <;>
      simp only [hh] at hspec
    · rw [Format.scan_more hh]
      refine ⟨s.recvBuffer, fun tail h => by cases h; exact ⟨hb, rfl, rfl⟩, ?_⟩
      simp only [completeRecvLoop, hspec, bind, Except.bind]
      rfl
    · rw [Format.scan_bad hh]
      refine ⟨s.recvBuffer, fun tail h => (by cases h), ?_⟩
      simp only [completeRecvLoop, hspec, bind, Except.bind]
      rfl
    · rw [Format.scan_bad hh]
      refine ⟨s.recvBuffer, fun tail h => (by cases h), ?_⟩
      simp only [completeRecvLoop, hspec, bind, Except.bind]
      rfl
    · obtain ⟨b1, h1, h2, h3, h4⟩ := hspec
      have hn := serverFormat.frame_le hh
      have hlen : b1.useSize ≤ fuel := by
        rw [← b1.contents_length, h4, List.length_drop]
        rw [← s.recvBuffer.contents_length] at hfuel
        omega
      rw [Format.scan_frame hh, ← h4]
      simp only [completeRecvLoop, h1, bind, Except.bind, List.foldlM_cons, deliver]
      rcases hr : onRecv (f.message s.sessionID) app with e | ⟨app', disconnect⟩
      · obtain ⟨b2, e1, -⟩ := ih { s with recvBuffer := b1 } app h2 hlen
        refine ⟨b2, fun tail ht => ?_, rfl⟩
        obtain ⟨w1, w2, w3⟩ := e1 tail ht
        exact ⟨w1, w2.trans h3, w3⟩
      · obtain ⟨b2, e1, e2⟩ := ih { s with recvBuffer := b1, live := s.live && !disconnect } app'
          h2 hlen
        refine ⟨b2, fun tail ht => ?_, ?_⟩
        · obtain ⟨w1, w2, w3⟩ := e1 tail ht
          exact ⟨w1, w2.trans h3, w3⟩
        · exact e2

/-- The kernel's writes are the copy loops of `Enqueue`. -/
theorem scatter_wsabufs (b : MyRingBuffer UInt8) {bytes : List UInt8}
    (h : bytes.length ≤ b.freeSize) :
    scatter b.buffer (wsabufs b) bytes = b.copyIn b.front b.rear bytes := by
  rw [MyRingBuffer.freeSize] at h
  unfold wsabufs MyRingBuffer.copyIn
  simp only
  set d := b.getDirectFreeSize b.front b.rear
  by_cases hd : bytes.length ≤ d
  · have h1 : bytes.take d = bytes := List.take_of_length_le hd
    have h2 : bytes.drop d = [] := List.drop_eq_nil_of_le hd
    rw [if_pos hd]
    split_ifs <;> simp [scatter, h1, h2, store]
  · have h1 : (bytes.drop d).take (b.getFreeSize b.front b.rear - d) = bytes.drop d :=
      List.take_of_length_le (by rw [List.length_drop]; omega)
    rw [if_neg hd, if_pos (by omega)]
    simp [scatter, h1]

/-- The bytes a completion brings stand behind what the buffer held. -/
theorem fill_eq {b : MyRingBuffer UInt8} (hb : b.WF) {bytes : List UInt8}
    (hfit : bytes.length ≤ b.freeSize) :
    ∃ b', MyRingBuffer.moveRear { b with buffer := scatter b.buffer (wsabufs b) bytes }
      bytes.length = .ok b' ∧ b'.WF ∧ b'.size = b.size ∧ b'.contents = b.contents ++ bytes := by
  obtain ⟨h1, h2⟩ := hb.copyIn_eq hfit
  rw [← scatter_wsabufs _ hfit] at h1 h2
  exact hb.append_eq hfit h1 h2

/-- The receive half of a session that waits for more: its buffer holds
`tail`, and a `WSARecv` on all the room there is is outstanding. -/
structure Posted (s : Receiver) (tail : List UInt8) : Prop where
  wf : s.recvBuffer.WF
  size_eq : s.recvBuffer.size = RINGBUFFER_SIZE
  contents : s.recvBuffer.contents = tail
  live : s.live = true
  wsabuf : s.wsabuf = some (wsabufs s.recvBuffer)

/-- The receive half of a session that is disconnected: nothing comes any more. -/
structure Closed (s : Receiver) : Prop where
  live : s.live = false
  wsabuf : s.wsabuf = none

theorem registerRecv_posted {s : Receiver} (hb : s.recvBuffer.WF)
    (hs : s.recvBuffer.size = RINGBUFFER_SIZE) (hl : s.live = true)
    (hf : s.recvBuffer.freeSize ≠ 0) : Posted s.registerRecv s.recvBuffer.contents := by
  have he : s.registerRecv = { s with wsabuf := some (wsabufs s.recvBuffer) } := by
    unfold registerRecv; rw [if_neg (by exact hf), if_pos hl]
  rw [he]
  exact ⟨hb, hs, rfl, hl, rfl⟩

theorem registerRecv_closed {s : Receiver} (hw : s.wsabuf = none)
    (h : s.live = false ∨ s.recvBuffer.freeSize = 0) : Closed s.registerRecv := by
  unfold registerRecv
  rcases h with h | h
  · split_ifs with h1 h2
    · exact ⟨rfl, hw⟩
    · simp [h] at h2
    · exact ⟨h, hw⟩
  · rw [if_pos (by exact h)]; exact ⟨rfl, hw⟩

/-- A completion delivers a scan of what was left and what it brings. -/
theorem receive_eq (onRecv : Message → σ → Except Stop (σ × Bool)) {s : Receiver} (app : σ)
    {tail bytes : List UInt8} (h : Posted s tail) (hne : bytes ≠ [])
    (hfit : bytes.length ≤ s.recvBuffer.freeSize) :
    ∃ b' : MyRingBuffer UInt8,
      (∀ t, (serverFormat.scan (tail ++ bytes)).2 = .ok t →
        b'.WF ∧ b'.size = s.recvBuffer.size ∧ b'.contents = t) ∧
      receive onRecv (s, app) bytes = (do
        let (app, live) ←
          (serverFormat.scan (tail ++ bytes)).1.foldlM (deliver onRecv s.sessionID) (app, true)
        match (serverFormat.scan (tail ++ bytes)).2 with
        | .ok _ => return (registerRecv ⟨s.sessionID, b', live, none⟩, app)
        | .error .invalidLen => return (⟨s.sessionID, b', false, none⟩, app)
        | .error .tooLong => throw (.messageException .notEnoughSpace)) := by
  obtain ⟨b1, e1, e2, e3, e4⟩ := fill_eq h.wf hfit
  rw [h.contents] at e4
  obtain ⟨b2, f1, f2⟩ :=
    completeRecvLoop_eq onRecv b1.useSize ⟨s.sessionID, b1, s.live, none⟩ app e2 le_rfl
  simp only [e4, e3, h.live] at f1 f2
  refine ⟨b2, f1, ?_⟩
  rw [← f2]
  simp only [receive, h.wsabuf, if_neg hne, completeRecv, e1, bind, Except.bind, h.live]
  rfl

end Receiver
end MyMMO
