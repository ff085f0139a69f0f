/-
# A client and its player's receive queue

`FieldServer::onRecv` puts a pointer to every message into `Player::mRecvQ`,
counts it in `mSendMsgCnt` and disconnects the session when the count reaches
`CONFIG_SESSION_SENDQ_CAPPACITY`; the thread that owns the player takes
messages out and counts them off again. The check stops the next `WSARecv`,
but not the loop of the completion that is being handled, so what the queue has
to hold is what one completion can carry, on top of what was there before.

`chunks` is what the client sends, already cut into completions. `completed`
counts the messages each of them completes, and `never_full_iff` says for which
counts the queue cannot overflow, whatever the owning thread does.
-/
import MyMMO.RecvStream
import MyMMO.PointerQueue
import MyMMO.Lib.System

namespace MyMMO
namespace RecvQueue

open Framing Receiver

/-- `CONFIG_SESSION_SENDQ_CAPPACITY`. -/
def SENDQ_CAPPACITY : ℕ := 500

/-- Where the worker stands that handles a completion: before a round of the
loop in `completeRecv`, at the start of `onRecv`, or in it behind `EnQueueMsg`. -/
inductive WorkerPc
  | idle
  | round
  | onRecv (msg : Message)
  | enqueued
  deriving DecidableEq

/-- Where the thread stands that owns the player. -/
inductive ConsumerPc
  | idle
  | processing
  deriving DecidableEq

/-- The session, the player's queue and counter, and the completions to come. -/
structure State where
  receiver : Receiver
  recvQ : MyRingBuffer (Message × ℕ)
  sendMsgCnt : ℤ
  worker : WorkerPc
  consumer : ConsumerPc
  chunks : List (List UInt8)
  halted : Option Stop

inductive Step
  | receive
  | round
  | enQueueMsg
  | count
  | deQueueMsg
  | processed
  | disconnect

/-- A step of the worker, of the owning thread, or of another one that
disconnects the session. -/
def next (s : State) (a : Step) : Option State :=
  if s.halted ≠ none then none
  else match a, s.worker, s.consumer with
  | .receive, .idle, _ =>
    match s.receiver.wsabuf, s.chunks with
    | some bufs, c :: cs =>
      if c ≠ [] ∧ c.length ≤ s.receiver.recvBuffer.freeSize then
        let b := { s.receiver.recvBuffer with
          buffer := scatter s.receiver.recvBuffer.buffer bufs c }
        match b.moveRear c.length with
        | .ok b => some { s with
            receiver := { s.receiver with recvBuffer := b, wsabuf := none }
            worker := .round
            chunks := cs }
        | .error e => some { s with halted := some e }
      else none
    | _, _ => none
  | .round, .round, _ =>
    match completeRecvRound s.receiver.sessionID s.receiver.recvBuffer with
    | .error e => some { s with halted := some e }
    | .ok (.wait, b) =>
      some { s with receiver := registerRecv { s.receiver with recvBuffer := b }, worker := .idle }
    | .ok (.disconnect, b) =>
      some { s with receiver := { s.receiver with
        recvBuffer := b, live := false }, worker := .idle }
    | .ok (.message msg, b) =>
      some { s with receiver := { s.receiver with recvBuffer := b }, worker := .onRecv msg }
  | .enQueueMsg, .onRecv msg, _ =>
    match s.recvQ.enqueue (pointerBytes msg) with
    | .error e => some { s with halted := some e }
    | .ok recvQ => some { s with recvQ, worker := .enqueued }
  | .count, .enqueued, _ =>
    let playerMsgQCnt := s.sendMsgCnt + 1
    some { s with
      sendMsgCnt := playerMsgQCnt
      receiver := { s.receiver with
        live := s.receiver.live && !decide ((SENDQ_CAPPACITY : ℤ) ≤ playerMsgQCnt) }
      worker := .round }
  | .deQueueMsg, _, .idle =>
    if s.recvQ.getUseSize s.recvQ.front s.recvQ.rear < POINTER_SIZE then some s
    else match s.recvQ.dequeue POINTER_SIZE with
      | .error e => some { s with halted := some e }
      | .ok (_, recvQ) => some { s with recvQ, consumer := .processing }
  | .processed, _, .processing => some { s with sendMsgCnt := s.sendMsgCnt - 1, consumer := .idle }
  | .disconnect, _, _ => some { s with receiver := { s.receiver with live := false } }
  | _, _, _ => none

/-- A session just accepted, its player's queue empty. -/
structure Initial (chunks : List (List UInt8)) (s : State) : Prop where
  posted : Posted s.receiver []
  recvQ : Holds s.recvQ []
  sendMsgCnt : s.sendMsgCnt = 0
  worker : s.worker = .idle
  consumer : s.consumer = .idle
  chunks : s.chunks = chunks
  halted : s.halted = none

/-- The client that sends `chunks`, and the threads of the server. -/
def recvQueue (chunks : List (List UInt8)) : System State Step where
  init := Initial chunks
  next := next

/-! ### What the completions carry -/

/-- How many messages each completion completes, up to the one that ends the
connection or cannot come. `tail` is what the buffer still holds. -/
def completed : List UInt8 → List (List UInt8) → List ℕ
  | _, [] => []
  | tail, c :: cs =>
    if c ≠ [] ∧ tail.length + c.length ≤ RECV_CAPACITY then
      (serverFormat.scan (tail ++ c)).1.length ::
        match (serverFormat.scan (tail ++ c)).2 with
        | .ok t => if t.length < RECV_CAPACITY then completed t cs else []
        | .error _ => []
    else []

/-- Each completion finds room in the queue: for what it carries, on top of
what may have been left of the `before` messages before it, which is less than
the count that disconnects. -/
def Absorbed : ℕ → List ℕ → Prop
  | _, [] => True
  | before, m :: ms => min (SENDQ_CAPPACITY - 1) before + m ≤ POINTER_CAPACITY ∧
    Absorbed (before + m) ms

/-! ### The invariant -/

/-- What a receive buffer holds. -/
structure Ring (b : MyRingBuffer UInt8) (bs : List UInt8) : Prop where
  wf : b.WF
  size_eq : b.size = RINGBUFFER_SIZE
  contents : b.contents = bs

theorem Ring.length_add_free {b : MyRingBuffer UInt8} {bs : List UInt8} (h : Ring b bs) :
    bs.length + b.freeSize = RECV_CAPACITY := by
  have := h.wf.use_add_free
  rw [← MyRingBuffer.contents_length, h.contents, h.size_eq] at this
  simp only [RECV_CAPACITY]; omega

/-- The completions behind the one that is being handled are absorbed. -/
def Future (done : ℕ) (bs : List UInt8) (chunks : List (List UInt8)) : Prop :=
  ∀ t, (serverFormat.scan bs).2 = .ok t → t.length < RECV_CAPACITY →
    Absorbed (done + (serverFormat.scan bs).1.length) (completed t chunks)

/-- Taking a message off leaves the same completions to come. -/
theorem Future.frame {done : ℕ} {bs : List UInt8} {chunks : List (List UInt8)} {f : Frame} {n : ℕ}
    (h : Future done bs chunks) (hh : serverFormat.head bs = .frame f n) :
    Future (done + 1) (bs.drop n) chunks := by
  intro t ht hlt
  have hf := h t (by rw [Format.scan_frame hh]; exact ht) hlt
  rw [Format.scan_frame hh, List.length_cons] at hf
  rwa [Nat.add_assoc, Nat.add_comm 1]

/-- The worker's part: what is left of its completion still fits the queue,
and a `WSARecv` is only outstanding while the queue holds less than the count
that disconnects. -/
def WorkerInv (done held : ℕ) (s : Receiver) (chunks : List (List UInt8)) : WorkerPc → Prop
  | .idle => s.wsabuf ≠ none → held < SENDQ_CAPPACITY ∧ s.wsabuf = some (wsabufs s.recvBuffer) ∧
      ∃ tail, Ring s.recvBuffer tail ∧ Absorbed done (completed tail chunks)
  | .round => s.wsabuf = none ∧ (s.live = true → held < SENDQ_CAPPACITY) ∧
      ∃ bs, Ring s.recvBuffer bs ∧ held + (serverFormat.scan bs).1.length ≤ POINTER_CAPACITY ∧
        Future done bs chunks
  | .onRecv _ => s.wsabuf = none ∧
      ∃ bs, Ring s.recvBuffer bs ∧ held + 1 + (serverFormat.scan bs).1.length ≤ POINTER_CAPACITY ∧
        Future (done + 1) bs chunks
  | .enqueued => s.wsabuf = none ∧
      ∃ bs, Ring s.recvBuffer bs ∧ held + (serverFormat.scan bs).1.length ≤ POINTER_CAPACITY ∧
        Future done bs chunks

/-- The owning thread can only make more room. -/
theorem WorkerInv.mono {done held held' : ℕ} {s : Receiver} {chunks : List (List UInt8)}
    {w : WorkerPc} (h : WorkerInv done held s chunks w) (hle : held' ≤ held) :
    WorkerInv done held' s chunks w := by
  cases w with
  | idle =>
    intro hne
    obtain ⟨h1, h2⟩ := h hne
    exact ⟨by omega, h2⟩
  | round =>
    obtain ⟨h1, h2, bs, h3, h4, h5⟩ := h
    exact ⟨h1, fun hl => by have := h2 hl; omega, bs, h3, by omega, h5⟩
  | onRecv msg =>
    obtain ⟨h1, bs, h2, h3, h4⟩ := h
    exact ⟨h1, bs, h2, by omega, h4⟩
  | enqueued =>
    obtain ⟨h1, bs, h2, h3, h4⟩ := h
    exact ⟨h1, bs, h2, by omega, h4⟩

/-- Nor does disconnecting harm. -/
theorem WorkerInv.disconnect {done held : ℕ} {s : Receiver}
    {chunks : List (List UInt8)} {w : WorkerPc} (h : WorkerInv done held s chunks w) :
    WorkerInv done held { s with live := false } chunks w := by
  cases w with
  | idle => exact h
  | round =>
    obtain ⟨h1, -, h2⟩ := h
    exact ⟨h1, fun hl => (by cases hl), h2⟩
  | onRecv msg => exact h
  | enqueued => exact h

/-- `done` messages have been put into the queue and `held` are still there;
the counter is behind by the one that is being put in and ahead by the one that
has just been taken out. -/
structure Active (done : ℕ) (held : List Message) (s : State) : Prop where
  recvQ : Holds s.recvQ held
  held_le : held.length ≤ done
  count : s.sendMsgCnt = held.length + (if s.consumer = .processing then 1 else 0) -
    (if s.worker = .enqueued then 1 else 0)
  worker : WorkerInv done held.length s.receiver s.chunks s.worker

/-- The queue has not overflowed, and will not. -/
def Inv (s : State) : Prop :=
  s.halted ≠ some (.ringBufferAssert .bufferFull) ∧
    (s.halted = none → ∃ done held, Active done held s)

theorem Inv.of_active {done : ℕ} {held : List Message} {s : State} (h0 : s.halted = none)
    (h : Active done held s) : Inv s := ⟨by rw [h0]; simp, fun _ => ⟨done, held, h⟩⟩

theorem Inv.of_halted {s : State} {e : Stop} (h : s.halted = some e)
    (he : e ≠ .ringBufferAssert .bufferFull) : Inv s :=
  ⟨by rw [h]; simpa using he, fun h0 => by rw [h] at h0; cases h0⟩

section

variable {done : ℕ} {held : List Message} {s t : State} (h0 : s.halted = none)
    (h : Active done held s)
include h0 h

theorem inv_receive (he : next s .receive = some t) : Inv t := by
  have hw := h.worker
  rcases hwk : s.worker with _ | _ | _ | _ <;>
    (unfold next at he; simp only [hwk, if_neg (not_not.mpr h0)] at he)
  case idle =>
    rcases hb : s.receiver.wsabuf with _ | bufs <;> rcases hc : s.chunks with _ | ⟨c, cs⟩ <;>
      simp only [hb, hc] at he
    case some.cons =>
      simp only [WorkerInv, hwk, hb, hc] at hw
      obtain ⟨w1, w2, tail, w3, w4⟩ := hw (by simp)
      cases w2
      split at he
      · rename_i hfit
        obtain ⟨b, e1, e2, e3, e4⟩ := fill_eq w3.wf hfit.2
        rw [e1] at he
        cases he
        have hlen := w3.length_add_free
        rw [completed, if_pos ⟨hfit.1, by omega⟩] at w4
        rw [w3.contents] at e4
        obtain ⟨a1, a2⟩ := w4
        refine Inv.of_active h0 ⟨h.recvQ, h.held_le, by simpa [hwk] using h.count, ?_⟩
        refine ⟨rfl, fun _ => w1, tail ++ c, ⟨e2, e3.trans w3.size_eq, e4⟩, ?_, fun t ht hlt => ?_⟩
        · have := h.held_le
          omega
        · rw [ht] at a2
          simpa [hlt] using a2
      · cases he
    all_goals cases he
  all_goals cases he

theorem inv_round (he : next s .round = some t) : Inv t := by
  have hw := h.worker
  rcases hwk : s.worker with _ | _ | _ | _ <;>
    (unfold next at he; simp only [hwk, if_neg (not_not.mpr h0)] at he)
  case round =>
    simp only [WorkerInv, hwk] at hw
    obtain ⟨w1, w2, bs, w3, w4, w5⟩ := hw
    have hspec := completeRecvRound_spec w3.wf s.receiver.sessionID
    rw [w3.contents] at hspec
    have hcount := h.count
    rw [hwk] at hcount
    rcases hh : serverFormat.head bs with _ | (_ | _) | ⟨f, n⟩ <;> simp only [hh] at hspec
    · rw [hspec] at he
      cases he
      rw [Format.scan_more hh] at w4
      have hlen := w3.length_add_free
      refine Inv.of_active h0 ⟨h.recvQ, h.held_le, by simpa using hcount, fun hne => ?_⟩
      -- posted again, so the session is live and the buffer is not full
      have hfree : s.receiver.recvBuffer.freeSize ≠ 0 := by
        intro hf
        refine hne ?_
        simp only [registerRecv]
        rw [if_pos (by exact hf)]
        exact w1
      have hlive : s.receiver.live = true := by
        by_contra hl
        refine hne ?_
        simp only [registerRecv]
        rw [if_neg (by exact hfree), if_neg hl]
        exact w1
      have hreg : s.receiver.registerRecv =
          { s.receiver with wsabuf := some (wsabufs s.receiver.recvBuffer) } := by
        simp only [registerRecv]
        rw [if_neg (by exact hfree), if_pos hlive]
      have hfut := w5 bs (by rw [Format.scan_more hh]) (by omega)
      rw [Format.scan_more hh] at hfut
      simp only [hreg]
      exact ⟨w2 hlive, trivial, bs, w3, hfut⟩
    · rw [hspec] at he
      cases he
      exact Inv.of_active h0 ⟨h.recvQ, h.held_le, by simpa using hcount, fun hne => absurd w1 hne⟩
    · rw [hspec] at he
      cases he
      exact Inv.of_halted rfl (by simp)
    · obtain ⟨b', e1, e2, e3, e4⟩ := hspec
      rw [e1] at he
      cases he
      rw [Format.scan_frame hh, List.length_cons] at w4
      exact Inv.of_active h0 ⟨h.recvQ, h.held_le, by simpa using hcount, w1, bs.drop n,
        ⟨e2, e3.trans w3.size_eq, e4⟩, by omega, w5.frame hh⟩
  all_goals cases he

theorem inv_enQueueMsg (he : next s .enQueueMsg = some t) : Inv t := by
  have hw := h.worker
  rcases hwk : s.worker with _ | _ | msg | _ <;>
    (unfold next at he; simp only [hwk, if_neg (not_not.mpr h0)] at he)
  case onRecv =>
    simp only [WorkerInv, hwk] at hw
    obtain ⟨w1, bs, w3, w4, w5⟩ := hw
    obtain ⟨q, e1, e2⟩ := h.recvQ.enqueue (by omega) msg
    rw [e1] at he
    cases he
    have hcount := h.count
    rw [hwk] at hcount
    have hlen : (held ++ [msg]).length = held.length + 1 := by simp
    have hact : Active (done + 1) (held ++ [msg]) { s with recvQ := q, worker := .enqueued } := by
      refine ⟨e2, ?_, ?_, w1, bs, w3, by omega, w5⟩
      · have := h.held_le
        omega
      · simp only [reduceIte, reduceCtorEq, hlen] at hcount ⊢
        push_cast
        omega
    exact Inv.of_active h0 hact
  all_goals cases he

theorem inv_count (he : next s .count = some t) : Inv t := by
  have hw := h.worker
  rcases hwk : s.worker with _ | _ | _ | _ <;>
    (unfold next at he; simp only [hwk, if_neg (not_not.mpr h0)] at he)
  case enqueued =>
    simp only [WorkerInv, hwk] at hw
    obtain ⟨w1, bs, w3, w4, w5⟩ := hw
    cases he
    have hcount := h.count
    simp only [hwk, reduceIte] at hcount
    refine Inv.of_active h0 ⟨h.recvQ, h.held_le, ?_, w1, fun hlive => ?_, bs, w3, w4, w5⟩
    · simp only [reduceIte, reduceCtorEq]
      omega
    · simp only [Bool.and_eq_true, Bool.not_eq_true', decide_eq_false_iff_not] at hlive
      have := hlive.2
      split_ifs at hcount <;> omega
  all_goals cases he

theorem inv_deQueueMsg (he : next s .deQueueMsg = some t) : Inv t := by
  have hw := h.worker
  rcases hck : s.consumer with _ |
      _ <;> (unfold next at he; simp only [hck, if_neg (not_not.mpr h0)] at he)
  case idle =>
    have hlt := h.recvQ.use_lt_iff
    rw [MyRingBuffer.useSize] at hlt
    split at he
    · cases he
      exact Inv.of_active h0 h
    · rename_i huse
      rcases held with _ | ⟨x, held⟩
      · exact absurd (hlt.mpr rfl) huse
      · obtain ⟨q, e1, e2⟩ := h.recvQ.dequeue
        rw [e1] at he
        cases he
        have hle := h.held_le
        have hcount := h.count
        rw [List.length_cons] at hle hcount
        have hact : Active done held { s with recvQ := q, consumer := .processing } := by
          refine ⟨e2, by omega, ?_, hw.mono (by simp)⟩
          simp only [hck, reduceIte, reduceCtorEq] at hcount ⊢
          push_cast at hcount
          omega
        exact Inv.of_active h0 hact
  case processing => cases he

theorem inv_processed (he : next s .processed = some t) : Inv t := by
  rcases hck : s.consumer with _ |
      _ <;> (unfold next at he; simp only [hck, if_neg (not_not.mpr h0)] at he)
  case idle => cases he
  case processing =>
    cases he
    have hcount := h.count
    simp only [hck, reduceIte] at hcount
    have hact : Active done held { s with sendMsgCnt := s.sendMsgCnt - 1, consumer := .idle } := by
      refine ⟨h.recvQ, h.held_le, ?_, h.worker⟩
      simp only [reduceIte, reduceCtorEq]
      omega
    exact Inv.of_active h0 hact

theorem inv_disconnect (he : next s .disconnect = some t) : Inv t := by
  unfold next at he; simp only [if_neg (not_not.mpr h0)] at he
  cases he
  exact Inv.of_active h0 ⟨h.recvQ, h.held_le, h.count, h.worker.disconnect⟩

end

theorem inv_step {s t : State} {a : Step} (h : Inv s) (he : next s a = some t) : Inv t := by
  have h0 : s.halted = none := by
    by_contra hne
    unfold next at he
    rw [if_pos hne] at he
    cases he
  obtain ⟨done, held, hact⟩ := h.2 h0
  cases a with
  | receive => exact inv_receive h0 hact he
  | round => exact inv_round h0 hact he
  | enQueueMsg => exact inv_enQueueMsg h0 hact he
  | count => exact inv_count h0 hact he
  | deQueueMsg => exact inv_deQueueMsg h0 hact he
  | processed => exact inv_processed h0 hact he
  | disconnect => exact inv_disconnect h0 hact he

theorem Initial.inv {chunks : List (List UInt8)} {s : State} (h : Initial chunks s)
    (habs : Absorbed 0 (completed [] chunks)) : Inv s := by
  have hact : Active 0 [] s := by
    refine ⟨h.recvQ, le_rfl, by simp [h.sendMsgCnt, h.consumer, h.worker], ?_⟩
    rw [h.worker]
    intro _
    exact ⟨by simp [SENDQ_CAPPACITY], h.posted.wsabuf, [],
      ⟨h.posted.wf, h.posted.size_eq, h.posted.contents⟩, h.chunks ▸ habs⟩
  exact Inv.of_active h.halted hact

/-- If every completion finds room, no run overflows the queue. -/
theorem absorbed_never_full {chunks : List (List UInt8)} (habs : Absorbed 0 (completed [] chunks)) :
    (recvQueue chunks).Invariant Inv where
  init h := h.inv habs
  step _ h he := inv_step h he

/-! ### How the queue overflows -/

/-- The worker is in the loop with `bs` left in the buffer, the owning thread
does nothing, and `held` is in the queue. -/
structure InLoop (held : List Message) (bs : List UInt8) (s : State) : Prop where
  halted : s.halted = none
  worker : s.worker = .round
  consumer : s.consumer = .idle
  wsabuf : s.receiver.wsabuf = none
  ring : Ring s.receiver.recvBuffer bs
  recvQ : Holds s.recvQ held
  count : s.sendMsgCnt = held.length

/-- A completion may come; the owning thread does nothing. -/
structure Quiet (held : List Message) (tail : List UInt8) (s : State) : Prop where
  halted : s.halted = none
  worker : s.worker = .idle
  consumer : s.consumer = .idle
  posted : Posted s.receiver tail
  recvQ : Holds s.recvQ held
  count : s.sendMsgCnt = held.length

section

variable (sent : List (List UInt8)) {held : List Message} {bs : List UInt8} {s : State}

/-- One message goes into the queue. -/
theorem InLoop.take (h : InLoop held bs s) {f : Frame} {n : ℕ}
    (hh : serverFormat.head bs = .frame f n) (hroom : held.length < POINTER_CAPACITY) :
    ∃ t, (recvQueue sent).Leads s t ∧ InLoop (held ++ [f.message s.receiver.sessionID])
        (bs.drop n) t ∧
      (s.receiver.live = true → held.length + 1 < SENDQ_CAPPACITY → t.receiver.live = true) ∧
      t.chunks = s.chunks := by
  have hspec := completeRecvRound_spec h.ring.wf s.receiver.sessionID
  rw [h.ring.contents, hh] at hspec
  obtain ⟨b, e1, e2, e3, e4⟩ := hspec
  obtain ⟨q, f1, f2⟩ := h.recvQ.enqueue hroom (f.message s.receiver.sessionID)
  set s1 : State := { s with
    receiver := { s.receiver with recvBuffer := b }
    worker := .onRecv (f.message s.receiver.sessionID) } with hs1
  set s2 : State := { s1 with recvQ := q, worker := .enqueued } with hs2
  have h1 : next s .round = some s1 := by
    (unfold next; simp only [if_neg (not_not.mpr h.halted), h.worker, e1, hs1])
  have h2 : next s1 .enQueueMsg = some s2 := by
    (unfold next; simp only [hs1, if_neg (not_not.mpr h.halted), f1, hs2])
  have h3 : next s2 .count = some { s2 with
      sendMsgCnt := s2.sendMsgCnt + 1
      receiver := { s2.receiver with
        live := s2.receiver.live && !decide ((SENDQ_CAPPACITY : ℤ) ≤ s2.sendMsgCnt + 1) }
      worker := .round } := by
    (unfold next; simp only [hs2, hs1, if_neg (not_not.mpr h.halted)])
  refine ⟨_, (System.Leads.step .round h1).trans ((System.Leads.step .enQueueMsg h2).trans
    (System.Leads.step .count h3)),
      ⟨h.halted, rfl, h.consumer, h.wsabuf, ⟨e2, e3.trans h.ring.size_eq, e4⟩,
    f2, ?_⟩, fun hl hlt => ?_, rfl⟩
  · simp only [hs2, hs1, h.count, List.length_append, List.length_singleton]
    push_cast; rfl
  · simp only [hs2, hs1, hl, h.count, Bool.true_and, Bool.not_eq_true', decide_eq_false_iff_not]
    omega

/-- One message does not fit. -/
theorem InLoop.full (h : InLoop held bs s) {f : Frame} {n : ℕ}
    (hh : serverFormat.head bs = .frame f n) (hfull : POINTER_CAPACITY ≤ held.length) :
    ∃ t, (recvQueue sent).Leads s t ∧ t.halted = some (.ringBufferAssert .bufferFull) := by
  have hspec := completeRecvRound_spec h.ring.wf s.receiver.sessionID
  rw [h.ring.contents, hh] at hspec
  obtain ⟨b, e1, -⟩ := hspec
  have f1 := h.recvQ.enqueue_full hfull (f.message s.receiver.sessionID)
  set s1 : State := { s with
    receiver := { s.receiver with recvBuffer := b }
    worker := .onRecv (f.message s.receiver.sessionID) } with hs1
  have h1 : next s .round = some s1 := by
    (unfold next; simp only [if_neg (not_not.mpr h.halted), h.worker, e1, hs1])
  have h2 : next s1 .enQueueMsg = some { s1 with
      halted := some (.ringBufferAssert .bufferFull) } := by
    (unfold next; simp only [hs1, if_neg (not_not.mpr h.halted), f1])
  exact ⟨_, (System.Leads.step .round h1).trans (System.Leads.step .enQueueMsg h2), rfl⟩

/-- The owning thread takes one message out. -/
theorem InLoop.consume {x : Message} (h : InLoop (x :: held) bs s) :
    ∃ t, (recvQueue sent).Leads s t ∧ InLoop held bs t ∧ t.receiver = s.receiver ∧
      t.chunks = s.chunks := by
  obtain ⟨q, e1, e2⟩ := h.recvQ.dequeue
  have huse : ¬s.recvQ.getUseSize s.recvQ.front s.recvQ.rear < POINTER_SIZE := fun hc => by
    simpa using h.recvQ.use_lt_iff.mp hc
  set s1 : State := { s with recvQ := q, consumer := .processing } with hs1
  have h1 : next s .deQueueMsg = some s1 := by
    (unfold next; simp only [if_neg (not_not.mpr h.halted), h.consumer, if_neg huse, e1, hs1])
  have h2 : next s1 .processed = some { s1 with
      sendMsgCnt := s1.sendMsgCnt - 1, consumer := .idle } := by
    (unfold next; simp only [hs1, if_neg (not_not.mpr h.halted)])
  refine ⟨_, (System.Leads.step .deQueueMsg h1).trans (System.Leads.step .processed h2),
    ⟨h.halted, h.worker, rfl, h.wsabuf, h.ring, e2, ?_⟩, rfl, rfl⟩
  simp only [hs1, h.count, List.length_cons]
  push_cast; omega

/-- A completion that carries more than fits overflows the queue if nothing is taken out. -/
theorem InLoop.overflow (h : InLoop held bs s)
    (hover : POINTER_CAPACITY < held.length + (serverFormat.scan bs).1.length) :
    ∃ t, (recvQueue sent).Leads s t ∧ t.halted = some (.ringBufferAssert .bufferFull) := by
  have hle := h.recvQ.length_le
  induction bs using serverFormat.scan_induction generalizing held s with
  | more bs hh => rw [Format.scan_more hh, List.length_nil] at hover; omega
  | bad bs e hh => rw [Format.scan_bad hh, List.length_nil] at hover; omega
  | frame bs f n hh ih =>
    rw [Format.scan_frame hh, List.length_cons] at hover
    by_cases hroom : held.length < POINTER_CAPACITY
    · obtain ⟨t, h1, h2, -⟩ := h.take sent hh hroom
      have hlen : (held ++ [f.message s.receiver.sessionID]).length = held.length + 1 := by simp
      obtain ⟨u, h3, h4⟩ := ih h2 (by omega) h2.recvQ.length_le
      exact ⟨u, h1.trans h3, h4⟩
    · exact h.full sent hh (by omega)

/-- A completion can be handled without disconnecting, if the owning thread
keeps the queue below the count, and no more than that. -/
theorem InLoop.keep (h : InLoop held bs s) (hlive : s.receiver.live = true) {done : ℕ}
    (hheld : held.length = min (SENDQ_CAPPACITY - 1) done) {tail : List UInt8}
    (hscan : (serverFormat.scan bs).2 = .ok tail) :
    ∃ t held', (recvQueue sent).Leads s t ∧ InLoop held' tail t ∧ t.receiver.live = true ∧
      t.chunks = s.chunks ∧
      held'.length = min (SENDQ_CAPPACITY - 1) (done + (serverFormat.scan bs).1.length) := by
  induction bs using serverFormat.scan_induction generalizing held s done with
  | more bs hh =>
    rw [Format.scan_more hh] at hscan ⊢
    cases hscan
    exact ⟨s, held, .refl s, h, hlive, rfl, by simpa using hheld⟩
  | bad bs e hh => rw [Format.scan_bad hh] at hscan; cases hscan
  | frame bs f n hh ih =>
    rw [Format.scan_frame hh] at hscan ⊢
    -- room below the count, made if need be
    obtain ⟨s1, held1, h1, h2, h3, h4, h5⟩ :
        ∃ s1 held1, (recvQueue sent).Leads s s1 ∧ InLoop held1 bs s1 ∧
        s1.receiver.live = true ∧ s1.chunks = s.chunks ∧
        held1.length + 1 = min (SENDQ_CAPPACITY - 1) (done + 1) := by
      by_cases hd : done < SENDQ_CAPPACITY - 1
      · exact ⟨s, held, .refl s, h, hlive, rfl, by omega⟩
      · rcases held with _ | ⟨x, held⟩
        · simp only [List.length_nil, SENDQ_CAPPACITY] at hheld hd
          omega
        · obtain ⟨t, e1, e2, e3, e4⟩ := h.consume sent
          rw [List.length_cons] at hheld
          exact ⟨t, held, e1, e2, e3 ▸ hlive, e4, by omega⟩
    simp only [SENDQ_CAPPACITY] at h5
    obtain ⟨s2, e1, e2, e3, e4⟩ := h2.take sent hh
      (by simp only [POINTER_CAPACITY, RINGBUFFER_SIZE, POINTER_SIZE]; omega)
    obtain ⟨s3, held3, f1, f2, f3, f4, f5⟩ := ih e2 (e3 h3 (by simp only [SENDQ_CAPPACITY]; omega))
      (by simp only [List.length_append, List.length_singleton, SENDQ_CAPPACITY]; exact h5) hscan
    refine ⟨s3, held3, h1.trans (e1.trans f1), f2, f3, f4.trans (e4.trans h4), ?_⟩
    rw [f5, List.length_cons, Nat.add_assoc, Nat.add_comm 1]

/-- The loop ends and the next `WSARecv` is posted. -/
theorem InLoop.finish (h : InLoop held bs s) (hlive : s.receiver.live = true)
    (hmore : serverFormat.head bs = .more) (hlen : bs.length < RECV_CAPACITY) :
    ∃ t, (recvQueue sent).Leads s t ∧ Quiet held bs t ∧ t.chunks = s.chunks := by
  have hspec := completeRecvRound_spec h.ring.wf s.receiver.sessionID
  rw [h.ring.contents, hmore] at hspec
  have hfree := h.ring.length_add_free
  have h1 : next s .round = some { s with
      receiver := registerRecv s.receiver, worker := .idle } := by
    (unfold next; simp only [if_neg (not_not.mpr h.halted), h.worker, hspec])
  have hp := registerRecv_posted h.ring.wf h.ring.size_eq hlive (by omega)
  rw [h.ring.contents] at hp
  exact ⟨_, .step .round h1, ⟨h.halted, rfl, h.consumer, hp, h.recvQ, h.count⟩, rfl⟩

/-- A completion comes. -/
theorem Quiet.receive {tail : List UInt8} (h : Quiet held tail s) {c : List UInt8}
    {cs : List (List UInt8)} (hc : s.chunks = c :: cs) (hne : c ≠ [])
    (hfit : tail.length + c.length ≤ RECV_CAPACITY) :
    ∃ t, (recvQueue sent).Leads s t ∧ InLoop held (tail ++ c) t ∧ t.receiver.live = true ∧
      t.chunks = cs := by
  have hring : Ring s.receiver.recvBuffer tail := ⟨h.posted.wf, h.posted.size_eq, h.posted.contents⟩
  have hfree := hring.length_add_free
  have hlen : c.length ≤ s.receiver.recvBuffer.freeSize := by omega
  obtain ⟨b, e1, e2, e3, e4⟩ := fill_eq h.posted.wf hlen
  rw [h.posted.contents] at e4
  have h1 : next s .receive = some { s with
      receiver := { s.receiver with recvBuffer := b, wsabuf := none }
      worker := .round
      chunks := cs } := by
    (unfold next; simp only [if_neg (not_not.mpr h.halted), h.worker, h.posted.wsabuf, hc, e1])
    rw [if_pos ⟨hne, hlen⟩]
  exact ⟨_, .step .receive h1, ⟨h.halted, rfl, h.consumer, rfl, ⟨e2, e3.trans h.posted.size_eq, e4⟩,
    h.recvQ, h.count⟩, h.posted.live, rfl⟩

/-- If some completion does not find room, a run overflows the queue: up to it
the owning thread keeps up just enough, then it stops. -/
theorem Quiet.overflow {tail : List UInt8} (h : Quiet held tail s) {before : ℕ}
    (hheld : held.length = min (SENDQ_CAPPACITY - 1) before) {chunks : List (List UInt8)}
    (hc : s.chunks = chunks) (hno : ¬Absorbed before (completed tail chunks)) :
    ∃ t, (recvQueue sent).Leads s t ∧ t.halted = some (.ringBufferAssert .bufferFull) := by
  induction chunks generalizing held tail s before with
  | nil => exact absurd trivial hno
  | cons c cs ih =>
    rw [completed] at hno
    by_cases hfit : c ≠ [] ∧ tail.length + c.length ≤ RECV_CAPACITY
    · rw [if_pos hfit, Absorbed] at hno
      obtain ⟨s1, h1, h2, h3, h4⟩ := h.receive sent hc hfit.1 hfit.2
      by_cases hm : min (SENDQ_CAPPACITY - 1) before + (serverFormat.scan (tail ++ c)).1.length ≤
          POINTER_CAPACITY
      · rcases hs : (serverFormat.scan (tail ++ c)).2 with e | t
        · rw [hs] at hno
          exact absurd ⟨hm, trivial⟩ hno
        · rw [hs] at hno
          by_cases hlt : t.length < RECV_CAPACITY
          · obtain ⟨s2, held2, e1, e2, e3, e4, e5⟩ := h2.keep sent h3 hheld hs
            obtain ⟨s3, f1, f2, f3⟩ := e2.finish sent e3 (Format.scan_ok hs).1 hlt
            simp only [hlt, if_true] at hno
            obtain ⟨u, g1, g2⟩ := ih f2 e5 (f3.trans (e4.trans h4)) fun hab => hno ⟨hm, hab⟩
            exact ⟨u, h1.trans (e1.trans (f1.trans g1)), g2⟩
          · simp only [hlt, if_false] at hno
            exact absurd ⟨hm, trivial⟩ hno
      · obtain ⟨u, e1, e2⟩ := h2.overflow sent (by omega)
        exact ⟨u, h1.trans e1, e2⟩
    · rw [if_neg hfit] at hno
      exact absurd trivial hno

end

/-- A session just accepted. -/
def initial (chunks : List (List UInt8)) : State where
  receiver := accepted ⟨0, 1⟩ newBuffer
  recvQ := .new RINGBUFFER_SIZE fun _ => (Frame.message ⟨0, 1⟩ ⟨0, []⟩, 0)
  sendMsgCnt := 0
  worker := .idle
  consumer := .idle
  chunks := chunks
  halted := none

theorem initial_initial (chunks : List (List UInt8)) : Initial chunks (initial chunks) :=
  ⟨(accepted_posted newBuffer_wf rfl rfl ⟨0, 1⟩).1, Holds.new _, rfl, rfl, rfl, rfl, rfl⟩

theorem not_absorbed_overflow {chunks : List (List UInt8)}
    (hno : ¬Absorbed 0 (completed [] chunks)) :
    ∃ s, (recvQueue chunks).Reachable s ∧ s.halted = some (.ringBufferAssert .bufferFull) := by
  have hi := initial_initial chunks
  have hq : Quiet [] [] (initial chunks) :=
    ⟨hi.halted, hi.worker, hi.consumer, hi.posted, hi.recvQ, rfl⟩
  obtain ⟨t, h1, h2⟩ := hq.overflow chunks rfl rfl hno
  exact ⟨t, (System.Reachable.start hi).leads h1, h2⟩

/-- **The queue cannot overflow exactly if every completion finds room**: the
messages it completes, and at most 499 of those before it, are no more than the
queue holds. -/
theorem never_full_iff (chunks : List (List UInt8)) :
    (∀ s, (recvQueue chunks).Reachable s → s.halted ≠ some (.ringBufferAssert .bufferFull)) ↔
      Absorbed 0 (completed [] chunks) := by
  refine ⟨fun h => ?_, fun habs s hs => ((absorbed_never_full habs).reachable hs).1⟩
  by_contra hno
  obtain ⟨s, h1, h2⟩ := not_absorbed_overflow hno
  exact h s h1 h2

/-- 3750 messages of one byte, 15000 bytes on the wire, in one completion. -/
def burst : List UInt8 := (List.replicate 3750 (⟨0, [0]⟩ : Frame)).flatMap Frame.bytes

theorem burst_overflows : ∃ s, (recvQueue [burst]).Reachable s ∧
    s.halted = some (.ringBufferAssert .bufferFull) := by
  refine not_absorbed_overflow ?_
  have hv : ∀ f ∈ List.replicate 3750 (⟨0, [0]⟩ : Frame), f.Valid := by
    intro f hf
    rw [List.eq_of_mem_replicate hf]
    decide
  have hscan := Format.scan_flatMap (serverFormat_reads hv).whole []
  rw [List.append_nil] at hscan
  have hcount : (serverFormat.scan burst).1.length = 3750 := by
    rw [burst, hscan, Format.scan_more (by simp [serverFormat, serverHead]), List.append_nil,
      List.length_map, List.length_replicate]
  have hlen : burst.length = 15000 := by
    rw [burst, List.length_flatMap, List.map_replicate, List.sum_replicate]
    rfl
  have hne : burst ≠ [] := fun h => by rw [h] at hlen; cases hlen
  rw [completed, List.nil_append, if_pos ⟨hne, by rw [hlen]; decide⟩, hcount, Absorbed]
  exact fun h => absurd h.1 (by decide)

end RecvQueue
end MyMMO
