/-
# A slot of the session pool

`mIOcnt` of a `Session` is a reference count while the session is in use, a
latch (`RELEASE_IOCOUNT`, bit 14) from the moment it has reached 0, and it is
set to 1 by `registerAcceptEx`, after the `AcceptEx` of the next incarnation has
been posted. Any number of threads work on the slot: the workers with the
completions they dequeue, and whoever calls `sendPost` and `disconnectSession`.
One step is one Interlocked operation, one posting, or one dequeue.

A thread is the stack of what it still has to do. What is on the stack when a
handler or a locked section begins is the `decr` it ends with, so the references
a thread holds are a sum over its stack (`Pc.refs`).
-/
import MyMMO.SendPath

namespace MyMMO

/-- `RELEASE_IOCOUNT`. -/
def RELEASE_IOCOUNT : ℕ := 16384

namespace Slot

/-- What an overlapped operation or a posted completion is for. -/
inductive Op
  | accept
  | recv
  | wake
  | send
  | release
  deriving DecidableEq

/-- A completion that is outstanding, and the incarnation it was issued for. -/
structure Completion where
  op : Op
  sessionID : SeqAndIdx
  deriving DecidableEq

/-- What is called with `sessionLock` held. -/
inductive Call
  | sendPost (msg : Message)
  | disconnectSession
  deriving DecidableEq

inductive Pc
  -- `sessionLock`, and what follows it
  | lock (id : SeqAndIdx) (call : Call)
  | compareID (id : SeqAndIdx) (call : Call)
  | unlockOther
  | send (pc : SendPc)
  | cutLive
  -- the end of a locked section or of a handler
  | decr
  | exchangeRelease
  | postRelease
  -- `completeAcceptEx`
  | accept
  | acceptLive
  | acceptCount
  -- `completeRecv` and `registerRecv`
  | recvFin
  | completeRecv
  | registerRecv
  | countRecv
  | wsaRecv
  | recvCutLive
  | recvUncount
  -- `completeRelease`
  | release
  | releaseSession
  | push
  -- `registerAcceptEx`
  | testOn
  | drawID
  | setID (id : SeqAndIdx)
  | acceptEx
  | setCount
  | countSlot
  | failed
  deriving DecidableEq

/-- What a call locks the session for. -/
def Call.body : Call → Pc
  | .sendPost msg => .send (.enQueueMsg msg)
  | .disconnectSession => .cutLive

/-- What a worker does with a completion; `transferred` is whether it carries bytes. -/
def Op.handler (transferred : Bool) : Op → List Pc
  | .accept => [.accept, .decr]
  | .recv => [if transferred then .completeRecv else .recvFin, .decr]
  | .wake | .send => [.send .completeSend, .decr]
  | .release => [.release]

/-- Where the slot is: in use, its release posted or being handled, in the stack of free slots,
taken out of it, or with the next `AcceptEx` posted and `mIOcnt` not yet set. -/
inductive Phase
  | used
  | releasing
  | free
  | arming
  | armed
  deriving DecidableEq

/-- A thread, and the incarnation it has had a reference to since it last had none. -/
structure Thread where
  stack : List Pc
  sessionID : SeqAndIdx

/-- The slot. `seqID` is the number the next incarnation of any slot gets;
`sessionCnt` and `activeSlotCnt` are what this slot adds to `mSessionCnt` and
`mActiveSlotCnt`; `released` are the incarnations whose release has been posted. -/
structure State where
  ioCnt : ℕ
  sessionID : SeqAndIdx
  seqID : ℕ
  live : Bool
  accepted : Bool
  bOn : Bool
  side : SendSide
  sessionCnt : ℤ
  activeSlotCnt : ℤ
  flying : List Completion
  threads : List Thread
  phase : Phase
  released : List SeqAndIdx

/-- What a step depends on besides the state: how a call of `AcceptEx`,
`WSARecv` or `WSASend` ends, whether the receive buffer is full, which calls
`onAccept` or `onRecv` make, and whether `completeRecv` comes to its end. -/
structure Answer where
  io : IoResult
  full : Bool
  calls : List (SeqAndIdx × Call)
  again : Bool

/-- Everything goes well. -/
def Answer.ok : Answer := ⟨.accepted, false, [], true⟩

/-- A thread calls `sendPost` or `disconnectSession`, a worker dequeues a
completion, a worker takes the slot out of the stack to arm it, a thread takes
its next step, another slot draws a number, or the server stops. -/
inductive Step
  | call (i : ℕ) (id : SeqAndIdx) (call : Call)
  | complete (i j : ℕ) (transferred : Bool)
  | arm (i : ℕ)
  | run (i : ℕ) (ans : Answer)
  | otherSlot
  | stop

namespace State

/-- `InterlockedIncrement16(&mIOcnt)`, on the 16 bits of the counter. -/
def incr (s : State) : State := { s with ioCnt := (s.ioCnt + 1) % 65536 }

/-- `InterlockedDecrement16(&mIOcnt)`. -/
def decr (s : State) : State := { s with ioCnt := (s.ioCnt + 65535) % 65536 }

/-- A completion is on its way. -/
def issue (s : State) (op : Op) : State := { s with flying := s.flying ++ [⟨op, s.sessionID⟩] }

end State

/-- What a step in the send path does to the slot. -/
def effect (s : State) : SendEffect → State
  | .none | .store _ | .drop => s
  | .count => s.incr
  | .uncount => s.decr
  | .cut => { s with live := false }
  | .wake => s.issue .wake
  | .send _ => s.issue .send

/-- `Session::ReleaseSession` on the send half, with its `RT_ASSERT`. -/
def releaseSide (side : SendSide) : Option SendSide :=
  if toShort (side.senqQSize - side.sendQ.length) = 0 then some .empty else none

/-- A step of a thread: the slot afterwards, and what the thread has to do in place of `pc`. -/
def stepPc (oneRead : Bool) (ans : Answer) (s : State) : Pc → Option (State × List Pc)
  | .lock id call =>
    some (s.incr, if s.incr.ioCnt &&& RELEASE_IOCOUNT ≠ 0 then [] else [.compareID id call])
  | .compareID id call => some (s, if s.sessionID ≠ id then [.unlockOther] else [call.body, .decr])
  -- without a look at what the decrement leaves
  | .unlockOther => some (s.decr, [.exchangeRelease])
  | .send pc =>
    (sendStep oneRead s.live s.sessionID ans.io s.side pc).map fun r =>
      (effect { s with side := r.1 } r.2.2, if r.2.1 = .done then [] else [.send r.2.1])
  | .cutLive => some ({ s with live := false }, [])
  | .decr => some (s.decr, if s.decr.ioCnt = 0 then [.exchangeRelease] else [])
  | .exchangeRelease =>
    some (if s.ioCnt = 0 then
      ({ s with ioCnt := RELEASE_IOCOUNT, phase := .releasing }, [.postRelease]) else (s, []))
  | .postRelease => some ({ s.issue .release with released := s.released ++ [s.sessionID] }, [])
  | .accept => some (s, if s.bOn then [.acceptLive] else [])
  | .acceptLive => some ({ s with live := true }, [.acceptCount])
  | .acceptCount =>
    if s.side.msgCnt = 0 then
      some ({ s with accepted := true, sessionCnt := s.sessionCnt + 1 },
        ans.calls.map (fun c => .lock c.1 c.2) ++ [.registerRecv])
    else some (s, [.failed])
  | .recvFin => some ({ s with live := false }, [])
  | .completeRecv =>
    some (s, ans.calls.map (fun c => .lock c.1 c.2) ++ if ans.again then [.registerRecv] else [])
  | .registerRecv =>
    some (s, if ans.full then [.lock s.sessionID .disconnectSession]
      else if s.live then [.countRecv] else [])
  | .countRecv => some (s.incr, [.wsaRecv])
  | .wsaRecv =>
    match ans.io with
    | .accepted => some (s.issue .recv, [])
    | .handledError => some (s, [.recvCutLive])
    | .otherError => some (s, [])
  | .recvCutLive => some ({ s with live := false }, [.recvUncount])
  | .recvUncount => some (s.decr, [])
  | .release =>
    some ({ s with sessionCnt := if s.accepted then s.sessionCnt - 1 else s.sessionCnt },
      [.releaseSession])
  | .releaseSession =>
    match releaseSide s.side with
    | some side =>
      some ({ s with side, accepted := false, activeSlotCnt := s.activeSlotCnt - 1 }, [.push])
    | none => some (s, [.failed])
  | .push => some ({ s with phase := .free }, [])
  | .testOn => some (s, if s.bOn then [.drawID] else [])
  | .drawID => some ({ s with seqID := s.seqID + 1 }, [.setID ⟨s.sessionID.idx, s.seqID⟩])
  | .setID id => some ({ s with sessionID := id }, [.acceptEx])
  | .acceptEx =>
    match ans.io with
    | .accepted => some ({ s.issue .accept with phase := .armed }, [.setCount])
    | _ => some (s, [.push])
  | .setCount => some ({ s with ioCnt := 1, phase := .used }, [.countSlot])
  | .countSlot => some ({ s with activeSlotCnt := s.activeSlotCnt + 1 }, [])
  | .failed => none

/-! ### References -/

/-- The references a thread in the send path holds besides its own. -/
def sendRefs : SendPc → ℕ
  | .postWake | .wsaSend | .cutLive | .uncount => 1
  | _ => 0

/-- The reference that is given back, or handed to a completion, at this point of a thread's stack.
-/
def Pc.refs : Pc → ℕ
  | .compareID _ _ | .unlockOther | .decr | .wsaRecv | .recvCutLive | .recvUncount => 1
  | .send pc => sendRefs pc
  | _ => 0

def Thread.refs (th : Thread) : ℕ := Pool.weigh Pc.refs th.stack

/-- Every outstanding completion but the release stands for a reference. -/
def Completion.refs (c : Completion) : ℕ := if c.op = .release then 0 else 1

/-- The references of the slot. -/
def State.refs (s : State) : ℕ :=
  Pool.weigh Thread.refs s.threads + Pool.weigh Completion.refs s.flying

/-- The references a step of the send path takes, and those it gives back or hands to a completion.
-/
def takes : SendEffect → ℕ
  | .count => 1
  | _ => 0

def gives : SendEffect → ℕ
  | .uncount | .wake | .send _ => 1
  | _ => 0

/-- The thread with the next step on its stack replaced. -/
def Thread.put (th : Thread) (sessionID : SeqAndIdx) (stack : List Pc) : Thread :=
  ⟨stack, if th.refs = 0 then sessionID else th.sessionID⟩

def next (oneRead : Bool) (s : State) : Step → Option State
  | .call i id call =>
    (s.threads[i]?).bind fun th =>
      if th.stack = [] then some { s with
        threads := s.threads.set i (th.put s.sessionID [.lock id call]) }
      else none
  | .complete i j transferred =>
    (s.threads[i]?).bind fun th => (s.flying[j]?).bind fun c =>
      if th.stack = [] then
        some { s with
          flying := s.flying.eraseIdx j
          threads := s.threads.set i ⟨c.op.handler transferred, c.sessionID⟩ }
      else none
  | .arm i =>
    (s.threads[i]?).bind fun th =>
      if th.stack = [] ∧ s.phase = .free then
        some { s with phase := .arming, threads := s.threads.set i (th.put s.sessionID [.testOn]) }
      else none
  | .run i ans =>
    (s.threads[i]?).bind fun th =>
      match th.stack with
      | [] => none
      | pc :: rest =>
        (stepPc oneRead ans s pc).map fun r =>
          { r.1 with threads := s.threads.set i (th.put s.sessionID (r.2 ++ rest)) }
  | .otherSlot => some { s with seqID := s.seqID + 1 }
  | .stop => some { s with bOn := false }

/-- A slot that the constructor has armed. -/
structure Initial (s : State) : Prop where
  ioCnt : s.ioCnt = 1
  sessionID : s.sessionID.seq < s.seqID
  side : s.side = .empty
  live : s.live = false
  accepted : s.accepted = false
  sessionCnt : s.sessionCnt = 0
  activeSlotCnt : s.activeSlotCnt = 1
  flying : s.flying = [⟨.accept, s.sessionID⟩]
  threads : ∀ th ∈ s.threads, th.stack = []
  phase : s.phase = .used
  released : s.released = []

/-- Any number of threads on one slot. -/
def slot (oneRead : Bool) : System State Step where
  init := Initial
  next := next oneRead

/-! ### What release safety is -/

/-- A release is posted once for an incarnation and when nothing is
outstanding, and whatever is outstanding or being handled is of the incarnation the slot holds. -/
structure Safe (s : State) : Prop where
  once : s.released.Nodup
  alone : ∀ th ∈ s.threads, .postRelease ∈ th.stack → s.flying = []
  current : ∀ c ∈ s.flying, c.sessionID = s.sessionID
  handled : ∀ th ∈ s.threads, th.refs ≠ 0 → th.sessionID = s.sessionID

/-- The count may take the step: `registerAcceptEx` sets it to 1 when no more
than one reference is held, and an increment neither clears bit 14 of a
released slot nor takes the count back to 0. -/
def Pc.Counts (s : State) : Pc → Prop
  | .setCount => s.refs ≤ 1
  | .lock _ _ | .countRecv | .send .countWake | .send .countSend =>
    s.ioCnt < if s.phase = .used then 65535 else 32767
  | _ => True

/-- Every step of a thread is one the count may take. -/
def Counted (s : State) : Step → Prop
  | .run i _ => ∀ th pc rest, s.threads[i]? = some th → th.stack = pc :: rest → pc.Counts s
  | _ => True

/-! ### The invariant -/

/-- Who the slot has been handed to, between its release and its next use. -/
def Pc.tok : Pc → ℕ
  | .postRelease | .release | .releaseSession | .push | .testOn | .drawID | .setID _ | .acceptEx
  | .setCount => 1
  | _ => 0

def Thread.tok (th : Thread) : ℕ := Pool.weigh Pc.tok th.stack

def Completion.tok (c : Completion) : ℕ := if c.op = .release then 1 else 0

def State.tok (s : State) : ℕ :=
  Pool.weigh Thread.tok s.threads + Pool.weigh Completion.tok s.flying

/-- What the count says about the references, and how many have been handed the slot. -/
def Count : Phase → ℕ → ℕ → ℕ → Prop
  | .used, ioCnt, refs, tok => refs ≤ ioCnt ∧ ioCnt < 65536 ∧ tok = 0
  | .releasing, ioCnt, refs, tok => refs = 0 ∧ 16384 ≤ ioCnt ∧ ioCnt < 32768 ∧ tok ≤ 1
  | .free, ioCnt, refs, tok => refs = 0 ∧ 16384 ≤ ioCnt ∧ ioCnt < 32768 ∧ tok = 0
  | .arming, ioCnt, refs, tok => refs = 0 ∧ 16384 ≤ ioCnt ∧ ioCnt < 32768 ∧ tok ≤ 1
  -- the reference of the `AcceptEx` has not been counted
  | .armed, ioCnt, refs, tok => 16383 + refs ≤ ioCnt ∧ ioCnt < 32768 ∧ tok ≤ 1

/-- What a thread that has been handed the slot knows. -/
def PcInv (s : State) : Pc → Prop
  | .postRelease => s.phase = .releasing ∧ s.sessionID ∉ s.released
  | .release | .releaseSession => s.phase = .releasing
  | .push => s.phase = .releasing ∨ s.phase = .arming
  | .testOn | .drawID => s.phase = .arming
  | .setID id => s.phase = .arming ∧ id.seq < s.seqID ∧ id ∉ s.released
  | .acceptEx => s.phase = .arming ∧ s.sessionID ∉ s.released
  | .setCount => s.phase = .armed
  | _ => True

structure Inv (s : State) : Prop where
  count : Count s.phase s.ioCnt s.refs s.tok
  current : ∀ c ∈ s.flying, c.sessionID = s.sessionID
  releasing : ∀ c ∈ s.flying, c.op = .release → s.phase = .releasing
  holders : ∀ th ∈ s.threads, th.refs ≠ 0 → th.sessionID = s.sessionID
  frames : ∀ th ∈ s.threads, ∀ pc ∈ th.stack, PcInv s pc
  once : s.released.Nodup
  older : ∀ id ∈ s.released, id.seq < s.seqID
  known : s.sessionID.seq < s.seqID
  fresh : s.phase = .used ∨ s.phase = .armed → s.sessionID ∉ s.released

theorem Pc.inv_of_tok {s : State} {pc : Pc} (h : pc.tok = 0) : PcInv s pc := by
  cases pc <;> trivial

theorem tok_le_one {p : Phase} {n r k : ℕ} (h : Count p n r k) : k ≤ 1 := by
  cases p <;> simp only [Count] at h <;> omega

/-- While a reference is held the slot is in use, or about to be. -/
theorem Count.phase {p : Phase} {n r k : ℕ} (h : Count p n r k) (hr : r ≠ 0) :
    p = .used ∨ p = .armed := by
  cases p <;> simp_all [Count]

/-- The count of a slot that has been released has its bit. -/
theorem Count.used {p : Phase} {n r k : ℕ} (h : Count p n r k) (h0 : n = 0) : p = .used := by
  cases p <;> simp only [Count] at h <;> first | rfl | omega

theorem Count.mono {p : Phase} {n r r' k k' : ℕ} (h : Count p n r k) (hr : r' ≤ r) (hk : k' ≤ k) :
    Count p n r' k' := by
  cases p <;> simp only [Count] at h ⊢ <;> omega

theorem Count.decr {p : Phase} {n r k : ℕ} (h : Count p n (r + 1) k) :
    Count p ((n + 65535) % 65536) r k := by
  cases p <;> simp only [Count] at h ⊢ <;> omega

/-- A count that is raised counts one more, or nobody has taken a reference. -/
theorem Count.incr {p : Phase} {n r r' k : ℕ} (h : Count p n r k)
    (hlt : n < if p = .used then 65535 else 32767) (hr : r' ≤ r + 1)
    (hp : r' ≠ 0 → p = .used ∨ p = .armed) :
    Count p ((n + 1) % 65536) r' k := by
  by_cases hr0 : r' = 0
  · cases p <;> simp only [Count, reduceCtorEq, if_true, if_false] at h hlt ⊢ <;> omega
  · rcases hp hr0 with rfl |
        rfl <;> simp only [Count, reduceCtorEq, if_true, if_false] at h hlt ⊢ <;> omega

section

variable {s t : State} {i : ℕ} {th : Thread} {pc : Pc} {rest : List Pc}

theorem Inv.tok_le (h : Inv s) : s.tok ≤ 1 := tok_le_one h.count

/-- One thread moves. What the others know they still know, or this thread has
been handed all there is to hand. -/
theorem Inv.replace (h : Inv s) (hi : s.threads[i]? = some th) (th' : Thread)
    (hframes : (∀ q, PcInv s q → PcInv t q) ∨ Pool.weigh Thread.tok s.threads ≤ th.tok)
    (hown : ∀ q ∈ th'.stack, PcInv t q)
    (hid : t.sessionID = s.sessionID ∨ Pool.weigh Thread.refs s.threads ≤ th.refs)
    (hth : th'.refs ≠ 0 → th'.sessionID = t.sessionID)
    (hcount : ∀ r k, r + th.refs = Pool.weigh Thread.refs s.threads + th'.refs →
      k + th.tok = Pool.weigh Thread.tok s.threads + th'.tok →
      Count t.phase t.ioCnt (r + Pool.weigh Completion.refs t.flying)
        (k + Pool.weigh Completion.tok t.flying))
    (hcurrent : ∀ c ∈ t.flying, c.sessionID = t.sessionID)
    (hreleasing : ∀ c ∈ t.flying, c.op = .release → t.phase = .releasing) (honce : t.released.Nodup)
    (holder : ∀ id ∈ t.released, id.seq < t.seqID) (hknown : t.sessionID.seq < t.seqID)
    (hfresh : t.phase = .used ∨ t.phase = .armed → t.sessionID ∉ t.released) :
    Inv { t with threads := s.threads.set i th' } := by
  refine ⟨hcount _ _ (Pool.weigh_set hi th') (Pool.weigh_set hi th'), hcurrent, hreleasing, ?_, ?_,
    honce, holder, hknown, hfresh⟩
  · refine Pool.forall_set hi h.holders (fun j c hj hc hcur hne => ?_) hth
    rcases hid with hid | hall
    · exact (hcur hne).trans hid.symm
    · exact absurd (Pool.weigh_others hi hall hj hc) hne
  · refine Pool.forall_set hi h.frames (fun j c hj hc hold q hq => ?_) hown
    rcases hframes with hframes | hall
    · exact hframes q (hold q hq)
    · exact Pc.inv_of_tok (Pool.weigh_eq_zero.mp (Pool.weigh_others hi hall hj hc) q hq)

theorem refs_put (th : Thread) (id : SeqAndIdx) (stack : List Pc) :
    (th.put id stack).refs = Pool.weigh Pc.refs stack := rfl

theorem tok_put (th : Thread) (id : SeqAndIdx) (stack : List Pc) :
    (th.put id stack).tok = Pool.weigh Pc.tok stack := rfl

theorem Inv.put (h : Inv s) (hi : s.threads[i]? = some th) (stack : List Pc) :
    (th.put s.sessionID stack).sessionID = s.sessionID := by
  unfold Thread.put
  split_ifs with h0
  · rfl
  · exact h.holders th (List.mem_of_getElem? hi) h0

/-- Nothing has been handed on from `s` to `t`. -/
structure Same (s t : State) : Prop where
  phase : t.phase = s.phase
  sessionID : t.sessionID = s.sessionID
  released : t.released = s.released
  seqID : s.seqID ≤ t.seqID

theorem decr_same : Same s s.decr :=
  ⟨by rw [State.decr], by rw [State.decr], by rw [State.decr], by rw [State.decr]⟩

theorem decr_flying : s.decr.flying = s.flying := by rw [State.decr]

/-- What other threads know does not depend on the counters and the buffers. -/
theorem PcInv.keep {q : Pc} (h : PcInv s q) (hsame : Same s t) : PcInv t q := by
  obtain ⟨hphase, hid, hrel, hseq⟩ := hsame
  cases q <;> simp only [PcInv] at h ⊢ <;> simp only [hphase, hid, hrel]
  all_goals first | exact h | exact ⟨h.1, by omega, h.2.2⟩

theorem weigh_cons (w : Pc → ℕ) (q : Pc) (qs : List Pc) :
    Pool.weigh w (q :: qs) = w q + Pool.weigh w qs := by
  simp [Pool.weigh]

theorem refs_cons (hst : th.stack = pc :: rest) : th.refs = pc.refs + Pool.weigh Pc.refs rest := by
  rw [Thread.refs, hst, weigh_cons]

theorem tok_cons (hst : th.stack = pc :: rest) : th.tok = pc.tok + Pool.weigh Pc.tok rest := by
  rw [Thread.tok, hst, weigh_cons]

/-- A step that hands nothing on: the counters, the buffers, a new completion. -/
theorem Inv.move (h : Inv s) (hi : s.threads[i]? = some th) (hst : th.stack = pc :: rest)
    (new : List Pc) (extra : List Completion) (hsame : Same s t)
    (hfl : t.flying = s.flying ++ extra)
    (hextra : ∀ c ∈ extra, c.sessionID = s.sessionID ∧ c.op ≠ .release)
    (hnew : ∀ q ∈ new, PcInv t q) (htok : Pool.weigh Pc.tok new ≤ pc.tok)
    (hcount : ∀ r, r + pc.refs = s.refs + Pool.weigh Pc.refs new + extra.length →
      Count s.phase t.ioCnt r s.tok) :
    Inv { t with threads := s.threads.set i (th.put s.sessionID (new ++ rest)) } := by
  have hkeep : ∀ q, PcInv s q → PcInv t q := fun q hq => hq.keep hsame
  obtain ⟨hphase, hid, hrel, hseq⟩ := hsame
  have hex : Pool.weigh Completion.refs extra = extra.length ∧
      Pool.weigh Completion.tok extra = 0 := by
    constructor
    · clear hcount hfl
      induction extra with
      | nil => rfl
      | cons c cs ih =>
        have hc := (hextra c List.mem_cons_self).2
        have hcs := ih fun c hc => hextra c (List.mem_cons_of_mem _ hc)
        simp only [Pool.weigh, List.map_cons, List.sum_cons, List.length_cons, Completion.refs,
          if_neg hc] at hcs ⊢
        omega
    · exact Pool.weigh_eq_zero.mpr fun c hc => if_neg (hextra c hc).2
  refine h.replace hi _ (.inl hkeep) ?_ (.inl hid) (fun _ => (h.put hi _).trans hid.symm) ?_ ?_ ?_
    (hrel ▸ h.once) (fun id hm => lt_of_lt_of_le (h.older id (hrel ▸ hm)) hseq)
    (lt_of_lt_of_le (hid ▸ h.known) hseq) (fun hp => by rw [hid, hrel]; exact h.fresh (hphase ▸ hp))
  · intro q hq
    rcases List.mem_append.mp hq with hq | hq
    · exact hnew q hq
    · exact hkeep q (h.frames th (List.mem_of_getElem? hi) q
        (by rw [hst]; exact List.mem_cons_of_mem _ hq))
  · intro r k hr hk
    rw [refs_put, Pool.weigh_append] at hr
    rw [tok_put, Pool.weigh_append] at hk
    rw [refs_cons hst] at hr
    rw [tok_cons hst] at hk
    rw [hphase, hfl, Pool.weigh_append, Pool.weigh_append, hex.1, hex.2]
    have hk' : k + (Pool.weigh Completion.tok s.flying + 0) ≤ s.tok := by
      unfold State.tok
      omega
    refine (hcount _ ?_).mono le_rfl hk'
    unfold State.refs
    omega
  · intro c hc
    rw [hfl] at hc
    rcases List.mem_append.mp hc with hc | hc
    · exact (h.current c hc).trans hid.symm
    · exact (hextra c hc).1.trans hid.symm
  · intro c hc hop
    rw [hfl] at hc
    rcases List.mem_append.mp hc with hc | hc
    · exact hphase.trans (h.releasing c hc hop)
    · exact absurd hop (hextra c hc).2

/-- What is left on the stack of a thread that has been handed the slot. -/
theorem others_of_tok (hi : s.threads[i]? = some th) (hst : th.stack = pc :: rest)
    (hall : s.tok ≤ pc.tok) : (∀ q ∈ rest, q.tok = 0) ∧ Pool.weigh Thread.tok s.threads ≤ th.tok ∧
      Pool.weigh Completion.tok s.flying = 0 := by
  have hle := Pool.le_weigh (w := Thread.tok) hi
  have hth := tok_cons hst
  unfold State.tok at hall
  have hrest : Pool.weigh Pc.tok rest = 0 := by omega
  exact ⟨Pool.weigh_eq_zero.mp hrest, by omega, by omega⟩

/-- Nothing is outstanding when the slot has no reference and a thread has been handed it. -/
theorem flying_nil (hr : Pool.weigh Completion.refs s.flying = 0)
    (hk : Pool.weigh Completion.tok s.flying = 0) :
    s.flying = [] := by
  rw [List.eq_nil_iff_forall_not_mem]
  intro c hc
  have h1 := Pool.weigh_eq_zero.mp hr c hc
  have h2 := Pool.weigh_eq_zero.mp hk c hc
  unfold Completion.refs at h1
  unfold Completion.tok at h2
  split_ifs at h1 h2

/-- A step of the thread that has been handed the slot. -/
theorem Inv.turn (h : Inv s) (hi : s.threads[i]? = some th) (hst : th.stack = pc :: rest)
    (hall : s.tok ≤ pc.tok) (new : List Pc) (hid : t.sessionID = s.sessionID ∨ s.refs = 0)
    (hpc : pc.refs = 0) (hrefs : Pool.weigh Pc.refs new = 0) (hnew : ∀ q ∈ new, PcInv t q)
    (hcount : Count t.phase t.ioCnt
      (Pool.weigh Thread.refs s.threads + Pool.weigh Completion.refs t.flying)
      (Pool.weigh Pc.tok new + Pool.weigh Completion.tok t.flying))
    (hcurrent : ∀ c ∈ t.flying, c.sessionID = t.sessionID)
    (hreleasing : ∀ c ∈ t.flying, c.op = .release → t.phase = .releasing) (honce : t.released.Nodup)
    (holder : ∀ id ∈ t.released, id.seq < t.seqID) (hknown : t.sessionID.seq < t.seqID)
    (hfresh : t.phase = .used ∨ t.phase = .armed → t.sessionID ∉ t.released) :
    Inv { t with threads := s.threads.set i (th.put s.sessionID (new ++ rest)) } := by
  obtain ⟨hrest, hothers, -⟩ := others_of_tok hi hst hall
  have hle := Pool.le_weigh (w := Thread.refs) hi
  have hlet := Pool.le_weigh (w := Thread.tok) hi
  have hrs : s.refs = Pool.weigh Thread.refs s.threads + Pool.weigh Completion.refs s.flying := rfl
  have hput : (th.put s.sessionID (new ++ rest)).refs = th.refs := by
    rw [refs_put, Pool.weigh_append, refs_cons hst, hrefs, hpc]
  have htok : (th.put s.sessionID (new ++ rest)).tok = Pool.weigh Pc.tok new := by
    rw [tok_put, Pool.weigh_append, Pool.weigh_eq_zero.mpr hrest, Nat.add_zero]
  refine h.replace hi _ (.inr hothers) ?_ ?_ ?_ ?_ hcurrent hreleasing honce holder hknown hfresh
  · intro q hq
    rcases List.mem_append.mp hq with hq | hq
    · exact hnew q hq
    · exact Pc.inv_of_tok (hrest q hq)
  · rcases hid with hid | h0
    · exact .inl hid
    · exact .inr (by omega)
  · intro hne
    rw [hput] at hne
    rcases hid with hid | h0
    · exact (h.put hi _).trans hid.symm
    · omega
  · intro r k hr hk
    rw [hput] at hr
    rw [htok] at hk
    have hr' : r = Pool.weigh Thread.refs s.threads := by omega
    have hk' : k = Pool.weigh Pc.tok new := by omega
    rw [hr', hk']
    exact hcount

theorem decide_refs (side : SendSide) (again : Bool) (msgCnt : ℤ) :
    sendRefs (side.decide again msgCnt).2.1 = 0 ∧ (side.decide again msgCnt).2.2 = .none := by
  unfold SendSide.decide
  split_ifs <;> exact ⟨rfl, rfl⟩

/-- The reference that `checkAndHandleIoError` does not give back. -/
def lost : SendPc → IoResult → ℕ
  | .wsaSend, .otherError => 1
  | _, _ => 0

/-- A step of the send path takes a reference before it holds it, and gives back or loses what it
held. -/
theorem sendStep_refs {oneRead live : Bool} {id : SeqAndIdx} {io : IoResult} {side side' : SendSide}
    {pc pc' : SendPc} {e : SendEffect}
    (h : sendStep oneRead live id io side pc = some (side', pc', e)) :
    sendRefs pc' + gives e + lost pc io = sendRefs pc + takes e ∧
      (e = .count → pc = .countWake ∨ pc = .countSend) := by
  have hdecide : ∀ again msgCnt, side.decide again msgCnt = (side', pc', e) →
      sendRefs pc' + gives e = takes e ∧ (e = .count → False) := by
    intro again msgCnt he
    obtain ⟨h1, h2⟩ := decide_refs side again msgCnt
    rw [he] at h1 h2
    simp only at h1 h2
    subst h2
    exact ⟨by rw [h1]; rfl, by simp⟩
  cases pc with
  | readSize again =>
    simp only [sendStep] at h
    split_ifs at h
    · obtain ⟨h1, h2⟩ := hdecide _ _ (Option.some.inj h)
      exact ⟨h1.trans (Nat.zero_add _).symm, fun he => (h2 he).elim⟩
    · obtain ⟨h1, h2⟩ := hdecide _ _ (Option.some.inj h)
      exact ⟨h1.trans (Nat.zero_add _).symm, fun he => (h2 he).elim⟩
    · cases h
      simp [sendRefs, gives, takes, lost]
  | rereadSize again =>
    obtain ⟨h1, h2⟩ := hdecide _ _ (Option.some.inj h)
    exact ⟨h1.trans (Nat.zero_add _).symm, fun he => (h2 he).elim⟩
  | deQueueMsg msgCnt cnt =>
    simp only [sendStep] at h
    split_ifs at h
    · split at h
      · cases h
        simp [sendRefs, gives, takes, lost]
      · split_ifs at h <;> cases h <;> simp [sendRefs, gives, takes, lost]
    · cases h
      simp [sendRefs, gives, takes, lost]
  | wsaSend =>
    cases io <;> cases h <;> simp [sendRefs, gives, takes, lost]
  | enQueueMsg msg => cases h; simp [sendRefs, gives, takes, lost]
  | takeFlag =>
    simp only [sendStep] at h
    split_ifs at h <;> cases h <;> simp [sendRefs, gives, takes, lost]
  | clearFlag =>
    simp only [sendStep] at h
    split_ifs at h <;> cases h <;> simp [sendRefs, gives, takes, lost]
  | retakeFlag =>
    simp only [sendStep] at h
    split_ifs at h <;> cases h <;> simp [sendRefs, gives, takes, lost]
  | testLive msgCnt =>
    simp only [sendStep] at h
    split_ifs at h <;> cases h <;> simp [sendRefs, gives, takes, lost]
  | countWake => cases h; simp [sendRefs, gives, takes, lost]
  | postWake => cases h; simp [sendRefs, gives, takes, lost]
  | completeSend => cases h; simp [sendRefs, gives, takes, lost]
  | countSend => cases h; simp [sendRefs, gives, takes, lost]
  | cutLive => cases h; simp [sendRefs, gives, takes, lost]
  | uncount => cases h; simp [sendRefs, gives, takes, lost]
  | done => cases h
  | failed => cases h

/-- A step that leaves the count and the completions alone. -/
theorem Inv.stay (h : Inv s) (hi : s.threads[i]? = some th)
    (hst : th.stack = pc :: rest) (new : List Pc) (hsame : Same s t) (hfl : t.flying = s.flying)
    (hcnt : t.ioCnt = s.ioCnt) (hnew : ∀ q ∈ new, PcInv t q) (htok : Pool.weigh Pc.tok new ≤ pc.tok)
    (hrefs : Pool.weigh Pc.refs new ≤ pc.refs) :
    Inv { t with threads := s.threads.set i (th.put s.sessionID (new ++ rest)) } := by
  apply h.move hi hst new [] hsame (by rw [hfl, List.append_nil]) (by simp) hnew htok
  intro r hr
  rw [List.length_nil] at hr
  rw [hcnt]
  exact h.count.mono (by omega) le_rfl

/-- A reference is given back. -/
theorem Inv.giveBack (h : Inv s) (hi : s.threads[i]? = some th) (hst : th.stack = pc :: rest)
    (new : List Pc) (hsame : Same s t) (hfl : t.flying = s.flying) (hcnt : t.ioCnt = s.decr.ioCnt)
    (hnew : ∀ q ∈ new, PcInv t q) (htok : Pool.weigh Pc.tok new ≤ pc.tok)
    (hrefs : Pool.weigh Pc.refs new + 1 ≤ pc.refs) :
    Inv { t with threads := s.threads.set i (th.put s.sessionID (new ++ rest)) } := by
  apply h.move hi hst new [] hsame (by rw [hfl, List.append_nil]) (by simp) hnew htok
  intro r hr
  rw [List.length_nil] at hr
  rw [hcnt]
  exact (h.count.mono (by omega) le_rfl).decr

/-- A reference is taken by whoever holds one already. -/
theorem Inv.take (h : Inv s) (hi : s.threads[i]? = some th) (hst : th.stack = pc :: rest)
    (new : List Pc) (hlt : s.ioCnt < if s.phase = .used then 65535 else 32767) (hheld : s.refs ≠ 0)
    (hsame : Same s t) (hfl : t.flying = s.flying) (hcnt : t.ioCnt = s.incr.ioCnt)
    (hnew : ∀ q ∈ new, PcInv t q) (htok : Pool.weigh Pc.tok new ≤ pc.tok)
    (hrefs : Pool.weigh Pc.refs new ≤ pc.refs + 1) :
    Inv { t with threads := s.threads.set i (th.put s.sessionID (new ++ rest)) } := by
  apply h.move hi hst new [] hsame (by rw [hfl, List.append_nil]) (by simp) hnew htok
  intro r hr
  rw [List.length_nil] at hr
  rw [hcnt]
  exact h.count.incr hlt (by omega) fun _ => h.count.phase hheld

/-- A reference becomes a completion. -/
theorem Inv.issue (h : Inv s) (hi : s.threads[i]? = some th)
    (hst : th.stack = pc :: rest) (new : List Pc) (op : Op) (hop : op ≠ .release) (hsame : Same s t)
    (hfl : t.flying = (s.issue op).flying) (hcnt : t.ioCnt = s.ioCnt) (hnew : ∀ q ∈ new, PcInv t q)
    (htok : Pool.weigh Pc.tok new ≤ pc.tok) (hrefs : Pool.weigh Pc.refs new + 1 ≤ pc.refs) :
    Inv { t with threads := s.threads.set i (th.put s.sessionID (new ++ rest)) } := by
  apply h.move hi hst new [⟨op, s.sessionID⟩] hsame hfl (by simp [hop]) hnew htok
  intro r hr
  rw [List.length_singleton] at hr
  rw [hcnt]
  exact h.count.mono (by omega) le_rfl

/-- The thread in the send path, or the handler below it, holds a reference. -/
theorem refs_pos (hi : s.threads[i]? = some th) (hst : th.stack = pc :: rest)
    (hheld : Pool.weigh Pc.refs rest ≠ 0) : s.refs ≠ 0 := by
  have hle := Pool.le_weigh (w := Thread.refs) hi
  have hth := refs_cons hst
  unfold State.refs
  omega

theorem bit_set {n : ℕ} (h1 : 16384 ≤ n) (h2 : n < 32768) : n &&& RELEASE_IOCOUNT ≠ 0 := by
  intro h0
  have hbit := congrArg (Nat.testBit · 14) h0
  have hn : n.testBit 14 = true :=
    Nat.testBit_of_two_pow_le_and_two_pow_add_one_gt (by omega) (by omega)
  have hr : RELEASE_IOCOUNT.testBit 14 = true := by decide
  simp [Nat.testBit_and, hn, hr] at hbit

/-- Once the slot is not in use, nobody locks it: the bit is set after every increment. -/
theorem Count.locked {p : Phase}
    {n r k : ℕ} (h : Count p n r k) (hlt : n < if p = .used then 65535 else 32767)
    (hbit : (n + 1) % 65536 &&& RELEASE_IOCOUNT = 0) : p = .used := by
  by_contra hp
  rw [if_neg hp] at hlt
  have h1 : 16383 ≤ n := by
    cases p <;> simp only [Count] at h
    · exact absurd rfl hp
    all_goals omega
  exact bit_set (by omega) (by omega) hbit

/-! ### Stacks -/

/-- What a thread only does while it holds the reference of the handler or the
locked section it is in. -/
def Pc.inside : Pc → Bool
  | .send _ | .cutLive | .accept | .acceptLive | .acceptCount | .recvFin | .completeRecv
  | .registerRecv
  | .countRecv | .wsaRecv | .recvCutLive | .recvUncount => true
  | _ => false

/-- Below it stands the `decr` that gives the reference back. -/
def Held : List Pc → Prop
  | [] => True
  | pc :: rest => (pc.inside = true → Pool.weigh Pc.refs rest ≠ 0) ∧ Held rest

theorem held_locks (calls : List (SeqAndIdx × Call)) {stack : List Pc} (h : Held stack) :
    Held (calls.map (fun c => Pc.lock c.1 c.2) ++ stack) := by
  induction calls with
  | nil => exact h
  | cons c cs ih => exact ⟨nofun, ih⟩

theorem refs_locks (calls : List (SeqAndIdx × Call)) (stack : List Pc) :
    Pool.weigh Pc.refs (calls.map (fun c => Pc.lock c.1 c.2) ++ stack) =
      Pool.weigh Pc.refs stack := by
  have h0 : Pool.weigh Pc.refs (calls.map fun c => Pc.lock c.1 c.2) = 0 :=
    Pool.weigh_eq_zero.mpr fun q hq => by obtain ⟨c, -, rfl⟩ := List.mem_map.mp hq; rfl
  rw [Pool.weigh_append, h0, Nat.zero_add]

theorem tok_locks (calls : List (SeqAndIdx × Call)) (stack : List Pc) :
    Pool.weigh Pc.tok (calls.map (fun c => Pc.lock c.1 c.2) ++ stack) =
      Pool.weigh Pc.tok stack := by
  have h0 : Pool.weigh Pc.tok (calls.map fun c => Pc.lock c.1 c.2) = 0 :=
    Pool.weigh_eq_zero.mpr fun q hq => by obtain ⟨c, -, rfl⟩ := List.mem_map.mp hq; rfl
  rw [Pool.weigh_append, h0, Nat.zero_add]

theorem stepPc_held {oneRead : Bool} {ans : Answer} {new : List Pc} (h : Held (pc :: rest))
    (he : stepPc oneRead ans s pc = some (t, new)) : Held (new ++ rest) := by
  obtain ⟨hpc, hrest⟩ := h
  have hdecr : Pool.weigh Pc.refs (.decr :: rest) ≠ 0 := by
    rw [weigh_cons, Pc.refs]
    omega
  cases pc with
  | lock id call =>
    simp only [stepPc, Option.some.injEq, Prod.mk.injEq] at he
    obtain ⟨rfl, rfl⟩ := he
    split_ifs
    · exact hrest
    · exact ⟨nofun, hrest⟩
  | compareID id call =>
    cases he
    split_ifs
    · exact ⟨nofun, hrest⟩
    · exact ⟨fun _ => hdecr, nofun, hrest⟩
  | unlockOther =>
    simp only [stepPc, Option.some.injEq, Prod.mk.injEq] at he
    obtain ⟨rfl, rfl⟩ := he
    exact ⟨nofun, hrest⟩
  | send pc =>
    obtain ⟨r, -, hr⟩ := Option.map_eq_some_iff.mp he
    cases hr
    split_ifs
    · exact hrest
    · exact ⟨fun _ => hpc rfl, hrest⟩
  | cutLive => cases he; exact hrest
  | decr =>
    simp only [stepPc, Option.some.injEq, Prod.mk.injEq] at he
    obtain ⟨rfl, rfl⟩ := he
    generalize s.decr.ioCnt = n
    split_ifs
    · exact ⟨nofun, hrest⟩
    · exact hrest
  | exchangeRelease =>
    simp only [stepPc] at he
    split_ifs at he <;> cases he
    · exact ⟨nofun, hrest⟩
    · exact hrest
  | postRelease => cases he; exact hrest
  | accept =>
    cases he
    split_ifs
    · exact ⟨fun _ => hpc rfl, hrest⟩
    · exact hrest
  | acceptLive => cases he; exact ⟨fun _ => hpc rfl, hrest⟩
  | acceptCount =>
    simp only [stepPc] at he
    split_ifs at he <;> cases he
    · rw [List.append_assoc]
      exact held_locks _ ⟨fun _ => hpc rfl, hrest⟩
    · exact ⟨nofun, hrest⟩
  | recvFin => cases he; exact hrest
  | completeRecv =>
    cases he
    rw [List.append_assoc]
    apply held_locks
    split_ifs
    · exact ⟨fun _ => hpc rfl, hrest⟩
    · exact hrest
  | registerRecv =>
    cases he
    split_ifs
    · exact ⟨nofun, hrest⟩
    · exact ⟨fun _ => hpc rfl, hrest⟩
    · exact hrest
  | countRecv =>
    simp only [stepPc, Option.some.injEq, Prod.mk.injEq] at he
    obtain ⟨rfl, rfl⟩ := he
    exact ⟨fun _ => hpc rfl, hrest⟩
  | wsaRecv =>
    simp only [stepPc] at he
    split at he <;> cases he
    · exact hrest
    · exact ⟨fun _ => hpc rfl, hrest⟩
    · exact hrest
  | recvCutLive => cases he; exact ⟨fun _ => hpc rfl, hrest⟩
  | recvUncount =>
    simp only [stepPc, Option.some.injEq, Prod.mk.injEq] at he
    obtain ⟨rfl, rfl⟩ := he
    exact hrest
  | release => cases he; exact ⟨nofun, hrest⟩
  | releaseSession =>
    simp only [stepPc] at he
    split at he <;> cases he <;> exact ⟨nofun, hrest⟩
  | push => cases he; exact hrest
  | testOn =>
    cases he
    split_ifs
    · exact ⟨nofun, hrest⟩
    · exact hrest
  | drawID => cases he; exact ⟨nofun, hrest⟩
  | setID id => cases he; exact ⟨nofun, hrest⟩
  | acceptEx =>
    simp only [stepPc] at he
    split at he <;> cases he <;> exact ⟨nofun, hrest⟩
  | setCount => cases he; exact ⟨nofun, hrest⟩
  | countSlot => cases he; exact hrest
  | failed => cases he

/-! ### Steps -/

/-- A call of `sessionLock`. -/
theorem inv_lock (h : Inv s) {id : SeqAndIdx} {call : Call} (hi : s.threads[i]? = some th)
    (hst : th.stack = .lock id call :: rest)
    (hlt : s.ioCnt < if s.phase = .used then 65535 else 32767) {new : List Pc}
    (hnew : new = [] ∨ (s.ioCnt + 1) % 65536 &&& RELEASE_IOCOUNT = 0 ∧ new = [.compareID id call]) :
    Inv { s.incr with threads := s.threads.set i (th.put s.sessionID (new ++ rest)) } := by
  apply h.move (t := s.incr) hi hst new [] ⟨rfl, rfl, rfl, le_rfl⟩
    (List.append_nil _).symm (by simp)
  · rcases hnew with rfl | ⟨-, rfl⟩
    · simp
    · simp [PcInv]
  · rcases hnew with rfl | ⟨-, rfl⟩ <;> exact le_rfl
  · intro r hr
    rcases hnew with rfl | ⟨hbit, rfl⟩
    · have hr' : r = s.refs := hr
      rw [hr']
      exact h.count.incr hlt (Nat.le_succ _) h.count.phase
    · have hr' : r = s.refs + 1 := hr
      rw [hr']
      exact h.count.incr hlt le_rfl fun _ => .inl (h.count.locked hlt hbit)

/-- The count has come to 0, and the slot is released. -/
theorem inv_exchangeRelease (h : Inv s) (hi : s.threads[i]? = some th)
    (hst : th.stack = .exchangeRelease :: rest) (h0 : s.ioCnt = 0) :
    Inv { s with
      ioCnt := RELEASE_IOCOUNT, phase := .releasing
      threads := s.threads.set i (th.put s.sessionID ([.postRelease] ++ rest)) } := by
  have hcount := h.count
  have hused := hcount.used h0
  rw [hused] at hcount
  obtain ⟨hr, -, hk⟩ := hcount
  have hrefs : s.refs = 0 := by omega
  have hnil : s.flying = [] := by
    unfold State.refs at hrefs
    unfold State.tok at hk
    exact flying_nil (by omega) (by omega)
  have hfresh := h.fresh (.inl hused)
  apply h.turn (t := { s with ioCnt := RELEASE_IOCOUNT, phase := .releasing }) hi hst
    (by omega) [.postRelease] (.inl rfl) rfl rfl (by simpa [PcInv] using hfresh) _ h.current
    (by simp) h.once h.older h.known (by simp)
  unfold State.refs at hrefs
  rw [hnil] at hrefs ⊢
  exact ⟨hrefs, (by decide : 16384 ≤ RELEASE_IOCOUNT),
    (by decide : RELEASE_IOCOUNT < 32768), le_rfl⟩

theorem inv_postRelease (h : Inv s) (hi : s.threads[i]? = some th)
    (hst : th.stack = .postRelease :: rest) :
    Inv { s.issue .release with
      released := s.released ++ [s.sessionID]
      threads := s.threads.set i (th.put s.sessionID ([] ++ rest)) } := by
  obtain ⟨hphase, hfresh⟩ :=
    h.frames th (List.mem_of_getElem? hi) .postRelease (by rw [hst]; exact List.mem_cons_self)
  have hcount := h.count
  rw [hphase] at hcount
  obtain ⟨hrefs, hlo, hhi, hk⟩ := hcount
  obtain ⟨-, -, hfk⟩ := others_of_tok hi hst hk
  have hfr : Pool.weigh Completion.refs s.flying = 0 := by
    unfold State.refs at hrefs
    omega
  have hnil := flying_nil hfr hfk
  apply h.turn (t := { s.issue .release with released := s.released ++ [s.sessionID] }) hi hst hk []
    (.inl rfl) rfl rfl (by simp) _ _ (fun _ _ _ => hphase) _ _ h.known
  · intro hp
    have hp' : s.phase = .used ∨ s.phase = .armed := hp
    rw [hphase] at hp'
    rcases hp' with hp' | hp' <;> cases hp'
  · unfold State.refs at hrefs
    simp only [State.issue, hnil, List.nil_append, hphase]
    refine ⟨?_, hlo, hhi, le_rfl⟩
    rw [hnil] at hrefs
    simpa [Pool.weigh, Completion.refs] using hrefs
  · intro c hc
    simp only [State.issue, hnil, List.nil_append, List.mem_singleton] at hc
    rw [hc]
    rfl
  · refine List.nodup_append.mpr ⟨h.once, List.nodup_singleton _, ?_⟩
    intro id hm id' hid he
    rw [he, List.mem_singleton.mp hid] at hm
    exact hfresh hm
  · intro id hm
    rcases List.mem_append.mp hm with hm | hm
    · exact h.older id hm
    · rw [List.mem_singleton.mp hm]
      exact h.known

theorem inv_push (h : Inv s) (hi : s.threads[i]? = some th) (hst : th.stack = .push :: rest) :
    Inv
      { s with phase := .free, threads := s.threads.set i (th.put s.sessionID ([] ++ rest)) } := by
  have hphase := h.frames th (List.mem_of_getElem? hi) .push (by rw [hst]; exact List.mem_cons_self)
  have hcount : s.refs = 0 ∧ 16384 ≤ s.ioCnt ∧ s.ioCnt < 32768 := by
    have hc := h.count
    rcases hphase with hp | hp <;> rw [hp] at hc <;> exact ⟨hc.1, hc.2.1, hc.2.2.1⟩
  have hall : s.tok ≤ Pc.push.tok := h.tok_le
  obtain ⟨-, -, hfk⟩ := others_of_tok hi hst hall
  obtain ⟨hrefs, hlo, hhi⟩ := hcount
  unfold State.refs at hrefs
  have hnil : s.flying = [] := flying_nil (by omega) hfk
  apply h.turn (t := { s with phase := .free }) hi hst hall []
    (.inl rfl) rfl rfl (by simp) _ h.current (by simp [hnil]) h.once h.older h.known (by simp)
  exact ⟨hrefs, hlo, hhi, by simpa [Pool.weigh] using hfk⟩

/-- What holds while the slot is out of the stack. -/
theorem Inv.arming (h : Inv s) (hphase : s.phase = .arming) (hi : s.threads[i]? = some th)
    (hst : th.stack = pc :: rest) (hpc : pc.tok = 1) :
    s.refs = 0 ∧ 16384 ≤ s.ioCnt ∧ s.ioCnt < 32768 ∧ s.tok ≤ pc.tok ∧ s.flying = [] := by
  have hcount := h.count
  rw [hphase] at hcount
  obtain ⟨hrefs, hlo, hhi, hk⟩ := hcount
  rw [← hpc] at hk
  obtain ⟨-, -, hfk⟩ := others_of_tok hi hst hk
  have hfr : Pool.weigh Completion.refs s.flying = 0 := by
    unfold State.refs at hrefs
    omega
  exact ⟨hrefs, hlo, hhi, hk, flying_nil hfr hfk⟩

theorem inv_setID (h : Inv s) {id : SeqAndIdx} (hi : s.threads[i]? = some th)
    (hst : th.stack = .setID id :: rest) :
    Inv { s with
      sessionID := id, threads := s.threads.set i (th.put s.sessionID ([.acceptEx] ++ rest)) } := by
  obtain ⟨hphase, hlt, hid⟩ :=
    h.frames th (List.mem_of_getElem? hi) (.setID id) (by rw [hst]; exact List.mem_cons_self)
  obtain ⟨hrefs, hlo, hhi, hall, hnil⟩ := h.arming hphase hi hst rfl
  apply h.turn (t := { s with sessionID := id }) hi hst hall [.acceptEx] (.inr hrefs) rfl rfl
    (by simpa [PcInv] using ⟨hphase, hid⟩) _ (by simp [hnil]) (by simp [hnil]) h.once h.older hlt
      (by simp [hphase])
  unfold State.refs at hrefs
  simp only [hnil, hphase] at hrefs ⊢
  exact ⟨hrefs, hlo, hhi, le_rfl⟩

/-- The `AcceptEx` of the next incarnation is posted. -/
theorem inv_acceptEx (h : Inv s) (hi : s.threads[i]? = some th)
    (hst : th.stack = .acceptEx :: rest) :
    Inv { s.issue .accept with
      phase := .armed
      threads := s.threads.set i (th.put s.sessionID ([.setCount] ++ rest)) } := by
  obtain ⟨hphase, hid⟩ :=
    h.frames th (List.mem_of_getElem? hi) .acceptEx (by rw [hst]; exact List.mem_cons_self)
  obtain ⟨hrefs, hlo, hhi, hall, hnil⟩ := h.arming hphase hi hst rfl
  have hfl : (s.issue .accept).flying = [⟨.accept, s.sessionID⟩] := by rw [State.issue, hnil]; rfl
  apply h.turn (t := { s.issue .accept with phase := .armed }) hi hst hall
    [.setCount] (.inl rfl) rfl rfl (by simp [PcInv]) _ (by simp [State.issue, hnil])
    (by simp [hfl]) h.once h.older h.known (fun _ => hid)
  unfold State.refs at hrefs
  simp only [hfl]
  simp only [hnil, Pool.weigh_singleton] at hrefs ⊢
  refine ⟨?_, hhi, le_rfl⟩
  have h1 : Pool.weigh Thread.refs s.threads = 0 := by omega
  have h2 : (⟨.accept, s.sessionID⟩ : Completion).refs = 1 := rfl
  rw [h1, h2]
  exact hlo

/-- The count is set; at most one reference is held. -/
theorem inv_setCount (h : Inv s) (hi : s.threads[i]? = some th) (hst : th.stack = .setCount :: rest)
    (hle : s.refs ≤ 1) :
    Inv { s with
      ioCnt := 1, phase := .used
      threads := s.threads.set i (th.put s.sessionID ([.countSlot] ++ rest)) } := by
  have hphase : s.phase = .armed :=
    h.frames th (List.mem_of_getElem? hi) .setCount (by rw [hst]; exact List.mem_cons_self)
  have hall : s.tok ≤ Pc.setCount.tok := h.tok_le
  obtain ⟨-, -, hfk⟩ := others_of_tok hi hst hall
  apply h.turn (t := { s with ioCnt := 1, phase := .used }) hi hst hall [.countSlot] (.inl rfl)
    rfl rfl (by simp [PcInv]) _ h.current _ h.once h.older h.known (fun _ => h.fresh (.inr hphase))
  · refine ⟨hle, (by decide : 1 < 65536), ?_⟩
    simp only [hfk]
    rfl
  · intro c hc hop
    have := h.releasing c hc hop
    rw [hphase] at this
    cases this

/-- A step of the send path. -/
theorem inv_send (h : Inv s) {oneRead : Bool} {io : IoResult}
    {pc' : SendPc} {side : SendSide} {e : SendEffect} {spc : SendPc} (hi : s.threads[i]? = some th)
    (hst : th.stack = .send spc :: rest) (hheld : s.refs ≠ 0) (hcounts : (Pc.send spc).Counts s)
    (he : sendStep oneRead s.live s.sessionID io s.side spc = some (side, pc', e)) :
    Inv { effect { s with side } e with
      threads := s.threads.set i
        (th.put s.sessionID ((if pc' = .done then [] else [.send pc']) ++ rest)) } := by
  obtain ⟨heq, hcnt⟩ := sendStep_refs he
  have hle : sendRefs pc' + gives e ≤ sendRefs spc + takes e := by omega
  have hrefs : Pool.weigh Pc.refs (if pc' = .done then [] else [.send pc']) = sendRefs pc' := by
    split_ifs with hd
    · rw [hd]; rfl
    · rfl
  have htok : Pool.weigh Pc.tok (if pc' = .done then [] else [.send pc']) = 0 := by
    split_ifs <;> rfl
  have hnew : ∀ u : State, ∀ q ∈ if pc' = .done then [] else [Pc.send pc'], PcInv u q := by
    intro u q hq
    split_ifs at hq
    · cases hq
    · rw [List.mem_singleton.mp hq]
      trivial
  cases e with
  | none =>
    exact h.stay (t := { s with side }) hi hst _ ⟨rfl, rfl, rfl, le_rfl⟩ rfl rfl (hnew _) htok.le
      (by rw [hrefs]; exact hle)
  | store msg =>
    exact h.stay (t := { s with side }) hi hst _ ⟨rfl, rfl, rfl, le_rfl⟩ rfl rfl (hnew _) htok.le
      (by rw [hrefs]; exact hle)
  | drop =>
    exact h.stay (t := { s with side }) hi hst _ ⟨rfl, rfl, rfl, le_rfl⟩ rfl rfl (hnew _) htok.le
      (by rw [hrefs]; exact hle)
  | cut =>
    exact h.stay (t := { s with side, live := false }) hi hst _ ⟨rfl, rfl, rfl,
      le_rfl⟩ rfl rfl (hnew _) htok.le (by rw [hrefs]; exact hle)
  | count =>
    have hlt : s.ioCnt < if s.phase = .used then 65535 else 32767 := by
      rcases hcnt rfl with rfl | rfl <;> exact hcounts
    exact h.take (t := { s.incr with side }) hi hst _ hlt hheld ⟨rfl, rfl, rfl,
      le_rfl⟩ rfl rfl (hnew _) htok.le (by rw [hrefs]; exact hle)
  | uncount =>
    have hsame : Same { s with side } (effect { s with side } .uncount) := decr_same
    exact h.giveBack hi hst _ ⟨hsame.phase, hsame.sessionID, hsame.released,
      hsame.seqID⟩ decr_flying (by rw [effect, State.decr, State.decr]) (hnew _) htok.le
      (by rw [hrefs]; exact hle)
  | wake =>
    exact h.issue (t := { s.issue .wake with side }) hi hst _ .wake (by simp) ⟨rfl, rfl, rfl,
      le_rfl⟩ rfl rfl (hnew _) htok.le (by rw [hrefs]; exact hle)
  | send batch =>
    exact h.issue (t := { s.issue .send with side }) hi hst _ .send (by simp) ⟨rfl, rfl, rfl,
      le_rfl⟩ rfl rfl (hnew _) htok.le (by rw [hrefs]; exact hle)

/-! One lemma for each place of a thread that comes to several others. -/

section

variable {oneRead : Bool} {ans : Answer} {new : List Pc}

theorem stepPc_lock {id : SeqAndIdx} {call : Call} (h : Inv s) (hi : s.threads[i]? = some th)
    (hst : th.stack = .lock id call :: rest) (hcounts : (Pc.lock id call).Counts s)
    (he : stepPc oneRead ans s (.lock id call) = some (t, new)) :
    Inv { t with threads := s.threads.set i (th.put s.sessionID (new ++ rest)) } := by
  simp only [stepPc, Option.some.injEq, Prod.mk.injEq] at he
  obtain ⟨rfl, rfl⟩ := he
  apply inv_lock h hi hst hcounts
  split_ifs with hbit
  · exact .inl rfl
  · exact .inr ⟨not_not.mp hbit, rfl⟩

theorem stepPc_compareID {id : SeqAndIdx} {call : Call}
    (h : Inv s) (hi : s.threads[i]? = some th) (hst : th.stack = .compareID id call :: rest)
    (he : stepPc oneRead ans s (.compareID id call) = some (t, new)) :
    Inv { t with threads := s.threads.set i (th.put s.sessionID (new ++ rest)) } := by
  cases he
  split_ifs
  · exact h.stay hi hst [.unlockOther] ⟨rfl, rfl, rfl,
      le_rfl⟩ rfl rfl (by simp [PcInv]) le_rfl le_rfl
  · apply h.stay hi hst [call.body, .decr] ⟨rfl, rfl, rfl, le_rfl⟩ rfl rfl
    · cases call <;> simp [PcInv, Call.body]
    · cases call <;> exact le_rfl
    · cases call <;> exact le_rfl

theorem stepPc_decr (h : Inv s) (hi : s.threads[i]? = some th) (hst : th.stack = .decr :: rest)
    (he : stepPc oneRead ans s .decr = some (t, new)) :
    Inv { t with threads := s.threads.set i (th.put s.sessionID (new ++ rest)) } := by
  simp only [stepPc, Option.some.injEq, Prod.mk.injEq] at he
  obtain ⟨rfl, hnew⟩ := he
  apply h.giveBack hi hst new decr_same decr_flying rfl
  · intro q hq
    rw [← hnew] at hq
    split_ifs at hq
    · rw [List.mem_singleton.mp hq]; trivial
    · cases hq
  · rw [← hnew]; split_ifs <;> exact le_rfl
  · rw [← hnew]; split_ifs <;> exact le_rfl

theorem stepPc_exchangeRelease
    (h : Inv s) (hi : s.threads[i]? = some th) (hst : th.stack = .exchangeRelease :: rest)
    (he : stepPc oneRead ans s .exchangeRelease = some (t, new)) :
    Inv { t with threads := s.threads.set i (th.put s.sessionID (new ++ rest)) } := by
  simp only [stepPc] at he
  split_ifs at he with h0 <;> cases he
  · have hr := inv_exchangeRelease h hi hst h0
    exact hr
  · exact h.stay hi hst [] ⟨rfl, rfl, rfl, le_rfl⟩ rfl rfl (by simp) le_rfl le_rfl

theorem stepPc_accept (h : Inv s) (hi : s.threads[i]? = some th) (hst : th.stack = .accept :: rest)
    (he : stepPc oneRead ans s .accept = some (t, new)) :
    Inv { t with threads := s.threads.set i (th.put s.sessionID (new ++ rest)) } := by
  cases he
  split_ifs
  · exact h.stay hi hst [.acceptLive] ⟨rfl, rfl, rfl,
      le_rfl⟩ rfl rfl (by simp [PcInv]) le_rfl le_rfl
  · exact h.stay hi hst [] ⟨rfl, rfl, rfl, le_rfl⟩ rfl rfl (by simp) le_rfl le_rfl

theorem stepPc_acceptCount (h : Inv s)
    (hi : s.threads[i]? = some th) (hst : th.stack = .acceptCount :: rest)
    (he : stepPc oneRead ans s .acceptCount = some (t, new)) :
    Inv { t with threads := s.threads.set i (th.put s.sessionID (new ++ rest)) } := by
  simp only [stepPc] at he
  split_ifs at he <;> cases he
  · apply h.stay (t := { s with accepted := true, sessionCnt := s.sessionCnt + 1 }) hi hst _ ⟨rfl,
      rfl, rfl, le_rfl⟩ rfl rfl
    · intro q hq
      rcases List.mem_append.mp hq with hq | hq
      · obtain ⟨c, -, rfl⟩ := List.mem_map.mp hq; trivial
      · rw [List.mem_singleton.mp hq]; trivial
    · rw [tok_locks]; exact le_rfl
    · rw [refs_locks]; exact le_rfl
  · exact h.stay hi hst [.failed] ⟨rfl, rfl, rfl, le_rfl⟩ rfl rfl (by simp [PcInv]) le_rfl le_rfl

theorem stepPc_completeRecv
    (h : Inv s) (hi : s.threads[i]? = some th) (hst : th.stack = .completeRecv :: rest)
    (he : stepPc oneRead ans s .completeRecv = some (t, new)) :
    Inv { t with threads := s.threads.set i (th.put s.sessionID (new ++ rest)) } := by
  cases he
  apply h.stay hi hst _ ⟨rfl, rfl, rfl, le_rfl⟩ rfl rfl
  · intro q hq
    rcases List.mem_append.mp hq with hq | hq
    · obtain ⟨c, -, rfl⟩ := List.mem_map.mp hq; trivial
    · split_ifs at hq
      · rw [List.mem_singleton.mp hq]; trivial
      · cases hq
  · rw [tok_locks]; split_ifs <;> exact le_rfl
  · rw [refs_locks]; split_ifs <;> exact le_rfl

theorem stepPc_registerRecv
    (h : Inv s) (hi : s.threads[i]? = some th) (hst : th.stack = .registerRecv :: rest)
    (he : stepPc oneRead ans s .registerRecv = some (t, new)) :
    Inv { t with threads := s.threads.set i (th.put s.sessionID (new ++ rest)) } := by
  cases he
  split_ifs
  · exact h.stay hi hst [.lock s.sessionID .disconnectSession] ⟨rfl, rfl, rfl,
      le_rfl⟩ rfl rfl (by simp [PcInv]) le_rfl le_rfl
  · exact h.stay hi hst [.countRecv] ⟨rfl, rfl, rfl, le_rfl⟩ rfl rfl (by simp [PcInv]) le_rfl le_rfl
  · exact h.stay hi hst [] ⟨rfl, rfl, rfl, le_rfl⟩ rfl rfl (by simp) le_rfl le_rfl

theorem stepPc_wsaRecv (h : Inv s) (hi : s.threads[i]? = some th)
    (hst : th.stack = .wsaRecv :: rest) (he : stepPc oneRead ans s .wsaRecv = some (t, new)) :
    Inv { t with threads := s.threads.set i (th.put s.sessionID (new ++ rest)) } := by
  simp only [stepPc] at he
  split at he <;> cases he
  · exact h.issue hi hst [] .recv (by simp) ⟨rfl, rfl, rfl, le_rfl⟩ rfl rfl (by simp) le_rfl le_rfl
  · exact h.stay hi hst [.recvCutLive] ⟨rfl, rfl, rfl,
      le_rfl⟩ rfl rfl (by simp [PcInv]) le_rfl le_rfl
  · exact h.stay hi hst [] ⟨rfl, rfl, rfl, le_rfl⟩ rfl rfl (by simp) le_rfl (Nat.zero_le _)

theorem stepPc_releaseSession
    (h : Inv s) (hi : s.threads[i]? = some th) (hst : th.stack = .releaseSession :: rest)
    (he : stepPc oneRead ans s .releaseSession = some (t, new)) :
    Inv { t with threads := s.threads.set i (th.put s.sessionID (new ++ rest)) } := by
  have hframe := h.frames th (List.mem_of_getElem? hi) _ (by rw [hst]; exact List.mem_cons_self)
  simp only [stepPc] at he
  split at he <;> cases he
  · rename_i side _
    exact h.stay (t := { s with side, accepted := false, activeSlotCnt := s.activeSlotCnt - 1 }) hi
      hst [.push] ⟨rfl, rfl, rfl, le_rfl⟩ rfl rfl (by simpa [PcInv] using .inl hframe) le_rfl le_rfl
  · exact h.stay hi hst [.failed] ⟨rfl, rfl, rfl, le_rfl⟩ rfl rfl (by simp [PcInv])
      (Nat.zero_le _) le_rfl

theorem stepPc_testOn (h : Inv s) (hi : s.threads[i]? = some th) (hst : th.stack = .testOn :: rest)
    (he : stepPc oneRead ans s .testOn = some (t, new)) :
    Inv { t with threads := s.threads.set i (th.put s.sessionID (new ++ rest)) } := by
  have hframe := h.frames th (List.mem_of_getElem? hi) _ (by rw [hst]; exact List.mem_cons_self)
  cases he
  split_ifs
  · exact h.stay hi hst [.drawID] ⟨rfl, rfl, rfl, le_rfl⟩ rfl rfl (by simpa [PcInv] using hframe)
      le_rfl le_rfl
  · exact h.stay hi hst [] ⟨rfl, rfl, rfl, le_rfl⟩ rfl rfl (by simp) (Nat.zero_le _) le_rfl

/-- The number that is drawn has not been in use. -/
theorem stepPc_drawID (h : Inv s) (hi : s.threads[i]? = some th) (hst : th.stack = .drawID :: rest)
    (he : stepPc oneRead ans s .drawID = some (t, new)) :
    Inv { t with threads := s.threads.set i (th.put s.sessionID (new ++ rest)) } := by
  have hframe := h.frames th (List.mem_of_getElem? hi) _ (by rw [hst]; exact List.mem_cons_self)
  cases he
  apply h.stay (t := { s with seqID := s.seqID + 1 }) hi hst [.setID ⟨s.sessionID.idx, s.seqID⟩]
    ⟨rfl, rfl, rfl, Nat.le_succ _⟩ rfl rfl _ le_rfl le_rfl
  intro q hq
  rw [List.mem_singleton.mp hq]
  exact ⟨hframe, Nat.lt_succ_self _, fun hm => absurd (h.older _ hm) (lt_irrefl _)⟩

theorem stepPc_acceptEx (h : Inv s) (hi : s.threads[i]? = some th)
    (hst : th.stack = .acceptEx :: rest) (he : stepPc oneRead ans s .acceptEx = some (t, new)) :
    Inv { t with threads := s.threads.set i (th.put s.sessionID (new ++ rest)) } := by
  have hframe := h.frames th (List.mem_of_getElem? hi) _ (by rw [hst]; exact List.mem_cons_self)
  simp only [stepPc] at he
  split at he <;> cases he
  · exact inv_acceptEx h hi hst
  · exact h.stay hi hst [.push] ⟨rfl, rfl, rfl,
      le_rfl⟩ rfl rfl (by simpa [PcInv] using .inr hframe.1) le_rfl le_rfl

theorem inv_stepPc (h : Inv s) (hi : s.threads[i]? = some th)
    (hst : th.stack = pc :: rest) (hheld : Held (pc :: rest)) (hcounts : pc.Counts s)
    (he : stepPc oneRead ans s pc = some (t, new)) :
    Inv { t with threads := s.threads.set i (th.put s.sessionID (new ++ rest)) } := by
  have hframe := h.frames th (List.mem_of_getElem? hi) pc (by rw [hst]; exact List.mem_cons_self)
  cases pc with
  | lock id call => exact stepPc_lock h hi hst hcounts he
  | compareID id call => exact stepPc_compareID h hi hst he
  | unlockOther =>
    simp only [stepPc, Option.some.injEq, Prod.mk.injEq] at he
    obtain ⟨rfl, rfl⟩ := he
    exact h.giveBack hi hst [.exchangeRelease] decr_same decr_flying rfl (by simp [PcInv])
      le_rfl le_rfl
  | send spc =>
    obtain ⟨⟨side, pc', e⟩, hs, hr⟩ := Option.map_eq_some_iff.mp he
    cases hr
    exact inv_send h hi hst (refs_pos hi hst (hheld.1 rfl)) hcounts hs
  | cutLive =>
    cases he
    exact h.stay (t := { s with live := false }) hi hst [] ⟨rfl, rfl, rfl,
      le_rfl⟩ rfl rfl (by simp) le_rfl le_rfl
  | decr => exact stepPc_decr h hi hst he
  | exchangeRelease => exact stepPc_exchangeRelease h hi hst he
  | postRelease =>
    cases he
    exact inv_postRelease h hi hst
  | accept => exact stepPc_accept h hi hst he
  | acceptLive =>
    cases he
    exact h.stay (t := { s with live := true }) hi hst [.acceptCount] ⟨rfl, rfl, rfl,
      le_rfl⟩ rfl rfl (by simp [PcInv]) le_rfl le_rfl
  | acceptCount => exact stepPc_acceptCount h hi hst he
  | recvFin =>
    cases he
    exact h.stay (t := { s with live := false }) hi hst [] ⟨rfl, rfl, rfl,
      le_rfl⟩ rfl rfl (by simp) le_rfl le_rfl
  | completeRecv => exact stepPc_completeRecv h hi hst he
  | registerRecv => exact stepPc_registerRecv h hi hst he
  | countRecv =>
    simp only [stepPc, Option.some.injEq, Prod.mk.injEq] at he
    obtain ⟨rfl, rfl⟩ := he
    exact h.take (t := s.incr) hi hst [.wsaRecv] hcounts (refs_pos hi hst (hheld.1 rfl)) ⟨rfl, rfl,
      rfl, le_rfl⟩ rfl rfl (by simp [PcInv]) le_rfl le_rfl
  | wsaRecv => exact stepPc_wsaRecv h hi hst he
  | recvCutLive =>
    cases he
    exact h.stay (t := { s with live := false }) hi hst [.recvUncount] ⟨rfl, rfl, rfl,
      le_rfl⟩ rfl rfl (by simp [PcInv]) le_rfl le_rfl
  | recvUncount =>
    simp only [stepPc, Option.some.injEq, Prod.mk.injEq] at he
    obtain ⟨rfl, rfl⟩ := he
    exact h.giveBack hi hst [] decr_same decr_flying rfl (by simp) le_rfl le_rfl
  | release =>
    cases he
    exact h.stay (t := { s with
      sessionCnt := if s.accepted then s.sessionCnt - 1 else s.sessionCnt }) hi hst
      [.releaseSession] ⟨rfl, rfl, rfl, le_rfl⟩ rfl rfl (by simpa [PcInv] using hframe)
      le_rfl le_rfl
  | releaseSession => exact stepPc_releaseSession h hi hst he
  | push =>
    cases he
    have hp := inv_push h hi hst
    exact hp
  | testOn => exact stepPc_testOn h hi hst he
  | drawID => exact stepPc_drawID h hi hst he
  | setID id =>
    cases he
    exact inv_setID h hi hst
  | acceptEx => exact stepPc_acceptEx h hi hst he
  | setCount =>
    cases he
    have hc := inv_setCount h hi hst hcounts
    exact hc
  | countSlot =>
    cases he
    exact h.stay (t := { s with activeSlotCnt := s.activeSlotCnt + 1 }) hi hst [] ⟨rfl, rfl, rfl,
      le_rfl⟩ rfl rfl (by simp) le_rfl le_rfl
  | failed => cases he

end

theorem refs_idle (hst : th.stack = []) : th.refs = 0 := by rw [Thread.refs, hst]; rfl

theorem tok_idle (hst : th.stack = []) : th.tok = 0 := by rw [Thread.tok, hst]; rfl

/-- A thread that had nothing to do begins something, without a reference. -/
theorem Inv.start (h : Inv s)
    (hi : s.threads[i]? = some th) (hst : th.stack = []) (hnew : pc.refs = 0) (htok : pc.tok = 0) :
    Inv { s with threads := s.threads.set i (th.put s.sessionID [pc]) } := by
  have hr0 := refs_idle hst
  have hk0 := tok_idle hst
  have hr1 : (th.put s.sessionID [pc]).refs = 0 := by rw [refs_put, Pool.weigh_singleton, hnew]
  have hk1 : (th.put s.sessionID [pc]).tok = 0 := by rw [tok_put, Pool.weigh_singleton, htok]
  apply h.replace (t := s) hi _ (.inl fun _ hq => hq) _ (.inl rfl)
    (fun _ => h.put hi _) _ h.current h.releasing h.once h.older h.known h.fresh
  · intro q hq
    rw [List.mem_singleton.mp hq]
    exact Pc.inv_of_tok htok
  · intro r k hr hk
    rw [hr0, hr1] at hr
    rw [hk0, hk1] at hk
    have hr' : r + Pool.weigh Completion.refs s.flying = s.refs := by unfold State.refs; omega
    have hk' : k + Pool.weigh Completion.tok s.flying = s.tok := by unfold State.tok; omega
    rw [hr', hk']
    exact h.count

/-- A worker takes over what a completion stands for. -/
theorem inv_complete (h : Inv s) {j : ℕ} {c : Completion} {transferred : Bool}
    (hi : s.threads[i]? = some th) (hst : th.stack = []) (hj : s.flying[j]? = some c) :
    Inv { s with
      flying := s.flying.eraseIdx j
      threads := s.threads.set i ⟨c.op.handler transferred, c.sessionID⟩ } := by
  have hmem := List.mem_of_getElem? hj
  have hr0 := refs_idle hst
  have hk0 := tok_idle hst
  have hr1 : Thread.refs ⟨c.op.handler transferred, c.sessionID⟩ = c.refs := by
    obtain ⟨op, id⟩ := c
    cases op <;> cases transferred <;> rfl
  have hk1 : Thread.tok ⟨c.op.handler transferred, c.sessionID⟩ = c.tok := by
    obtain ⟨op, id⟩ := c
    cases op <;> cases transferred <;> rfl
  apply h.replace (t := { s with flying := s.flying.eraseIdx j }) hi _ (.inl fun _ hq => hq) _
    (.inl rfl) (fun _ => h.current c hmem) _ (fun d hd => h.current d (List.mem_of_mem_eraseIdx hd))
    (fun d hd => h.releasing d (List.mem_of_mem_eraseIdx hd)) h.once h.older h.known h.fresh
  · intro q hq
    by_cases hop : c.op = .release
    · have hq' : q = .release := by simpa [Op.handler, hop] using hq
      rw [hq']
      exact h.releasing c hmem hop
    · apply Pc.inv_of_tok
      have h0 : Thread.tok ⟨c.op.handler transferred, c.sessionID⟩ = 0 := by
        rw [hk1, Completion.tok, if_neg hop]
      exact Pool.weigh_eq_zero.mp h0 q hq
  · intro r k hr hk
    rw [hr0, hr1] at hr
    rw [hk0, hk1] at hk
    have hwr := Pool.weigh_eraseIdx (w := Completion.refs) hj
    have hwk := Pool.weigh_eraseIdx (w := Completion.tok) hj
    have hr' : r + Pool.weigh Completion.refs (s.flying.eraseIdx j) = s.refs := by
      unfold State.refs; omega
    have hk' : k + Pool.weigh Completion.tok (s.flying.eraseIdx j) = s.tok := by
      unfold State.tok; omega
    simp only [hr', hk']
    exact h.count

/-- A worker takes the slot out of the stack. -/
theorem inv_arm (h : Inv s) (hi : s.threads[i]? = some th) (hst : th.stack = [])
    (hphase : s.phase = .free) :
    Inv { s with phase := .arming, threads := s.threads.set i (th.put s.sessionID [.testOn]) } := by
  have hcount := h.count
  rw [hphase] at hcount
  obtain ⟨hrefs, hlo, hhi, htok⟩ := hcount
  unfold State.refs at hrefs
  unfold State.tok at htok
  have hr0 := refs_idle hst
  have hk0 := tok_idle hst
  have hnil : s.flying = [] := flying_nil (by omega) (by omega)
  apply h.replace (t := { s with phase := .arming }) hi _ (.inr (by omega)) _ (.inl rfl)
    (fun _ => h.put hi _) _ h.current (by simp [hnil]) h.once h.older h.known (by simp)
  · intro q hq
    rw [List.mem_singleton.mp hq]
    rfl
  · intro r k hr hk
    have hr1 : (th.put s.sessionID [.testOn]).refs = 0 := rfl
    have hk1 : (th.put s.sessionID [.testOn]).tok = 1 := rfl
    refine ⟨?_, hlo, hhi, ?_⟩
    · simp only; omega
    · simp only; omega

/-- Every stack is well formed. -/
def Stacks (s : State) : Prop := ∀ th ∈ s.threads, Held th.stack

theorem stacks_step {oneRead : Bool} {l : Step} (h : Stacks s) (he : next oneRead s l = some t) :
    Stacks t := by
  unfold Stacks at h ⊢
  cases l with
  | call i id call =>
    obtain ⟨th, hi, he⟩ := Option.bind_eq_some_iff.mp he
    split_ifs at he with hst
    cases he
    exact Pool.forall_set hi h (fun _ _ _ _ hc => hc) ⟨nofun, trivial⟩
  | complete i j transferred =>
    obtain ⟨th, hi, he⟩ := Option.bind_eq_some_iff.mp he
    obtain ⟨c, hj, he⟩ := Option.bind_eq_some_iff.mp he
    split_ifs at he with hst
    cases he
    refine Pool.forall_set hi h (fun _ _ _ _ hc => hc) ?_
    obtain ⟨op, id⟩ := c
    have hdecr : Pool.weigh Pc.refs [.decr] ≠ 0 := by decide
    cases op
    · exact ⟨fun _ => hdecr, nofun, trivial⟩
    · exact ⟨fun _ => hdecr, nofun, trivial⟩
    · exact ⟨fun _ => hdecr, nofun, trivial⟩
    · exact ⟨fun _ => hdecr, nofun, trivial⟩
    · exact ⟨nofun, trivial⟩
  | arm i =>
    obtain ⟨th, hi, he⟩ := Option.bind_eq_some_iff.mp he
    split_ifs at he with hst
    cases he
    exact Pool.forall_set hi h (fun _ _ _ _ hc => hc) ⟨nofun, trivial⟩
  | run i ans =>
    obtain ⟨th, hi, he⟩ := Option.bind_eq_some_iff.mp he
    rcases hst : th.stack with _ | ⟨pc, rest⟩ <;> rw [hst] at he
    · cases he
    · obtain ⟨⟨u, new⟩, hs, he⟩ := Option.map_eq_some_iff.mp he
      cases he
      refine Pool.forall_set hi h (fun _ _ _ _ hc => hc) ?_
      have hth := h th (List.mem_of_getElem? hi)
      rw [hst] at hth
      exact stepPc_held hth hs
  | otherSlot =>
    cases he
    exact h
  | stop =>
    cases he
    exact h

theorem inv_step {oneRead : Bool} {l : Step} (h : Inv s) (hs : Stacks s) (hc : Counted s l)
    (he : next oneRead s l = some t) : Inv t := by
  cases l with
  | call i id call =>
    obtain ⟨th, hi, he⟩ := Option.bind_eq_some_iff.mp he
    split_ifs at he with hst
    cases he
    exact h.start hi hst rfl rfl
  | complete i j transferred =>
    obtain ⟨th, hi, he⟩ := Option.bind_eq_some_iff.mp he
    obtain ⟨c, hj, he⟩ := Option.bind_eq_some_iff.mp he
    split_ifs at he with hst
    cases he
    exact inv_complete h hi hst hj
  | arm i =>
    obtain ⟨th, hi, he⟩ := Option.bind_eq_some_iff.mp he
    split_ifs at he with hst
    cases he
    have ha := inv_arm h hi hst.1 hst.2
    exact ha
  | run i ans =>
    obtain ⟨th, hi, he⟩ := Option.bind_eq_some_iff.mp he
    rcases hst : th.stack with _ | ⟨pc, rest⟩ <;> rw [hst] at he
    · cases he
    · obtain ⟨⟨u, new⟩, hstep, he⟩ := Option.map_eq_some_iff.mp he
      cases he
      have hheld := hs th (List.mem_of_getElem? hi)
      rw [hst] at hheld
      exact inv_stepPc h hi hst hheld (hc th pc rest hi hst) hstep
  | otherSlot =>
    cases he
    exact ⟨h.count, h.current, h.releasing, h.holders,
      fun th hth q hq => (h.frames th hth q hq).keep ⟨rfl, rfl, rfl, Nat.le_succ _⟩, h.once,
      fun id hid => Nat.lt_succ_of_lt (h.older id hid), Nat.lt_succ_of_lt h.known, h.fresh⟩
  | stop =>
    cases he
    exact ⟨h.count, h.current, h.releasing, h.holders,
      fun th hth q hq => (h.frames th hth q hq).keep ⟨rfl, rfl, rfl, le_rfl⟩, h.once, h.older,
        h.known, h.fresh⟩

end

theorem Initial.inv {s : State} (h : Initial s) : Inv s := by
  have hrefs : Pool.weigh Thread.refs s.threads = 0 :=
    Pool.weigh_eq_zero.mpr fun th hth => refs_idle (h.threads th hth)
  have htok : Pool.weigh Thread.tok s.threads = 0 :=
    Pool.weigh_eq_zero.mpr fun th hth => tok_idle (h.threads th hth)
  refine ⟨?_, ?_, ?_, ?_, ?_, ?_, ?_, h.sessionID, ?_⟩
  · rw [h.phase, h.ioCnt, State.refs, State.tok, hrefs, htok, h.flying]
    exact ⟨le_rfl, by decide, rfl⟩
  · simp [h.flying]
  · simp [h.flying]
  · intro th hth hne
    exact absurd (refs_idle (h.threads th hth)) hne
  · intro th hth pc hpc
    rw [h.threads th hth] at hpc
    cases hpc
  · rw [h.released]
    exact List.nodup_nil
  · simp [h.released]
  · simp [h.released]

theorem Initial.stacks {s : State} (h : Initial s) : Stacks s := by
  intro th hth
  rw [h.threads th hth]
  trivial

theorem invariant (oneRead : Bool) :
    ((slot oneRead).restrict Counted).Invariant fun s => Stacks s ∧ Inv s :=
  System.restrict_invariant (fun h => ⟨Initial.stacks h, Initial.inv h⟩)
    fun _ hp hc he => ⟨stacks_step hp.1 he, inv_step hp.2 hp.1 hc he⟩

/-! ### Release -/

theorem Inv.safe {s : State} (h : Inv s) : Safe s := by
  refine ⟨h.once, ?_, h.current, h.holders⟩
  intro th hth hpost
  have hphase := (h.frames th hth .postRelease hpost).1
  have hcount := h.count
  rw [hphase] at hcount
  obtain ⟨hrefs, -, -, htok⟩ := hcount
  obtain ⟨i, hi⟩ := List.mem_iff_getElem?.mp hth
  have hle := Pool.le_weigh (w := Thread.tok) hi
  obtain ⟨j, hj⟩ := List.mem_iff_getElem?.mp hpost
  have hone : 1 ≤ th.tok := Pool.le_weigh (w := Pc.tok) hj
  unfold State.refs at hrefs
  unfold State.tok at htok
  exact flying_nil (by omega) (by omega)

/-- In every run whose steps the count may take, in whatever order the threads
and the completions come, releases are posted once for an incarnation and when nothing is
outstanding, and no completion outlives its incarnation. -/
theorem release_safe (oneRead : Bool) {s : State}
    (h : ((slot oneRead).restrict Counted).Reachable s) : Safe s :=
  ((invariant oneRead).reachable h).2.safe

/-- `Counted`, evaluated on the small counts of a run. -/
def counted (s : State) : Step → Bool
  | .run i _ =>
    decide (s.ioCnt < 32767) &&
      (decide ((s.threads[i]?).bind (·.stack.head?) ≠ some .setCount) || decide (s.refs ≤ 1))
  | _ => true

theorem counted_of {s : State} {l : Step} (h : counted s l = true) : Counted s l := by
  cases l with
  | run i ans =>
    intro th pc rest hi hst
    simp only [counted, hi, Option.bind_some, hst, List.head?_cons, Bool.and_eq_true,
      Bool.or_eq_true, decide_eq_true_eq] at h
    obtain ⟨hlt, hset⟩ := h
    have hcnt : s.ioCnt < if s.phase = .used then 65535 else 32767 := by split_ifs <;> omega
    unfold Pc.Counts
    split
    · rcases hset with hset | hset
      · exact absurd rfl hset
      · exact hset
    all_goals first | exact hcnt | trivial
  | call i id call => trivial
  | complete i j transferred => trivial
  | arm i => trivial
  | otherSlot => trivial
  | stop => trivial

/-- A slot and two workers. -/
def start : State :=
  ⟨1, ⟨0, 0⟩, 1, false, false, true, .empty, 0, 1, [⟨.accept, ⟨0, 0⟩⟩],
    [⟨[], ⟨0, 0⟩⟩, ⟨[], ⟨0, 0⟩⟩], .used, []⟩

theorem start_init (oneRead : Bool) : (slot oneRead).init start :=
  ⟨rfl, by decide, rfl, rfl, rfl, rfl, rfl, rfl, by decide, rfl, rfl⟩

/-- `n` steps of thread `i`, in which everything goes well. -/
def go (i n : ℕ) : List Step := List.replicate n (.run i .ok)

/-- A session is accepted, ends and is released, and `AcceptEx` is posted again. -/
def rearm : List Step :=
  [.complete 0 0 true] ++ go 0 7 ++ [.complete 0 0 false] ++ go 0 4 ++ [.complete 0 0 false] ++
    go 0 3 ++ [.arm 0] ++ go 0 4

/-- The count is set, and the next session is accepted. -/
def acceptedAgain : State :=
  ⟨1, ⟨0, 1⟩, 2, true, true, true, .empty, 1, 1, [⟨.recv, ⟨0, 1⟩⟩],
    [⟨[], ⟨0, 1⟩⟩, ⟨[], ⟨0, 1⟩⟩], .used, [⟨0, 0⟩]⟩

theorem release_safe_acceptedAgain : Safe acceptedAgain := by
  have hinit : ((slot false).restrict Counted).init start := start_init false
  exact release_safe false (System.Reachable.execIf (g := counted) (fun _ _ => counted_of)
    (rearm ++ go 0 2 ++ [.complete 1 0 true] ++ go 1 7) (.start hinit) rfl)

/-- The second worker accepts the next session before the count is set, posts
its `WSARecv`, and gives its reference back after. -/
def early : State :=
  ⟨16384, ⟨0, 1⟩, 2, true, true, true, .empty, 1, 0, [⟨.recv, ⟨0, 1⟩⟩],
    [⟨[.countSlot], ⟨0, 1⟩⟩, ⟨[.postRelease], ⟨0, 1⟩⟩], .releasing, [⟨0, 0⟩]⟩

theorem early_reachable : (slot false).Reachable early :=
  System.Reachable.exec (rearm ++ [.complete 1 0 true] ++ go 1 6 ++ go 0 1 ++ go 1 2)
    (.start (start_init false)) rfl

theorem early_not_safe : ¬ ∀ s, (slot false).Reachable s → Safe s := by
  intro h
  have halone :=
    (h early early_reachable).alone ⟨[.postRelease], ⟨0, 1⟩⟩ (by simp [early]) (by simp)
  cases halone

end Slot
end MyMMO
