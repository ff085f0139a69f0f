/-
# The send path of a session

`NetworkLib::sendPost`, `NetworkLib::completeSend` and
`NetworkLib::registerSend` on the send half of a `Session`, one step for each
queue operation, each decision on the queue's size, each Interlocked operation
and each posting. `mSendFlag` is up while somebody is responsible for the
queue: a `sendPost` that has raised it and is about to post the wake-up, a
completion (the wake-up, or a `WSASend`), or the handler of one. Exactly one of
these holds the token (`Inv.tokens`), and whoever lowers the flag looks at the
queue once more. A `WSASend` that fails with an error `checkAndHandleIoError`
has no case for takes the token away from a live session (`refused_stuck`).

`sendStep` is the code; it reports what it does to the rest of the session
(`SendEffect`), so that the session's life cycle can use the same steps.
-/
import MyMMO.Message
import MyMMO.Lib.System
import MyMMO.Lib.Pool

namespace MyMMO

/-- `CONFIG_SEND_MESSAGE_MAXCOUNT`. -/
def SEND_MESSAGE_MAXCOUNT : ℤ := 500

/-- A value stored in a `short`. -/
def toShort (n : ℤ) : ℤ := (n + 32768) % 65536 - 32768

theorem toShort_eq {n : ℤ} (h1 : -32768 ≤ n) (h2 : n < 32768) : toShort n = n := by
  rw [toShort]; omega

/-- The send half of a `Session`. `sendMsgs` and `msgCnt` are those of `mSendOv`. -/
structure SendSide where
  sendQ : List Message
  senqQSize : ℤ
  sendFlag : Bool
  sendMsgs : List Message
  msgCnt : ℤ

/-- Where a thread stands: in `sendPost` behind `sessionLock`, in the handler of
a send completion, or (`done`) at the end of either. -/
inductive SendPc
  | enQueueMsg (msg : Message)
  | takeFlag
  | countWake
  | postWake
  | completeSend
  | readSize (again : Bool)
  | rereadSize (again : Bool)
  | clearFlag
  | retakeFlag
  | deQueueMsg (msgCnt : ℤ) (cnt : ℕ)
  | testLive (msgCnt : ℤ)
  | countSend
  | wsaSend
  | cutLive
  | uncount
  | done
  | failed
  deriving DecidableEq

/-- How a call of `WSASend` or `WSARecv` ends: it is accepted (at once or
`WSA_IO_PENDING`), or fails with an error that `checkAndHandleIoError` has a
case for, or with another one. -/
inductive IoResult
  | accepted
  | handledError
  | otherError
  deriving DecidableEq

/-- What a step does outside the send half. -/
inductive SendEffect
  | none
  | store (msg : Message)
  | count
  | uncount
  | cut
  | wake
  | send (batch : List Message)
  | drop
  deriving DecidableEq

namespace SendSide

/-- A new or released session. -/
def empty : SendSide := ⟨[], 0, false, [], 0⟩

/-- What `registerSend` does with the number it has read. -/
def decide (s : SendSide) (again : Bool) (msgCnt : ℤ) : SendSide × SendPc × SendEffect :=
  if again then (s, if msgCnt ≠ 0 then .retakeFlag else .done, .none)
  else if msgCnt = 0 then (s, .clearFlag, .none)
  else ({ s with msgCnt }, .deQueueMsg msgCnt 0, .none)

end SendSide

/-- A step of a thread in the send path. `oneRead` is whether the comparison
with `CONFIG_SEND_MESSAGE_MAXCOUNT` and the value taken are one read of
`mSenqQSize` or two; `live` is `mLive`, `io` the outcome of the call. -/
def sendStep (oneRead live : Bool) (sessionID : SeqAndIdx) (io : IoResult) (s : SendSide) :
    SendPc → Option (SendSide × SendPc × SendEffect)
  | .enQueueMsg msg =>
    some ({ s with sendQ := s.sendQ ++ [msg], senqQSize := toShort (s.senqQSize + 1) },
      .takeFlag, .store msg)
  | .takeFlag => some (if s.sendFlag then (s, .done, .none) else
      ({ s with sendFlag := true }, .countWake, .none))
  | .countWake => some (s, .postWake, .count)
  | .postWake => some (s, .done, .wake)
  | .completeSend => some ({ s with sendMsgs := [], msgCnt := 0 }, .readSize false, .none)
  | .readSize again =>
    some (if SEND_MESSAGE_MAXCOUNT < s.senqQSize then s.decide again SEND_MESSAGE_MAXCOUNT
      else if oneRead then s.decide again s.senqQSize else (s, .rereadSize again, .none))
  | .rereadSize again => some (s.decide again s.senqQSize)
  | .clearFlag =>
    some (if s.sendFlag then ({ s with sendFlag := false }, .readSize true, .none) else
      (s, .done, .none))
  | .retakeFlag => some (if s.sendFlag then (s, .done, .none) else
      ({ s with sendFlag := true }, .countWake, .none))
  | .deQueueMsg msgCnt cnt =>
    if (cnt : ℤ) < msgCnt then
      match s.sendQ with
      -- the two `RT_ASSERT`s
      | [] => some (s, .failed, .none)
      | msg :: sendQ =>
        if msg.ownerID = sessionID then
          some ({ s with
            sendQ, senqQSize := toShort (s.senqQSize - 1), sendMsgs := s.sendMsgs ++ [msg] },
            .deQueueMsg msgCnt (cnt + 1), .none)
        else some (s, .failed, .none)
    else some (s, .testLive msgCnt, .none)
  | .testLive _ => some (if live then (s, .countSend, .none) else (s, .done, .drop))
  | .countSend => some (s, .wsaSend, .count)
  | .wsaSend =>
    match io with
    | .accepted => some (s, .done, .send s.sendMsgs)
    | .handledError => some (s, .cutLive, .drop)
    | .otherError => some (s, .done, .drop)
  | .cutLive => some (s, .uncount, .cut)
  | .uncount => some (s, .done, .uncount)
  | .done => none
  | .failed => none

namespace SendPath

/-- A send completion that is outstanding. -/
inductive Completion
  | wake
  | send (batch : List Message)
  deriving DecidableEq

/-- The session, its outstanding completions and the threads. `stored` and
`handed` are all messages ever given to `EnQueueMsg` and to `WSASend`; `dropped`
is whether a batch has gone neither to `WSASend` nor back. -/
structure State where
  sessionID : SeqAndIdx
  side : SendSide
  live : Bool
  flying : List Completion
  threads : List SendPc
  stored : List Message
  handed : List Message
  dropped : Bool

/-- A thread calls `sendPost`, a worker dequeues a completion, a thread takes
its next step, or the session is disconnected. -/
inductive Step
  | sendPost (i : ℕ) (msg : Message)
  | complete (i j : ℕ)
  | run (i : ℕ) (io : IoResult)
  | disconnect

/-- What a step does to the session around the send half. The count of
references only matters for the end of the session. -/
def effect (s : State) : SendEffect → State
  | .none | .count | .uncount => s
  | .store msg => { s with stored := s.stored ++ [msg] }
  | .cut => { s with live := false }
  | .wake => { s with flying := s.flying ++ [.wake] }
  | .send batch => { s with flying := s.flying ++ [.send batch], handed := s.handed ++ batch }
  | .drop => { s with dropped := true }

def next (oneRead : Bool) (s : State) : Step → Option State
  -- callers address the message to the session they post it to
  | .sendPost i msg =>
    if s.threads[i]? = some .done ∧ msg.ownerID = s.sessionID then
      some { s with threads := s.threads.set i (.enQueueMsg msg) }
    else none
  | .complete i j =>
    if s.threads[i]? = some .done ∧ j < s.flying.length then
      some { s with flying := s.flying.eraseIdx j, threads := s.threads.set i .completeSend }
    else none
  | .run i io =>
    (s.threads[i]?).bind fun pc =>
      (sendStep oneRead s.live s.sessionID io s.side pc).map fun r =>
        effect { s with side := r.1, threads := s.threads.set i r.2.1 } r.2.2
  | .disconnect => some { s with live := false }

/-- A session just accepted. -/
structure Initial (s : State) : Prop where
  side : s.side = .empty
  live : s.live = true
  flying : s.flying = []
  threads : ∀ pc ∈ s.threads, pc = .done
  stored : s.stored = []
  handed : s.handed = []
  dropped : s.dropped = false

/-- Any number of threads on one session. -/
def sendPath (oneRead : Bool) : System State Step where
  init := Initial
  next := next oneRead

/-- Fewer than 32768 messages are queued at a time. -/
def Bounded (s : State) : Step → Prop
  | .run i _ => ∀ msg, s.threads[i]? = some (.enQueueMsg msg) → s.side.sendQ.length + 1 < 32768
  | _ => True

/-- `checkAndHandleIoError` has a case for the error of every `WSASend` on the live session. -/
def Handled (s : State) : Step → Prop
  | .run i io => s.threads[i]? = some .wsaSend → s.live = true → io ≠ .otherError
  | _ => True

def Careful (s : State) (l : Step) : Prop := Bounded s l ∧ Handled s l

/-! ### The invariant -/

/-- Who is responsible for the queue. -/
def token : SendPc → ℕ
  | .countWake | .postWake | .completeSend | .readSize false | .rereadSize false | .clearFlag
  | .deQueueMsg _ _ | .testLive _ | .countSend | .wsaSend => 1
  | _ => 0

/-- Who will look at the queue or at the flag again. -/
def watches : SendPc → Bool
  | .takeFlag | .readSize true | .retakeFlag => true
  | _ => false

/-- What a thread knows. `hold` is what has been taken out of the queue and not
been handed to `WSASend`, `sendMsgs` what `mSendOv` lists, `queued` the queue's length. -/
def PcInv (sessionID : SeqAndIdx) (sendMsgs hold : List Message) (queued : ℕ) : SendPc → Prop
  | .enQueueMsg msg => msg.ownerID = sessionID
  | .countWake | .postWake | .completeSend => hold = []
  | .readSize false | .clearFlag => hold = [] ∧ sendMsgs = []
  | .deQueueMsg msgCnt cnt => hold = sendMsgs ∧ (cnt : ℤ) ≤ msgCnt ∧ msgCnt - cnt ≤ queued
  | .testLive _ | .countSend | .wsaSend => hold = sendMsgs
  | .rereadSize _ | .failed => False
  | _ => True

/-- The invariant of every interleaving. -/
structure Inv (s : State) : Prop where
  size_eq : s.side.senqQSize = s.side.sendQ.length
  small : s.side.sendQ.length < 32768
  owned : ∀ msg ∈ s.side.sendQ, msg.ownerID = s.sessionID
  tokens : Pool.weigh token s.threads + s.flying.length + s.dropped.toNat = s.side.sendFlag.toNat
  account : ∃ hold, s.stored = s.handed ++ hold ++ s.side.sendQ ∧
    (s.side.sendFlag = false → hold = []) ∧
    (s.flying ≠ [] → hold = []) ∧
    ∀ pc ∈ s.threads, PcInv s.sessionID s.side.sendMsgs hold s.side.sendQ.length pc
  watched : s.side.sendFlag = false → s.side.sendQ ≠ [] → ∃ pc ∈ s.threads, watches pc = true

/-- A thread without the token does not care about the batch. -/
theorem PcInv.of_token {sessionID : SeqAndIdx} {sendMsgs hold sendMsgs' hold' : List Message}
    {n m : ℕ} {pc : SendPc} (h : PcInv sessionID sendMsgs hold n pc) (ht : token pc = 0) :
    PcInv sessionID sendMsgs' hold' m pc := by
  cases pc <;> try exact h
  case countWake => cases ht
  case postWake => cases ht
  case completeSend => cases ht
  case readSize again =>
    cases again
    · cases ht
    · exact h
  case clearFlag => cases ht
  case deQueueMsg msgCnt cnt => cases ht
  case testLive msgCnt => cases ht
  case countSend => cases ht
  case wsaSend => cases ht

/-- Nor does anybody mind a longer queue. -/
theorem PcInv.mono {sessionID : SeqAndIdx} {sendMsgs hold : List Message} {n m : ℕ} {pc : SendPc}
    (h : PcInv sessionID sendMsgs hold n pc) (hle : n ≤ m) :
    PcInv sessionID sendMsgs hold m pc := by
  cases pc <;> try exact h
  case readSize again => cases again <;> exact h
  case deQueueMsg msgCnt cnt =>
    obtain ⟨h1, h2, h3⟩ := h
    exact ⟨h1, h2, by omega⟩

section

variable {s t : State} {i : ℕ} {pc : SendPc}

/-- Who holds the token is alone: no completion is outstanding, and the other
threads do not hold it. -/
theorem Inv.alone (h : Inv s) (hi : s.threads[i]? = some pc) (htok : token pc = 1) :
    s.side.sendFlag = true ∧ s.flying = [] ∧ s.dropped = false ∧
      ∀ j c, j ≠ i → s.threads[j]? = some c → token c = 0 := by
  have h1 := h.tokens
  have h2 := Pool.le_weigh (w := token) hi
  rcases hf : s.side.sendFlag with _ |
      _ <;> rw [hf] at h1 <;> simp only [Bool.toNat_false, Bool.toNat_true] at h1
  · omega
  · refine ⟨rfl, List.eq_nil_of_length_eq_zero (by omega), ?_, fun j c hj hc => ?_⟩
    · rcases hd : s.dropped with _ | _
      · rfl
      · rw [hd] at h1
        simp only [Bool.toNat_true] at h1
        omega
    · exact Pool.weigh_others hi (by omega) hj hc

/-- While the flag is down nobody holds the token. -/
theorem Inv.nobody (h : Inv s) (hf : s.side.sendFlag = false) :
    s.flying = [] ∧ s.dropped = false ∧ Pool.weigh token s.threads = 0 := by
  have h1 := h.tokens
  rw [hf] at h1
  simp only [Bool.toNat_false] at h1
  refine ⟨List.eq_nil_of_length_eq_zero (by omega), ?_, by omega⟩
  rcases hd : s.dropped with _ | _
  · rfl
  · rw [hd] at h1
    simp only [Bool.toNat_true] at h1
    omega

/-- Whoever watches goes on watching, if the thread that moves does. -/
theorem watched_set (hi : s.threads[i]? = some pc) {pc' : SendPc}
    (h : ∃ c ∈ s.threads, watches c = true) (hm : watches pc = true → watches pc' = true) :
    ∃ c ∈ s.threads.set i pc', watches c = true := by
  obtain ⟨hlt, -⟩ := List.getElem?_eq_some_iff.mp hi
  obtain ⟨c, hc, ha⟩ := h
  obtain ⟨j, hj⟩ := List.mem_iff_getElem?.mp hc
  by_cases hji : j = i
  · subst hji
    rw [hi] at hj
    cases hj
    exact ⟨pc', List.mem_of_getElem? (List.getElem?_set_self hlt), hm ha⟩
  · exact ⟨c, List.mem_of_getElem? (by rw [List.getElem?_set_ne (Ne.symm hji)]; exact hj), ha⟩

/-- A step that changes nothing but where the thread stands. -/
theorem Inv.move (h : Inv s) (hi : s.threads[i]? = some pc) {pc' : SendPc}
    (htok : token pc' = token pc)
    (hpc : ∀ hold, (s.side.sendFlag = false → hold = []) →
      (s.flying ≠ [] → hold = []) → PcInv s.sessionID s.side.sendMsgs hold s.side.sendQ.length pc →
      PcInv s.sessionID s.side.sendMsgs hold s.side.sendQ.length pc')
    (ha : s.side.sendFlag = false → s.side.sendQ ≠ [] → watches pc = true → watches pc' = true) :
    Inv { s with threads := s.threads.set i pc' } := by
  obtain ⟨hold, h1, h2, h3, h4⟩ := h.account
  have hw := Pool.weigh_set (w := token) hi pc'
  refine ⟨h.size_eq, h.small, h.owned, ?_, ⟨hold, h1, h2, h3, ?_⟩, fun hf hq => ?_⟩
  · have := h.tokens
    simp only
    omega
  · exact Pool.forall_set hi h4 (fun j c _ _ hc => hc)
      (hpc hold h2 h3 (h4 pc (List.mem_of_getElem? hi)))
  · exact watched_set hi (h.watched hf hq) (ha hf hq)

/-- Whoever raises the flag takes the token. -/
theorem Inv.raise (h : Inv s) (hi : s.threads[i]? = some pc) (htok : token pc = 0)
    (hf : s.side.sendFlag = false) :
    Inv { s with side := { s.side with
      sendFlag := true }, threads := s.threads.set i .countWake } := by
  obtain ⟨hold, h1, h2, h3, h4⟩ := h.account
  obtain ⟨hfl, hd, hw0⟩ := h.nobody hf
  have hw := Pool.weigh_set (w := token) hi .countWake
  have hz := Pool.weigh_eq_zero.mp hw0
  refine ⟨h.size_eq, h.small, h.owned, ?_, ⟨hold, h1, by simp, h3, ?_⟩, by simp⟩
  · simp only [hfl, hd, List.length_nil, Bool.toNat_false, Bool.toNat_true]
    simp only [token] at hw htok
    omega
  · exact Pool.forall_set hi h4
      (fun j c _ hc hp => hp.of_token (hz c (List.mem_of_getElem? hc))) (h2 hf)

/-- The thread with the token changes the queue, the batch or the flag. -/
theorem Inv.act (h : Inv s) (hi : s.threads[i]? = some pc) (htok : token pc = 1) {side : SendSide}
    {pc' : SendPc} (htok' : token pc' = side.sendFlag.toNat)
    (hsize : side.senqQSize = side.sendQ.length) (hsub : side.sendQ.Sublist s.side.sendQ)
    (hacc : ∀ hold, s.stored = s.handed ++ hold ++ s.side.sendQ →
      PcInv s.sessionID s.side.sendMsgs hold s.side.sendQ.length pc →
      ∃ hold', s.stored = s.handed ++ hold' ++ side.sendQ ∧ (side.sendFlag = false → hold' = []) ∧
      PcInv s.sessionID side.sendMsgs hold' side.sendQ.length pc')
    (ha : side.sendFlag = false → watches pc' = true) :
    Inv { s with side, threads := s.threads.set i pc' } := by
  obtain ⟨hf, hfl, hd, hothers⟩ := h.alone hi htok
  obtain ⟨hold, h1, h2, h3, h4⟩ := h.account
  obtain ⟨hold', e1, e2, e3⟩ := hacc hold h1 (h4 pc (List.mem_of_getElem? hi))
  have hw := Pool.weigh_set (w := token) hi pc'
  obtain ⟨hlt, -⟩ := List.getElem?_eq_some_iff.mp hi
  refine ⟨hsize, lt_of_le_of_lt hsub.length_le h.small, fun msg hm => h.owned msg (hsub.subset hm),
    ?_, ⟨hold', e1, e2, fun hne => absurd hfl hne, ?_⟩, fun hff _ => ?_⟩
  · have := h.tokens
    rw [hf] at this
    simp only [Bool.toNat_true, hd, hfl, List.length_nil, Bool.toNat_false] at this ⊢
    omega
  · exact Pool.forall_set hi h4 (fun j c hj hc hp => hp.of_token (hothers j c hj hc)) e3
  · exact ⟨pc', List.mem_of_getElem? (List.getElem?_set_self hlt), ha hff⟩

/-- The token goes from a thread to a completion, and the batch is handed over. -/
theorem Inv.post (h : Inv s)
    (hi : s.threads[i]? = some pc) (htok : token pc = 1) {batch : List Message}
    (hb : ∀ hold, PcInv s.sessionID s.side.sendMsgs hold s.side.sendQ.length pc → hold = batch)
    (c : Completion) :
    Inv { s with
      threads := s.threads.set i .done, flying := s.flying ++ [c], handed :=
  s.handed ++ batch } := by
  obtain ⟨hf, hfl, hd, hothers⟩ := h.alone hi htok
  obtain ⟨hold, h1, h2, h3, h4⟩ := h.account
  have hbatch := hb hold (h4 pc (List.mem_of_getElem? hi))
  subst hbatch
  have hw := Pool.weigh_set (w := token) hi .done
  have hdone : token .done = 0 := rfl
  refine ⟨h.size_eq, h.small, h.owned, ?_, ⟨[], by simp [h1], fun _ => rfl, fun _ => rfl, ?_⟩,
    fun hff => ?_⟩
  · have := h.tokens
    simp only [hfl, List.nil_append, List.length_nil, List.length_singleton] at this ⊢
    omega
  · exact Pool.forall_set hi h4 (fun j c hj hc hp => hp.of_token (hothers j c hj hc)) trivial
  · simp only at hff
    rw [hf] at hff
    cases hff

/-- The token is lost with a batch that goes nowhere. -/
theorem Inv.lose (h : Inv s) (hi : s.threads[i]? = some pc) (htok : token pc = 1) {pc' : SendPc}
    (htok' : token pc' = 0)
    (hpc : ∀ hold, PcInv s.sessionID s.side.sendMsgs hold s.side.sendQ.length pc') :
    Inv { s with threads := s.threads.set i pc', dropped := true } := by
  obtain ⟨hf, hfl, hd, hothers⟩ := h.alone hi htok
  obtain ⟨hold, h1, h2, h3, h4⟩ := h.account
  have hw := Pool.weigh_set (w := token) hi pc'
  refine ⟨h.size_eq, h.small, h.owned, ?_, ⟨hold, h1, h2, h3, ?_⟩, fun hff => ?_⟩
  · have := h.tokens
    simp only [hd, Bool.toNat_false, Bool.toNat_true] at this ⊢
    omega
  · exact Pool.forall_set hi h4 (fun j c hj hc hp => hp.of_token (hothers j c hj hc)) (hpc hold)
  · simp only at hff
    rw [hf] at hff
    cases hff

/-- A message is queued; whoever queued it will look at the flag. -/
theorem Inv.store (h : Inv s) {msg : Message} (hi : s.threads[i]? = some (.enQueueMsg msg))
    (hsmall : s.side.sendQ.length + 1 < 32768) :
    Inv { s with
      side :=
  { s.side with sendQ := s.side.sendQ ++ [msg], senqQSize := toShort (s.side.senqQSize + 1) }
      threads := s.threads.set i .takeFlag
      stored := s.stored ++ [msg] } := by
  obtain ⟨hold, h1, h2, h3, h4⟩ := h.account
  have hw := Pool.weigh_set (w := token) hi .takeFlag
  obtain ⟨hlt, -⟩ := List.getElem?_eq_some_iff.mp hi
  have hsize := h.size_eq
  refine ⟨?_, by simpa using hsmall, ?_, ?_, ⟨hold, by simp [h1], h2, h3, ?_⟩, fun _ _ => ?_⟩
  · simp only [List.length_append, List.length_singleton]
    rw [toShort_eq (by omega) (by omega), hsize]
    push_cast; rfl
  · intro m hm
    rcases List.mem_append.mp hm with hm | hm
    · exact h.owned m hm
    · rw [List.mem_singleton.mp hm]
      exact h4 _ (List.mem_of_getElem? hi)
  · have := h.tokens
    simp only [token] at hw
    simp only
    omega
  · exact Pool.forall_set hi h4 (fun j c _ _ hp => hp.mono (by simp)) trivial
  · exact ⟨.takeFlag, List.mem_of_getElem? (List.getElem?_set_self hlt), rfl⟩

theorem Inv.live (h : Inv s) (b : Bool) : Inv { s with live := b } :=
  ⟨h.size_eq, h.small, h.owned, h.tokens, h.account, h.watched⟩

/-! ### Steps -/

theorem next_run {oneRead : Bool} {io : IoResult} (he : next oneRead s (.run i io) = some t) :
    ∃ pc side pc' e, s.threads[i]? = some pc ∧
      sendStep oneRead s.live s.sessionID io s.side pc = some (side, pc', e) ∧
      t = effect { s with side, threads := s.threads.set i pc' } e := by
  obtain ⟨pc, hpc, he⟩ := Option.bind_eq_some_iff.mp he
  obtain ⟨⟨side, pc', e⟩, hs, he⟩ := Option.map_eq_some_iff.mp he
  exact ⟨pc, side, pc', e, hpc, hs, he.symm⟩

/-- The number read, when the size is read once: none exactly if the queue is
empty, and no more than it holds. -/
theorem Inv.readSize (h : Inv s) (again : Bool) (live : Bool) (io : IoResult) :
    ∃ n : ℤ, sendStep true live s.sessionID io s.side (.readSize again) =
        some (s.side.decide again n) ∧
      0 ≤ n ∧ n ≤ s.side.sendQ.length ∧ (n = 0 ↔ s.side.sendQ = []) := by
  have hsize := h.size_eq
  have hnil : s.side.sendQ = [] ↔ s.side.sendQ.length = 0 := List.length_eq_zero_iff.symm
  by_cases hlt : SEND_MESSAGE_MAXCOUNT < s.side.senqQSize
  · refine ⟨SEND_MESSAGE_MAXCOUNT, by simp only [sendStep, if_pos hlt], by decide, by omega, ?_⟩
    simp only [SEND_MESSAGE_MAXCOUNT] at hlt ⊢
    rw [hnil]
    omega
  · refine ⟨s.side.senqQSize, by simp only [sendStep, if_neg hlt, if_true], by omega, by omega, ?_⟩
    rw [hnil]
    omega

section

variable {io : IoResult} {side : SendSide} {pc' : SendPc} {e : SendEffect}

theorem inv_readSize (h : Inv s) {again : Bool} (hi : s.threads[i]? = some (.readSize again))
    (hs : sendStep true s.live s.sessionID io s.side (.readSize again) = some (side, pc', e)) :
    Inv (effect { s with side, threads := s.threads.set i pc' } e) := by
  have move := @Inv.move s i _ h hi
  obtain ⟨n, hn, h0, hle, hz⟩ := h.readSize again s.live io
  rw [hn] at hs
  cases again with
  | false =>
    obtain ⟨hf, -⟩ := h.alone hi rfl
    by_cases hn0 : n = 0
    · simp only [SendSide.decide, hn0, if_true, Bool.false_eq_true, if_false] at hs
      cases hs
      exact move rfl (fun _ _ _ hp => hp) (by simp [watches])
    · simp only [SendSide.decide, hn0, Bool.false_eq_true, if_false] at hs
      cases hs
      refine h.act hi rfl (by simp [token, hf]) h.size_eq (List.Sublist.refl _)
        (fun hold h1 hp => ?_) (by simp [hf])
      obtain ⟨rfl, hm⟩ := hp
      exact ⟨[], h1, fun _ => rfl, hm.symm, by simpa using h0, by simpa using hle⟩
  | true =>
    by_cases hn0 : n = 0
    · simp only [SendSide.decide, hn0, ne_eq, not_true_eq_false, if_true, if_false] at hs
      cases hs
      exact move rfl (fun _ _ _ _ => trivial) (fun _ hq => absurd (hz.mp hn0) hq)
    · simp only [SendSide.decide, hn0, ne_eq, not_false_eq_true, if_true] at hs
      cases hs
      exact move rfl (fun _ _ _ _ => trivial) (fun _ _ _ => rfl)

theorem inv_deQueueMsg (h : Inv s) {msgCnt : ℤ} {cnt : ℕ}
    (hi : s.threads[i]? = some (.deQueueMsg msgCnt cnt))
    (hs : sendStep true s.live s.sessionID io s.side (.deQueueMsg msgCnt cnt) =
      some (side, pc', e)) :
    Inv (effect { s with side, threads := s.threads.set i pc' } e) := by
  obtain ⟨hf, -⟩ := h.alone hi rfl
  simp only [sendStep] at hs
  by_cases hlt : (cnt : ℤ) < msgCnt
  · rw [if_pos hlt] at hs
    rcases hq : s.side.sendQ with _ | ⟨msg, q⟩ <;> simp only [hq] at hs
    · -- the queue holds what the batch still needs
      obtain ⟨hold, -, -, -, h4⟩ := h.account
      have hp := h4 _ (List.mem_of_getElem? hi)
      simp only [PcInv, hq, List.length_nil] at hp
      omega
    · rw [if_pos (h.owned msg (by rw [hq]; exact List.mem_cons_self))] at hs
      cases hs
      have hsize := h.size_eq
      have hsmall := h.small
      rw [hq, List.length_cons] at hsize hsmall
      refine h.act hi rfl (by simp [token, hf]) ?_ (by rw [hq]; exact List.sublist_cons_self _ _)
        (fun hold h1 hp => ?_) (by simp [hf])
      · simp only
        rw [toShort_eq (by omega) (by omega)]
        omega
      · simp only [PcInv, hq, List.length_cons] at hp
        obtain ⟨rfl, hp2, hp3⟩ := hp
        refine ⟨s.side.sendMsgs ++ [msg], by rw [h1, hq]; simp, by simp [hf], rfl, ?_, ?_⟩
        · push_cast; omega
        · push_cast at hp3 ⊢; omega
  · rw [if_neg hlt] at hs
    cases hs
    exact h.move hi rfl (fun _ _ _ hp => hp.1) (by simp [watches])

end

theorem inv_run (h : Inv s) {io : IoResult} (hb : Bounded s (.run i io))
    (he : next true s (.run i io) = some t) : Inv t := by
  obtain ⟨pc, side, pc', e, hi, hs, rfl⟩ := next_run he
  have move := @Inv.move s i pc h hi
  cases pc with
  | enQueueMsg msg =>
    cases hs
    exact h.store hi (hb msg hi)
  | takeFlag =>
    rcases hf : s.side.sendFlag with _ | _ <;> simp only [sendStep, hf] at hs <;> cases hs
    · exact h.raise hi rfl hf
    · exact move rfl (fun _ _ _ _ => trivial) (by simp [hf])
  | countWake =>
    cases hs
    exact move rfl (fun _ _ _ hp => hp) (by simp [watches])
  | postWake =>
    cases hs
    have hp := @Inv.post s i _ h hi rfl [] (fun _ hp => hp) .wake
    simpa [effect] using hp
  | completeSend =>
    cases hs
    obtain ⟨hf, -⟩ := h.alone hi rfl
    refine h.act hi rfl (by simp [token, hf]) h.size_eq (List.Sublist.refl _) (fun hold h1 hp => ?_)
      (by simp [hf])
    exact ⟨hold, h1, fun _ => hp, hp, rfl⟩
  | readSize again => exact inv_readSize h hi hs
  | rereadSize again =>
    obtain ⟨hold, -, -, -, h4⟩ := h.account
    exact (h4 _ (List.mem_of_getElem? hi)).elim
  | clearFlag =>
    obtain ⟨hf, -⟩ := h.alone hi rfl
    simp only [sendStep, hf, if_true] at hs
    cases hs
    refine h.act hi rfl rfl h.size_eq (List.Sublist.refl _) (fun hold h1 hp => ?_) (fun _ => rfl)
    exact ⟨hold, h1, fun _ => hp.1, trivial⟩
  | retakeFlag =>
    rcases hf : s.side.sendFlag with _ | _ <;> simp only [sendStep, hf] at hs <;> cases hs
    · exact h.raise hi rfl hf
    · exact move rfl (fun _ _ _ _ => trivial) (by simp [hf])
  | deQueueMsg msgCnt cnt => exact inv_deQueueMsg h hi hs
  | testLive msgCnt =>
    simp only [sendStep] at hs
    split at hs <;> cases hs
    · exact move rfl (fun _ _ _ hp => hp) (by simp [watches])
    · exact h.lose hi rfl rfl fun _ => trivial
  | countSend =>
    cases hs
    exact move rfl (fun _ _ _ hp => hp) (by simp [watches])
  | wsaSend =>
    cases io <;> cases hs
    · exact h.post hi rfl (fun _ hp => hp) _
    · exact h.lose hi rfl rfl fun _ => trivial
    · exact h.lose hi rfl rfl fun _ => trivial
  | cutLive =>
    cases hs
    have hm := @move .uncount rfl (fun _ _ _ _ => trivial) (by simp [watches])
    exact hm.live false
  | uncount =>
    cases hs
    exact move rfl (fun _ _ _ _ => trivial) (by simp [watches])
  | done => cases hs
  | failed => cases hs

/-- A worker takes the completion, and with it the token. -/
theorem inv_complete (h : Inv s) {j : ℕ} (hi : s.threads[i]? = some .done)
    (hj : j < s.flying.length) :
    Inv { s with flying := s.flying.eraseIdx j, threads := s.threads.set i .completeSend } := by
  obtain ⟨hold, h1, h2, h3, h4⟩ := h.account
  have htok := h.tokens
  have hw := Pool.weigh_set (w := token) hi .completeSend
  have hle := Bool.toNat_le s.side.sendFlag
  have hone : s.flying.length = 1 := by omega
  have hzero : Pool.weigh token s.threads = 0 := by omega
  have hnil : s.flying.eraseIdx j = [] := by
    apply List.eq_nil_of_length_eq_zero
    rw [List.length_eraseIdx_of_lt hj, hone]
  have hhold : hold = [] := h3 (List.ne_nil_of_length_pos (by omega))
  refine ⟨h.size_eq, h.small, h.owned, ?_, ⟨hold, h1, h2, fun _ => hhold, ?_⟩, fun hf _ => ?_⟩
  · simp only [hnil, List.length_nil]
    simp only [token] at hw
    omega
  · exact Pool.forall_set hi h4
      (fun k c _ hc hp => hp.of_token (Pool.weigh_eq_zero.mp hzero c (List.mem_of_getElem? hc)))
        hhold
  · -- the flag is up while a completion is outstanding
    simp only at hf
    rw [hf] at htok
    simp only [Bool.toNat_false] at htok
    omega

theorem inv_step {l : Step} (h : Inv s) (hb : Bounded s l)
    (he : next true s l = some t) : Inv t := by
  cases l with
  | sendPost i msg =>
    simp only [next] at he
    split_ifs at he with hc
    cases he
    exact h.move hc.1 rfl (fun _ _ _ _ => hc.2) (by simp [watches])
  | complete i j =>
    simp only [next] at he
    split_ifs at he with hc
    cases he
    exact inv_complete h hc.1 hc.2
  | run i io => exact inv_run h hb he
  | disconnect =>
    cases he
    exact h.live false

end

theorem Initial.inv {s : State} (h : Initial s) : Inv s := by
  have hdone : ∀ pc ∈ s.threads, token pc = 0 := by
    intro pc hpc
    rw [h.threads pc hpc]
    rfl
  refine ⟨?_, ?_, ?_, ?_, ⟨[], ?_, fun _ => rfl, fun _ => rfl, fun pc hpc => ?_⟩, ?_⟩
  · rw [h.side]; rfl
  · rw [h.side]; decide
  · rw [h.side]; simp [SendSide.empty]
  · rw [h.side, h.flying, h.dropped, Pool.weigh_eq_zero.mpr hdone]; rfl
  · rw [h.stored, h.handed, h.side]; rfl
  · rw [h.threads pc hpc]; trivial
  · rw [h.side]; simp [SendSide.empty]

theorem invariant : ((sendPath true).restrict Bounded).Invariant Inv :=
  System.restrict_invariant Initial.inv fun _ hp hb he => inv_step hp hb he

/-- Only a session that is no longer live, or about to be cut, has lost a batch. -/
def Lost (s : State) : Prop := s.dropped = true → s.live = true → SendPc.cutLive ∈ s.threads

section

variable {s t : State} {i : ℕ} {pc : SendPc}

/-- A step that loses no batch and cuts no session. -/
theorem Lost.move (h : Lost s) (hi : s.threads[i]? = some pc) (hpc : pc ≠ .cutLive)
    {side : SendSide} {pc' : SendPc} {flying : List Completion} {stored handed : List Message} :
    Lost { s with side, flying, stored, handed, threads := s.threads.set i pc' } := by
  intro hd hl
  obtain ⟨j, hj⟩ := List.mem_iff_getElem?.mp (h hd hl)
  have hji : j ≠ i := by
    rintro rfl
    rw [hi] at hj
    exact hpc (Option.some.inj hj)
  exact List.mem_of_getElem? (by rw [List.getElem?_set_ne (Ne.symm hji)]; exact hj)

/-- Where a batch is lost. -/
theorem sendStep_drop {oneRead live : Bool}
    {sessionID : SeqAndIdx} {io : IoResult} {side side' : SendSide} {pc' : SendPc}
    (h : sendStep oneRead live sessionID io side pc = some (side', pc', .drop)) :
    live = false ∨ pc' = .cutLive ∨ pc = .wsaSend ∧ io = .otherError := by
  cases pc with
  | testLive msgCnt =>
    cases live
    · exact .inl rfl
    · cases h
  | wsaSend =>
    cases io <;> cases h
    · exact .inr (.inl rfl)
    · exact .inr (.inr ⟨rfl, rfl⟩)
  | readSize again =>
      cases again <;> simp only [sendStep, SendSide.decide] at h <;> split_ifs at h <;> cases h
  | rereadSize again =>
      cases again <;> simp only [sendStep, SendSide.decide] at h <;> split_ifs at h <;> cases h
  | deQueueMsg msgCnt cnt =>
    simp only [sendStep] at h
    split_ifs at h
    · split at h
      · cases h
      · split_ifs at h <;> cases h
    · cases h
  | takeFlag => simp only [sendStep] at h; split_ifs at h <;> cases h
  | clearFlag => simp only [sendStep] at h; split_ifs at h <;> cases h
  | retakeFlag => simp only [sendStep] at h; split_ifs at h <;> cases h
  | enQueueMsg msg => cases h
  | countWake => cases h
  | postWake => cases h
  | completeSend => cases h
  | countSend => cases h
  | cutLive => cases h
  | uncount => cases h
  | done => cases h
  | failed => cases h

theorem lost_run (h : Lost s) {io : IoResult} (hh : Handled s (.run i io))
    (he : next true s (.run i io) = some t) : Lost t := by
  obtain ⟨pc, side, pc', e, hi, hs, rfl⟩ := next_run he
  by_cases hcut : pc = .cutLive
  · subst hcut
    cases hs
    exact fun _ hl => by cases hl
  cases e with
  | drop =>
    intro _ hl
    obtain ⟨hlt, -⟩ := List.getElem?_eq_some_iff.mp hi
    rcases sendStep_drop hs with hlive | rfl | ⟨rfl, rfl⟩
    · rw [show s.live = true from hl] at hlive
      cases hlive
    · exact List.mem_of_getElem? (List.getElem?_set_self hlt)
    · exact absurd rfl (hh hi hl)
  | cut => exact fun _ hl => by cases hl
  | none => exact h.move hi hcut
  | count => exact h.move hi hcut
  | uncount => exact h.move hi hcut
  | store msg => exact h.move hi hcut
  | wake => exact h.move hi hcut
  | send batch => exact h.move hi hcut

theorem lost_step {l : Step} (h : Lost s) (hh : Handled s l) (he : next true s l = some t) :
    Lost t := by
  cases l with
  | sendPost i msg =>
    simp only [next] at he
    split_ifs at he with hc
    cases he
    exact h.move hc.1 (by simp)
  | complete i j =>
    simp only [next] at he
    split_ifs at he with hc
    cases he
    exact h.move hc.1 (by simp)
  | run i io => exact lost_run h hh he
  | disconnect =>
    cases he
    exact fun _ hl => by cases hl

end

theorem lost_invariant : ((sendPath true).restrict Careful).Invariant Lost :=
  System.restrict_invariant (fun h hd => by rw [h.dropped] at hd; cases hd) fun _ hp hc he =>
    lost_step hp hc.2 he

/-! ### The send path -/

/-- Nobody is inside `sendPost` or `registerSend`. -/
def State.Quiet (s : State) : Prop := ∀ pc ∈ s.threads, pc = .done ∨ pc = .completeSend

/-- The messages that have been handed to `WSASend` are the first of those that were stored. -/
theorem Inv.prefix {s : State} (h : Inv s) : s.handed <+: s.stored := by
  obtain ⟨hold, h1, -⟩ := h.account
  exact ⟨hold ++ s.side.sendQ, by rw [h1, List.append_assoc]⟩

theorem Inv.flying_le {s : State} (h : Inv s) : s.flying.length ≤ 1 := by
  have h1 := h.tokens
  have h2 := Bool.toNat_le s.side.sendFlag
  omega

/-- What is queued is looked after, as long as the batches get somewhere. -/
theorem Inv.wakeUp {s : State} (h : Inv s)
    (hlost : Lost s) (hlive : s.live = true) (hq : s.side.sendQ ≠ []) (hquiet : s.Quiet) :
    s.side.sendFlag = true ∧ (s.flying ≠ [] ∨ SendPc.completeSend ∈ s.threads) := by
  have hf : s.side.sendFlag = true := by
    by_contra hf
    obtain ⟨pc, hpc, hw⟩ := h.watched (by simpa using hf) hq
    rcases hquiet pc hpc with rfl | rfl <;> cases hw
  have hd : s.dropped = false := by
    by_contra hd
    rcases hquiet _ (hlost (by simpa using hd) hlive) with hpc | hpc <;> cases hpc
  refine ⟨hf, ?_⟩
  by_contra hnone
  rw [not_or, not_not] at hnone
  have hdone : ∀ pc ∈ s.threads, token pc = 0 := by
    intro pc hpc
    rcases hquiet pc hpc with rfl | rfl
    · rfl
    · exact absurd hpc hnone.2
  have h1 := h.tokens
  rw [Pool.weigh_eq_zero.mpr hdone, hnone.1, hd, hf] at h1
  cases h1

/-- Whatever `sendPost`s, completions and disconnects come in whatever order: at
most one completion is outstanding, and `WSASend` gets the messages in the order
they were stored and each once. If no `WSASend` on the live session has failed with an
error without a case, then while the session is live and nobody is inside the send path,
a queue that is not empty has its flag up and a completion on its way. -/
theorem send_exactly_once {s : State} (h : ((sendPath true).restrict Bounded).Reachable s) :
    s.flying.length ≤ 1 ∧ s.handed <+: s.stored ∧
      (((sendPath true).restrict Careful).Reachable s → s.live = true →
          s.side.sendQ ≠ [] → s.Quiet →
        s.side.sendFlag = true ∧ (s.flying ≠ [] ∨ SendPc.completeSend ∈ s.threads)) := by
  have hinv := invariant.reachable h
  exact ⟨hinv.flying_le, hinv.prefix, fun hc => hinv.wakeUp (lost_invariant.reachable hc)⟩

/-- Two threads post to a session. -/
def twoThreads : State := ⟨⟨0, 1⟩, .empty, true, [], [.done, .done], [], [], false⟩

/-- The `n`-th message of the run. -/
def message (n : UInt8) : Message := ⟨⟨0, 1⟩, 0, [n], 0⟩

/-- The first message goes out, and the second waits for the first's completion. -/
def twoMessages : List Step :=
  let go (i n : ℕ) : List Step := List.replicate n (.run i .accepted)
  [.sendPost 0 (message 1)] ++ go 0 4 ++ [.complete 1 0] ++ go 1 6 ++ [.sendPost 0 (message 2)] ++
    go 1 1 ++ go 0 2

/-- The state the run ends in. -/
def twoMessagesEnd : State :=
  ⟨⟨0, 1⟩, ⟨[message 2], 1, true, [message 1], 1⟩, true, [.send [message 1]], [.done, .done],
    [message 1, message 2], [message 1], false⟩

/-- The first message's `WSASend` is refused, and the second waits for nothing. -/
def refused : List Step :=
  let go (i n : ℕ) : List Step := List.replicate n (.run i .accepted)
  [.sendPost 0 (message 1)] ++ go 0 4 ++ [.complete 1 0] ++ go 1 6 ++ [.run 1 .otherError] ++
    [.sendPost 0 (message 2)] ++ go 0 2

def refusedEnd : State :=
  ⟨⟨0, 1⟩, ⟨[message 2], 1, true, [message 1], 1⟩, true, [], [.done, .done],
    [message 1, message 2], [], true⟩

theorem twoThreads_initial : Initial twoThreads := ⟨rfl, rfl, rfl, by decide, rfl, rfl, rfl⟩

/-- The call is not one whose error nobody handles. -/
def Step.handled : Step → Bool
  | .run _ .otherError => false
  | _ => true

theorem twoMessagesEnd_reachable : ((sendPath true).restrict Careful).Reachable twoMessagesEnd := by
  have hinit : ((sendPath true).restrict Careful).init twoThreads := twoThreads_initial
  apply System.Reachable.execIf
    (g := fun s l => decide (s.side.sendQ.length + 1 < 32768) && l.handled) _ twoMessages
      (.start hinit) rfl
  intro s l h
  rw [Bool.and_eq_true, decide_eq_true_eq] at h
  cases l with
  | run i io =>
    refine ⟨fun _ _ => h.1, fun _ _ => ?_⟩
    rintro rfl
    cases h.2
  | sendPost i msg => exact ⟨trivial, trivial⟩
  | complete i j => exact ⟨trivial, trivial⟩
  | disconnect => exact ⟨trivial, trivial⟩

theorem send_exactly_once_twoMessages : twoMessagesEnd.flying.length ≤ 1 ∧
    twoMessagesEnd.handed <+: twoMessagesEnd.stored ∧ twoMessagesEnd.side.sendFlag = true ∧
      (twoMessagesEnd.flying ≠ [] ∨ SendPc.completeSend ∈ twoMessagesEnd.threads) := by
  have hcareful := twoMessagesEnd_reachable
  have h := send_exactly_once (hcareful.restrict_mono fun _ _ _ hc => hc.1)
  exact ⟨h.1, h.2.1, h.2.2 hcareful rfl (by decide) (by unfold State.Quiet; decide)⟩

/-- The session is live, its flag is up, and nobody will ever look at its queue. -/
theorem refused_stuck : ((sendPath true).restrict Bounded).Reachable refusedEnd ∧
    refusedEnd.live = true ∧
    refusedEnd.side.sendQ ≠ [] ∧ refusedEnd.Quiet ∧
      ¬(refusedEnd.side.sendFlag = true ∧
        (refusedEnd.flying ≠ [] ∨ SendPc.completeSend ∈ refusedEnd.threads)) := by
  refine ⟨?_, rfl, by decide, by unfold State.Quiet; decide, by decide⟩
  have hinit : ((sendPath true).restrict Bounded).init twoThreads := twoThreads_initial
  apply System.Reachable.execIf (g := fun s _ => decide (s.side.sendQ.length + 1 < 32768)) _ refused
    (.start hinit) rfl
  intro s l h
  cases l <;> try trivial
  exact fun _ _ => of_decide_eq_true h

end SendPath
end MyMMO
