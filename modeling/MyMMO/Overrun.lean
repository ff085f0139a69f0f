/-
# The queues between the threads

`mDBReqQ`, `mDBResQ` and `mNotifyMsgQ` are `MyRingBuffer`s that hold pointers. Nobody looks at their
free size before an `Enqueue`, and an `Enqueue` that does not fit stops the process. As long as none
has, each of them holds what the queue of `MyMMO.Server` holds, and the next step stops the process
exactly if it puts a pointer into one that holds `POINTER_CAPACITY` (`stops_iff_overruns`).
RANKING_REQs are enough for that (`overrun_by_queries`).
-/
import MyMMO.OneSession
import MyMMO.PointerQueue

namespace MyMMO
namespace Server

/-! ### A queue in a ring buffer -/

section

variable {β : Type}

/-- The `Enqueue` or the `Dequeue` of the step that makes `new` out of `old`. -/
def follow (b : MyRingBuffer (β × ℕ)) (old new : List β) : Except Stop (MyRingBuffer (β × ℕ)) :=
  if old.length < new.length then
    match new.getLast? with
    | some x => b.enqueue (pointerBytes x)
    | none => .ok b
  else if new.length < old.length then (b.dequeue POINTER_SIZE).map Prod.snd
  else .ok b

/-- A pointer is put in at the end or taken out at the front. -/
def Queues (old new : List β) : Prop := new = old ∨ (∃ x, new = old ++ [x]) ∨ ∃ x, old = x :: new

/-- A pointer is put into a full queue. -/
def Overruns (old new : List β) : Prop := POINTER_CAPACITY ≤ old.length ∧ old.length < new.length

instance (old new : List β) : Decidable (Overruns old new) := inferInstanceAs (Decidable (_ ∧ _))

variable {b : MyRingBuffer (β × ℕ)} {old new : List β}

theorem follow_ok (h : Holds b old) (hq : Queues old new) (hroom : ¬Overruns old new) :
    ∃ b', follow b old new = .ok b' ∧ Holds b' new := by
  unfold follow
  rcases hq with rfl | ⟨x, rfl⟩ | ⟨x, rfl⟩
  · rw [if_neg (lt_irrefl _), if_neg (lt_irrefl _)]
    exact ⟨b, rfl, h⟩
  · have hlt : old.length < (old ++ [x]).length := by
      rw [List.length_append, List.length_singleton]
      omega
    have hfree : old.length < POINTER_CAPACITY := by
      by_contra hfull
      exact hroom ⟨not_lt.mp hfull, hlt⟩
    obtain ⟨b', hb', hold⟩ := h.enqueue hfree x
    rw [if_pos hlt, List.getLast?_concat]
    exact ⟨b', hb', hold⟩
  · obtain ⟨b', hb', hold⟩ := h.dequeue
    rw [if_neg (by simp), if_pos (by simp), hb']
    exact ⟨b', rfl, hold⟩

theorem follow_overruns (h : Holds b old) (hq : Queues old new) (hfull : Overruns old new) :
    follow b old new = .error (.ringBufferAssert .bufferFull) := by
  obtain ⟨hcap, hlt⟩ := hfull
  rcases hq with rfl | ⟨x, rfl⟩ | ⟨x, rfl⟩
  · exact absurd hlt (lt_irrefl _)
  · rw [follow, if_pos hlt, List.getLast?_concat]
    exact h.enqueue_full hcap x
  · rw [List.length_cons] at hlt
    omega

end

/-! ### The server with its buffers -/

/-- The server, and the buffers of its queues. -/
structure Piped where
  server : State
  dbReqQ : MyRingBuffer (Job × ℕ)
  dbResQ : MyRingBuffer (Job × ℕ)
  notifyMsgQ : MyRingBuffer (ℤ × ℕ)
  stopped : Option Stop

namespace Piped

/-- The buffers after the step of the server to `t`. -/
def buffers (p : Piped) (t : State) : Except Stop Piped := do
  let dbReqQ ← follow p.dbReqQ p.server.dbReqQ t.dbReqQ
  let dbResQ ← follow p.dbResQ p.server.dbResQ t.dbResQ
  let notifyMsgQ ← follow p.notifyMsgQ p.server.notifyMsgQ t.notifyMsgQ
  return ⟨t, dbReqQ, dbResQ, notifyMsgQ, none⟩

/-- A step that stops the process leaves everything as it was. -/
def after (p : Piped) : Except Stop Piped → Piped
  | .ok p' => p'
  | .error e => { p with stopped := some e }

def next (cap : ℕ) (p : Piped) (l : Step) : Option Piped :=
  if p.stopped.isSome then none else (Server.next cap p.server l).map fun t => p.after (p.buffers t)

end Piped

/-- Nobody has connected, and the buffers are new. -/
def piped (cap : ℕ) : System Piped Step where
  init p := p.server = start ∧ (∃ buffer, p.dbReqQ = .new RINGBUFFER_SIZE buffer) ∧
    (∃ buffer, p.dbResQ = .new RINGBUFFER_SIZE buffer) ∧
      (∃ buffer, p.notifyMsgQ = .new RINGBUFFER_SIZE buffer) ∧ p.stopped = none
  next := Piped.next cap

/-- A step puts a pointer into a queue that is full. -/
def State.Overruns (s t : State) : Prop :=
  Server.Overruns s.dbReqQ t.dbReqQ ∨ Server.Overruns s.dbResQ t.dbResQ ∨
    Server.Overruns s.notifyMsgQ t.notifyMsgQ

/-- The buffers hold what the queues hold. -/
structure Piped.Carries (p : Piped) : Prop where
  dbReqQ : Holds p.dbReqQ p.server.dbReqQ
  dbResQ : Holds p.dbResQ p.server.dbResQ
  notifyMsgQ : Holds p.notifyMsgQ p.server.notifyMsgQ

section

variable {s t : State} {cap : ℕ} {p : Piped}

/-- A step does at most one thing to each of the queues. -/
structure Pipes (s t : State) : Prop where
  dbReqQ : Queues s.dbReqQ t.dbReqQ
  dbResQ : Queues s.dbResQ t.dbResQ
  notifyMsgQ : Queues s.notifyMsgQ t.notifyMsgQ

theorem Pipes.of_eq (h1 : t.dbReqQ = s.dbReqQ) (h2 : t.dbResQ = s.dbResQ)
    (h3 : t.notifyMsgQ = s.notifyMsgQ) : Pipes s t :=
  ⟨.inl h1, .inl h2, .inl h3⟩

theorem pipes_authStep {a : AuthInput} (he : authStep cap a s = some t) : Pipes s t := by
  unfold authStep State.read at he
  dsimp only at he
  repeat' split at he
  all_goals cases he
  all_goals first
    | exact .of_eq rfl rfl rfl
    | skip
  -- a notice is taken
  exact ⟨.inl rfl, .inl rfl, .inr (.inr ⟨_, ‹_›⟩)⟩

theorem pipes_fieldStep {a : FieldInput} (he : fieldStep cap a s = some t) : Pipes s t := by
  unfold fieldStep State.read at he
  dsimp only at he
  repeat' split at he
  all_goals cases he
  all_goals first
    | exact .of_eq rfl rfl rfl
    | exact ⟨.inr (.inl ⟨_, rfl⟩), .inl rfl, .inl rfl⟩
    | exact ⟨.inl rfl, .inr (.inr ⟨_, ‹_›⟩), .inl rfl⟩
    | exact ⟨.inl rfl, .inl rfl, .inr (.inl ⟨_, rfl⟩)⟩

theorem pipes_dbStep (he : dbStep s = some t) : Pipes s t := by
  unfold dbStep at he
  repeat' split at he
  all_goals cases he
  all_goals first
    | exact .of_eq rfl rfl rfl
    | exact ⟨.inr (.inr ⟨_, ‹_›⟩), .inl rfl, .inl rfl⟩
    | exact ⟨.inl rfl, .inr (.inl ⟨_, rfl⟩), .inl rfl⟩

theorem pipes_step {l : Step} (he : next cap s l = some t) : Pipes s t := by
  cases l with
  | onAccept q =>
    simp only [next] at he
    split_ifs at he
    all_goals cases he
    all_goals exact .of_eq rfl rfl rfl
  | onRelease q =>
    simp only [next] at he
    split_ifs at he
    split at he
    all_goals cases he
    exact .of_eq rfl rfl rfl
  | auth a =>
    simp only [next] at he
    split_ifs at he
    exact pipes_authStep he
  | field a =>
    simp only [next] at he
    split_ifs at he
    exact pipes_fieldStep he
  | db =>
    simp only [next] at he
    split_ifs at he
    exact pipes_dbStep he
  | stop =>
    simp only [next] at he
    split_ifs at he
    cases he
    exact .of_eq rfl rfl rfl

theorem Piped.Carries.buffers_ok (h : p.Carries) (hp : Pipes p.server t)
    (hroom : ¬p.server.Overruns t) :
    ∃ p', p.buffers t = .ok p' ∧ p'.server = t ∧ p'.stopped = none ∧ p'.Carries := by
  obtain ⟨h1, h23⟩ := not_or.mp hroom
  obtain ⟨h2, h3⟩ := not_or.mp h23
  obtain ⟨dbReqQ, hreq, hreq'⟩ := follow_ok h.dbReqQ hp.dbReqQ h1
  obtain ⟨dbResQ, hres, hres'⟩ := follow_ok h.dbResQ hp.dbResQ h2
  obtain ⟨notifyMsgQ, hnotify, hnotify'⟩ := follow_ok h.notifyMsgQ hp.notifyMsgQ h3
  refine ⟨⟨t, dbReqQ, dbResQ, notifyMsgQ, none⟩, ?_, rfl, rfl, ⟨hreq', hres', hnotify'⟩⟩
  rw [Piped.buffers, hreq, hres, hnotify]
  rfl

theorem Piped.Carries.buffers_overruns (h : p.Carries) (hp : Pipes p.server t)
    (hfull : p.server.Overruns t) :
    p.buffers t = .error (.ringBufferAssert .bufferFull) := by
  unfold Piped.buffers
  by_cases h1 : Server.Overruns p.server.dbReqQ t.dbReqQ
  · rw [follow_overruns h.dbReqQ hp.dbReqQ h1]
    rfl
  · obtain ⟨dbReqQ, hreq, -⟩ := follow_ok h.dbReqQ hp.dbReqQ h1
    rw [hreq]
    by_cases h2 : Server.Overruns p.server.dbResQ t.dbResQ
    · simp only [bind, Except.bind]
      rw [follow_overruns h.dbResQ hp.dbResQ h2]
    · obtain ⟨dbResQ, hres, -⟩ := follow_ok h.dbResQ hp.dbResQ h2
      simp only [bind, Except.bind, hres]
      rw [follow_overruns h.notifyMsgQ hp.notifyMsgQ ((hfull.resolve_left h1).resolve_left h2)]

theorem Piped.next_eq (hrun : p.stopped = none) {l : Step}
    (he : Server.next cap p.server l = some t) :
    p.next cap l = some (p.after (p.buffers t)) := by
  rw [Piped.next, hrun, he]
  rfl

theorem Piped.next_cases {p' : Piped} {l : Step} (h : p.next cap l = some p') :
    p.stopped = none ∧ ∃ t, Server.next cap p.server l = some t ∧ p' = p.after (p.buffers t) := by
  unfold Piped.next at h
  split_ifs at h with hrun
  obtain ⟨t, ht, rfl⟩ := Option.map_eq_some_iff.mp h
  exact ⟨by simpa using hrun, t, ht, rfl⟩

/-- A step of the server that does not stop the process. -/
theorem Piped.Carries.next_ok (h : p.Carries) (hrun : p.stopped = none) {l : Step}
    (he : Server.next cap p.server l = some t) (hroom : ¬p.server.Overruns t) :
    ∃ p', p.next cap l = some p' ∧ p'.server = t ∧ p'.stopped = none ∧ p'.Carries := by
  obtain ⟨p', hp', hserver, hstopped, hcarries⟩ := h.buffers_ok (pipes_step he) hroom
  exact ⟨p', by rw [Piped.next_eq hrun he, hp']; rfl, hserver, hstopped, hcarries⟩

theorem Piped.Carries.next_overruns (h : p.Carries) (hrun : p.stopped = none) {l : Step}
    (he : Server.next cap p.server l = some t) (hfull : p.server.Overruns t) :
    p.next cap l = some { p with stopped := some (.ringBufferAssert .bufferFull) } := by
  rw [Piped.next_eq hrun he, h.buffers_overruns (pipes_step he) hfull]
  rfl

/-- The buffers and the queues stay together, and the server goes through states of `MyMMO.Server`.
-/
theorem carries_invariant :
    (piped cap).Invariant fun p => p.Carries ∧ (server cap).Reachable p.server where
  init := by
    rintro p ⟨hserver, ⟨b1, h1⟩, ⟨b2, h2⟩, ⟨b3, h3⟩, -⟩
    refine ⟨⟨?_, ?_, ?_⟩, .start hserver⟩
    · rw [h1, hserver]
      exact Holds.new b1
    · rw [h2, hserver]
      exact Holds.new b2
    · rw [h3, hserver]
      exact Holds.new b3
  step := by
    rintro p p' l ⟨hcarries, hreach⟩ he
    obtain ⟨hrun, t, ht, -⟩ := Piped.next_cases he
    by_cases hfull : p.server.Overruns t
    · have hstop := hcarries.next_overruns hrun ht hfull
      rw [show (piped cap).next p l = p.next cap l from rfl, hstop] at he
      cases he
      exact ⟨⟨hcarries.dbReqQ, hcarries.dbResQ, hcarries.notifyMsgQ⟩, hreach⟩
    · obtain ⟨p'', hp'', hserver, -, hcarries'⟩ := hcarries.next_ok hrun ht hfull
      rw [show (piped cap).next p l = p.next cap l from rfl, hp''] at he
      cases he
      exact ⟨hcarries', hserver ▸ hreach.step l ht⟩

/-- A step stops the process exactly if it puts a pointer into a queue that holds
`POINTER_CAPACITY`, and is the step of the server otherwise. -/
theorem stops_iff_overruns (h : (piped cap).Reachable p) (hrun : p.stopped = none) {l : Step}
    (he : Server.next cap p.server l = some t) : ∃ p', (piped cap).next p l = some p' ∧
      (p'.stopped = some (.ringBufferAssert .bufferFull) ↔ p.server.Overruns t) ∧
      (¬p.server.Overruns t → p'.server = t ∧ p'.stopped = none ∧ p'.Carries) := by
  obtain ⟨hcarries, -⟩ := carries_invariant.reachable h
  by_cases hfull : p.server.Overruns t
  · exact ⟨_, hcarries.next_overruns hrun he hfull, ⟨fun _ => hfull, fun _ => rfl⟩,
      fun hroom => absurd hfull hroom⟩
  · obtain ⟨p', hp', hserver, hstopped, hcarries'⟩ := hcarries.next_ok hrun he hfull
    refine ⟨p', hp', ⟨fun hstop => ?_, fun hover => absurd hover hfull⟩,
      fun _ => ⟨hserver, hstopped, hcarries'⟩⟩
    rw [hstopped] at hstop
    cases hstop

/-! ### RANKING_REQs -/

/-- A RANKING_REQ of `q` that its tick comes to. -/
def rankingReq (q : ℕ) : Step := .field ⟨[], some (q, .query), ⟨0, 0⟩⟩

theorem next_rankingReq (hf : s.fault = false) (hh : s.halted = false) (hfield : s.field = .tick)
    {q : ℕ} (hq : q ∈ s.fieldPlayers) {x : Player} (hx : s.heap q = some x) :
    next cap s (rankingReq q) = some { s with dbReqQ := s.dbReqQ ++ [.other q] } := by
  have hgo : ¬ (s.fault = true ∨ s.halted = true) := by simp [hf, hh]
  have hmem : q ∈ s.fieldPlayers ∪ s.sectors.image Prod.snd := Finset.mem_union_left _ hq
  simp only [rankingReq, next, if_neg hgo, fieldStep, hfield, if_pos hmem, State.read, hx]

/-- While the field thread is in its tick and `dbThread` waits, the RANKING_REQs of one player fill
`mDBReqQ`. -/
theorem leads_queries (n : ℕ) (hcarries : p.Carries) (hrun : p.stopped = none)
    (hf : p.server.fault = false) (hh : p.server.halted = false) (hfield : p.server.field = .tick)
    {q : ℕ} (hq : q ∈ p.server.fieldPlayers) {x : Player} (hx : p.server.heap q = some x)
    (hn : p.server.dbReqQ.length + n ≤ POINTER_CAPACITY) :
    ∃ p', (piped cap).exec p (List.replicate n (rankingReq q)) = some p' ∧ p'.stopped = none ∧
      p'.Carries ∧
      p'.server = { p.server with dbReqQ := p.server.dbReqQ ++ List.replicate n (.other q) } := by
  induction n generalizing p with
  | zero => exact ⟨p, rfl, hrun, hcarries, by rw [List.replicate_zero, List.append_nil]⟩
  | succ n ih =>
    have he : next cap p.server (rankingReq q) = some { p.server with
        dbReqQ := p.server.dbReqQ ++ [.other q] } :=
      next_rankingReq hf hh hfield hq hx
    have hroom : ¬p.server.Overruns { p.server with dbReqQ := p.server.dbReqQ ++ [.other q] } := by
      rintro (⟨hcap, -⟩ | ⟨-, hlt⟩ | ⟨-, hlt⟩)
      · omega
      · exact absurd hlt (lt_irrefl _)
      · exact absurd hlt (lt_irrefl _)
    obtain ⟨p1, hp1, hserver, hstopped, hcarries1⟩ := hcarries.next_ok hrun he hroom
    obtain ⟨p', hp', hrun', hcarries', hserver'⟩ :=
      ih hcarries1 hstopped (by rw [hserver]; exact hf) (by rw [hserver]; exact hh)
      (by rw [hserver]; exact hfield) (by rw [hserver]; exact hq) (by rw [hserver]; exact hx)
      (by rw [hserver, List.length_append, List.length_singleton]; omega)
    refine ⟨p', ?_, hrun', hcarries', ?_⟩
    · rw [List.replicate_succ, System.exec_cons (S := piped cap) hp1, hp']
    · rw [hserver', hserver, List.append_assoc, List.singleton_append, List.replicate_succ]

/-- The tick of the field thread has come to `q`. -/
structure Ticking (p : Piped) (q : ℕ) : Prop where
  runs : p.stopped = none
  sound : p.server.fault = false
  going : p.server.halted = false
  field : p.server.field = .tick
  mem : q ∈ p.server.fieldPlayers
  alive : (p.server.heap q).isSome

/-- The queue is full, and the process has not been stopped yet. -/
theorem full_by_queries (h : (piped cap).Reachable p) {q : ℕ} (hq : Ticking p q) :
    ∃ p', (piped cap).exec p
        (List.replicate (POINTER_CAPACITY - p.server.dbReqQ.length) (rankingReq q)) = some p' ∧
      Ticking p' q ∧ p'.server.dbReqQ.length = POINTER_CAPACITY := by
  obtain ⟨hcarries, -⟩ := carries_invariant.reachable h
  obtain ⟨hrun, hf, hh, hfield, hmem, halive⟩ := hq
  obtain ⟨x, hx⟩ := Option.isSome_iff_exists.mp halive
  have hle := hcarries.dbReqQ.length_le
  obtain ⟨p', hp', hrun', -, hserver⟩ := leads_queries (POINTER_CAPACITY - p.server.dbReqQ.length)
    hcarries hrun hf hh hfield hmem hx (by omega)
  refine ⟨p', hp', ⟨hrun', ?_, ?_, ?_, ?_, ?_⟩, ?_⟩
  all_goals rw [hserver]
  · exact hf
  · exact hh
  · exact hfield
  · exact hmem
  · exact halive
  · rw [List.length_append, List.length_replicate]
    omega

/-- A RANKING_REQ puts a job into `mDBReqQ`, full or not. -/
theorem Ticking.overruns {q : ℕ} (hq : Ticking p q)
    (hfull : p.server.dbReqQ.length = POINTER_CAPACITY) :
    ∃ t, Server.next cap p.server (rankingReq q) = some t ∧ p.server.Overruns t := by
  obtain ⟨x, hx⟩ := Option.isSome_iff_exists.mp hq.alive
  refine ⟨_, next_rankingReq hq.sound hq.going hq.field hq.mem hx, .inl ⟨hfull.ge, ?_⟩⟩
  rw [List.length_append, List.length_singleton]
  omega

/-- From every state in which the tick of the field thread comes to a player, its RANKING_REQs can
stop the process. -/
theorem overrun_by_queries (h : (piped cap).Reachable p) {q : ℕ} (hq : Ticking p q) :
    ∃ p', (piped cap).exec p
        (List.replicate (POINTER_CAPACITY - p.server.dbReqQ.length) (rankingReq q) ++
          [rankingReq q]) = some p' ∧
      p'.stopped = some (.ringBufferAssert .bufferFull) := by
  obtain ⟨p1, hp1, hq1, hfull⟩ := full_by_queries h hq
  obtain ⟨t, ht, hover⟩ : ∃ t, Server.next cap p1.server (rankingReq q) = some t ∧
      p1.server.Overruns t := hq1.overruns hfull
  obtain ⟨hcarries, -⟩ := carries_invariant.reachable (h.exec _ hp1)
  refine ⟨{ p1 with stopped := some (.ringBufferAssert .bufferFull) }, ?_, rfl⟩
  rw [System.exec_append, hp1, Option.bind_some,
    System.exec_cons (S := piped cap) (hcarries.next_overruns hq1.runs ht hover)]
  rfl

end

/-- Session 0 is in the field, and the field thread is in its tick. -/
def enteredRun : List Step := loginRun ++ authSteps 8 [0] none ++ fieldSteps 6 []

/-- Nobody has connected, and the buffers are zeroed. -/
def emptyPipes : Piped :=
  ⟨start, .new RINGBUFFER_SIZE fun _ => (.other 0, 0), .new RINGBUFFER_SIZE fun _ => (.other 0, 0),
    .new RINGBUFFER_SIZE fun _ => (0, 0), none⟩

theorem emptyPipes_init : (piped DISCONNECT_AND_LEAVE_CAP).init emptyPipes :=
  ⟨rfl, ⟨_, rfl⟩, ⟨_, rfl⟩, ⟨_, rfl⟩, rfl⟩

theorem exists_ticking : ∃ p, (piped DISCONNECT_AND_LEAVE_CAP).Reachable p ∧ Ticking p 0 := by
  have hpass : (((piped DISCONNECT_AND_LEAVE_CAP).exec emptyPipes enteredRun).any fun p =>
      p.stopped.isNone ∧ p.server.fault = false ∧ p.server.halted = false ∧ p.server.field = .tick ∧
        0 ∈ p.server.fieldPlayers ∧
        (p.server.heap 0).isSome) = true := by decide
  obtain ⟨p, hp, ht⟩ := Option.any_eq_true _ _ |>.mp hpass
  obtain ⟨hrun, hf, hh, hfield, hq, hx⟩ := of_decide_eq_true ht
  exact ⟨p, (System.Reachable.start emptyPipes_init).exec enteredRun hp,
    Option.isNone_iff_eq_none.mp hrun, hf, hh, hfield, hq, hx⟩

/-- It asks for its ranking until the queue is full, and once more. -/
theorem stops_iff_overruns_full :
    ∃ (p p' : Piped) (t : State), (piped DISCONNECT_AND_LEAVE_CAP).Reachable p ∧
    p.server.Overruns t ∧ (piped DISCONNECT_AND_LEAVE_CAP).next p (rankingReq 0) = some p' ∧
      p'.stopped = some (.ringBufferAssert .bufferFull) := by
  obtain ⟨p, hp, hq⟩ := exists_ticking
  obtain ⟨p1, hp1, hq1, hfull⟩ := full_by_queries hp hq
  obtain ⟨t, ht, hover⟩ := hq1.overruns hfull
  obtain ⟨p', hp', hstop, -⟩ := stops_iff_overruns (hp.exec _ hp1) hq1.runs ht
  exact ⟨p1, p', t, hp.exec _ hp1, hover, hp', hstop.mpr hover⟩

theorem overrun_by_queries_session0 :
    ∃ (p p' : Piped) (ls : List Step), (piped DISCONNECT_AND_LEAVE_CAP).Reachable p ∧
    (piped DISCONNECT_AND_LEAVE_CAP).exec p ls = some p' ∧ p'.stopped = some
    (.ringBufferAssert .bufferFull) := by
  obtain ⟨p, hp, hq⟩ := exists_ticking
  obtain ⟨p', hp', hstop⟩ := overrun_by_queries hp hq
  exact ⟨p, p', _, hp, hp', hstop⟩

end Server
end MyMMO
