/-
# Messages deleted and counted

Each message is in `mRecvQ`, in the hands of a thread, or deleted, and
`mPlayerMessageQCnt` and the `mSendMsgCnt` of the players say how many are in
the queues (`balanced`), in every run in which a `Player` is deleted only when its
queue is empty, no `onRecv` of its session is in progress and the field thread has
none of its messages.

The two loops that are there to empty the queue of a `Player` before it is deleted, in
`checkDisConnectedAndLeavePlayer` and in `~Player`, ask `DeQueueMsgOrNull`, which
gives nothing of a player that is disconnected, and no other is deleted. What is in
the queue then is lost, and stays counted in `mPlayerMessageQCnt` (`lost_messages`).
-/
import MyMMO.Mail

namespace MyMMO
namespace Mail

/-- What the message in a thread's hand still counts in `mPlayerMessageQCnt`. -/
def due : Option Hand → ℤ
  | some ⟨_, _, .process⟩ | some ⟨_, _, .uncount⟩ => 1
  | _ => 0

/-- What it still counts in the `mSendMsgCnt` of `q`. -/
def duePlayer (q : ℕ) : Option Hand → ℤ
  | some ⟨_, _, .delete⟩ | none => 0
  | some ⟨q', _, _⟩ => if q' = q then 1 else 0

/-- It is message `m` of session `q`. -/
def holds (q m : ℕ) : Option Hand → ℕ
  | some h => if h.q = q ∧ h.msg = m then 1 else 0
  | none => 0

/-- What the messages in `mRecvQ` count in `mPlayerMessageQCnt`. -/
def Box.due (b : Box) : ℤ := b.recvQ.length - if b.recv = .count then 1 else 0

/-- What they count in `mSendMsgCnt`. -/
def Box.duePlayer (b : Box) : ℤ := b.recvQ.length - if b.recv = .idle then 0 else 1

/-- Where message `m` of session `q` is: how often deleted, in hand, and in `mRecvQ`. -/
def State.copies (p : State) (q m : ℕ) : ℕ :=
  (p.box q).deleted.count m + holds q m p.authHand + holds q m p.fieldHand + (p.box q).recvQ.count m

/-- What `mSendMsgCnt` of `q` should be. -/
def State.duePlayer (p : State) (q : ℕ) : ℤ :=
  (p.box q).duePlayer + Mail.duePlayer q p.authHand + Mail.duePlayer q p.fieldHand

/-- What `mPlayerMessageQCnt` should be. -/
def State.due (p : State) : ℤ :=
  ∑ q ∈ Finset.range p.server.nextSeq, (p.box q).due + Mail.due p.authHand + Mail.due p.fieldHand

structure Counted (p : State) : Prop where
  once : ∀ q m, p.copies q m = if m < (p.box q).received then 1 else 0
  total : p.messageQCnt = p.due
  own : ∀ q, (p.box q).sendMsgCnt = p.duePlayer q
  authHand : ∀ h, p.authHand = some h → p.server.heap h.q ≠ none
  fieldHand : ∀ h, p.fieldHand = some h → p.server.heap h.q ≠ none
  recv : ∀ q, (p.box q).recv ≠ .idle → p.server.heap q ≠ none

/-- A `Player` is deleted when its queue is empty and nobody is about to count a
message of it, and `onRecv` finds the `Player` of its session. -/
def Drained (p : State) : Step → Prop
  | .auth _ => ∀ q ds ls, p.server.auth = .free q ds ls →
      (p.box q).recvQ = [] ∧ (p.box q).recv = .idle ∧ ∀ h, p.fieldHand = some h → h.q ≠ q
  | .onRecv q => p.server.heap q ≠ none
  | _ => True

section

variable {cap : ℕ} {p t : State} {l : Step} {q : ℕ}

/-! ### One session at a time -/

/-- The steps of one session: what changes for it in the sums changes in the counters. -/
structure Local (p t : State) (q : ℕ) : Prop where
  server : t.server = p.server
  alive : p.server.heap q ≠ none
  box : ∀ q', q' ≠ q → t.box q' = p.box q'
  other : ∀ q', q' ≠ q → Mail.duePlayer q' t.authHand + Mail.duePlayer q' t.fieldHand =
    Mail.duePlayer q' p.authHand + Mail.duePlayer q' p.fieldHand
  otherHolds : ∀ q' m, q' ≠ q → holds q' m t.authHand + holds q' m t.fieldHand =
    holds q' m p.authHand + holds q' m p.fieldHand
  authHand : ∀ h, t.authHand = some h → h.q = q ∨ ∃ h', p.authHand = some h' ∧ h'.q = h.q
  fieldHand : ∀ h, t.fieldHand = some h → h.q = q ∨ ∃ h', p.fieldHand = some h' ∧ h'.q = h.q
  total : t.messageQCnt - (t.box q).due - Mail.due t.authHand - Mail.due t.fieldHand =
    p.messageQCnt - (p.box q).due - Mail.due p.authHand - Mail.due p.fieldHand
  own : (t.box q).sendMsgCnt - t.duePlayer q = (p.box q).sendMsgCnt - p.duePlayer q
  once : ∀ m, (if m < (t.box q).received then 1 else 0) + p.copies q m =
    t.copies q m + if m < (p.box q).received then 1 else 0

/-- The sum changes where the box changes. -/
theorem sum_due_of_box {n : ℕ} (hq : q < n) (hbox : ∀ q', q' ≠ q → t.box q' = p.box q') :
    ∑ q' ∈ Finset.range n, (t.box q').due - (t.box q).due =
      ∑ q' ∈ Finset.range n, (p.box q').due - (p.box q).due := by
  have hmem : q ∈ Finset.range n := Finset.mem_range.mpr hq
  rw [← Finset.sum_erase_eq_sub hmem, ← Finset.sum_erase_eq_sub hmem]
  apply Finset.sum_congr rfl
  intro q' hq'
  rw [hbox q' (Finset.ne_of_mem_erase hq')]

theorem Counted.of_local (h : Counted p) (hl : Local p t q) (hq : q < p.server.nextSeq) :
    Counted t where
  once q' m := by
    by_cases hqq : q' = q
    · subst hqq
      have := hl.once m
      have := h.once q' m
      omega
    · have h1 := h.once q' m
      have h2 := hl.otherHolds q' m hqq
      simp only [State.copies, hl.box q' hqq] at h1 ⊢
      omega
  total := by
    have h1 := h.total
    have h2 := sum_due_of_box hq hl.box
    have h3 := hl.total
    simp only [State.due, hl.server] at h1 ⊢
    omega
  own q' := by
    by_cases hqq : q' = q
    · subst hqq
      have := hl.own
      have := h.own q'
      omega
    · have h1 := h.own q'
      have h2 := hl.other q' hqq
      simp only [State.duePlayer, hl.box q' hqq] at h1 ⊢
      omega
  authHand hd hhd := by
    rw [hl.server]
    rcases hl.authHand hd hhd with rfl | ⟨hd', hhd', hq'⟩
    · exact hl.alive
    · exact hq' ▸ h.authHand hd' hhd'
  fieldHand hd hhd := by
    rw [hl.server]
    rcases hl.fieldHand hd hhd with rfl | ⟨hd', hhd', hq'⟩
    · exact hl.alive
    · exact hq' ▸ h.fieldHand hd' hhd'
  recv q' hr := by
    rw [hl.server]
    by_cases hqq : q' = q
    · exact hqq ▸ hl.alive
    · rw [hl.box q' hqq] at hr
      exact h.recv q' hr

/-- A step of the threads: a `Player` goes only when nothing of it is in use. -/
theorem Counted.of_server (h : Counted p) {s : Server.State} (hn : p.server.nextSeq ≤ s.nextSeq)
    (hfresh : ∀ q, p.server.nextSeq ≤ q → (p.box q).due = 0)
    (hheap : ∀ q, p.server.heap q ≠ none → s.heap q ≠ none ∨ (p.box q).recv = .idle ∧
      (∀ hd, p.authHand = some hd → hd.q ≠ q) ∧ ∀ hd, p.fieldHand = some hd → hd.q ≠ q) :
    Counted { p with server := s } where
  once := h.once
  total := by
    have hsum : ∑ q ∈ Finset.range p.server.nextSeq, (p.box q).due = ∑ q ∈ Finset.range s.nextSeq,
        (p.box q).due := by
      apply Finset.sum_subset (Finset.range_mono hn)
      intro q _ hq
      exact hfresh q (by simpa using hq)
    rw [State.due, ← hsum]
    exact h.total
  own := h.own
  authHand hd hhd := by
    rcases hheap hd.q (h.authHand hd hhd) with hne | ⟨-, hno, -⟩
    · exact hne
    · exact absurd rfl (hno hd hhd)
  fieldHand hd hhd := by
    rcases hheap hd.q (h.fieldHand hd hhd) with hne | ⟨-, -, hno⟩
    · exact hne
    · exact absurd rfl (hno hd hhd)
  recv q hr := by
    rcases hheap q (h.recv q hr) with hne | ⟨hidle, -⟩
    · exact hne
    · exact absurd hidle hr

/-- The part of a `Box` that is counted. -/
def Box.tally (b : Box) : List ℕ × ℕ × List ℕ × ℤ × RecvPc :=
  (b.recvQ, b.received, b.deleted, b.sendMsgCnt, b.recv)

/-- Steps that change nothing that is counted. -/
theorem Counted.of_tally (h : Counted p)
    (hs : t.server = p.server) (hcnt : t.messageQCnt = p.messageQCnt) (ha : t.authHand = p.authHand)
    (hf : t.fieldHand = p.fieldHand) (hb : ∀ q, (t.box q).tally = (p.box q).tally) : Counted t := by
  simp only [Box.tally, Prod.mk.injEq] at hb
  have hdue : ∀ q, (t.box q).due = (p.box q).due := by
    intro q
    rw [Box.due, Box.due, (hb q).1, (hb q).2.2.2.2]
  constructor
  · intro q m
    rw [State.copies, (hb q).1, (hb q).2.1, (hb q).2.2.1, ha, hf]
    exact h.once q m
  · rw [State.due, hs, ha, hf, Finset.sum_congr rfl fun q _ => hdue q, hcnt]
    exact h.total
  · intro q
    rw [State.duePlayer, Box.duePlayer, (hb q).1, (hb q).2.2.2.1, (hb q).2.2.2.2, ha, hf]
    exact h.own q
  · rw [ha, hs]
    exact h.authHand
  · rw [hf, hs]
    exact h.fieldHand
  · intro q
    rw [(hb q).2.2.2.2, hs]
    exact h.recv q

theorem tally_setBox {b : Box} (hb : b.tally = (p.box q).tally) (q' : ℕ) :
    ((p.setBox q b).box q').tally = (p.box q').tally := box_setBox_eq Box.tally hb q'

/-- A step of `onRecv`. -/
theorem local_setBox (hq : p.server.heap q ≠ none) (b : Box) (n : ℤ)
    (htotal : n - b.due = p.messageQCnt - (p.box q).due)
    (hown : b.sendMsgCnt - b.duePlayer = (p.box q).sendMsgCnt - (p.box q).duePlayer)
    (honce : ∀ m,
      (if m < b.received then 1 else 0) + (p.box q).deleted.count m + (p.box q).recvQ.count m =
        b.deleted.count m + b.recvQ.count m + if m < (p.box q).received then 1 else 0) :
    Local p { p.setBox q b with messageQCnt := n } q where
  server := rfl
  alive := hq
  box q' hne := by simp [hne]
  other _ _ := rfl
  otherHolds _ _ _ := rfl
  authHand h hh := .inr ⟨h, hh, rfl⟩
  fieldHand h hh := .inr ⟨h, hh, rfl⟩
  total := by
    simp only [State.setBox_box, if_true, State.setBox_authHand, State.setBox_fieldHand]
    omega
  own := by
    simp only [State.duePlayer, State.setBox_box, if_true, State.setBox_authHand,
      State.setBox_fieldHand]
    omega
  once m := by
    have := honce m
    simp only [State.copies, State.setBox_box, if_true, State.setBox_authHand,
      State.setBox_fieldHand]
    omega

theorem local_enqueue (hq : p.server.heap q ≠ none) (hr : (p.box q).recv = .idle) :
    Local p (p.setBox q { p.box q with
      recvQ := (p.box q).recvQ ++ [(p.box q).received], received := (p.box q).received + 1, recv :=
  .count }) q := by
  refine local_setBox hq _ p.messageQCnt ?_ ?_ fun m => ?_
  · simp [Box.due, hr]
  · simp [Box.duePlayer, hr]
  · rw [List.count_append, List.count_singleton']
    dsimp only
    split_ifs
    all_goals omega

theorem local_count (hq : p.server.heap q ≠ none) (hr : (p.box q).recv = .count) :
    Local p { p.setBox q { p.box q with recv := .countPlayer } with
      messageQCnt := p.messageQCnt + 1 } q := by
  refine local_setBox hq _ _ ?_ ?_ fun m => ?_
  · simp [Box.due, hr]
    omega
  · simp [Box.duePlayer, hr]
  · simp only
    omega

theorem local_countPlayer (hq : p.server.heap q ≠ none) (hr : (p.box q).recv = .countPlayer) :
    Local p
      (p.setBox q { p.box q with sendMsgCnt := (p.box q).sendMsgCnt + 1, recv := .idle }) q := by
  refine local_setBox hq _ p.messageQCnt ?_ ?_ fun m => ?_
  · simp [Box.due, hr]
  · simp [Box.duePlayer, hr]
    omega
  · simp only
    omega

theorem duePlayer_of_ne {h : Hand} (hne : q ≠ h.q) : Mail.duePlayer q (some h) = 0 := by
  obtain ⟨q', m, pc⟩ := h
  cases pc <;> simp [Mail.duePlayer, hne.symm]

theorem holds_of_ne {h : Hand} {m : ℕ} (hne : q ≠ h.q) : holds q m (some h) = 0 :=
  if_neg fun hc => hne hc.1.symm

@[simp] theorem due_none : Mail.due none = 0 := rfl

@[simp] theorem duePlayer_none : Mail.duePlayer q none = 0 := rfl

@[simp] theorem holds_none {m : ℕ} : holds q m none = 0 := rfl

theorem local_takeAuth {msg : ℕ} {recvQ : List ℕ} {pc : HandPc} (hq : p.server.heap q ≠ none)
    (hhand : p.authHand = none) (hQ : (p.box q).recvQ = msg :: recvQ)
    (hpc : pc = .process ∨ pc = .uncount) :
    Local p (p.takeAuth q msg recvQ pc p.server) q where
  server := rfl
  alive := hq
  box q' hne := by simp [State.takeAuth, hne]
  other q' hne := by simp [State.takeAuth, hhand, duePlayer_of_ne (h := ⟨q, msg, pc⟩) hne]
  otherHolds q' m hne := by simp [State.takeAuth, hhand, holds_of_ne (h := ⟨q, msg, pc⟩) hne]
  authHand h hh := by
    cases hh
    exact .inl rfl
  fieldHand h hh := .inr ⟨h, hh, rfl⟩
  total := by
    have hone : Mail.due (some ⟨q, msg, pc⟩) = 1 := by rcases hpc with rfl | rfl <;> rfl
    simp [State.takeAuth, Box.due, hQ, hhand, hone]
    omega
  own := by
    have hone : Mail.duePlayer q (some ⟨q, msg, pc⟩) = 1 := by
      rcases hpc with rfl | rfl <;> simp [Mail.duePlayer]
    simp [State.takeAuth, State.duePlayer, Box.duePlayer, hQ, hhand, hone]
    omega
  once m := by
    simp [State.takeAuth, State.copies, holds, hQ, hhand, List.count_cons]
    omega

theorem local_takeField {msg : ℕ} {recvQ : List ℕ} (hq : p.server.heap q ≠ none)
    (hhand : p.fieldHand = none) (hQ : (p.box q).recvQ = msg :: recvQ) :
    Local p (p.takeField q msg recvQ) q where
  server := rfl
  alive := hq
  box q' hne := by simp [State.takeField, hne]
  other q' hne := by simp [State.takeField, hhand, duePlayer_of_ne (h := ⟨q, msg, .process⟩) hne]
  otherHolds q' m hne := by simp [State.takeField, hhand, holds_of_ne (h := ⟨q, msg, .process⟩) hne]
  authHand h hh := .inr ⟨h, hh, rfl⟩
  fieldHand h hh := by
    cases hh
    exact .inl rfl
  total := by
    simp [State.takeField, Box.due, hQ, hhand, Mail.due]
    omega
  own := by
    simp [State.takeField, State.duePlayer, Box.duePlayer, hQ, hhand, Mail.duePlayer]
    omega
  once m := by
    simp [State.takeField, State.copies, holds, hQ, hhand, List.count_cons]
    omega

/-- What follows the handler takes from the counters what the message in hand counts in them. -/
structure Uncounts (p : State) (h : Hand) (r : State × Option Hand) : Prop where
  server : r.1.server = p.server
  authHand : r.1.authHand = p.authHand
  fieldHand : r.1.fieldHand = p.fieldHand
  box : ∀ q, q ≠ h.q → r.1.box q = p.box q
  queue : (r.1.box h.q).due = (p.box h.q).due ∧ (r.1.box h.q).duePlayer = (p.box h.q).duePlayer ∧
    (r.1.box h.q).received = (p.box h.q).received ∧ (r.1.box h.q).recvQ = (p.box h.q).recvQ
  total : r.1.messageQCnt - Mail.due r.2 = p.messageQCnt - Mail.due (some h)
  own : (r.1.box h.q).sendMsgCnt - Mail.duePlayer h.q r.2 =
    (p.box h.q).sendMsgCnt - Mail.duePlayer h.q (some h)
  once : ∀ m, (r.1.box h.q).deleted.count m + holds h.q m r.2 =
    (p.box h.q).deleted.count m + holds h.q m (some h)
  rest : ∀ h', r.2 = some h' → h'.q = h.q

theorem uncounts {h : Hand} {r : State × Option Hand} (hq : p.server.heap h.q ≠ none)
    (he : finish p h = some r) :
    Uncounts p h r := by
  obtain ⟨q, msg, pc⟩ := h
  obtain ⟨player, hp⟩ := Option.ne_none_iff_exists'.mp hq
  cases pc with
  | process => cases he
  | uncount =>
    cases he
    exact ⟨rfl, rfl, rfl, fun _ _ => rfl, ⟨rfl, rfl, rfl, rfl⟩, by simp [Mail.due],
      by simp [Mail.duePlayer], fun m => rfl, by rintro _ ⟨⟩; rfl⟩
  | uncountPlayer =>
    simp only [finish, State.read, hp] at he
    cases he
    refine ⟨rfl, rfl, rfl, fun q' hne => by simp [hne], ?_, ?_, ?_, fun m => by simp [holds],
      by rintro _ ⟨⟩; rfl⟩
    · simp [Box.due, Box.duePlayer]
    · simp [Mail.due]
    · simp [Mail.duePlayer]
  | delete =>
    cases he
    refine ⟨rfl, rfl, rfl, fun q' hne => by simp [hne], ?_, ?_, ?_, fun m => ?_, by rintro _ ⟨⟩⟩
    · simp [Box.due, Box.duePlayer]
    · simp [Mail.due]
    · simp [Mail.duePlayer]
    · simp [holds, List.count_singleton']

theorem holds_rest {h : Hand} {o : Option Hand} (hr : ∀ h', o = some h' → h'.q = h.q)
    (hne : q ≠ h.q) :
    Mail.duePlayer q o = 0 ∧ ∀ m, holds q m o = 0 := by
  cases o with
  | none => exact ⟨rfl, fun _ => rfl⟩
  | some h' =>
    rw [← hr h' rfl] at hne
    exact ⟨duePlayer_of_ne hne, fun _ => holds_of_ne hne⟩

theorem local_finishAuth {h : Hand} {r : State × Option Hand}
    (hq : p.server.heap h.q ≠ none) (hhand : p.authHand = some h) (he : finish p h = some r) :
    Local p { r.1 with authHand := r.2 } h.q := by
  have hu := uncounts hq he
  obtain ⟨hd1, hd2, hd3, hd4⟩ := hu.queue
  refine ⟨hu.server, hq, hu.box, fun q' hne => ?_, fun q' m hne => ?_, fun h' hh =>
    .inl (hu.rest h' hh), fun h' hh => .inr ⟨h', hu.fieldHand ▸ hh, rfl⟩, ?_, ?_, fun m => ?_⟩
  · simp only [hhand, hu.fieldHand, (holds_rest hu.rest hne).1, duePlayer_of_ne hne]
  · simp only [hhand, hu.fieldHand, (holds_rest hu.rest hne).2, holds_of_ne hne]
  · have := hu.total
    simp only [hhand, hu.fieldHand, hd1]
    omega
  · have := hu.own
    simp only [State.duePlayer, hhand, hu.fieldHand, hd2]
    omega
  · have := hu.once m
    simp only [State.copies, hhand, hu.fieldHand, hd3, hd4]
    omega

theorem local_finishField {h : Hand} {r : State × Option Hand} (hq : p.server.heap h.q ≠ none)
    (hhand : p.fieldHand = some h) (he : finish p h = some r) :
    Local p { r.1 with fieldHand := r.2 } h.q := by
  have hu := uncounts hq he
  obtain ⟨hd1, hd2, hd3, hd4⟩ := hu.queue
  refine ⟨hu.server, hq, hu.box, fun q' hne => ?_, fun q' m hne => ?_,
    fun h' hh => .inr ⟨h', hu.authHand ▸ hh, rfl⟩, fun h' hh => .inl (hu.rest h' hh), ?_, ?_,
      fun m => ?_⟩
  · simp only [hhand, hu.authHand, (holds_rest hu.rest hne).1, duePlayer_of_ne hne]
  · simp only [hhand, hu.authHand, (holds_rest hu.rest hne).2, holds_of_ne hne]
  · have := hu.total
    simp only [hhand, hu.authHand, hd1]
    omega
  · have := hu.own
    simp only [State.duePlayer, hhand, hu.authHand, hd2]
    omega
  · have := hu.once m
    simp only [State.copies, hhand, hu.authHand, hd3, hd4]
    omega

/-- The handler is done. -/
theorem local_handledAuth {h : Hand} (hq : p.server.heap h.q ≠ none) (hhand : p.authHand = some h)
    (hpc : h.pc = .process) :
    Local p { p with authHand := some { h with pc := .uncount } } h.q := by
  obtain ⟨q, msg, pc⟩ := h
  subst hpc
  refine ⟨rfl, hq, fun _ _ => rfl, fun q' _ => ?_, fun q' m _ => ?_, fun h' hh => ?_,
    fun h' hh => .inr ⟨h', hh, rfl⟩, ?_, ?_, fun m => ?_⟩
  · rw [hhand]
    rfl
  · rw [hhand]
    rfl
  · cases hh
    exact .inl rfl
  · simp [hhand, Mail.due]
  · simp [hhand, State.duePlayer, Mail.duePlayer]
  · simp [hhand, State.copies, holds, Nat.add_comm]

theorem local_handledField {h : Hand} (hq : p.server.heap h.q ≠ none) (hhand : p.fieldHand = some h)
    (hpc : h.pc = .process) :
    Local p { p with fieldHand := some { h with pc := .uncount } } h.q := by
  obtain ⟨q, msg, pc⟩ := h
  subst hpc
  refine ⟨rfl, hq, fun _ _ => rfl, fun q' _ => ?_, fun q' m _ => ?_,
    fun h' hh => .inr ⟨h', hh, rfl⟩, fun h' hh => ?_, ?_, ?_, fun m => ?_⟩
  · rw [hhand]
    rfl
  · rw [hhand]
    rfl
  · cases hh
    exact .inl rfl
  · simp [hhand, Mail.due]
  · simp [hhand, State.duePlayer, Mail.duePlayer]
  · simp [hhand, State.copies, holds, Nat.add_comm]

/-! ### Every step -/

theorem Inv.lt_nextSeq (hi : Inv p) (hq : p.server.heap q ≠ none) : q < p.server.nextSeq := by
  obtain ⟨pl, hpl⟩ := Option.ne_none_iff_exists'.mp hq
  exact hi.life.fresh q pl hpl

/-- A session that does not exist counts nothing. -/
theorem Counted.due_fresh (h : Counted p) (hi : Inv p) (q : ℕ) (hq : p.server.nextSeq ≤ q) :
    (p.box q).due = 0 := by
  have hidle : (p.box q).recv = .idle := by
    by_contra hr
    have := hi.lt_nextSeq (h.recv q hr)
    omega
  have hnil : (p.box q).recvQ = [] := recvQ_of_mail (hi.fresh q hq)
  simp [Box.due, hidle, hnil]

theorem Counted.of_stays (h : Counted p) (hi : Inv p) {s : Server.State}
    (hn : p.server.nextSeq ≤ s.nextSeq) (hs : ∀ q, Server.Stays p.server s q) :
    Counted { p with server := s } :=
  h.of_server hn (h.due_fresh hi) fun q hq => .inl fun hnone => hq ((hs q).forth hnone)

/-- The server stays in the steps of one session. -/
theorem Counted.of_local_stays (h : Counted p) (hi : Inv p) (hl : Local p t q) {s : Server.State}
    (hn : p.server.nextSeq ≤ s.nextSeq) (hs : ∀ q, p.server.heap q ≠ none → s.heap q ≠ none) :
    Counted { t with server := s } := by
  refine (h.of_local hl (hi.lt_nextSeq hl.alive)).of_server (hl.server ▸ hn) ?_ fun q hq =>
    .inl (hs q (hl.server ▸ hq))
  intro q' hq'
  rw [hl.server] at hq'
  have hne : q' ≠ q := by
    rintro rfl
    have := hi.lt_nextSeq hl.alive
    omega
  rw [hl.box q' hne]
  exact h.due_fresh hi q' hq'

theorem counted_did (h : Counted p) (hi : Inv p) (hf : p.server.fault = false) (hg : Drained p l)
    (hd : Did cap p l t) : Counted t := by
  cases hd with
  | @onAccept q server he =>
    obtain ⟨hle, hn, -, -, hother⟩ := Server.onAccept_heap he
    have ht : Counted { p with server } := by
      refine h.of_server (hle.trans (by omega)) (h.due_fresh hi) fun q' hq' => .inl ?_
      rwa [hother q' (by have := hi.lt_nextSeq hq'; omega)]
    exact ht.of_tally rfl rfl rfl rfl (tally_setBox (p := p) rfl)
  | onRelease _ he =>
    have ht := h.of_stays hi (Server.onRelease_frame he).1.ge fun _ => Server.stays_onRelease he
    exact ht.of_tally rfl rfl rfl rfl (tally_setBox (p := p) (by rfl))
  | enqueue hr hq => exact h.of_local (local_enqueue hq hr) (hi.lt_nextSeq hq)
  | @count q hr =>
    have hq := h.recv q (by simp [hr])
    exact h.of_local (local_count hq hr) (hi.lt_nextSeq hq)
  | countPlayer hr hq => exact h.of_local (local_countPlayer hq hr) (hi.lt_nextSeq hq)
  | auth hhand _ hfree he =>
    exact h.of_stays hi (Server.authStep_frame he).1.ge fun q =>
      Server.stays_authStep (hi.handling.not_promote hf hhand q) (hfree q) he
  | @takeAuth a server q msg todo recvQ pl hhand hauth hpl hn _ hQ hmsg he =>
    have hl : Local p (p.takeAuth q msg recvQ (if a.msg = some none then .uncount else .process)
        p.server) q :=
      local_takeAuth (by simp [hpl]) hhand hQ (by split_ifs <;> simp)
    refine h.of_local_stays hi hl (Server.authStep_frame he).1.ge fun q' hq' hnone => hq' ?_
    exact (Server.stays_authStep (by simp [hauth]) (by simp [hauth]) he).forth hnone
  | @login a server hd hhand hpc he =>
    obtain ⟨-, -, accountNo, todo, hauth⟩ := hi.handling.hand hd hhand hpc
    obtain ⟨hother, hself⟩ := Server.promote_heap hauth he
    have hl := local_handledAuth (h.authHand hd hhand) hhand hpc
    have ht := h.of_local_stays hi hl (Server.authStep_frame he).1.ge fun q hq => by
      by_cases hqq : q = hd.q
      · subst hqq
        rcases hself with hself | ⟨-, pl', -, hpl', -⟩
        · rwa [hself]
        · simp [hpl']
      · rwa [hother q hqq]
    refine ht.of_tally (login_server hd server) ?_ (login_authHand hd server) ?_ fun q => ?_
    all_goals
      unfold State.login
      dsimp only
      split_ifs
    all_goals first
      | rfl
      | exact box_setBox_eq Box.tally (by rfl) q
  | @drain _ _ _ _ _ _ pl _ hauth hpl hc =>
    have hcut : pl.connect = false :=
      (hi.life.cut _ (by rw [hauth]; exact List.mem_cons_self)).2 _ hpl
    rw [hc] at hcut
    cases hcut
  | @free a server q ds ls hhand hauth he =>
    obtain ⟨hnil, hidle, hfield⟩ := hg q ds ls hauth
    obtain ⟨-, hother⟩ := Server.free_heap hauth he
    have ht : Counted { p with server } := by
      refine h.of_server (Server.authStep_frame he).1.ge (h.due_fresh hi) fun q' hq' => ?_
      by_cases hqq : q' = q
      · subst hqq
        refine .inr ⟨hidle, fun hd hhd => ?_, hfield⟩
        rw [hhand] at hhd
        cases hhd
      · exact .inl (by rwa [hother q' hqq])
    exact ht.of_tally rfl rfl rfl rfl (tally_setBox (p := p) (by simp [Box.tally, hnil]))
  | finishAuth hhand he =>
    have hq := h.authHand _ hhand
    exact h.of_local (local_finishAuth hq hhand he) (hi.lt_nextSeq hq)
  | field he => exact h.of_stays hi (Server.fieldStep_frame he).1.ge fun q =>
      Server.stays_fieldStep he
  | processed hhand hpc =>
    have hq := h.fieldHand _ hhand
    exact h.of_local (local_handledField hq hhand hpc) (hi.lt_nextSeq hq)
  | finishField hhand he =>
    have hq := h.fieldHand _ hhand
    exact h.of_local (local_finishField hq hhand he) (hi.lt_nextSeq hq)
  | takeField hhand _ hq hQ => exact h.of_local (local_takeField hq hhand hQ) (hi.lt_nextSeq hq)
  | db he =>
      exact h.of_stays hi (Server.unmoved_dbStep he).nextSeq.ge (Server.unmoved_dbStep he).stays
  | stop => exact h.of_stays hi le_rfl (unmoved_stop _).stays
  | seen => exact h
  | fault => exact h.of_stays hi le_rfl (unmoved_fault _).stays

theorem counted_start : Counted start where
  once q m := rfl
  total := rfl
  own q := rfl
  authHand h hh := by cases hh
  fieldHand h hh := by cases hh
  recv q hr := absurd rfl hr

theorem counted_invariant (cap : ℕ) :
    ((mail cap).restrict Drained).Invariant fun p => Inv p ∧ Counted p where
  init hi := by
    obtain rfl : _ = start := hi
    exact ⟨inv_start, counted_start⟩
  step l h he := by
    obtain ⟨hg, he⟩ := System.restrict_next.mp he
    exact ⟨inv_did h.1 (fault_next he) (did_next he),
      counted_did h.2 h.1 (fault_next he) hg (did_next he)⟩

end

/-! ### The balance -/

/-- No `onRecv` is in progress, and no thread has a message in hand. -/
structure Quiet (p : State) : Prop where
  recv : ∀ q, (p.box q).recv = .idle
  authHand : p.authHand = none
  fieldHand : p.fieldHand = none

/-- Every message a session has sent is in one place, those of a deleted `Player` have been deleted
once, and between two messages the counters are the numbers of the messages in the queues. -/
structure Balanced (p : State) : Prop where
  once : ∀ q m, p.copies q m = if m < (p.box q).received then 1 else 0
  freed : ∀ q, p.server.heap q = none → ∀ m < (p.box q).received, (p.box q).deleted.count m = 1
  total : Quiet p → ∃ players : Finset ℕ, (∀ q, q ∈ players ↔ p.server.heap q ≠ none) ∧
    p.messageQCnt = ∑ q ∈ players, ((p.box q).recvQ.length : ℤ)
  own : Quiet p → ∀ q, (p.box q).sendMsgCnt = (p.box q).recvQ.length

section

variable {cap : ℕ} {p : State}

/-- Nothing of a `Player` that does not exist is in hand or in a queue. -/
theorem Counted.freed (h : Counted p) (hi : Inv p) {q : ℕ} (hq : p.server.heap q = none) {m : ℕ}
    (hm : m < (p.box q).received) : (p.box q).deleted.count m = 1 := by
  have hnot : ∀ o : Option Hand, (∀ hd, o = some hd → p.server.heap hd.q ≠ none) →
      holds q m o = 0 := by
    intro o ho
    cases o with
    | none => rfl
    | some hd => exact holds_of_ne fun hqq => ho hd rfl (hqq ▸ hq)
  have h1 := h.once q m
  rw [State.copies, hnot _ h.authHand, hnot _ h.fieldHand, (hi.inOrder q).gone hq, if_pos hm] at h1
  simpa using h1

theorem Counted.total_quiet (h : Counted p) (hi : Inv p) (hQ : Quiet p) :
    ∃ players : Finset ℕ, (∀ q, q ∈ players ↔ p.server.heap q ≠ none) ∧
      p.messageQCnt = ∑ q ∈ players, ((p.box q).recvQ.length : ℤ) := by
  refine ⟨{q ∈ Finset.range p.server.nextSeq | p.server.heap q ≠ none}, fun q => ?_, ?_⟩
  · rw [Finset.mem_filter, Finset.mem_range]
    exact ⟨fun hq => hq.2, fun hq => ⟨hi.lt_nextSeq hq, hq⟩⟩
  · calc p.messageQCnt = ∑ q ∈ Finset.range p.server.nextSeq, (p.box q).due := by
          rw [h.total, State.due, hQ.authHand, hQ.fieldHand, due_none, add_zero, add_zero]
      _ = ∑ q ∈ Finset.range p.server.nextSeq, ((p.box q).recvQ.length : ℤ) :=
          Finset.sum_congr rfl fun q _ => by simp [Box.due, hQ.recv q]
      _ = _ := by
          symm
          apply Finset.sum_subset (Finset.filter_subset _ _)
          intro q hq hno
          have hnone : p.server.heap q = none := by
            by_contra hne
            exact hno (Finset.mem_filter.mpr ⟨hq, hne⟩)
          simp [(hi.inOrder q).gone hnone]

theorem balanced (h : ((mail cap).restrict Drained).Reachable p) : Balanced p := by
  obtain ⟨hi, hc⟩ := (counted_invariant cap).reachable h
  refine ⟨hc.once, fun q hq m hm => hc.freed hi hq hm, fun hQ => hc.total_quiet hi hQ,
    fun hQ q => ?_⟩
  rw [hc.own q, State.duePlayer, Box.duePlayer, hQ.recv q, hQ.authHand, hQ.fieldHand]
  simp

end

/-- A test for `Drained`. -/
def drained (p : State) : Step → Bool
  | .auth _ =>
    match p.server.auth with
    | .free q _ _ => (p.box q).recvQ = [] && (p.box q).recv = .idle && p.fieldHand.all (·.q ≠ q)
    | _ => true
  | .onRecv q => (p.server.heap q).isSome
  | _ => true

theorem drained_sound (p : State) (l : Step) (h : drained p l = true) : Drained p l := by
  cases l with
  | auth a =>
    intro q ds ls hauth
    simp only [drained, hauth, Bool.and_eq_true, decide_eq_true_eq, Option.all_eq_true] at h
    exact ⟨h.1.1, h.1.2, h.2⟩
  | onRecv q => exact Option.isSome_iff_ne_none.mp h
  | _ => trivial

/-- Session 0 sends a message that `authThread` takes, its connection ends, and its `Player` is
deleted. -/
def servedRun : List Step :=
  .onAccept 0 :: .replicate 3 (.onRecv 0) ++ authSteps 1 [0] none ++ authSteps 1 [] (some none) ++
    [.onRelease 0] ++ authSteps 12 [0] none

theorem balanced_servedRun :
    ∃ p, Balanced p ∧ p.server.heap 0 = none ∧ (p.box 0).deleted = [0] ∧ p.messageQCnt = 0 := by
  have hrun : ((mail DISCONNECT_AND_LEAVE_CAP).execIf drained start servedRun).any (fun p =>
      p.server.heap 0 = none ∧ (p.box 0).deleted = [0] ∧ p.messageQCnt = 0) = true := by decide
  obtain ⟨p, hp, hall⟩ := Option.any_eq_true _ _ |>.mp hrun
  exact ⟨p, balanced (System.Reachable.execIf drained_sound servedRun (.start rfl) hp),
    of_decide_eq_true hall⟩

/-- A message arrives behind the last look of `authThread` at the queue, and then the connection
ends. -/
def lostRun : List Step :=
  .onAccept 0 :: authSteps 1 [0] none ++ authSteps 1 [] none ++ .replicate 3 (.onRecv 0) ++
    [.onRelease 0] ++ authSteps 9 [0] none

/-- The message is never deleted. -/
theorem lost_messages : ¬ ∀ p, (mail DISCONNECT_AND_LEAVE_CAP).Reachable p → Balanced p := by
  intro hall
  have hrun : ((mail DISCONNECT_AND_LEAVE_CAP).exec start lostRun).any (fun p =>
      p.server.heap 0 = none ∧ (p.box 0).received = 1 ∧ (p.box 0).deleted = [] ∧
        p.messageQCnt = 1) = true := by decide
  obtain ⟨p, hp, ht⟩ := Option.any_eq_true _ _ |>.mp hrun
  obtain ⟨hnone, hone, hdel, -⟩ := of_decide_eq_true ht
  have hfreed := (hall p (System.Reachable.exec lostRun (.start rfl) hp)).freed 0 hnone 0 (by omega)
  rw [hdel] at hfreed
  cases hfreed

end Mail
end MyMMO
