/-
# The size of a send batch

`registerSend` compares `mSenqQSize` with `CONFIG_SEND_MESSAGE_MAXCOUNT` and reads it again to take
it. Between the two reads any thread may queue a message, so the second may be more than `mSendMsgs`
has room for; and the counter is a `short`, so 32768 queued messages make it negative. A batch is
sound in every run in which neither happens, and in no other (`batch_sound_iff`).

A run with two reads is one with one read, of which the first is no step (`next_once`). `EnQueueMsg`
and `DeQueueMsgOrNull` change the queue and count under one lock, in one step.
-/
import MyMMO.SendPath

namespace MyMMO
namespace SendPath

/-- A batch in the making has at least no message and at most as many as there is room for and as
are queued, and nobody comes to the `RT_ASSERT`s. -/
structure Sound (s : State) : Prop where
  size_eq : s.side.senqQSize = s.side.sendQ.length
  msgCnt : 0 ≤ s.side.msgCnt ∧ s.side.msgCnt ≤ SEND_MESSAGE_MAXCOUNT
  batch : ∀ msgCnt cnt, SendPc.deQueueMsg msgCnt cnt ∈ s.threads →
    0 ≤ msgCnt ∧ msgCnt ≤ SEND_MESSAGE_MAXCOUNT ∧ (cnt : ℤ) ≤ msgCnt ∧
      msgCnt - cnt ≤ s.side.sendQ.length
  not_failed : SendPc.failed ∉ s.threads

/-- The step leaves fewer than 32768 messages queued, and a second read finds no more than there is
room for. -/
def InTime (s : State) (l : Step) : Prop :=
  Bounded s l ∧ ∀ i io, l = .run i io → s.threads[i]? = some (.rereadSize false) →
    s.side.senqQSize ≤ SEND_MESSAGE_MAXCOUNT

/-! ### Two reads as one -/

/-- Who has made the first read has made none. -/
def once : SendPc → SendPc
  | .rereadSize again => .readSize again
  | pc => pc

def State.once (s : State) : State := { s with threads := s.threads.map SendPath.once }

theorem once_decide (side : SendSide) (again : Bool) (n : ℤ) :
    once (side.decide again n).2.1 = (side.decide again n).2.1 := by
  unfold SendSide.decide
  split_ifs <;> rfl

/-- In the second pass only whether there is a message counts. -/
theorem decide_again (side : SendSide) {n m : ℤ} (hn : n ≠ 0) (hm : m ≠ 0) :
    side.decide true n = side.decide true m := by
  unfold SendSide.decide
  rw [if_pos rfl, if_pos rfl, if_pos hn, if_pos hm]

section

variable {s t : State} {live : Bool} {sessionID : SeqAndIdx} {io : IoResult} {side side' : SendSide}
    {pc pc' : SendPc}
  {e : SendEffect}

/-- The first read changes nothing, and the second does what one read does. -/
theorem sendStep_once (h : sendStep false live sessionID io side pc = some (side', pc', e))
    (hsize : pc = .rereadSize false → side.senqQSize ≤ SEND_MESSAGE_MAXCOUNT) :
    (side' = side ∧ once pc' = once pc ∧ e = .none) ∨
      sendStep true live sessionID io side (once pc) = some (side', once pc', e) := by
  cases pc with
  | readSize again =>
    by_cases hmany : SEND_MESSAGE_MAXCOUNT < side.senqQSize
    · right
      simp only [sendStep, if_pos hmany, Option.some.injEq] at h
      have honce := once_decide side again SEND_MESSAGE_MAXCOUNT
      rw [h] at honce
      show sendStep true live sessionID io side (.readSize again) = _
      rw [honce]
      simp only [sendStep, if_pos hmany, h]
    · left
      simp only [sendStep, if_neg hmany, Bool.false_eq_true, if_false, Option.some.injEq,
        Prod.mk.injEq] at h
      obtain ⟨rfl, rfl, rfl⟩ := h
      exact ⟨rfl, rfl, rfl⟩
  | rereadSize again =>
    right
    simp only [sendStep, Option.some.injEq] at h
    have honce := once_decide side again side.senqQSize
    rw [h] at honce
    show sendStep true live sessionID io side (.readSize again) = _
    rw [honce, ← h]
    by_cases hmany : SEND_MESSAGE_MAXCOUNT < side.senqQSize
    · cases again with
      | false => exact absurd (hsize rfl) (not_le.mpr hmany)
      | true =>
        have hpos : (0 : ℤ) < SEND_MESSAGE_MAXCOUNT := by decide
        simp only [sendStep, if_pos hmany]
        rw [decide_again side hpos.ne' (hpos.trans hmany).ne']
    · simp only [sendStep, if_neg hmany, if_true]
  | takeFlag =>
    right
    simp only [sendStep] at h ⊢
    split_ifs at h <;> cases h <;> simp [once, *]
  | clearFlag =>
    right
    simp only [sendStep] at h ⊢
    split_ifs at h <;> cases h <;> simp [once, *]
  | retakeFlag =>
    right
    simp only [sendStep] at h ⊢
    split_ifs at h <;> cases h <;> simp [once, *]
  | testLive msgCnt =>
    right
    simp only [sendStep] at h ⊢
    split_ifs at h <;> cases h <;> simp [once, *]
  | deQueueMsg msgCnt cnt =>
    right
    have hsame : sendStep true live sessionID io side (.deQueueMsg msgCnt cnt) =
        some (side', pc', e) := h
    have honce : once pc' = pc' := by
      simp only [sendStep] at h
      by_cases hlt : (cnt : ℤ) < msgCnt
      · rw [if_pos hlt] at h
        cases hq : side.sendQ with
        | nil =>
          rw [hq] at h
          cases h
          rfl
        | cons msg q =>
          simp only [hq] at h
          split_ifs at h <;> cases h <;> rfl
      · rw [if_neg hlt] at h
        cases h
        rfl
    rw [honce]
    exact hsame
  | wsaSend =>
    right
    cases io <;> cases h <;> rfl
  | enQueueMsg msg => cases h; exact Or.inr rfl
  | countWake => cases h; exact Or.inr rfl
  | postWake => cases h; exact Or.inr rfl
  | completeSend => cases h; exact Or.inr rfl
  | countSend => cases h; exact Or.inr rfl
  | cutLive => cases h; exact Or.inr rfl
  | uncount => cases h; exact Or.inr rfl
  | done => cases h
  | failed => cases h

theorem once_effect (e : SendEffect) : (effect s e).once = effect s.once e := by
  cases e <;> rfl

theorem once_threads {i : ℕ} (h : s.threads[i]? = some pc) :
    s.once.threads[i]? = some (once pc) := by
  show (s.threads.map once)[i]? = _
  rw [List.getElem?_map, h]
  rfl

theorem once_set (s : State) (side : SendSide) (i : ℕ) (pc : SendPc) :
    { s with side, threads := s.threads.set i pc }.once = { s.once with
      side, threads := s.once.threads.set i (once pc) } := by
  unfold State.once
  rw [List.map_set]

/-- A step with two reads, seen as one with one read. -/
theorem next_once {l : Step} (hl : InTime s l) (h : next false s l = some t) :
    t.once = s.once ∨ next true s.once l = some t.once := by
  cases l with
  | sendPost i msg =>
    right
    simp only [next] at h ⊢
    split_ifs at h with hdone
    cases h
    rw [if_pos ⟨once_threads hdone.1, hdone.2⟩]
    exact congrArg some (once_set s s.side i (.enQueueMsg msg)).symm
  | complete i j =>
    right
    simp only [next] at h ⊢
    split_ifs at h with hdone
    cases h
    rw [if_pos ⟨once_threads hdone.1, hdone.2⟩]
    exact congrArg some (once_set { s with
      flying := s.flying.eraseIdx j } s.side i .completeSend).symm
  | run i io =>
    obtain ⟨pc, side, pc', e, hi, hstep, rfl⟩ := next_run h
    rcases sendStep_once hstep fun hpc => hl.2 i io rfl (hpc ▸ hi) with ⟨rfl, hsame, rfl⟩ | hstep'
    · left
      show State.once { s with side := s.side, threads := s.threads.set i pc' } = s.once
      rw [once_set, hsame]
      have hget := once_threads hi
      unfold State.once at hget ⊢
      dsimp only at hget ⊢
      obtain ⟨hlt, heq⟩ := List.getElem?_eq_some_iff.mp hget
      rw [← heq, List.set_getElem_self]
    · right
      simp only [next]
      rw [once_threads hi, once_effect, once_set]
      show ((sendStep true s.live s.sessionID io s.side (once pc)).map _) = _
      rw [hstep']
      rfl
  | disconnect =>
    right
    cases h
    rfl

theorem Bounded.once {l : Step} (h : Bounded s l) : Bounded s.once l := by
  cases l with
  | run i io =>
    intro msg hi
    have hmap : (s.threads.map SendPath.once)[i]? = some (.enQueueMsg msg) := hi
    rw [List.getElem?_map] at hmap
    obtain ⟨pc, hpc, hmsg⟩ := Option.map_eq_some_iff.mp hmap
    apply h msg
    rw [hpc]
    cases pc <;> simp_all [SendPath.once]
  | sendPost => trivial
  | complete => trivial
  | disconnect => trivial

/-! ### Sound batches -/

/-- The size of the batch in hand. -/
def PcBatch : SendPc → Prop
  | .deQueueMsg msgCnt _ => 0 ≤ msgCnt ∧ msgCnt ≤ SEND_MESSAGE_MAXCOUNT
  | _ => True

/-- The invariant of the runs whose steps are in time. -/
structure BatchInv (s : State) : Prop where
  once : Inv s.once
  msgCnt : 0 ≤ s.side.msgCnt ∧ s.side.msgCnt ≤ SEND_MESSAGE_MAXCOUNT
  threads : ∀ pc ∈ s.threads, PcBatch pc

theorem decide_batch {n : ℤ}
    (again : Bool) (hn : 0 ≤ n) (hroom : again = false → n ≤ SEND_MESSAGE_MAXCOUNT)
    (hmsgCnt : 0 ≤ side.msgCnt ∧ side.msgCnt ≤ SEND_MESSAGE_MAXCOUNT) :
    (0 ≤ (side.decide again n).1.msgCnt ∧ (side.decide again n).1.msgCnt ≤ SEND_MESSAGE_MAXCOUNT) ∧
      PcBatch (side.decide again n).2.1 := by
  unfold SendSide.decide
  cases again with
  | true =>
    rw [if_pos rfl]
    refine ⟨hmsgCnt, ?_⟩
    dsimp only
    split_ifs <;> trivial
  | false =>
    rw [if_neg Bool.false_ne_true]
    by_cases hzero : n = 0
    · rw [if_pos hzero]
      exact ⟨hmsgCnt, trivial⟩
    · rw [if_neg hzero]
      exact ⟨⟨hn, hroom rfl⟩, hn, hroom rfl⟩

/-- No step makes a batch that is too large. -/
theorem sendStep_batch (h : sendStep false live sessionID io side pc = some (side', pc', e))
    (hpc : PcBatch pc) (hsize : pc = .rereadSize false → side.senqQSize ≤ SEND_MESSAGE_MAXCOUNT)
    (hpos : 0 ≤ side.senqQSize) (hmsgCnt : 0 ≤ side.msgCnt ∧ side.msgCnt ≤ SEND_MESSAGE_MAXCOUNT) :
    (0 ≤ side'.msgCnt ∧ side'.msgCnt ≤ SEND_MESSAGE_MAXCOUNT) ∧ PcBatch pc' := by
  cases pc with
  | readSize again =>
    simp only [sendStep] at h
    by_cases hmany : SEND_MESSAGE_MAXCOUNT < side.senqQSize
    · rw [if_pos hmany, Option.some.injEq] at h
      have hdecide :=
        decide_batch again (show 0 ≤ SEND_MESSAGE_MAXCOUNT by decide) (fun _ => le_rfl) hmsgCnt
      rw [h] at hdecide
      exact hdecide
    · rw [if_neg hmany] at h
      cases h
      exact ⟨hmsgCnt, trivial⟩
  | rereadSize again =>
    simp only [sendStep, Option.some.injEq] at h
    have hdecide := decide_batch again hpos (fun hagain => hsize (by rw [hagain])) hmsgCnt
    rw [h] at hdecide
    exact hdecide
  | takeFlag =>
    simp only [sendStep] at h
    split_ifs at h <;> cases h <;> exact ⟨hmsgCnt, trivial⟩
  | clearFlag =>
    simp only [sendStep] at h
    split_ifs at h <;> cases h <;> exact ⟨hmsgCnt, trivial⟩
  | retakeFlag =>
    simp only [sendStep] at h
    split_ifs at h <;> cases h <;> exact ⟨hmsgCnt, trivial⟩
  | testLive msgCnt =>
    simp only [sendStep] at h
    split_ifs at h <;> cases h <;> exact ⟨hmsgCnt, trivial⟩
  | deQueueMsg msgCnt cnt =>
    simp only [sendStep] at h
    by_cases hlt : (cnt : ℤ) < msgCnt
    · rw [if_pos hlt] at h
      cases hq : side.sendQ with
      | nil =>
        rw [hq] at h
        cases h
        exact ⟨hmsgCnt, trivial⟩
      | cons msg q =>
        simp only [hq] at h
        split_ifs at h <;> cases h
        · exact ⟨hmsgCnt, hpc⟩
        · exact ⟨hmsgCnt, trivial⟩
    · rw [if_neg hlt] at h
      cases h
      exact ⟨hmsgCnt, trivial⟩
  | completeSend =>
    cases h
    have hroom : (0 : ℤ) ≤ SEND_MESSAGE_MAXCOUNT := by decide
    exact ⟨⟨le_rfl, hroom⟩, trivial⟩
  | wsaSend => cases io <;> cases h <;> exact ⟨hmsgCnt, trivial⟩
  | enQueueMsg msg => cases h; exact ⟨hmsgCnt, trivial⟩
  | countWake => cases h; exact ⟨hmsgCnt, trivial⟩
  | postWake => cases h; exact ⟨hmsgCnt, trivial⟩
  | countSend => cases h; exact ⟨hmsgCnt, trivial⟩
  | cutLive => cases h; exact ⟨hmsgCnt, trivial⟩
  | uncount => cases h; exact ⟨hmsgCnt, trivial⟩
  | done => cases h
  | failed => cases h

theorem effect_side (e : SendEffect) : (effect s e).side = s.side := by
  cases e <;> rfl

theorem effect_threads (e : SendEffect) : (effect s e).threads = s.threads := by
  cases e <;> rfl

theorem Initial.batchInv (h : Initial s) : BatchInv s := by
  have honce : s.threads.map SendPath.once = s.threads := by
    calc
      s.threads.map SendPath.once = s.threads.map id := List.map_congr_left fun pc hpc => by
        rw [h.threads pc hpc]; rfl
      _ = s.threads := List.map_id _
  refine ⟨?_, ?_, fun pc hpc => ?_⟩
  · unfold State.once
    rw [honce]
    exact h.inv
  · rw [h.side]
    decide
  · rw [h.threads pc hpc]
    trivial

theorem BatchInv.step (h : BatchInv s) {l : Step} (hl : InTime s l) (he : next false s l = some t) :
    BatchInv t := by
  have hinv : Inv t.once := by
    rcases next_once hl he with hsame | hstep
    · rw [hsame]
      exact h.once
    · exact inv_step h.once hl.1.once hstep
  cases l with
  | sendPost i msg =>
    simp only [next] at he
    split_ifs at he with hdone
    cases he
    exact ⟨hinv, h.msgCnt, Pool.forall_set hdone.1 h.threads (fun _ _ _ _ hc => hc) trivial⟩
  | complete i j =>
    simp only [next] at he
    split_ifs at he with hdone
    cases he
    exact ⟨hinv, h.msgCnt, Pool.forall_set hdone.1 h.threads (fun _ _ _ _ hc => hc) trivial⟩
  | run i io =>
    obtain ⟨pc, side, pc', e, hi, hstep, rfl⟩ := next_run he
    have hpos : 0 ≤ s.side.senqQSize := by
      have hsize : s.side.senqQSize = s.side.sendQ.length := h.once.size_eq
      rw [hsize]
      exact Int.natCast_nonneg _
    obtain ⟨hmsgCnt, hpc⟩ := sendStep_batch hstep (h.threads pc (List.mem_of_getElem? hi))
      (fun hread => hl.2 i io rfl (hread ▸ hi)) hpos h.msgCnt
    refine ⟨hinv, ?_, ?_⟩
    · rw [effect_side]
      exact hmsgCnt
    · rw [effect_threads]
      exact Pool.forall_set hi h.threads (fun _ _ _ _ hc => hc) hpc
  | disconnect =>
    cases he
    exact ⟨hinv, h.msgCnt, h.threads⟩

theorem BatchInv.sound (h : BatchInv s) : Sound s := by
  obtain ⟨hold, -, -, -, hpc⟩ := h.once.account
  refine ⟨h.once.size_eq, h.msgCnt, fun msgCnt cnt hmem => ?_, fun hmem => ?_⟩
  · obtain ⟨-, hcnt, hqueued⟩ := hpc _ (List.mem_map.mpr ⟨_, hmem, rfl⟩)
    obtain ⟨hlow, hhigh⟩ := h.threads _ hmem
    exact ⟨hlow, hhigh, hcnt, hqueued⟩
  · exact hpc _ (List.mem_map.mpr ⟨_, hmem, rfl⟩)

/-- A step that is not in time leaves a counter that has gone round, or a batch without room. -/
theorem BatchInv.inTime (h : BatchInv s) {l : Step} (he : next false s l = some t) (ht : Sound t) :
    InTime s l := by
  cases l with
  | run i io =>
    obtain ⟨pc, side, pc', e, hi, hstep, rfl⟩ := next_run he
    have hlt := (List.getElem?_eq_some_iff.mp hi).1
    refine ⟨fun msg hmsg => ?_, fun i' io' hrun hread => ?_⟩
    · have hsize : s.side.senqQSize = s.side.sendQ.length := h.once.size_eq
      have hsmall : s.side.sendQ.length < 32768 := h.once.small
      obtain rfl : pc = .enQueueMsg msg := Option.some.inj (hi.symm.trans hmsg)
      cases hstep
      have hcount := ht.size_eq
      rw [effect_side] at hcount
      simp only [List.length_append, List.length_singleton, hsize, toShort] at hcount
      push_cast at hcount
      omega
    · cases hrun
      obtain rfl : pc = .rereadSize false := Option.some.inj (hi.symm.trans hread)
      by_contra hmany
      simp only [sendStep, SendSide.decide, Bool.false_eq_true, if_false,
        Option.some.injEq] at hstep
      have hpos : s.side.senqQSize ≠ 0 := by
        intro hzero
        rw [hzero] at hmany
        exact hmany (by decide)
      rw [if_neg hpos] at hstep
      cases hstep
      have hbatch := (ht.batch s.side.senqQSize 0 (by
        rw [effect_threads]
        exact List.mem_of_getElem? (List.getElem?_set_self hlt))).2.1
      exact hmany hbatch
  | sendPost => exact ⟨trivial, fun _ _ hrun => by cases hrun⟩
  | complete => exact ⟨trivial, fun _ _ hrun => by cases hrun⟩
  | disconnect => exact ⟨trivial, fun _ _ hrun => by cases hrun⟩

end

theorem batchInv_invariant : ((sendPath false).restrict InTime).Invariant BatchInv :=
  System.restrict_invariant Initial.batchInv fun _ hs hl he => hs.step hl he

/-- Every batch is sound as long as all steps are in time, and the first step that is not makes one
that is not. -/
theorem batch_sound_iff {s : State} (h : ((sendPath false).restrict InTime).Reachable s) :
    Sound s ∧ ∀ l t, next false s l = some t → (Sound t ↔ InTime s l) := by
  have hinv := batchInv_invariant.reachable h
  refine ⟨hinv.sound, fun l t he => ⟨hinv.inTime he, fun hl => ?_⟩⟩
  exact (hinv.step hl he).sound

/-! ### A client that does not read -/

/-- A worker has found one message, and another thread has queued `n` more. -/
def queued (n : ℕ) : State :=
  ⟨⟨0, 1⟩, ⟨List.replicate (n + 1) (message 1), n + 1, true, [], 0⟩, true, [],
    [.rereadSize false, .done], List.replicate (n + 1) (message 1), [], false⟩

/-- A message more. -/
theorem queued_step {n : ℕ} (h : (sendPath false).Reachable (queued n)) (hn : n + 2 < 32768) :
    (sendPath false).Reachable (queued (n + 1)) := by
  have hcount : toShort ((n : ℤ) + 1 + 1) = ((n + 1 : ℕ) : ℤ) + 1 := by
    rw [toShort_eq (by omega) (by omega)]
    push_cast
    rfl
  have hend : queued (n + 1) =
      ⟨⟨0, 1⟩, ⟨List.replicate (n + 1) (message 1) ++ [message 1], toShort ((n : ℤ) + 1 + 1),
        true, [], 0⟩, true, [], [.rereadSize false, .done],
        List.replicate (n + 1) (message 1) ++ [message 1], [], false⟩ := by
    rw [hcount, ← List.replicate_succ']
    rfl
  rw [hend]
  exact h.exec [.sendPost 1 (message 1), .run 1 .accepted, .run 1 .accepted] rfl

theorem queued_reachable (n : ℕ) (hn : n + 1 < 32768) : (sendPath false).Reachable (queued n) := by
  induction n with
  | zero =>
    have hinit : (sendPath false).init twoThreads := ⟨rfl, rfl, rfl, by decide, rfl, rfl, rfl⟩
    refine System.Reachable.exec ([.sendPost 0 (message 1)] ++ List.replicate 4 (.run 0 .accepted)
      ++ [.complete 0 0] ++ List.replicate 2 (.run 0 .accepted)) (.start hinit) rfl
  | succ n ih => exact queued_step (ih (by omega)) hn

/-- The first read finds one message, the second 501. -/
theorem queued_not_sound : ¬∀ s, (sendPath false).Reachable s → Sound s := by
  intro h
  have hnext : (sendPath false).next (queued 500) (.run 0 .accepted) = some
      { queued 500 with
        side := { (queued 500).side with msgCnt := 501 }
        threads := [.deQueueMsg 501 0, .done] } := rfl
  have hsound := h _ ((queued_reachable 500 (by decide)).step _ hnext)
  exact absurd (hsound.batch 501 0 List.mem_cons_self).2.1 (by decide)

/-- The worker reads both times what it finds. -/
theorem batch_sound_iff_queued : Sound (queued 0) ∧ ∀ l t, next false (queued 0) l = some t →
    (Sound t ↔ InTime (queued 0) l) := by
  have hinit : ((sendPath false).restrict InTime).init twoThreads :=
    ⟨rfl, rfl, rfl, by decide, rfl, rfl, rfl⟩
  apply batch_sound_iff
  apply System.Reachable.execIf
    (g := fun s _ => decide (s.side.sendQ.length + 1 < 32768 ∧
      s.side.senqQSize ≤ SEND_MESSAGE_MAXCOUNT)) _
    ([.sendPost 0 (message 1)] ++ List.replicate 4 (.run 0 .accepted) ++ [.complete 0 0] ++
      List.replicate 2 (.run 0 .accepted)) (.start hinit) rfl
  intro s l hl
  obtain ⟨hsmall, hsize⟩ := of_decide_eq_true hl
  refine ⟨?_, fun _ _ _ _ => hsize⟩
  cases l <;> try trivial
  exact fun _ _ => hsmall

end SendPath
end MyMMO
