/-
# What a slot owes

While a slot is in use `mIOcnt` is the number of its references, if every
failed `WSARecv` and `WSASend` is one that `checkAndHandleIoError` has a case
for, and the count is set while the `AcceptEx` still has its reference. Then the
slot is released when the last reference is given back, and once no thread has
anything to do with it the slot, what it adds to the counters and its player have been
given back.
-/
import Mathlib.Data.Nat.Bitwise
import MyMMO.Lock

namespace MyMMO
namespace Slot

/-- The count takes the step, and loses nothing by it: a lock does not find
the bit of a released slot in the count of a used one, `registerAcceptEx` sets
the count while the `AcceptEx` has the only reference, and a call that fails, fails with an
error of `checkAndHandleIoError`. -/
def Pc.Returns (ans : Answer) (s : State) : Pc → Prop
  | .setCount => s.refs = 1
  | .lock _ _ => s.ioCnt < if s.phase = .used then 16383 else 32767
  | .countRecv | .send .countWake | .send .countSend =>
      s.ioCnt < if s.phase = .used then 65535 else 32767
  | .wsaRecv | .send .wsaSend => ans.io ≠ .otherError
  | _ => True

/-- Every step of a thread is one that loses nothing. -/
def Returned (s : State) : Step → Prop
  | .run i ans => ∀ th pc rest, s.threads[i]? = some th → th.stack = pc :: rest → pc.Returns ans s
  | _ => True

section

variable {oneRead : Bool} {ans : Answer} {s t u : State} {i : ℕ} {th : Thread} {pc : Pc}
    {new rest : List Pc}

theorem Pc.Returns.counts (h : pc.Returns ans s) : pc.Counts s := by
  cases pc with
  | setCount => exact le_of_eq h
  | lock id call =>
    have hlt : s.ioCnt < if s.phase = .used then 16383 else 32767 := h
    show s.ioCnt < if s.phase = .used then 65535 else 32767
    split_ifs at hlt ⊢ <;> omega
  | countRecv => exact h
  | send spc => cases spc <;> first | exact h | trivial
  | _ => trivial

theorem Returned.counted {l : Step} (h : Returned s l) : Counted s l := by
  cases l with
  | run i ans => exact fun th pc rest hi hst => (h th pc rest hi hst).counts
  | _ => trivial

/-! ### Frames -/

/-- What the stacks of all threads weigh. -/
def State.frames (s : State) (w : Pc → ℕ) : ℕ :=
  Pool.weigh (fun th => Pool.weigh w th.stack) s.threads

theorem frames_run {w : Pc → ℕ} (hi : s.threads[i]? = some th) (hst : th.stack = pc :: rest)
    {id : SeqAndIdx} (ht : t.threads = s.threads.set i (th.put id (new ++ rest))) :
    t.frames w + w pc = s.frames w + Pool.weigh w new := by
  have hset := Pool.weigh_set (w := fun th => Pool.weigh w th.stack) hi (th.put id (new ++ rest))
  rw [← ht] at hset
  simp only [Thread.put, hst, Pool.weigh_append, weigh_cons] at hset
  unfold State.frames
  omega

/-- A thread that had nothing to do gets a stack. -/
theorem frames_start {w : Pc → ℕ} (hi : s.threads[i]? = some th) (hst : th.stack = [])
    {stack : List Pc} {id : SeqAndIdx} (ht : t.threads = s.threads.set i ⟨stack, id⟩) :
    t.frames w = s.frames w + Pool.weigh w stack := by
  have hset := Pool.weigh_set (w := fun th => Pool.weigh w th.stack) hi ⟨stack, id⟩
  have hnil : Pool.weigh w ([] : List Pc) = 0 := rfl
  rw [← ht] at hset
  simp only [hst, hnil] at hset
  unfold State.frames
  omega

theorem frames_pos {w : Pc → ℕ} {q : Pc} (hi : s.threads[i]? = some th) (hq : q ∈ th.stack) :
    w q ≤ s.frames w := by
  obtain ⟨j, hj⟩ := List.mem_iff_getElem?.mp hq
  have hth : w q ≤ Pool.weigh w th.stack := Pool.le_weigh hj
  exact hth.trans (Pool.le_weigh (w := fun th => Pool.weigh w th.stack) hi)

/-! ### The count -/

theorem refs_run (hi : s.threads[i]? = some th) (hst : th.stack = pc :: rest) (new : List Pc) :
    ({ u with threads := s.threads.set i (th.put s.sessionID (new ++ rest)) } : State).refs +
    pc.refs +
        Pool.weigh Completion.refs s.flying =
      s.refs + Pool.weigh Pc.refs new + Pool.weigh Completion.refs u.flying := by
  have hset := Pool.weigh_set (w := Thread.refs) hi (th.put s.sessionID (new ++ rest))
  rw [refs_put, Pool.weigh_append, refs_cons hst] at hset
  unfold State.refs
  simp only
  omega

theorem incr_ioCnt (hlt : s.ioCnt < 65535) : s.incr.ioCnt = s.ioCnt + 1 :=
  Nat.mod_eq_of_lt (by omega)

theorem decr_ioCnt (hpos : s.ioCnt ≠ 0) (hlt : s.ioCnt < 65536) : s.decr.ioCnt + 1 = s.ioCnt := by
  rw [State.decr]
  simp only
  omega

theorem bit_clear {n : ℕ} (h : n < 16384) : n &&& RELEASE_IOCOUNT = 0 := by
  have hbit := Nat.testBit_lt_two_pow (show n < 2 ^ 14 from h)
  rw [show RELEASE_IOCOUNT = 2 ^ 14 from rfl, Nat.and_two_pow, hbit]
  rfl

/-- A completion is issued for a reference. -/
theorem weigh_issue {op : Op} (hop : op ≠ .release) :
    Pool.weigh Completion.refs (s.issue op).flying = Pool.weigh Completion.refs s.flying + 1 := by
  rw [State.issue, Pool.weigh_append, Pool.weigh_singleton]
  exact congrArg _ (if_neg hop)

/-- A step of the send path changes the count as it changes the references. -/
theorem send_balance {io : IoResult} {side : SendSide} {spc spc' : SendPc} {e : SendEffect}
    (he : sendStep oneRead s.live s.sessionID io s.side spc = some (side, spc', e))
    (hlost : lost spc io = 0) (hlt : e = .count → s.ioCnt < 65535) (hle : sendRefs spc ≤ s.ioCnt)
    (hcnt : s.ioCnt < 65536) :
    (effect { s with side } e).ioCnt + sendRefs spc + Pool.weigh Completion.refs s.flying =
      s.ioCnt + sendRefs spc' + Pool.weigh Completion.refs (effect { s with side } e).flying := by
  obtain ⟨heq, -⟩ := sendStep_refs he
  rw [hlost] at heq
  cases e with
  | count =>
    have hincr := incr_ioCnt (hlt rfl)
    simp only [gives, takes] at heq
    show s.incr.ioCnt + sendRefs spc + Pool.weigh Completion.refs s.flying = _
    rw [hincr]
    show _ = s.ioCnt + sendRefs spc' + Pool.weigh Completion.refs s.flying
    omega
  | uncount =>
    simp only [gives, takes] at heq
    have hdecr := decr_ioCnt (s := s) (by omega) hcnt
    show s.decr.ioCnt + sendRefs spc + Pool.weigh Completion.refs s.flying =
      s.ioCnt + sendRefs spc' + Pool.weigh Completion.refs s.decr.flying
    rw [decr_flying]
    omega
  | wake =>
    simp only [gives, takes] at heq
    show s.ioCnt + sendRefs spc + Pool.weigh Completion.refs s.flying =
      s.ioCnt + sendRefs spc' + Pool.weigh Completion.refs (s.issue .wake).flying
    rw [weigh_issue (by simp)]
    omega
  | send batch =>
    simp only [gives, takes] at heq
    show s.ioCnt + sendRefs spc + Pool.weigh Completion.refs s.flying =
      s.ioCnt + sendRefs spc' + Pool.weigh Completion.refs (s.issue .send).flying
    rw [weigh_issue (by simp)]
    omega
  | _ =>
    simp only [gives, takes] at heq
    simp only [effect]
    omega

/-- A step of a thread changes the count of a slot in use as it changes its references. -/
theorem stepPc_balance (he : stepPc oneRead ans s pc = some (u, new)) (hr : pc.Returns ans s)
    (hused : s.phase = .used) (htok : pc.tok = 0) (hrel : pc = .exchangeRelease → s.ioCnt ≠ 0)
    (hle : pc.refs ≤ s.ioCnt) (hcnt : s.ioCnt < 65536) :
    u.ioCnt + pc.refs + Pool.weigh Completion.refs s.flying =
      s.ioCnt + Pool.weigh Pc.refs new + Pool.weigh Completion.refs u.flying := by
  cases pc with
  | lock id call =>
    have hlt : s.ioCnt < 16383 := by
      have hlt : s.ioCnt < if s.phase = .used then 16383 else 32767 := hr
      rwa [if_pos hused] at hlt
    have hincr := incr_ioCnt (s := s) (by omega)
    simp only [stepPc, hincr, bit_clear (show s.ioCnt + 1 < 16384 by omega), ne_eq,
      not_true_eq_false, if_false, Option.some.injEq, Prod.mk.injEq] at he
    obtain ⟨rfl, rfl⟩ := he
    rw [hincr]
    rfl
  | compareID id call =>
    cases he
    split_ifs
    · rfl
    · cases call <;> rfl
  | send spc =>
    obtain ⟨⟨side, spc', e⟩, hs, hu⟩ := Option.map_eq_some_iff.mp he
    cases hu
    have hlost : lost spc ans.io = 0 := by
      cases spc <;> try rfl
      cases hio : ans.io
      · rfl
      · rfl
      · exact absurd hio hr
    have hlt : e = .count → s.ioCnt < 65535 := by
      intro hcount
      have hlt : s.ioCnt < if s.phase = .used then 65535 else 32767 := by
        rcases (sendStep_refs hs).2 hcount with rfl | rfl <;> exact hr
      rwa [if_pos hused] at hlt
    have hbal := send_balance hs hlost hlt hle hcnt
    have hnew : Pool.weigh Pc.refs (if spc' = .done then [] else [.send spc']) = sendRefs spc' := by
      split_ifs with hd
      · rw [hd]
        rfl
      · rfl
    rw [hnew]
    exact hbal
  | unlockOther | recvUncount =>
    simp only [stepPc, Option.some.injEq, Prod.mk.injEq] at he
    obtain ⟨rfl, rfl⟩ := he
    have hdecr := decr_ioCnt (s := s) (by rw [Pc.refs] at hle; omega) hcnt
    rw [decr_flying]
    show s.decr.ioCnt + 1 + _ = s.ioCnt + 0 + _
    omega
  | decr =>
    simp only [stepPc, Option.some.injEq, Prod.mk.injEq] at he
    obtain ⟨rfl, rfl⟩ := he
    have hdecr := decr_ioCnt (s := s) (by rw [Pc.refs] at hle; omega) hcnt
    have hnew : Pool.weigh Pc.refs (if s.decr.ioCnt = 0 then [.exchangeRelease] else []) = 0 := by
      split_ifs <;> rfl
    rw [decr_flying, hnew]
    show s.decr.ioCnt + 1 + _ = s.ioCnt + 0 + _
    omega
  | exchangeRelease =>
    simp only [stepPc, if_neg (hrel rfl)] at he
    cases he
    rfl
  | acceptCount =>
    simp only [stepPc] at he
    split_ifs at he <;> cases he
    · rw [refs_locks]
      rfl
    · rfl
  | completeRecv =>
    cases he
    rw [refs_locks]
    split_ifs <;> rfl
  | accept | registerRecv =>
    cases he
    split_ifs <;> rfl
  | countRecv =>
    simp only [stepPc, Option.some.injEq, Prod.mk.injEq] at he
    obtain ⟨rfl, rfl⟩ := he
    have hlt : s.ioCnt < if s.phase = .used then 65535 else 32767 := hr
    rw [if_pos hused] at hlt
    rw [incr_ioCnt hlt]
    rfl
  | wsaRecv =>
    simp only [stepPc] at he
    cases hio : ans.io <;> rw [hio] at he <;> cases he
    · rw [weigh_issue (by simp)]
      show s.ioCnt + 1 + _ = s.ioCnt + 0 + _
      omega
    · rfl
    · exact absurd hio hr
  | postRelease | release | releaseSession | push | testOn | drawID | setID id | acceptEx
  | setCount => cases htok
  | failed => cases he
  | _ =>
    cases he
    rfl

theorem start_refs (hi : s.threads[i]? = some th) (hst : th.stack = []) (hpc : pc.refs = 0) :
    ({ s with threads := s.threads.set i (th.put s.sessionID [pc]) } : State).refs = s.refs := by
  have hset := Pool.weigh_set (w := Thread.refs) hi (th.put s.sessionID [pc])
  rw [refs_put, Pool.weigh_singleton, hpc, refs_idle hst] at hset
  unfold State.refs
  simp only
  omega

theorem complete_refs {j : ℕ} {c : Completion} {transferred : Bool} (hi : s.threads[i]? = some th)
    (hst : th.stack = []) (hj : s.flying[j]? = some c) :
    ({ s with
      flying := s.flying.eraseIdx j
      threads := s.threads.set i ⟨c.op.handler transferred, c.sessionID⟩ } : State).refs =
        s.refs := by
  have hset := Pool.weigh_set (w := Thread.refs) hi ⟨c.op.handler transferred, c.sessionID⟩
  have herase := Pool.weigh_eraseIdx (w := Completion.refs) hj
  have hth : Thread.refs ⟨c.op.handler transferred, c.sessionID⟩ = c.refs := by
    obtain ⟨op, id⟩ := c
    cases op <;> cases transferred <;> rfl
  rw [hth, refs_idle hst] at hset
  unfold State.refs
  simp only
  omega

/-- A slot comes into use when its count is set, and stays in use while nothing is handed on. -/
theorem stepPc_used (he : stepPc oneRead ans s pc = some (u, new)) (hframe : PcInv s pc)
    (hu : u.phase = .used) :
    s.phase = .used ∧ pc.tok = 0 ∧ (pc = .exchangeRelease → s.ioCnt ≠ 0) ∨ pc = .setCount := by
  have hquiet : pc.tok = 0 → (pc = .exchangeRelease → s.ioCnt ≠ 0) →
      s.phase = .used ∧ pc.tok = 0 ∧ (pc = .exchangeRelease → s.ioCnt ≠ 0) ∨ pc = .setCount :=
    fun htok hrel => .inl ⟨(stepPc_same he htok hrel).phase.symm.trans hu, htok, hrel⟩
  have hother : ∀ {p : Phase}, s.phase = p → u.phase = s.phase → p ≠ .used → False :=
    fun hp hsame hne => hne (hp.symm.trans (hsame.symm.trans hu))
  cases pc with
  | exchangeRelease =>
    by_cases h0 : s.ioCnt = 0
    · simp only [stepPc, if_pos h0] at he
      cases he
      cases hu
    · exact hquiet rfl fun _ => h0
  | postRelease | release | drawID =>
    cases he
    first | exact (hother hframe.1 rfl (by simp)).elim | exact (hother hframe rfl (by simp)).elim
  | releaseSession =>
    simp only [stepPc] at he
    split at he <;> cases he <;> exact (hother hframe rfl (by simp)).elim
  | push =>
    cases he
    cases hu
  | testOn =>
    cases he
    exact (hother hframe rfl (by simp)).elim
  | setID id =>
    cases he
    exact (hother hframe.1 rfl (by simp)).elim
  | acceptEx =>
    simp only [stepPc] at he
    cases hio : ans.io <;> rw [hio] at he <;> cases he
    · cases hu
    · exact (hother hframe.1 rfl (by simp)).elim
    · exact (hother hframe.1 rfl (by simp)).elim
  | setCount => exact .inr rfl
  | _ => exact hquiet rfl (by simp)

/-- A reference is held for as long as a thread is inside a handler or a locked section. -/
theorem refs_inside (hheld : Held (pc :: rest)) (hin : pc.inside = true)
    (hi : s.threads[i]? = some th) (new : List Pc) :
    ({ u with threads := s.threads.set i (th.put s.sessionID (new ++ rest)) } : State).refs ≠
    0 := by
  have hrest := hheld.1 hin
  have hset := Pool.weigh_set (w := Thread.refs) hi (th.put s.sessionID (new ++ rest))
  have hle := Pool.le_weigh (w := Thread.refs) hi
  rw [refs_put, Pool.weigh_append] at hset
  unfold State.refs
  simp only
  omega

/-- The last reference is given back by whoever tries to release the slot next. -/
theorem stepPc_zero (he : stepPc oneRead ans s pc = some (u, new))
    (hr : pc.Returns ans s) (hused : s.phase = .used) (h0 : u.ioCnt = 0) (hne : s.ioCnt ≠ 0) :
    pc.inside = true ∨ .exchangeRelease ∈ new := by
  cases pc with
  | lock id call =>
    have hlt : s.ioCnt < if s.phase = .used then 16383 else 32767 := hr
    rw [if_pos hused] at hlt
    simp only [stepPc, Option.some.injEq, Prod.mk.injEq] at he
    rw [← he.1, incr_ioCnt (by omega)] at h0
    cases h0
  | unlockOther =>
    simp only [stepPc, Option.some.injEq, Prod.mk.injEq] at he
    rw [← he.2]
    exact .inr List.mem_cons_self
  | decr =>
    simp only [stepPc, Option.some.injEq, Prod.mk.injEq] at he
    obtain ⟨rfl, rfl⟩ := he
    rw [if_pos h0]
    exact .inr List.mem_cons_self
  | exchangeRelease =>
    simp only [stepPc, if_neg hne] at he
    cases he
    exact absurd h0 hne
  | releaseSession | acceptEx =>
    simp only [stepPc] at he
    split at he <;> cases he <;> exact absurd h0 hne
  | setCount =>
    cases he
    cases h0
  | compareID | postRelease | release | push | testOn | drawID | setID | countSlot =>
    cases he
    exact absurd h0 hne
  | failed => cases he
  | _ => exact .inl rfl

/-- Who tries to release the slot. -/
def Pc.exchanges : Pc → ℕ
  | .exchangeRelease => 1
  | _ => 0

/-- The count of a slot in use is the number of its references, and when it has
come to 0 somebody is about to release the slot. -/
structure Exact (s : State) : Prop where
  count : s.phase = .used → s.ioCnt = s.refs
  pending : s.phase = .used → s.ioCnt = 0 → s.frames Pc.exchanges ≠ 0

theorem Exact.of_eq (h : Exact s) (hphase : t.phase = s.phase) (hcnt : t.ioCnt = s.ioCnt)
    (hrefs : t.refs = s.refs) (hframes : s.frames Pc.exchanges ≤ t.frames Pc.exchanges) :
    Exact t where
  count hused := by
    rw [hcnt, hrefs]
    exact h.count (hphase.symm.trans hused)
  pending hused h0 := by
    have hpos := h.pending (hphase.symm.trans hused) (hcnt.symm.trans h0)
    omega

theorem exact_run (h : Exact s) (hinv : Inv s) (hst : th.stack = pc :: rest)
    (hi : s.threads[i]? = some th) (hheld : Held (pc :: rest)) (hr : pc.Returns ans s)
    (he : stepPc oneRead ans s pc = some (u, new)) :
    Exact { u with threads := s.threads.set i (th.put s.sessionID (new ++ rest)) } := by
  have hframe := hinv.frames th (List.mem_of_getElem? hi) pc (by rw [hst]; exact List.mem_cons_self)
  have hrun := refs_run (u := u) hi hst new
  have hcases := stepPc_used he hframe
  by_cases hu : u.phase = .used
  swap
  · exact ⟨fun hused => absurd hused hu, fun hused => absurd hused hu⟩
  rcases hcases hu with ⟨hused, htok, hrel⟩ | rfl
  · have hcount := hinv.count
    rw [hused] at hcount
    have hle : pc.refs ≤ s.ioCnt := by
      have hth := refs_cons hst
      have hpool := Pool.le_weigh (w := Thread.refs) hi
      have hexact := h.count hused
      unfold State.refs at hexact
      omega
    have hbal := stepPc_balance he hr hused htok hrel hle hcount.2.1
    have hexact := h.count hused
    refine ⟨fun _ => ?_, fun _ h0 => ?_⟩
    · simp only
      omega
    · have h0 : u.ioCnt = 0 := h0
      rw [← Nat.pos_iff_ne_zero]
      have hframes : _ = s.frames Pc.exchanges + Pool.weigh Pc.exchanges new :=
        frames_run (t := { u with
          threads := s.threads.set i (th.put s.sessionID (new ++ rest)) }) hi hst rfl
      by_cases hne : s.ioCnt = 0
      · have hpos := h.pending hused hne
        have hpc : pc.exchanges = 0 := by
          cases pc <;> first | rfl | exact absurd hne (hrel rfl)
        omega
      · rcases stepPc_zero he hr hused h0 hne with hin | hmem
        · have hpos := refs_inside (u := u) hheld hin hi new
          omega
        · obtain ⟨j, hj⟩ := List.mem_iff_getElem?.mp hmem
          have hone : 1 ≤ Pool.weigh Pc.exchanges new := Pool.le_weigh (w := Pc.exchanges) hj
          have hpc : pc.exchanges = 0 := by
            cases pc <;> first | rfl | skip
            simp only [stepPc, if_neg hne] at he
            cases he
            cases hmem
          omega
  · cases he
    refine ⟨fun _ => ?_, fun _ h0 => absurd h0 (by simp)⟩
    have hone : s.refs = 1 := hr
    simp only [Pc.refs] at hrun
    have hnew : Pool.weigh Pc.refs [Pc.countSlot] = 0 := rfl
    rw [hnew] at hrun
    simp only
    omega

theorem exact_step {l : Step} (h : Exact s) (hinv : Inv s) (hs : Stacks s) (hr : Returned s l)
    (he : next oneRead s l = some t) : Exact t := by
  cases l with
  | call i id call =>
    obtain ⟨th, hi, he⟩ := Option.bind_eq_some_iff.mp he
    split_ifs at he with hst
    cases he
    refine h.of_eq rfl rfl (start_refs hi hst rfl) ?_
    exact (Nat.le_add_right _ _).trans_eq (frames_start hi hst rfl).symm
  | complete i j transferred =>
    obtain ⟨th, hi, he⟩ := Option.bind_eq_some_iff.mp he
    obtain ⟨c, hj, he⟩ := Option.bind_eq_some_iff.mp he
    split_ifs at he with hst
    cases he
    refine h.of_eq rfl rfl (complete_refs hi hst hj) ?_
    exact (Nat.le_add_right _ _).trans_eq (frames_start hi hst rfl).symm
  | arm i =>
    obtain ⟨th, hi, he⟩ := Option.bind_eq_some_iff.mp he
    split_ifs at he
    cases he
    exact ⟨nofun, nofun⟩
  | run i ans =>
    obtain ⟨th, pc, rest, u, new, hi, hst, hstep, rfl⟩ := run_cases he
    have hheld := hs th (List.mem_of_getElem? hi)
    rw [hst] at hheld
    exact exact_run h hinv hst hi hheld (hr th pc rest hi hst) hstep
  | otherSlot | stop =>
    cases he
    exact h.of_eq rfl rfl rfl le_rfl

/-! ### What a step leaves of the accounts -/

/-- The slot that has been armed and not been counted. -/
def Pc.counts : Pc → ℕ
  | .countSlot => 1
  | _ => 0

/-- An `AcceptEx` that has completed and whose session has not been accepted. -/
def Pc.accepts : Pc → ℕ
  | .accept | .acceptLive | .acceptCount => 1
  | _ => 0

def Completion.accepts (c : Completion) : ℕ := if c.op = .accept then 1 else 0

/-- The `AcceptEx` of the session that has not been accepted. -/
def State.accepts (s : State) : ℕ := s.frames Pc.accepts + Pool.weigh Completion.accepts s.flying

/-- A step that neither hands the slot on nor accepts a session nor counts the slot. -/
structure Quiet (s u : State) (pc : Pc) (new : List Pc) : Prop where
  accepted : u.accepted = s.accepted
  sessionCnt : u.sessionCnt = s.sessionCnt
  activeSlotCnt : u.activeSlotCnt = s.activeSlotCnt
  bOn : u.bOn = s.bOn
  frames : ∀ q ∈ new, q.tok = 0 ∧ q.counts = 0
  accepts : Pool.weigh Pc.accepts new ≤ pc.accepts
  flying : ∃ extra, u.flying = s.flying ++ extra ∧ ∀ c ∈ extra, c.op ≠ .release ∧ c.op ≠ .accept

theorem accepts_locks {calls : List (SeqAndIdx × Call)} {qs : List Pc} :
    Pool.weigh Pc.accepts (calls.map (fun c => Pc.lock c.1 c.2) ++ qs) =
      Pool.weigh Pc.accepts qs := by
  have h0 : Pool.weigh Pc.accepts (calls.map fun c => Pc.lock c.1 c.2) = 0 :=
    Pool.weigh_eq_zero.mpr fun q hq => by obtain ⟨c, -, rfl⟩ := List.mem_map.mp hq; rfl
  rw [Pool.weigh_append, h0, Nat.zero_add]

theorem effect_quiet (side : SendSide) (e : SendEffect) {spc : SendPc} :
    Quiet s (effect { s with side } e) (.send spc) [] := by
  have hextra : ∃ extra, (effect { s with side } e).flying = s.flying ++ extra ∧
      ∀ c ∈ extra, c.op ≠ .release ∧ c.op ≠ .accept := by
    cases e with
    | wake => exact ⟨[⟨.wake, s.sessionID⟩], rfl, by simp⟩
    | send batch => exact ⟨[⟨.send, s.sessionID⟩], rfl, by simp⟩
    | uncount =>
      refine ⟨[], ?_, nofun⟩
      rw [List.append_nil]
      exact decr_flying
    | _ => exact ⟨[], (List.append_nil _).symm, nofun⟩
  cases e with
  | uncount => exact ⟨by rw [effect, State.decr], by rw [effect, State.decr],
      by rw [effect, State.decr], by rw [effect, State.decr], nofun, le_rfl, hextra⟩
  | _ => exact ⟨rfl, rfl, rfl, rfl, nofun, le_rfl, hextra⟩

theorem stepPc_quiet (he : stepPc oneRead ans s pc = some (u, new)) (htok : pc.tok = 0)
    (hrel : pc = .exchangeRelease → s.ioCnt ≠ 0) (hacc : pc ≠ .acceptCount)
    (hcnt : pc ≠ .countSlot) :
    Quiet s u pc new := by
  have hnone : ∃ extra, s.flying = s.flying ++ extra ∧ ∀ c ∈ extra, c.op ≠ .release ∧
      c.op ≠ .accept :=
    ⟨[], (List.append_nil _).symm, (by simp)⟩
  have hdecr : ∃ extra, s.decr.flying = s.flying ++ extra ∧ ∀ c ∈ extra, c.op ≠ .release ∧
      c.op ≠ .accept := by
    rw [decr_flying]
    exact hnone
  cases pc with
  | send spc =>
    obtain ⟨⟨side, spc', e⟩, hs, hu⟩ := Option.map_eq_some_iff.mp he
    cases hu
    have hq : Quiet s (effect { s with side } e) (.send spc) [] := effect_quiet side e
    refine ⟨hq.accepted, hq.sessionCnt, hq.activeSlotCnt, hq.bOn, fun q hmem => ?_, ?_, hq.flying⟩
    · split_ifs at hmem
      · cases hmem
      · rw [List.mem_singleton.mp hmem]
        exact ⟨rfl, rfl⟩
    · split_ifs <;> exact le_rfl
  | unlockOther | recvUncount =>
    simp only [stepPc, Option.some.injEq, Prod.mk.injEq] at he
    obtain ⟨rfl, rfl⟩ := he
    exact ⟨by rw [State.decr], by rw [State.decr], by rw [State.decr], by rw [State.decr],
      by simp [Pc.tok, Pc.counts], le_rfl, hdecr⟩
  | decr =>
    simp only [stepPc, Option.some.injEq, Prod.mk.injEq] at he
    obtain ⟨rfl, rfl⟩ := he
    refine ⟨by rw [State.decr], by rw [State.decr], by rw [State.decr], by rw [State.decr],
      ?_, ?_, hdecr⟩
    · generalize s.decr.ioCnt = n
      split_ifs <;> simp [Pc.tok, Pc.counts]
    · generalize s.decr.ioCnt = n
      split_ifs <;> exact le_rfl
  | lock id call =>
    simp only [stepPc, Option.some.injEq, Prod.mk.injEq] at he
    obtain ⟨rfl, rfl⟩ := he
    refine ⟨rfl, rfl, rfl, rfl, ?_, ?_, hnone⟩
    · split_ifs <;> simp [Pc.tok, Pc.counts]
    · split_ifs <;> exact le_rfl
  | compareID id call =>
    cases he
    refine ⟨rfl, rfl, rfl, rfl, ?_, ?_, hnone⟩
    · split_ifs <;> cases call <;> simp [Pc.tok, Pc.counts, Call.body]
    · split_ifs <;> cases call <;> exact le_rfl
  | exchangeRelease =>
    simp only [stepPc, if_neg (hrel rfl)] at he
    cases he
    exact ⟨rfl, rfl, rfl, rfl, (by simp), le_rfl, hnone⟩
  | acceptCount => exact absurd rfl hacc
  | countSlot => exact absurd rfl hcnt
  | completeRecv =>
    cases he
    refine ⟨rfl, rfl, rfl, rfl, fun q hmem => ?_, ?_, hnone⟩
    · rcases List.mem_append.mp hmem with hmem | hmem
      · obtain ⟨c, -, rfl⟩ := List.mem_map.mp hmem
        exact ⟨rfl, rfl⟩
      · split_ifs at hmem
        · rw [List.mem_singleton.mp hmem]
          exact ⟨rfl, rfl⟩
        · cases hmem
    · rw [accepts_locks]
      split_ifs <;> exact le_rfl
  | accept =>
    cases he
    refine ⟨rfl, rfl, rfl, rfl, ?_, ?_, hnone⟩
    · split_ifs <;> simp [Pc.tok, Pc.counts]
    · split_ifs <;> simp [Pc.accepts, Pool.weigh]
  | registerRecv =>
    cases he
    refine ⟨rfl, rfl, rfl, rfl, ?_, ?_, hnone⟩
    · split_ifs <;> simp [Pc.tok, Pc.counts]
    · split_ifs <;> exact le_rfl
  | countRecv =>
    simp only [stepPc, Option.some.injEq, Prod.mk.injEq] at he
    obtain ⟨rfl, rfl⟩ := he
    exact ⟨rfl, rfl, rfl, rfl, by simp [Pc.tok, Pc.counts], le_rfl, hnone⟩
  | wsaRecv =>
    simp only [stepPc] at he
    cases hio : ans.io <;> rw [hio] at he <;> cases he
    · exact ⟨rfl, rfl, rfl, rfl, (by simp), le_rfl, [⟨.recv, s.sessionID⟩], rfl, by simp⟩
    · exact ⟨rfl, rfl, rfl, rfl, by simp [Pc.tok, Pc.counts], le_rfl, hnone⟩
    · exact ⟨rfl, rfl, rfl, rfl, (by simp), le_rfl, hnone⟩
  | postRelease | release | releaseSession | push | testOn | drawID | setID id | acceptEx
  | setCount => cases htok
  | failed => cases he
  | _ =>
    cases he
    exact ⟨rfl, rfl, rfl, rfl, by simp [Pc.tok, Pc.counts], le_rfl, hnone⟩

end

/-! ### The accounts -/

/-- The sessions the slot has been in use for, and those whose player `onAccept`
has created and `onRelease` has not been called for. -/
structure Ledger where
  opened : List SeqAndIdx
  players : List SeqAndIdx

namespace Ledger

/-- What a step of a thread adds to the ledger. -/
def note (s : State) (led : Ledger) : Pc → Ledger
  | .acceptCount => if s.side.msgCnt = 0 then { led with
      players := led.players ++ [s.sessionID] } else led
  | .release => if s.accepted then { led with players := led.players.erase s.sessionID } else led
  | .setCount => { led with opened := led.opened ++ [s.sessionID] }
  | _ => led

def after (s : State) (led : Ledger) : Step → Ledger
  | .run i _ => (((s.threads[i]?).bind (·.stack.head?)).map (led.note s)).getD led
  | _ => led

end Ledger

/-- A slot and its ledger. -/
def ledgered (oneRead : Bool) : System (State × Ledger) Step where
  init p := Initial p.1 ∧ p.2 = ⟨[p.1.sessionID], []⟩
  next p l := (next oneRead p.1 l).map fun t => (t, p.2.after p.1 l)

/-- What the slot adds to `mActiveSlotCnt`, with the increments that are about to be made. -/
def State.slots (s : State) : ℤ := s.activeSlotCnt + (s.frames Pc.counts : ℕ)

/-- An accepted session has its player. -/
def Owed (s : State) (led : Ledger) : Prop := led.players = if s.accepted then [s.sessionID] else []

/-- Nothing is owed. -/
structure Vacant (s : State) (led : Ledger) : Prop where
  accepted : s.accepted = false
  players : led.players = []
  slots : s.slots = 0

/-- The accounts at each stage of a release. -/
def Pc.Owes (s : State) (led : Ledger) : Pc → Prop
  | .postRelease | .release => Owed s led ∧ s.slots = 1
  | .releaseSession => led.players = [] ∧ s.slots = 1
  | .push => Vacant s led
  | _ => True

def Phase.Owes (s : State) (led : Ledger) : Phase → Prop
  | .used => Owed s led ∧ s.slots = 1
  | .armed => Owed s led ∧ s.slots = 0
  | .free | .arming => Vacant s led
  | .releasing => True

structure Books (s : State) (led : Ledger) : Prop where
  phase : s.phase.Owes s led
  frames : ∀ th ∈ s.threads, ∀ pc ∈ th.stack, pc.Owes s led
  flying : ∀ c ∈ s.flying, c.op = .release → Owed s led ∧ s.slots = 1
  sessions : s.sessionCnt = led.players.length
  accepts : s.accepts ≤ 1
  unaccepted : s.accepts ≠ 0 → s.accepted = false

section

variable {oneRead : Bool} {ans : Answer} {s t u : State} {led led' : Ledger} {i : ℕ}
    {th : Thread} {pc : Pc}
variable {new rest : List Pc}

theorem Pc.owes_of_tok {pc : Pc} (h : pc.tok = 0) : pc.Owes s led := by
  cases pc <;> trivial

theorem Vacant.owed (h : Vacant s led) : Owed s led := by
  unfold Owed
  rw [h.accepted]
  exact h.players

/-- What the accounts are, only depends on these. -/
structure SameBooks (s t : State) : Prop where
  accepted : t.accepted = s.accepted
  sessionID : t.sessionID = s.sessionID
  slots : t.slots = s.slots

theorem Owed.congr (h : Owed s led) (hsame : SameBooks s t) : Owed t led := by
  unfold Owed at h ⊢
  rw [hsame.accepted, hsame.sessionID]
  exact h

theorem Vacant.congr (h : Vacant s led) (hsame : SameBooks s t) : Vacant t led :=
  ⟨hsame.accepted.trans h.accepted, h.players, hsame.slots.trans h.slots⟩

theorem Pc.Owes.congr {pc : Pc} (h : pc.Owes s led) (hsame : SameBooks s t) : pc.Owes t led := by
  cases pc with
  | postRelease | release => exact ⟨h.1.congr hsame, hsame.slots.trans h.2⟩
  | releaseSession => exact ⟨h.1, hsame.slots.trans h.2⟩
  | push => exact Vacant.congr h hsame
  | _ => trivial

theorem Phase.Owes.congr {p : Phase} (h : p.Owes s led) (hsame : SameBooks s t) : p.Owes t led := by
  cases p with
  | used | armed => exact ⟨h.1.congr hsame, hsame.slots.trans h.2⟩
  | free | arming => exact Vacant.congr h hsame
  | releasing => trivial

/-- A step that leaves the accounts alone. -/
theorem Books.keep (h : Books s led) (hi : s.threads[i]? = some th) {th' : Thread}
    (ht : t.threads = s.threads.set i th') (hsame : SameBooks s t) (hphase : t.phase.Owes s led)
    (hsessions : t.sessionCnt = s.sessionCnt) (hown : ∀ q ∈ th'.stack, q ∈ th.stack ∨ q.Owes s led)
    (hflying : ∀ c ∈ t.flying, c.op = .release → c ∈ s.flying) (haccepts : t.accepts ≤ s.accepts) :
    Books t led where
  phase := hphase.congr hsame
  frames := by
    rw [ht]
    refine Pool.forall_set hi h.frames (fun _ _ _ _ hold q hq => (hold q hq).congr hsame)
      fun q hq => ?_
    rcases hown q hq with hq | hq
    · exact (h.frames th (List.mem_of_getElem? hi) q hq).congr hsame
    · exact hq.congr hsame
  flying c hc hop := by
    obtain ⟨howed, hslots⟩ := h.flying c (hflying c hc hop) hop
    exact ⟨howed.congr hsame, hsame.slots.trans hslots⟩
  sessions := hsessions.trans h.sessions
  accepts := haccepts.trans h.accepts
  unaccepted hne := hsame.accepted.trans (h.unaccepted (by omega))

/-- A step of the thread that has all there is of the slot. -/
theorem Books.turn (hi : s.threads[i]? = some th) (hst : th.stack = pc :: rest)
    (hall : s.tok ≤ pc.tok) {id : SeqAndIdx}
    (ht : t.threads = s.threads.set i (th.put id (new ++ rest))) (hphase : t.phase.Owes t led')
    (hnew : ∀ q ∈ new, q.Owes t led')
    (hflying : ∀ c ∈ t.flying, c.op = .release → Owed t led' ∧ t.slots = 1)
    (hsessions : t.sessionCnt = led'.players.length) (haccepts : t.accepts ≤ 1)
    (hunaccepted : t.accepts ≠ 0 → t.accepted = false) : Books t led' where
  phase := hphase
  frames := by
    obtain ⟨hrest, hothers, -⟩ := others_of_tok hi hst hall
    rw [ht]
    refine Pool.forall_set (P := fun _ => True) hi (fun _ _ => trivial)
      (fun j c hj hc _ q hq => ?_) fun q hq => ?_
    · exact Pc.owes_of_tok (Pool.weigh_eq_zero.mp (Pool.weigh_others hi hothers hj hc) q hq)
    · rcases List.mem_append.mp hq with hq | hq
      · exact hnew q hq
      · exact Pc.owes_of_tok (hrest q hq)
  flying := hflying
  sessions := hsessions
  accepts := haccepts
  unaccepted := hunaccepted

/-- While a reference is held nobody is at a release. -/
theorem PcInv.owes {q : Pc} (h : PcInv s q) (hphase : s.phase = .used ∨ s.phase = .armed) :
    q.Owes t led := by
  have hcontra : ∀ {p : Phase}, s.phase = p → p ≠ .used → p ≠ .armed → False := by
    rintro p rfl hused harmed
    rcases hphase with hphase | hphase
    · exact hused hphase
    · exact harmed hphase
  cases q with
  | postRelease => exact (hcontra h.1 nofun nofun).elim
  | release | releaseSession => exact (hcontra h nofun nofun).elim
  | push =>
    rcases h with h | h
    · exact (hcontra h nofun nofun).elim
    · exact (hcontra h nofun nofun).elim
  | _ => trivial

theorem Held.refs_of_mem {stack : List Pc} (h : Held stack) {q : Pc} (hq : q ∈ stack)
    (hin : q.inside = true) :
    Pool.weigh Pc.refs stack ≠ 0 := by
  induction stack with
  | nil => cases hq
  | cons p stack ih =>
    rw [weigh_cons]
    rcases List.mem_cons.mp hq with rfl | hq
    · have hbelow := h.1 hin
      omega
    · have hbelow := ih h.2 hq
      omega

/-- An `AcceptEx` that has not come to its end has a reference. -/
theorem accepts_eq_zero (hs : Stacks s) (h0 : s.refs = 0) : s.accepts = 0 := by
  unfold State.refs at h0
  have hthreads : ∀ th ∈ s.threads, th.refs = 0 := Pool.weigh_eq_zero.mp (by omega)
  have hflying : ∀ c ∈ s.flying, c.refs = 0 := Pool.weigh_eq_zero.mp (by omega)
  have hframes : s.frames Pc.accepts = 0 := by
    refine Pool.weigh_eq_zero.mpr fun th hth => Pool.weigh_eq_zero.mpr fun q hq => ?_
    by_contra hne
    have hin : q.inside = true := by
      cases q <;> first | rfl | exact absurd rfl hne
    exact (hs th hth).refs_of_mem hq hin (hthreads th hth)
  have hcompletions : Pool.weigh Completion.accepts s.flying = 0 := by
    refine Pool.weigh_eq_zero.mpr fun c hc => if_neg fun hop => ?_
    have hone := hflying c hc
    rw [Completion.refs, if_neg (by simp [hop])] at hone
    cases hone
  rw [State.accepts, hframes, hcompletions]

theorem accepts_run (hi : s.threads[i]? = some th) (hst : th.stack = pc :: rest) {id : SeqAndIdx}
    (ht : t.threads = s.threads.set i (th.put id (new ++ rest))) :
    t.accepts + pc.accepts + Pool.weigh Completion.accepts s.flying =
      s.accepts + Pool.weigh Pc.accepts new + Pool.weigh Completion.accepts t.flying := by
  have hframes : t.frames Pc.accepts + pc.accepts = _ := frames_run hi hst ht
  unfold State.accepts
  omega

theorem slots_run (hi : s.threads[i]? = some th) (hst : th.stack = pc :: rest) {id : SeqAndIdx}
    (ht : t.threads = s.threads.set i (th.put id (new ++ rest))) :
    t.slots + pc.counts + s.activeSlotCnt = s.slots +
      (Pool.weigh Pc.counts new : ℕ) + t.activeSlotCnt := by
  have hframes : t.frames Pc.counts + pc.counts = _ := frames_run hi hst ht
  unfold State.slots
  omega

/-- `t` is `u`, but for the threads. -/
structure SameSlot (u t : State) : Prop where
  sessionID : t.sessionID = u.sessionID
  accepted : t.accepted = u.accepted
  bOn : t.bOn = u.bOn
  sessionCnt : t.sessionCnt = u.sessionCnt
  activeSlotCnt : t.activeSlotCnt = u.activeSlotCnt
  flying : t.flying = u.flying
  phase : t.phase = u.phase
  released : t.released = u.released

theorem books_quiet (h : Books s led) (hi : s.threads[i]? = some th) (hst : th.stack = pc :: rest)
    (ht : t.threads = s.threads.set i (th.put s.sessionID (new ++ rest))) (hut : SameSlot u t)
    (hquiet : Quiet s u pc new) (hsame : Same s u) (hcnt : pc.counts = 0) : Books t led := by
  have hslots := slots_run hi hst ht
  have haccepts := accepts_run hi hst ht
  have hnew : Pool.weigh Pc.counts new = 0 :=
    Pool.weigh_eq_zero.mpr fun q hq => (hquiet.frames q hq).2
  obtain ⟨extra, hflying, hextra⟩ := hquiet.flying
  have hnone : Pool.weigh Completion.accepts extra = 0 :=
    Pool.weigh_eq_zero.mpr fun c hc => if_neg (hextra c hc).2
  have hissued : Pool.weigh Completion.accepts t.flying =
      Pool.weigh Completion.accepts s.flying := by
    rw [hut.flying, hflying, Pool.weigh_append, hnone, Nat.add_zero]
  have hactive : t.activeSlotCnt = s.activeSlotCnt := hut.activeSlotCnt.trans hquiet.activeSlotCnt
  have hle := hquiet.accepts
  refine h.keep hi ht ⟨hut.accepted.trans hquiet.accepted, hut.sessionID.trans hsame.sessionID,
    by omega⟩ (hut.phase.trans hsame.phase ▸ h.phase) (hut.sessionCnt.trans hquiet.sessionCnt) ?_
    ?_ (by omega)
  · intro q hq
    rcases List.mem_append.mp hq with hq | hq
    · exact .inr (Pc.owes_of_tok (hquiet.frames q hq).1)
    · rw [hst]
      exact .inl (List.mem_cons_of_mem _ hq)
  · intro c hc hop
    rw [hut.flying, hflying] at hc
    rcases List.mem_append.mp hc with hc | hc
    · exact hc
    · exact absurd hop (hextra c hc).1

/-- A session is accepted, and gets its player. -/
theorem books_acceptCount (h : Books s led) (hinv : Inv s) (hi : s.threads[i]? = some th)
    (hst : th.stack = .acceptCount :: rest) (hheld : Held (.acceptCount :: rest))
    (ht : t.threads = s.threads.set i (th.put s.sessionID (new ++ rest))) (hut : SameSlot u t)
    (he : stepPc oneRead ans s .acceptCount = some (u, new)) :
    Books t (led.note s .acceptCount) := by
  have hslots := slots_run hi hst ht
  have haccepts := accepts_run hi hst ht
  simp only [Pc.counts, Pc.accepts] at hslots haccepts
  simp only [stepPc] at he
  simp only [Ledger.note]
  by_cases hmsg : s.side.msgCnt = 0
  · rw [if_pos hmsg] at he ⊢
    cases he
    have hplain : ∀ q ∈ ans.calls.map (fun c => Pc.lock c.1 c.2) ++ [Pc.registerRecv], q.tok = 0 ∧
        q.counts = 0 := by
      intro q hq
      rcases List.mem_append.mp hq with hq | hq
      · obtain ⟨c, -, rfl⟩ := List.mem_map.mp hq
        exact ⟨rfl, rfl⟩
      · rw [List.mem_singleton.mp hq]
        exact ⟨rfl, rfl⟩
    have hnew : Pool.weigh Pc.accepts
        (ans.calls.map (fun c => Pc.lock c.1 c.2) ++ [Pc.registerRecv]) = 0 := accepts_locks
    have hcounts :
        Pool.weigh Pc.counts (ans.calls.map (fun c => Pc.lock c.1 c.2) ++ [Pc.registerRecv]) = 0 :=
      Pool.weigh_eq_zero.mpr fun q hq => (hplain q hq).2
    have hflying : t.flying = s.flying := hut.flying
    have hactive : t.activeSlotCnt = s.activeSlotCnt := hut.activeSlotCnt
    have hsame : t.slots = s.slots := by omega
    rw [hnew, hflying] at haccepts
    have hpos : 1 ≤ s.frames Pc.accepts :=
      frames_pos (w := Pc.accepts) hi (q := .acceptCount) (by rw [hst]; exact List.mem_cons_self)
    have hacc : s.accepts = s.frames Pc.accepts + Pool.weigh Completion.accepts s.flying := rfl
    have hle := h.accepts
    have hnot := h.unaccepted (by omega)
    have hphase := hinv.count.phase (refs_pos hi hst (hheld.1 rfl))
    have howed : led.players = [] := by
      have howed : Owed s led := by
        have hbooks := h.phase
        rcases hphase with hphase | hphase <;> rw [hphase] at hbooks <;> exact hbooks.1
      unfold Owed at howed
      rw [howed, hnot]
      rfl
    have hplayer : Owed t { led with players := led.players ++ [s.sessionID] } := by
      unfold Owed
      rw [hut.accepted, hut.sessionID, howed]
      rfl
    refine ⟨?_, ?_, ?_, ?_, by omega, fun hne => absurd (show _ = 0 by omega) hne⟩
    · have hbooks := h.phase
      rw [hut.phase]
      show s.phase.Owes _ _
      rcases hphase with hphase |
          hphase <;> rw [hphase] at hbooks ⊢ <;> exact ⟨hplayer, hsame.trans hbooks.2⟩
    · rw [ht]
      refine Pool.forall_set hi hinv.frames (fun _ _ _ _ hold q hq => (hold q hq).owes hphase)
        fun q hq => ?_
      rcases List.mem_append.mp hq with hq | hq
      · exact Pc.owes_of_tok (hplain q hq).1
      · have hframe :=
          hinv.frames th (List.mem_of_getElem? hi) q (by rw [hst]; exact List.mem_cons_of_mem _ hq)
        exact hframe.owes hphase
    · intro c hc hop
      rw [hflying] at hc
      have hrel := hinv.releasing c hc hop
      rcases hphase with hphase | hphase <;> rw [hphase] at hrel <;> cases hrel
    · have hsessions := h.sessions
      rw [howed] at hsessions ⊢
      have hcnt : t.sessionCnt = s.sessionCnt + 1 := hut.sessionCnt
      rw [hcnt, hsessions]
      rfl
  · rw [if_neg hmsg] at he ⊢
    cases he
    have hflying : t.flying = s.flying := hut.flying
    have hactive : t.activeSlotCnt = s.activeSlotCnt := hut.activeSlotCnt
    have hphase : t.phase = s.phase := hut.phase
    simp only [Pool.weigh_singleton, Pc.counts, Pc.accepts, hflying] at hslots haccepts
    refine h.keep hi ht ⟨hut.accepted, hut.sessionID, by omega⟩
      (hphase ▸ h.phase) hut.sessionCnt ?_ ?_ (by omega)
    · intro q hq
      rcases List.mem_append.mp hq with hq | hq
      · rw [List.mem_singleton.mp hq]
        exact .inr trivial
      · rw [hst]
        exact .inl (List.mem_cons_of_mem _ hq)
    · rw [hflying]
      exact fun c hc _ => hc

/-- The slot is handed on. -/
theorem Books.hand (h : Books s led) (hi : s.threads[i]? = some th) (hst : th.stack = pc :: rest)
    (hall : s.tok ≤ pc.tok) (ht : t.threads = s.threads.set i (th.put s.sessionID (new ++ rest)))
    (hplain : Pool.weigh Pc.accepts new = 0) (hphase : t.phase.Owes t led')
    (hnew : ∀ q ∈ new, q.Owes t led')
    (hflying : ∀ c ∈ t.flying, c.op = .release → Owed t led' ∧ t.slots = 1)
    (hsessions : t.sessionCnt = led'.players.length)
    (hissued : Pool.weigh Completion.accepts t.flying = Pool.weigh Completion.accepts s.flying)
    (haccepted : t.accepted = s.accepted ∨ t.accepted = false) : Books t led' := by
  have haccepts := accepts_run hi hst ht
  have hle : t.accepts ≤ s.accepts := by omega
  refine .turn hi hst hall ht hphase hnew hflying hsessions (hle.trans h.accepts) fun hne => ?_
  rcases haccepted with hsame | hnot
  · exact hsame.trans (h.unaccepted (by omega))
  · exact hnot

/-- No release is on its way to the thread that has been handed the slot. -/
theorem no_release (hi : s.threads[i]? = some th) (hst : th.stack = pc :: rest)
    (hall : s.tok ≤ pc.tok) :
    ∀ c ∈ s.flying, c.op ≠ .release := by
  obtain ⟨-, -, hflying⟩ := others_of_tok hi hst hall
  intro c hc hop
  have hzero := Pool.weigh_eq_zero.mp hflying c hc
  rw [Completion.tok, if_pos hop] at hzero
  cases hzero

/-- A step while nothing is owed. -/
theorem Books.vacant (h : Books s led) (hi : s.threads[i]? = some th) (hst : th.stack = pc :: rest)
    (hall : s.tok ≤ pc.tok) (ht : t.threads = s.threads.set i (th.put s.sessionID (new ++ rest)))
    (hvacant : Vacant s led) (haccepted : t.accepted = s.accepted)
    (hsessions : t.sessionCnt = s.sessionCnt)
    (hactive : t.activeSlotCnt = s.activeSlotCnt) (hflying : t.flying = s.flying)
    (hpc : pc.counts = 0) (hplain : Pool.weigh Pc.counts new = 0 ∧ Pool.weigh Pc.accepts new = 0)
    (howes : Vacant t led → t.phase.Owes t led ∧ ∀ q ∈ new, q.Owes t led) : Books t led := by
  have hslots := slots_run hi hst ht
  have hzero := hvacant.slots
  obtain ⟨hphase, hnew⟩ := howes ⟨haccepted.trans hvacant.accepted, hvacant.players, by omega⟩
  refine h.hand hi hst hall ht hplain.2 hphase hnew ?_ (hsessions.trans h.sessions)
    (by rw [hflying]) (.inl haccepted)
  rw [hflying]
  exact fun c hc hop => absurd hop (no_release hi hst hall c hc)

/-! The steps from the release of a slot to its next use. -/

theorem books_postRelease (h : Books s led) (hinv : Inv s) (hi : s.threads[i]? = some th)
    (hst : th.stack = .postRelease :: rest)
    (ht : t.threads = s.threads.set i (th.put s.sessionID (new ++ rest))) (hut : SameSlot u t)
    (he : stepPc oneRead ans s .postRelease = some (u, new)) :
    Books t (led.note s .postRelease) := by
  have hframe := hinv.frames th (List.mem_of_getElem? hi) _ (by rw [hst]; exact List.mem_cons_self)
  have hbook := h.frames th (List.mem_of_getElem? hi) _ (by rw [hst]; exact List.mem_cons_self)
  have hall : s.tok ≤ Pc.tok .postRelease := hinv.tok_le
  have hslots := slots_run hi hst ht
  cases he
  have hflying : t.flying = s.flying ++ [⟨.release, s.sessionID⟩] := hut.flying
  have hactive : t.activeSlotCnt = s.activeSlotCnt := hut.activeSlotCnt
  have hnil : Pool.weigh Pc.counts ([] : List Pc) = 0 := rfl
  simp only [Pc.counts, hnil] at hslots
  have hsame : SameBooks s t := ⟨hut.accepted, hut.sessionID, by omega⟩
  refine h.hand hi hst hall ht rfl ?_ nofun (fun c _ _ => ⟨hbook.1.congr hsame,
    hsame.slots.trans hbook.2⟩) (hut.sessionCnt.trans h.sessions) ?_ (.inl hut.accepted)
  · rw [hut.phase.trans hframe.1]
    trivial
  · rw [hflying, Pool.weigh_append, Pool.weigh_singleton]
    rfl

/-- What the player is owed is paid. -/
theorem books_release (h : Books s led) (hinv : Inv s) (hi : s.threads[i]? = some th)
    (hst : th.stack = .release :: rest)
    (ht : t.threads = s.threads.set i (th.put s.sessionID (new ++ rest))) (hut : SameSlot u t)
    (he : stepPc oneRead ans s .release = some (u, new)) : Books t (led.note s .release) := by
  have hframe := hinv.frames th (List.mem_of_getElem? hi) _ (by rw [hst]; exact List.mem_cons_self)
  have hbook := h.frames th (List.mem_of_getElem? hi) _ (by rw [hst]; exact List.mem_cons_self)
  have hall : s.tok ≤ Pc.tok .release := hinv.tok_le
  have hnone := no_release hi hst hall
  have hslots := slots_run hi hst ht
  cases he
  have hflying : t.flying = s.flying := hut.flying
  have hactive : t.activeSlotCnt = s.activeSlotCnt := hut.activeSlotCnt
  have hcnt : t.sessionCnt = if s.accepted then s.sessionCnt - 1 else s.sessionCnt := hut.sessionCnt
  have hsessions := h.sessions
  have howed : led.players = if s.accepted then [s.sessionID] else [] := hbook.1
  simp only [Pc.counts, Pool.weigh_singleton] at hslots
  have hplayers : (led.note s .release).players = [] ∧ t.sessionCnt = 0 := by
    simp only [Ledger.note]
    cases hacc : s.accepted <;> rw [hacc] at howed hcnt
    · have howed : led.players = [] := howed
      rw [howed] at hsessions
      exact ⟨howed, hcnt.trans hsessions⟩
    · have howed : led.players = [s.sessionID] := howed
      rw [howed] at hsessions
      refine ⟨?_, ?_⟩
      · simp [howed]
      · rw [hcnt, hsessions]
        rfl
  refine h.hand hi hst hall ht rfl ?_ ?_ ?_ (by rw [hplayers.1, hplayers.2]; rfl) (by rw [hflying])
    (.inl hut.accepted)
  · rw [hut.phase.trans hframe]
    trivial
  · intro q hq
    rw [List.mem_singleton.mp hq]
    have hone := hbook.2
    exact ⟨hplayers.1, by omega⟩
  · rw [hflying]
    exact fun c hc hop => absurd hop (hnone c hc)

theorem books_releaseSession (h : Books s led) (hinv : Inv s) (hi : s.threads[i]? = some th)
    (hst : th.stack = .releaseSession :: rest)
    (ht : t.threads = s.threads.set i (th.put s.sessionID (new ++ rest)))
    (hut : SameSlot u t) (he : stepPc oneRead ans s .releaseSession = some (u, new)) :
    Books t (led.note s .releaseSession) := by
  have hframe := hinv.frames th (List.mem_of_getElem? hi) _ (by rw [hst]; exact List.mem_cons_self)
  have hbook := h.frames th (List.mem_of_getElem? hi) _ (by rw [hst]; exact List.mem_cons_self)
  have hall : s.tok ≤ Pc.tok .releaseSession := hinv.tok_le
  have hnone := no_release hi hst hall
  have hslots := slots_run hi hst ht
  simp only [stepPc] at he
  split at he <;> cases he
  · have hflying : t.flying = s.flying := hut.flying
    have hactive : t.activeSlotCnt = s.activeSlotCnt - 1 := hut.activeSlotCnt
    simp only [Pc.counts, Pool.weigh_singleton] at hslots
    refine h.hand hi hst hall ht rfl ?_ ?_ ?_ (hut.sessionCnt.trans h.sessions) (by rw [hflying])
      (.inr hut.accepted)
    · rw [hut.phase.trans hframe]
      trivial
    · intro q hq
      rw [List.mem_singleton.mp hq]
      have hone := hbook.2
      exact ⟨hut.accepted, hbook.1, by omega⟩
    · rw [hflying]
      exact fun c hc hop => absurd hop (hnone c hc)
  · have hflying : t.flying = s.flying := hut.flying
    refine h.hand hi hst hall ht rfl ?_ ?_ ?_ (hut.sessionCnt.trans h.sessions) (by rw [hflying])
      (.inl hut.accepted)
    · rw [hut.phase.trans hframe]
      trivial
    · intro q hq
      rw [List.mem_singleton.mp hq]
      trivial
    · rw [hflying]
      exact fun c hc hop => absurd hop (hnone c hc)

theorem books_setCount (h : Books s led) (hinv : Inv s) (hi : s.threads[i]? = some th)
    (hst : th.stack = .setCount :: rest)
    (ht : t.threads = s.threads.set i (th.put s.sessionID (new ++ rest))) (hut : SameSlot u t)
    (he : stepPc oneRead ans s .setCount = some (u, new)) : Books t (led.note s .setCount) := by
  have hframe := hinv.frames th (List.mem_of_getElem? hi) _ (by rw [hst]; exact List.mem_cons_self)
  have hall : s.tok ≤ Pc.tok .setCount := hinv.tok_le
  have hnone := no_release hi hst hall
  have hslots := slots_run hi hst ht
  have hphase := h.phase
  cases he
  have hflying : t.flying = s.flying := hut.flying
  have hactive : t.activeSlotCnt = s.activeSlotCnt := hut.activeSlotCnt
  simp only [Pc.counts, Pool.weigh_singleton] at hslots
  have harmed : s.phase = .armed := hframe
  rw [harmed] at hphase
  have hzero : s.slots = 0 := hphase.2
  refine h.hand hi hst hall ht rfl ?_ ?_ ?_ (hut.sessionCnt.trans h.sessions) (by rw [hflying])
    (.inl hut.accepted)
  · rw [hut.phase]
    refine ⟨?_, by omega⟩
    have howed := hphase.1
    unfold Owed at howed ⊢
    rw [hut.accepted, hut.sessionID]
    exact howed
  · intro q hq
    rw [List.mem_singleton.mp hq]
    trivial
  · rw [hflying]
    exact fun c hc hop => absurd hop (hnone c hc)

theorem books_push (h : Books s led) (hinv : Inv s) (hi : s.threads[i]? = some th)
    (hst : th.stack = .push :: rest)
    (ht : t.threads = s.threads.set i (th.put s.sessionID (new ++ rest))) (hut : SameSlot u t)
    (he : stepPc oneRead ans s .push = some (u, new)) : Books t (led.note s .push) := by
  have hbook := h.frames th (List.mem_of_getElem? hi) _ (by rw [hst]; exact List.mem_cons_self)
  cases he
  refine h.vacant hi hst hinv.tok_le ht hbook hut.accepted hut.sessionCnt hut.activeSlotCnt
    hut.flying rfl ⟨rfl, rfl⟩ ?_
  rw [hut.phase]
  exact fun hvacant => ⟨hvacant, nofun⟩

/-- A slot that is being prepared owes nothing. -/
theorem Books.arming (h : Books s led) (hphase : s.phase = .arming) : Vacant s led := by
  have hbooks := h.phase
  rw [hphase] at hbooks
  exact hbooks

theorem books_testOn (h : Books s led) (hinv : Inv s) (hi : s.threads[i]? = some th)
    (hst : th.stack = .testOn :: rest)
    (ht : t.threads = s.threads.set i (th.put s.sessionID (new ++ rest))) (hut : SameSlot u t)
    (he : stepPc oneRead ans s .testOn = some (u, new)) : Books t (led.note s .testOn) := by
  have hframe := hinv.frames th (List.mem_of_getElem? hi) _ (by rw [hst]; exact List.mem_cons_self)
  cases he
  have harming : s.phase = .arming := hframe
  refine h.vacant hi hst hinv.tok_le ht (h.arming harming) hut.accepted hut.sessionCnt
    hut.activeSlotCnt hut.flying rfl ?_ ?_
  · split_ifs <;> exact ⟨rfl, rfl⟩
  · rw [hut.phase.trans harming]
    refine fun hvacant => ⟨hvacant, fun q hq => ?_⟩
    split_ifs at hq
    · rw [List.mem_singleton.mp hq]
      trivial
    · cases hq

theorem books_drawID (h : Books s led) (hinv : Inv s) (hi : s.threads[i]? = some th)
    (hst : th.stack = .drawID :: rest)
    (ht : t.threads = s.threads.set i (th.put s.sessionID (new ++ rest))) (hut : SameSlot u t)
    (he : stepPc oneRead ans s .drawID = some (u, new)) : Books t (led.note s .drawID) := by
  have hframe := hinv.frames th (List.mem_of_getElem? hi) _ (by rw [hst]; exact List.mem_cons_self)
  cases he
  have harming : s.phase = .arming := hframe
  refine h.vacant hi hst hinv.tok_le ht (h.arming harming) hut.accepted hut.sessionCnt
    hut.activeSlotCnt hut.flying rfl ⟨rfl, rfl⟩ ?_
  rw [hut.phase.trans harming]
  refine fun hvacant => ⟨hvacant, fun q hq => ?_⟩
  rw [List.mem_singleton.mp hq]
  trivial

theorem books_setID {id : SeqAndIdx} (h : Books s led) (hinv : Inv s) (hi : s.threads[i]? = some th)
    (hst : th.stack = .setID id :: rest)
    (ht : t.threads = s.threads.set i (th.put s.sessionID (new ++ rest))) (hut : SameSlot u t)
    (he : stepPc oneRead ans s (.setID id) = some (u, new)) : Books t (led.note s (.setID id)) := by
  have hframe := hinv.frames th (List.mem_of_getElem? hi) _ (by rw [hst]; exact List.mem_cons_self)
  cases he
  have harming : s.phase = .arming := hframe.1
  refine h.vacant hi hst hinv.tok_le ht (h.arming harming) hut.accepted hut.sessionCnt
    hut.activeSlotCnt hut.flying rfl ⟨rfl, rfl⟩ ?_
  rw [hut.phase.trans harming]
  refine fun hvacant => ⟨hvacant, fun q hq => ?_⟩
  rw [List.mem_singleton.mp hq]
  trivial

/-- Nothing has been outstanding, so an `AcceptEx` that is posted is the one there is. -/
theorem books_acceptEx (h : Books s led) (hinv : Inv s)
    (hs : Stacks s) (hi : s.threads[i]? = some th) (hst : th.stack = .acceptEx :: rest)
    (ht : t.threads = s.threads.set i (th.put s.sessionID (new ++ rest))) (hut : SameSlot u t)
    (he : stepPc oneRead ans s .acceptEx = some (u, new)) : Books t (led.note s .acceptEx) := by
  have hframe := hinv.frames th (List.mem_of_getElem? hi) _ (by rw [hst]; exact List.mem_cons_self)
  have hall : s.tok ≤ Pc.tok .acceptEx := hinv.tok_le
  have hslots := slots_run hi hst ht
  have harming : s.phase = .arming := hframe.1
  have hvacant : Vacant s led := h.arming harming
  simp only [stepPc] at he
  split at he <;> cases he
  · obtain ⟨hrefs, -, -, -, hnil⟩ := hinv.arming harming hi hst rfl
    have hflying : t.flying = [⟨.accept, s.sessionID⟩] := by
      have hissue : t.flying = (s.issue .accept).flying := hut.flying
      rw [hissue, State.issue, hnil]
      rfl
    have hactive : t.activeSlotCnt = s.activeSlotCnt := hut.activeSlotCnt
    have haccepted : t.accepted = s.accepted := hut.accepted
    have hnot := haccepted.trans hvacant.accepted
    have hzero := hvacant.slots
    have haccepts := accepts_run hi hst ht
    have hnew : Pool.weigh Pc.accepts [Pc.setCount] = 0 := rfl
    have hone : Pool.weigh Completion.accepts t.flying = 1 := by
      rw [hflying]
      rfl
    rw [accepts_eq_zero hs hrefs, hnew, hone] at haccepts
    simp only [Pc.counts, Pc.accepts, Pool.weigh_singleton] at hslots haccepts
    refine .turn hi hst hall ht ?_ ?_ ?_ (Eq.trans hut.sessionCnt h.sessions)
      (by omega) fun _ => hnot
    · rw [hut.phase]
      exact ⟨Vacant.owed ⟨hnot, hvacant.players, by omega⟩, by omega⟩
    · intro q hq
      rw [List.mem_singleton.mp hq]
      trivial
    · rw [hflying]
      intro c hc hop
      rw [List.mem_singleton.mp hc] at hop
      cases hop
  · refine h.vacant hi hst hall ht hvacant hut.accepted hut.sessionCnt hut.activeSlotCnt hut.flying
      rfl ⟨rfl, rfl⟩ ?_
    rw [hut.phase.trans harming]
    refine fun hvacant => ⟨hvacant, fun q hq => ?_⟩
    rw [List.mem_singleton.mp hq]
    exact hvacant

theorem books_turn (h : Books s led) (hinv : Inv s) (hs : Stacks s) (hi : s.threads[i]? = some th)
    (hst : th.stack = pc :: rest) (htok : pc.tok = 1)
    (ht : t.threads = s.threads.set i (th.put s.sessionID (new ++ rest))) (hut : SameSlot u t)
    (he : stepPc oneRead ans s pc = some (u, new)) : Books t (led.note s pc) := by
  cases pc with
  | postRelease => exact books_postRelease h hinv hi hst ht hut he
  | release => exact books_release h hinv hi hst ht hut he
  | releaseSession => exact books_releaseSession h hinv hi hst ht hut he
  | setCount => exact books_setCount h hinv hi hst ht hut he
  | push => exact books_push h hinv hi hst ht hut he
  | testOn => exact books_testOn h hinv hi hst ht hut he
  | drawID => exact books_drawID h hinv hi hst ht hut he
  | setID id => exact books_setID h hinv hi hst ht hut he
  | acceptEx => exact books_acceptEx h hinv hs hi hst ht hut he
  | _ => cases htok

/-- A step of a thread keeps the books. -/
theorem books_run (h : Books s led) (hinv : Inv s) (hs : Stacks s) (hi : s.threads[i]? = some th)
    (hst : th.stack = pc :: rest)
    (ht : t.threads = s.threads.set i (th.put s.sessionID (new ++ rest))) (hut : SameSlot u t)
    (he : stepPc oneRead ans s pc = some (u, new)) : Books t (led.note s pc) := by
  have hheld := hs th (List.mem_of_getElem? hi)
  rw [hst] at hheld
  by_cases htok : pc.tok = 0
  swap
  · have hle := hinv.tok_le
    have hone := frames_pos (w := Pc.tok) hi (q := pc) (by rw [hst]; exact List.mem_cons_self)
    have hframes : s.frames Pc.tok ≤ s.tok := Nat.le_add_right _ _
    exact books_turn h hinv hs hi hst (by omega) ht hut he
  by_cases hfire : pc = .exchangeRelease ∧ s.ioCnt = 0
  · obtain ⟨rfl, h0⟩ := hfire
    have hcount := hinv.count
    have hused := hcount.used h0
    have hphase := h.phase
    rw [hused] at hcount hphase
    have hnone := no_release hi hst (le_of_eq hcount.2.2)
    simp only [stepPc, if_pos h0] at he
    cases he
    have hflying : t.flying = s.flying := hut.flying
    have hactive : t.activeSlotCnt = s.activeSlotCnt := hut.activeSlotCnt
    have hslots := slots_run hi hst ht
    simp only [Pc.counts, Pool.weigh_singleton] at hslots
    have hsame : SameBooks s t := ⟨hut.accepted, hut.sessionID, by omega⟩
    refine h.hand hi hst (le_of_eq hcount.2.2) ht rfl ?_ ?_ ?_ (Eq.trans hut.sessionCnt h.sessions)
      (by rw [hflying]) (.inl hut.accepted)
    · rw [hut.phase]
      trivial
    · intro q hq
      rw [List.mem_singleton.mp hq]
      exact ⟨Owed.congr hphase.1 hsame, hsame.slots.trans hphase.2⟩
    · rw [hflying]
      exact fun c hc hop => absurd hop (hnone c hc)
  have hrel : pc = .exchangeRelease → s.ioCnt ≠ 0 := fun hpc h0 => hfire ⟨hpc, h0⟩
  have hsame := stepPc_same he htok hrel
  by_cases hacc : pc = .acceptCount
  · subst hacc
    exact books_acceptCount h hinv hi hst hheld ht hut he
  by_cases hcnt : pc = .countSlot
  · subst hcnt
    cases he
    have hflying : t.flying = s.flying := hut.flying
    have hactive : t.activeSlotCnt = s.activeSlotCnt + 1 := hut.activeSlotCnt
    have hphase : t.phase = s.phase := hut.phase
    have hslots := slots_run hi hst ht
    have haccepts := accepts_run hi hst ht
    have hnil : ∀ w : Pc → ℕ, Pool.weigh w [] = 0 := fun _ => rfl
    simp only [Pc.counts, Pc.accepts, hnil, hflying] at hslots haccepts
    refine h.keep hi ht ⟨hut.accepted, hut.sessionID, by omega⟩
      (hphase ▸ h.phase) hut.sessionCnt ?_ ?_ (by omega)
    · intro q hq
      rw [hst]
      exact .inl (List.mem_cons_of_mem _ hq)
    · rw [hflying]
      exact fun c hc _ => hc
  have hled : led.note s pc = led := by
    cases pc <;> first | rfl | exact absurd rfl hacc | cases htok
  have hcounts : pc.counts = 0 := by
    cases pc <;> first | rfl | exact absurd rfl hcnt
  rw [hled]
  exact books_quiet h hi hst ht hut (stepPc_quiet he htok hrel hacc hcnt) hsame hcounts

/-- A thread that had nothing to do begins something. -/
theorem books_start (h : Books s led) (hi : s.threads[i]? = some th)
    (hst : th.stack = []) {id : SeqAndIdx} (ht : t.threads = s.threads.set i ⟨[pc], id⟩)
    (hut : SameSlot s { t with phase := s.phase }) (hphase : t.phase.Owes s led)
    (hpc : pc.counts = 0 ∧ pc.accepts = 0 ∧ pc.Owes s led) : Books t led := by
  have hcounts : t.frames Pc.counts = s.frames Pc.counts + _ := frames_start hi hst ht
  have haccepts : t.frames Pc.accepts = s.frames Pc.accepts + _ := frames_start hi hst ht
  have hflying : t.flying = s.flying := hut.flying
  have hactive : t.activeSlotCnt = s.activeSlotCnt := hut.activeSlotCnt
  rw [Pool.weigh_singleton, hpc.1] at hcounts
  rw [Pool.weigh_singleton, hpc.2.1] at haccepts
  have hslots : t.slots = s.slots := by
    unfold State.slots
    omega
  refine h.keep hi ht ⟨hut.accepted, hut.sessionID, hslots⟩ hphase hut.sessionCnt ?_ ?_ ?_
  · intro q hq
    rw [List.mem_singleton.mp hq]
    exact .inr hpc.2.2
  · rw [hflying]
    exact fun c hc _ => hc
  · unfold State.accepts
    rw [hflying]
    omega

theorem books_complete (h : Books s led) {j : ℕ} {c : Completion} {transferred : Bool}
    (hi : s.threads[i]? = some th) (hst : th.stack = []) (hj : s.flying[j]? = some c) :
    Books { s with
      flying := s.flying.eraseIdx j
      threads := s.threads.set i ⟨c.op.handler transferred, c.sessionID⟩ } led := by
  have hframes : ∀ w : Pc → ℕ, State.frames { s with
      flying := s.flying.eraseIdx j
      threads := s.threads.set i ⟨c.op.handler transferred, c.sessionID⟩ } w =
        s.frames w + Pool.weigh w (c.op.handler transferred) := fun w => frames_start hi hst rfl
  have herase := Pool.weigh_eraseIdx (w := Completion.accepts) hj
  have hcounts : Pool.weigh Pc.counts (c.op.handler transferred) = 0 := by
    obtain ⟨op, id⟩ := c
    cases op <;> cases transferred <;> rfl
  have haccepts : Pool.weigh Pc.accepts (c.op.handler transferred) = c.accepts := by
    obtain ⟨op, id⟩ := c
    cases op <;> cases transferred <;> rfl
  refine h.keep hi rfl ⟨rfl, rfl, ?_⟩ h.phase rfl ?_ (fun d hd _ => List.mem_of_mem_eraseIdx hd) ?_
  · unfold State.slots
    rw [hframes, hcounts, Nat.add_zero]
  · intro q hq
    right
    have hq : q ∈ c.op.handler transferred := hq
    by_cases hop : c.op = .release
    · rw [hop] at hq
      rw [List.mem_singleton.mp hq]
      exact h.flying c (List.mem_of_getElem? hj) hop
    · apply Pc.owes_of_tok
      have hzero : Pool.weigh Pc.tok (c.op.handler transferred) = 0 := by
        cases hc : c.op <;> first | exact absurd hc hop | cases transferred <;> rfl
      exact Pool.weigh_eq_zero.mp hzero q hq
  · unfold State.accepts
    rw [hframes, haccepts]
    simp only
    omega

theorem books_step {l : Step} (h : Books s led) (hinv : Inv s) (hs : Stacks s)
    (he : next oneRead s l = some t) :
    Books t (led.after s l) := by
  cases l with
  | call i id call =>
    obtain ⟨th, hi, he⟩ := Option.bind_eq_some_iff.mp he
    split_ifs at he with hst
    cases he
    exact books_start h hi hst rfl ⟨rfl, rfl, rfl, rfl, rfl, rfl, rfl, rfl⟩ h.phase ⟨rfl,
      rfl, trivial⟩
  | complete i j transferred =>
    obtain ⟨th, hi, he⟩ := Option.bind_eq_some_iff.mp he
    obtain ⟨c, hj, he⟩ := Option.bind_eq_some_iff.mp he
    split_ifs at he with hst
    cases he
    exact books_complete h hi hst hj
  | arm i =>
    obtain ⟨th, hi, he⟩ := Option.bind_eq_some_iff.mp he
    split_ifs at he with hst
    cases he
    have hphase := h.phase
    rw [hst.2] at hphase
    exact books_start h hi hst.1 rfl ⟨rfl, rfl, rfl, rfl, rfl, rfl, rfl, rfl⟩ hphase ⟨rfl,
      rfl, trivial⟩
  | run i ans =>
    obtain ⟨th, pc, rest, u, new, hi, hst, hstep, rfl⟩ := run_cases he
    have hled : led.after s (.run i ans) = led.note s pc := by
      simp only [Ledger.after, hi, Option.bind_some, hst, List.head?_cons, Option.map_some,
        Option.getD_some]
    rw [hled]
    exact books_run (u := u) h hinv hs hi hst rfl ⟨rfl, rfl, rfl, rfl, rfl, rfl, rfl, rfl⟩ hstep
  | otherSlot | stop =>
    cases he
    exact ⟨h.phase.congr ⟨rfl, rfl, rfl⟩, fun th hth q hq =>
      (h.frames th hth q hq).congr ⟨rfl, rfl, rfl⟩, h.flying, h.sessions, h.accepts, h.unaccepted⟩

/-! ### Who has the slot -/

/-- A thread that stopped at an `RT_ASSERT`. -/
def Pc.fails : Pc → ℕ
  | .failed => 1
  | _ => 0

/-- A release that is about to be posted. -/
def Pc.posts : Pc → ℕ
  | .postRelease => 1
  | _ => 0

/-- A slot that is not in use and not in the stack is in somebody's hands, and
the sessions it has been in use for have been released. -/
structure Handed (s : State) (led : Ledger) : Prop where
  held : s.phase = .releasing ∨ s.phase = .armed → s.tok + s.frames Pc.fails ≠ 0
  arming : s.phase = .arming → s.tok ≠ 0 ∨ s.bOn = false
  opened : ∀ id ∈ led.opened, id ∈ s.released ∨
    id = s.sessionID ∧ (s.phase = .used ∨ s.phase = .releasing ∧ s.frames Pc.posts ≠ 0)

/-- What a thread that has not been handed the slot leaves. -/
theorem stepPc_hands (he : stepPc oneRead ans s pc = some (u, new)) (htok : pc.tok = 0)
    (hrel : pc = .exchangeRelease → s.ioCnt ≠ 0) : u.bOn = s.bOn ∧
      Pool.weigh Completion.tok u.flying = Pool.weigh Completion.tok s.flying := by
  by_cases hacc : pc = .acceptCount
  · subst hacc
    simp only [stepPc] at he
    split_ifs at he <;> cases he <;> exact ⟨rfl, rfl⟩
  by_cases hcnt : pc = .countSlot
  · subst hcnt
    cases he
    exact ⟨rfl, rfl⟩
  have hquiet := stepPc_quiet he htok hrel hacc hcnt
  obtain ⟨extra, hflying, hextra⟩ := hquiet.flying
  have hnone : Pool.weigh Completion.tok extra = 0 :=
    Pool.weigh_eq_zero.mpr fun c hc => if_neg (hextra c hc).1
  refine ⟨hquiet.bOn, ?_⟩
  rw [hflying, Pool.weigh_append, hnone, Nat.add_zero]

/-- All sessions the slot has been in use for have been released when a thread has been handed it to
arm it. -/
theorem Handed.released (h : Handed s led) (hinv : Inv s) (hi : s.threads[i]? = some th)
    (hst : th.stack = pc :: rest) (htok : pc.tok = 1) (hpost : pc ≠ .postRelease)
    (hused : s.phase ≠ .used) :
    ∀ id ∈ led.opened, id ∈ s.released := by
  intro id hid
  rcases h.opened id hid with hrel | ⟨-, hphase | ⟨-, hposts⟩⟩
  · exact hrel
  · exact absurd hphase hused
  · exfalso
    apply hposts
    obtain ⟨hrest, hothers, -⟩ := others_of_tok hi hst (htok.symm ▸ hinv.tok_le)
    refine Pool.weigh_eq_zero.mpr fun c hc => Pool.weigh_eq_zero.mpr fun q hq => ?_
    obtain ⟨j, hj⟩ := List.mem_iff_getElem?.mp hc
    have hzero : ∀ {q : Pc}, q.tok = 0 → q.posts = 0 := fun {q} hq => by
      cases q <;> first | rfl | cases hq
    by_cases hji : j = i
    · subst hji
      rw [hi] at hj
      cases hj
      rw [hst] at hq
      rcases List.mem_cons.mp hq with rfl | hq
      · cases q <;> first | rfl | exact absurd rfl hpost
      · exact hzero (hrest q hq)
    · exact hzero (Pool.weigh_eq_zero.mp (Pool.weigh_others hi hothers hji hj) q hq)

/-- A slot that is in somebody's hands, all of whose sessions have been released. -/
theorem Handed.of_tok (htok : t.tok ≠ 0) (hopened : ∀ id ∈ led.opened, id ∈ t.released) :
    Handed t led :=
  ⟨fun _ => by omega, fun _ => .inl htok, fun id hid => .inl (hopened id hid)⟩

/-- The exchange that finds no reference left hands the slot to the thread that made it. -/
theorem handed_exchange (h : Handed s led) (hinv : Inv s) (hi : s.threads[i]? = some th)
    (hst : th.stack = .exchangeRelease :: rest)
    (ht : t.threads = s.threads.set i (th.put s.sessionID (new ++ rest))) (hut : SameSlot u t)
    (he : stepPc oneRead ans s .exchangeRelease = some (u, new)) (h0 : s.ioCnt = 0) :
    Handed t (led.note s .exchangeRelease) := by
  have hframes : ∀ w : Pc → ℕ, t.frames w + w .exchangeRelease = s.frames w + Pool.weigh w new :=
    fun w => frames_run hi hst ht
  have htoks := hframes Pc.tok
  have hposts := hframes Pc.posts
  have ht : t.tok = t.frames Pc.tok + Pool.weigh Completion.tok t.flying := rfl
  have hused := hinv.count.used h0
  simp only [stepPc, if_pos h0] at he
  cases he
  have hnew : ∀ w : Pc → ℕ, Pool.weigh w [Pc.postRelease] = w .postRelease :=
    fun w => Pool.weigh_singleton _
  simp only [hnew, Pc.tok, Pc.posts] at htoks hposts
  have hphase : t.phase = .releasing := hut.phase
  refine ⟨fun _ => by omega, fun harming => absurd (hphase.symm.trans harming) (by simp),
    fun id hid => ?_⟩
  rcases h.opened id hid with hrel | ⟨rfl, -⟩
  · exact .inl (hut.released ▸ hrel)
  · exact .inr ⟨hut.sessionID.symm, .inr ⟨hphase, by omega⟩⟩

/-- A step of a thread that has not been handed the slot, and is not handed it. -/
theorem handed_kept (h : Handed s led) (hi : s.threads[i]? = some th)
    (hst : th.stack = pc :: rest)
    (ht : t.threads = s.threads.set i (th.put s.sessionID (new ++ rest))) (hut : SameSlot u t)
    (he : stepPc oneRead ans s pc = some (u, new)) (htok : pc.tok = 0)
    (hrel : pc = .exchangeRelease → s.ioCnt ≠ 0) : Handed t (led.note s pc) := by
  have hframes : ∀ w : Pc → ℕ, t.frames w + w pc = s.frames w + Pool.weigh w new :=
    fun w => frames_run hi hst ht
  have htoks := hframes Pc.tok
  have hfails := hframes Pc.fails
  have hposts := hframes Pc.posts
  have hs : s.tok = s.frames Pc.tok + Pool.weigh Completion.tok s.flying := rfl
  have ht : t.tok = t.frames Pc.tok + Pool.weigh Completion.tok t.flying := rfl
  have hsame := stepPc_same he htok hrel
  obtain ⟨hbOn, hflying⟩ := stepPc_hands he htok hrel
  have hphase := hut.phase.trans hsame.phase
  have hfailed : pc ≠ .failed := by
    rintro rfl
    cases he
  have hpc : pc.fails = 0 ∧ pc.posts = 0 := by
    cases pc <;> first | exact ⟨rfl, rfl⟩ | exact absurd rfl hfailed | cases htok
  have hopened : (led.note s pc).opened = led.opened := by
    by_cases hacc : pc = .acceptCount
    · subst hacc
      simp only [Ledger.note]
      split_ifs <;> rfl
    · cases pc <;> first | rfl | exact absurd rfl hacc | cases htok
  rw [← hut.flying] at hflying
  refine ⟨fun hp => ?_, fun hp => ?_, fun id hid => ?_⟩
  · have hne := h.held (hphase ▸ hp)
    omega
  · rcases h.arming (hphase.symm.trans hp) with hne | hoff
    · exact .inl (by omega)
    · exact .inr (hut.bOn.trans (hbOn.trans hoff))
  · rw [hopened] at hid
    rw [hut.released, hsame.released, hut.sessionID, hsame.sessionID, hphase]
    rcases h.opened id hid with hrel | ⟨hid, hused | ⟨hreleasing, hne⟩⟩
    · exact .inl hrel
    · exact .inr ⟨hid, .inl hused⟩
    · exact .inr ⟨hid, .inr ⟨hreleasing, by omega⟩⟩

/-- A step of the thread that has been handed the slot. -/
theorem handed_turn (h : Handed s led) (hinv : Inv s) (hi : s.threads[i]? = some th)
    (hst : th.stack = pc :: rest)
    (ht : t.threads = s.threads.set i (th.put s.sessionID (new ++ rest))) (hut : SameSlot u t)
    (he : stepPc oneRead ans s pc = some (u, new)) (hone : pc.tok = 1) :
    Handed t (led.note s pc) := by
  have hframes : ∀ w : Pc → ℕ, t.frames w + w pc = s.frames w + Pool.weigh w new :=
    fun w => frames_run hi hst ht
  have htoks := hframes Pc.tok
  have hfails := hframes Pc.fails
  have ht : t.tok = t.frames Pc.tok + Pool.weigh Completion.tok t.flying := rfl
  have hframe := hinv.frames th (List.mem_of_getElem? hi) pc (by rw [hst]; exact List.mem_cons_self)
  have hpos := frames_pos (w := Pc.tok) hi (q := pc) (by rw [hst]; exact List.mem_cons_self)
  rw [hone] at htoks hpos
  have hreleased : pc ≠ .postRelease → ∀ {p : Phase}, s.phase = p → p ≠ .used →
      t.released = s.released → ∀ id ∈ led.opened, id ∈ t.released :=
    fun hpost p hp hne hrel id hid => hrel ▸ h.released hinv hi hst hone hpost (hp ▸ hne) id hid
  have hphased : ∀ {p q : Phase}, t.phase = p → p ≠ q → t.phase ≠ q := fun hp hne => hp ▸ hne
  have hnew : ∀ (w : Pc → ℕ) (q : Pc), Pool.weigh w [q] = w q := fun w q => Pool.weigh_singleton q
  cases pc with
  | postRelease =>
    cases he
    have hflying : t.flying = s.flying ++ [⟨.release, s.sessionID⟩] := hut.flying
    have hrel : t.released = s.released ++ [s.sessionID] := hut.released
    have hpos : Pool.weigh Completion.tok t.flying = Pool.weigh Completion.tok s.flying + 1 := by
      rw [hflying, Pool.weigh_append, Pool.weigh_singleton]
      rfl
    refine .of_tok (by omega) fun id hid => ?_
    rw [hrel]
    rcases h.opened id hid with hmem | ⟨rfl, -⟩
    · exact List.mem_append_left _ hmem
    · exact List.mem_append_right _ List.mem_cons_self
  | release =>
    cases he
    simp only [hnew, Pc.tok] at htoks
    have hopened : (led.note s .release).opened = led.opened := by
      simp only [Ledger.note]
      split_ifs <;> rfl
    refine .of_tok (by omega) fun id hid => ?_
    rw [hopened] at hid
    exact hreleased (by simp) hframe (by simp) hut.released id hid
  | releaseSession =>
    simp only [stepPc] at he
    split at he <;> cases he
    all_goals
      simp only [hnew, Pc.tok, Pc.fails] at htoks hfails
      have harming := hphased (q := .arming) (Eq.trans hut.phase hframe) (by simp)
      exact ⟨fun _ => by omega, fun hp => absurd hp harming,
        fun id hid => .inl (hreleased (by simp) hframe (by simp) hut.released id hid)⟩
  | push =>
    cases he
    have hphase : t.phase = .free := hut.phase
    refine ⟨?_, fun hp => absurd hp (hphased hphase (by simp)), fun id hid => .inl ?_⟩
    · rintro (hp | hp) <;> exact absurd hp (hphased hphase (by simp))
    · rcases hframe with hp | hp <;>
        exact hreleased (by simp) hp (by simp) hut.released id hid
  | testOn =>
    cases he
    have hphase : t.phase = .arming := Eq.trans hut.phase hframe
    refine ⟨?_, fun _ => ?_,
      fun id hid => .inl (hreleased (by simp) hframe (by simp) hut.released id hid)⟩
    · rintro (hp | hp) <;> exact absurd hp (hphased hphase (by simp))
    · by_cases hon : s.bOn = true
      · simp only [hon, if_true, hnew, Pc.tok] at htoks
        exact .inl (by omega)
      · exact .inr (hut.bOn.trans (Bool.not_eq_true _ ▸ hon))
  | drawID =>
    cases he
    simp only [hnew, Pc.tok] at htoks
    exact .of_tok (by omega) (hreleased (by simp) hframe (by simp) hut.released)
  | setID id =>
    cases he
    simp only [hnew, Pc.tok] at htoks
    exact .of_tok (by omega) (hreleased (by simp) hframe.1 (by simp) hut.released)
  | acceptEx =>
    simp only [stepPc] at he
    split at he <;> cases he
    all_goals
      simp only [hnew, Pc.tok] at htoks
      exact .of_tok (by omega) (hreleased (by simp) hframe.1 (by simp) hut.released)
  | setCount =>
    cases he
    have hphase : t.phase = .used := hut.phase
    refine ⟨?_, fun hp => absurd hp (hphased hphase (by simp)), fun id hid => ?_⟩
    · rintro (hp | hp) <;> exact absurd hp (hphased hphase (by simp))
    · rcases List.mem_append.mp hid with hid | hid
      · exact .inl (hreleased (by simp) hframe (by simp) hut.released id hid)
      · exact .inr ⟨(List.mem_singleton.mp hid).trans hut.sessionID.symm, .inl hphase⟩
  | _ => cases hone

theorem handed_run (h : Handed s led) (hinv : Inv s) (hi : s.threads[i]? = some th)
    (hst : th.stack = pc :: rest)
    (ht : t.threads = s.threads.set i (th.put s.sessionID (new ++ rest))) (hut : SameSlot u t)
    (he : stepPc oneRead ans s pc = some (u, new)) : Handed t (led.note s pc) := by
  by_cases htok : pc.tok = 0
  · by_cases hfire : pc = .exchangeRelease ∧ s.ioCnt = 0
    · obtain ⟨rfl, h0⟩ := hfire
      exact handed_exchange h hinv hi hst ht hut he h0
    · exact handed_kept h hi hst ht hut he htok fun hpc h0 => hfire ⟨hpc, h0⟩
  · have hone : pc.tok = 1 := by
      cases pc <;> first | rfl | exact absurd rfl htok
    exact handed_turn h hinv hi hst ht hut he hone

theorem Handed.of_eq (h : Handed s led) (hphase : t.phase = s.phase) (htok : s.tok ≤ t.tok)
    (hframes : ∀ w, s.frames w ≤ t.frames w) (hbOn : s.bOn = false → t.bOn = false)
    (hid : t.sessionID = s.sessionID) (hrel : t.released = s.released) : Handed t led where
  held hp := by
    have hne := h.held (hphase ▸ hp)
    have hle := hframes Pc.fails
    omega
  arming hp := by
    rcases h.arming (hphase.symm.trans hp) with hne | hoff
    · exact .inl (by omega)
    · exact .inr (hbOn hoff)
  opened id hmem := by
    rw [hrel, hid, hphase]
    rcases h.opened id hmem with hmem | ⟨hid, hused | ⟨hp, hne⟩⟩
    · exact .inl hmem
    · exact .inr ⟨hid, .inl hused⟩
    · have hle := hframes Pc.posts
      exact .inr ⟨hid, .inr ⟨hp, by omega⟩⟩

theorem handed_step {l : Step} (h : Handed s led) (hinv : Inv s) (he : next oneRead s l = some t) :
    Handed t (led.after s l) := by
  cases l with
  | call i id call =>
    obtain ⟨th, hi, he⟩ := Option.bind_eq_some_iff.mp he
    split_ifs at he with hst
    cases he
    have hle : ∀ w, s.frames w ≤
        State.frames { s with threads := s.threads.set i (th.put s.sessionID [.lock id call]) } w :=
      fun w => (Nat.le_add_right _ _).trans_eq (frames_start hi hst rfl).symm
    exact h.of_eq rfl (Nat.add_le_add_right (hle Pc.tok) _) hle (fun hoff => hoff) rfl rfl
  | complete i j transferred =>
    obtain ⟨th, hi, he⟩ := Option.bind_eq_some_iff.mp he
    obtain ⟨c, hj, he⟩ := Option.bind_eq_some_iff.mp he
    split_ifs at he with hst
    cases he
    have hframes : ∀ w : Pc → ℕ, State.frames { s with
        flying := s.flying.eraseIdx j
        threads := s.threads.set i ⟨c.op.handler transferred, c.sessionID⟩ } w =
          s.frames w + Pool.weigh w (c.op.handler transferred) := fun w => frames_start hi hst rfl
    have herase := Pool.weigh_eraseIdx (w := Completion.tok) hj
    have hhandler : Pool.weigh Pc.tok (c.op.handler transferred) = c.tok := by
      obtain ⟨op, id⟩ := c
      cases op <;> cases transferred <;> rfl
    have htok := hframes Pc.tok
    refine h.of_eq rfl ?_ (fun w => (Nat.le_add_right _ _).trans_eq (hframes w).symm)
      (fun hoff => hoff) rfl rfl
    show s.frames Pc.tok + Pool.weigh Completion.tok s.flying ≤
      State.frames _ Pc.tok + Pool.weigh Completion.tok (s.flying.eraseIdx j)
    omega
  | arm i =>
    obtain ⟨th, hi, he⟩ := Option.bind_eq_some_iff.mp he
    split_ifs at he with hst
    cases he
    have hframes : State.frames { s with
        phase := .arming, threads := s.threads.set i (th.put s.sessionID [.testOn]) } Pc.tok =
          s.frames Pc.tok + Pool.weigh Pc.tok [.testOn] := frames_start hi hst.1 rfl
    have hone : Pool.weigh Pc.tok [.testOn] = 1 := rfl
    refine ⟨by simp, fun _ => .inl ?_, fun id hid => .inl ?_⟩
    · show State.frames _ Pc.tok + _ ≠ 0
      omega
    · rcases h.opened id hid with hmem | ⟨-, hp | ⟨hp, -⟩⟩
      · exact hmem
      · rw [hst.2] at hp
        cases hp
      · rw [hst.2] at hp
        cases hp
  | run i ans =>
    obtain ⟨th, pc, rest, u, new, hi, hst, hstep, rfl⟩ := run_cases he
    have hled : led.after s (.run i ans) = led.note s pc := by
      simp only [Ledger.after, hi, Option.bind_some, hst, List.head?_cons, Option.map_some,
        Option.getD_some]
    rw [hled]
    exact handed_run (u := u) h hinv hi hst rfl ⟨rfl, rfl, rfl, rfl, rfl, rfl, rfl, rfl⟩ hstep
  | otherSlot | stop =>
    cases he
    exact h.of_eq rfl le_rfl (fun _ => le_rfl) (by simp) rfl rfl

end

/-! ### Nothing leaks -/

/-- A slot whose session has been released owes nothing: every session it has been in use for has
had its release posted, the counters have got back what it added to them, and no player has been
left. -/
structure GivenBack (s : State) (led : Ledger) : Prop where
  released : ∀ id ∈ led.opened, id ∈ s.released
  sessionCnt : s.sessionCnt = 0
  slots : s.slots = 0
  players : led.players = []

/-- While the slot is in use its count is the number of references, and when that is 0 a thread is
about to release it; once it is being released the release is in somebody's hands; and it comes back
to the stack, or is armed again, with everything given back. If no thread has anything to do with
the slot and nothing is outstanding, it has come that far. -/
structure NoLeak (s : State) (led : Ledger) : Prop where
  count : s.phase = .used → s.ioCnt = s.refs
  last : s.phase = .used → s.refs = 0 → ∃ th ∈ s.threads, .exchangeRelease ∈ th.stack
  releasing : s.phase = .releasing → s.tok + s.frames Pc.fails ≠ 0
  back : s.phase = .free ∨ s.phase = .arming → GivenBack s led
  idle : (∀ th ∈ s.threads, th.stack = []) → s.flying = [] →
    (s.phase = .free ∨ s.phase = .arming ∧ s.bOn = false) ∧ s.activeSlotCnt = 0 ∧ GivenBack s led

theorem exists_frame {s : State} {w : Pc → ℕ} (h : s.frames w ≠ 0) :
    ∃ th ∈ s.threads, ∃ q ∈ th.stack, w q ≠ 0 := by
  by_contra hnone
  push Not at hnone
  exact h (Pool.weigh_eq_zero.mpr fun th hth => Pool.weigh_eq_zero.mpr fun q hq =>
    hnone th hth q hq)

theorem frames_idle {s : State} (h : ∀ th ∈ s.threads, th.stack = []) (w : Pc → ℕ) :
    s.frames w = 0 := by
  refine Pool.weigh_eq_zero.mpr fun th hth => ?_
  rw [h th hth]
  rfl

theorem noLeak_of {s : State} {led : Ledger} (hx : Exact s) (hb : Books s led) (hh : Handed s led) :
    NoLeak s led := by
  have hlast : s.phase = .used → s.refs = 0 → ∃ th ∈ s.threads, .exchangeRelease ∈ th.stack := by
    intro hused h0
    obtain ⟨th, hth, q, hq, hne⟩ := exists_frame (hx.pending hused ((hx.count hused).trans h0))
    have hq' : q = .exchangeRelease := by
      cases q <;> first | rfl | exact absurd rfl hne
    exact ⟨th, hth, hq' ▸ hq⟩
  have hback : s.phase = .free ∨ s.phase = .arming → GivenBack s led := by
    intro hp
    have hvacant : Vacant s led := by
      have hphase := hb.phase
      rcases hp with hp | hp <;> rw [hp] at hphase <;> exact hphase
    have hsessions := hb.sessions
    rw [hvacant.players] at hsessions
    refine ⟨fun id hid => ?_, hsessions, hvacant.slots, hvacant.players⟩
    rcases hh.opened id hid with hmem | ⟨-, hused | ⟨hrel, -⟩⟩
    · exact hmem
    · rcases hp with hp | hp <;> rw [hused] at hp <;> cases hp
    · rcases hp with hp | hp <;> rw [hrel] at hp <;> cases hp
  refine ⟨hx.count, hlast, fun hp => hh.held (.inl hp), hback, fun hidle hnil => ?_⟩
  have hzero := frames_idle hidle
  have htok : s.tok = 0 := by
    show s.frames Pc.tok + Pool.weigh Completion.tok s.flying = 0
    rw [hzero, hnil]
    rfl
  have hphase : s.phase = .free ∨ s.phase = .arming ∧ s.bOn = false := by
    cases hp : s.phase with
    | used =>
      have hrefs : s.refs = 0 := by
        unfold State.refs
        rw [hnil, Pool.weigh_eq_zero.mpr fun th hth => refs_idle (hidle th hth)]
        rfl
      obtain ⟨th, hth, hmem⟩ := hlast hp hrefs
      rw [hidle th hth] at hmem
      cases hmem
    | releasing => exact absurd (hzero Pc.fails) (by have := hh.held (.inl hp); omega)
    | armed => exact absurd (hzero Pc.fails) (by have := hh.held (.inr hp); omega)
    | free => exact .inl rfl
    | arming =>
      rcases hh.arming hp with hne | hoff
      · exact absurd htok hne
      · exact .inr ⟨rfl, hoff⟩
  have hgiven := hback (by rcases hphase with hp | hp <;> [exact .inl hp; exact .inr hp.1])
  refine ⟨hphase, ?_, hgiven⟩
  have hslots := hgiven.slots
  unfold State.slots at hslots
  rw [hzero] at hslots
  simpa using hslots

theorem leak_invariant (oneRead : Bool) :
    ((ledgered oneRead).restrict fun p l => Returned p.1 l).Invariant
      fun p => (Stacks p.1 ∧ Inv p.1) ∧ Exact p.1 ∧ Books p.1 p.2 ∧ Handed p.1 p.2 := by
  refine System.restrict_invariant ?_ ?_
  · rintro ⟨s, led⟩ ⟨h, hled⟩
    have h : Initial s := h
    have hled : led = ⟨[s.sessionID], []⟩ := hled
    have hzero := frames_idle h.threads
    have hrefs : s.refs = 1 := by
      unfold State.refs
      rw [h.flying, Pool.weigh_eq_zero.mpr fun th hth => refs_idle (h.threads th hth)]
      rfl
    have hslots : s.slots = 1 := by
      unfold State.slots
      rw [hzero, h.activeSlotCnt]
      rfl
    have haccepts : s.accepts = 1 := by
      unfold State.accepts
      rw [hzero, h.flying]
      rfl
    have howed : Owed s led := by
      unfold Owed
      rw [hled, h.accepted]
      rfl
    refine ⟨⟨h.stacks, h.inv⟩, ⟨fun _ => h.ioCnt.trans hrefs.symm, fun _ h0 => ?_⟩, ?_, ?_⟩
    · rw [h.ioCnt] at h0
      cases h0
    · refine ⟨?_, ?_, ?_, ?_, haccepts.le, fun _ => h.accepted⟩
      · show s.phase.Owes s led
        rw [h.phase]
        exact ⟨howed, hslots⟩
      · intro th hth q hq
        rw [h.threads th hth] at hq
        cases hq
      · intro c _ _
        exact ⟨howed, hslots⟩
      · show s.sessionCnt = _
        rw [h.sessionCnt, hled]
        rfl
    · refine ⟨?_, ?_, ?_⟩
      · show s.phase = .releasing ∨ s.phase = .armed → _
        rw [h.phase]
        rintro (hp | hp) <;> cases hp
      · show s.phase = .arming → _
        rw [h.phase]
        exact nofun
      · intro id hid
        rw [hled] at hid
        exact .inr ⟨List.mem_singleton.mp hid, .inl h.phase⟩
  · rintro ⟨s, led⟩ ⟨t, led'⟩ l ⟨⟨hs, hinv⟩, hx, hb, hh⟩ hr he
    obtain ⟨u, hu, hut⟩ := Option.map_eq_some_iff.mp he
    cases hut
    exact ⟨⟨stacks_step hs hu, inv_step hinv hs hr.counted hu⟩, exact_step hx hinv hs hr hu,
      books_step hb hinv hs hu, handed_step hh hinv hu⟩

/-- In every run in which the counts are set in time and every call that fails, fails
with an error of `checkAndHandleIoError`, no slot leaks, whether an `AcceptEx` has failed
or not and in whatever order the threads and the completions come. -/
theorem no_leak (oneRead : Bool) {p : State × Ledger}
    (h : ((ledgered oneRead).restrict fun p l => Returned p.1 l).Reachable p) : NoLeak p.1 p.2 := by
  obtain ⟨-, hx, hb, hh⟩ := (leak_invariant oneRead).reachable h
  exact noLeak_of hx hb hh

/-- `Returned`, evaluated on the small counts of a run. -/
def returned (s : State) : Step → Bool
  | .run i ans =>
    decide (s.ioCnt < if s.phase = .used then 16383 else 32767) && decide (ans.io ≠ .otherError) &&
      (decide ((s.threads[i]?).bind (·.stack.head?) ≠ some .setCount) || decide (s.refs = 1))
  | _ => true

theorem returned_of {s : State} {l : Step} (h : returned s l = true) : Returned s l := by
  cases l with
  | run i ans =>
    intro th pc rest hi hst
    simp only [returned, hi, Option.bind_some, hst, List.head?_cons, Bool.and_eq_true,
      Bool.or_eq_true, decide_eq_true_eq] at h
    obtain ⟨⟨hlt, hio⟩, hset⟩ := h
    have hcnt : s.ioCnt < if s.phase = .used then 65535 else 32767 := by
      split_ifs at hlt ⊢ <;> omega
    unfold Pc.Returns
    split
    · rcases hset with hset | hset
      · exact absurd rfl hset
      · exact hset
    all_goals first | exact hlt | exact hcnt | exact hio | trivial
  | _ => trivial

/-- A session is accepted, and its `WSARecv` fails. -/
def refused (io : IoResult) : List Step :=
  [.complete 0 0 true] ++ go 0 5 ++ [.run 0 { Answer.ok with io }]

/-- After an error that `checkAndHandleIoError` has a case for, the slot comes back. -/
def refusedHandled : State × Ledger :=
  ⟨⟨16384, ⟨0, 0⟩, 1, false, false, true, .empty, 0, 0, [],
    [⟨[], ⟨0, 0⟩⟩, ⟨[], ⟨0, 0⟩⟩], .free, [⟨0, 0⟩]⟩, ⟨[⟨0, 0⟩], []⟩⟩

theorem no_leak_refusedHandled : NoLeak refusedHandled.1 refusedHandled.2 := by
  have hinit : ((ledgered false).restrict fun p l => Returned p.1 l).init (start, ⟨[⟨0, 0⟩], []⟩) :=
    ⟨start_init false, rfl⟩
  exact no_leak false (p := refusedHandled)
    (System.Reachable.execIf (g := fun p l => returned p.1 l) (fun _ _ => returned_of)
    (refused .handledError ++ go 0 5 ++ [.complete 0 0 false] ++ go 0 3) (.start hinit) rfl)

/-- After another error, such as that of a socket that is not connected, the
count stays at 1 and the slot in use, also when the session has been disconnected. -/
def refusedOther : State × Ledger :=
  ⟨⟨1, ⟨0, 0⟩, 1, false, true, true, .empty, 1, 1, [],
    [⟨[], ⟨0, 0⟩⟩, ⟨[], ⟨0, 0⟩⟩], .used, []⟩, ⟨[⟨0, 0⟩], [⟨0, 0⟩]⟩⟩

theorem refusedOther_leaks :
    (ledgered false).Reachable refusedOther ∧ ¬NoLeak refusedOther.1 refusedOther.2 := by
  have hinit : (ledgered false).init (start, ⟨[⟨0, 0⟩], []⟩) := ⟨start_init false, rfl⟩
  refine ⟨System.Reachable.exec (refused .otherError ++ go 0 1 ++
    [.call 0 ⟨0, 0⟩ .disconnectSession] ++ go 0 4) (.start hinit) rfl, fun h => ?_⟩
  obtain ⟨hphase | ⟨hphase, -⟩, -⟩ := h.idle (by decide) rfl <;> cases hphase

end Slot
end MyMMO
