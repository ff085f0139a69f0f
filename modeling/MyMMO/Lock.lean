/-
# A granted session lock

From the moment `sessionLock(id)` returns true until the matching
`sessionUnLock` the thread holds a reference that its `decr` gives back, so the
count cannot come to 0 and the slot stays with the session `id`. This needs the
count to be what `Counted` says: `registerAcceptEx` may set it to 1 while the
worker that has taken the next `AcceptEx` holds more.
-/
import MyMMO.Slot

namespace MyMMO
namespace Slot

/-- Thread `i` has got `sessionLock(id)` for `call` and not made the matching
`sessionUnLock`, the `decr` above what is left for it to do after. -/
inductive Holds (S : System State Step) (i : ℕ) (id : SeqAndIdx) (call : Call) (rest : List Pc) :
    State → Prop
  | granted {s t : State} {th : Thread} {ans : Answer} : S.Reachable s → s.threads[i]? = some th →
      th.stack = .compareID id call :: rest → S.next s (.run i ans) = some t →
      (t.threads[i]?).map Thread.stack = some (call.body :: .decr :: rest) →
        Holds S i id call rest t
  | step {s t : State} {th : Thread} (l : Step) : Holds S i id call rest s → S.next s l = some t →
      t.threads[i]? = some th → .decr :: rest <:+ th.stack → Holds S i id call rest t

/-- The slot is with `id`, and has not entered release since it has been. -/
structure With (id : SeqAndIdx) (s : State) : Prop where
  sessionID : s.sessionID = id
  used : s.phase = .used
  fresh : id ∉ s.released

/-- A lock that is held protects its session, and a message is queued under a lock for the session
the slot is with. -/
structure LocksProtect (S : System State Step) : Prop where
  held : ∀ i id call rest s, Holds S i id call rest s → With id s
  queued : ∀ s i th msg below, S.Reachable s → s.threads[i]? = some th →
    th.stack = .send (.enQueueMsg msg) :: below →
    ∃ rest, below = .decr :: rest ∧ Holds S i s.sessionID (.sendPost msg) rest s

/-! ### Steps while a reference is held -/

section

variable {oneRead : Bool} {ans : Answer} {s t : State} {i : ℕ} {th : Thread} {pc : Pc}
    {new rest : List Pc}
variable {id : SeqAndIdx} {call : Call}

theorem effect_same (side : SendSide) (e : SendEffect) : Same s (effect { s with side } e) := by
  cases e with
  | uncount => exact ⟨decr_same.phase, decr_same.sessionID, decr_same.released, decr_same.seqID⟩
  | _ => exact ⟨rfl, rfl, rfl, le_rfl⟩

/-- A step of a thread that has not been handed the slot, and does not release it, hands nothing on.
-/
theorem stepPc_same (he : stepPc oneRead ans s pc = some (t, new)) (htok : pc.tok = 0)
    (hrel : pc = .exchangeRelease → s.ioCnt ≠ 0) : Same s t := by
  cases pc with
  | send pc =>
    obtain ⟨r, -, hr⟩ := Option.map_eq_some_iff.mp he
    cases hr
    exact effect_same _ _
  | unlockOther | decr | recvUncount =>
    simp only [stepPc, Option.some.injEq, Prod.mk.injEq] at he
    rw [← he.1]
    exact decr_same
  | exchangeRelease =>
    simp only [stepPc, if_neg (hrel rfl)] at he
    cases he
    exact ⟨rfl, rfl, rfl, le_rfl⟩
  | acceptCount =>
    simp only [stepPc] at he
    split_ifs at he <;> cases he <;> exact ⟨rfl, rfl, rfl, le_rfl⟩
  | wsaRecv =>
    simp only [stepPc] at he
    cases hio : ans.io <;> rw [hio] at he <;> cases he <;> exact ⟨rfl, rfl, rfl, le_rfl⟩
  | postRelease | release | releaseSession | push | testOn | drawID | setID id | acceptEx
  | setCount => cases htok
  | failed => cases he
  | _ =>
    cases he
    exact ⟨rfl, rfl, rfl, le_rfl⟩

/-- While a reference is held a slot in use stays in use, for the same session. -/
theorem Inv.stays_used (h : Inv s) (hused : s.phase = .used) (hheld : s.refs ≠ 0) {l : Step}
    (he : next oneRead s l = some t) : Same s t := by
  have hcount := h.count
  rw [hused] at hcount
  obtain ⟨hle, -, hk⟩ := hcount
  cases l with
  | call i id call =>
    obtain ⟨th, hi, he⟩ := Option.bind_eq_some_iff.mp he
    split_ifs at he
    cases he
    exact ⟨rfl, rfl, rfl, le_rfl⟩
  | complete i j transferred =>
    obtain ⟨th, hi, he⟩ := Option.bind_eq_some_iff.mp he
    obtain ⟨c, hj, he⟩ := Option.bind_eq_some_iff.mp he
    split_ifs at he
    cases he
    exact ⟨rfl, rfl, rfl, le_rfl⟩
  | arm i =>
    obtain ⟨th, hi, he⟩ := Option.bind_eq_some_iff.mp he
    split_ifs at he with hst
    rw [hused] at hst
    cases hst.2
  | run i ans =>
    obtain ⟨th, hi, he⟩ := Option.bind_eq_some_iff.mp he
    rcases hst : th.stack with _ | ⟨pc, rest⟩ <;> rw [hst] at he
    · cases he
    · obtain ⟨⟨u, new⟩, hs, he⟩ := Option.map_eq_some_iff.mp he
      cases he
      have hpos := Pool.le_weigh (w := Thread.tok) hi
      rw [tok_cons hst] at hpos
      unfold State.tok at hk
      have hsame := stepPc_same hs (by omega) fun _ => by omega
      exact ⟨hsame.phase, hsame.sessionID, hsame.released, hsame.seqID⟩
  | otherSlot =>
    cases he
    exact ⟨rfl, rfl, rfl, Nat.le_succ _⟩
  | stop =>
    cases he
    exact ⟨rfl, rfl, rfl, le_rfl⟩

/-! ### Where a locked section begins -/

/-- `sessionLock` on its way to return, and the first step of `sendPost` behind it. -/
def Pc.opens : Pc → Bool
  | .compareID _ _ | .send (.enQueueMsg _) => true
  | _ => false

theorem opens_locks {calls : List (SeqAndIdx × Call)} {qs : List Pc}
    (h : ∀ q ∈ qs, q.opens = false) :
    ∀ q ∈ calls.map (fun c => Pc.lock c.1 c.2) ++ qs, q.opens = false := by
  intro q hq
  rcases List.mem_append.mp hq with hq | hq
  · obtain ⟨c, -, rfl⟩ := List.mem_map.mp hq
    rfl
  · exact h q hq

theorem sendStep_opens {live : Bool} {io : IoResult} {side side' : SendSide} {spc spc' : SendPc}
    {e : SendEffect} (he : sendStep oneRead live id io side spc = some (side', spc', e)) :
    (Pc.send spc').opens = false := by
  have hdecide : ∀ again msgCnt, side.decide again msgCnt = (side', spc', e) →
      (Pc.send spc').opens = false := by
    intro again msgCnt he
    unfold SendSide.decide at he
    split_ifs at he <;> cases he <;> rfl
  cases spc with
  | readSize again =>
    simp only [sendStep] at he
    split_ifs at he
    · exact hdecide _ _ (Option.some.inj he)
    · exact hdecide _ _ (Option.some.inj he)
    · cases he
      rfl
  | rereadSize again => exact hdecide _ _ (Option.some.inj he)
  | deQueueMsg msgCnt cnt =>
    simp only [sendStep] at he
    split_ifs at he
    · split at he
      · cases he
        rfl
      · split_ifs at he <;> cases he <;> rfl
    · cases he
      rfl
  | wsaSend => cases io <;> cases he <;> rfl
  | takeFlag | clearFlag | retakeFlag | testLive =>
    simp only [sendStep] at he
    split_ifs at he <;> cases he <;> rfl
  | done | failed => cases he
  | _ =>
    cases he
    rfl

/-- A step begins a lock, is granted one, or opens nothing. -/
theorem stepPc_opens (he : stepPc oneRead ans s pc = some (t, new)) :
    (∃ id call, pc = .lock id call ∧ s.incr.ioCnt &&& RELEASE_IOCOUNT = 0 ∧
        new = [.compareID id call]) ∨
      (∃ id call, pc = .compareID id call ∧ s.sessionID = id ∧ new = [call.body, .decr]) ∨
      ∀ q ∈ new, q.opens = false := by
  have hone : ∀ q : Pc, q.opens = false → ∀ q' ∈ [q], q'.opens = false := by
    intro q hq q' hq'
    rw [List.mem_singleton.mp hq']
    exact hq
  cases pc with
  | lock id call =>
    simp only [stepPc, Option.some.injEq, Prod.mk.injEq] at he
    obtain ⟨-, rfl⟩ := he
    by_cases hbit : s.incr.ioCnt &&& RELEASE_IOCOUNT = 0
    · exact .inl ⟨id, call, rfl, hbit, if_neg (not_not.mpr hbit)⟩
    · rw [if_pos hbit]
      exact .inr (.inr (by simp))
  | compareID id call =>
    cases he
    by_cases hid : s.sessionID = id
    · exact .inr (.inl ⟨id, call, rfl, hid, if_neg (not_not.mpr hid)⟩)
    · rw [if_pos hid]
      exact .inr (.inr (hone _ rfl))
  | send spc =>
    obtain ⟨r, hs, hr⟩ := Option.map_eq_some_iff.mp he
    cases hr
    refine .inr (.inr ?_)
    split_ifs
    · simp
    · exact hone _ (sendStep_opens hs)
  | decr =>
    simp only [stepPc, Option.some.injEq, Prod.mk.injEq] at he
    obtain ⟨-, rfl⟩ := he
    refine .inr (.inr ?_)
    split_ifs
    · exact hone _ rfl
    · simp
  | exchangeRelease | acceptCount =>
    simp only [stepPc] at he
    split_ifs at he <;> cases he <;> refine .inr (.inr ?_)
    all_goals first | exact opens_locks (hone _ rfl) | exact hone _ rfl | simp
  | completeRecv =>
    cases he
    refine .inr (.inr (opens_locks ?_))
    split_ifs
    · exact hone _ rfl
    · simp
  | accept | registerRecv | testOn =>
    cases he
    refine .inr (.inr ?_)
    split_ifs
    all_goals first | exact hone _ rfl | simp
  | wsaRecv | acceptEx =>
    simp only [stepPc] at he
    cases hio : ans.io <;> rw [hio] at he <;> cases he <;> refine .inr (.inr ?_)
    all_goals first | exact hone _ rfl | simp
  | releaseSession =>
    simp only [stepPc] at he
    split at he <;> cases he <;> exact .inr (.inr (hone _ rfl))
  | unlockOther | countRecv | recvUncount =>
    simp only [stepPc, Option.some.injEq, Prod.mk.injEq] at he
    obtain ⟨-, rfl⟩ := he
    refine .inr (.inr ?_)
    first | exact hone _ rfl | simp
  | failed => cases he
  | _ =>
    cases he
    refine .inr (.inr ?_)
    first | exact hone _ rfl | simp

/-- What begins a section stands on top of a stack. -/
def Buried (s : State) : Prop := ∀ th ∈ s.threads, ∀ q ∈ th.stack.tail, q.opens = false

theorem run_cases (he : next oneRead s (.run i ans) = some t) :
    ∃ th pc rest u new, s.threads[i]? = some th ∧ th.stack = pc :: rest ∧
      stepPc oneRead ans s pc = some (u, new) ∧
      t = { u with threads := s.threads.set i (th.put s.sessionID (new ++ rest)) } := by
  obtain ⟨th, hi, he⟩ := Option.bind_eq_some_iff.mp he
  rcases hst : th.stack with _ | ⟨pc, rest⟩ <;> rw [hst] at he
  · cases he
  · obtain ⟨⟨u, new⟩, hs, he⟩ := Option.map_eq_some_iff.mp he
    exact ⟨th, pc, rest, u, new, hi, hst, hs, he.symm⟩

theorem buried_step {l : Step} (h : Buried s) (he : next oneRead s l = some t) : Buried t := by
  unfold Buried at h ⊢
  cases l with
  | call i id call =>
    obtain ⟨th, hi, he⟩ := Option.bind_eq_some_iff.mp he
    split_ifs at he
    cases he
    exact Pool.forall_set hi h (fun _ _ _ _ hc => hc) nofun
  | complete i j transferred =>
    obtain ⟨th, hi, he⟩ := Option.bind_eq_some_iff.mp he
    obtain ⟨⟨op, id⟩, hj, he⟩ := Option.bind_eq_some_iff.mp he
    split_ifs at he
    cases he
    refine Pool.forall_set hi h (fun _ _ _ _ hc => hc) fun q hq => ?_
    have hdecr : q ∈ [Pc.decr] := by
      cases op
      case release => cases hq
      all_goals exact hq
    rw [List.mem_singleton.mp hdecr]
    rfl
  | arm i =>
    obtain ⟨th, hi, he⟩ := Option.bind_eq_some_iff.mp he
    split_ifs at he
    cases he
    exact Pool.forall_set hi h (fun _ _ _ _ hc => hc) nofun
  | run i ans =>
    obtain ⟨th, pc, rest, u, new, hi, hst, hs, rfl⟩ := run_cases he
    have hrest : ∀ q ∈ rest, q.opens = false := by
      have hth := h th (List.mem_of_getElem? hi)
      rw [hst] at hth
      exact hth
    have htail : ∀ q ∈ new.tail, q.opens = false := by
      rcases stepPc_opens hs with ⟨id, call, -, -, rfl⟩ | ⟨id, call, -, -, rfl⟩ | hnew
      · exact nofun
      · intro q hq
        rw [List.mem_singleton.mp hq]
        rfl
      · exact fun q hq => hnew q (List.mem_of_mem_tail hq)
    refine Pool.forall_set hi h (fun _ _ _ _ hc => hc) fun q hq => ?_
    cases new with
    | nil => exact hrest q (List.mem_of_mem_tail hq)
    | cons p new =>
      rcases List.mem_append.mp hq with hq | hq
      · exact htail q hq
      · exact hrest q hq
  | otherSlot =>
    cases he
    exact h
  | stop =>
    cases he
    exact h

/-- A thread is the one that moved, or stands where it stood. -/
theorem moved {ts : List Thread} {a b : Thread} {j : ℕ} (hj : ts[j]? = some a)
    (hi : (ts.set j b)[i]? = some th) :
    (j = i ∧ th = b) ∨ ts[i]? = some th := by
  by_cases hji : j = i
  · subst hji
    obtain ⟨hlt, -⟩ := List.getElem?_eq_some_iff.mp hj
    rw [List.getElem?_set_self hlt] at hi
    exact .inl ⟨rfl, (Option.some.inj hi).symm⟩
  · rw [List.getElem?_set_ne hji] at hi
    exact .inr hi

/-- What a thread is about to open it stood before already, or it has just incremented the count, or
been granted the lock. -/
theorem opens_cases {l : Step} {q : Pc} {below : List Pc} (h : Buried s)
    (he : next oneRead s l = some t) (hi : t.threads[i]? = some th) (hst : th.stack = q :: below)
    (hq : q.opens = true) :
    s.threads[i]? = some th ∨ ∃ ans th', l = .run i ans ∧ s.threads[i]? = some th' ∧
      ((∃ id call, th'.stack = .lock id call :: below ∧ s.incr.ioCnt &&& RELEASE_IOCOUNT = 0 ∧
          q = .compareID id call) ∨
        ∃ id call rest, th'.stack = .compareID id call :: rest ∧ s.sessionID = id ∧ q = call.body ∧
          below = .decr :: rest) := by
  have hnot : ∀ {stack : List Pc}, th.stack = stack →
      (∀ q' ∈ stack.head?, q'.opens = false) → False := by
    intro stack hstack hhead
    rw [← hstack, hst] at hhead
    rw [hhead q rfl] at hq
    cases hq
  cases l with
  | call j id call =>
    obtain ⟨a, hj, he⟩ := Option.bind_eq_some_iff.mp he
    split_ifs at he
    cases he
    rcases moved hj hi with ⟨-, rfl⟩ | hkept
    · exact (hnot rfl fun q' hq' => by cases hq'; rfl).elim
    · exact .inl hkept
  | complete j k transferred =>
    obtain ⟨a, hj, he⟩ := Option.bind_eq_some_iff.mp he
    obtain ⟨⟨op, id⟩, hk, he⟩ := Option.bind_eq_some_iff.mp he
    split_ifs at he
    cases he
    rcases moved hj hi with ⟨-, rfl⟩ | hkept
    · refine (hnot rfl fun q' hq' => ?_).elim
      cases op <;> cases transferred <;> cases hq' <;> rfl
    · exact .inl hkept
  | arm j =>
    obtain ⟨a, hj, he⟩ := Option.bind_eq_some_iff.mp he
    split_ifs at he
    cases he
    rcases moved hj hi with ⟨-, rfl⟩ | hkept
    · exact (hnot rfl fun q' hq' => by cases hq'; rfl).elim
    · exact .inl hkept
  | run j ans =>
    obtain ⟨a, pc, rest, u, new, hj, ha, hs, rfl⟩ := run_cases he
    rcases moved hj hi with ⟨rfl, rfl⟩ | hkept
    · have hst' : new ++ rest = q :: below := hst
      rcases stepPc_opens hs with ⟨id, call, rfl, hbit, rfl⟩ | ⟨id, call, rfl, hid, rfl⟩ | hnew
      · obtain ⟨rfl, rfl⟩ := List.cons.inj hst'
        exact .inr ⟨ans, a, rfl, hj, .inl ⟨id, call, ha, hbit, rfl⟩⟩
      · obtain ⟨rfl, rfl⟩ := List.cons.inj hst'
        exact .inr ⟨ans, a, rfl, hj, .inr ⟨id, call, rest, ha, hid, rfl, rfl⟩⟩
      · refine (hnot hst fun q' hq' => ?_).elim
        cases hq'
        cases new with
        | nil =>
          have hbelow := h a (List.mem_of_getElem? hj) q
          rw [ha, List.tail_cons, show rest = q :: below from hst'] at hbelow
          exact hbelow List.mem_cons_self
        | cons p new =>
          obtain ⟨rfl, -⟩ := List.cons.inj hst'
          exact hnew p List.mem_cons_self
    · exact .inl hkept
  | otherSlot =>
    cases he
    exact .inl hi
  | stop =>
    cases he
    exact .inl hi

/-- Whoever is about to compare ids has seen the count of a slot in use. -/
def Compares (s : State) : Prop :=
  ∀ th ∈ s.threads, ∀ id call rest, th.stack = .compareID id call :: rest → s.phase = .used

theorem refs_pos_of_stack {q : Pc} (hi : s.threads[i]? = some th) (hq : q ∈ th.stack)
    (hheld : q.refs ≠ 0) :
    s.refs ≠ 0 := by
  obtain ⟨j, hj⟩ := List.mem_iff_getElem?.mp hq
  have hth : q.refs ≤ th.refs := Pool.le_weigh hj
  have hle := Pool.le_weigh (w := Thread.refs) hi
  unfold State.refs
  omega

theorem compares_step {l : Step} (h : Inv s) (hb : Buried s) (hx : Compares s) (hc : Counted s l)
    (he : next oneRead s l = some t) : Compares t := by
  intro th hth id call rest hst
  obtain ⟨i, hi⟩ := List.mem_iff_getElem?.mp hth
  rcases opens_cases hb he hi hst rfl with hkept | ⟨ans, th', rfl, hi', hcase⟩
  · have hused := hx th (List.mem_of_getElem? hkept) id call rest hst
    have hmem : Pc.compareID id call ∈ th.stack := by
      rw [hst]
      exact List.mem_cons_self
    exact (h.stays_used hused (refs_pos_of_stack hkept hmem (by simp [Pc.refs])) he).phase.trans
      hused
  · rcases hcase with ⟨id', call', hst', hbit, -⟩ | ⟨id', call', rest', -, -, hbody, -⟩
    · have hused := h.count.locked (hc th' _ _ hi' hst') hbit
      obtain ⟨a, pc, _, u, new, ha, hpc, hs, rfl⟩ := run_cases he
      rw [hi'] at ha
      cases ha
      rw [hst'] at hpc
      obtain ⟨rfl, -⟩ := List.cons.inj hpc
      exact (stepPc_same hs rfl (by simp)).phase.trans hused
    · cases call' <;> cases hbody

/-- What holds of the stacks and the count together. -/
theorem sections (oneRead : Bool) : ((slot oneRead).restrict Counted).Invariant
    fun s => (Stacks s ∧ Inv s) ∧ Buried s ∧ Compares s := by
  refine System.restrict_invariant (fun h => ⟨⟨Initial.stacks h, Initial.inv h⟩, ?_, ?_⟩) ?_
  · intro th hth
    rw [Initial.threads h th hth]
    exact nofun
  · intro th hth id call rest hst
    rw [Initial.threads h th hth] at hst
    cases hst
  · intro s t l h hc he
    obtain ⟨⟨hs, hi⟩, hb, hx⟩ := h
    exact ⟨⟨stacks_step hs he, inv_step hi hs hc he⟩, buried_step hb he,
      compares_step hi hb hx hc he⟩

/-! ### Held locks -/

theorem Holds.reachable {S : System State Step} (h : Holds S i id call rest s) : S.Reachable s := by
  induction h with
  | granted hs _ _ he _ => exact hs.step _ he
  | step l _ he _ _ ih => exact ih.step l he

/-- Its `sessionUnLock` is still on the stack. -/
theorem Holds.unlocks {S : System State Step} (h : Holds S i id call rest s) :
    ∃ th, s.threads[i]? = some th ∧ .decr :: rest <:+ th.stack := by
  cases h with
  | granted _ _ _ _ hst =>
    obtain ⟨th, hi, hst⟩ := Option.map_eq_some_iff.mp hst
    exact ⟨th, hi, [call.body], hst.symm⟩
  | step l _ _ hi hst => exact ⟨_, hi, hst⟩

theorem Holds.refs_pos {S : System State Step} (h : Holds S i id call rest s) : s.refs ≠ 0 := by
  obtain ⟨th, hi, above, hst⟩ := h.unlocks
  refine refs_pos_of_stack hi (q := .decr) ?_ (by simp [Pc.refs])
  rw [← hst]
  simp

theorem With.step (h : With id s) (hinv : Inv s) (hheld : s.refs ≠ 0) {l : Step}
    (he : next oneRead s l = some t) :
    With id t := by
  have hsame := hinv.stays_used h.used hheld he
  exact ⟨hsame.sessionID.trans h.sessionID, hsame.phase.trans h.used, hsame.released ▸ h.fresh⟩

/-- A lock is granted for the session of a slot in use, which stays as long as the lock is held. -/
theorem Holds.with (h : Holds ((slot oneRead).restrict Counted) i id call rest s) : With id s := by
  induction h with
  | @granted s t th ans hs hi hst he hbody =>
    obtain ⟨⟨-, hinv⟩, -, hx⟩ := (sections oneRead).reachable hs
    have hused := hx th (List.mem_of_getElem? hi) id call rest hst
    have he : next oneRead s (.run i ans) = some t := (System.restrict_next.mp he).2
    have hheld : s.refs ≠ 0 := by
      refine refs_pos_of_stack hi (q := .compareID id call) ?_ (by simp [Pc.refs])
      rw [hst]
      exact List.mem_cons_self
    suffices hid : s.sessionID = id by
      have hfresh := hinv.fresh (.inl hused)
      rw [hid] at hfresh
      exact With.step ⟨hid, hused, hfresh⟩ hinv hheld he
    obtain ⟨a, pc, rest', u, new, ha, hpc, hs, rfl⟩ := run_cases he
    rw [hi] at ha
    cases ha
    rw [hst] at hpc
    obtain ⟨rfl, rfl⟩ := List.cons.inj hpc
    by_contra hid
    simp only [stepPc, ne_eq, hid, not_false_eq_true, if_true] at hs
    cases hs
    obtain ⟨hlt, -⟩ := List.getElem?_eq_some_iff.mp hi
    rw [List.getElem?_set_self hlt] at hbody
    cases call <;> cases hbody
  | step l hprev he hi hst ih =>
    obtain ⟨⟨-, hinv⟩, -⟩ := (sections oneRead).reachable hprev.reachable
    exact ih.step hinv hprev.refs_pos (System.restrict_next.mp he).2

/-- A thread that is about to queue a message holds the lock of the slot's session, for this
message. -/
theorem queues_held (hs : ((slot oneRead).restrict Counted).Reachable s)
    {msg : Message} {below : List Pc} (hi : s.threads[i]? = some th)
    (hst : th.stack = .send (.enQueueMsg msg) :: below) :
    ∃ rest, below = .decr :: rest ∧
      Holds ((slot oneRead).restrict Counted) i s.sessionID (.sendPost msg) rest s := by
  induction hs generalizing i th below with
  | start h =>
    rw [Initial.threads h th (List.mem_of_getElem? hi)] at hst
    cases hst
  | @step s t l hs he ih =>
    obtain ⟨⟨-, hinv⟩, hb, -⟩ := (sections oneRead).reachable hs
    have he' := (System.restrict_next.mp he).2
    rcases opens_cases hb he' hi hst rfl with hkept | ⟨ans, th', rfl, hi', hcase⟩
    · obtain ⟨rest, rfl, hholds⟩ := ih hkept hst
      have hnext : Holds ((slot oneRead).restrict Counted) i s.sessionID (.sendPost msg) rest t :=
        hholds.step l he hi ⟨[.send (.enQueueMsg msg)], hst.symm⟩
      exact ⟨rest, rfl, hnext.with.sessionID ▸ hnext⟩
    · rcases hcase with ⟨id', call', -, -, hq⟩ | ⟨id', call', rest, hst', hid, hq, rfl⟩
      · cases hq
      · obtain ⟨rfl⟩ : call' = .sendPost msg := by
          cases call' <;> cases hq
          rfl
        have hgranted : Holds ((slot oneRead).restrict Counted) i id' (.sendPost msg) rest t :=
          .granted hs hi' hst' he (by rw [hi]; exact congrArg some hst)
        exact ⟨rest, rfl, hgranted.with.sessionID ▸ hgranted⟩

end

/-- In every run whose steps the count may take, whoever calls and whatever the
workers do: a lock that is granted is for the session the slot is in use for, the slot
stays with it until the unlock, and every message is queued to the session it was sent to. -/
theorem locks_protect (oneRead : Bool) : LocksProtect ((slot oneRead).restrict Counted) where
  held _ _ _ _ _ h := h.with
  queued _ _ _ _ _ hs hi hst := queues_held hs hi hst

/-- The lock of a session that is used is granted. -/
example : Holds ((slot false).restrict Counted) 1 ⟨0, 0⟩ .disconnectSession []
    { start with ioCnt := 2, threads := [⟨[], ⟨0, 0⟩⟩, ⟨[.cutLive, .decr], ⟨0, 0⟩⟩] } := by
  have hinit : ((slot false).restrict Counted).init start := start_init false
  exact .granted (System.Reachable.execIf (g := counted) (fun _ _ => counted_of)
    ([.call 1 ⟨0, 0⟩ .disconnectSession] ++ go 1 1) (.start hinit) rfl) rfl rfl
    (System.restrict_next.mpr ⟨counted_of (l := .run 1 .ok) rfl, rfl⟩) rfl

/-! ### What happens when the count is set too late -/

/-- The thread that takes the step. -/
def Step.thread : Step → Option ℕ
  | .call i _ _ | .complete i _ _ | .arm i | .run i _ => some i
  | .otherSlot | .stop => none

theorem next_others {oneRead : Bool} {s t : State} {l : Step} (he : next oneRead s l = some t)
    {j : ℕ} (hj : l.thread ≠ some j) : t.threads[j]? = s.threads[j]? := by
  have hset : ∀ {i : ℕ} {b : Thread}, l.thread = some i → (s.threads.set i b)[j]? = s.threads[j]? :=
    fun hl => List.getElem?_set_ne fun hij => hj (by rw [hl, hij])
  cases l with
  | call i id call =>
    obtain ⟨a, -, he⟩ := Option.bind_eq_some_iff.mp he
    split_ifs at he
    cases he
    exact hset rfl
  | complete i k transferred =>
    obtain ⟨a, -, he⟩ := Option.bind_eq_some_iff.mp he
    obtain ⟨c, -, he⟩ := Option.bind_eq_some_iff.mp he
    split_ifs at he
    cases he
    exact hset rfl
  | arm i =>
    obtain ⟨a, -, he⟩ := Option.bind_eq_some_iff.mp he
    split_ifs at he
    cases he
    exact hset rfl
  | run i ans =>
    obtain ⟨a, pc, rest, u, new, -, -, -, rfl⟩ := run_cases he
    exact hset rfl
  | otherSlot | stop =>
    cases he
    rfl

/-- A lock stays held while other threads take their steps. -/
theorem Holds.others {oneRead : Bool} {i : ℕ} {id : SeqAndIdx}
    {call : Call} {rest : List Pc} {s t : State} (h : Holds (slot oneRead) i id call rest s)
    {ls : List Step} (he : (slot oneRead).exec s ls = some t) (hls : ∀ l ∈ ls, l.thread ≠ some i) :
    Holds (slot oneRead) i id call rest t := by
  induction ls generalizing s with
  | nil =>
    cases he
    exact h
  | cons l ls ih =>
    obtain ⟨u, hu, he⟩ := Option.bind_eq_some_iff.mp he
    obtain ⟨th, hi, hst⟩ := h.unlocks
    rw [← next_others hu (hls l List.mem_cons_self)] at hi
    exact ih (h.step l hu hi hst) he fun l' hl' => hls l' (List.mem_cons_of_mem _ hl')

/-- The second worker accepts the next session and posts its `WSARecv` before
the count is set, and thread 0 has incremented the count for a `sendPost`. -/
def lateLock : List Step :=
  rearm ++ [.complete 1 0 true] ++ go 1 6 ++ go 0 2 ++
    [.call 0 ⟨0, 1⟩ (.sendPost ⟨⟨0, 1⟩, 0, [], 0⟩)] ++ go 0 1

/-- The worker gives back its reference and that of the receive, so that the
count comes to 0 with the lock held, and the slot is released and armed again. -/
def rearmLocked : List Step :=
  go 1 1 ++ [.complete 1 0 false] ++ go 1 4 ++ [.complete 1 0 false] ++ go 1 3 ++ [.arm 1] ++ go 1 3

/-- The lock is held for `⟨0, 1⟩`, with its message yet to be queued, and the slot has become `⟨0,
2⟩`. -/
theorem lateLock_not_protects : ¬LocksProtect (slot false) := by
  intro h
  have hlock : (((slot false).exec start lateLock).bind (·.threads[0]?)).map Thread.stack =
      some [.compareID ⟨0, 1⟩ (.sendPost ⟨⟨0, 1⟩, 0, [], 0⟩)] := by decide +kernel
  have hgrant : (((slot false).exec start (lateLock ++ go 0 1)).bind (·.threads[0]?)).map
      Thread.stack = some [.send (.enQueueMsg ⟨⟨0, 1⟩, 0, [], 0⟩), .decr] := by decide +kernel
  have hrearm : ((slot false).exec start (lateLock ++ go 0 1 ++ rearmLocked)).map State.sessionID =
      some ⟨0, 2⟩ := by
    decide +kernel
  obtain ⟨th, hth, hst⟩ := Option.map_eq_some_iff.mp hlock
  obtain ⟨s, hs, hi⟩ := Option.bind_eq_some_iff.mp hth
  obtain ⟨u, hu, hid⟩ := Option.map_eq_some_iff.mp hrearm
  rw [System.exec_append, Option.bind_eq_some_iff] at hu
  obtain ⟨t, ht, hu⟩ := hu
  rw [ht, Option.bind_some] at hgrant
  rw [System.exec_append, hs, Option.bind_some] at ht
  obtain ⟨t', hnext, ht⟩ := Option.bind_eq_some_iff.mp ht
  cases ht
  have hheld : Holds (slot false) 0 ⟨0, 1⟩ (.sendPost ⟨⟨0, 1⟩, 0, [], 0⟩) [] t :=
    .granted (.exec lateLock (.start (start_init false)) hs) hi hst hnext hgrant
  have hwith := h.held _ _ _ _ _ (hheld.others hu (by decide))
  rw [hwith.sessionID] at hid
  cases hid

end Slot
end MyMMO
