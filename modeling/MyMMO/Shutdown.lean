/-
# The end of `dbThread`

The field thread puts a job into `mDBReqQ` and then sets `mHDBEvent`, an auto-reset event; when it
ends it sets `mHDBFinishEvent`, a manual-reset event. `dbThread` waits for one of the two, looks at
the queue, and leaves its loop if it was woken by the second and the queue is empty. Several jobs
may come under one signal, and a signal may come for a queue that is empty already;
`shutdown_executes_all` says that it has executed every job, in order, when it leaves, and
`dbThread_wakes` that it is not left waiting.
-/
import MyMMO.Lib.System

namespace MyMMO
namespace Shutdown

variable {J : Type}

/-- `fieldThread`: at the top of its loop, in a pass of it, behind an `Enqueue`, or leaving. -/
inductive FieldPc
  | top
  | pass
  | setEvent
  | finish
  | done
  deriving DecidableEq

/-- `dbThread`: at its wait, behind it with the index it returned, with the size of the queue as
well, or in the loop over the jobs that were there. -/
inductive DbPc (J : Type)
  | wait
  | look (retval : ℕ)
  | test (retval useSize : ℕ)
  | jobs (useSize : ℕ)
  | execute (job : J) (useSize : ℕ)
  | done
  deriving DecidableEq

/-- `~FieldServer`. -/
inductive DtorPc
  | start
  | joinField
  | setEvent
  | joinDB
  | done
  deriving DecidableEq

/-- `enqueued` and `executed` are the jobs so far, which the program does not keep. -/
structure State (J : Type) where
  bOn : Bool
  reqQ : List J
  event : Bool
  finishEvent : Bool
  field : FieldPc
  db : DbPc J
  dtor : DtorPc
  enqueued : List J
  executed : List J

/-- A step of one of the three threads. The field thread may leave at the top of its loop, and a
pass of it issues jobs until it is over. -/
inductive Step (J : Type)
  | top (leave : Bool)
  | request (job : J)
  | passed
  | field
  | db
  | dtor

/-- `WaitForMultipleObjects` on the two events: the lower index first, and the auto-reset event is
reset. -/
def wait (s : State J) : Option (State J) :=
  if s.event then some { s with event := false, db := .look 0 }
  else if s.finishEvent then some { s with db := .look 1 }
  else none

def dbStep (s : State J) : Option (State J) :=
  match s.db with
  | .wait => wait s
  | .look retval => some { s with db := .test retval s.reqQ.length }
  | .test retval useSize =>
      some { s with db := if retval = 1 ∧ useSize = 0 then .done else .jobs useSize }
  | .jobs 0 => some { s with db := .wait }
  | .jobs (useSize + 1) =>
    match s.reqQ with
    | [] => none
    | job :: reqQ => some { s with reqQ, db := .execute job useSize }
  | .execute job useSize => some { s with executed := s.executed ++ [job], db := .jobs useSize }
  | .done => none

def dtorStep (s : State J) : Option (State J) :=
  match s.dtor with
  | .start => some { s with bOn := false, dtor := .joinField }
  | .joinField => if s.field = .done then some { s with dtor := .setEvent } else none
  | .setEvent => some { s with event := true, dtor := .joinDB }
  | .joinDB => match s.db with
    | .done => some { s with dtor := .done }
    | _ => none
  | .done => none

def next (s : State J) : Step J → Option (State J)
  | .top leave =>
    if s.field = .top ∧ (leave = true → s.bOn = false) then
      some { s with field := if leave then .finish else .pass }
    else none
  | .request job =>
    if s.field = .pass then
      some { s with reqQ := s.reqQ ++ [job], enqueued := s.enqueued ++ [job], field := .setEvent }
    else none
  | .passed => if s.field = .pass then some { s with field := .top } else none
  | .field =>
    match s.field with
    | .setEvent => some { s with event := true, field := .pass }
    | .finish => some { s with finishEvent := true, field := .done }
    | _ => none
  | .db => dbStep s
  | .dtor => dtorStep s

/-- `createThread`. -/
def start : State J := ⟨true, [], false, false, .top, .wait, .start, [], []⟩

def shutdown (J : Type) : System (State J) (Step J) where
  init s := s = start
  next := next

/-! ### The invariant -/

/-- The job `dbThread` has taken out and not executed yet. -/
def DbPc.held : DbPc J → List J
  | .execute job _ => [job]
  | _ => []

/-- What `dbThread` knows: that the field thread has ended if it was woken by the second event, and
how many jobs are there at least. -/
def DbPc.Knows (s : State J) : DbPc J → Prop
  | .look retval => retval = 1 → s.field = .done
  | .test retval useSize =>
      useSize ≤ s.reqQ.length ∧ (retval = 1 → s.field = .done ∧ useSize = s.reqQ.length)
  | .jobs useSize => useSize ≤ s.reqQ.length
  | .execute _ useSize => useSize ≤ s.reqQ.length
  | .done => s.field = .done ∧ s.reqQ = []
  | .wait => True

structure Inv (s : State J) : Prop where
  conserved : s.enqueued = s.executed ++ s.db.held ++ s.reqQ
  finished : s.finishEvent = true ↔ s.field = .done
  knows : s.db.Knows s

section

variable {s t : State J}

/-- What the field thread does before it has ended, and what the destructor does, `dbThread` need
not know. -/
theorem DbPc.Knows.keep {pc : DbPc J}
    (h : pc.Knows s) (hdone : s.field = .done → t.field = .done ∧ t.reqQ = s.reqQ)
    (hlen : s.reqQ.length ≤ t.reqQ.length) : pc.Knows t := by
  cases pc with
  | wait => trivial
  | look retval => exact fun hr => (hdone (h hr)).1
  | test retval useSize =>
    refine ⟨h.1.trans hlen, fun hr => ?_⟩
    obtain ⟨hfield, hsize⟩ := h.2 hr
    obtain ⟨hfield', hq⟩ := hdone hfield
    exact ⟨hfield', by rw [hq, hsize]⟩
  | jobs useSize => exact le_trans h hlen
  | execute job useSize => exact le_trans h hlen
  | done =>
    obtain ⟨hfield', hq⟩ := hdone h.1
    exact ⟨hfield', hq.trans h.2⟩

theorem Inv.field {field : FieldPc} (h : Inv s) (hs : s.field ≠ .done) (ht : field ≠ .done)
    (event : Bool) :
    Inv { s with event, field } := by
  refine ⟨h.conserved, ?_, h.knows.keep (fun hd => absurd hd hs) le_rfl⟩
  rw [h.finished]
  exact ⟨fun hd => absurd hd hs, fun hd => absurd hd ht⟩

theorem Inv.dbStep (h : Inv s) (he : dbStep s = some t) : Inv t := by
  obtain ⟨hcons, hfin, hknows⟩ := h
  unfold Shutdown.dbStep at he
  split at he
  · next hdb =>
    rw [hdb] at hcons
    unfold wait at he
    split_ifs at he with hevent hfinish
    · cases he
      exact ⟨hcons, hfin, fun hr => absurd hr (by decide)⟩
    · cases he
      exact ⟨hcons, hfin, fun _ => hfin.mp hfinish⟩
  · next retval hdb =>
    rw [hdb] at hcons hknows
    cases he
    exact ⟨hcons, hfin, le_rfl, fun hr => ⟨hknows hr, rfl⟩⟩
  · next retval useSize hdb =>
    rw [hdb] at hcons hknows
    cases he
    split_ifs with hleave
    · obtain ⟨hfield, hsize⟩ := hknows.2 hleave.1
      refine ⟨hcons, hfin, hfield, ?_⟩
      rw [← List.length_eq_zero_iff, ← hsize, hleave.2]
    · exact ⟨hcons, hfin, hknows.1⟩
  · next hdb =>
    rw [hdb] at hcons
    cases he
    exact ⟨hcons, hfin, trivial⟩
  · next useSize hdb =>
    rw [hdb] at hcons hknows
    split at he
    · cases he
    · next job reqQ hq =>
      cases he
      have hlen : useSize + 1 ≤ s.reqQ.length := hknows
      rw [hq, List.length_cons] at hlen
      refine ⟨?_, hfin, Nat.le_of_succ_le_succ hlen⟩
      rw [hcons, hq]
      simp [DbPc.held]
  · next job useSize hdb =>
    rw [hdb] at hcons hknows
    cases he
    refine ⟨?_, hfin, hknows⟩
    rw [hcons]
    simp [DbPc.held]
  · cases he

theorem Inv.dtorStep (h : Inv s) (he : dtorStep s = some t) : Inv t := by
  unfold Shutdown.dtorStep at he
  split at he
  · cases he
    exact ⟨h.conserved, h.finished, h.knows.keep (fun hd => ⟨hd, rfl⟩) le_rfl⟩
  · split_ifs at he
    cases he
    exact ⟨h.conserved, h.finished, h.knows.keep (fun hd => ⟨hd, rfl⟩) le_rfl⟩
  · cases he
    exact ⟨h.conserved, h.finished, h.knows.keep (fun hd => ⟨hd, rfl⟩) le_rfl⟩
  · split at he <;> cases he
    exact ⟨h.conserved, h.finished, h.knows.keep (fun hd => ⟨hd, rfl⟩) le_rfl⟩
  · cases he

theorem Inv.step {l : Step J} (h : Inv s) (he : next s l = some t) : Inv t := by
  unfold next at he
  cases l with
  | top leave =>
    dsimp only at he
    split_ifs at he with htop hleave
    · cases he
      exact h.field (by rw [htop.1]; decide) (by decide) s.event
    · cases he
      exact h.field (by rw [htop.1]; decide) (by decide) s.event
  | request job =>
    dsimp only at he
    split_ifs at he with hpass
    cases he
    have hnot : s.field ≠ .done := by
      rw [hpass]
      decide
    refine ⟨?_, ?_, h.knows.keep (fun hd => absurd hd hnot) ?_⟩
    · change s.enqueued ++ [job] = s.executed ++ s.db.held ++ (s.reqQ ++ [job])
      rw [h.conserved, List.append_assoc _ s.reqQ]
    · change s.finishEvent = true ↔ FieldPc.setEvent = .done
      rw [h.finished]
      exact ⟨fun hd => absurd hd hnot, fun hd => by cases hd⟩
    · change s.reqQ.length ≤ (s.reqQ ++ [job]).length
      rw [List.length_append]
      exact Nat.le_add_right _ _
  | passed =>
    dsimp only at he
    split_ifs at he with hpass
    cases he
    exact h.field (by rw [hpass]; decide) (by decide) s.event
  | field =>
    dsimp only at he
    split at he
    · next hset =>
      cases he
      exact h.field (by rw [hset]; decide) (by decide) true
    · next hfinish =>
      cases he
      have hnot : s.field ≠ .done := by
        rw [hfinish]
        decide
      exact ⟨h.conserved, ⟨fun _ => rfl, fun _ => rfl⟩,
        h.knows.keep (fun hd => absurd hd hnot) le_rfl⟩
    · cases he
  | db => exact h.dbStep he
  | dtor => exact h.dtorStep he

theorem inv (h : (shutdown J).Reachable s) : Inv s := by
  have hinv : (shutdown J).Invariant Inv := by
    constructor
    · rintro s rfl
      exact ⟨rfl, ⟨fun h => (by cases h), fun h => (by cases h)⟩, trivial⟩
    · intro s t l hs he
      exact hs.step he
  exact hinv.reachable h

/-- A field thread that has ended issues no more jobs. -/
theorem enqueued_of_done {l : Step J} (hs : s.field = .done) (he : next s l = some t) :
    t.field = .done ∧ t.enqueued = s.enqueued := by
  unfold next at he
  cases l with
  | top leave =>
    dsimp only at he
    rw [hs, if_neg fun hc => (by cases hc.1)] at he
    cases he
  | request job =>
    dsimp only at he
    rw [hs, if_neg (by decide)] at he
    cases he
  | passed =>
    dsimp only at he
    rw [hs, if_neg (by decide)] at he
    cases he
  | field =>
    dsimp only at he
    rw [hs] at he
    cases he
  | db =>
    dsimp only at he
    unfold dbStep wait at he
    split at he
    · split_ifs at he <;> (cases he; exact ⟨hs, rfl⟩)
    · cases he
      exact ⟨hs, rfl⟩
    · cases he
      exact ⟨hs, rfl⟩
    · cases he
      exact ⟨hs, rfl⟩
    · split at he <;> cases he
      exact ⟨hs, rfl⟩
    · cases he
      exact ⟨hs, rfl⟩
    · cases he
  | dtor =>
    dsimp only at he
    unfold dtorStep at he
    split at he
    · cases he
      exact ⟨hs, rfl⟩
    · split_ifs at he
      cases he
      exact ⟨hs, rfl⟩
    · cases he
      exact ⟨hs, rfl⟩
    · split at he <;> cases he
      exact ⟨hs, rfl⟩
    · cases he

/-- When `dbThread` has left its loop, it has executed every job once and in order, and no job is
issued any more. -/
theorem shutdown_executes_all (h : (shutdown J).Reachable s) (hdb : s.db = .done) :
    s.executed = s.enqueued ∧ ∀ ls t, (shutdown J).exec s ls = some t →
      t.enqueued = s.enqueued := by
  obtain ⟨hcons, -, hknows⟩ := inv h
  rw [hdb] at hcons hknows
  obtain ⟨hfield, hq⟩ := hknows
  constructor
  · rw [hcons, hq]
    simp [DbPc.held]
  · intro ls
    clear hcons hq hdb h
    induction ls generalizing s with
    | nil =>
      intro t ht
      cases ht
      rfl
    | cons l ls ih =>
      intro t ht
      obtain ⟨u, hu, ht⟩ := Option.bind_eq_some_iff.mp ht
      obtain ⟨hfield', hsame⟩ := enqueued_of_done hfield hu
      rw [ih hfield' t ht, hsame]

/-- Once the field thread has ended, `dbThread` does not wait. -/
theorem dbThread_wakes (h : (shutdown J).Reachable s) (hfield : s.field = .done)
    (hdb : s.db ≠ .done) :
    ∃ t, (shutdown J).next s .db = some t := by
  obtain ⟨-, hfin, hknows⟩ := inv h
  change ∃ t, dbStep s = some t
  unfold dbStep
  split
  · unfold wait
    rw [hfin.mpr hfield]
    split_ifs
    · exact ⟨_, rfl⟩
    · exact ⟨_, rfl⟩
    · next hno => exact absurd rfl hno
  · exact ⟨_, rfl⟩
  · exact ⟨_, rfl⟩
  · exact ⟨_, rfl⟩
  · next useSize hpc =>
    rw [hpc] at hknows
    split
    · next hq =>
      have hlen : useSize + 1 ≤ s.reqQ.length := hknows
      rw [hq] at hlen
      cases hlen
    · exact ⟨_, rfl⟩
  · exact ⟨_, rfl⟩
  · next hpc => exact absurd hpc hdb

end

/-- Two jobs under one signal, and a third with its signal while they are executed. -/
def lateRun : List (Step ℕ) :=
  [.top false, .request 1, .field, .request 2, .field, .passed, .db, .db, .db, .top false,
    .request 3, .db, .db, .db, .field, .dtor, .passed, .top true, .field] ++ List.replicate 9 .db ++
    [.dtor, .dtor, .db, .db]

theorem shutdown_executes_all_lateRun :
    ∃ s : State ℕ, s.db = .done ∧ s.executed = [1, 2, 3] ∧ s.executed = s.enqueued := by
  have hrun : ((shutdown ℕ).exec start lateRun).any (fun s => s.db = .done ∧
      s.executed = [1, 2, 3]) = true := by decide +kernel
  obtain ⟨s, hs, hp⟩ := Option.any_eq_true _ _ |>.mp hrun
  obtain ⟨hdb, hexec⟩ := of_decide_eq_true hp
  exact ⟨s, hdb, hexec, (shutdown_executes_all (.exec _ (.start rfl) hs) hdb).1⟩

end Shutdown
end MyMMO
