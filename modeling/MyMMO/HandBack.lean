/-
# The hand-back of a Player

`dbResultPacketProc` sends the notice of a player first and takes the player out of
`sectors` and `players` afterwards. As long as `authThread` deletes nobody whose notice
the field thread is still working on, the field thread only meets players that
exist (`hand_back`). Nothing makes `authThread` wait for that
(`deleted_in_window`).
-/
import MyMMO.OneSession

namespace MyMMO
namespace Server

/-- The field thread owns what it uses: its containers hold no deleted player,
and its next step meets none. -/
structure Exclusive (s : State) : Prop where
  players : ∀ q ∈ s.fieldPlayers, s.heap q ≠ none
  sectors : ∀ c q, (c, q) ∈ s.sectors → s.heap q ≠ none
  uses : ∀ cap a t, fieldStep cap a s = some t → t.fault = s.fault

/-- `Keeps`, and the player that is deleted is not one whose notice the field thread is still
working on. -/
def HandsOver (s : State) (l : Step) : Prop :=
  Keeps s l ∧ match l with
    | .auth _ => ∀ q ds ls, s.auth = .free q ds ls → s.field.window ≠ some q
    | _ => True

/-- The player whose notice is out exists while the field thread has it. -/
def Window (s : State) : Prop := ∀ q, s.field.window = some q → s.heap q ≠ none

section

variable {s t : State} {cap : ℕ}

theorem update_ne_none {heap : ℕ → Option Player} {q : ℕ} (hq : heap q ≠ none) (q' : ℕ)
    (p : Player) :
    Function.update heap q' (some p) q ≠ none := by
  rw [Function.update_apply]
  split_ifs
  · exact Option.some_ne_none p
  · exact hq

/-- `authThread` deletes the player it is about to delete, and no other. -/
theorem authStep_alive {a : AuthInput} (he : authStep cap a s = some t) {q : ℕ}
    (hq : s.heap q ≠ none) (hfree : ∀ ds ls, s.auth ≠ .free q ds ls) : t.heap q ≠ none := by
  unfold authStep State.read at he
  dsimp only at he
  repeat' split at he
  all_goals cases he
  all_goals first
    | exact hq
    | exact update_ne_none hq _ _
    | grind [Function.update_apply, State.setStage]

theorem authStep_field {a : AuthInput} (he : authStep cap a s = some t) : t.field = s.field := by
  unfold authStep State.read at he
  dsimp only at he
  repeat' split at he
  all_goals cases he
  all_goals rfl

theorem fieldStep_alive {a : FieldInput} (he : fieldStep cap a s = some t) {q : ℕ}
    (hq : s.heap q ≠ none) :
    t.heap q ≠ none := by
  unfold fieldStep State.read at he
  dsimp only at he
  repeat' split at he
  all_goals cases he
  all_goals first
    | exact hq
    | exact update_ne_none hq _ _

/-- The window opens when the notice is sent. -/
theorem fieldStep_window {a : FieldInput} (he : fieldStep cap a s = some t) {q : ℕ}
    (hq : t.field.window = some q) :
    s.field.window = some q ∨ ∃ accountNo n, s.field = .notifyDisconnect q accountNo n := by
  unfold fieldStep State.read at he
  dsimp only at he
  repeat' split at he
  all_goals cases he
  all_goals first
    | exact .inl hq
    | cases hq
  all_goals grind [FieldPc.window]

theorem dbStep_alive (he : dbStep s = some t) : t.heap = s.heap ∧ t.field = s.field := by
  unfold dbStep at he
  repeat' split at he
  all_goals cases he
  all_goals exact ⟨rfl, rfl⟩

theorem Inv.players_alive (h : Inv s) (hw : Window s) {q : ℕ} (hq : q ∈ s.fieldPlayers) :
    s.heap q ≠ none := by
  intro hnone
  have habs := (h.absent q).mpr hnone
  rcases h.fieldSide.players q hq with hs | hs | hs
  · rw [hs] at habs
    cases habs
  · rw [hs] at habs
    cases habs
  · exact hw q hs hnone

/-- A step of the field thread meets players that exist. -/
theorem Inv.uses (h : Inv s) (hw : Window s) {a : FieldInput} (he : fieldStep cap a s = some t) :
    t.fault = s.fault := by
  have hpc := h.fieldSide.pc
  have hin : ∀ q ∈ s.fieldPlayers, s.heap q ≠ none := fun q hq => h.players_alive hw hq
  have hcell : ∀ q ∈ s.sectors.image Prod.snd, s.heap q ≠ none := by
    intro q hq
    obtain ⟨⟨c, _⟩, hc, rfl⟩ := Finset.mem_image.mp hq
    exact hin _ (h.fieldSide.sectors _ _ hc).1
  have hreg : ∀ q, s.stage q = .registering → s.heap q ≠ none := by
    intro q hq hnone
    rw [← h.absent, hq] at hnone
    cases hnone
  unfold fieldStep State.read at he
  dsimp only at he
  repeat' split at he
  all_goals cases he
  all_goals try rfl
  -- what is left are the accesses to a player that is not there
  all_goals exfalso
  all_goals grind [FieldInv, Window, FieldPc.window]

theorem Inv.exclusive (h : Inv s) (hw : Window s) : Exclusive s :=
  ⟨fun _ hq => h.players_alive hw hq,
    fun c q hc => h.players_alive hw (h.fieldSide.sectors c q hc).1, fun _ _ _ he => h.uses hw he⟩

theorem window_step (h : Inv s) (hw : Window s) {l : Step} (hg : HandsOver s l)
    (he : next cap s l = some t) :
    Window t := by
  unfold next at he
  by_cases hdead : s.fault = true ∨ s.halted = true
  · rw [if_pos hdead] at he
    cases he
  rw [if_neg hdead] at he
  intro q hq
  cases l with
  | onAccept q' =>
    dsimp only at he
    split_ifs at he <;> cases he
    · exact hw q hq
    · exact update_ne_none (hw q hq) q' .new
  | onRelease q' =>
    dsimp only at he
    split at he <;> cases he
    exact update_ne_none (hw q hq) q' _
  | auth a =>
    rw [authStep_field he] at hq
    exact authStep_alive he (hw q hq) fun ds ls hf => hg.2 q ds ls hf hq
  | field a =>
    apply fieldStep_alive he
    rcases fieldStep_window he hq with hq | ⟨accountNo, n, hq⟩
    · exact hw q hq
    · have hst := h.fieldSide.saves.2 q (by rw [State.saves, hq]; exact List.mem_cons_self)
      intro hnone
      rw [← h.absent, hst] at hnone
      cases hnone
  | db =>
    obtain ⟨hheap, hfield⟩ := dbStep_alive he
    rw [hfield] at hq
    rw [hheap]
    exact hw q hq
  | stop =>
    cases he
    exact hw q hq

end

/-- The field thread meets no deleted player, as long as `authThread` hands over. -/
theorem hand_back {cap : ℕ} {s : State} (h : ((server cap).restrict HandsOver).Reachable s) :
    Exclusive s := by
  have hinv : ((server cap).restrict HandsOver).Invariant fun s => Inv s ∧ Window s := by
    apply System.restrict_invariant
    · intro s hs
      rw [show s = start from hs]
      exact ⟨start_inv, fun q hq => by cases hq⟩
    · intro s t l hs hg he
      exact ⟨inv_step hs.1 hg.1 he, window_step hs.1 hs.2 hg he⟩
  obtain ⟨h1, h2⟩ := hinv.reachable h
  exact h1.exclusive h2

/-- `HandsOver`, as a test. -/
def handsOver (s : State) (l : Step) : Bool :=
  keeps s l && match l with
    | .auth _ =>
      match s.auth with
      | .free q _ _ => s.field.window ≠ some q
      | _ => true
    | _ => true

theorem handsOver_sound (s : State) (l : Step) (h : handsOver s l = true) : HandsOver s l := by
  unfold handsOver at h
  rw [Bool.and_eq_true] at h
  refine ⟨keeps_sound s l h.1, ?_⟩
  cases l with
  | auth a =>
    intro q ds ls hf
    have h2 := h.2
    simp only [hf] at h2
    exact of_decide_eq_true h2
  | _ => trivial

/-- Session 0 comes back and is deleted, after the field thread has done with it. -/
theorem hand_back_deleted : ∃ s, Exclusive s ∧ s.heap 0 = none ∧ s.nextSeq = 1 := by
  have hrun : (((server DISCONNECT_AND_LEAVE_CAP).execIf handsOver start
      (leaveRun ++ fieldSteps 3 [] ++ authSteps 4 [] none ++ authSteps 6 [0] none)).any fun s =>
      (s.heap 0).isNone ∧ s.nextSeq = 1) = true := by decide
  obtain ⟨s, hs, ht⟩ := Option.any_eq_true _ _ |>.mp hrun
  obtain ⟨h1, h2⟩ := of_decide_eq_true ht
  exact ⟨s, hand_back (System.Reachable.execIf handsOver_sound _ (.start rfl) hs),
    Option.isNone_iff_eq_none.mp h1, h2⟩

/-- Session 0 is deleted between its notice and `readSector`. -/
theorem deleted_in_window : ¬ ∀ s, (server DISCONNECT_AND_LEAVE_CAP).Reachable s → Exclusive s := by
  intro hall
  have hrun : (((server DISCONNECT_AND_LEAVE_CAP).exec start
      (leaveRun ++ authSteps 4 [] none ++ authSteps 6 [0] none)).any fun s =>
      s.fault = false ∧
        ((fieldStep DISCONNECT_AND_LEAVE_CAP ⟨[], none, ⟨0, 0⟩⟩ s).any fun t => t.fault) = true) =
          true := by
    decide
  obtain ⟨s, hs, ht⟩ := Option.any_eq_true _ _ |>.mp hrun
  obtain ⟨hf, ht⟩ := of_decide_eq_true ht
  obtain ⟨t, he, ht⟩ := Option.any_eq_true _ _ |>.mp ht
  have hexcl := hall s (System.Reachable.exec _ (.start rfl) hs)
  rw [hexcl.uses _ _ t he, hf] at ht
  cases ht

end Server
end MyMMO
