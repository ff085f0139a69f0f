/-
# What a thread knows of a player it does not own

The field thread is handed only players whose `mNextFieldID` is its own, and
`authThread` deletes only players that are disconnected. Neither changes back:
no thread sets `mNextFieldID` to CONFIG_AUTH_FIELD_IDX or reconnects a player, and
no `Player` is made again under an old `mSeqID`.
-/
import MyMMO.Server

namespace MyMMO
namespace Server

/-- From `s` to `t` no `Player` `q` is made, reconnected, or taken back by `authThread`. -/
def Ages (s t : State) (q : ℕ) : Prop :=
  ∀ p', t.heap q = some p' → ∃ p, s.heap q = some p ∧ (p.connect = false → p'.connect = false) ∧
    (p.nextFieldID ≠ AUTH_FIELD_IDX → p'.nextFieldID ≠ AUTH_FIELD_IDX)

/-- From `s` to `t` `Player` `q` is neither made nor deleted, and its owner stays. -/
structure Stays (s t : State) (q : ℕ) : Prop where
  back : ∀ p', t.heap q = some p' →
    ∃ p, s.heap q = some p ∧ (p.connect = false → p'.connect = false) ∧
    p'.nextFieldID = p.nextFieldID
  forth : t.heap q = none → s.heap q = none

section

variable {s t : State} {q : ℕ} {cap : ℕ}

theorem Stays.ages (h : Stays s t q) : Ages s t q := by
  intro p' hp'
  obtain ⟨p, hp, hc, hn⟩ := h.back p' hp'
  exact ⟨p, hp, hc, fun hf => hn ▸ hf⟩

theorem Stays.of_eq (h : t.heap q = s.heap q) : Stays s t q :=
  ⟨fun p' hp' => ⟨p', h ▸ hp', fun hc => hc, rfl⟩, fun hn => h ▸ hn⟩

theorem stays_update {q' : ℕ} {p p' : Player} (ht : t.heap = Function.update s.heap q' (some p'))
    (hp : s.heap q' = some p) (hc : p.connect = false → p'.connect = false)
    (hn : p'.nextFieldID = p.nextFieldID) : Stays s t q := by
  by_cases hq : q = q'
  · subst hq
    refine ⟨fun p'' hp'' => ?_, fun hnone => ?_⟩
    · rw [ht, Function.update_self] at hp''
      cases hp''
      exact ⟨p, hp, hc, hn⟩
    · rw [ht, Function.update_self] at hnone
      cases hnone
  · exact .of_eq (by rw [ht, Function.update_of_ne hq])

/-- `authThread` hands over in `handleAuthReq` and deletes in `checkDisConnectedAndLeavePlayer`. -/
theorem stays_authStep {a : AuthInput} (hp : ∀ accountNo todo, s.auth ≠ .promote q accountNo todo)
    (hf : ∀ ds ls, s.auth ≠ .free q ds ls) (he : authStep cap a s = some t) : Stays s t q := by
  unfold authStep State.read at he
  dsimp only at he
  repeat' split at he
  all_goals cases he
  all_goals first
    | exact .of_eq rfl
    | skip
  · exact .of_eq (Function.update_of_ne (by rintro rfl; exact hp _ _ ‹_›) _ _)
  · exact .of_eq (Function.update_of_ne (by rintro rfl; exact hf _ _ ‹_›) _ _)

theorem stays_fieldStep {a : FieldInput} (he : fieldStep cap a s = some t) : Stays s t q := by
  unfold fieldStep State.read at he
  dsimp only at he
  repeat' split at he
  all_goals cases he
  all_goals first
    | exact .of_eq rfl
    | exact stays_update (p := ‹Player›) rfl ‹_› (fun hc => by simp [hc]) rfl

/-- A session is accepted under a new `mSeqID`, and belongs to `authThread`. -/
theorem onAccept_heap (he : next cap s (.onAccept q) = some t) :
    s.nextSeq ≤ q ∧ t.nextSeq = q + 1 ∧ t.auth = s.auth ∧
    (∀ p, t.heap q = some p → s.heap q = some p ∨ p = .new) ∧ ∀ q', q' ≠ q →
    t.heap q' = s.heap q' := by
  simp only [next] at he
  split_ifs at he with _ hq
  · cases he
    exact ⟨hq, rfl, rfl, fun p hp => .inl hp, fun q' _ => rfl⟩
  · cases he
    refine ⟨hq, rfl, rfl, fun p hp => .inr ?_, fun q' hne => Function.update_of_ne hne _ _⟩
    simp only [State.setStage, State.setPlayer, Function.update_self] at hp
    cases hp
    rfl

theorem stays_onRelease {q' : ℕ} (he : next cap s (.onRelease q') = some t) : Stays s t q := by
  simp only [next] at he
  split_ifs at he
  split at he
  · next p hp =>
    cases he
    exact stays_update (p := p) rfl hp (by simp) (by simp)
  · cases he

/-- Only the loop over the messages of a player comes to `handleAuthReq`. -/
theorem promote_authStep {a : AuthInput} (he : authStep cap a s = some t) {accountNo : ℤ}
    {todo : List ℕ} (ht : t.auth = .promote q accountNo todo) :
    s.auth = t.auth ∧ t.fault = true ∨ s.auth = .messages (q :: todo) ∧ a.msg = some
      (some accountNo) := by
  unfold authStep State.read at he
  dsimp only at he
  repeat' split at he
  all_goals cases he
  all_goals first
    | exact .inl ⟨rfl, rfl⟩
    | simp_all

/-- A FIELD_AUTH_REQ comes to `handleAuthReq`. -/
theorem messages_authStep {a : AuthInput} {todo : List ℕ} {p : Player}
    {accountNo : ℤ} (hpc : s.auth = .messages (q :: todo))
    (hp : s.heap q = some p) (hn : p.nextFieldID = AUTH_FIELD_IDX)
    (hc : p.connect = true) (ha : a.msg = some (some accountNo)) (he : authStep cap a s = some t) :
    t.auth = .promote q accountNo todo := by
  simp only [authStep, hpc, State.read, hp, hn, hc, ha] at he
  cases he
  rfl

/-- What `handleAuthReq` does to the players. -/
theorem promote_heap {a : AuthInput} {accountNo : ℤ}
    {todo : List ℕ} (hpc : s.auth = .promote q accountNo todo) (he : authStep cap a s = some t) :
    (∀ q', q' ≠ q → t.heap q' = s.heap q') ∧
      (t.heap q = s.heap q ∨ ∃ p p', s.heap q = some p ∧ t.heap q = some p' ∧
        p'.nextFieldID ≠ AUTH_FIELD_IDX) := by
  unfold authStep State.read at he
  rw [hpc] at he
  dsimp only at he
  repeat' split at he
  all_goals cases he
  all_goals first
    | exact ⟨fun _ _ => rfl, .inl rfl⟩
    | skip
  refine ⟨fun q' hne => Function.update_of_ne hne _ _,
    .inr ⟨_, _, ‹_›, Function.update_self _ _ _, ?_⟩⟩
  norm_num [AUTH_FIELD_IDX]

theorem free_heap {a : AuthInput} {ds ls : List ℕ} (hpc : s.auth = .free q ds ls)
    (he : authStep cap a s = some t) :
    t.heap q = none ∧ ∀ q', q' ≠ q → t.heap q' = s.heap q' := by
  unfold authStep State.read at he
  rw [hpc] at he
  dsimp only at he
  split at he
  all_goals cases he
  · exact ⟨Function.update_self _ _ _, fun q' hne => Function.update_of_ne hne _ _⟩
  · exact ⟨‹_›, fun _ _ => rfl⟩

theorem ages_authStep {a : AuthInput} (he : authStep cap a s = some t) : Ages s t q := by
  unfold authStep State.read at he
  dsimp only at he
  repeat' split at he
  all_goals cases he
  all_goals first
    | exact (Stays.of_eq rfl).ages
    | skip
  · -- `InitPlayerInfo`
    intro p' hp'
    simp only [State.setStage, State.setPlayer, Function.update_apply] at hp'
    split_ifs at hp' with hq
    · subst hq
      cases hp'
      exact ⟨‹Player›, ‹_›, id, fun _ => by norm_num [AUTH_FIELD_IDX]⟩
    · exact ⟨p', hp', fun hc => hc, fun hn => hn⟩
  · -- `delete`
    intro p' hp'
    simp only [Function.update_apply] at hp'
    split_ifs at hp'
    exact ⟨p', hp', fun hc => hc, fun hn => hn⟩

end

/-! ### Handed over and cut off -/

/-- The players that `authThread` is about to hand over. -/
def AuthPc.leaves : AuthPc → List ℕ
  | .scan _ _ ls | .deletePlayers _ ls | .free _ _ ls | .erasePlayer _ _ ls | .leavePlayers ls => ls
  | .enterField q ls => q :: ls
  | _ => []

/-- The players that `authThread` is about to delete. -/
def AuthPc.cuts : AuthPc → List ℕ
  | .scan _ ds _ | .deletePlayers ds _ | .erasePlayer _ ds _ => ds
  | .free q ds _ => q :: ds
  | _ => []

def FieldPc.registers : FieldPc → List ℕ
  | .registerPlayer q _ => [q]
  | _ => []

/-- On the way to the field thread, or there. -/
def Passed (s : State) (q : ℕ) : Prop :=
  q ∈ s.auth.leaves ∨ q ∈ s.msgQ ∨ q ∈ s.field.registers ∨ q ∈ s.fieldPlayers

/-- What a `Player` that is there satisfies; an `mSeqID` to come does not name a `Player`. -/
def Settled (s : State) (q : ℕ) (P : Player → Prop) : Prop :=
  q < s.nextSeq ∧ ∀ p, s.heap q = some p → P p

structure Life (s : State) : Prop where
  fresh : ∀ q p, s.heap q = some p → q < s.nextSeq
  passed : ∀ q, Passed s q → Settled s q (·.nextFieldID ≠ AUTH_FIELD_IDX)
  cut : ∀ q ∈ s.auth.cuts, Settled s q (·.connect = false)

section

variable {s t : State} {q : ℕ} {cap : ℕ}

theorem Life.settled (h : Life s) {P : Player → Prop} {p : Player} (hp : s.heap q = some p)
    (hP : P p) :
    Settled s q P := by
  refine ⟨h.fresh q p hp, fun p' hp' => ?_⟩
  rw [hp] at hp'
  cases hp'
  exact hP

/-- Only a player whose `mNextFieldID` is another thread's is put on the way. -/
theorem passed_authStep {a : AuthInput} (he : authStep cap a s = some t) (hq : Passed t q) :
    Passed s q ∨ ∃ p, s.heap q = some p ∧ p.nextFieldID ≠ AUTH_FIELD_IDX := by
  unfold authStep State.read at he
  dsimp only at he
  repeat' split at he
  all_goals cases he
  all_goals simp only [Passed, AuthPc.leaves, State.setStage, State.setPlayer] at hq ⊢
  all_goals try simp_all
  · -- the scan puts it into `leaveFieldSession`
    rcases hq with (hq | rfl) | hq
    · exact .inl (.inl hq)
    · exact .inr ⟨_, ‹_›, (‹_ ∧ _› : _ ∧ _).2⟩
    · exact .inl (.inr hq)
  · rcases hq with (hq | rfl) | hq
    · exact .inl (.inl hq)
    · exact .inr ⟨_, ‹_›, (‹_ ∧ ¬ _ = AUTH_FIELD_IDX› : _ ∧ _).2⟩
    · exact .inl (.inr hq)
  · tauto
  · tauto

/-- Only a disconnected player is put into `disconnectSession`. -/
theorem cut_authStep {a : AuthInput} (he : authStep cap a s = some t) (hq : q ∈ t.auth.cuts) :
    q ∈ s.auth.cuts ∨ ∃ p, s.heap q = some p ∧ p.connect = false := by
  unfold authStep State.read at he
  dsimp only at he
  repeat' split at he
  all_goals cases he
  all_goals try simp only [AuthPc.cuts] at hq ⊢
  all_goals try simp_all
  all_goals
    rcases hq with hq | rfl
    · exact .inl hq
    · exact .inr ⟨_, ‹_›, ‹_›⟩

theorem passed_fieldStep {a : FieldInput} (he : fieldStep cap a s = some t) (hq : Passed t q) :
    Passed s q := by
  unfold fieldStep State.read at he
  dsimp only at he
  repeat' split at he
  all_goals cases he
  all_goals try simp only [Passed, FieldPc.registers, State.setStage, State.setPlayer] at hq ⊢
  all_goals try simp_all
  all_goals tauto

/-- What steps of the threads leave alone. -/
theorem onRelease_frame (he : next cap s (.onRelease q) = some t) :
    t.nextSeq = s.nextSeq ∧ t.auth = s.auth ∧ t.field = s.field ∧ t.msgQ = s.msgQ ∧
      t.fieldPlayers = s.fieldPlayers := by
  simp only [next] at he
  split_ifs at he
  split at he
  · cases he
    exact ⟨rfl, rfl, rfl, rfl, rfl⟩
  · cases he

theorem authStep_frame {a : AuthInput} (he : authStep cap a s = some t) :
    t.nextSeq = s.nextSeq ∧ t.field = s.field ∧ t.fieldPlayers = s.fieldPlayers := by
  unfold authStep State.read at he
  dsimp only at he
  repeat' split at he
  all_goals cases he
  all_goals exact ⟨rfl, rfl, rfl⟩

theorem fieldStep_frame {a : FieldInput} (he : fieldStep cap a s = some t) :
    t.nextSeq = s.nextSeq ∧ t.auth = s.auth := by
  unfold fieldStep State.read at he
  dsimp only at he
  repeat' split at he
  all_goals cases he
  all_goals exact ⟨rfl, rfl⟩

theorem Ages.settled_nextFieldID (h : Ages s t q) (hn : t.nextSeq = s.nextSeq)
    (hs : Settled s q (·.nextFieldID ≠ AUTH_FIELD_IDX)) :
    Settled t q (·.nextFieldID ≠ AUTH_FIELD_IDX) := by
  refine ⟨hn ▸ hs.1, fun p' hp' => ?_⟩
  obtain ⟨p, hp, -, hf⟩ := h p' hp'
  exact hf (hs.2 p hp)

theorem Ages.settled_connect (h : Ages s t q) (hn : t.nextSeq = s.nextSeq)
    (hs : Settled s q (·.connect = false)) : Settled t q (·.connect = false) := by
  refine ⟨hn ▸ hs.1, fun p' hp' => ?_⟩
  obtain ⟨p, hp, hc, -⟩ := h p' hp'
  exact hc (hs.2 p hp)

/-- A step that makes no `Player` keeps `Life`, if it puts on the way only players it may. -/
theorem Life.of_ages (h : Life s) (ha : ∀ q, Ages s t q) (hn : t.nextSeq = s.nextSeq)
    (hp : ∀ q, Passed t q → Passed s q ∨ ∃ p, s.heap q = some p ∧ p.nextFieldID ≠ AUTH_FIELD_IDX)
    (hc : ∀ q ∈ t.auth.cuts, q ∈ s.auth.cuts ∨ ∃ p, s.heap q = some p ∧ p.connect = false) :
    Life t where
  fresh q p' hp' := by
    obtain ⟨p, hq, -, -⟩ := ha q p' hp'
    exact hn ▸ h.fresh q p hq
  passed q hq := by
    refine (ha q).settled_nextFieldID hn ?_
    rcases hp q hq with hq | ⟨p, hq, hf⟩
    · exact h.passed q hq
    · exact h.settled hq hf
  cut q hq := by
    refine (ha q).settled_connect hn ?_
    rcases hc q hq with hq | ⟨p, hq, hf⟩
    · exact h.cut q hq
    · exact h.settled hq hf

theorem life_authStep {a : AuthInput} (h : Life s) (he : authStep cap a s = some t) : Life t :=
  h.of_ages (fun _ => ages_authStep he) (authStep_frame he).1 (fun _ => passed_authStep he) fun _ =>
    cut_authStep he

theorem life_fieldStep {a : FieldInput} (h : Life s) (he : fieldStep cap a s = some t) : Life t :=
  h.of_ages (fun _ => (stays_fieldStep he).ages) (fieldStep_frame he).1 (fun _ hq =>
    .inl (passed_fieldStep he hq)) fun _ hq => .inl (by rw [(fieldStep_frame he).2] at hq; exact hq)

/-- A step after which the threads are where they were. -/
theorem Life.of_eq (h : Life s) (ha : ∀ q, Ages s t q) (hn : t.nextSeq = s.nextSeq)
    (hauth : t.auth = s.auth) (hfield : t.field = s.field) (hQ : t.msgQ = s.msgQ)
    (hp : t.fieldPlayers = s.fieldPlayers) : Life t :=
  h.of_ages ha hn (fun _ hq => .inl (by simpa only [Passed, hauth, hfield, hQ, hp] using hq))
    fun _ hq => .inl (hauth ▸ hq)

/-- Nothing changes for the players and for the two threads. -/
structure Unmoved (s t : State) : Prop where
  nextSeq : t.nextSeq = s.nextSeq
  heap : t.heap = s.heap
  auth : t.auth = s.auth
  field : t.field = s.field
  msgQ : t.msgQ = s.msgQ
  fieldPlayers : t.fieldPlayers = s.fieldPlayers

theorem unmoved_dbStep (he : dbStep s = some t) : Unmoved s t := by
  unfold dbStep at he
  repeat' split at he
  all_goals cases he
  all_goals exact ⟨rfl, rfl, rfl, rfl, rfl, rfl⟩

theorem Unmoved.stays (h : Unmoved s t) (q : ℕ) : Stays s t q := .of_eq (congrFun h.heap q)

theorem Life.of_unmoved (h : Life s) (hu : Unmoved s t) : Life t :=
  h.of_eq (fun q => (hu.stays q).ages) hu.nextSeq hu.auth hu.field hu.msgQ hu.fieldPlayers

theorem Settled.of_fresh {P : Player → Prop} (hs : Settled s q P) (hn : s.nextSeq ≤ t.nextSeq)
    (hheap : t.heap q = s.heap q) : Settled t q P :=
  ⟨hs.1.trans_le hn, fun p hp => hs.2 p (hheap ▸ hp)⟩

/-- The `mSeqID` of an accepted session is new. -/
theorem life_onAccept (h : Life s) (he : next cap s (.onAccept q) = some t) : Life t := by
  obtain ⟨hq, hn, hauth, hnew, hheap⟩ := onAccept_heap he
  have hle : s.nextSeq ≤ t.nextSeq := by omega
  have hold : ∀ q' < s.nextSeq, t.heap q' = s.heap q' := fun q' hlt => hheap q' (by omega)
  have hframe : t.field = s.field ∧ t.msgQ = s.msgQ ∧ t.fieldPlayers = s.fieldPlayers := by
    simp only [next] at he
    split_ifs at he
    all_goals cases he
    all_goals exact ⟨rfl, rfl, rfl⟩
  refine ⟨fun q' p hp => ?_, fun q' hq' => ?_, fun q' hq' => ?_⟩
  · by_cases hqq : q' = q
    · omega
    · exact (h.fresh q' p (hheap q' hqq ▸ hp)).trans_le hle
  · have hs := h.passed q' (by simpa only [Passed, hauth, hframe] using hq')
    exact hs.of_fresh hle (hold q' hs.1)
  · have hs := h.cut q' (hauth ▸ hq')
    exact hs.of_fresh hle (hold q' hs.1)

theorem life_onRelease (h : Life s) (he : next cap s (.onRelease q) = some t) : Life t := by
  obtain ⟨hn, hauth, hfield, hQ, hp⟩ := onRelease_frame he
  exact h.of_eq (fun _ => (stays_onRelease he).ages) hn hauth hfield hQ hp

theorem life_start : Life start where
  fresh q p hp := by cases hp
  passed q hq := by simp [Passed, start, AuthPc.leaves, FieldPc.registers] at hq
  cut q hq := by simp [start, AuthPc.cuts] at hq

end

end Server
end MyMMO
