/-
# Who is handed to the field thread when it ends

`~FieldServer` waits until every session is released and sets `mBOn` to false, and the field thread
leaves its loop when its queue was empty and then it has no player and `mBOn` is false. `authThread`
may have read `mBConnect` of a player before the release and hands it over after that (`orphaned`).
If it hands nobody over when the field thread leaves, it never does again, and it finds every player
that `mAccountsHash` still has (`field_sealed`).
-/
import MyMMO.Life
import MyMMO.OneSession

namespace MyMMO
namespace Server

/-! ### Where the players of `mAccountsHash` are -/

/-- The player of an entry is on its way to be removed, or with one of the two threads. -/
def Place (s : State) (accountNo : ℤ) (q : ℕ) : Prop :=
  accountNo ∈ s.notices ∨ q ∈ s.authPlayers ∨ (∃ ls, s.auth = .enterField q ls) ∨ q ∈ s.msgQ ∨
    q ∈ s.field.registers ∨ q ∈ s.fieldPlayers ∧ s.field.window ≠ some q

/-- The players whose messages are still to be served. -/
def AuthPc.todo : AuthPc → List ℕ
  | .messages todo => todo
  | .promote q _ todo => q :: todo
  | _ => []

/-- The player that is deleted. -/
def AuthPc.gone : AuthPc → Option ℕ
  | .free q _ _ | .erasePlayer q _ _ => some q
  | _ => none

/-- What `dbResultPacketProc` knows of the player of a result. -/
def FieldPc.Holds (s : State) : FieldPc → Prop
  | .clearPending q _ | .readAccount q _ => q ∈ s.fieldPlayers
  | .notifyDisconnect q accountNo _ => q ∈ s.fieldPlayers ∧ ∀ p, s.heap q = some p →
    p.accountNo = accountNo
  | _ => True

/-- Every entry of `mAccountsHash` leads to a player that has logged in with its account and is
somewhere. -/
structure Located (s : State) : Prop where
  unAuth : ∀ q ∈ s.unAuthSessions, ∃ p, s.heap q = some p ∧ p.nextFieldID = AUTH_FIELD_IDX
  owner : ∀ accountNo q, s.accountsHash.lookup accountNo = some q →
    q ∉ s.unAuthSessions ∧ ∃ p, s.heap q = some p ∧ p.accountNo = accountNo
  freed : ∀ q ds ls, s.auth = .free q ds ls → q ∉ s.unAuthSessions
  gone : ∀ accountNo q, s.accountsHash.lookup accountNo = some q → s.auth.gone ≠ some q
  place : ∀ accountNo q, s.accountsHash.lookup accountNo = some q → Place s accountNo q
  holds : s.field.Holds s
  todo : ∀ q ∈ s.auth.todo, q ∈ s.authPlayers

section

variable {s t : State} {cap : ℕ}

/-- A step that changes nothing that an entry needs, but where `authThread` stands. -/
theorem Located.auth (h : Located s) {pc : AuthPc} (hnotice : pc.notice = s.auth.notice)
    (henter : ∀ q ls, s.auth ≠ .enterField q ls) (hgone : pc.gone = none)
    (htodo : ∀ q ∈ pc.todo, q ∈ s.authPlayers) (log : List Statement) :
    Located { s with auth := pc, log } := by
  refine ⟨h.unAuth, h.owner, fun q ds ls hpc => ?_, fun accountNo q _ => by simp [hgone],
    fun accountNo q hq => ?_, h.holds, htodo⟩
  · have hfree : pc = .free q ds ls := hpc
    rw [hfree] at hgone
    cases hgone
  have hplace := h.place accountNo q hq
  unfold Place State.notices at hplace ⊢
  rw [hnotice]
  rcases hplace with hn | hp | ⟨ls, he⟩ | hrest
  · exact .inl hn
  · exact .inr (.inl hp)
  · exact absurd he (henter q ls)
  · exact .inr (.inr (.inr hrest))

theorem Located.fault (h : Located s) (fault halted : Bool) : Located { s with fault, halted } :=
  ⟨h.unAuth, h.owner, h.freed, h.gone, h.place, h.holds, h.todo⟩

/-- `authThread` puts a player that has logged in into `mAccountsHash`. -/
theorem Located.promote (h : Located s) (hlife : Life s) {q : ℕ} {accountNo : ℤ} {todo : List ℕ}
    {p : Player} (hpc : s.auth = .promote q accountNo todo) (hq : q ∈ s.unAuthSessions)
    (hp : s.heap q = some p) :
    Located { (s.setPlayer q { p with accountNo, nextFieldID := 0 }).setStage q .waiting with
      unAuthSessions := s.unAuthSessions.erase q
      accountsHash := s.accountsHash.insert accountNo q
      auth := .messages todo } := by
  have hne : ∀ a q', s.accountsHash.lookup a = some q' → q' ≠ q := by
    rintro a q' hl rfl
    exact (h.owner a q' hl).1 hq
  have hplayers : ∀ q' ∈ s.fieldPlayers, q' ≠ q := by
    rintro q' hin rfl
    obtain ⟨p', hp', hn⟩ := h.unAuth q' hq
    exact (hlife.passed q' (.inr (.inr (.inr hin)))).2 p' hp' hn
  have hheap : ∀ q' ≠ q, (Function.update s.heap q (some { p with accountNo, nextFieldID := 0 }))
    q' = s.heap q' :=
    fun q' hq' => Function.update_of_ne hq' _ _
  have htodo : ∀ q' ∈ q :: todo, q' ∈ s.authPlayers := by
    have hall := h.todo
    rwa [hpc] at hall
  refine ⟨fun q' hq' => ?_, fun a q' hl => ?_, nofun, nofun, fun a q' hl => ?_, ?_, ?_⟩
  · obtain ⟨hq'q, hq'⟩ := Finset.mem_erase.mp hq'
    simp only [State.setStage, State.setPlayer, hheap q' hq'q]
    exact h.unAuth q' hq'
  · by_cases ha : a = accountNo
    · subst ha
      rw [AList.lookup_insert] at hl
      cases hl
      exact ⟨Finset.notMem_erase _ _, _, Function.update_self _ _ _, rfl⟩
    · rw [AList.lookup_insert_ne ha] at hl
      obtain ⟨hun, p', hp', ha'⟩ := h.owner a q' hl
      refine ⟨fun hmem => hun (Finset.mem_of_mem_erase hmem), p', ?_, ha'⟩
      exact (hheap q' (hne a q' hl)).trans hp'
  · by_cases ha : a = accountNo
    · subst ha
      rw [AList.lookup_insert] at hl
      cases hl
      exact .inr (.inl (htodo q List.mem_cons_self))
    · rw [AList.lookup_insert_ne ha] at hl
      have hplace := h.place a q' hl
      unfold Place State.notices at hplace ⊢
      rw [hpc] at hplace
      rcases hplace with hn | hp | ⟨ls, he⟩ | hrest
      · exact .inl hn
      · exact .inr (.inl hp)
      · cases he
      · exact .inr (.inr (.inr hrest))
  · have hholds := h.holds
    show FieldPc.Holds _ s.field
    revert hholds
    cases s.field with
    | notifyDisconnect q' a n =>
      rintro ⟨hin, ha⟩
      refine ⟨hin, fun p' hp' => ha p' ?_⟩
      exact (hheap q' (hplayers q' hin)).symm.trans hp'
    | _ => exact id
  · exact fun q' hq' => htodo q' (List.mem_cons_of_mem _ hq')

/-- The notice of `accountNo` is processed. -/
theorem Located.handBack (h : Located s) {q n : ℕ} {accountNo : ℤ}
    (hpc : s.auth = .notifyProc accountNo n) :
    Located { s.setStage q .handedBack with
      authPlayers := insert q s.authPlayers
      accountsHash := s.accountsHash.erase accountNo
      auth := .notify n } := by
  have hkept : ∀ a q', (s.accountsHash.erase accountNo).lookup a = some q' →
      a ≠ accountNo ∧ s.accountsHash.lookup a = some q' := by
    intro a q' hl
    have ha : a ≠ accountNo := by
      rintro rfl
      rw [AList.lookup_erase] at hl
      cases hl
    exact ⟨ha, by rwa [AList.lookup_erase_ne ha] at hl⟩
  refine ⟨h.unAuth, fun a q' hl => h.owner a q' (hkept a q' hl).2, nofun, nofun, fun a q' hl => ?_,
    h.holds, nofun⟩
  obtain ⟨ha, hl⟩ := hkept a q' hl
  have hplace := h.place a q' hl
  unfold Place State.notices at hplace ⊢
  rw [hpc] at hplace
  rcases hplace with hn | hp | ⟨ls, he⟩ | hrest
  · exact .inl ((List.mem_cons.mp hn).resolve_left ha)
  · exact .inr (.inl (Finset.mem_insert_of_mem hp))
  · cases he
  · exact .inr (.inr (.inr hrest))

/-- A player is taken out of the maps. -/
theorem Located.unlist (h : Located s) {q : ℕ} {ds ls : List ℕ}
    {p : Player} (hpc : s.auth = .deletePlayers (q :: ds) ls) (hp : s.heap q = some p) :
    Located (if q ∈ s.unAuthSessions then
          { s.setStage q .deleting with
            unAuthSessions := s.unAuthSessions.erase q, auth := .free q ds ls }
        else { s.setStage q .deleting with
          accountsHash := s.accountsHash.erase p.accountNo, auth := .free q ds ls }) := by
  have hstay : ∀ a q', Place s a q' → a ∈ State.notices { s with auth := .free q ds ls } ∨
    q' ∈ s.authPlayers ∨
      (∃ ls', AuthPc.free q ds ls = .enterField q' ls') ∨ q' ∈ s.msgQ ∨ q' ∈ s.field.registers ∨
        q' ∈ s.fieldPlayers ∧ s.field.window ≠ some q' := by
    intro a q' hplace
    unfold Place State.notices at hplace
    rw [hpc] at hplace
    rcases hplace with hn | hp | ⟨ls, he⟩ | hrest
    · exact .inl hn
    · exact .inr (.inl hp)
    · cases he
    · exact .inr (.inr (.inr hrest))
  split_ifs with hq
  · refine ⟨fun q' hq' => h.unAuth q' (Finset.mem_of_mem_erase hq'), fun a q' hl => ?_,
      fun q' ds' ls' hf => ?_, fun a q' hl hgone => ?_, fun a q' hl => hstay a q' (h.place a q' hl),
      h.holds, nofun⟩
    · obtain ⟨hun, hrest⟩ := h.owner a q' hl
      exact ⟨fun hmem => hun (Finset.mem_of_mem_erase hmem), hrest⟩
    · cases hf
      exact Finset.notMem_erase _ _
    · cases hgone
      exact (h.owner a q hl).1 hq
  · have hkept : ∀ a q', (s.accountsHash.erase p.accountNo).lookup a = some q' →
        a ≠ p.accountNo ∧ s.accountsHash.lookup a = some q' := by
      intro a q' hl
      have ha : a ≠ p.accountNo := by
        rintro rfl
        rw [AList.lookup_erase] at hl
        cases hl
      exact ⟨ha, by rwa [AList.lookup_erase_ne ha] at hl⟩
    refine ⟨h.unAuth, fun a q' hl => h.owner a q' (hkept a q' hl).2, fun q' ds' ls' hf => ?_,
      fun a q' hl hgone => ?_, fun a q' hl => hstay a q' (h.place a q' (hkept a q' hl).2),
      h.holds, nofun⟩
    · cases hf
      exact hq
    cases hgone
    obtain ⟨ha, hl⟩ := hkept a q hl
    obtain ⟨-, p', hp', ha'⟩ := h.owner a q hl
    rw [hp] at hp'
    cases hp'
    exact ha ha'.symm

/-- A player that no entry leads to is deleted. -/
theorem Located.free (h : Located s) {q : ℕ} {ds ls : List ℕ} (hpc : s.auth = .free q ds ls) :
    Located { s.setStage q .absent with
      heap := Function.update s.heap q none, auth := .erasePlayer q ds ls } := by
  have hheap : ∀ q' ≠ q, Function.update s.heap q none q' = s.heap q' :=
    fun q' hq' => Function.update_of_ne hq' _ _
  have hentry : ∀ a q', s.accountsHash.lookup a = some q' → q' ≠ q := by
    rintro a q' hl rfl
    exact h.gone a q' hl (by rw [hpc]; rfl)
  refine ⟨fun q' hq' => ?_, fun a q' hl => ?_, nofun, fun a q' hl hgone => ?_,
    fun a q' hl => ?_, ?_, nofun⟩
  · obtain ⟨p, hp, hn⟩ := h.unAuth q' hq'
    have hne : q' ≠ q := by
      rintro rfl
      exact h.freed q' ds ls hpc hq'
    exact ⟨p, (hheap q' hne).trans hp, hn⟩
  · obtain ⟨hun, p, hp, ha⟩ := h.owner a q' hl
    exact ⟨hun, p, (hheap q' (hentry a q' hl)).trans hp, ha⟩
  · cases hgone
    exact hentry a q hl rfl
  · have hplace := h.place a q' hl
    unfold Place State.notices at hplace ⊢
    rw [hpc] at hplace
    rcases hplace with hn | hp | ⟨ls, he⟩ | hrest
    · exact .inl hn
    · exact .inr (.inl hp)
    · cases he
    · exact .inr (.inr (.inr hrest))
  · have hholds := h.holds
    show FieldPc.Holds _ s.field
    revert hholds
    cases s.field with
    | notifyDisconnect q' a n =>
      rintro ⟨hin, ha⟩
      refine ⟨hin, fun p hp => ?_⟩
      simp only [Function.update_apply] at hp
      split_ifs at hp
      exact ha p hp
    | _ => exact id

/-- A step of `authThread` that moves players between its containers. -/
theorem Located.move (h : Located s) {authPlayers : Finset ℕ} {notifyMsgQ : List ℤ} {msgQ : List ℕ}
    {stage : ℕ → Stage} {pc : AuthPc} (hnotices : ∀ a ∈ s.notices, a ∈ pc.notice ++ notifyMsgQ)
    (hmsgQ : ∀ q ∈ s.msgQ, q ∈ msgQ)
    (hplayers : ∀ q ∈ s.authPlayers, s.auth.gone ≠ some q →
      q ∈ authPlayers ∨ ∃ ls, pc = .enterField q ls)
    (henter : ∀ q ls, s.auth = .enterField q ls → q ∈ msgQ) (hgone : pc.gone = none)
    (htodo : ∀ q ∈ pc.todo, q ∈ authPlayers) :
    Located { s with authPlayers, notifyMsgQ, msgQ, stage, auth := pc } := by
  refine ⟨h.unAuth, h.owner, fun q ds ls hpc => ?_, fun accountNo q _ => by simp [hgone],
    fun accountNo q hl => ?_, h.holds, htodo⟩
  · have hfree : pc = .free q ds ls := hpc
    rw [hfree] at hgone
    cases hgone
  rcases h.place accountNo q hl with hn | hin | ⟨ls, he⟩ | hq | hrest
  · exact .inl (hnotices accountNo hn)
  · rcases hplayers q hin (h.gone accountNo q hl) with hin | hleave
    · exact .inr (.inl hin)
    · exact .inr (.inr (.inl hleave))
  · exact .inr (.inr (.inr (.inl (henter q ls he))))
  · exact .inr (.inr (.inr (.inl (hmsgQ q hq))))
  · exact .inr (.inr (.inr (.inr hrest)))

theorem Located.read (h : Located s) {q : ℕ} {k : Player → State}
    (hk : ∀ p, s.heap q = some p → Located (k p)) :
    Located (s.read q k) := by
  unfold State.read
  split
  · next p hp => exact hk p hp
  · exact h.fault true s.halted

theorem Located.halt (h : Located s) {pc : AuthPc} (hpc : s.auth = pc) :
    Located { s with auth := pc, halted := true } := by
  subst hpc
  exact h.fault s.fault true

/-- A step of `authThread` that only moves on. -/
theorem Located.moveOn (h : Located s) {pc : AuthPc} (hpc : s.auth = pc)
    (pc' : AuthPc) (hnotice : pc'.notice = pc.notice) (henter : ∀ q ls, pc ≠ .enterField q ls)
    (hgone : pc'.gone = none) (htodo : ∀ q ∈ pc'.todo, q ∈ s.authPlayers) :
    Located { s with auth := pc' } := by
  subst hpc
  exact h.auth hnotice henter hgone htodo s.log

/-! One lemma for each place of `authThread`. -/

section

variable {a : AuthInput} {q n : ℕ} {accountNo : ℤ} {todo ds ls : List ℕ}

theorem located_top (h : Located s) (hpc : s.auth = .top) (he : authStep cap a s = some t) :
    Located t := by
  simp only [authStep, hpc] at he
  split_ifs at he with hdone horder
  · cases he
    exact h.moveOn hpc _ rfl (by simp) rfl (by simp [AuthPc.todo])
  · cases he
    refine h.move (fun a ha => ?_) (fun _ => id) (fun q hq _ => .inl (Finset.mem_union_left _ hq))
      (by simp [hpc]) rfl fun q hq => ?_
    · unfold State.notices at ha
      rwa [hpc] at ha
    · rw [← horder.2]
      exact List.mem_toFinset.mpr hq

theorem located_messages (h : Located s) (hpc : s.auth = .messages todo)
    (he : authStep cap a s = some t) : Located t := by
  have htodo := h.todo
  rw [hpc] at htodo
  simp only [authStep, hpc] at he
  cases todo with
  | nil =>
    cases he
    exact h.moveOn hpc _ rfl (by simp) rfl (by simp [AuthPc.todo])
  | cons q todo =>
    have htail : ∀ q' ∈ todo, q' ∈ s.authPlayers :=
      fun q' hq' => htodo q' (List.mem_cons_of_mem _ hq')
    cases he
    refine h.read fun p hp => ?_
    split_ifs
    · exact h.moveOn hpc _ rfl (by simp) rfl htail
    all_goals
      split
      · exact h.moveOn hpc _ rfl (by simp) rfl htail
      · exact h
      · next accountNo _ =>
        have hnotice : (AuthPc.promote q accountNo todo).notice = s.auth.notice := by
          rw [hpc]
          rfl
        exact h.auth hnotice (by simp [hpc]) rfl htodo _

theorem located_promote (h : Located s) (hlife : Life s) (hpc : s.auth = .promote q accountNo todo)
    (he : authStep cap a s = some t) : Located t := by
  have htodo := h.todo
  rw [hpc] at htodo
  simp only [authStep, hpc] at he
  split at he
  · cases he
    exact h.read fun p hp => h.moveOn hpc _ rfl (by simp) rfl htodo
  · split_ifs at he with hq
    · cases he
      exact h.read fun p hp => h.promote hlife hpc hq hp
    · cases he
      exact h.moveOn hpc _ rfl (by simp) rfl htodo

theorem located_notify (h : Located s) (hpc : s.auth = .notify n) (he : authStep cap a s = some t) :
    Located t := by
  simp only [authStep, hpc] at he
  cases n with
  | zero =>
    dsimp only at he
    split_ifs at he
    cases he
    exact h.moveOn hpc _ rfl (by simp) rfl (by simp [AuthPc.todo])
  | succ n =>
    dsimp only at he
    split at he
    · cases he
    · next accountNo notifyMsgQ hq =>
      cases he
      refine h.move (fun a ha => ?_) (fun _ => id) (fun q hq _ => .inl hq)
        (by simp [hpc]) rfl (by simp [AuthPc.todo])
      unfold State.notices at ha
      rwa [hpc, hq] at ha

theorem located_notifyProc (h : Located s) (hpc : s.auth = .notifyProc accountNo n)
    (he : authStep cap a s = some t) :
    Located t := by
  simp only [authStep, hpc] at he
  split at he
  · cases he
    exact h.halt hpc
  · cases he
    exact h.read fun p hp => h.handBack hpc

theorem located_scan (h : Located s) (hpc : s.auth = .scan todo ds ls)
    (he : authStep cap a s = some t) : Located t := by
  simp only [authStep, hpc] at he
  cases todo with
  | nil =>
    cases he
    exact h.moveOn hpc _ rfl (by simp) rfl (by simp [AuthPc.todo])
  | cons q todo =>
    cases he
    refine h.read fun p hp => ?_
    split_ifs
    all_goals exact h.moveOn hpc _ rfl (by simp) rfl (by simp [AuthPc.todo])

theorem located_deletePlayers (h : Located s) (hpc : s.auth = .deletePlayers ds ls)
    (he : authStep cap a s = some t) :
    Located t := by
  simp only [authStep, hpc] at he
  cases ds with
  | nil =>
    cases he
    exact h.moveOn hpc _ rfl (by simp) rfl (by simp [AuthPc.todo])
  | cons q ds =>
    dsimp only at he
    by_cases hq : q ∈ s.authPlayers
    · rw [if_pos hq] at he
      cases he
      exact h.read fun p hp => h.unlist hpc hp
    · rw [if_neg hq] at he
      cases he
      exact h.halt hpc

theorem located_free (h : Located s) (hpc : s.auth = .free q ds ls)
    (he : authStep cap a s = some t) : Located t := by
  simp only [authStep, hpc] at he
  cases he
  exact h.read fun p hp => h.free hpc

theorem located_erasePlayer (h : Located s) (hpc : s.auth = .erasePlayer q ds ls)
    (he : authStep cap a s = some t) :
    Located t := by
  simp only [authStep, hpc] at he
  cases he
  refine h.move (fun a ha => ?_) (fun _ => id) (fun q' hq' hgone => ?_)
    (by simp [hpc]) rfl (by simp [AuthPc.todo])
  · unfold State.notices at ha
    rwa [hpc] at ha
  · refine .inl (Finset.mem_erase.mpr ⟨fun hqq => hgone ?_, hq'⟩)
    rw [hpc, hqq]
    rfl

theorem located_leavePlayers (h : Located s) (hpc : s.auth = .leavePlayers ls)
    (he : authStep cap a s = some t) :
    Located t := by
  simp only [authStep, hpc] at he
  cases ls with
  | nil =>
    cases he
    exact h.moveOn hpc _ rfl (by simp) rfl (by simp [AuthPc.todo])
  | cons q ls =>
    dsimp only at he
    by_cases hq : q ∈ s.authPlayers
    · rw [if_pos hq] at he
      cases he
      refine h.read fun p hp => ?_
      split_ifs
      · exact h.moveOn hpc _ rfl (by simp) rfl (by simp [AuthPc.todo])
      · refine h.move (fun a ha => ?_) (fun _ => id) (fun q' hq' _ => ?_)
          (by simp [hpc]) rfl (by simp [AuthPc.todo])
        · unfold State.notices at ha
          rwa [hpc] at ha
        · by_cases hqq : q' = q
          · exact .inr ⟨ls, by rw [hqq]⟩
          · exact .inl (Finset.mem_erase.mpr ⟨hqq, hq'⟩)
      · exact h.halt hpc
    · rw [if_neg hq] at he
      cases he
      exact h.halt hpc

theorem located_enterField (h : Located s) (hpc : s.auth = .enterField q ls)
    (he : authStep cap a s = some t) :
    Located t := by
  simp only [authStep, hpc] at he
  cases he
  refine h.move (fun a ha => ?_) (fun q' hq' => List.mem_append_left _ hq')
    (fun q' hq' _ => .inl hq') (fun q' ls' he => ?_) rfl (by simp [AuthPc.todo])
  · unfold State.notices at ha
    rwa [hpc] at ha
  · rw [hpc] at he
    cases he
    simp

theorem located_authStep (h : Located s) (hlife : Life s) (he : authStep cap a s = some t) :
    Located t := by
  cases hpc : s.auth with
  | top => exact located_top h hpc he
  | messages => exact located_messages h hpc he
  | promote => exact located_promote h hlife hpc he
  | notify => exact located_notify h hpc he
  | notifyProc => exact located_notifyProc h hpc he
  | scan => exact located_scan h hpc he
  | deletePlayers => exact located_deletePlayers h hpc he
  | free => exact located_free h hpc he
  | erasePlayer => exact located_erasePlayer h hpc he
  | leavePlayers => exact located_leavePlayers h hpc he
  | enterField => exact located_enterField h hpc he
  | done => simp only [authStep, hpc, reduceCtorEq] at he

end

/-- What the field thread does to the players that it has, or is handed. -/
structure Passes (s t : State) : Prop where
  heap : ∀ q p, s.heap q = some p →
    ∃ p', t.heap q = some p' ∧ p'.accountNo = p.accountNo ∧ p'.nextFieldID = p.nextFieldID
  notices : ∀ a ∈ s.notices, a ∈ t.notices
  msgQ : ∀ q ∈ s.msgQ, q ∈ t.msgQ ∨ q ∈ t.field.registers
  registers : ∀ q ∈ s.field.registers, q ∈ t.field.registers ∨ q ∈ t.fieldPlayers ∧
    t.field.window ≠ some q
  players : ∀ q ∈ s.fieldPlayers, s.field.window ≠ some q →
    q ∈ t.fieldPlayers ∧ t.field.window ≠ some q ∨
    ∀ p, s.heap q = some p → p.accountNo ∈ t.notices
  holds : t.field.Holds t

theorem Located.of_passes (h : Located s) (hp : Passes s t)
    (hun : t.unAuthSessions = s.unAuthSessions) (hhash : t.accountsHash = s.accountsHash)
    (hauth : t.auth = s.auth) (hplayers : t.authPlayers = s.authPlayers) :
    Located t := by
  refine ⟨fun q hq => ?_, fun a q hl => ?_, fun q ds ls hpc => ?_, fun a q hl => ?_,
    fun a q hl => ?_, hp.holds, ?_⟩
  · obtain ⟨p, hq, hn⟩ := h.unAuth q (hun ▸ hq)
    obtain ⟨p', hq', -, hn'⟩ := hp.heap q p hq
    exact ⟨p', hq', hn'.trans hn⟩
  · rw [hhash] at hl
    obtain ⟨hnot, p, hq, ha⟩ := h.owner a q hl
    obtain ⟨p', hq', ha', -⟩ := hp.heap q p hq
    exact ⟨hun ▸ hnot, p', hq', ha'.trans ha⟩
  · exact hun ▸ h.freed q ds ls (hauth ▸ hpc)
  · rw [hhash] at hl
    exact hauth ▸ h.gone a q hl
  · rw [hhash] at hl
    rcases h.place a q hl with hn | hin | ⟨ls, he⟩ | hq | hreg | ⟨hin, hw⟩
    · exact .inl (hp.notices a hn)
    · exact .inr (.inl (hplayers ▸ hin))
    · exact .inr (.inr (.inl ⟨ls, hauth ▸ he⟩))
    · rcases hp.msgQ q hq with hq | hreg
      · exact .inr (.inr (.inr (.inl hq)))
      · exact .inr (.inr (.inr (.inr (.inl hreg))))
    · rcases hp.registers q hreg with hreg | hin
      · exact .inr (.inr (.inr (.inr (.inl hreg))))
      · exact .inr (.inr (.inr (.inr (.inr hin))))
    · rcases hp.players q hin hw with hin | hn
      · exact .inr (.inr (.inr (.inr (.inr hin))))
      · obtain ⟨-, p, hq, rfl⟩ := h.owner a q hl
        exact .inl (hn p hq)
  · rw [hauth, hplayers]
    exact h.todo

theorem fieldStep_rest {a : FieldInput} (he : fieldStep cap a s = some t) :
    t.unAuthSessions = s.unAuthSessions ∧
    t.accountsHash = s.accountsHash ∧ t.auth = s.auth ∧ t.authPlayers = s.authPlayers := by
  unfold fieldStep State.read at he
  dsimp only at he
  repeat' split at he
  all_goals cases he
  all_goals exact ⟨rfl, rfl, rfl, rfl⟩

/-- Setting a field of a `Player` that the two threads do not compare. -/
theorem kept_update {q : ℕ} {p p' : Player} (hp : s.heap q = some p)
    (ha : p'.accountNo = p.accountNo) (hn : p'.nextFieldID = p.nextFieldID) (q' : ℕ) (r : Player)
    (hr : s.heap q' = some r) :
    ∃ r', Function.update s.heap q (some p') q' = some r' ∧ r'.accountNo = r.accountNo ∧
      r'.nextFieldID = r.nextFieldID := by
  by_cases hq : q' = q
  · subst hq
    rw [hp] at hr
    cases hr
    exact ⟨p', Function.update_self _ _ _, ha, hn⟩
  · exact ⟨r, (Function.update_of_ne hq _ _).trans hr, rfl, rfl⟩

/-- A step that leaves the players where they are. -/
theorem passes_quiet {heap : ℕ → Option Player} {sectors : Finset (Sector × ℕ)}
    {dbReqQ dbResQ : List Job} {pc : FieldPc} {fault halted : Bool} {stage : ℕ → Stage}
    (hheap : ∀ q p, s.heap q = some p →
      ∃ p', heap q = some p' ∧ p'.accountNo = p.accountNo ∧ p'.nextFieldID = p.nextFieldID)
    (hreg : ∀ q ∈ s.field.registers, q ∈ pc.registers)
    (hw : ∀ q, pc.window = some q → s.field.window = some q)
    (hholds : pc.Holds
      { s with heap, sectors, dbReqQ, dbResQ, field := pc, fault, halted, stage }) :
    Passes s { s with heap, sectors, dbReqQ, dbResQ, field := pc, fault, halted, stage } where
  heap := hheap
  notices _ := id
  msgQ _ := .inl
  registers q hq := .inl (hreg q hq)
  players q hq hne := .inl ⟨hq, fun hpc => hne (hw q hpc)⟩
  holds := hholds

theorem passes_fieldStep {a : FieldInput} (h : s.field.Holds s) (he : fieldStep cap a s = some t) :
    Passes s t := by
  have hsame : ∀ q p, s.heap q = some p →
      ∃ p', s.heap q = some p' ∧ p'.accountNo = p.accountNo ∧ p'.nextFieldID = p.nextFieldID :=
    fun q p hp => ⟨p, hp, rfl, rfl⟩
  unfold fieldStep State.read at he
  dsimp only at he
  repeat' split at he
  all_goals cases he
  all_goals first
    | exact passes_quiet hsame (fun _ => id) (fun _ => id) h
    | exact passes_quiet hsame (by simp only [*]; nofun)
        (by simp only [*]; exact fun _ => id) trivial
    | exact passes_quiet (kept_update (by assumption) (by rfl) (by rfl)) (by simp only [*]; nofun)
        (by simp only [*]; exact fun _ => id) trivial
    | skip
  · -- a player is taken from `mMsgQ`
    next n hpc _ q msgQ hq =>
    refine ⟨hsame, fun _ => id, fun q' hq' => ?_, by simp only [hpc]; nofun,
      fun q' hin _ => .inl ⟨hin, nofun⟩, trivial⟩
    rw [hq] at hq'
    rcases List.mem_cons.mp hq' with rfl | hin
    · exact .inr (List.mem_singleton_self _)
    · exact .inl hin
  · -- and is put into `players`
    next q n hpc _ p hp hnew =>
    refine ⟨hsame, fun _ => id, fun _ => .inl, fun q' hreg => ?_,
      fun q' hin _ => .inl ⟨Finset.mem_insert_of_mem hin, nofun⟩, trivial⟩
    rw [hpc] at hreg
    obtain rfl := List.mem_singleton.mp hreg
    exact .inr ⟨Finset.mem_insert_self _ _, nofun⟩
  · next hpc _ q _ _ p hp _ _ =>
    exact passes_quiet (kept_update hp rfl rfl) (fun _ => id) (fun _ => id) (by rw [hpc]; trivial)
  · next q n hpc hin => exact passes_quiet hsame (by simp only [hpc]; nofun) nofun hin
  · next q n hpc _ p hp =>
    rw [hpc] at h
    exact passes_quiet (kept_update hp rfl rfl) (by simp only [hpc]; nofun) nofun h
  · -- `mAccountNo` is read for the notice
    next q n hpc _ p hp =>
    rw [hpc] at h
    refine passes_quiet hsame (by simp only [hpc]; nofun) nofun ⟨h, fun p' hp' => ?_⟩
    rw [hp] at hp'
    cases hp'
    rfl
  · -- the notice is out
    next q accountNo n hpc =>
    rw [hpc] at h
    refine ⟨hsame, fun a ha => ?_, fun _ => .inl, by simp only [hpc]; nofun,
      fun q' hin _ => ?_, trivial⟩
    · exact (List.mem_append.mp ha).elim (fun hin => List.mem_append_left _ hin)
        fun hin => List.mem_append_right _ (List.mem_append_left _ hin)
    by_cases hqq : q' = q
    · subst hqq
      refine .inr fun p hp => ?_
      rw [h.2 p hp]
      exact List.mem_append_right _ (List.mem_append_right _ (List.mem_singleton_self _))
    · exact .inl ⟨hin, fun hw => hqq (Option.some.inj hw).symm⟩
  · -- and the player is taken out of `players`
    next q n hpc =>
    refine ⟨hsame, fun _ => id, fun _ => .inl, by simp only [hpc]; nofun,
      fun q' hin hw => ?_, trivial⟩
    refine .inl ⟨Finset.mem_erase.mpr ⟨?_, hin⟩, nofun⟩
    rintro rfl
    exact hw (by rw [hpc]; rfl)

theorem located_onAccept {q : ℕ} (h : Located s) (hlife : Life s)
    (he : next cap s (.onAccept q) = some t) : Located t := by
  simp only [next] at he
  split_ifs at he with _ hq
  · cases he
    exact ⟨h.unAuth, h.owner, h.freed, h.gone, h.place, h.holds, h.todo⟩
  cases he
  have hheap : ∀ q' < s.nextSeq, Function.update s.heap q (some Player.new) q' = s.heap q' :=
    fun q' hlt => Function.update_of_ne (by omega) _ _
  have hold : ∀ q' p, s.heap q' = some p → Function.update s.heap q (some Player.new) q' = some p :=
    fun q' p hp => (hheap q' (hlife.fresh q' p hp)).trans hp
  refine ⟨fun q' hin => ?_, fun a q' hl => ?_, fun q' ds ls hpc hin => ?_, h.gone,
    h.place, ?_, h.todo⟩
  · rcases Finset.mem_insert.mp hin with rfl | hin
    · exact ⟨_, Function.update_self _ _ _, rfl⟩
    · obtain ⟨p, hp, hn⟩ := h.unAuth q' hin
      exact ⟨p, hold q' p hp, hn⟩
  · obtain ⟨hnot, p, hp, ha⟩ := h.owner a q' hl
    refine ⟨fun hin => ?_, p, hold q' p hp, ha⟩
    have hlt := hlife.fresh q' p hp
    exact (Finset.mem_insert.mp hin).elim (fun hqq => by omega) hnot
  · have hlt := (hlife.cut q' (by rw [show s.auth = _ from hpc]; exact List.mem_cons_self)).1
    exact (Finset.mem_insert.mp hin).elim (fun hqq => by omega) (h.freed q' ds ls hpc)
  · have hholds := h.holds
    have hlt : ∀ q' ∈ s.fieldPlayers, q' < s.nextSeq :=
      fun q' hin => (hlife.passed q' (.inr (.inr (.inr hin)))).1
    show FieldPc.Holds _ s.field
    revert hholds
    cases s.field with
    | notifyDisconnect q' a n =>
      rintro ⟨hin, ha⟩
      exact ⟨hin, fun p hp => ha p ((hheap q' (hlt q' hin)).symm.trans hp)⟩
    | _ => exact id

theorem located_onRelease {q : ℕ} (h : Located s) (he : next cap s (.onRelease q) = some t) :
    Located t := by
  simp only [next] at he
  split_ifs at he
  split at he
  · next p hp =>
    cases he
    refine h.of_passes ⟨kept_update hp rfl rfl, fun _ => id, fun _ => .inl, fun _ => .inl,
      fun _ hin hw => .inl ⟨hin, hw⟩, ?_⟩ rfl rfl rfl rfl
    have hholds := h.holds
    show FieldPc.Holds _ s.field
    revert hholds
    cases s.field with
    | notifyDisconnect q' a n =>
      rintro ⟨hin, ha⟩
      refine ⟨hin, fun p' hp' => ?_⟩
      by_cases hqq : q' = q
      · subst hqq
        rw [show (s.setPlayer q' _).heap q' = _ from Function.update_self _ _ _] at hp'
        cases hp'
        exact ha p hp
      · exact ha p' ((Function.update_of_ne hqq _ _).symm.trans hp')
    | _ => exact id
  · cases he

theorem located_dbStep (h : Located s) (he : dbStep s = some t) : Located t := by
  unfold dbStep at he
  repeat' split at he
  all_goals cases he
  all_goals exact ⟨h.unAuth, h.owner, h.freed, h.gone, h.place, h.holds, h.todo⟩

/-- The players of `mAccountsHash` are found, however the threads interleave. -/
theorem located_step {l : Step} (h : Located s) (hlife : Life s) (he : next cap s l = some t) :
    Located t := by
  cases l with
  | onAccept q => exact located_onAccept h hlife he
  | onRelease q => exact located_onRelease h he
  | auth a =>
    simp only [next] at he
    split_ifs at he
    exact located_authStep h hlife he
  | field a =>
    simp only [next] at he
    split_ifs at he
    obtain ⟨hun, hhash, hauth, hplayers⟩ := fieldStep_rest he
    exact h.of_passes (passes_fieldStep h.holds he) hun hhash hauth hplayers
  | db =>
    simp only [next] at he
    split_ifs at he
    exact located_dbStep h he
  | stop =>
    simp only [next] at he
    split_ifs at he
    cases he
    exact ⟨h.unAuth, h.owner, h.freed, h.gone, h.place, h.holds, h.todo⟩

theorem life_step {l : Step} (h : Life s) (he : next cap s l = some t) : Life t := by
  cases l with
  | onAccept q => exact life_onAccept h he
  | onRelease q => exact life_onRelease h he
  | auth a =>
    simp only [next] at he
    split_ifs at he
    exact life_authStep h he
  | field a =>
    simp only [next] at he
    split_ifs at he
    exact life_fieldStep h he
  | db =>
    simp only [next] at he
    split_ifs at he
    exact h.of_unmoved (unmoved_dbStep he)
  | stop =>
    simp only [next] at he
    split_ifs at he
    cases he
    exact h.of_eq (fun _ => (Stays.of_eq rfl).ages) rfl rfl rfl rfl rfl

theorem located_start : Located start where
  unAuth q hq := by cases hq
  owner a q hl := by cases hl
  freed q ds ls hpc := by cases hpc
  gone a q hl := by cases hl
  place a q hl := by cases hl
  holds := trivial
  todo q hq := by cases hq

end

/-! ### The end of the server -/

/-- The server, and whether the field thread has found its `useSize` to be 0 in this turn of its
loop. -/
structure Ending where
  server : State
  tested : Bool

namespace Ending

/-- `stop` waits until every session has been released. -/
def released (s : State) : Bool :=
  (List.range s.nextSeq).all fun q =>
    match s.heap q with
    | some p => !p.connect
    | none => true

/-- A step of the server, in which the field thread looks at `mMsgQ` first and at its players and
`mBOn` after that. `~FieldServer` accepts no session after `stop`. -/
def next (cap : ℕ) (e : Ending) (l : Step) : Option Ending :=
  let step := (Server.next cap e.server l).map fun server => { e with server }
  if e.server.fault ∨ e.server.halted then none
  else
    match l with
    | .onAccept _ => if e.server.bOn then step else none
    | .stop => if released e.server then step else none
    | .field _ =>
      if e.server.field = .top then
        if e.tested then
          if e.server.fieldPlayers = ∅ ∧ e.server.bOn = false then
            some ⟨{ e.server with field := .done }, false⟩
          else some ⟨{ e.server with field := .messages 0 }, false⟩
        else if e.server.msgQ = [] then some { e with tested := true }
        else step
      else step
    | _ => step

end Ending

def ending (cap : ℕ) : System Ending Step where
  init e := e = ⟨start, false⟩
  next := Ending.next cap

/-- When the field thread leaves its loop, `authThread` is about to hand over nobody, and has handed
over nobody since `useSize` was read. -/
def HandsNobody (e : Ending) : Step → Prop
  | .field _ => e.server.field = .top → e.tested = true → e.server.fieldPlayers = ∅ →
    e.server.bOn = false →
      e.server.auth.leaves = [] ∧ e.server.msgQ = []
  | _ => True

/-- Once the field thread has left, nobody is handed to it, and every entry of `mAccountsHash` will
be removed: its notice is on the way, or the next scan of `authThread` meets its player, who is
disconnected. -/
def Sealed (s : State) : Prop :=
  s.field = .done → s.msgQ = [] ∧ ∀ accountNo q, s.accountsHash.lookup accountNo = some q →
    accountNo ∈ s.notices ∨ q ∈ s.authPlayers ∧ ∃ p, s.heap q = some p ∧ p.connect = false

structure EndInv (s : State) : Prop where
  life : Life s
  located : Located s
  silent : s.bOn = false → ∀ q p, s.heap q = some p → p.connect = false
  done : s.field = .done → s.bOn = false ∧ s.fieldPlayers = ∅ ∧ s.auth.leaves = [] ∧ s.msgQ = []

section

variable {s t : State} {cap : ℕ}

theorem EndInv.toSealed (h : EndInv s) : Sealed s := by
  intro hdone
  obtain ⟨hoff, hplayers, hleaves, hmsgQ⟩ := h.done hdone
  refine ⟨hmsgQ, fun accountNo q hl => ?_⟩
  obtain ⟨-, p, hp, -⟩ := h.located.owner accountNo q hl
  rcases h.located.place accountNo q hl with hn | hin | ⟨ls, he⟩ | hq | hreg | ⟨hin, -⟩
  · exact .inl hn
  · exact .inr ⟨hin, p, hp, h.silent hoff q p hp⟩
  · rw [he] at hleaves
    cases hleaves
  · rw [hmsgQ] at hq
    cases hq
  · rw [hdone] at hreg
    cases hreg
  · rw [hplayers] at hin
    cases hin

theorem released_iff (h : Life s) : Ending.released s = true ↔ ∀ q p, s.heap q = some p →
    p.connect = false := by
  unfold Ending.released
  rw [List.all_eq_true]
  refine ⟨fun hall q p hp => ?_, fun hall q _ => ?_⟩
  · have hq := hall q (List.mem_range.mpr (h.fresh q p hp))
    rw [hp] at hq
    simpa using hq
  · cases hp : s.heap q with
    | none => rfl
    | some p => simp [hall q p hp]

/-- `authThread` is about to hand over only players that it has found connected. -/
theorem leaves_authStep {a : AuthInput} {q : ℕ} (he : authStep cap a s = some t)
    (hq : q ∈ t.auth.leaves) :
    q ∈ s.auth.leaves ∨ ∃ p, s.heap q = some p ∧ p.connect = true := by
  unfold authStep State.read at he
  dsimp only at he
  repeat' split at he
  all_goals cases he
  all_goals try simp only [AuthPc.leaves] at hq ⊢
  all_goals try simp_all
  all_goals grind

theorem msgQ_authStep {a : AuthInput} (he : authStep cap a s = some t) :
    t.msgQ = s.msgQ ∨ ∃ q ls, s.auth = .enterField q ls := by
  unfold authStep State.read at he
  dsimp only at he
  repeat' split at he
  all_goals cases he
  all_goals first
    | exact .inl rfl
    | exact .inr ⟨_, _, ‹_›⟩

theorem bOn_authStep {a : AuthInput} (he : authStep cap a s = some t) : t.bOn = s.bOn := by
  unfold authStep State.read at he
  dsimp only at he
  repeat' split at he
  all_goals cases he
  all_goals rfl

/-- The field thread leaves its loop with `mMsgQ` empty. -/
theorem done_fieldStep {a : FieldInput} (he : fieldStep cap a s = some t) :
    t.bOn = s.bOn ∧ (t.field = .done → s.field = .top ∧ s.msgQ = []) := by
  unfold fieldStep State.read at he
  dsimp only at he
  repeat' split at he
  all_goals cases he
  all_goals refine ⟨rfl, fun hdone => ?_⟩
  all_goals try simp only [*, State.setPlayer, reduceCtorEq] at hdone
  all_goals exact ⟨‹_›, (‹_ ∧ _› : _ ∧ _).1⟩

theorem EndInv.of_ages (h : EndInv s) (hlife : Life t) (hloc : Located t) (ha : ∀ q, Ages s t q)
    (hoff : t.bOn = s.bOn)
    (hdone : t.field = .done →
      t.bOn = false ∧ t.fieldPlayers = ∅ ∧ t.auth.leaves = [] ∧ t.msgQ = []) : EndInv t where
  life := hlife
  located := hloc
  silent hf q p' hp' := by
    obtain ⟨p, hp, hc, -⟩ := ha q p' hp'
    exact hc (h.silent (hoff ▸ hf) q p hp)
  done := hdone

theorem endInv_authStep {a : AuthInput} (h : EndInv s) (he : authStep cap a s = some t) :
    EndInv t := by
  refine h.of_ages (life_authStep h.life he) (located_authStep h.located h.life he)
    (fun _ => ages_authStep he) (bOn_authStep he) fun hdone => ?_
  obtain ⟨-, hfield, hplayers⟩ := authStep_frame he
  obtain ⟨hoff, hnone, hleaves, hmsgQ⟩ := h.done (hfield ▸ hdone)
  refine ⟨(bOn_authStep he).trans hoff, hplayers.trans hnone, ?_, ?_⟩
  · -- everybody is disconnected, so the scan finds nobody
    refine List.eq_nil_iff_forall_not_mem.mpr fun q hq => ?_
    rcases leaves_authStep he hq with hin | ⟨p, hp, hc⟩
    · rw [hleaves] at hin
      cases hin
    · rw [h.silent hoff q p hp] at hc
      cases hc
  · rcases msgQ_authStep he with hQ | ⟨q, ls, hpc⟩
    · exact hQ.trans hmsgQ
    · rw [hpc] at hleaves
      cases hleaves

theorem endInv_fieldStep {a : FieldInput} (h : EndInv s) (htop : s.field = .top → s.msgQ ≠ [])
    (he : fieldStep cap a s = some t) : EndInv t := by
  obtain ⟨hun, hhash, hauth, hplayers⟩ := fieldStep_rest he
  obtain ⟨hoff, hdone⟩ := done_fieldStep he
  refine h.of_ages (life_fieldStep h.life he)
    (h.located.of_passes (passes_fieldStep h.located.holds he) hun hhash hauth hplayers)
    (fun _ => (stays_fieldStep he).ages) hoff fun hd => ?_
  exact absurd (hdone hd).2 (htop (hdone hd).1)

theorem endInv_next {l : Step} (h : EndInv s) (haccept : ∀ q, l = .onAccept q → s.bOn = true)
    (hfield : ∀ a, l = .field a → s.field = .top → s.msgQ ≠ [])
    (hstop : l = .stop → Ending.released s = true) (he : next cap s l = some t) : EndInv t := by
  have hlife := life_step h.life he
  have hloc := located_step h.located h.life he
  cases l with
  | onAccept q =>
    have hon := haccept q rfl
    have hdown : s.field ≠ .done := by
      intro hd
      rw [(h.done hd).1] at hon
      cases hon
    simp only [next] at he
    split_ifs at he
    all_goals cases he
    all_goals refine ⟨hlife, hloc, fun hoff => ?_, fun hd => absurd hd hdown⟩
    all_goals exact absurd (hon.symm.trans hoff) (by decide)
  | onRelease q =>
    have hoff : t.bOn = s.bOn := by
      simp only [next] at he
      split_ifs at he
      split at he
      · cases he
        rfl
      · cases he
    obtain ⟨-, hauth, hfield, hQ, hp⟩ := onRelease_frame he
    refine h.of_ages hlife hloc (fun _ => (stays_onRelease he).ages) hoff fun hd => ?_
    rw [hoff, hauth, hQ, hp]
    exact h.done (hfield ▸ hd)
  | auth a =>
    simp only [next] at he
    split_ifs at he
    exact endInv_authStep h he
  | field a =>
    simp only [next] at he
    split_ifs at he
    exact endInv_fieldStep h (hfield a rfl) he
  | db =>
    simp only [next] at he
    split_ifs at he
    have hu := unmoved_dbStep he
    have hoff : t.bOn = s.bOn := by
      unfold dbStep at he
      repeat' split at he
      all_goals cases he
      all_goals rfl
    refine h.of_ages hlife hloc (fun q => (hu.stays q).ages) hoff fun hd => ?_
    rw [hoff, hu.auth, hu.msgQ, hu.fieldPlayers]
    exact h.done (hu.field ▸ hd)
  | stop =>
    have hall := (released_iff h.life).mp (hstop rfl)
    simp only [next] at he
    split_ifs at he
    cases he
    exact ⟨hlife, hloc, fun _ => hall, fun hd => ⟨rfl, (h.done hd).2⟩⟩

/-- The field thread takes its exit, or goes on. -/
theorem EndInv.turn (h : EndInv s) {pc : FieldPc} (htop : s.field = .top)
    (hreg : pc.registers = []) (hw : pc.window = none) (hholds : pc.Holds { s with field := pc })
    (hdone : pc = .done → s.bOn = false ∧ s.fieldPlayers = ∅ ∧ s.auth.leaves = [] ∧ s.msgQ = []) :
    EndInv { s with field := pc } := by
  have hpass : ∀ q, Passed { s with field := pc } q → Passed s q := by
    intro q hq
    unfold Passed at hq ⊢
    rwa [htop, show FieldPc.registers FieldPc.top = pc.registers from hreg.symm]
  refine h.of_ages ?_ ?_ (fun _ => (Stays.of_eq rfl).ages) rfl hdone
  · exact h.life.of_ages (fun _ => (Stays.of_eq rfl).ages) rfl (fun q hq => .inl (hpass q hq))
      fun _ hq => .inl hq
  · refine h.located.of_passes ?_ rfl rfl rfl rfl
    refine passes_quiet (fun q p hp => ⟨p, hp, rfl, rfl⟩) ?_ ?_ hholds
    · rw [htop]
      nofun
    · rw [hw]
      nofun

theorem endInv_start : EndInv start where
  life := life_start
  located := located_start
  silent _ _ _ hp := by cases hp
  done hd := by cases hd

/-- Only the field thread moves where it stands. -/
theorem field_next {l : Step} (hl : ∀ a, l ≠ .field a) (he : next cap s l = some t) :
    t.field = s.field := by
  cases l with
  | field a => exact absurd rfl (hl a)
  | onRelease q => exact (onRelease_frame he).2.2.1
  | auth a =>
    simp only [next] at he
    split_ifs at he
    exact (authStep_frame he).2.1
  | db =>
    simp only [next] at he
    split_ifs at he
    exact (unmoved_dbStep he).field
  | _ =>
    simp only [next] at he
    split_ifs at he
    all_goals cases he
    all_goals rfl

theorem endInv_step {e e' : Ending} {l : Step}
    (h : EndInv e.server ∧ (e.tested = true → e.server.field = .top)) (hg : HandsNobody e l)
    (he : (ending cap).next e l = some e') :
    EndInv e'.server ∧ (e'.tested = true → e'.server.field = .top) := by
  obtain ⟨hinv, htested⟩ := h
  have hother : (∀ a, l ≠ .field a) → (∀ q, l = .onAccept q → e.server.bOn = true) →
      (l = .stop → Ending.released e.server = true) →
      (next cap e.server l).map (fun server => { e with server }) = some e' →
      EndInv e'.server ∧ (e'.tested = true → e'.server.field = .top) := by
    intro hl haccept hstop hmap
    obtain ⟨t, ht, rfl⟩ := Option.map_eq_some_iff.mp hmap
    exact ⟨endInv_next hinv haccept (fun a hf => absurd hf (hl a)) hstop ht,
      fun htest => (field_next hl ht).trans (htested htest)⟩
  simp only [ending, Ending.next] at he
  by_cases hdead : e.server.fault = true ∨ e.server.halted = true
  · rw [if_pos hdead] at he
    cases he
  rw [if_neg hdead] at he
  cases l with
  | onAccept q =>
    dsimp only at he
    split_ifs at he with hon
    exact hother nofun (fun _ _ => hon) nofun he
  | onRelease q => exact hother nofun nofun nofun he
  | auth a => exact hother nofun nofun nofun he
  | db => exact hother nofun nofun nofun he
  | stop =>
    dsimp only at he
    split_ifs at he with hall
    exact hother nofun nofun (fun _ => hall) he
  | field a =>
    have hstep : (e.server.field = .top → e.server.msgQ ≠ []) → e.tested = false →
        (next cap e.server (.field a)).map (fun server => { e with server }) = some e' →
        EndInv e'.server ∧ (e'.tested = true → e'.server.field = .top) := by
      intro hQ hfalse hmap
      obtain ⟨t, ht, rfl⟩ := Option.map_eq_some_iff.mp hmap
      exact ⟨endInv_next (l := .field a) hinv nofun (fun _ _ => hQ) nofun ht,
        fun htest => absurd (htest.symm.trans hfalse) (by decide)⟩
    dsimp only at he
    split_ifs at he with htop htest hexit hempty
    · cases he
      obtain ⟨hleaves, hmsgQ⟩ := hg htop htest hexit.1 hexit.2
      exact ⟨hinv.turn htop rfl rfl trivial fun _ => ⟨hexit.2, hexit.1, hleaves, hmsgQ⟩, nofun⟩
    · cases he
      exact ⟨hinv.turn htop rfl rfl trivial nofun, nofun⟩
    · cases he
      exact ⟨hinv, fun _ => htop⟩
    · exact hstep (fun _ => hempty) (by simpa using htest) he
    · exact hstep (fun h => absurd h htop)
        (Bool.eq_false_iff.mpr fun htest => htop (htested htest)) he

end

/-- A field thread that leaves when nobody is about to be handed over is handed nobody, and leaves
no entry behind. -/
theorem field_sealed {cap : ℕ} {e : Ending} (h : ((ending cap).restrict HandsNobody).Reachable e) :
    Sealed e.server := by
  have hinv : ((ending cap).restrict HandsNobody).Invariant fun e =>
      EndInv e.server ∧ (e.tested = true → e.server.field = .top) := by
    apply System.restrict_invariant
    · intro e he
      rw [show e = ⟨start, false⟩ from he]
      exact ⟨endInv_start, nofun⟩
    · intro e e' l hs hg he
      exact endInv_step hs hg he
  exact (hinv.reachable h).1.toSealed

/-- `HandsNobody`, as a test. -/
def handsNobody (e : Ending) : Step → Bool
  | .field _ => !(e.server.field = .top ∧ e.tested = true ∧ e.server.fieldPlayers = ∅ ∧
      e.server.bOn = false) || e.server.auth.leaves = [] && e.server.msgQ = []
  | _ => true

theorem handsNobody_sound (e : Ending) (l : Step) (h : handsNobody e l = true) :
    HandsNobody e l := by
  cases l with
  | field a =>
    intro htop htest hplayers hoff
    simpa [handsNobody, htop, htest, hplayers, hoff] using h
  | _ => trivial

/-- Session 0 logs in with account 7 and is released before the scan of `authThread`, and its entry
can be removed. -/
theorem field_sealed_released : ∃ e : Ending, Sealed e.server ∧ e.server.field = .done ∧
    e.server.accountsHash.lookup 7 = some 0 := by
  have hrun : ((ending DISCONNECT_AND_LEAVE_CAP).execIf handsNobody ⟨start, false⟩
      (loginRun ++ [.onRelease 0, .stop] ++ fieldSteps 2 [])).any (fun e =>
        e.server.field = .done ∧ e.server.accountsHash.lookup 7 = some 0) = true := by
    decide +kernel
  obtain ⟨e, he, hp⟩ := Option.any_eq_true _ _ |>.mp hrun
  exact ⟨e, field_sealed ((System.Reachable.start rfl).execIf handsNobody_sound _ he),
    of_decide_eq_true hp⟩

/-- `authThread` finds session 0 connected, the session is released, the field thread leaves, and
`authThread` hands the player over. -/
theorem orphaned : ¬ ∀ e, (ending DISCONNECT_AND_LEAVE_CAP).Reachable e → Sealed e.server := by
  intro hall
  have hrun : ((ending DISCONNECT_AND_LEAVE_CAP).exec ⟨start, false⟩
      (loginRun ++ authSteps 3 [0] none ++ [.onRelease 0, .stop] ++ fieldSteps 2 [] ++
        authSteps 4 [] none)).any (fun e =>
        e.server.field = .done ∧ e.server.msgQ = [0]) = true := by
    decide +kernel
  obtain ⟨e, he, hp⟩ := Option.any_eq_true _ _ |>.mp hrun
  have hp := of_decide_eq_true hp
  have hsealed := hall e (.exec _ (.start rfl) he) hp.1
  rw [hp.2] at hsealed
  cases hsealed.1

end Server
end MyMMO
