/-
# One session per account

A logged-in player that has not been handed back is what `mAccountsHash` has
under its account (`one_session`), in every run in which no deletion pass
removes the entry of another player. A deletion pass stops at
`CONFIG_DISCONNECT_AND_LEAVE_CAP` players, so a handed-back player can be deleted after its
account has been registered to the next session, and takes that session's
entry with it (`two_sessions`).
-/
import MyMMO.ServerInv

namespace MyMMO
namespace Server

/-- `q` has logged in as `p`; it has not been handed back, and its deletion has not begun. -/
structure LoggedIn (s : State) (q : ℕ) (p : Player) : Prop where
  alive : s.heap q = some p
  auth : p.nextFieldID ≠ AUTH_FIELD_IDX
  notBack : s.stage q ≠ .handedBack
  notFreed : ∀ ds ls, s.auth ≠ .free q ds ls

/-- `mAccountsHash` has every logged-in player under its account, no two of them
have the same account, and the `MY_ASSERT` of `authNotifyPacketProc` holds. -/
structure OneSession (s : State) : Prop where
  entry : ∀ q p, LoggedIn s q p → s.accountsHash.lookup p.accountNo = some q
  unique : ∀ q q' p p', LoggedIn s q p → LoggedIn s q' p' → p.accountNo = p'.accountNo → q = q'
  known : ∀ accountNo n, s.auth = .notifyProc accountNo n → s.accountsHash.lookup accountNo ≠ none

section

variable {s : State}

/-- A logged-in player is between its login and the processing of its notice. -/
theorem LoggedIn.live (h : Inv s) {q : ℕ} {p : Player} (hq : LoggedIn s q p) :
    (s.stage q).live = true := by
  obtain ⟨hp, hauth, hback, hfree⟩ := hq
  have h1 : s.stage q ≠ .absent := by
    intro ha
    rw [h.absent, hp] at ha
    cases ha
  have h2 : s.stage q ≠ .unAuth := fun hu => hauth ((h.record q p hp).unAuth hu)
  have h3 : s.stage q ≠ .deleting := by
    intro hd
    obtain ⟨ds, ls, hf⟩ := h.authSide.deleting q hd
    exact hfree ds ls hf
  revert h1 h2 h3 hback
  cases s.stage q <;> simp [Stage.live]

/-- The account of a notice leads to the player that was notified. -/
theorem Inv.noticed (h : Inv s) {accountNo : ℤ} (ha : accountNo ∈ s.notices) :
    ∃ q, s.stage q = .notified ∧ s.accountsHash.lookup accountNo = some q := by
  obtain ⟨q, p, hst, hp, rfl⟩ := h.notices.2 accountNo ha
  exact ⟨q, hst, (h.record q p hp).live (by rw [hst]; rfl)⟩

theorem Inv.oneSession (h : Inv s) : OneSession s := by
  refine ⟨fun q p hq => (h.record q p hq.alive).live (hq.live h), fun q q' p p' hq hq' ha => ?_,
    fun accountNo n hn => ?_⟩
  · exact h.unique hq.alive hq'.alive (hq.live h) (hq'.live h) ha
  · have hnotice : accountNo ∈ s.notices := by
      rw [State.notices, hn]
      exact List.mem_cons_self
    obtain ⟨q, -, hq⟩ := h.noticed hnotice
    rw [hq]
    simp

end

/-- One session per account, as long as deletion passes keep the entries of other players. -/
theorem one_session {cap : ℕ} {s : State} (h : ((server cap).restrict Keeps).Reachable s) :
    OneSession s :=
  ((invariant cap).reachable h).oneSession

/-! ### Runs on fixed inputs -/

/-- `Keeps`, as a test. -/
def keeps (s : State) : Step → Bool
  | .auth _ =>
    match s.auth with
    | .deletePlayers (q :: _) _ =>
      match s.heap q with
      | some p => q ∈ s.unAuthSessions || (s.accountsHash.lookup p.accountNo).all (· = q)
      | none => true
    | _ => true
  | _ => true

theorem keeps_sound (s : State) (l : Step) (h : keeps s l = true) : Keeps s l := by
  cases l with
  | auth a =>
    intro q ds ls p q' hauth hp hq hl
    unfold keeps at h
    simp only [hauth, hp, hl] at h
    simpa [hq] using h
  | _ => trivial

/-- `n` steps of `authThread`. -/
def authSteps (n : ℕ) (order : List ℕ) (msg : Option (Option ℤ)) : List Step :=
  .replicate n (.auth ⟨order, msg⟩)

/-- `n` steps of the field thread. -/
def fieldSteps (n : ℕ) (order : List ℕ) : List Step := .replicate n (.field ⟨order, none, ⟨0, 0⟩⟩)

/-- Session 0 logs in with account 7. -/
def loginRun : List Step :=
  .onAccept 0 :: (authSteps 1 [0] none ++ authSteps 1 [] (some (some 7)) ++ authSteps 1 [] none)

/-- It goes to the field, its connection ends, and the field thread sends its notice. -/
def leaveRun : List Step :=
  loginRun ++ authSteps 8 [0] none ++ fieldSteps 6 [] ++ [.onRelease 0] ++ fieldSteps 8 [0] ++
    [.db, .db, .db] ++ fieldSteps 12 [0]

/-- The login of session 1 with account 7 is refused. -/
def duplicateRun : List Step :=
  loginRun ++ authSteps 8 [0] none ++ [.onAccept 1] ++ authSteps 1 [1] none ++
    authSteps 1 [] (some (some 7)) ++ authSteps 2 [] none

theorem one_session_duplicateRun :
    ∃ s, OneSession s ∧ s.accountsHash.lookup 7 = some 0 ∧ s.unAuthSessions = {1} := by
  have hrun : (((server DISCONNECT_AND_LEAVE_CAP).execIf keeps start duplicateRun).any fun s =>
      s.accountsHash.lookup 7 = some 0 ∧ s.unAuthSessions = {1}) = true := by decide
  obtain ⟨s, hs, ht⟩ := Option.any_eq_true _ _ |>.mp hrun
  have ht := of_decide_eq_true ht
  exact ⟨s, one_session (System.Reachable.execIf keeps_sound duplicateRun (.start rfl) hs), ht.1,
    ht.2⟩

/-! ### A deletion pass that stops at its cap -/

section

variable {cap : ℕ} {s : State}

/-- `n` sessions have been accepted and released again. -/
def State.crowd (s : State) (n : ℕ) : State :=
  { s with
    nextSeq := s.nextSeq + n
    heap := fun q => if q ∈ Finset.Ico s.nextSeq (s.nextSeq + n) then some { Player.new with
      connect := false } else s.heap q
    stage := fun q => if q ∈ Finset.Ico s.nextSeq (s.nextSeq + n) then .unAuth else s.stage q
    unAuthSessions := s.unAuthSessions ∪ Finset.Ico s.nextSeq (s.nextSeq + n) }

theorem State.crowd_zero (s : State) : s.crowd 0 = s := by
  unfold State.crowd
  simp

theorem leads_crowd (hf : s.fault = false) (hh : s.halted = false) (n : ℕ)
    (hn : s.unAuthSessions.card + n ≤ UNAUTH_MAX_SIZE) : (server cap).Leads s (s.crowd n) := by
  induction n with
  | zero =>
    rw [State.crowd_zero]
    exact System.Leads.refl s
  | succ n ih =>
    apply (ih (by omega)).trans
    have hroom : ¬ UNAUTH_MAX_SIZE ≤ (s.crowd n).unAuthSessions.card := by
      have hle := Finset.card_union_le s.unAuthSessions (Finset.Ico s.nextSeq (s.nextSeq + n))
      rw [Nat.card_Ico] at hle
      simp only [State.crowd]
      omega
    refine ⟨[.onAccept (s.nextSeq + n), .onRelease (s.nextSeq + n)], ?_⟩
    have hgo : ¬ ((s.crowd n).fault = true ∨ (s.crowd n).halted = true) := by
      simp [State.crowd, hf, hh]
    simp only [System.exec, server, next, if_neg hgo, if_neg hroom]
    have hsucc : Finset.Ico s.nextSeq (s.nextSeq + (n + 1)) =
        insert (s.nextSeq + n) (Finset.Ico s.nextSeq (s.nextSeq + n)) := by
      ext q
      simp only [Finset.mem_Ico, Finset.mem_insert]
      omega
    simp only [State.crowd, State.setPlayer, State.setStage, le_refl, if_true, hf,
      hh, Bool.false_eq_true, false_or, if_false, Option.bind_some, Function.update_self,
      Option.some.injEq, State.mk.injEq, true_and, and_true, hsucc]
    refine ⟨Nat.add_assoc _ _ _, ?_, ?_, ?_⟩
    · funext q
      simp only [Function.update_apply, Finset.mem_insert]
      grind
    · rw [Finset.union_insert]
    · funext q
      simp only [Function.update_apply, Finset.mem_insert]
      grind

/-- A step of `authThread`. -/
theorem leads_auth {s t : State} (a : AuthInput) (he : authStep cap a s = some t)
    (hf : s.fault = false) (hh : s.halted = false) : (server cap).Leads s t := by
  apply System.Leads.step (.auth a)
  have hgo : ¬ (s.fault = true ∨ s.halted = true) := by simp [hf, hh]
  simp only [server, next, if_neg hgo]
  exact he

/-- No player has a message. -/
theorem leads_messages (hf : s.fault = false) (hh : s.halted = false) {todo : List ℕ}
    (hs : ∀ q ∈ todo, ∃ p, s.heap q = some p) :
    (server cap).Leads { s with auth := .messages todo } { s with auth := .messages [] } := by
  induction todo with
  | nil => exact System.Leads.refl _
  | cons q todo ih =>
    obtain ⟨p, hp⟩ := hs q List.mem_cons_self
    apply System.Leads.trans _ (ih fun q' hq' => hs q' (List.mem_cons_of_mem _ hq'))
    refine leads_auth ⟨[], none⟩ ?_ hf hh
    simp only [authStep, State.read, hp, ite_self]

/-- The scan ends when the cap is reached. -/
theorem leads_scan (hf : s.fault = false) (hh : s.halted = false) {todo : List ℕ} (rest : List ℕ)
    (ds : List ℕ) (hs : ∀ q ∈ todo, ∃ p, s.heap q = some p ∧ p.connect = false) (hne : todo ≠ [])
    (hcap : ds.length + todo.length = cap) :
    (server cap).Leads { s with auth := .scan (todo ++ rest) ds [] }
      { s with auth := .deletePlayers (ds ++ todo) [] } := by
  induction todo generalizing ds with
  | nil => exact absurd rfl hne
  | cons q todo ih =>
    obtain ⟨p, hp, hc⟩ := hs q List.mem_cons_self
    have hscan : authStep cap ⟨[], none⟩ { s with auth := .scan (q :: todo ++ rest) ds [] } =
        some { s with auth := (if (ds ++ [q]).length = cap then .deletePlayers (ds ++ [q]) []
          else .scan (todo ++ rest) (ds ++ [q]) []) } := by
      have hzero : 0 ≠ cap := by
        rw [List.length_cons] at hcap
        omega
      simp [authStep, State.read, hp, hc, hzero]
    rw [List.length_cons] at hcap
    cases todo with
    | nil =>
      rw [if_pos (by simpa using hcap)] at hscan
      exact leads_auth _ hscan hf hh
    | cons q' todo =>
      rw [if_neg (by simp at hcap ⊢; omega)] at hscan
      apply (leads_auth _ hscan hf hh).trans
      have hrest := ih (ds ++ [q]) (fun q'' hq'' => hs q'' (List.mem_cons_of_mem _ hq''))
        (List.cons_ne_nil _ _) (by simp at hcap ⊢; omega)
      rw [List.append_assoc ds] at hrest
      exact hrest

/-- The sessions `qs` have been deleted. -/
def State.wipe (s : State) (qs : List ℕ) : State :=
  { s with
    unAuthSessions := s.unAuthSessions \ qs.toFinset
    authPlayers := s.authPlayers \ qs.toFinset
    heap := fun q => if q ∈ qs then none else s.heap q
    stage := fun q => if q ∈ qs then .absent else s.stage q }

theorem State.wipe_wipe (s : State) (q : ℕ) (qs : List ℕ) :
    (s.wipe [q]).wipe qs = s.wipe (q :: qs) := by
  simp only [State.wipe, State.mk.injEq, true_and, and_true, List.mem_cons,
    List.not_mem_nil, or_false]
  refine ⟨?_, ?_, ?_, ?_⟩
  · funext q'
    split_ifs <;> grind
  · ext q'
    simp
    grind
  · ext q'
    simp
    grind
  · funext q'
    split_ifs <;> grind

/-- An unauthenticated session is deleted. -/
theorem leads_deleteOne (hf : s.fault = false) (hh : s.halted = false) {q : ℕ} (qs : List ℕ)
    {p : Player} (hu : q ∈ s.unAuthSessions) (ha : q ∈ s.authPlayers) (hp : s.heap q = some p) :
    (server cap).Leads { s with auth := .deletePlayers (q :: qs) [] }
      { s.wipe [q] with auth := .deletePlayers qs [] } := by
  refine ⟨authSteps 3 [] none, ?_⟩
  simp [authSteps, List.replicate, System.exec, server, next, authStep, hf, hh, hu, ha, hp,
    State.read, State.setStage, State.wipe]
  refine ⟨?_, (Finset.sdiff_singleton_eq_erase q _).symm,
    (Finset.sdiff_singleton_eq_erase q _).symm, ?_⟩
  · funext q'
    exact Function.update_apply _ _ _ _
  · funext q'
    exact Function.update_apply _ _ _ _

theorem leads_delete (qs : List ℕ) (hf : s.fault = false) (hh : s.halted = false) (hnd : qs.Nodup)
    (hs : ∀ q ∈ qs, q ∈ s.unAuthSessions ∧ q ∈ s.authPlayers ∧ ∃ p, s.heap q = some p) :
    (server cap).Leads { s with auth := .deletePlayers qs [] }
    { s.wipe qs with auth := .deletePlayers [] [] } := by
  induction qs generalizing s with
  | nil =>
    unfold State.wipe
    simpa using System.Leads.refl _
  | cons q qs ih =>
    obtain ⟨hu, ha, p, hp⟩ := hs q List.mem_cons_self
    obtain ⟨hq, hnd⟩ := List.nodup_cons.mp hnd
    apply (leads_deleteOne hf hh qs hu ha hp).trans
    rw [← State.wipe_wipe s q qs]
    refine ih (s := s.wipe [q]) hf hh hnd fun q' hq' => ?_
    obtain ⟨hu', ha', p', hp'⟩ := hs q' (List.mem_cons_of_mem _ hq')
    have hne : q' ≠ q := fun he => hq (he ▸ hq')
    exact ⟨by simp [State.wipe, hu', hne], by simp [State.wipe, ha', hne], p',
      by simp [State.wipe, hp', hne]⟩

/-- `cap` sessions come and go, and the pass that handles the notice deletes
them and not the player that comes back. -/
theorem leads_cappedPass (hf : s.fault = false)
    (hh : s.halted = false) (hon : s.bOn = true) (hauth : s.auth = .top) (hu : s.unAuthSessions = ∅)
    (ha : s.authPlayers = ∅) {accountNo : ℤ} {q : ℕ} {p : Player} (hn : s.notifyMsgQ = [accountNo])
    (hl : s.accountsHash.lookup accountNo = some q) (hp : s.heap q = some p) (hq : q < s.nextSeq)
    (hfresh : ∀ q', s.nextSeq ≤ q' → s.heap q' = none ∧ s.stage q' = .absent) (hcap : 0 < cap)
    (hmax : cap ≤ UNAUTH_MAX_SIZE) :
    (server cap).Leads s { s.setStage q .handedBack with
      nextSeq := s.nextSeq + cap
      authPlayers := {q}
      accountsHash := s.accountsHash.erase accountNo
      notifyMsgQ := [] } := by
  have hcrowd : (server cap).Leads s (s.crowd cap) :=
    leads_crowd hf hh cap (by simpa [hu] using hmax)
  obtain ⟨qs, hqs⟩ : ∃ qs, qs = List.range' s.nextSeq cap := ⟨_, rfl⟩
  have hmem : ∀ q', q' ∈ qs ↔ q' ∈ Finset.Ico s.nextSeq (s.nextSeq + cap) := by
    intro q'
    rw [hqs, List.mem_range'_1, Finset.mem_Ico]
  have hnd : qs.Nodup := by
    rw [hqs]
    exact List.nodup_range'
  have hset : qs.toFinset = Finset.Ico s.nextSeq (s.nextSeq + cap) := by
    ext q'
    rw [List.mem_toFinset, hmem]
  have hnot : q ∉ qs := by
    rw [hmem, Finset.mem_Ico]
    omega
  have halive : ∀ q' ∈ qs, (s.crowd cap).heap q' = some { Player.new with connect := false } := by
    intro q' hq'
    simp only [State.crowd, if_pos ((hmem q').mp hq')]
  -- the messages of the crowd
  let u : State := { s.crowd cap with authPlayers := qs.toFinset }
  have htop : authStep cap ⟨qs, none⟩ (s.crowd cap) = some { u with auth := .messages qs } := by
    simp [authStep, State.crowd, u, hauth, hon, hu, ha, hset, hnd]
  have hmsgs : (server cap).Leads { u with auth := .messages qs } { u with auth := .messages [] } :=
    leads_messages (s := u) hf hh fun q' hq' => ⟨_, halive q' hq'⟩
  -- the notice
  let v : State := { u.setStage q .handedBack with
    authPlayers := insert q qs.toFinset, accountsHash := s.accountsHash.erase accountNo,
      notifyMsgQ := [] }
  have hnotice : (server cap).Leads { u with auth := .messages [] } { v with
    auth := .scan (qs ++ [q]) [] [] } := by
    refine ⟨authSteps 4 (qs ++ [q]) none, ?_⟩
    have hall : (qs ++ [q]).Nodup := by
      rw [List.nodup_append_comm, List.singleton_append, List.nodup_cons]
      exact ⟨hnot, hnd⟩
    simp [authSteps, List.replicate, System.exec, server, next, authStep, u, v, State.crowd,
      State.read, State.setStage, hf, hh, hn, hl, hp, hnot, hall, ← hmem]
  -- the scan reaches the cap before it reaches the player
  have hscan : (server cap).Leads { v with auth := .scan (qs ++ [q]) [] [] } { v with
    auth := .deletePlayers qs [] } := by
    refine leads_scan (s := v) hf hh [q] [] (fun q' hq' => ⟨_, halive q' hq', rfl⟩) ?_
      (by simp [hqs])
    rw [hqs]
    simpa using hcap.ne'
  have hdelete : (server cap).Leads { v with auth := .deletePlayers qs [] }
      { v.wipe qs with auth := .deletePlayers [] [] } := by
    refine leads_delete (s := v) qs hf hh hnd fun q' hq' => ⟨?_, ?_, _, halive q' hq'⟩
    · simp [v, u, State.setStage, State.crowd, ← hset, hq']
    · simp [v, hq']
  have hend : (server cap).Leads { v.wipe qs with auth := .deletePlayers [] [] } { v.wipe qs with
    auth := .top } := by
    refine ⟨authSteps 2 [] none, ?_⟩
    simp [authSteps, List.replicate, System.exec, server, next, authStep, u, v, State.crowd,
      State.setStage, State.wipe, hf, hh]
  have hfin : { v.wipe qs with auth := .top } = { s.setStage q .handedBack with
      nextSeq := s.nextSeq + cap
      authPlayers := {q}
      accountsHash := s.accountsHash.erase accountNo
      notifyMsgQ := [] } := by
    simp only [v, u, State.wipe, State.setStage, State.crowd, State.mk.injEq, true_and, and_true]
    refine ⟨?_, ?_, ?_, hauth.symm, ?_⟩
    · funext q'
      simp only [← hmem]
      split_ifs with hq'
      · exact (hfresh q' (by grind)).1.symm
      · rfl
    · rw [hu, hset]
      simp
    · ext q'
      simp
      grind
    · funext q'
      simp only [Function.update_apply, ← hmem]
      have := hfresh q'
      grind
  rw [← hfin]
  exact hcrowd.trans ((leads_auth _ htop hf hh).trans
    (hmsgs.trans (hnotice.trans (hscan.trans (hdelete.trans hend)))))

end

/-- The field thread is done with session 0, and its notice is there. -/
def noticedState : State :=
  ((server DISCONNECT_AND_LEAVE_CAP).execIf keeps start (leaveRun ++ fieldSteps 3 [])).get
    (by decide)

/-- The notice has been processed by a pass that stopped at its cap. -/
def cappedState : State :=
  { noticedState.setStage 0 .handedBack with
    nextSeq := noticedState.nextSeq + DISCONNECT_AND_LEAVE_CAP
    authPlayers := {0}
    accountsHash := noticedState.accountsHash.erase 7
    notifyMsgQ := [] }

/-- Session 1001 logs in with account 7, and session 0 is deleted. -/
def reloginRun : List Step :=
  .onAccept 1001 :: (authSteps 2 [0, 1001] none ++ authSteps 1 [] (some (some 7)) ++
    authSteps 2 [] none ++ authSteps 6 [0, 1001] none)

theorem noticedState_reachable :
    ((server DISCONNECT_AND_LEAVE_CAP).restrict Keeps).Reachable noticedState :=
  System.Reachable.execIf keeps_sound _ (.start rfl) (Option.some_get _).symm

theorem cappedState_reachable : (server DISCONNECT_AND_LEAVE_CAP).Reachable cappedState := by
  have hinv := (invariant _).reachable noticedState_reachable
  have hfresh : ∀ q, noticedState.nextSeq ≤ q →
      noticedState.heap q = none ∧ noticedState.stage q = .absent := by
    intro q hq
    have hst := (hinv.fresh q hq).1
    exact ⟨(hinv.absent q).mp hst, hst⟩
  obtain ⟨p, hp⟩ : ∃ p, noticedState.heap 0 = some p := Option.isSome_iff_exists.mp (by decide)
  apply noticedState_reachable.of_restrict.leads
  exact leads_cappedPass (by decide) (by decide) (by decide) (by decide) (by decide) (by decide)
    (by decide) (by decide) hp (by decide) hfresh (by decide) (by decide)

/-- Two sessions: 1001 has logged in with account 7, and `mAccountsHash` has no entry for it. -/
theorem two_sessions : ¬ ∀ s, (server DISCONNECT_AND_LEAVE_CAP).Reachable s → OneSession s := by
  intro hall
  have hrun : (((server DISCONNECT_AND_LEAVE_CAP).exec cappedState reloginRun).any fun s =>
      s.accountsHash.lookup 7 = none ∧ (s.heap 1001).map Player.accountNo = some 7 ∧
        (s.heap 1001).map Player.nextFieldID = some 0 ∧ s.stage 1001 = .waiting ∧
        s.auth = .erasePlayer 0 [] [1001]) = true := by decide
  obtain ⟨s, hs, ht⟩ := Option.any_eq_true _ _ |>.mp hrun
  obtain ⟨hnone, hacc, hfield, hst, hpc⟩ := of_decide_eq_true ht
  obtain ⟨p, hp, ha⟩ := Option.map_eq_some_iff.mp hacc
  rw [hp] at hfield
  have hlogged : LoggedIn s 1001 p := by
    refine ⟨hp, fun hn => ?_, fun hb => ?_, fun ds ls hf => ?_⟩
    · have hz : p.nextFieldID = 0 := by simpa using hfield
      rw [hz] at hn
      cases hn
    · rw [hst] at hb
      cases hb
    · rw [hpc] at hf
      cases hf
  have hentry := (hall s (cappedState_reachable.exec reloginRun hs)).entry 1001 p hlogged
  rw [ha, hnone] at hentry
  cases hentry

end Server
end MyMMO
