/-
# Saved before the next login

`handleAuthReq` reads the position of an account before it looks into `mAccountsHash`, and
`dbThread` writes the position of an earlier session. If every pass of `authThread` deletes all
players that it finds disconnected (`Sweeps`), a login that succeeds has read what every earlier
session has saved, and no earlier session is saved any more (`saved_before_relogin`).
-/
import MyMMO.Life
import MyMMO.OneSession

namespace MyMMO
namespace Server

/-! ### What happens -/

inductive Event
  -- the SELECT of `handleAuthReq`
  | select (accountNo : ℤ) (q : ℕ)
  -- `handleAuthReq` succeeds
  | login (accountNo : ℤ) (q : ℕ)
  -- `handleRegisterPlayer`
  | enterField (accountNo : ℤ) (q : ℕ)
  -- the UPDATE of a PositionSave
  | update (accountNo : ℤ) (q : ℕ)
  deriving DecidableEq

def Statement.event : Statement → Event
  | .select accountNo q => .select accountNo q
  | .update accountNo q => .update accountNo q

/-- The account was not in `mAccountsHash`, and now it is. -/
def logins (s t : State) : List Event :=
  match s.auth with
  | .promote q accountNo _ =>
    if s.accountsHash.lookup accountNo = none ∧ t.accountsHash.lookup accountNo = some q then
      [.login accountNo q] else []
  | _ => []

def arrivals (s t : State) : List Event :=
  match s.field with
  | .registerPlayer q _ =>
    if q ∉ s.fieldPlayers ∧ q ∈ t.fieldPlayers then
      (s.heap q).toList.map fun p => .enterField p.accountNo q else []
  | _ => []

def events (s t : State) : List Event :=
  (t.log.drop s.log.length).map Statement.event ++ logins s t ++ arrivals s t

/-- The server, and what has happened in it. -/
def chronicle (cap : ℕ) : System (State × List Event) Step where
  init c := c = (start, [])
  next c l := (next cap c.1 l).map fun t => (t, c.2 ++ events c.1 t)

/-- If the scan of a pass ends early, nobody it leaves out is disconnected. -/
def Sweeps (cap : ℕ) (s : State) (l : Step) : Prop :=
  ∀ q todo ds ls t ds' ls', s.auth = .scan (q :: todo) ds ls → next cap s l = some t →
    t.auth = .deletePlayers ds' ls' →
    ∀ q' ∈ todo, ∀ p, s.heap q' = some p → p.connect = true

/-! ### What a pass leaves -/

/-- The players that have been handed back are still to be deleted by this pass. -/
def Swept (s : State) : AuthPc → Prop
  | .notify _ | .notifyProc _ _ => ∀ q, s.stage q = .handedBack → q ∈ s.authPlayers
  | .scan todo ds _ => ∀ q, s.stage q = .handedBack → q ∈ todo ++ ds
  | .deletePlayers ds _ | .free _ ds _ | .erasePlayer _ ds _ =>
      ∀ q, s.stage q = .handedBack → q ∈ ds
  | _ => ∀ q, s.stage q ≠ .handedBack

structure Clean (s : State) : Prop where
  swept : Swept s s.auth
  out : ∀ q p, s.stage q = .handedBack → s.heap q = some p →
    s.accountsHash.lookup p.accountNo = none

section

variable {s t : State} {cap : ℕ}

/-- A deletion pass finds no entry of somebody else. -/
theorem Clean.keeps (h : Clean s) (hi : Inv s) (l : Step) : Keeps s l := by
  cases l with
  | auth a =>
    intro q ds ls p q' hauth hp hq hl
    have hpc := hi.authSide.pc
    rw [hauth] at hpc
    have hplayer := hpc.2.1 q List.mem_cons_self
    rcases hi.authSide.players q hplayer with hat | hforgotten
    · cases hst : s.stage q with
      | unAuth => exact absurd ((hi.authSide.unAuth q).mpr hst) hq
      | waiting =>
        have hlive := (hi.record q p hp).live (by rw [hst]; rfl)
        rw [hl] at hlive
        exact Option.some.inj hlive
      | handedBack =>
        rw [h.out q p hst hp] at hl
        cases hl
      | deleting =>
        obtain ⟨ds', ls', hfree⟩ := hi.authSide.deleting q hst
        rw [hauth] at hfree
        cases hfree
      | _ =>
        rw [hst] at hat
        cases hat
    · rw [hauth] at hforgotten
      cases hforgotten
  | _ => trivial

/-- A step that is not one of `authThread`. -/
structure Aside (s t : State) : Prop where
  auth : t.auth = s.auth
  authPlayers : t.authPlayers = s.authPlayers
  accountsHash : t.accountsHash = s.accountsHash
  back : ∀ q, t.stage q = .handedBack → s.stage q = .handedBack
  account : ∀ q p', t.heap q = some p' → ∃ p, s.heap q = some p ∧ p'.accountNo = p.accountNo

theorem Clean.aside (h : Clean s) (ha : Aside s t) : Clean t := by
  obtain ⟨hauth, hplayers, hhash, hback, haccount⟩ := ha
  refine ⟨?_, fun q p' hst hp' => ?_⟩
  · have hswept := h.swept
    rw [hauth]
    revert hswept
    cases s.auth <;> simp only [Swept, hplayers] <;> grind
  · obtain ⟨p, hp, he⟩ := haccount q p' hp'
    rw [hhash, he]
    exact h.out q p (hback q hst) hp

theorem aside_fieldStep {a : FieldInput} (he : fieldStep cap a s = some t) : Aside s t := by
  unfold fieldStep State.read at he
  dsimp only at he
  repeat' split at he
  all_goals cases he
  all_goals refine ⟨rfl, rfl, rfl, fun q hst => ?_, fun q p' hp' => ?_⟩
  all_goals try simp only [State.setStage, State.setPlayer, Function.update_apply] at *
  all_goals first
    | exact ⟨p', hp', rfl⟩
    | grind

theorem aside_dbStep (he : dbStep s = some t) : Aside s t := by
  unfold dbStep at he
  repeat' split at he
  all_goals cases he
  all_goals exact ⟨rfl, rfl, rfl, fun _ hst => hst, fun _ p' hp' => ⟨p', hp', rfl⟩⟩

/-- `onRelease` of a session. -/
theorem aside_onRelease {q : ℕ} (he : next cap s (.onRelease q) = some t) : Aside s t := by
  simp only [next] at he
  split_ifs at he
  split at he
  · next p hp =>
    cases he
    refine ⟨rfl, rfl, rfl, fun _ hst => hst, fun q' p' hp' => ?_⟩
    simp only [State.setPlayer, Function.update_apply] at hp'
    split_ifs at hp' with hq
    · cases hp'
      exact ⟨p, hq ▸ hp, rfl⟩
    · exact ⟨p', hp', rfl⟩
  · cases he

theorem aside_stop (he : next cap s .stop = some t) : Aside s t := by
  simp only [next] at he
  split_ifs at he
  cases he
  exact ⟨rfl, rfl, rfl, fun _ hst => hst, fun _ p' hp' => ⟨p', hp', rfl⟩⟩

/-- `authThread` only moves on. -/
theorem Clean.auth (h : Clean s) (pc : AuthPc) (hpc : Swept s pc) (log : List Statement)
    (notifyMsgQ : List ℤ) :
    Clean { s with auth := pc, log, notifyMsgQ } := by
  refine ⟨?_, h.out⟩
  cases pc <;> exact hpc

theorem Clean.halt (h : Clean s) (fault halted : Bool) : Clean { s with fault, halted } := by
  refine ⟨?_, h.out⟩
  have hswept := h.swept
  show Swept _ s.auth
  revert hswept
  cases s.auth <;> exact id

theorem Clean.read (h : Clean s) {q : ℕ} {k : Player → State}
    (hk : ∀ p, s.heap q = some p → Clean (k p)) :
    Clean (s.read q k) := by
  unfold State.read
  split
  · next p hp => exact hk p hp
  · exact h.halt true s.halted

theorem back_of_update {q q' : ℕ} {st : Stage} (hst : st ≠ .handedBack)
    (h : Function.update s.stage q st q' = .handedBack) :
    q' ≠ q ∧ s.stage q' = .handedBack := by
  rw [Function.update_apply] at h
  split_ifs at h with hq
  · exact absurd h hst
  · exact ⟨hq, h⟩

/-- A player goes on to a place that is not the end of a pass. -/
theorem Clean.restage (h : Clean s) (q : ℕ) (st : Stage) (hst : st ≠ .handedBack)
    (hstage : t.stage = Function.update s.stage q st) (hheap : ∀ q', q' ≠ q → t.heap q' = s.heap q')
    (hnone : ∀ accountNo, s.accountsHash.lookup accountNo = none →
      t.accountsHash.lookup accountNo = none)
    (hswept : (∀ q', t.stage q' = .handedBack → q' ≠ q ∧ s.stage q' = .handedBack) →
      Swept t t.auth) : Clean t := by
  have hback : ∀ q', t.stage q' = .handedBack → q' ≠ q ∧ s.stage q' = .handedBack := by
    intro q' hq'
    rw [hstage] at hq'
    exact back_of_update hst hq'
  refine ⟨hswept hback, fun q' p' hq' hp' => ?_⟩
  obtain ⟨hne, hold⟩ := hback q' hq'
  rw [hheap q' hne] at hp'
  exact hnone _ (h.out q' p' hold hp')

/-- A login while nobody waits for its deletion. -/
theorem Clean.promote {q : ℕ} {accountNo : ℤ} {todo : List ℕ} (p : Player)
    (hnone : ∀ q, s.stage q ≠ .handedBack) :
    Clean { (s.setPlayer q p).setStage q .waiting with
      unAuthSessions := s.unAuthSessions.erase q
      accountsHash := s.accountsHash.insert accountNo q
      auth := .messages todo } := by
  have hnone' : ∀ q', Function.update s.stage q .waiting q' ≠ .handedBack :=
    fun q' hq' => hnone q' (back_of_update Stage.noConfusion hq').2
  exact ⟨hnone', fun q' _ hq' _ => absurd hq' (hnone' q')⟩

/-- The entry of a player that is handed back is erased. -/
theorem Clean.handBack (h : Clean s) (hi : Inv s) {q n : ℕ} {accountNo : ℤ}
    (hpc : s.auth = .notifyProc accountNo n) (hl : s.accountsHash.lookup accountNo = some q) :
    Clean { s.setStage q .handedBack with
      authPlayers := insert q s.authPlayers
      accountsHash := s.accountsHash.erase accountNo
      auth := .notify n } := by
  obtain ⟨q₀, p₀, -, hp₀, hacc, hl₀⟩ := hi.notified hpc
  rw [hl] at hl₀
  cases hl₀
  have hswept := h.swept
  rw [hpc] at hswept
  refine ⟨fun q' hst => ?_, fun q' p' hst hp' => ?_⟩
  · by_cases hq : q' = q
    · rw [hq]
      exact Finset.mem_insert_self q _
    · exact Finset.mem_insert_of_mem (hswept q' ((Function.update_of_ne hq _ _).symm.trans hst))
  · by_cases ha : p'.accountNo = accountNo
    · rw [ha]
      exact AList.lookup_erase _ _
    · have hq : q' ≠ q := by
        rintro rfl
        rw [show s.heap q' = some p' from hp'] at hp₀
        cases hp₀
        exact ha hacc
      rw [AList.lookup_erase_ne ha]
      exact h.out q' p' ((Function.update_of_ne hq _ _).symm.trans hst) hp'

/-- A pass goes on with the player it has found, or ends with it. -/
theorem Clean.scan (h : Clean s) (hi : Inv s) {q : ℕ} {todo ds ls ds' ls' : List ℕ} {p : Player}
    (hpc : s.auth = .scan (q :: todo) ds ls) (hp : s.heap q = some p)
    (hds : ds' = if p.connect then ds else ds ++ [q])
    (hstop : ds'.length = cap ∨ ls'.length = cap → ∀ q' ∈ todo, ∀ p', s.heap q' = some p' →
      p'.connect = true) :
    Clean { s with
      auth := if ds'.length = cap ∨ ls'.length = cap then .deletePlayers ds' ls' else
        .scan todo ds' ls' } := by
  have hswept := h.swept
  rw [hpc] at hswept
  have hcut : ∀ q' p', s.stage q' = .handedBack → s.heap q' = some p' → p'.connect = false :=
    fun q' p' hst hp' => (hi.record q' p' hp').cut (.inr (.inr hst))
  have hin : ∀ q', s.stage q' = .handedBack → q' ∈ todo ∨ q' ∈ ds' := by
    intro q' hst
    rw [hds]
    rcases List.mem_append.mp (hswept q' hst) with hq' | hq'
    · rcases List.mem_cons.mp hq' with rfl | hq'
      · rw [hcut q' p hst hp]
        exact .inr (by simp)
      · exact .inl hq'
    · right
      split_ifs
      · exact hq'
      · exact List.mem_append_left _ hq'
  refine h.auth _ ?_ _ _
  split_ifs with hcap
  · -- the pass ends here
    intro q' hst
    rcases hin q' hst with hq' | hq'
    · obtain ⟨p', hp'⟩ := hi.alive (q := q') (by rw [hst]; exact Stage.noConfusion)
      have hfalse := hcut q' p' hst hp'
      rw [hstop hcap q' hq' p' hp'] at hfalse
      cases hfalse
    · exact hq'
  · intro q' hst
    exact List.mem_append.mpr (hin q' hst)

/-- A player is taken out of the maps. -/
theorem Clean.unlist (h : Clean s) {q : ℕ} {ds ls : List ℕ}
    (hpc : s.auth = .deletePlayers (q :: ds) ls) (unAuthSessions : Finset ℕ)
    {accountsHash : AList fun _ : ℤ => ℕ}
    (hnone : ∀ accountNo, s.accountsHash.lookup accountNo = none →
      accountsHash.lookup accountNo = none) :
    Clean { s.setStage q .deleting with unAuthSessions, accountsHash, auth := .free q ds ls } := by
  have hswept := h.swept
  rw [hpc] at hswept
  refine h.restage q .deleting Stage.noConfusion rfl (fun _ _ => rfl) hnone fun hback q' hq' => ?_
  obtain ⟨hne, hold⟩ := hback q' hq'
  exact (List.mem_cons.mp (hswept q' hold)).resolve_left hne

theorem lookup_erase_none {accountsHash : AList fun _ : ℤ => ℕ} {a b : ℤ}
    (h : accountsHash.lookup a = none) :
    (accountsHash.erase b).lookup a = none := by
  by_cases hab : a = b
  · rw [hab]
    exact AList.lookup_erase _ _
  · rw [AList.lookup_erase_ne hab, h]

theorem Clean.sweptAt (h : Clean s) {pc : AuthPc} (hauth : s.auth = pc) : Swept s pc :=
  hauth ▸ h.swept

/-- `authThread` is halted where it stands. -/
theorem Clean.haltAuth (h : Clean s) {pc : AuthPc} (hauth : s.auth = pc) :
    Clean { s with auth := pc, halted := true } := by
  subst hauth
  exact h.halt s.fault true

section

variable {a : AuthInput} {q n : ℕ} {accountNo : ℤ} {todo ds ls : List ℕ}

theorem clean_messages (h : Clean s) (hauth : s.auth = .messages todo)
    (he : authStep cap a s = some t) : Clean t := by
  have hswept := h.sweptAt hauth
  simp only [authStep, hauth] at he
  cases todo with
  | nil =>
    cases he
    exact h.auth (.notify _) (fun q hq => absurd hq (hswept q)) _ _
  | cons q todo =>
    cases he
    apply h.read
    intro p hp
    by_cases hfield : p.nextFieldID ≠ AUTH_FIELD_IDX
    · rw [if_pos hfield]
      exact h.auth (.messages todo) hswept _ _
    · rw [if_neg hfield]
      split
      · exact h.auth (.messages todo) hswept _ _
      · exact h
      · exact h.auth (.promote _ _ _) hswept _ _

theorem clean_promote (h : Clean s) (hauth : s.auth = .promote q accountNo todo)
    (he : authStep cap a s = some t) : Clean t := by
  have hswept := h.sweptAt hauth
  simp only [authStep, hauth] at he
  split at he
  · cases he
    exact h.read fun _ _ => h.auth (.messages _) hswept _ _
  · split_ifs at he
    · cases he
      exact h.read fun p _ => Clean.promote _ hswept
    · cases he
      exact h.auth (.messages _) hswept _ _

theorem clean_notify (h : Clean s) (hauth : s.auth = .notify n) (he : authStep cap a s = some t) :
    Clean t := by
  have hswept := h.sweptAt hauth
  simp only [authStep, hauth] at he
  cases n with
  | zero =>
    dsimp only at he
    split_ifs at he with horder
    cases he
    refine h.auth (.scan _ _ _) (fun q hq => ?_) _ _
    have hmem := hswept q hq
    rw [← horder.2, List.mem_toFinset] at hmem
    exact List.mem_append_left _ hmem
  | succ n =>
    dsimp only at he
    split at he
    · cases he
    · cases he
      exact h.auth (.notifyProc _ _) hswept _ _

theorem clean_notifyProc (h : Clean s) (hi : Inv s) (hauth : s.auth = .notifyProc accountNo n)
    (he : authStep cap a s = some t) : Clean t := by
  simp only [authStep, hauth] at he
  split at he
  · cases he
    exact h.haltAuth hauth
  · next q hl =>
    cases he
    exact h.read fun _ _ => h.handBack hi hauth hl

theorem clean_scan (h : Clean s) (hi : Inv s) (hs : Sweeps cap s (.auth a))
    (hn : next cap s (.auth a) = some t) (hauth : s.auth = .scan todo ds ls)
    (he : authStep cap a s = some t) : Clean t := by
  have hswept := h.sweptAt hauth
  simp only [authStep, hauth] at he
  cases todo with
  | nil =>
    cases he
    exact h.auth (.deletePlayers _ _) (fun q hq => by simpa using hswept q hq) _ _
  | cons q todo =>
    cases he
    apply h.read
    intro p hp
    refine h.scan hi hauth hp rfl fun hcap => ?_
    rw [State.read, hp] at hn
    exact hs q todo ds ls _ _ _ hauth hn (if_pos hcap)

theorem clean_deletePlayers (h : Clean s) (hauth : s.auth = .deletePlayers ds ls)
    (he : authStep cap a s = some t) : Clean t := by
  have hswept := h.sweptAt hauth
  simp only [authStep, hauth] at he
  cases ds with
  | nil =>
    cases he
    exact h.auth (.leavePlayers _) (fun q hq => absurd (hswept q hq) List.not_mem_nil) _ _
  | cons q ds =>
    dsimp only at he
    by_cases hq : q ∈ s.authPlayers
    · rw [if_pos hq] at he
      cases he
      apply h.read
      intro p hp
      split_ifs
      · exact h.unlist hauth _ fun _ hnone => hnone
      · exact h.unlist hauth s.unAuthSessions fun _ hnone => lookup_erase_none hnone
    · rw [if_neg hq] at he
      cases he
      exact h.haltAuth hauth

theorem clean_free (h : Clean s) (hauth : s.auth = .free q ds ls)
    (he : authStep cap a s = some t) : Clean t := by
  have hswept := h.sweptAt hauth
  simp only [authStep, hauth] at he
  cases he
  apply h.read
  intro p hp
  exact h.restage q .absent Stage.noConfusion rfl (fun q' hne => Function.update_of_ne hne _ _)
    (fun _ hn => hn) fun hback q' hq' => hswept q' (hback q' hq').2

theorem clean_leavePlayers (h : Clean s) (hauth : s.auth = .leavePlayers ls)
    (he : authStep cap a s = some t) : Clean t := by
  have hswept := h.sweptAt hauth
  simp only [authStep, hauth] at he
  cases ls with
  | nil =>
    cases he
    exact h.auth .top hswept _ _
  | cons q ls =>
    dsimp only at he
    split_ifs at he
    · cases he
      apply h.read
      intro p hp
      split_ifs
      · exact h.auth (.leavePlayers ls) hswept _ _
      · exact h.restage q .leaving Stage.noConfusion rfl (fun _ _ => rfl) (fun _ hnone => hnone)
          fun hback q' hq' => hswept q' (hback q' hq').2
      · exact h.haltAuth hauth
    · cases he
      exact h.haltAuth hauth

theorem clean_authStep (h : Clean s) (hi : Inv s) (hs : Sweeps cap s (.auth a))
    (hn : next cap s (.auth a) = some t) (he : authStep cap a s = some t) : Clean t := by
  cases hauth : s.auth with
  | messages => exact clean_messages h hauth he
  | promote => exact clean_promote h hauth he
  | notify => exact clean_notify h hauth he
  | notifyProc => exact clean_notifyProc h hi hauth he
  | scan => exact clean_scan h hi hs hn hauth he
  | deletePlayers => exact clean_deletePlayers h hauth he
  | free => exact clean_free h hauth he
  | leavePlayers => exact clean_leavePlayers h hauth he
  | top =>
    have hswept := h.sweptAt hauth
    simp only [authStep, hauth] at he
    split_ifs at he
    · cases he
      exact h.auth .done hswept _ _
    · cases he
      exact ⟨hswept, h.out⟩
  | erasePlayer =>
    have hswept := h.sweptAt hauth
    simp only [authStep, hauth] at he
    cases he
    exact ⟨hswept, h.out⟩
  | enterField q ls =>
    have hswept := h.sweptAt hauth
    simp only [authStep, hauth] at he
    cases he
    exact h.restage q .queued Stage.noConfusion rfl (fun _ _ => rfl) (fun _ hn => hn)
      fun hback q' hq' => hswept q' (hback q' hq').2
  | done =>
    simp only [authStep, hauth] at he
    cases he

end

theorem clean_onAccept {q : ℕ} (h : Clean s) (he : next cap s (.onAccept q) = some t) :
    Clean t := by
  simp only [next] at he
  split_ifs at he
  · cases he
    exact ⟨h.swept, h.out⟩
  · cases he
    refine h.restage q .unAuth Stage.noConfusion rfl (fun q' hne => Function.update_of_ne hne _ _)
      (fun _ hnone => hnone) fun hback => ?_
    have hswept := h.swept
    have hold : ∀ q', Function.update s.stage q .unAuth q' = .handedBack →
        s.stage q' = .handedBack := fun q' hq' => (hback q' hq').2
    show Swept _ s.auth
    revert hswept
    cases s.auth <;> simp only [Swept, State.setStage, State.setPlayer] <;> grind

theorem clean_step {l : Step} (h : Clean s) (hi : Inv s) (hs : Sweeps cap s l)
    (he : next cap s l = some t) : Clean t := by
  cases l with
  | onAccept q => exact clean_onAccept h he
  | auth a =>
    have hauth := he
    simp only [next] at hauth
    split_ifs at hauth
    exact clean_authStep h hi hs he hauth
  | onRelease q => exact h.aside (aside_onRelease he)
  | field a =>
    simp only [next] at he
    split_ifs at he
    exact h.aside (aside_fieldStep he)
  | db =>
    simp only [next] at he
    split_ifs at he
    exact h.aside (aside_dbStep he)
  | stop => exact h.aside (aside_stop he)

/-! ### Where a player goes next -/

/-- The places that follow each other. -/
def Stage.goes : Stage → Stage → Bool
  | .unAuth, .waiting | .waiting, .leaving | .leaving, .queued | .queued, .registering
  | .registering, .inField
  | .inField, .saving | .saving, .notified | .notified, .handedBack => true
  | st, .deleting => st.atAuth
  | .deleting, .absent => true
  | _, _ => false

/-- Logged in and no longer in `mAccountsHash`. -/
def Stage.gone : Stage → Bool
  | .handedBack | .deleting | .absent => true
  | _ => false

/-- Logged in and sent to the field, and never again on its way. -/
def Stage.entered : Stage → Bool
  | .inField | .saving | .notified => true
  | st => st.gone

theorem Stage.goes_gone {st st' : Stage} (h : st.goes st' = true) (hg : st.gone = true) :
    st'.gone = true := by
  revert h hg
  cases st <;> cases st' <;> decide

theorem Stage.goes_entered {st st' : Stage} (h : st.goes st' = true) (hg : st.entered = true) :
    st'.entered = true := by
  revert h hg
  cases st <;> cases st' <;> decide

theorem Stage.goes_live {st st' : Stage} (h : st.goes st' = true) (hl : st'.live = true) :
    st.live = true ∨ st = .unAuth ∧ st' = .waiting := by
  revert h hl
  cases st <;> cases st' <;> decide

theorem Stage.goes_inField {st : Stage} (h : Stage.goes .inField st = true) : st = .saving := by
  revert h
  cases st <;> decide

theorem Stage.goes_unAuth {st : Stage} (h : st.goes .unAuth = true) : False := by
  revert h
  cases st <;> decide

theorem Stage.goes_deleting {st : Stage} (h : st.atAuth = true) : st.goes .deleting = true := by
  revert h
  cases st <;> decide

theorem goes_update {q p : ℕ} {st : Stage} (h : (s.stage p).goes st = true)
    (ht : t.stage = Function.update s.stage p st) :
    t.stage q = s.stage q ∨ (s.stage q).goes (t.stage q) = true := by
  rw [ht, Function.update_apply]
  split_ifs with hq
  · rw [hq]
    exact .inr h
  · exact .inl rfl

theorem goes_authStep {a : AuthInput} (hi : Inv s) (he : authStep cap a s = some t) (q : ℕ) :
    t.stage q = s.stage q ∨ (s.stage q).goes (t.stage q) = true := by
  have hpc := hi.authSide.pc
  unfold authStep State.read at he
  dsimp only at he
  repeat' split at he
  all_goals cases he
  all_goals first
    | exact .inl rfl
    | skip
  · -- `InitPlayerInfo`
    rename_i q' _ _ _ _ _ hu _ _ _
    refine goes_update (p := q') ?_ rfl
    rw [(hi.authSide.unAuth q').mp hu]
    rfl
  · rename_i hauth _ q' hl _ _ _
    obtain ⟨q₀, p₀, hst, -, -, hl₀⟩ := hi.notified hauth
    rw [hl] at hl₀
    cases hl₀
    refine goes_update (p := q') ?_ rfl
    rw [hst]
    rfl
  · rename_i hauth hq _ _ _ _
    rw [hauth] at hpc
    refine goes_update (Stage.goes_deleting ((hi.authSide.players _ hq).resolve_right ?_)) rfl
    rw [hauth]
    simp [AuthPc.forgotten]
  · rename_i hauth hq _ _ _ _
    refine goes_update (Stage.goes_deleting ((hi.authSide.players _ hq).resolve_right ?_)) rfl
    rw [hauth]
    simp [AuthPc.forgotten]
  · rename_i q' _ _ hauth _ _ _
    rw [hauth] at hpc
    refine goes_update (p := q') ?_ rfl
    rw [hpc.1]
    rfl
  · rename_i q' _ hauth _ _ _ _ _ _
    rw [hauth] at hpc
    refine goes_update (p := q') ?_ rfl
    rw [hpc.2 q' List.mem_cons_self]
    rfl
  · rename_i q' _ hauth
    rw [hauth] at hpc
    refine goes_update (p := q') ?_ rfl
    rw [hpc.1]
    rfl

theorem goes_fieldStep {a : FieldInput} (hi : Inv s) (he : fieldStep cap a s = some t) (q : ℕ) :
    t.stage q = s.stage q ∨ (s.stage q).goes (t.stage q) = true := by
  have hpc := hi.fieldSide.pc
  unfold fieldStep State.read at he
  dsimp only at he
  repeat' split at he
  all_goals cases he
  all_goals first
    | exact .inl rfl
    | skip
  · rename_i q' _ hmsgQ
    refine goes_update (p := q') ?_ rfl
    rw [hi.msgQ.2 q' (by rw [hmsgQ]; exact List.mem_cons_self)]
    rfl
  · rename_i q' _ hfield _ _ _ _
    rw [hfield] at hpc
    refine goes_update (p := q') ?_ rfl
    rw [hpc]
    rfl
  · rename_i q' _ hfield _ _ _
    rw [hfield] at hpc
    refine goes_update (p := q') ?_ rfl
    rw [hpc.1]
    rfl
  · rename_i q' _ _ hfield
    have hsaves : q' ∈ s.saves := by
      rw [State.saves, hfield]
      exact List.mem_append_left _ List.mem_cons_self
    refine goes_update (p := q') ?_ rfl
    rw [hi.fieldSide.saves.2 q' hsaves]
    rfl

/-- The other steps leave the places as they are, or accept a session. -/
theorem stage_step {l : Step} (he : next cap s l = some t) (q : ℕ) :
    t.stage q = s.stage q ∨ (s.nextSeq ≤ q ∧ t.stage q = .unAuth) ∨
      (∃ a, authStep cap a s = some t) ∨
      ∃ a, fieldStep cap a s = some t := by
  cases l with
  | onAccept q' =>
    simp only [next] at he
    split_ifs at he with _ hle
    · cases he
      exact .inl rfl
    · cases he
      by_cases hq : q = q'
      · subst hq
        exact .inr (.inl ⟨hle, Function.update_self _ _ _⟩)
      · exact .inl (Function.update_of_ne hq _ _)
  | auth a =>
    simp only [next] at he
    split_ifs at he
    exact .inr (.inr (.inl ⟨a, he⟩))
  | field a =>
    simp only [next] at he
    split_ifs at he
    exact .inr (.inr (.inr ⟨a, he⟩))
  | db =>
    simp only [next, dbStep] at he
    split_ifs at he
    repeat' split at he
    all_goals cases he
    all_goals exact .inl rfl
  | onRelease q' =>
    simp only [next] at he
    split_ifs at he
    split at he
    all_goals cases he
    exact .inl rfl
  | stop =>
    simp only [next] at he
    split_ifs at he
    cases he
    exact .inl rfl

theorem goes_step {l : Step} (hi : Inv s) (he : next cap s l = some t) (q : ℕ) :
    t.stage q = s.stage q ∨ (s.nextSeq ≤ q ∧ t.stage q = .unAuth) ∨ (s.stage q).goes
      (t.stage q) = true := by
  rcases stage_step he q with hsame | hnew | ⟨a, ha⟩ | ⟨a, hf⟩
  · exact .inl hsame
  · exact .inr (.inl hnew)
  · exact (goes_authStep hi ha q).imp_right .inr
  · exact (goes_fieldStep hi hf q).imp_right .inr

/-! ### What a step tells -/

/-- A PositionSave that has not been executed. -/
def Pending (s : State) (q : ℕ) (accountNo : ℤ) : Prop :=
  .positionSave q accountNo ∈ s.dbReqQ ∨ s.db = .execute (.positionSave q accountNo)

/-- What a step tells, and what it does to who is on the way. -/
inductive Happens (s t : State) : List Event → Prop
  | nothing : (∀ q accountNo todo, t.auth = .promote q accountNo todo →
      s.auth = .promote q accountNo todo) → Happens s t []
  | select {q : ℕ} {accountNo : ℤ} {todo : List ℕ} : t.auth = .promote q accountNo todo →
    t.stage = s.stage →
      t.heap = s.heap → Happens s t [.select accountNo q]
  | login {q : ℕ} {accountNo : ℤ} {todo : List ℕ} {p : Player} :
      s.auth = .promote q accountNo todo → t.auth = .messages todo →
      s.accountsHash.lookup accountNo = none → t.heap q = some p → p.accountNo = accountNo →
        t.stage q = .waiting →
      Happens s t [.login accountNo q]
  | enterField {q : ℕ} {p : Player} : t.auth = s.auth → s.stage q = .registering →
    t.stage q = .inField → s.heap q = some p →
      Happens s t [.enterField p.accountNo q]
  | update {q : ℕ} {accountNo : ℤ} : t.auth = s.auth → Pending s q accountNo →
    Happens s t [.update accountNo q]

/-- `mAccountsHash` stays as it is, or `authThread` is not in `handleAuthReq`. -/
def NoLogin (s t : State) : Prop :=
  t.accountsHash = s.accountsHash ∨ ∀ q accountNo todo, s.auth ≠ .promote q accountNo todo

theorem NoLogin.logins (h : NoLogin s t) : logins s t = [] := by
  unfold Server.logins
  split
  · rename_i hpc
    rcases h with h | h
    · rw [h]
      apply if_neg
      rintro ⟨hnone, hsome⟩
      rw [hnone] at hsome
      cases hsome
    · exact absurd hpc (h _ _ _)
  · rfl

/-- `players` of the field thread stays as it is, or the field thread is not in
`handleRegisterPlayer`. -/
def NoArrival (s t : State) : Prop :=
  t.fieldPlayers = s.fieldPlayers ∨ ∀ q n, s.field ≠ .registerPlayer q n

theorem NoArrival.arrivals (h : NoArrival s t) : arrivals s t = [] := by
  unfold Server.arrivals
  split
  · rename_i hpc
    rcases h with h | h
    · rw [h]
      apply if_neg
      rintro ⟨hnot, hin⟩
      exact hnot hin
    · exact absurd hpc (h _ _)
  · rfl

theorem events_nil (hlog : t.log = s.log) (hhash : NoLogin s t) (hplayers : NoArrival s t) :
    events s t = [] := by
  rw [events, hlog, List.drop_length, hhash.logins, hplayers.arrivals]
  rfl

theorem events_log (st : Statement) (hlog : t.log = s.log ++ [st])
    (hhash : t.accountsHash = s.accountsHash) (hplayers : t.fieldPlayers = s.fieldPlayers) :
    events s t = [st.event] := by
  rw [events, hlog, List.drop_left, NoLogin.logins (.inl hhash), NoArrival.arrivals (.inl hplayers)]
  rfl

theorem events_login {q : ℕ} {accountNo : ℤ} {todo : List ℕ}
    (hpc : s.auth = .promote q accountNo todo) (hnone : s.accountsHash.lookup accountNo = none)
    (hsome : t.accountsHash.lookup accountNo = some q) (hlog : t.log = s.log)
    (hplayers : t.fieldPlayers = s.fieldPlayers) : events s t = [.login accountNo q] := by
  have hlogins : logins s t = [.login accountNo q] := by
    rw [logins, hpc]
    exact if_pos ⟨hnone, hsome⟩
  rw [events, hlog, List.drop_length, hlogins, NoArrival.arrivals (.inl hplayers)]
  rfl

theorem events_enterField {q n : ℕ} {p : Player} (hpc : s.field = .registerPlayer q n)
    (hout : q ∉ s.fieldPlayers) (hin : q ∈ t.fieldPlayers) (hp : s.heap q = some p)
    (hlog : t.log = s.log) (hhash : t.accountsHash = s.accountsHash) :
    events s t = [.enterField p.accountNo q] := by
  have harrivals : arrivals s t = [.enterField p.accountNo q] := by
    rw [arrivals, hpc]
    dsimp only
    rw [if_pos ⟨hout, hin⟩, hp]
    rfl
  rw [events, hlog, List.drop_length, NoLogin.logins (.inl hhash), harrivals]
  rfl

theorem mem_events {e : Event} (h : events s t = [e]) : e ∈ events s t := by
  rw [h]
  exact List.mem_singleton_self e

theorem Happens.of_eq {es : List Event} (h : events s t = es) (hs : Happens s t es) :
    Happens s t (events s t) := by
  rw [h]
  exact hs

theorem Happens.quiet (hlog : t.log = s.log) (hhash : NoLogin s t) (hplayers : NoArrival s t)
    (hpc : ∀ q accountNo todo, t.auth = .promote q accountNo todo →
      s.auth = .promote q accountNo todo) :
    Happens s t (events s t) := .of_eq (events_nil hlog hhash hplayers) (.nothing hpc)

theorem happens_authStep {a : AuthInput} (he : authStep cap a s = some t) :
    Happens s t (events s t) := by
  unfold authStep State.read at he
  dsimp only at he
  repeat' split at he
  all_goals cases he
  all_goals first
    | exact .quiet rfl (.inl rfl) (.inl rfl) fun _ _ _ hpc => hpc
    | exact .quiet rfl (.inl rfl) (.inl rfl) fun _ _ _ hpc => AuthPc.noConfusion hpc
    | skip
  · -- the SELECT
    exact .of_eq (events_log (.select _ _) rfl rfl rfl) (.select rfl rfl rfl)
  · -- `InitPlayerInfo`
    rename_i hpc _ hnone _ _ p hp
    exact .of_eq (events_login hpc hnone (AList.lookup_insert _) rfl rfl)
      (.login hpc rfl hnone (Function.update_self _ _ _) rfl (Function.update_self _ _ _))
  · rename_i hpc _ _ _ _ _ _
    refine .quiet rfl (.inr fun _ _ _ hprom => ?_) (.inl rfl) fun _ _ _ hnext =>
      AuthPc.noConfusion hnext
    rw [hpc] at hprom
    cases hprom
  · rename_i hpc _ _ _ _ _
    refine .quiet rfl (.inr fun _ _ _ hprom => ?_) (.inl rfl) fun _ _ _ hnext =>
      AuthPc.noConfusion hnext
    rw [hpc] at hprom
    cases hprom

theorem happens_fieldStep {a : FieldInput} (hi : Inv s) (he : fieldStep cap a s = some t) :
    Happens s t (events s t) := by
  have hpc := hi.fieldSide.pc
  unfold fieldStep State.read at he
  dsimp only at he
  repeat' split at he
  all_goals cases he
  all_goals first
    | exact .quiet rfl (.inl rfl) (.inl rfl) fun _ _ _ hpc => hpc
    | skip
  · -- `handleRegisterPlayer`
    rename_i q n hfield _ p hp hq
    rw [hfield] at hpc
    exact .of_eq (events_enterField hfield hq (Finset.mem_insert_self _ _) hp rfl rfl)
      (.enterField rfl hpc (Function.update_self _ _ _) hp)
  · rename_i hfield
    refine .quiet rfl (.inl rfl) (.inr fun q n hreg => ?_) fun _ _ _ hpc => hpc
    rw [hfield] at hreg
    cases hreg

theorem happens_dbStep (he : dbStep s = some t) : Happens s t (events s t) := by
  unfold dbStep at he
  rcases hdb : s.db with _ | job | job <;> rw [hdb] at he <;> dsimp only at he
  · split at he
    all_goals cases he
    exact .quiet rfl (.inl rfl) (.inl rfl) fun _ _ _ hpc => hpc
  · cases job with
    | positionSave q accountNo =>
      cases he
      exact .of_eq (events_log (.update _ _) rfl rfl rfl) (.update rfl (.inr hdb))
    | other q =>
      cases he
      exact .quiet rfl (.inl rfl) (.inl rfl) fun _ _ _ hpc => hpc
  · cases he
    exact .quiet rfl (.inl rfl) (.inl rfl) fun _ _ _ hpc => hpc

theorem happens_step {l : Step} (hi : Inv s) (he : next cap s l = some t) :
    Happens s t (events s t) := by
  cases l with
  | onAccept q' =>
    simp only [next] at he
    split_ifs at he
    all_goals
      cases he
      exact .quiet rfl (.inl rfl) (.inl rfl) fun _ _ _ hpc => hpc
  | auth a =>
    simp only [next] at he
    split_ifs at he
    exact happens_authStep he
  | field a =>
    simp only [next] at he
    split_ifs at he
    exact happens_fieldStep hi he
  | db =>
    simp only [next] at he
    split_ifs at he
    exact happens_dbStep he
  | onRelease q' =>
    simp only [next] at he
    split_ifs at he
    split at he
    all_goals cases he
    exact .quiet rfl (.inl rfl) (.inl rfl) fun _ _ _ hpc => hpc
  | stop =>
    simp only [next] at he
    split_ifs at he
    cases he
    exact .quiet rfl (.inl rfl) (.inl rfl) fun _ _ _ hpc => hpc

/-! ### What stays of a player -/

/-- Only a login writes the account of a player. -/
theorem account_step {l : Step} (hi : Inv s) (he : next cap s l = some t) {q : ℕ}
    {p' : Player} (hq : q < s.nextSeq) (hp' : t.heap q = some p') (hu : s.stage q ≠ .unAuth) :
    ∃ p, s.heap q = some p ∧ p'.accountNo = p.accountNo := by
  cases l with
  | onAccept q' =>
    obtain ⟨hle, -, -, -, hheap⟩ := onAccept_heap he
    rw [hheap q (by omega)] at hp'
    exact ⟨p', hp', rfl⟩
  | auth a =>
    simp only [next] at he
    split_ifs at he
    unfold authStep State.read at he
    dsimp only at he
    repeat' split at he
    all_goals cases he
    all_goals first
      | exact ⟨p', hp', rfl⟩
      | skip
    · -- `InitPlayerInfo`
      rename_i hun _ _ _
      have hne : q ≠ _ := fun hqq => hu (hqq ▸ (hi.authSide.unAuth _).mp hun)
      exact ⟨p', (Function.update_of_ne hne _ _).symm.trans hp', rfl⟩
    · -- `delete`
      simp only [Function.update_apply] at hp'
      split_ifs at hp'
      exact ⟨p', hp', rfl⟩
  | onRelease q' => exact (aside_onRelease he).account q p' hp'
  | field a =>
    simp only [next] at he
    split_ifs at he
    exact (aside_fieldStep he).account q p' hp'
  | db =>
    simp only [next] at he
    split_ifs at he
    exact (aside_dbStep he).account q p' hp'
  | stop => exact (aside_stop he).account q p' hp'

/-- A PositionSave is executed before it is answered. -/
theorem pending_step {l : Step} (he : next cap s l = some t) {q : ℕ} {accountNo : ℤ}
    (h : Pending s q accountNo) :
    Pending t q accountNo ∨ .update accountNo q ∈ events s t := by
  cases l with
  | db =>
    simp only [next] at he
    split_ifs at he
    unfold dbStep at he
    rcases hdb : s.db with _ | job | job <;> rw [hdb] at he <;> dsimp only at he
    · left
      rcases h with h | h
      · split at he
        · cases he
        · rename_i job dbReqQ hreq
          cases he
          rw [hreq] at h
          rcases List.mem_cons.mp h with rfl | h
          · exact .inr rfl
          · exact .inl h
      · rw [hdb] at h
        cases h
    · rcases h with h | h
      · cases he
        exact .inl (.inl h)
      · rw [hdb] at h
        cases h
        cases he
        exact .inr (mem_events (events_log (.update _ _) rfl rfl rfl))
    · left
      rcases h with h | h
      · cases he
        exact .inl h
      · rw [hdb] at h
        cases h
  | field a =>
    left
    simp only [next] at he
    split_ifs at he
    unfold fieldStep State.read at he
    dsimp only at he
    repeat' split at he
    all_goals cases he
    all_goals first
      | exact h
      | exact h.imp_left (List.mem_append_left _)
  | onAccept q' =>
    left
    simp only [next] at he
    split_ifs at he
    all_goals
      cases he
      exact h
  | auth a =>
    left
    simp only [next] at he
    split_ifs at he
    unfold authStep State.read at he
    dsimp only at he
    repeat' split at he
    all_goals cases he
    all_goals exact h
  | onRelease q' =>
    left
    simp only [next] at he
    split_ifs at he
    split at he
    all_goals cases he
    exact h
  | stop =>
    left
    simp only [next] at he
    split_ifs at he
    cases he
    exact h

/-- A player is saved under its account. -/
theorem saving_fieldStep {a : FieldInput} (he : fieldStep cap a s = some t) {q : ℕ} {p : Player}
    (hp : s.heap q = some p) (hin : s.stage q = .inField) (hsave : t.stage q = .saving) :
    Pending t q p.accountNo := by
  unfold fieldStep State.read at he
  dsimp only at he
  repeat' split at he
  all_goals cases he
  all_goals first
    | exact Stage.noConfusion (hin.symm.trans hsave)
    | skip
  all_goals simp only [State.setStage, Function.update_apply] at hsave
  all_goals split_ifs at hsave with hq
  all_goals first
    | exact Stage.noConfusion hsave
    | exact Stage.noConfusion (hin.symm.trans hsave)
    | skip
  · rename_i p' hp'
    subst hq
    rw [hp'] at hp
    cases hp
    exact .inl (List.mem_append_right _ (List.mem_singleton_self _))

/-- `mAccountsHash` stays as it is until the check behind the SELECT. -/
theorem promote_hash {a : AuthInput} (he : authStep cap a s = some t)
    {q : ℕ} {accountNo : ℤ} {todo : List ℕ} (hpc : t.auth = .promote q accountNo todo) :
    t.accountsHash = s.accountsHash := by
  unfold authStep State.read at he
  dsimp only at he
  repeat' split at he
  all_goals cases he
  all_goals first
    | rfl
    | cases hpc

/-- Only a login leaves `mUnAuthSessions` alive. -/
theorem waiting_authStep {a : AuthInput} (he : authStep cap a s = some t) {q : ℕ} {p : Player}
    (hu : s.stage q = .unAuth) (hw : t.stage q = .waiting) (hp : t.heap q = some p) :
    .login p.accountNo q ∈ events s t := by
  unfold authStep State.read at he
  dsimp only at he
  repeat' split at he
  all_goals cases he
  all_goals first
    | exact Stage.noConfusion (hu.symm.trans hw)
    | skip
  all_goals simp only [State.setStage, State.setPlayer, Function.update_apply] at hw
  all_goals split_ifs at hw with hq
  all_goals first
    | exact Stage.noConfusion hw
    | exact Stage.noConfusion (hu.symm.trans hw)
    | skip
  · rename_i hpc _ hnone _ _ p' hp'
    subst hq
    have hacc := (Function.update_self _ _ _).symm.trans hp
    cases hacc
    exact mem_events (events_login hpc hnone (AList.lookup_insert _) rfl rfl)

/-- The places the field thread puts a player at. -/
def Stage.ofField : Stage → Bool
  | .registering | .inField | .saving | .notified => true
  | _ => false

theorem ofField_authStep {a : AuthInput} (he : authStep cap a s = some t) (q : ℕ) :
    t.stage q = s.stage q ∨ (t.stage q).ofField = false := by
  unfold authStep State.read at he
  dsimp only at he
  repeat' split at he
  all_goals cases he
  all_goals first
    | exact .inl rfl
    | skip
  all_goals
    simp only [State.setStage, State.setPlayer, Function.update_apply]
    split_ifs
  all_goals first
    | exact .inl rfl
    | exact .inr rfl

theorem ofField_fieldStep {a : FieldInput} (he : fieldStep cap a s = some t) (q : ℕ) :
    t.stage q = s.stage q ∨ (t.stage q).ofField = true := by
  unfold fieldStep State.read at he
  dsimp only at he
  repeat' split at he
  all_goals cases he
  all_goals first
    | exact .inl rfl
    | skip
  all_goals
    simp only [State.setStage, Function.update_apply]
    split_ifs
  all_goals first
    | exact .inl rfl
    | exact .inr rfl

theorem saving_step {l : Step} (he : next cap s l = some t) {q : ℕ} {p : Player}
    (hp : s.heap q = some p) (hin : s.stage q = .inField) (hsave : t.stage q = .saving) :
    Pending t q p.accountNo := by
  rcases stage_step he q with hsame | ⟨-, hnew⟩ | ⟨a, ha⟩ | ⟨a, hf⟩
  · rw [hin, hsave] at hsame
    cases hsame
  · rw [hsave] at hnew
    cases hnew
  · rcases ofField_authStep ha q with hsame | hout
    · rw [hin, hsave] at hsame
      cases hsame
    · rw [hsave] at hout
      cases hout
  · exact saving_fieldStep hf hp hin hsave

theorem waiting_step {l : Step} (he : next cap s l = some t) {q : ℕ}
    {p : Player} (hu : s.stage q = .unAuth) (hw : t.stage q = .waiting) (hp : t.heap q = some p) :
    .login p.accountNo q ∈ events s t := by
  rcases stage_step he q with hsame | ⟨-, hnew⟩ | ⟨a, ha⟩ | ⟨a, hf⟩
  · rw [hu, hw] at hsame
    cases hsame
  · rw [hw] at hnew
    cases hnew
  · exact waiting_authStep ha hu hw hp
  · rcases ofField_fieldStep hf q with hsame | hout
    · rw [hu, hw] at hsame
      cases hsame
    · rw [hw] at hout
      cases hout

theorem nextSeq_step {l : Step} (he : next cap s l = some t) : s.nextSeq ≤ t.nextSeq := by
  cases l with
  | onAccept q' =>
    obtain ⟨hle, hn, -⟩ := onAccept_heap he
    omega
  | auth a =>
    simp only [next] at he
    split_ifs at he
    exact (authStep_frame he).1.ge
  | field a =>
    simp only [next] at he
    split_ifs at he
    exact (fieldStep_frame he).1.ge
  | db =>
    simp only [next] at he
    split_ifs at he
    exact (unmoved_dbStep he).nextSeq.ge
  | onRelease q' => exact (onRelease_frame he).1.ge
  | stop =>
    simp only [next] at he
    split_ifs at he
    cases he
    exact le_rfl

/-! ### The history -/

/-- What the history says of the players. -/
structure Told (s : State) (h : List Event) : Prop where
  login : ∀ accountNo q, .login accountNo q ∈ h →
    q < s.nextSeq ∧ s.stage q ≠ .unAuth ∧ ∀ p, s.heap q = some p → p.accountNo = accountNo
  logged : ∀ q p, s.heap q = some p → (s.stage q).live = true → .login p.accountNo q ∈ h
  entered : ∀ accountNo q, .enterField accountNo q ∈ h →
    .login accountNo q ∈ h ∧ (s.stage q).entered = true ∧
    (s.stage q = .inField ∨ Pending s q accountNo ∨ .update accountNo q ∈ h)

theorem Inv.lt (h : Inv s) {q : ℕ} (hq : s.stage q ≠ .absent) : q < s.nextSeq := by
  by_contra hlt
  exact hq (h.fresh q (not_lt.mp hlt)).1

theorem Told.login_step {l : Step} {h : List Event}
    (ht : Told s h) (hi : Inv s) (hit : Inv t) (he : next cap s l = some t) {accountNo : ℤ} {q : ℕ}
    (hlogin : .login accountNo q ∈ h ++ events s t) :
    q < t.nextSeq ∧ t.stage q ≠ .unAuth ∧ ∀ p, t.heap q = some p → p.accountNo = accountNo := by
  rcases List.mem_append.mp hlogin with hold | hnew
  · obtain ⟨hlt, hst, hacc⟩ := ht.login accountNo q hold
    refine ⟨hlt.trans_le (nextSeq_step he), fun hu => ?_, fun p' hp' => ?_⟩
    · rcases goes_step hi he q with hsame | ⟨hle, -⟩ | hgoes
      · exact hst (hsame ▸ hu)
      · omega
      · rw [hu] at hgoes
        exact Stage.goes_unAuth hgoes
    · obtain ⟨p, hp, hpp⟩ := account_step hi he hlt hp' hst
      rw [hpp]
      exact hacc p hp
  · have hhappens := happens_step hi he
    revert hnew hhappens
    generalize events s t = es
    intro hnew hhappens
    cases hhappens with
    | login _ _ _ hp hacc hst =>
      cases List.mem_singleton.mp hnew
      refine ⟨hit.lt (by rw [hst]; exact Stage.noConfusion), by rw [hst]; exact Stage.noConfusion,
        fun p' hp' => ?_⟩
      rw [hp] at hp'
      cases hp'
      exact hacc
    | nothing _ => cases hnew
    | select _ _ _ => cases List.mem_singleton.mp hnew
    | enterField _ _ _ _ => cases List.mem_singleton.mp hnew
    | update _ _ => cases List.mem_singleton.mp hnew

theorem Told.logged_step {l : Step} {h : List Event} (ht : Told s h)
    (hi : Inv s) (he : next cap s l = some t) {q : ℕ} {p' : Player} (hp' : t.heap q = some p')
    (hlive : (t.stage q).live = true) :
    .login p'.accountNo q ∈ h ++ events s t := by
  have hback : (s.stage q).live = true → .login p'.accountNo q ∈ h := by
    intro hl
    have hne : s.stage q ≠ .absent ∧ s.stage q ≠ .unAuth := by
      constructor
      all_goals
        intro hst
        rw [hst] at hl
        cases hl
    obtain ⟨p, hp, hacc⟩ := account_step hi he (hi.lt hne.1) hp' hne.2
    rw [hacc]
    exact ht.logged q p hp hl
  rcases goes_step hi he q with hsame | ⟨-, hnew⟩ | hgoes
  · exact List.mem_append_left _ (hback (hsame ▸ hlive))
  · rw [hnew] at hlive
    cases hlive
  · rcases Stage.goes_live hgoes hlive with hl | ⟨hu, hw⟩
    · exact List.mem_append_left _ (hback hl)
    · exact List.mem_append_right _ (waiting_step he hu hw hp')

theorem Told.entered_step {l : Step} {h : List Event} (ht : Told s h)
    (hi : Inv s) (he : next cap s l = some t) {accountNo : ℤ} {q : ℕ}
    (henter : .enterField accountNo q ∈ h ++ events s t) :
    .login accountNo q ∈ h ++ events s t ∧ (t.stage q).entered = true ∧
      (t.stage q = .inField ∨ Pending t q accountNo ∨ .update accountNo q ∈ h ++ events s t) := by
  rcases List.mem_append.mp henter with hold | hnew
  · obtain ⟨hlogin, hentered, hwhere⟩ := ht.entered accountNo q hold
    obtain ⟨hlt, -, hacc⟩ := ht.login accountNo q hlogin
    refine ⟨List.mem_append_left _ hlogin, ?_, ?_⟩
    · rcases goes_step hi he q with hsame | ⟨hle, -⟩ | hgoes
      · rw [hsame]
        exact hentered
      · omega
      · exact Stage.goes_entered hgoes hentered
    · rcases hwhere with hin | hpending | hupdate
      · rcases goes_step hi he q with hsame | ⟨hle, -⟩ | hgoes
        · exact .inl (hsame.trans hin)
        · omega
        · rw [hin] at hgoes
          obtain ⟨p, hp⟩ := hi.alive (q := q) (by rw [hin]; exact Stage.noConfusion)
          have hpending := saving_step he hp hin (Stage.goes_inField hgoes)
          rw [hacc p hp] at hpending
          exact .inr (.inl hpending)
      · exact .inr ((pending_step he hpending).imp_right (List.mem_append_right _))
      · exact .inr (.inr (List.mem_append_left _ hupdate))
  · have hhappens := happens_step hi he
    revert hnew hhappens
    generalize events s t = es
    intro hnew hhappens
    cases hhappens with
    | enterField _ hreg hin hp =>
      cases List.mem_singleton.mp hnew
      refine ⟨List.mem_append_left _ (ht.logged _ _ hp (by rw [hreg]; rfl)),
        by rw [hin]; rfl, .inl hin⟩
    | nothing _ => cases hnew
    | select _ _ _ => cases List.mem_singleton.mp hnew
    | login _ _ _ _ _ _ => cases List.mem_singleton.mp hnew
    | update _ _ => cases List.mem_singleton.mp hnew

theorem told_step {l : Step} {h : List Event} (ht : Told s h) (hi : Inv s) (hit : Inv t)
    (he : next cap s l = some t) :
    Told t (h ++ events s t) where
  login _ _ := ht.login_step hi hit he
  logged _ _ := ht.logged_step hi he
  entered _ _ := ht.entered_step hi he

/-- A session whose account has no entry in `mAccountsHash` is over. -/
theorem Told.gone {h : List Event} (ht : Told s h) (hi : Inv s) {accountNo : ℤ}
    {q : ℕ} (hnone : s.accountsHash.lookup accountNo = none) (hlogin : .login accountNo q ∈ h) :
    (s.stage q).gone = true := by
  obtain ⟨-, hu, hacc⟩ := ht.login accountNo q hlogin
  have hlive : (s.stage q).live = false := by
    by_contra hl
    have hl := eq_true_of_ne_false hl
    obtain ⟨p, hp⟩ := hi.alive (q := q) (by intro hst; rw [hst] at hl; cases hl)
    have hentry := (hi.record q p hp).live hl
    rw [hacc p hp, hnone] at hentry
    cases hentry
  revert hu hlive
  cases s.stage q <;> decide

theorem Inv.not_pending (hi : Inv s) {q : ℕ} (hg : (s.stage q).gone = true) (accountNo : ℤ) :
    ¬Pending s q accountNo := by
  intro hp
  have hsaves : q ∈ s.saves := by
    refine List.mem_append_right _
      (List.mem_flatMap.mpr ⟨.positionSave q accountNo, ?_, List.mem_singleton_self q⟩)
    rcases hp with hp | hp
    · exact List.mem_append_right _ hp
    · refine List.mem_append_left _ (List.mem_append_right _ ?_)
      rw [hp]
      exact List.mem_singleton_self _
  rw [hi.fieldSide.saves.2 q hsaves] at hg
  cases hg

/-- Whoever of it has entered the field has been saved. -/
theorem Told.saved {h : List Event} (ht : Told s h) (hi : Inv s) {accountNo : ℤ} {q : ℕ}
    (hnone : s.accountsHash.lookup accountNo = none) (henter : .enterField accountNo q ∈ h) :
    .update accountNo q ∈ h := by
  obtain ⟨hlogin, -, hwhere⟩ := ht.entered accountNo q henter
  have hgone := ht.gone hi hnone hlogin
  rcases hwhere with hin | hpending | hupdate
  · rw [hin] at hgone
    cases hgone
  · exact absurd hpending (hi.not_pending hgone accountNo)
  · exact hupdate

theorem promote_step {l : Step} (he : next cap s l = some t) {q : ℕ} {accountNo : ℤ} {todo : List ℕ}
    (hpc : t.auth = .promote q accountNo todo) : t.accountsHash = s.accountsHash := by
  cases l with
  | onAccept q' =>
    simp only [next] at he
    split_ifs at he
    all_goals cases he
    all_goals rfl
  | auth a =>
    simp only [next] at he
    split_ifs at he
    exact promote_hash he hpc
  | onRelease q' => exact (aside_onRelease he).accountsHash
  | field a =>
    simp only [next] at he
    split_ifs at he
    exact (aside_fieldStep he).accountsHash
  | db =>
    simp only [next] at he
    split_ifs at he
    exact (aside_dbStep he).accountsHash
  | stop => exact (aside_stop he).accountsHash

/-- Nothing of `h2` is a SELECT, or the UPDATE of a session of the account that has logged in in
`h`. -/
structure Since (accountNo : ℤ) (h h2 : List Event) : Prop where
  select : ∀ a q, .select a q ∉ h2
  update : ∀ q, .login accountNo q ∈ h → .update accountNo q ∉ h2

/-- `handleAuthReq` between its SELECT and the look into `mAccountsHash`. -/
def Reads (s : State) (h : List Event) : Prop :=
  ∀ q accountNo todo, s.auth = .promote q accountNo todo → s.accountsHash.lookup accountNo = none →
    ∃ h1 h2, h = h1 ++ .select accountNo q :: h2 ∧ Since accountNo h h2

theorem reads_step {l : Step} {h : List Event} (hr : Reads s h) (ht : Told s h) (hi : Inv s)
    (he : next cap s l = some t) :
    Reads t (h ++ events s t) := by
  intro q accountNo todo hpc hnone
  have hhash := promote_step he hpc
  rw [hhash] at hnone
  have hhappens := happens_step hi he
  revert hhappens
  generalize events s t = es
  intro hhappens
  cases hhappens with
  | nothing hback =>
    rw [List.append_nil]
    exact hr q accountNo todo (hback q accountNo todo hpc) hnone
  | select hpc' _ _ =>
    rw [hpc'] at hpc
    cases hpc
    exact ⟨h, [], rfl, ⟨fun _ _ => List.not_mem_nil, fun _ _ => List.not_mem_nil⟩⟩
  | login _ hpc' _ _ _ _ =>
    rw [hpc'] at hpc
    cases hpc
  | enterField hauth _ _ _ =>
    obtain ⟨h1, h2, rfl, hsince⟩ := hr q accountNo todo (hauth ▸ hpc) hnone
    refine ⟨h1, h2 ++ [_], List.append_assoc h1 (_ :: h2) _,
      ⟨fun a q' hmem => ?_, fun q' hlogin hmem => ?_⟩⟩
    · exact hsince.select a q' (by simpa using hmem)
    · exact hsince.update q' (by simpa using hlogin) (by simpa using hmem)
  | @update q'' accountNo' hauth hpending =>
    obtain ⟨h1, h2, hh, hsince⟩ := hr q accountNo todo (hauth ▸ hpc) hnone
    refine ⟨h1, h2 ++ [_], by rw [hh]; exact List.append_assoc h1 (_ :: h2) _,
      ⟨fun a q' hmem => ?_, fun q' hlogin hmem => ?_⟩⟩
    · exact hsince.select a q' (by simpa using hmem)
    · have hbefore : .login accountNo q' ∈ h := by simpa using hlogin
      rcases List.mem_append.mp hmem with hmem | hmem
      · exact hsince.update q' hbefore hmem
      · -- it is over, and so is its PositionSave
        cases List.mem_singleton.mp hmem
        exact hi.not_pending (ht.gone hi hnone hbefore) _ hpending

/-- What is known of a login behind `h0` once `h3` has happened. -/
structure Served (s : State) (accountNo : ℤ) (q : ℕ) (h0 h3 h1 h2 : List Event) : Prop where
  split : h0 = h1 ++ .select accountNo q :: h2
  select : ∀ a q', .select a q' ∉ h2
  saved : ∀ q', .enterField accountNo q' ∈ h0 → .update accountNo q' ∈ h1
  ended : ∀ q', .login accountNo q' ∈ h0 →
    (s.stage q').gone = true ∧ .update accountNo q' ∉ h2 ++ h3

def AllServed (s : State) (h : List Event) : Prop :=
  ∀ h0 accountNo q h3, h = h0 ++ .login accountNo q :: h3 →
    ∃ h1 h2, Served s accountNo q h0 h3 h1 h2

theorem gone_step {l : Step} (hi : Inv s) (he : next cap s l = some t) {q : ℕ} (hq : q < s.nextSeq)
    (hg : (s.stage q).gone = true) :
    (t.stage q).gone = true := by
  rcases goes_step hi he q with hsame | ⟨hle, -⟩ | hgoes
  · rw [hsame]
    exact hg
  · omega
  · exact Stage.goes_gone hgoes hg

/-- One more event, and it is not a PositionSave of a session that is over. -/
theorem Served.snoc {l : Step} {accountNo : ℤ} {q : ℕ} {h0 h3 h1 h2 : List Event}
    (hs : Served s accountNo q h0 h3 h1 h2) (ht : Told s (h0 ++ .login accountNo q :: h3))
    (hi : Inv s) (he : next cap s l = some t) :
    Served t accountNo q h0 (h3 ++ events s t) h1 h2 := by
  refine ⟨hs.split, hs.select, hs.saved, fun q' hlogin => ?_⟩
  obtain ⟨hgone, hnot⟩ := hs.ended q' hlogin
  refine ⟨gone_step hi he (ht.login accountNo q' (List.mem_append_left _ hlogin)).1 hgone,
    fun hmem => ?_⟩
  rw [← List.append_assoc] at hmem
  rcases List.mem_append.mp hmem with hmem | hmem
  · exact hnot hmem
  · have hhappens := happens_step hi he
    revert hmem hhappens
    generalize events s t = es
    intro hmem hhappens
    cases hhappens with
    | update _ hpending =>
      cases List.mem_singleton.mp hmem
      exact hi.not_pending hgone _ hpending
    | nothing _ => cases hmem
    | select _ _ _ => cases List.mem_singleton.mp hmem
    | login _ _ _ _ _ _ => cases List.mem_singleton.mp hmem
    | enterField _ _ _ _ => cases List.mem_singleton.mp hmem

theorem append_split {α : Type} {h es h0 h3 : List α} {x : α} (hh : h ++ es = h0 ++ x :: h3) :
    (∃ h4, h = h0 ++ x :: h4 ∧ h3 = h4 ++ es) ∨ ∃ e0, h0 = h ++ e0 ∧ es = e0 ++ x :: h3 := by
  rcases List.append_eq_append_iff.mp hh with ⟨e0, h1, h2⟩ | ⟨h4, h1, h2⟩
  · exact .inr ⟨e0, h1, h2⟩
  · cases h4 with
    | nil =>
      rw [List.append_nil] at h1
      exact .inr ⟨[], by rw [h1, List.append_nil], h2.symm⟩
    | cons y h4 =>
      cases h2
      exact .inl ⟨h4, h1, rfl⟩

theorem Happens.length {es : List Event} (h : Happens s t es) : es.length ≤ 1 := by
  cases h <;> simp

/-- A login has read what every earlier session has saved. -/
theorem served_login {l : Step} {h : List Event} {accountNo : ℤ}
    {q : ℕ} (hr : Reads s h) (ht : Told s h) (hi : Inv s) (he : next cap s l = some t)
    (hes : events s t = [.login accountNo q]) :
    ∃ h1 h2, Served t accountNo q h [] h1 h2 := by
  have hhappens := happens_step hi he
  rw [hes] at hhappens
  cases hhappens with
  | login hpc _ hnone _ _ _ =>
    obtain ⟨h1, h2, hh, hsince⟩ := hr q accountNo _ hpc hnone
    refine ⟨h1, h2, hh, hsince.select, fun q' henter => ?_, fun q' hlogin => ⟨?_, ?_⟩⟩
    · have hmem := ht.saved hi hnone henter
      have hlogin := (ht.entered accountNo q' henter).1
      rw [hh] at hmem
      rcases List.mem_append.mp hmem with hmem | hmem
      · exact hmem
      · rcases List.mem_cons.mp hmem with hmem | hmem
        · cases hmem
        · exact absurd hmem (hsince.update q' hlogin)
    · exact gone_step hi he (ht.login accountNo q' hlogin).1 (ht.gone hi hnone hlogin)
    · rw [List.append_nil]
      exact hsince.update q' hlogin

theorem allServed_step {l : Step} {h : List Event} (hs : AllServed s h) (hr : Reads s h)
    (ht : Told s h) (hi : Inv s) (he : next cap s l = some t) : AllServed t (h ++ events s t) := by
  intro h0 accountNo q h3 hh
  rcases append_split hh with ⟨h4, rfl, rfl⟩ | ⟨e0, rfl, hes⟩
  · obtain ⟨h1, h2, hserved⟩ := hs h0 accountNo q h4 rfl
    exact ⟨h1, h2, hserved.snoc ht hi he⟩
  · -- it is the login of this step
    have hlen := (happens_step hi he).length
    rw [hes, List.length_append, List.length_cons] at hlen
    obtain rfl : e0 = [] := List.length_eq_zero_iff.mp (by omega)
    obtain rfl : h3 = [] := List.length_eq_zero_iff.mp (by omega)
    rw [List.append_nil]
    exact served_login hr ht hi he hes

/-- What is known after every step. -/
structure Recorded (s : State) (h : List Event) : Prop where
  inv : Inv s
  clean : Clean s
  told : Told s h
  reads : Reads s h
  served : AllServed s h

theorem recorded_step {l : Step} {h : List Event} (hr : Recorded s h) (hs : Sweeps cap s l)
    (he : next cap s l = some t) :
    Recorded t (h ++ events s t) := by
  have hit := inv_step hr.inv (hr.clean.keeps hr.inv l) he
  exact ⟨hit, clean_step hr.clean hr.inv hs he, told_step hr.told hr.inv hit he,
    reads_step hr.reads hr.told hr.inv he, allServed_step hr.served hr.reads hr.told hr.inv he⟩

theorem recorded_start : Recorded start [] where
  inv := start_inv
  clean := ⟨fun _ => Stage.noConfusion, fun _ _ hst => Stage.noConfusion hst⟩
  told := ⟨fun _ _ hmem => absurd hmem List.not_mem_nil, by simp [start],
    fun _ _ hmem => absurd hmem List.not_mem_nil⟩
  reads := fun _ _ _ hpc => AuthPc.noConfusion hpc
  served := fun _ _ _ _ hh => absurd hh.symm (by simp)

theorem recorded {c : State × List Event}
    (h : ((chronicle cap).restrict fun c l => Sweeps cap c.1 l).Reachable c) :
    Recorded c.1 c.2 := by
  refine (System.restrict_invariant (P := fun c : State × List Event => Recorded c.1 c.2) ?_
    ?_).reachable h
  · rintro c rfl
    exact recorded_start
  · intro c d l hr hs he
    obtain ⟨t, ht, rfl⟩ := Option.map_eq_some_iff.mp he
    exact recorded_step hr hs ht

/-- A login has read what every earlier session of its account has saved, and none of them is saved
any more. -/
theorem saved_before_relogin {h h0 h3 : List Event} {accountNo : ℤ} {q : ℕ}
    (hr : ((chronicle cap).restrict fun c l => Sweeps cap c.1 l).Reachable (s, h))
    (hh : h = h0 ++ .login accountNo q :: h3) :
    ∃ h1 h2, h0 = h1 ++ .select accountNo q :: h2 ∧ (∀ a q', .select a q' ∉ h2) ∧
      (∀ q', .enterField accountNo q' ∈ h0 → .update accountNo q' ∈ h1) ∧
      ∀ q', .login accountNo q' ∈ h0 → .update accountNo q' ∉ h2 ++ h3 := by
  obtain ⟨h1, h2, hserved⟩ := (recorded hr).served h0 accountNo q h3 hh
  exact ⟨h1, h2, hserved.split, hserved.select, hserved.saved,
    fun q' hlogin => (hserved.ended q' hlogin).2⟩

end

/-- `Sweeps`, as a test. -/
def sweeps (cap : ℕ) (s : State) (l : Step) : Bool :=
  match s.auth, next cap s l with
  | .scan (_ :: todo) _ _, some t =>
    match t.auth with
    | .deletePlayers _ _ => todo.all fun q => (s.heap q).all Player.connect
    | _ => true
  | _, _ => true

theorem sweeps_sound {cap : ℕ} (s : State) (l : Step) (h : sweeps cap s l = true) :
    Sweeps cap s l := by
  intro q todo ds ls t ds' ls' hpc he ht q' hq' p hp
  unfold sweeps at h
  simp only [hpc, he, ht] at h
  have hall := List.all_eq_true.mp h q' hq'
  rw [hp] at hall
  exact hall

/-- Session 0 has been deleted, and session 1 logs in with its account. -/
def returnRun : List Step :=
  leaveRun ++ fieldSteps 3 [] ++ authSteps 4 [] none ++ authSteps 8 [0] none ++ [.onAccept 1] ++
    authSteps 1 [1] none ++ authSteps 1 [] (some (some 7)) ++ authSteps 1 [] none

theorem saved_before_relogin_returnRun :
    ∃ h h0 h1 h2 : List Event, h = h0 ++ [.login 7 1] ∧ .enterField 7 0 ∈ h0 ∧
    h0 = h1 ++ .select 7 1 :: h2 ∧ .update 7 0 ∈ h1 := by
  let c := (chronicle DISCONNECT_AND_LEAVE_CAP).execIf
    (fun c l => sweeps DISCONNECT_AND_LEAVE_CAP c.1 l) (start, []) returnRun
  have hrun : c.map Prod.snd = some
      ([.select 7 0, .login 7 0, .enterField 7 0, .update 7 0, .select 7 1] ++ [.login 7 1]) := by
    decide
  obtain ⟨d, hd, hh⟩ := Option.map_eq_some_iff.mp hrun
  have hstart : ((chronicle DISCONNECT_AND_LEAVE_CAP).restrict fun c l =>
      Sweeps DISCONNECT_AND_LEAVE_CAP c.1 l).Reachable (start, []) := .start rfl
  have hreach :=
    System.Reachable.execIf (fun c : State × List Event => sweeps_sound c.1) returnRun hstart hd
  obtain ⟨h1, h2, hsplit, -, hsaved, -⟩ := saved_before_relogin (s := d.1) (h := d.2) hreach hh
  exact ⟨d.2, _, h1, h2, hh, by simp, hsplit, hsaved 0 (by simp)⟩

end Server
end MyMMO
