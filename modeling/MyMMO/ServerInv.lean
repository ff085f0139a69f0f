/-
# Who holds a Player

The invariant of the threads of `MyMMO.Server`. Every `Player` is at one place
of its life (`State.stage`), each container holds the ones of its place and each of
them once, a PositionSave is outstanding for exactly those being saved, and every
PLAYER_DISCONNECTED on its way names the account of one that has been notified.
From login until the notice has been processed the account leads to the `Player`
(`Record.live`), in every run in which no deletion pass removes the entry of
another `Player` (`Keeps`).
-/
import MyMMO.Server

namespace MyMMO
namespace Server

/-! ### What the program counters hold -/

/-- The player whose notice is out while the field thread still has it. -/
def FieldPc.window : FieldPc → Option ℕ
  | .readSector q _ | .eraseSector q _ _ | .erasePlayer q _ => some q
  | _ => none

/-- The player of the result in hand. -/
def FieldPc.held : FieldPc → List ℕ
  | .findPlayer q _ | .clearPending q _ | .readAccount q _ | .notifyDisconnect q _ _ => [q]
  | _ => []

/-- The player that is being saved and whose bit is not set. -/
def FieldPc.unset : FieldPc → Option ℕ
  | .setPending q _ | .readAccount q _ | .notifyDisconnect q _ _ => some q
  | _ => none

/-- The account of the notice in hand. -/
def AuthPc.notice : AuthPc → List ℤ
  | .notifyProc accountNo _ => [accountNo]
  | _ => []

/-- The player that has been deleted and is still in `players`. -/
def AuthPc.forgotten : AuthPc → Option ℕ
  | .erasePlayer q _ _ => some q
  | _ => none

def DbPc.jobs : DbPc → List Job
  | .idle => []
  | .execute job | .answer job => [job]

def Job.saves : Job → List ℕ
  | .positionSave q _ => [q]
  | .other _ => []

/-- The PositionSaves on their way, as jobs or as results. -/
def State.saves (s : State) : List ℕ :=
  s.field.held ++ (s.dbResQ ++ s.db.jobs ++ s.dbReqQ).flatMap Job.saves

/-- The notices on their way. -/
def State.notices (s : State) : List ℤ := s.auth.notice ++ s.notifyMsgQ

/-- Logged in, and the notice has not been processed. -/
def Stage.live : Stage → Bool
  | .waiting | .leaving | .queued | .registering | .inField | .saving | .notified => true
  | _ => false

/-- `authThread` has the player in its `players`. -/
def Stage.atAuth : Stage → Bool
  | .unAuth | .waiting | .handedBack | .deleting => true
  | _ => false

/-! ### The invariant -/

/-- What the fields of a player say. -/
structure Record (s : State) (q : ℕ) (p : Player) : Prop where
  unAuth : s.stage q = .unAuth → p.nextFieldID = AUTH_FIELD_IDX
  live : (s.stage q).live = true → s.accountsHash.lookup p.accountNo = some q
  cut : s.stage q = .saving ∨ s.stage q = .notified ∨ s.stage q = .handedBack → p.connect = false
  pending : s.stage q = .saving → p.savePending = true ∨ s.field.unset = some q

/-- The player has been disconnected. -/
def Cut (s : State) (q : ℕ) : Prop := ∀ p, s.heap q = some p → p.connect = false

def AuthInv (s : State) : AuthPc → Prop
  | .messages todo => ∀ q ∈ todo, q ∈ s.authPlayers
  | .promote q _ todo => q ∈ s.authPlayers ∧ ∀ q' ∈ todo, q' ∈ s.authPlayers
  | .scan todo ds ls =>
    (todo ++ ds ++ ls).Nodup ∧ (∀ q ∈ todo ++ ds, q ∈ s.authPlayers) ∧
      ∀ q ∈ ls, s.stage q = .waiting
  | .deletePlayers ds ls =>
    (ds ++ ls).Nodup ∧ (∀ q ∈ ds, q ∈ s.authPlayers) ∧ ∀ q ∈ ls, s.stage q = .waiting
  | .free q ds ls =>
    s.stage q = .deleting ∧ (q :: (ds ++ ls)).Nodup ∧ (∀ q ∈ ds, q ∈ s.authPlayers) ∧
      ∀ q ∈ ls, s.stage q = .waiting
  | .erasePlayer q ds ls =>
    (q :: (ds ++ ls)).Nodup ∧ (∀ q ∈ ds, q ∈ s.authPlayers) ∧ ∀ q ∈ ls, s.stage q = .waiting
  | .leavePlayers ls => ls.Nodup ∧ ∀ q ∈ ls, s.stage q = .waiting
  | .enterField q ls => s.stage q = .leaving ∧ ls.Nodup ∧ ∀ q ∈ ls, s.stage q = .waiting
  | _ => True

def FieldInv (s : State) : FieldPc → Prop
  | .registerPlayer q _ => s.stage q = .registering
  | .enterSector q _ => q ∈ s.fieldPlayers ∧ ∀ c, (c, q) ∉ s.sectors
  | .moveErase q oldSector _ => (oldSector, q) ∈ s.sectors
  | .moveInsert q _ => q ∈ s.fieldPlayers ∧ ∀ c, (c, q) ∉ s.sectors
  | .moveSet q _ => q ∈ s.fieldPlayers
  | .scan todo ds => (∀ q ∈ todo, q ∈ s.fieldPlayers) ∧ ∀ q ∈ ds, q ∈ s.fieldPlayers ∧ Cut s q
  | .disconnect ds => ∀ q ∈ ds, q ∈ s.fieldPlayers ∧ Cut s q
  | .requestSave q ds =>
    s.stage q = .inField ∧ q ∈ s.fieldPlayers ∧ Cut s q ∧ ∀ q ∈ ds, q ∈ s.fieldPlayers ∧ Cut s q
  | .setPending q ds =>
    s.stage q = .saving ∧ q ∈ s.fieldPlayers ∧ ∀ q ∈ ds, q ∈ s.fieldPlayers ∧ Cut s q
  | .clearPending q _ | .readAccount q _ | .otherResult q _ => q ∈ s.fieldPlayers
  | .notifyDisconnect q accountNo _ =>
    q ∈ s.fieldPlayers ∧ ∀ p, s.heap q = some p → p.accountNo = accountNo
  | .erasePlayer q _ => ∀ c, (c, q) ∉ s.sectors
  | _ => True

/-- What `authThread` keeps. -/
structure AuthSide (s : State) : Prop where
  unAuth : ∀ q, q ∈ s.unAuthSessions ↔ s.stage q = .unAuth
  deleting : ∀ q, s.stage q = .deleting → ∃ ds ls, s.auth = .free q ds ls
  players : ∀ q ∈ s.authPlayers, (s.stage q).atAuth = true ∨ s.auth.forgotten = some q
  pc : AuthInv s s.auth

/-- What the field thread keeps. -/
structure FieldSide (s : State) : Prop where
  players : ∀ q ∈ s.fieldPlayers, s.stage q = .inField ∨ s.stage q = .saving ∨
    s.field.window = some q
  sectors : ∀ c q, (c, q) ∈ s.sectors → q ∈ s.fieldPlayers ∧ ∀ c', (c', q) ∈ s.sectors → c' = c
  saves : s.saves.Nodup ∧ ∀ q ∈ s.saves, s.stage q = .saving
  pc : FieldInv s s.field

structure Inv (s : State) : Prop where
  absent : ∀ q, s.stage q = .absent ↔ s.heap q = none
  fresh : ∀ q, s.nextSeq ≤ q → s.stage q = .absent ∧ q ∉ s.authPlayers ∧ q ∉ s.fieldPlayers
  record : ∀ q p, s.heap q = some p → Record s q p
  msgQ : s.msgQ.Nodup ∧ ∀ q ∈ s.msgQ, s.stage q = .queued
  notices : s.notices.Nodup ∧
    ∀ a ∈ s.notices, ∃ q p, s.stage q = .notified ∧ s.heap q = some p ∧ p.accountNo = a
  authSide : AuthSide s
  fieldSide : FieldSide s

/-- The deletion pass removes no entry of `mAccountsHash` that leads to another player. -/
def Keeps (s : State) : Step → Prop
  | .auth _ => ∀ q ds ls p q', s.auth = .deletePlayers (q :: ds) ls → s.heap q = some p →
      q ∉ s.unAuthSessions → s.accountsHash.lookup p.accountNo = some q' → q' = q
  | _ => True

section

variable {s t : State}

theorem Inv.alive (h : Inv s) {q : ℕ} (hq : s.stage q ≠ .absent) : ∃ p, s.heap q = some p := by
  rcases hp : s.heap q with _ | p
  · exact absurd ((h.absent q).mpr hp) hq
  · exact ⟨p, rfl⟩

/-- A logged-in player is the only one of its account. -/
theorem Inv.unique (h : Inv s) {q q' : ℕ} {p p' : Player} (hq : s.heap q = some p)
    (hq' : s.heap q' = some p') (hl : (s.stage q).live = true) (hl' : (s.stage q').live = true)
    (ha : p.accountNo = p'.accountNo) : q = q' := by
  have h1 := (h.record q p hq).live hl
  have h2 := (h.record q' p' hq').live hl'
  rw [ha, h2] at h1
  cases h1
  rfl

theorem AuthInv.mono {pc : AuthPc} (h : AuthInv s pc) (hp : ∀ q ∈ s.authPlayers, q ∈ t.authPlayers)
    (hst : ∀ q, s.stage q = .waiting ∨ s.stage q = .leaving ∨ s.stage q = .deleting →
      t.stage q = s.stage q) :
    AuthInv t pc := by
  cases pc <;> simp only [AuthInv] at h ⊢ <;> grind

/-- A step that leaves the places of `authThread` alone. -/
theorem AuthSide.mono (h : AuthSide s) (hu : t.unAuthSessions = s.unAuthSessions)
    (hp : t.authPlayers = s.authPlayers) (hpc : t.auth = s.auth)
    (hst : ∀ q, t.stage q = s.stage q ∨ (s.stage q).atAuth = false ∧ s.stage q ≠ .leaving ∧
      (t.stage q).atAuth = false) :
    AuthSide t := by
  obtain ⟨h1, h2, h3, h4⟩ := h
  refine ⟨fun q => ?_, fun q hq => ?_, fun q hq => ?_, ?_⟩
  · rw [hu, h1]
    rcases hst q with hq | ⟨hq, -, hq'⟩
    · rw [hq]
    · constructor <;> intro he
      · rw [he] at hq; cases hq
      · rw [he] at hq'; cases hq'
  · rw [hpc]
    rcases hst q with hs | ⟨-, -, hs⟩
    · exact h2 q (hs ▸ hq)
    · rw [hq] at hs; cases hs
  · rw [hp] at hq
    rw [hpc]
    rcases h3 q hq with ha | hf
    · rcases hst q with hs | ⟨hs, -⟩
      · exact .inl (by rw [hs]; exact ha)
      · rw [ha] at hs; cases hs
    · exact .inr hf
  · rw [hpc]
    refine h4.mono (fun q hq => hp ▸ hq) fun q hq => ?_
    rcases hst q with hs | ⟨hs, hl, -⟩
    · exact hs
    · rcases hq with hq | hq | hq
      · rw [hq] at hs; cases hs
      · exact absurd hq hl
      · rw [hq] at hs; cases hs

theorem FieldInv.mono {pc : FieldPc} (h : FieldInv s pc) (hp : t.fieldPlayers = s.fieldPlayers)
    (hsec : t.sectors = s.sectors)
    (hin : pc.window = none → ∀ q ∈ s.fieldPlayers, ∀ p', t.heap q = some p' →
      ∃ p, s.heap q = some p ∧ p'.accountNo = p.accountNo ∧
        (p.connect = false → p'.connect = false))
    (hst : ∀ q, s.stage q = .registering ∨ s.stage q = .inField ∨ s.stage q = .saving →
      t.stage q = s.stage q) :
    FieldInv t pc := by
  cases pc <;> simp only [FieldInv, Cut, FieldPc.window, hp, hsec] at h hin ⊢ <;> grind

/-- A step that leaves the places of the field thread alone. -/
theorem FieldSide.mono (h : FieldSide s) (hp : t.fieldPlayers = s.fieldPlayers)
    (hsec : t.sectors = s.sectors) (hpc : t.field = s.field) (hsaves : t.saves = s.saves)
    (hst : ∀ q, s.stage q = .registering ∨ s.stage q = .inField ∨ s.stage q = .saving →
      t.stage q = s.stage q)
    (hin : ∀ q, s.stage q = .inField ∨ s.stage q = .saving → ∀ p', t.heap q = some p' → ∃ p,
      s.heap q = some p ∧ p'.accountNo = p.accountNo ∧ (p.connect = false → p'.connect = false)) :
    FieldSide t := by
  obtain ⟨h1, h2, h3, h4⟩ := h
  refine ⟨fun q hq => ?_, fun c q hc => ?_, ⟨hsaves ▸ h3.1, fun q hq => ?_⟩, ?_⟩
  · rw [hp] at hq
    rw [hpc]
    rcases h1 q hq with hs | hs | hw
    · exact .inl ((hst q (.inr (.inl hs))).trans hs)
    · exact .inr (.inl ((hst q (.inr (.inr hs))).trans hs))
    · exact .inr (.inr hw)
  · rw [hp, hsec]
    exact h2 c q (hsec ▸ hc)
  · have hs := h3.2 q (hsaves ▸ hq)
    exact (hst q (.inr (.inr hs))).trans hs
  · rw [hpc]
    refine h4.mono hp hsec (fun hw q hq => hin q ?_) hst
    rcases h1 q hq with hs | hs | hw'
    · exact .inl hs
    · exact .inr hs
    · rw [hw] at hw'; cases hw'

theorem Record.mono {q : ℕ} {p : Player} (h : Record s q p) (hst : t.stage q = s.stage q)
    (hl : (s.stage q).live = true → s.accountsHash.lookup p.accountNo = some q →
      t.accountsHash.lookup p.accountNo = some q)
    (hu : s.field.unset = some q → t.field.unset = some q) : Record t q p := by
  obtain ⟨h1, h2, h3, h4⟩ := h
  refine ⟨fun hq => h1 (hst ▸ hq), fun hq => ?_, fun hq => h3 (hst ▸ hq), fun hq => ?_⟩
  · rw [hst] at hq
    exact hl hq (h2 hq)
  · rcases h4 (hst ▸ hq) with hp | hp
    · exact .inl hp
    · exact .inr (hu hp)

/-- Inv does not mention how the process ends. -/
theorem Inv.halt (h : Inv s) (fault halted : Bool) : Inv { s with fault, halted } :=
  ⟨h.absent, h.fresh, fun q p hp => (h.record q p hp).mono rfl (fun _ => id) id, h.msgQ, h.notices,
    h.authSide.mono rfl rfl rfl fun _ => .inl rfl,
    h.fieldSide.mono rfl rfl rfl rfl (fun _ _ => rfl) fun _ _ p hp => ⟨p, hp, rfl, id⟩⟩

theorem Inv.read (h : Inv s) {q : ℕ} {k : Player → State}
    (hk : ∀ p, s.heap q = some p → Inv (k p)) :
    Inv (s.read q k) := by
  unfold State.read
  split
  · rename_i p hp
    exact hk p hp
  · exact h.halt true s.halted

/-- A step of `authThread` that changes nothing but where it stands. -/
theorem Inv.authPc (h : Inv s) (pc : AuthPc) (hn : pc.notice = s.auth.notice)
    (hf : s.auth.forgotten = none) (hd : ∀ q ds ls, s.auth ≠ .free q ds ls) (hpc : AuthInv s pc) :
    Inv { s with auth := pc } := by
  refine ⟨h.absent, h.fresh, fun q p hp => (h.record q p hp).mono rfl (fun _ => id) id, h.msgQ, ?_,
    ⟨h.authSide.unAuth, fun q hq => ?_, fun q hq => ?_, ?_⟩,
    h.fieldSide.mono rfl rfl rfl rfl (fun _ _ => rfl) fun _ _ p hp => ⟨p, hp, rfl, id⟩⟩
  · have := h.notices
    unfold State.notices at this ⊢
    rw [hn]
    exact this
  · obtain ⟨ds, ls, hfree⟩ := h.authSide.deleting q hq
    exact absurd hfree (hd q ds ls)
  · rcases h.authSide.players q hq with ha | hq'
    · exact .inl ha
    · rw [hf] at hq'; cases hq'
  · exact hpc.mono (fun q hq => hq) fun q _ => rfl

/-- A step of the field thread that changes nothing but where it stands. -/
theorem Inv.fieldPc (h : Inv s) (pc : FieldPc)
    (hw : pc.window = s.field.window ∨ s.field.window = none) (hh : pc.held = s.field.held)
    (hu : pc.unset = s.field.unset ∨ s.field.unset = none) (hpc : FieldInv s pc) :
    Inv { s with field := pc } := by
  refine ⟨h.absent, h.fresh, fun q p hp => (h.record q p hp).mono rfl (fun _ => id) fun hq => ?_,
    h.msgQ, h.notices, h.authSide.mono rfl rfl rfl fun _ => .inl rfl,
    ⟨fun q hq => ?_, h.fieldSide.sectors, ?_, ?_⟩⟩
  · rcases hu with hu | hu
    · exact hu.trans hq
    · rw [hu] at hq; cases hq
  · rcases h.fieldSide.players q hq with hs | hs | hq'
    · exact .inl hs
    · exact .inr (.inl hs)
    · rcases hw with hw | hw
      · exact .inr (.inr (hw.trans hq'))
      · rw [hw] at hq'; cases hq'
  · have := h.fieldSide.saves
    unfold State.saves at this ⊢
    rw [hh]
    exact this
  · exact hpc.mono rfl rfl (fun _ _ _ p hp => ⟨p, hp, rfl, id⟩) fun q _ => rfl

/-- The history of the database does not matter. -/
theorem Inv.logged (h : Inv s) (log : List Statement) : Inv { s with log } :=
  ⟨h.absent, h.fresh, fun q p hp => (h.record q p hp).mono rfl (fun _ => id) id, h.msgQ, h.notices,
    h.authSide.mono rfl rfl rfl fun _ => .inl rfl,
    h.fieldSide.mono rfl rfl rfl rfl (fun _ _ => rfl) fun _ _ p hp => ⟨p, hp, rfl, id⟩⟩

/-! ### Steps of `authThread` -/

theorem Inv.top (h : Inv s) {order : List ℕ} (hauth : s.auth = .top)
    (ho : order.toFinset = s.authPlayers ∪ s.unAuthSessions) :
    Inv { s with authPlayers := s.authPlayers ∪ s.unAuthSessions, auth := .messages order } := by
  have hside := h.authSide
  refine ⟨h.absent, fun q hq => ?_, fun q p hp => (h.record q p hp).mono rfl (fun _ => id) id,
    h.msgQ, ?_, ⟨hside.unAuth, fun q hq => ?_, fun q hq => ?_, fun q hq => ?_⟩,
    h.fieldSide.mono rfl rfl rfl rfl (fun _ _ => rfl) fun q _ p hp => ⟨p, hp, rfl, id⟩⟩
  · obtain ⟨h1, h2, h3⟩ := h.fresh q hq
    have hu := hside.unAuth q
    simp only [Finset.mem_union]
    grind
  · have := h.notices
    unfold State.notices at this ⊢
    rw [hauth] at this
    exact this
  · obtain ⟨ds, ls, hfree⟩ := hside.deleting q hq
    rw [hauth] at hfree
    cases hfree
  · left
    rcases Finset.mem_union.mp hq with hq | hq
    · rcases hside.players q hq with ha | hf
      · exact ha
      · rw [hauth] at hf; cases hf
    · rw [(hside.unAuth q).mp hq]; rfl
  · rw [← List.mem_toFinset, ho] at hq
    exact hq

theorem Inv.promote (h : Inv s) {q : ℕ} {accountNo : ℤ} {todo : List ℕ} {p : Player}
    (hauth : s.auth = .promote q accountNo todo) (hnone : s.accountsHash.lookup accountNo = none)
    (hq : q ∈ s.unAuthSessions) (hp : s.heap q = some p) :
    Inv { (s.setPlayer q { p with accountNo, nextFieldID := 0 }).setStage q .waiting with
      unAuthSessions := s.unAuthSessions.erase q
      accountsHash := s.accountsHash.insert accountNo q
      auth := .messages todo } := by
  have hside := h.authSide
  have hst := (hside.unAuth q).mp hq
  have hpc := hside.pc
  rw [hauth] at hpc
  refine ⟨fun q' => ?_, fun q' hq' => ?_, fun q' p' hp' => ?_, ⟨h.msgQ.1, fun q' hq' => ?_⟩,
    ⟨?_, fun a ha => ?_⟩, ⟨fun q' => ?_, fun q' hq' => ?_, fun q' hq' => ?_, hpc.2⟩,
    h.fieldSide.mono rfl rfl rfl rfl (fun q' hq' => ?_) (fun q' hq' p' hp' => ⟨p', ?_, rfl, id⟩)⟩
  · have := h.absent q'
    simp only [State.setStage, State.setPlayer]
    grind [Function.update_apply]
  · have := h.fresh q' hq'
    simp only [State.setStage, State.setPlayer]
    grind [Function.update_apply]
  · by_cases hqq : q' = q
    · subst hqq
      simp only [State.setStage, State.setPlayer, Function.update_self, Option.some.injEq] at hp'
      subst hp'
      exact ⟨by simp [State.setStage], fun _ => AList.lookup_insert _, by simp [State.setStage],
        by simp [State.setStage]⟩
    · simp only [State.setStage, State.setPlayer, Function.update_of_ne hqq] at hp'
      refine (h.record q' p' hp').mono (Function.update_of_ne hqq _ _) (fun _ hl => ?_) id
      have hne : p'.accountNo ≠ accountNo := by
        rintro rfl
        rw [hnone] at hl
        cases hl
      exact (AList.lookup_insert_ne hne).trans hl
  · have := h.msgQ.2 q' hq'
    simp only [State.setStage, State.setPlayer]
    grind [Function.update_apply]
  · have := h.notices.1
    unfold State.notices at this ⊢
    rw [hauth] at this
    exact this
  · have hn := h.notices.2 a
    unfold State.notices at hn ha
    rw [hauth] at hn
    obtain ⟨q', p', h1, h2, h3⟩ := hn ha
    refine ⟨q', p', ?_, ?_, h3⟩
    · simp only [State.setStage, State.setPlayer]
      grind [Function.update_apply]
    · simp only [State.setStage, State.setPlayer]
      grind [Function.update_apply]
  · have := hside.unAuth q'
    simp only [State.setStage, State.setPlayer, Finset.mem_erase]
    grind [Function.update_apply]
  · have := hside.deleting q'
    simp only [State.setStage, State.setPlayer] at hq'
    grind [Function.update_apply]
  · have := hside.players q' hq'
    simp only [State.setStage, State.setPlayer]
    grind [Function.update_apply, Stage.atAuth, AuthPc.forgotten]
  · simp only [State.setStage, State.setPlayer]
    grind [Function.update_apply]
  · simp only [State.setStage, State.setPlayer] at hp'
    grind [Function.update_apply]

theorem Inv.takeNotice (h : Inv s) {accountNo : ℤ} {notifyMsgQ : List ℤ} {n : ℕ}
    (hauth : s.auth = .notify (n + 1)) (hq : s.notifyMsgQ = accountNo :: notifyMsgQ) :
    Inv { s with notifyMsgQ, auth := .notifyProc accountNo n } := by
  have hside := h.authSide
  refine ⟨h.absent, h.fresh, fun q p hp => (h.record q p hp).mono rfl (fun _ => id) id, h.msgQ, ?_,
    ⟨hside.unAuth, fun q hq => ?_, fun q hq => ?_, trivial⟩,
    h.fieldSide.mono rfl rfl rfl rfl (fun _ _ => rfl) fun q _ p hp => ⟨p, hp, rfl, id⟩⟩
  · have := h.notices
    unfold State.notices at this ⊢
    rw [hauth, hq] at this
    exact this
  · obtain ⟨ds, ls, hfree⟩ := hside.deleting q hq
    rw [hauth] at hfree
    cases hfree
  · rcases hside.players q hq with ha | hf
    · exact .inl ha
    · rw [hauth] at hf; cases hf

/-- The account of a notice leads to the player that was notified. -/
theorem Inv.notified (h : Inv s) {accountNo : ℤ} {n : ℕ}
    (hauth : s.auth = .notifyProc accountNo n) :
    ∃ q p, s.stage q = .notified ∧ s.heap q = some p ∧ p.accountNo = accountNo ∧
      s.accountsHash.lookup accountNo = some q := by
  obtain ⟨q, p, h1, h2, h3⟩ := h.notices.2 accountNo (by
    unfold State.notices
    rw [hauth]
    exact List.mem_append_left _ (List.mem_singleton_self _))
  have hl := (h.record q p h2).live (by rw [h1]; rfl)
  rw [h3] at hl
  exact ⟨q, p, h1, h2, h3, hl⟩

theorem Inv.handBack (h : Inv s) {q : ℕ} {p : Player} {accountNo : ℤ} {n : ℕ}
    (hauth : s.auth = .notifyProc accountNo n) (hst : s.stage q = .notified)
    (hp : s.heap q = some p) (hacc : p.accountNo = accountNo) :
    Inv { s.setStage q .handedBack with
      authPlayers := insert q s.authPlayers
      accountsHash := s.accountsHash.erase accountNo
      auth := .notify n } := by
  have hside := h.authSide
  have hnodup : accountNo ∉ s.notifyMsgQ ∧ s.notifyMsgQ.Nodup := by
    have := h.notices.1
    unfold State.notices at this
    rw [hauth] at this
    exact List.nodup_cons.mp this
  refine ⟨fun q' => ?_, fun q' hq' => ?_, fun q' p' hp' => ?_, ⟨h.msgQ.1, fun q' hq' => ?_⟩,
    ⟨hnodup.2, fun a ha => ?_⟩, ⟨fun q' => ?_, fun q' hq' => ?_, fun q' hq' => ?_, trivial⟩,
    h.fieldSide.mono rfl rfl rfl rfl (fun q' hq' => ?_) (fun q' _ p' hp' => ⟨p', hp', rfl, id⟩)⟩
  · have := h.absent q'
    simp only [State.setStage]
    grind [Function.update_apply]
  · have := h.fresh q' hq'
    simp only [State.setStage, Finset.mem_insert]
    grind [Function.update_apply]
  · by_cases hqq : q' = q
    · subst hqq
      obtain ⟨h1, h2, h3, h4⟩ := h.record q' p' hp'
      exact ⟨by simp [State.setStage], by simp [State.setStage, Stage.live],
        fun _ => h3 (.inr (.inl hst)), by simp [State.setStage]⟩
    · refine (h.record q' p' hp').mono (Function.update_of_ne hqq _ _) (fun hlive hl => ?_) id
      have hne : p'.accountNo ≠ accountNo := fun he =>
        hqq (h.unique hp' hp hlive (by rw [hst]; rfl) (he.trans hacc.symm))
      exact (AList.lookup_erase_ne hne).trans hl
  · have := h.msgQ.2 q' hq'
    simp only [State.setStage]
    grind [Function.update_apply]
  · obtain ⟨q', p', h1, h2, h3⟩ := h.notices.2 a (by
      unfold State.notices
      exact List.mem_append_right _ ha)
    have hne : q' ≠ q := by
      rintro rfl
      rw [hp] at h2
      cases h2
      exact hnodup.1 (hacc ▸ h3 ▸ ha)
    exact ⟨q', p', (Function.update_of_ne hne _ _).trans h1, h2, h3⟩
  · have := hside.unAuth q'
    simp only [State.setStage]
    grind [Function.update_apply]
  · have := hside.deleting q'
    simp only [State.setStage] at hq'
    grind [Function.update_apply]
  · have := hside.players q'
    simp only [State.setStage, Finset.mem_insert] at hq' ⊢
    grind [Function.update_apply, Stage.atAuth, AuthPc.forgotten]
  · simp only [State.setStage]
    grind [Function.update_apply]

/-- `authThread` takes a player out of the maps; the entry it erases leads to nobody else. -/
theorem Inv.unlist (h : Inv s) {q : ℕ} {ds ls : List ℕ} {p : Player}
    (hauth : s.auth = .deletePlayers (q :: ds) ls) (hq : q ∈ s.authPlayers) (hp : s.heap q = some p)
    (unAuthSessions : Finset ℕ) (accountsHash : AList fun _ : ℤ => ℕ)
    (hu : ∀ q', q' ∈ unAuthSessions ↔ q' ∈ s.unAuthSessions ∧ q' ≠ q)
    (hl : ∀ q' p', q' ≠ q → s.heap q' = some p' → (s.stage q').live = true →
      s.accountsHash.lookup p'.accountNo = some q' → accountsHash.lookup p'.accountNo = some q') :
    Inv { s.setStage q .deleting with unAuthSessions, accountsHash, auth := .free q ds ls } := by
  have hside := h.authSide
  have hst : (s.stage q).atAuth = true := by
    rcases hside.players q hq with ha | hf
    · exact ha
    · rw [hauth] at hf; cases hf
  have hpc := hside.pc
  rw [hauth] at hpc
  obtain ⟨hnodup, hds, hls⟩ := hpc
  refine ⟨fun q' => ?_, fun q' hq' => ?_, fun q' p' hp' => ?_, ⟨h.msgQ.1, fun q' hq' => ?_⟩,
    ⟨?_, fun a ha => ?_⟩, ⟨fun q' => ?_, fun q' hq' => ?_, fun q' hq' => ?_, ?_⟩,
    h.fieldSide.mono rfl rfl rfl rfl (fun q' hq' => ?_) (fun q' _ p' hp' => ⟨p', hp', rfl, id⟩)⟩
  · have := h.absent q'
    simp only [State.setStage]
    grind [Function.update_apply]
  · have := h.fresh q' hq'
    simp only [State.setStage]
    grind [Function.update_apply]
  · by_cases hqq : q' = q
    · subst hqq
      exact ⟨by simp [State.setStage], by simp [State.setStage, Stage.live],
        by simp [State.setStage], by simp [State.setStage]⟩
    · exact (h.record q' p' hp').mono (Function.update_of_ne hqq _ _) (hl q' p' hqq hp') id
  · have := h.msgQ.2 q' hq'
    simp only [State.setStage]
    grind [Function.update_apply, Stage.atAuth]
  · have := h.notices.1
    unfold State.notices at this ⊢
    rw [hauth] at this
    exact this
  · have hn := h.notices.2 a
    unfold State.notices at hn ha
    rw [hauth] at hn
    obtain ⟨q', p', h1, h2, h3⟩ := hn ha
    refine ⟨q', p', ?_, h2, h3⟩
    simp only [State.setStage]
    grind [Function.update_apply, Stage.atAuth]
  · have := hside.unAuth q'
    simp only [State.setStage, hu]
    grind [Function.update_apply]
  · by_cases hqq : q' = q
    · exact ⟨ds, ls, by rw [hqq]⟩
    · obtain ⟨ds', ls', hfree⟩ := hside.deleting q' ((Function.update_of_ne hqq _ _).symm.trans hq')
      rw [hauth] at hfree
      cases hfree
  · have := hside.players q' hq'
    simp only [State.setStage]
    grind [Function.update_apply, Stage.atAuth, AuthPc.forgotten]
  · refine ⟨Function.update_self _ _ _, hnodup, fun q' hq' => hds q' (List.mem_cons_of_mem _ hq'),
      fun q' hq' => ?_⟩
    have hne : q' ≠ q := by
      rintro rfl
      exact (List.nodup_cons.mp hnodup).1 (List.mem_append_right _ hq')
    exact (Function.update_of_ne hne _ _).trans (hls q' hq')
  · simp only [State.setStage]
    grind [Function.update_apply, Stage.atAuth]

theorem Inv.free (h : Inv s) {q : ℕ} {ds ls : List ℕ} (hauth : s.auth = .free q ds ls) :
    Inv { s.setStage q .absent with
      heap := Function.update s.heap q none, auth := .erasePlayer q ds ls } := by
  have hside := h.authSide
  have hpc := hside.pc
  rw [hauth] at hpc
  obtain ⟨hst, hnodup, hds, hls⟩ := hpc
  refine ⟨fun q' => ?_, fun q' hq' => ?_, fun q' p' hp' => ?_, ⟨h.msgQ.1, fun q' hq' => ?_⟩,
    ⟨?_, fun a ha => ?_⟩, ⟨fun q' => ?_, fun q' hq' => ?_, fun q' hq' => ?_, hnodup, hds,
      fun q' hq' => ?_⟩,
    h.fieldSide.mono rfl rfl rfl rfl (fun q' hq' => ?_) (fun q' hq' p' hp' => ⟨p', ?_, rfl, id⟩)⟩
  · have := h.absent q'
    simp only [State.setStage]
    grind [Function.update_apply]
  · have := h.fresh q' hq'
    simp only [State.setStage]
    grind [Function.update_apply]
  · by_cases hqq : q' = q
    · subst hqq
      simp only [Function.update_self] at hp'
      cases hp'
    · simp only [Function.update_of_ne hqq] at hp'
      exact (h.record q' p' hp').mono (Function.update_of_ne hqq _ _) (fun _ => id) id
  · have := h.msgQ.2 q' hq'
    simp only [State.setStage]
    grind [Function.update_apply]
  · have := h.notices.1
    unfold State.notices at this ⊢
    rw [hauth] at this
    exact this
  · have hn := h.notices.2 a
    unfold State.notices at hn ha
    rw [hauth] at hn
    obtain ⟨q', p', h1, h2, h3⟩ := hn ha
    refine ⟨q', p', ?_, ?_, h3⟩
    · simp only [State.setStage]
      grind [Function.update_apply]
    · grind [Function.update_apply]
  · have := hside.unAuth q'
    simp only [State.setStage]
    grind [Function.update_apply]
  · have := hside.deleting q'
    simp only [State.setStage] at hq'
    grind [Function.update_apply]
  · have := hside.players q' hq'
    simp only [State.setStage]
    grind [Function.update_apply, Stage.atAuth, AuthPc.forgotten]
  · have := hls q' hq'
    simp only [State.setStage]
    grind [Function.update_apply]
  · simp only [State.setStage]
    grind [Function.update_apply]
  · grind [Function.update_apply]

theorem Inv.forget (h : Inv s) {q : ℕ} {ds ls : List ℕ} (hauth : s.auth = .erasePlayer q ds ls) :
    Inv { s with authPlayers := s.authPlayers.erase q, auth := .deletePlayers ds ls } := by
  have hside := h.authSide
  have hpc := hside.pc
  rw [hauth] at hpc
  obtain ⟨hnodup, hds, hls⟩ := hpc
  have hq := (List.nodup_cons.mp hnodup).1
  refine ⟨h.absent, fun q' hq' => ?_,
    fun q p hp => (h.record q p hp).mono rfl (fun _ => id) id, h.msgQ, ?_, ⟨hside.unAuth,
    fun q' hq' => ?_, fun q' hq' => ?_, (List.nodup_cons.mp hnodup).2, fun q' hq' => ?_, hls⟩,
    h.fieldSide.mono rfl rfl rfl rfl (fun _ _ => rfl) fun q _ p hp => ⟨p, hp, rfl, id⟩⟩
  · obtain ⟨h1, h2, h3⟩ := h.fresh q' hq'
    exact ⟨h1, fun hm => h2 (Finset.mem_of_mem_erase hm), h3⟩
  · have := h.notices
    unfold State.notices at this ⊢
    rw [hauth] at this
    exact this
  · obtain ⟨ds, ls, hfree⟩ := hside.deleting q' hq'
    rw [hauth] at hfree
    cases hfree
  · obtain ⟨hne, hmem⟩ := Finset.mem_erase.mp hq'
    rcases hside.players q' hmem with ha | hf
    · exact .inl ha
    · rw [hauth] at hf
      cases hf
      exact absurd rfl hne
  · refine Finset.mem_erase.mpr ⟨?_, hds q' hq'⟩
    rintro rfl
    exact hq (List.mem_append_left _ hq')

theorem Inv.leave (h : Inv s) {q : ℕ} {ls : List ℕ} (hauth : s.auth = .leavePlayers (q :: ls)) :
    Inv { s.setStage q .leaving with
      authPlayers := s.authPlayers.erase q, auth := .enterField q ls } := by
  have hside := h.authSide
  have hpc := hside.pc
  rw [hauth] at hpc
  obtain ⟨hnodup, hls⟩ := hpc
  have hst := hls q List.mem_cons_self
  obtain ⟨hq, hnodup⟩ := List.nodup_cons.mp hnodup
  refine ⟨fun q' => ?_, fun q' hq' => ?_, fun q' p' hp' => ?_, ⟨h.msgQ.1, fun q' hq' => ?_⟩,
    ⟨?_, fun a ha => ?_⟩, ⟨fun q' => ?_, fun q' hq' => ?_, fun q' hq' => ?_, ?_⟩,
    h.fieldSide.mono rfl rfl rfl rfl (fun q' hq' => ?_) (fun q' _ p' hp' => ⟨p', hp', rfl, id⟩)⟩
  · have := h.absent q'
    simp only [State.setStage]
    grind [Function.update_apply]
  · have := h.fresh q' hq'
    simp only [State.setStage, Finset.mem_erase]
    grind [Function.update_apply]
  · by_cases hqq : q' = q
    · subst hqq
      obtain ⟨h1, h2, h3, h4⟩ := h.record q' p' hp'
      exact ⟨by simp [State.setStage], fun _ => h2 (by rw [hst]; rfl), by simp [State.setStage],
        by simp [State.setStage]⟩
    · exact (h.record q' p' hp').mono (Function.update_of_ne hqq _ _) (fun _ => id) id
  · have := h.msgQ.2 q' hq'
    simp only [State.setStage]
    grind [Function.update_apply]
  · have := h.notices.1
    unfold State.notices at this ⊢
    rw [hauth] at this
    exact this
  · have hn := h.notices.2 a
    unfold State.notices at hn ha
    rw [hauth] at hn
    obtain ⟨q', p', h1, h2, h3⟩ := hn ha
    refine ⟨q', p', ?_, h2, h3⟩
    simp only [State.setStage]
    grind [Function.update_apply]
  · have := hside.unAuth q'
    simp only [State.setStage]
    grind [Function.update_apply]
  · have := hside.deleting q'
    simp only [State.setStage] at hq'
    grind [Function.update_apply]
  · obtain ⟨hne, hmem⟩ := Finset.mem_erase.mp hq'
    have := hside.players q' hmem
    simp only [State.setStage]
    grind [Function.update_apply, AuthPc.forgotten]
  · refine ⟨Function.update_self _ _ _, hnodup, fun q' hq' => ?_⟩
    have hne : q' ≠ q := fun he => hq (he ▸ hq')
    exact (Function.update_of_ne hne _ _).trans (hls q' (List.mem_cons_of_mem _ hq'))
  · simp only [State.setStage]
    grind [Function.update_apply]

theorem Inv.queue (h : Inv s) {q : ℕ} {ls : List ℕ} (hauth : s.auth = .enterField q ls) :
    Inv { s.setStage q .queued with msgQ := s.msgQ ++ [q], auth := .leavePlayers ls } := by
  have hside := h.authSide
  have hpc := hside.pc
  rw [hauth] at hpc
  obtain ⟨hst, hnodup, hls⟩ := hpc
  have hfresh : q ∉ s.msgQ := fun hq => by rw [h.msgQ.2 q hq] at hst; cases hst
  refine ⟨fun q' => ?_, fun q' hq' => ?_, fun q' p' hp' => ?_, ⟨?_, fun q' hq' => ?_⟩,
    ⟨?_, fun a ha => ?_⟩, ⟨fun q' => ?_, fun q' hq' => ?_, fun q' hq' => ?_, hnodup,
      fun q' hq' => ?_⟩,
    h.fieldSide.mono rfl rfl rfl rfl (fun q' hq' => ?_) (fun q' _ p' hp' => ⟨p', hp', rfl, id⟩)⟩
  · have := h.absent q'
    simp only [State.setStage]
    grind [Function.update_apply]
  · have := h.fresh q' hq'
    simp only [State.setStage]
    grind [Function.update_apply]
  · by_cases hqq : q' = q
    · subst hqq
      obtain ⟨h1, h2, h3, h4⟩ := h.record q' p' hp'
      exact ⟨by simp [State.setStage], fun _ => h2 (by rw [hst]; rfl), by simp [State.setStage],
        by simp [State.setStage]⟩
    · exact (h.record q' p' hp').mono (Function.update_of_ne hqq _ _) (fun _ => id) id
  · exact List.nodup_append.mpr ⟨h.msgQ.1, List.nodup_singleton _, by grind⟩
  · have := h.msgQ.2 q'
    simp only [State.setStage, List.mem_append, List.mem_singleton] at hq' ⊢
    grind [Function.update_apply]
  · have := h.notices.1
    unfold State.notices at this ⊢
    rw [hauth] at this
    exact this
  · have hn := h.notices.2 a
    unfold State.notices at hn ha
    rw [hauth] at hn
    obtain ⟨q', p', h1, h2, h3⟩ := hn ha
    refine ⟨q', p', ?_, h2, h3⟩
    simp only [State.setStage]
    grind [Function.update_apply]
  · have := hside.unAuth q'
    simp only [State.setStage]
    grind [Function.update_apply]
  · have := hside.deleting q'
    simp only [State.setStage] at hq'
    grind [Function.update_apply]
  · have := hside.players q' hq'
    simp only [State.setStage]
    grind [Function.update_apply, Stage.atAuth, AuthPc.forgotten]
  · have := hls q' hq'
    simp only [State.setStage]
    grind [Function.update_apply]
  · simp only [State.setStage]
    grind [Function.update_apply]

/-- The player at which the deletion pass breaks off is taken out of the maps
without harm to another, if it removes no other's entry. -/
theorem inv_deletePlayers
    (h : Inv s) {q : ℕ} {ds ls : List ℕ} (hauth : s.auth = .deletePlayers (q :: ds) ls)
    (hq : q ∈ s.authPlayers) {p : Player} (hp : s.heap q = some p)
    (hkeep : q ∉ s.unAuthSessions → ∀ q', s.accountsHash.lookup p.accountNo = some q' → q' = q) :
    Inv (if q ∈ s.unAuthSessions then
        { s.setStage q .deleting with
          unAuthSessions := s.unAuthSessions.erase q, auth := .free q ds ls }
      else
        { s.setStage q .deleting with
          accountsHash := s.accountsHash.erase p.accountNo, auth := .free q ds ls }) := by
  split_ifs with hu
  · apply h.unlist hauth hq hp (s.unAuthSessions.erase q) s.accountsHash
    · intro q'
      rw [Finset.mem_erase]
      exact and_comm
    · exact fun _ _ _ _ _ => id
  · apply h.unlist hauth hq hp s.unAuthSessions (s.accountsHash.erase p.accountNo)
    · intro q'
      refine ⟨fun hq' => ⟨hq', ?_⟩, fun hq' => hq'.1⟩
      rintro rfl
      exact hu hq'
    · intro q' p' hne _ _ hl
      have hacc : p'.accountNo ≠ p.accountNo := fun he => hne (hkeep hu q' (he ▸ hl))
      exact (AList.lookup_erase_ne hacc).trans hl

theorem inv_scan (h : Inv s) {cap q : ℕ} {todo ds ls : List ℕ} {p : Player}
    (hauth : s.auth = .scan (q :: todo) ds ls) (hp : s.heap q = some p) :
    let ds := if p.connect then ds else ds ++ [q]
    let ls := if p.connect ∧ p.nextFieldID ≠ AUTH_FIELD_IDX then ls ++ [q] else ls
    Inv { s with
      auth := if ds.length = cap ∨ ls.length = cap then .deletePlayers ds ls else
      .scan todo ds ls } := by
  intro ds' ls'
  have hside := h.authSide
  have hpc := hside.pc
  rw [hauth] at hpc
  obtain ⟨hnodup, hmem, hls⟩ := hpc
  have hq : q ∈ s.authPlayers := hmem q (by simp)
  have hrec := h.record q p hp
  -- a connected player that is not for `authThread` waits for the field
  have hwait : p.connect = true → p.nextFieldID ≠ AUTH_FIELD_IDX → s.stage q = .waiting := by
    intro hc hn
    rcases hside.players q hq with ha | hf
    · have h1 := hrec.unAuth
      have h2 := hrec.cut
      have h3 := hside.deleting q
      rw [hauth] at h3
      cases hst : s.stage q <;> simp_all [Stage.atAuth]
    · rw [hauth] at hf; cases hf
  have hnew : (todo ++ ds' ++ ls').Nodup ∧ (∀ q ∈ todo ++ ds', q ∈ s.authPlayers) ∧
      ∀ q ∈ ls', s.stage q = .waiting := by
    simp only [ds', ls']
    refine ⟨?_, ?_, ?_⟩
    · split_ifs <;> grind
    · split_ifs <;> grind
    · split_ifs with hc
      · intro q' hq'
        rcases List.mem_append.mp hq' with hq' | hq'
        · exact hls q' hq'
        · rw [List.mem_singleton.mp hq']
          exact hwait hc.1 hc.2
      · exact hls
  have hnn : ∀ pc : AuthPc, pc = .deletePlayers ds' ls' ∨ pc = .scan todo ds' ls' →
      pc.notice = s.auth.notice := by
    rintro pc (rfl | rfl) <;> rw [hauth] <;> rfl
  by_cases hcap : ds'.length = cap ∨ ls'.length = cap
  · rw [if_pos hcap]
    apply h.authPc _ (hnn _ (.inl rfl)) (by rw [hauth]; rfl) (by rw [hauth]; simp)
    exact ⟨by grind, fun q hq => hnew.2.1 q (List.mem_append_right _ hq), hnew.2.2⟩
  · rw [if_neg hcap]
    exact h.authPc _ (hnn _ (.inr rfl)) (by rw [hauth]; rfl) (by rw [hauth]; simp) hnew

/-- A step of `authThread` that only moves on, with the place it leaves named. -/
theorem Inv.moveAuth (h : Inv s) {pc : AuthPc} (hauth : s.auth = pc) (pc' : AuthPc)
    (hn : pc'.notice = pc.notice) (hf : pc.forgotten = none) (hd : ∀ q ds ls, pc ≠ .free q ds ls)
    (hpc : AuthInv s pc') : Inv { s with auth := pc' } := by
  subst hauth
  exact h.authPc pc' hn hf hd hpc

theorem Inv.authInv (h : Inv s) {pc : AuthPc} (hauth : s.auth = pc) : AuthInv s pc :=
  hauth ▸ h.authSide.pc

/-- `authThread` is halted where it stands. -/
theorem Inv.haltAuth (h : Inv s) {pc : AuthPc} (hauth : s.auth = pc) :
    Inv { s with auth := pc, halted := true } := by
  subst hauth
  exact h.halt s.fault true

section

variable {cap : ℕ} {a : AuthInput} {q n : ℕ} {accountNo : ℤ} {todo ds ls : List ℕ}

theorem inv_authTop (h : Inv s) (hauth : s.auth = .top) (he : authStep cap a s = some t) :
    Inv t := by
  simp only [authStep, hauth] at he
  split_ifs at he with hdone horder
  · cases he
    exact h.moveAuth hauth _ rfl rfl (by simp) trivial
  · cases he
    exact h.top hauth horder.2

theorem inv_authMessages (h : Inv s) (hauth : s.auth = .messages todo)
    (he : authStep cap a s = some t) : Inv t := by
  have htodo := h.authInv hauth
  simp only [authStep, hauth] at he
  cases todo with
  | nil =>
    cases he
    exact h.moveAuth hauth _ rfl rfl (by simp) trivial
  | cons q todo =>
    cases he
    have hrest : ∀ q' ∈ todo, q' ∈ s.authPlayers :=
      fun q' hq' => htodo q' (List.mem_cons_of_mem _ hq')
    have hnext := h.moveAuth hauth (.messages todo) rfl rfl (by simp) hrest
    apply h.read
    intro p hp
    by_cases hn : p.nextFieldID ≠ AUTH_FIELD_IDX
    · rw [if_pos hn]
      exact hnext
    · rw [if_neg hn]
      split
      · exact hnext
      · exact h
      · next accountNo _ =>
        have hpro := h.moveAuth hauth (.promote q accountNo todo) rfl rfl (by simp)
          ⟨htodo q List.mem_cons_self, hrest⟩
        exact hpro.logged _

theorem inv_promote (h : Inv s) (hauth : s.auth = .promote q accountNo todo)
    (he : authStep cap a s = some t) : Inv t := by
  obtain ⟨hq, hrest⟩ := h.authInv hauth
  have hback : Inv { s with auth := .messages (q :: todo) } := by
    refine h.moveAuth hauth _ rfl rfl (by simp) fun q' hq' => ?_
    rcases List.mem_cons.mp hq' with rfl | hq'
    · exact hq
    · exact hrest q' hq'
  simp only [authStep, hauth] at he
  split at he
  · cases he
    exact h.read fun _ _ => hback
  · next hnone =>
    split_ifs at he with hu <;> cases he
    · exact h.read fun p hp => h.promote hauth hnone hu hp
    · exact hback

theorem inv_notify (h : Inv s) (hauth : s.auth = .notify n) (he : authStep cap a s = some t) :
    Inv t := by
  simp only [authStep, hauth] at he
  cases n with
  | zero =>
    dsimp only at he
    split_ifs at he with horder
    cases he
    refine h.moveAuth hauth _ rfl rfl (by simp)
      ⟨by simpa using horder.1, fun q hq => ?_, by simp⟩
    rw [← horder.2, List.mem_toFinset]
    simpa using hq
  | succ n =>
    dsimp only at he
    split at he
    · cases he
    · next accountNo notifyMsgQ hq =>
      cases he
      exact h.takeNotice hauth hq

theorem inv_notifyProc (h : Inv s) (hauth : s.auth = .notifyProc accountNo n)
    (he : authStep cap a s = some t) : Inv t := by
  obtain ⟨q, p, h1, h2, h3, hl⟩ := h.notified hauth
  simp only [authStep, hauth, hl] at he
  cases he
  exact h.read fun _ _ => h.handBack hauth h1 h2 h3

theorem inv_authScan (h : Inv s) (hauth : s.auth = .scan todo ds ls)
    (he : authStep cap a s = some t) : Inv t := by
  simp only [authStep, hauth] at he
  cases todo with
  | nil =>
    cases he
    obtain ⟨hnodup, hds, hls⟩ := h.authInv hauth
    exact h.moveAuth hauth _ rfl rfl (by simp) ⟨by simpa using hnodup, by simpa using hds, hls⟩
  | cons q todo =>
    cases he
    exact h.read fun p hp => inv_scan h hauth hp

theorem inv_deletes (h : Inv s) (hk : Keeps s (.auth a)) (hauth : s.auth = .deletePlayers ds ls)
    (he : authStep cap a s = some t) : Inv t := by
  simp only [authStep, hauth] at he
  cases ds with
  | nil =>
    cases he
    obtain ⟨hnodup, -, hls⟩ := h.authInv hauth
    exact h.moveAuth hauth _ rfl rfl (by simp) ⟨by simpa using hnodup, hls⟩
  | cons q ds =>
    dsimp only at he
    by_cases hq : q ∈ s.authPlayers
    · rw [if_pos hq] at he
      cases he
      exact h.read fun p hp => inv_deletePlayers h hauth hq hp fun hu q' hl =>
        hk q ds ls p q' hauth hp hu hl
    · rw [if_neg hq] at he
      cases he
      exact h.haltAuth hauth

theorem inv_leaves (h : Inv s) (hauth : s.auth = .leavePlayers ls)
    (he : authStep cap a s = some t) : Inv t := by
  simp only [authStep, hauth] at he
  cases ls with
  | nil =>
    cases he
    exact h.moveAuth hauth _ rfl rfl (by simp) trivial
  | cons q ls =>
    obtain ⟨hnodup, hls⟩ := h.authInv hauth
    dsimp only at he
    split_ifs at he with hq <;> cases he
    · apply h.read
      intro p hp
      split_ifs
      · exact h.moveAuth hauth _ rfl rfl (by simp)
          ⟨(List.nodup_cons.mp hnodup).2, fun q' hq' => hls q' (List.mem_cons_of_mem _ hq')⟩
      · exact h.leave hauth
      · exact h.haltAuth hauth
    · exact h.haltAuth hauth

theorem inv_authStep (h : Inv s) (hk : Keeps s (.auth a)) (he : authStep cap a s = some t) :
    Inv t := by
  cases hauth : s.auth with
  | top => exact inv_authTop h hauth he
  | messages => exact inv_authMessages h hauth he
  | promote => exact inv_promote h hauth he
  | notify => exact inv_notify h hauth he
  | notifyProc => exact inv_notifyProc h hauth he
  | scan => exact inv_authScan h hauth he
  | deletePlayers => exact inv_deletes h hk hauth he
  | leavePlayers => exact inv_leaves h hauth he
  | free =>
    simp only [authStep, hauth] at he
    cases he
    exact h.read fun _ _ => h.free hauth
  | erasePlayer =>
    simp only [authStep, hauth] at he
    cases he
    exact h.forget hauth
  | enterField =>
    simp only [authStep, hauth] at he
    cases he
    exact h.queue hauth
  | done =>
    simp only [authStep, hauth] at he
    cases he

end

/-! ### Steps of the field thread -/

/-- A field of a player is written that does not say where the player is. -/
theorem Inv.rewrite (h : Inv s) (pc : FieldPc)
    {q : ℕ} {p : Player} (hp : s.heap q = some p) (p' : Player) (hacc : p'.accountNo = p.accountNo)
    (hnext : p'.nextFieldID = p.nextFieldID) (hconn : p.connect = false → p'.connect = false)
    (hpend : s.stage q = .saving → p'.savePending = true ∨ pc.unset = some q)
    (hu : ∀ q', q' ≠ q → s.field.unset = some q' → pc.unset = some q')
    (hw : pc.window = s.field.window) (hh : pc.held = s.field.held) (hpc : FieldInv s pc) :
    Inv { s.setPlayer q p' with field := pc } := by
  have hheap : ∀ q' r, Function.update s.heap q (some p') q' = some r →
      ∃ r', s.heap q' = some r' ∧ r.accountNo = r'.accountNo ∧
        (r'.connect = false → r.connect = false) := by
    intro q' r hr
    by_cases hqq : q' = q
    · subst hqq
      rw [Function.update_self, Option.some.injEq] at hr
      subst hr
      exact ⟨p, hp, hacc, hconn⟩
    · rw [Function.update_of_ne hqq] at hr
      exact ⟨r, hr, rfl, id⟩
  refine ⟨fun q' => ?_, h.fresh, fun q' r hr => ?_, h.msgQ, ⟨h.notices.1, fun a ha => ?_⟩,
    h.authSide.mono rfl rfl rfl fun _ => .inl rfl, ⟨fun q' hq' => ?_, h.fieldSide.sectors, ?_, ?_⟩⟩
  · have := h.absent q'
    simp only [State.setPlayer]
    grind [Function.update_apply]
  · by_cases hqq : q' = q
    · subst hqq
      simp only [State.setPlayer, Function.update_self, Option.some.injEq] at hr
      subst hr
      obtain ⟨h1, h2, h3, h4⟩ := h.record q' p hp
      exact ⟨fun hs => hnext.trans (h1 hs), fun hl => by rw [hacc]; exact h2 hl,
        fun hs => hconn (h3 hs), hpend⟩
    · simp only [State.setPlayer, Function.update_of_ne hqq] at hr
      exact (h.record q' r hr).mono rfl (fun _ => id) (hu q' hqq)
  · obtain ⟨q', r, h1, h2, h3⟩ := h.notices.2 a ha
    by_cases hqq : q' = q
    · subst hqq
      rw [hp] at h2
      cases h2
      exact ⟨q', p', h1, Function.update_self _ _ _, hacc.trans h3⟩
    · exact ⟨q', r, h1, (Function.update_of_ne hqq _ _).trans h2, h3⟩
  · rw [show ({ s.setPlayer q p' with field := pc } : State).field.window = s.field.window from hw]
    exact h.fieldSide.players q' hq'
  · have := h.fieldSide.saves
    unfold State.saves at this ⊢
    rw [show ({ s.setPlayer q p' with field := pc } : State).field.held = s.field.held from hh]
    exact this
  · exact hpc.mono rfl rfl (fun _ q' _ r hr => hheap q' r hr) fun _ _ => rfl

/-- A step that changes the cells. -/
theorem Inv.resector (h : Inv s) {pc : FieldPc} {sectors : Finset (Sector × ℕ)}
    (hw : pc.window = s.field.window ∨ s.field.window = none) (hh : pc.held = s.field.held)
    (hu : pc.unset = s.field.unset ∨ s.field.unset = none)
    (hsec : ∀ c q, (c, q) ∈ sectors → q ∈ s.fieldPlayers ∧ ∀ c', (c', q) ∈ sectors → c' = c)
    (hpc : FieldInv { s with sectors } pc) :
    Inv { s with sectors, field := pc } := by
  refine ⟨h.absent, h.fresh, fun q p hp => (h.record q p hp).mono rfl (fun _ => id) fun hq => ?_,
    h.msgQ, h.notices, h.authSide.mono rfl rfl rfl fun _ => .inl rfl,
    ⟨fun q hq => ?_, hsec, ?_, ?_⟩⟩
  · rcases hu with hu | hu
    · exact hu.trans hq
    · rw [hu] at hq; cases hq
  · rcases h.fieldSide.players q hq with hs | hs | hq'
    · exact .inl hs
    · exact .inr (.inl hs)
    · rcases hw with hw | hw
      · exact .inr (.inr (hw.trans hq'))
      · rw [hw] at hq'; cases hq'
  · have := h.fieldSide.saves
    unfold State.saves at this ⊢
    rw [hh]
    exact this
  · exact hpc.mono rfl rfl (fun _ _ _ p hp => ⟨p, hp, rfl, id⟩) fun _ _ => rfl

/-- The field thread takes a player out of its queue. -/
theorem Inv.takePlayer (h : Inv s) {q n : ℕ} {msgQ : List ℕ} (hfield : s.field = .messages (n + 1))
    (hq : s.msgQ = q :: msgQ) :
    Inv { s.setStage q .registering with msgQ, field := .registerPlayer q n } := by
  obtain ⟨hnodup, hst⟩ := h.msgQ
  rw [hq] at hnodup hst
  have hsq := hst q List.mem_cons_self
  have hside := h.fieldSide
  refine ⟨fun q' => ?_, fun q' hq' => ?_, fun q' p hp => ?_, ⟨(List.nodup_cons.mp hnodup).2,
    fun q' hq' => ?_⟩, ⟨h.notices.1, fun a ha => ?_⟩, h.authSide.mono rfl rfl rfl fun q' => ?_,
    ⟨fun q' hq' => ?_, hside.sectors, ⟨?_, fun q' hq' => ?_⟩, Function.update_self _ _ _⟩⟩
  · have := h.absent q'
    simp only [State.setStage]
    grind [Function.update_apply]
  · have := h.fresh q' hq'
    simp only [State.setStage]
    grind [Function.update_apply]
  · by_cases hqq : q' = q
    · subst hqq
      obtain ⟨h1, h2, h3, h4⟩ := h.record q' p hp
      exact ⟨by simp [State.setStage], fun _ => h2 (by rw [hsq]; rfl), by simp [State.setStage],
        by simp [State.setStage]⟩
    · refine (h.record q' p hp).mono (Function.update_of_ne hqq _ _) (fun _ => id) fun hu => ?_
      rw [hfield] at hu
      cases hu
  · have hne : q' ≠ q := fun he => (List.nodup_cons.mp hnodup).1 (he ▸ hq')
    exact (Function.update_of_ne hne _ _).trans (hst q' (List.mem_cons_of_mem _ hq'))
  · obtain ⟨q', p, h1, h2, h3⟩ := h.notices.2 a ha
    refine ⟨q', p, ?_, h2, h3⟩
    simp only [State.setStage]
    grind [Function.update_apply]
  · simp only [State.setStage]
    grind [Function.update_apply, Stage.atAuth]
  · have := hside.players q' hq'
    rw [hfield] at this
    simp only [State.setStage]
    grind [Function.update_apply, FieldPc.window]
  · have := hside.saves.1
    unfold State.saves at this ⊢
    rw [hfield] at this
    exact this
  · have := hside.saves.2 q'
    unfold State.saves at this hq'
    rw [hfield] at this
    have hs := this hq'
    simp only [State.setStage]
    grind [Function.update_apply]

theorem Inv.register (h : Inv s) {q n : ℕ} (hfield : s.field = .registerPlayer q n)
    (hq : q ∉ s.fieldPlayers) :
    Inv { s.setStage q .inField with
      fieldPlayers := insert q s.fieldPlayers, field := .enterSector q n } := by
  have hside := h.fieldSide
  have hst := hside.pc
  rw [hfield] at hst
  have hst : s.stage q = .registering := hst
  refine ⟨fun q' => ?_, fun q' hq' => ?_, fun q' p hp => ?_, ⟨h.msgQ.1, fun q' hq' => ?_⟩,
    ⟨h.notices.1, fun a ha => ?_⟩, h.authSide.mono rfl rfl rfl fun q' => ?_,
    ⟨fun q' hq' => ?_, fun c q' hc => ?_, ⟨?_, fun q' hq' => ?_⟩, Finset.mem_insert_self _ _,
      fun c hc => ?_⟩⟩
  · have := h.absent q'
    simp only [State.setStage]
    grind [Function.update_apply]
  · have := h.fresh q' hq'
    simp only [State.setStage, Finset.mem_insert]
    grind [Function.update_apply]
  · by_cases hqq : q' = q
    · subst hqq
      obtain ⟨h1, h2, h3, h4⟩ := h.record q' p hp
      exact ⟨by simp [State.setStage], fun _ => h2 (by rw [hst]; rfl), by simp [State.setStage],
        by simp [State.setStage]⟩
    · refine (h.record q' p hp).mono (Function.update_of_ne hqq _ _) (fun _ => id) fun hu => ?_
      rw [hfield] at hu
      cases hu
  · have := h.msgQ.2 q' hq'
    simp only [State.setStage]
    grind [Function.update_apply]
  · obtain ⟨q', p, h1, h2, h3⟩ := h.notices.2 a ha
    refine ⟨q', p, ?_, h2, h3⟩
    simp only [State.setStage]
    grind [Function.update_apply]
  · simp only [State.setStage]
    grind [Function.update_apply, Stage.atAuth]
  · have := hside.players q'
    rw [hfield] at this
    simp only [State.setStage, Finset.mem_insert] at hq' ⊢
    grind [Function.update_apply, FieldPc.window]
  · obtain ⟨h1, h2⟩ := hside.sectors c q' hc
    exact ⟨Finset.mem_insert_of_mem h1, h2⟩
  · have := hside.saves.1
    unfold State.saves at this ⊢
    rw [hfield] at this
    exact this
  · have := hside.saves.2 q'
    unfold State.saves at this hq'
    rw [hfield] at this
    have hs := this hq'
    simp only [State.setStage]
    grind [Function.update_apply]
  · exact hq (hside.sectors c q hc).1

theorem Inv.save (h : Inv s) {q : ℕ} {ds : List ℕ} {accountNo : ℤ}
    (hfield : s.field = .requestSave q ds) :
    Inv { s.setStage q .saving with
      dbReqQ := s.dbReqQ ++ [.positionSave q accountNo], field := .setPending q ds } := by
  have hside := h.fieldSide
  have hpc := hside.pc
  rw [hfield] at hpc
  obtain ⟨hst, hq, hcut, hds⟩ := hpc
  have hsaves : State.saves { s.setStage q .saving with
      dbReqQ := s.dbReqQ ++ [.positionSave q accountNo], field := .setPending q ds } =
        s.saves ++ [q] := by
    simp [State.saves, State.setStage, hfield, FieldPc.held, List.flatMap_append, Job.saves]
  refine ⟨fun q' => ?_, fun q' hq' => ?_, fun q' p hp => ?_, ⟨h.msgQ.1, fun q' hq' => ?_⟩,
    ⟨h.notices.1, fun a ha => ?_⟩, h.authSide.mono rfl rfl rfl fun q' => ?_,
    ⟨fun q' hq' => ?_, hside.sectors, ?_, Function.update_self _ _ _, hq, hds⟩⟩
  · have := h.absent q'
    simp only [State.setStage]
    grind [Function.update_apply]
  · have := h.fresh q' hq'
    simp only [State.setStage]
    grind [Function.update_apply]
  · by_cases hqq : q' = q
    · subst hqq
      obtain ⟨h1, h2, h3, h4⟩ := h.record q' p hp
      exact ⟨by simp [State.setStage], fun _ => h2 (by rw [hst]; rfl), fun _ => hcut p hp,
        fun _ => .inr rfl⟩
    · refine (h.record q' p hp).mono (Function.update_of_ne hqq _ _) (fun _ => id) fun hu => ?_
      rw [hfield] at hu
      cases hu
  · have := h.msgQ.2 q' hq'
    simp only [State.setStage]
    grind [Function.update_apply]
  · obtain ⟨q', p, h1, h2, h3⟩ := h.notices.2 a ha
    refine ⟨q', p, ?_, h2, h3⟩
    simp only [State.setStage]
    grind [Function.update_apply]
  · simp only [State.setStage]
    grind [Function.update_apply, Stage.atAuth]
  · have := hside.players q' hq'
    rw [hfield] at this
    simp only [State.setStage]
    grind [Function.update_apply, FieldPc.window]
  · rw [hsaves]
    refine ⟨List.nodup_append.mpr ⟨hside.saves.1, List.nodup_singleton _, ?_⟩, fun q' hq' => ?_⟩
    · have := hside.saves.2
      grind
    · have := hside.saves.2 q'
      simp only [State.setStage, List.mem_append, List.mem_singleton] at hq' ⊢
      grind [Function.update_apply]

theorem Inv.notify (h : Inv s) {q n : ℕ} {accountNo : ℤ}
    (hfield : s.field = .notifyDisconnect q accountNo n) :
    Inv { s.setStage q .notified with
      notifyMsgQ := s.notifyMsgQ ++ [accountNo], field := .readSector q n } := by
  have hside := h.fieldSide
  have hpc := hside.pc
  rw [hfield] at hpc
  obtain ⟨hq, hacc⟩ := hpc
  have hsaves : s.saves = q :: (s.dbResQ ++ s.db.jobs ++ s.dbReqQ).flatMap Job.saves := by
    rw [State.saves, hfield]
    rfl
  obtain ⟨hnodup, hall⟩ := hside.saves
  rw [hsaves] at hnodup hall
  obtain ⟨hqs, hnodup⟩ := List.nodup_cons.mp hnodup
  have hst := hall q List.mem_cons_self
  obtain ⟨p, hp⟩ := h.alive (q := q) (by rw [hst]; simp)
  have hpa := hacc p hp
  have hnotices : State.notices { s.setStage q .notified with
      notifyMsgQ := s.notifyMsgQ ++ [accountNo], field := .readSector q n } = s.notices ++
        [accountNo] := by
    simp [State.notices, State.setStage]
  refine ⟨fun q' => ?_, fun q' hq' => ?_, fun q' p' hp' => ?_, ⟨h.msgQ.1, fun q' hq' => ?_⟩,
    ⟨?_, fun a ha => ?_⟩, h.authSide.mono rfl rfl rfl fun q' => ?_,
    ⟨fun q' hq' => ?_, hside.sectors, ⟨hnodup, fun q' hq' => ?_⟩, trivial⟩⟩
  · have := h.absent q'
    simp only [State.setStage]
    grind [Function.update_apply]
  · have := h.fresh q' hq'
    simp only [State.setStage]
    grind [Function.update_apply]
  · by_cases hqq : q' = q
    · subst hqq
      obtain ⟨h1, h2, h3, h4⟩ := h.record q' p' hp'
      exact ⟨by simp [State.setStage], fun _ => h2 (by rw [hst]; rfl), fun _ => h3 (.inl hst),
        by simp [State.setStage]⟩
    · refine (h.record q' p' hp').mono (Function.update_of_ne hqq _ _) (fun _ => id) fun hu => ?_
      rw [hfield] at hu
      exact absurd (Option.some.inj hu).symm hqq
  · have := h.msgQ.2 q' hq'
    simp only [State.setStage]
    grind [Function.update_apply]
  · -- no notice of this account is on its way, since its player was being saved
    have hfresh : accountNo ∉ s.notices := by
      intro hm
      obtain ⟨q', p', h1, h2, h3⟩ := h.notices.2 accountNo hm
      have := h.unique hp h2 (by rw [hst]; rfl) (by rw [h1]; rfl) (hpa.trans h3.symm)
      subst this
      rw [hst] at h1
      cases h1
    rw [hnotices]
    exact List.nodup_append.mpr ⟨h.notices.1, List.nodup_singleton _, by grind⟩
  · rw [hnotices] at ha
    rcases List.mem_append.mp ha with ha | ha
    · obtain ⟨q', p', h1, h2, h3⟩ := h.notices.2 a ha
      refine ⟨q', p', ?_, h2, h3⟩
      simp only [State.setStage]
      grind [Function.update_apply]
    · rw [List.mem_singleton.mp ha]
      exact ⟨q, p, Function.update_self _ _ _, hp, hpa⟩
  · simp only [State.setStage]
    grind [Function.update_apply, Stage.atAuth]
  · have := hside.players q' hq'
    rw [hfield] at this
    simp only [State.setStage]
    grind [Function.update_apply, FieldPc.window]
  · have hs := hall q' (List.mem_cons_of_mem _ hq')
    have hne : q' ≠ q := fun he => hqs (he ▸ hq')
    exact (Function.update_of_ne hne _ _).trans hs

/-- The jobs and the results move, the PositionSaves among them stay in order or are lost. -/
theorem Inv.results (h : Inv s) (pc : FieldPc) (db : DbPc) (dbReqQ dbResQ : List Job)
    (hw : pc.window = s.field.window ∨ s.field.window = none)
    (hu : pc.unset = s.field.unset ∨ s.field.unset = none)
    (hsaves : (State.saves { s with dbReqQ, dbResQ, db, field := pc }).Sublist s.saves)
    (hpc : FieldInv s pc) :
    Inv { s with dbReqQ, dbResQ, db, field := pc } := by
  refine ⟨h.absent, h.fresh, fun q p hp => (h.record q p hp).mono rfl (fun _ => id) fun hq => ?_,
    h.msgQ, h.notices, h.authSide.mono rfl rfl rfl fun _ => .inl rfl,
    ⟨fun q hq => ?_, h.fieldSide.sectors, ⟨h.fieldSide.saves.1.sublist hsaves, fun q hq => ?_⟩, ?_⟩⟩
  · rcases hu with hu | hu
    · exact hu.trans hq
    · rw [hu] at hq; cases hq
  · rcases h.fieldSide.players q hq with hs | hs | hq'
    · exact .inl hs
    · exact .inr (.inl hs)
    · rcases hw with hw | hw
      · exact .inr (.inr (hw.trans hq'))
      · rw [hw] at hq'; cases hq'
  · exact h.fieldSide.saves.2 q (hsaves.subset hq)
  · exact hpc.mono rfl rfl (fun _ _ _ p hp => ⟨p, hp, rfl, id⟩) fun _ _ => rfl

theorem Inv.erasePlayer (h : Inv s) {q n : ℕ} (hfield : s.field = .erasePlayer q n) :
    Inv { s with fieldPlayers := s.fieldPlayers.erase q, field := .dbResult n } := by
  have hside := h.fieldSide
  have hpc := hside.pc
  rw [hfield] at hpc
  refine ⟨h.absent, fun q' hq' => ?_, fun q' p hp => (h.record q' p hp).mono rfl (fun _ => id)
    fun hu => ?_, h.msgQ, h.notices, h.authSide.mono rfl rfl rfl fun _ => .inl rfl,
    ⟨fun q' hq' => ?_, fun c q' hc => ?_, ?_, trivial⟩⟩
  · obtain ⟨h1, h2, h3⟩ := h.fresh q' hq'
    exact ⟨h1, h2, fun hm => h3 (Finset.mem_of_mem_erase hm)⟩
  · rw [hfield] at hu
    cases hu
  · obtain ⟨hne, hmem⟩ := Finset.mem_erase.mp hq'
    rcases hside.players q' hmem with hs | hs | hw
    · exact .inl hs
    · exact .inr (.inl hs)
    · rw [hfield] at hw
      exact absurd (Option.some.inj hw).symm hne
  · obtain ⟨h1, h2⟩ := hside.sectors c q' hc
    refine ⟨Finset.mem_erase.mpr ⟨?_, h1⟩, h2⟩
    rintro rfl
    exact hpc c hc
  · have := hside.saves
    unfold State.saves at this ⊢
    rw [hfield] at this
    exact this

/-- A player that is in no cell gets one. -/
theorem Inv.insertCell (h : Inv s) {q : ℕ} (hq : q ∈ s.fieldPlayers)
    (hnone : ∀ c, (c, q) ∉ s.sectors) (new : Sector) :
    ∀ c q', (c, q') ∈ insert (new, q) s.sectors →
      q' ∈ s.fieldPlayers ∧ ∀ c', (c', q') ∈ insert (new, q) s.sectors → c' = c := by
  intro c q' hc
  have hold := h.fieldSide.sectors
  simp only [Finset.mem_insert, Prod.mk.injEq] at hc ⊢
  grind

/-- A player is taken out of its cell. -/
theorem Inv.eraseCell (h : Inv s) (x : Sector × ℕ) :
    ∀ c q', (c, q') ∈ s.sectors.erase x → q' ∈ s.fieldPlayers ∧ ∀ c', (c', q') ∈ s.sectors.erase x →
      c' = c := by
  intro c q' hc
  obtain ⟨h1, h2⟩ := h.fieldSide.sectors c q' (Finset.mem_of_mem_erase hc)
  exact ⟨h1, fun c' hc' => h2 c' (Finset.mem_of_mem_erase hc')⟩

/-- It is then in none. -/
theorem Inv.not_mem_erase (h : Inv s) {q : ℕ} {c : Sector} (hc : (c, q) ∈ s.sectors) :
    ∀ c', (c', q) ∉ s.sectors.erase (c, q) := by
  intro c' hc'
  obtain ⟨hne, hmem⟩ := Finset.mem_erase.mp hc'
  rw [(h.fieldSide.sectors c q hc).2 c' hmem] at hne
  exact hne rfl

theorem inv_tick (h : Inv s) {q : ℕ} {p : Player} (hfield : s.field = .tick)
    (hp : s.heap q = some p) (op : TickOp) :
    Inv (match op with
      | .use => s
      | .cut => s.setPlayer q { p with connect := p.connect && s.bOn }
      | .query => { s with dbReqQ := s.dbReqQ ++ [.other q] }
      | .move newSector =>
        if (p.currentSector, q) ∈ s.sectors then { s with
          field := .moveErase q p.currentSector newSector }
        else { s with halted := true }) := by
  have hpc := h.fieldSide.pc
  cases op with
  | use => exact h
  | cut =>
    exact h.rewrite s.field hp _ rfl rfl (fun hc => by simp [hc]) (h.record q p hp).pending
      (fun _ _ => id) rfl rfl hpc
  | query =>
    apply h.results s.field s.db _ s.dbResQ (.inl rfl) (.inl rfl) _ hpc
    simp [State.saves, List.flatMap_append, Job.saves]
  | move newSector =>
    dsimp only
    split_ifs with hc
    · exact h.fieldPc _ (.inr (by rw [hfield]; rfl)) (by rw [hfield]; rfl)
        (.inr (by rw [hfield]; rfl)) hc
    · exact h.halt s.fault true

/-! One lemma for each place of the field thread. -/

/-- A step that only moves on, from a place where nothing is held. -/
theorem Inv.moveOn (h : Inv s) {pc : FieldPc} (hfield : s.field = pc)
    (pc' : FieldPc) (hw : pc.window = none) (hu : pc.unset = none) (hh : pc'.held = pc.held)
    (hpc : FieldInv s pc') : Inv { s with field := pc' } := by
  subst hfield
  exact h.fieldPc pc' (.inr hw) hh (.inr hu) hpc

section

variable {cap : ℕ} {a : FieldInput} {q n : ℕ} {c c' : Sector} {ds todo : List ℕ}

theorem inv_top (h : Inv s) (hfield : s.field = .top)
    (he : fieldStep cap a s = some t) : Inv t := by
  unfold fieldStep at he
  simp only [hfield] at he
  split_ifs at he <;> cases he <;> exact h.moveOn hfield _ rfl rfl rfl trivial

theorem inv_messages (h : Inv s) (hfield : s.field = .messages n)
    (he : fieldStep cap a s = some t) : Inv t := by
  unfold fieldStep at he
  simp only [hfield] at he
  rcases n with _ | n <;> dsimp only at he
  · cases he
    exact h.moveOn hfield _ rfl rfl rfl trivial
  · split at he
    · cases he
    · rename_i q msgQ hq
      cases he
      exact h.takePlayer hfield hq

theorem inv_registerPlayer (h : Inv s) (hfield : s.field = .registerPlayer q n)
    (he : fieldStep cap a s = some t) :
    Inv t := by
  have hhalt := h.halt s.fault true
  unfold fieldStep at he
  simp only [hfield] at he hhalt
  cases he
  apply h.read
  intro p hp
  split_ifs with hq
  · exact hhalt
  · exact h.register hfield hq

theorem inv_enterSector (h : Inv s) (hfield : s.field = .enterSector q n)
    (he : fieldStep cap a s = some t) :
    Inv t := by
  have hpc := h.fieldSide.pc
  have hhalt := h.halt s.fault true
  unfold fieldStep at he
  rw [hfield] at hpc
  simp only [hfield] at he hhalt
  cases he
  apply h.read
  intro p hp
  split_ifs with hq
  · exact hhalt
  · have hset := h.rewrite (.enterSector q n) hp { p with currentSector := a.sector } rfl rfl id
      (fun hs => by have := (h.record q p hp).pending hs; rw [hfield] at this; exact this)
      (fun _ _ hu => by rw [hfield] at hu; exact hu) (by rw [hfield]) (by rw [hfield]) hpc
    exact hset.resector (.inr rfl) rfl (.inr rfl) (h.insertCell hpc.1 hpc.2 a.sector) trivial

theorem inv_broadcast (h : Inv s) (hfield : s.field = .broadcast n)
    (he : fieldStep cap a s = some t) : Inv t := by
  unfold fieldStep at he
  simp only [hfield] at he
  split at he
  · cases he
    exact h.moveOn hfield _ rfl rfl rfl trivial
  · split_ifs at he
    cases he
    exact h.read fun _ _ => h

/-- `fieldUpdate`, until it is done with its players and monsters. -/
theorem inv_ticks (h : Inv s) (hfield : s.field = .tick)
    (he : fieldStep cap a s = some t) : Inv t := by
  unfold fieldStep at he
  simp only [hfield] at he
  split at he
  · split_ifs at he with ho
    cases he
    refine h.moveOn hfield (.scan a.order []) rfl rfl rfl ⟨fun q hq => ?_, by simp⟩
    rw [← ho.2, List.mem_toFinset]
    exact hq
  · rename_i q op _
    split_ifs at he
    cases he
    apply h.read
    intro p hp
    have ht := inv_tick h hfield hp op
    rw [hfield] at ht
    exact ht

theorem inv_moveErase (h : Inv s) (hfield : s.field = .moveErase q c c')
    (he : fieldStep cap a s = some t) : Inv t := by
  have hpc := h.fieldSide.pc
  unfold fieldStep at he
  rw [hfield] at hpc
  simp only [hfield] at he
  cases he
  have hin := (h.fieldSide.sectors c q hpc).1
  exact h.resector (.inr (by rw [hfield]; rfl)) (by rw [hfield]; rfl) (.inr (by rw [hfield]; rfl))
    (h.eraseCell (c, q)) ⟨hin, h.not_mem_erase hpc⟩

theorem inv_moveInsert (h : Inv s) (hfield : s.field = .moveInsert q c)
    (he : fieldStep cap a s = some t) : Inv t := by
  have hpc := h.fieldSide.pc
  unfold fieldStep at he
  rw [hfield] at hpc
  simp only [hfield] at he
  cases he
  exact h.resector (.inr (by rw [hfield]; rfl)) (by rw [hfield]; rfl) (.inr (by rw [hfield]; rfl))
    (h.insertCell hpc.1 hpc.2 c) hpc.1

theorem inv_moveSet (h : Inv s) (hfield : s.field = .moveSet q c)
    (he : fieldStep cap a s = some t) : Inv t := by
  unfold fieldStep at he
  simp only [hfield] at he
  cases he
  apply h.read
  intro p hp
  exact h.rewrite .tick hp _ rfl rfl id
    (fun hs => by have := (h.record q p hp).pending hs; rw [hfield] at this; exact this)
    (fun _ _ hu => by rw [hfield] at hu; exact hu) (by rw [hfield]; rfl)
      (by rw [hfield]; rfl) trivial

/-- Whom the scan has found is disconnected. -/
theorem inv_fieldScan (h : Inv s) (hfield : s.field = .scan todo ds)
    (he : fieldStep cap a s = some t) : Inv t := by
  have hpc := h.fieldSide.pc
  unfold fieldStep at he
  rw [hfield] at hpc
  simp only [hfield] at he
  rcases todo with _ | ⟨q, todo⟩ <;> cases he
  · exact h.moveOn hfield _ rfl rfl rfl hpc.2
  apply h.read
  intro p hp
  have hds : ∀ q' ∈ if p.connect = true then ds else ds ++ [q], q' ∈ s.fieldPlayers ∧ Cut s q' := by
    split_ifs with hc
    · exact hpc.2
    · intro q' hq'
      rcases List.mem_append.mp hq' with hq' | hq'
      · exact hpc.2 q' hq'
      · rw [List.mem_singleton.mp hq']
        refine ⟨hpc.1 q List.mem_cons_self, fun p' hp' => ?_⟩
        rw [hp] at hp'
        cases hp'
        simpa using hc
  by_cases hcap : (if p.connect = true then ds else ds ++ [q]).length = cap
  · rw [if_pos hcap]
    exact h.moveOn hfield _ rfl rfl rfl hds
  · rw [if_neg hcap]
    exact h.moveOn hfield _ rfl rfl rfl ⟨fun q' hq' => hpc.1 q' (List.mem_cons_of_mem _ hq'), hds⟩

/-- A player whose bit is not set is not being saved. -/
theorem inv_disconnect (h : Inv s) (hfield : s.field = .disconnect ds)
    (he : fieldStep cap a s = some t) : Inv t := by
  have hpc := h.fieldSide.pc
  have hhalt := h.halt s.fault true
  unfold fieldStep at he
  rw [hfield] at hpc
  simp only [hfield] at he hhalt
  rcases ds with _ | ⟨q, ds⟩ <;> dsimp only at he
  · cases he
    exact h.moveOn hfield _ rfl rfl rfl trivial
  by_cases hq : q ∈ s.fieldPlayers
  · rw [if_pos hq] at he
    cases he
    apply h.read
    intro p hp
    have hrest : ∀ q' ∈ ds, q' ∈ s.fieldPlayers ∧ Cut s q' :=
      fun q' hq' => hpc q' (List.mem_cons_of_mem _ hq')
    split_ifs with hpend
    · exact h.moveOn hfield _ rfl rfl rfl hrest
    · have hin : s.stage q = .inField := by
        rcases h.fieldSide.players q hq with hs | hs | hw
        · exact hs
        · rcases (h.record q p hp).pending hs with h1 | h1
          · exact absurd h1 hpend
          · rw [hfield] at h1; cases h1
        · rw [hfield] at hw; cases hw
      exact h.moveOn hfield _ rfl rfl rfl ⟨hin, hq, (hpc q List.mem_cons_self).2, hrest⟩
  · rw [if_neg hq] at he
    cases he
    exact hhalt

theorem inv_requestSave (h : Inv s) (hfield : s.field = .requestSave q ds)
    (he : fieldStep cap a s = some t) : Inv t := by
  unfold fieldStep at he
  simp only [hfield] at he
  cases he
  exact h.read fun p hp => h.save hfield

theorem inv_setPending (h : Inv s) (hfield : s.field = .setPending q ds)
    (he : fieldStep cap a s = some t) : Inv t := by
  have hpc := h.fieldSide.pc
  unfold fieldStep at he
  rw [hfield] at hpc
  simp only [hfield] at he
  cases he
  apply h.read
  intro p hp
  refine h.rewrite (.disconnect ds) hp _ rfl rfl id (fun _ => .inl rfl) (fun q' hq' hu => ?_)
    (by rw [hfield]; rfl) (by rw [hfield]; rfl) hpc.2.2
  rw [hfield] at hu
  exact absurd (Option.some.inj hu).symm hq'

theorem inv_dbResult (h : Inv s) (hfield : s.field = .dbResult n)
    (he : fieldStep cap a s = some t) : Inv t := by
  have hs : s.saves = (s.dbResQ ++ s.db.jobs ++ s.dbReqQ).flatMap Job.saves := by
    rw [State.saves, hfield]
    rfl
  unfold fieldStep at he
  simp only [hfield] at he
  rcases n with _ | n <;> dsimp only at he
  · cases he
    exact h.moveOn hfield _ rfl rfl rfl trivial
  split at he
  · cases he
  · rename_i q acc dbResQ hq
    cases he
    apply h.results (.findPlayer q n) s.db s.dbReqQ _ (.inr (by rw [hfield]; rfl))
      (.inr (by rw [hfield]; rfl)) _ trivial
    rw [hs, hq]
    exact List.Sublist.refl _
  · rename_i q dbResQ hq
    cases he
    have hsub : ((dbResQ ++ s.db.jobs ++ s.dbReqQ).flatMap Job.saves).Sublist s.saves := by
      rw [hs, hq]
      exact List.Sublist.refl _
    split_ifs with hmem
    · exact h.results _ s.db s.dbReqQ _ (.inr (by rw [hfield]; rfl))
        (.inr (by rw [hfield]; rfl)) hsub hmem
    · exact h.results _ s.db s.dbReqQ _ (.inr (by rw [hfield]; rfl))
        (.inr (by rw [hfield]; rfl)) hsub trivial

/-- The result of a player that is not there is dropped. -/
theorem inv_findPlayer (h : Inv s) (hfield : s.field = .findPlayer q n)
    (he : fieldStep cap a s = some t) : Inv t := by
  unfold fieldStep at he
  simp only [hfield] at he
  cases he
  split_ifs with hq
  · exact h.moveOn hfield _ rfl rfl rfl hq
  · apply h.results (.dbResult n) s.db s.dbReqQ s.dbResQ (.inr (by rw [hfield]; rfl))
      (.inr (by rw [hfield]; rfl)) _ trivial
    rw [State.saves, State.saves, hfield]
    exact List.sublist_cons_self _ _

theorem inv_clearPending (h : Inv s) (hfield : s.field = .clearPending q n)
    (he : fieldStep cap a s = some t) : Inv t := by
  have hpc := h.fieldSide.pc
  unfold fieldStep at he
  rw [hfield] at hpc
  simp only [hfield] at he
  cases he
  apply h.read
  intro p hp
  refine h.rewrite (.readAccount q n) hp _ rfl rfl id (fun _ => .inr rfl) (fun q' hq' hu => ?_)
    (by rw [hfield]; rfl) (by rw [hfield]; rfl) hpc
  rw [hfield] at hu
  cases hu

theorem inv_readAccount (h : Inv s) (hfield : s.field = .readAccount q n)
    (he : fieldStep cap a s = some t) : Inv t := by
  have hpc := h.fieldSide.pc
  unfold fieldStep at he
  rw [hfield] at hpc
  simp only [hfield] at he
  cases he
  apply h.read
  intro p hp
  refine h.fieldPc _ (.inr (by rw [hfield]; rfl)) (by rw [hfield]; rfl)
    (.inl (by rw [hfield]; rfl)) ⟨hpc, ?_⟩
  intro p' hp'
  rw [hp] at hp'
  cases hp'
  rfl

theorem inv_notifyDisconnect
    {accountNo : ℤ} (h : Inv s) (hfield : s.field = .notifyDisconnect q accountNo n)
    (he : fieldStep cap a s = some t) : Inv t := by
  unfold fieldStep at he
  simp only [hfield] at he
  cases he
  exact h.notify hfield

theorem inv_readSector (h : Inv s) (hfield : s.field = .readSector q n)
    (he : fieldStep cap a s = some t) : Inv t := by
  unfold fieldStep at he
  simp only [hfield] at he
  cases he
  apply h.read
  intro p hp
  exact h.fieldPc _ (.inl (by rw [hfield]; rfl)) (by rw [hfield]; rfl)
    (.inr (by rw [hfield]; rfl)) trivial

theorem inv_eraseSector (h : Inv s) (hfield : s.field = .eraseSector q c n)
    (he : fieldStep cap a s = some t) : Inv t := by
  have hhalt := h.halt s.fault true
  unfold fieldStep at he
  simp only [hfield] at he hhalt
  split_ifs at he with hc <;> cases he
  · exact h.resector (.inl (by rw [hfield]; rfl)) (by rw [hfield]; rfl) (.inr (by rw [hfield]; rfl))
      (h.eraseCell (c, q)) (h.not_mem_erase hc)
  · exact hhalt

theorem inv_erasePlayer (h : Inv s) (hfield : s.field = .erasePlayer q n)
    (he : fieldStep cap a s = some t) : Inv t := by
  unfold fieldStep at he
  simp only [hfield] at he
  cases he
  exact h.erasePlayer hfield

theorem inv_otherResult (h : Inv s) (hfield : s.field = .otherResult q n)
    (he : fieldStep cap a s = some t) : Inv t := by
  unfold fieldStep at he
  simp only [hfield] at he
  cases he
  exact h.read fun _ _ => h.moveOn hfield _ rfl rfl rfl trivial

theorem inv_fieldStep (h : Inv s) (he : fieldStep cap a s = some t) : Inv t := by
  cases hfield : s.field with
  | top => exact inv_top h hfield he
  | messages => exact inv_messages h hfield he
  | registerPlayer => exact inv_registerPlayer h hfield he
  | enterSector => exact inv_enterSector h hfield he
  | broadcast => exact inv_broadcast h hfield he
  | tick => exact inv_ticks h hfield he
  | moveErase => exact inv_moveErase h hfield he
  | moveInsert => exact inv_moveInsert h hfield he
  | moveSet => exact inv_moveSet h hfield he
  | scan => exact inv_fieldScan h hfield he
  | disconnect => exact inv_disconnect h hfield he
  | requestSave => exact inv_requestSave h hfield he
  | setPending => exact inv_setPending h hfield he
  | dbResult => exact inv_dbResult h hfield he
  | findPlayer => exact inv_findPlayer h hfield he
  | clearPending => exact inv_clearPending h hfield he
  | readAccount => exact inv_readAccount h hfield he
  | notifyDisconnect => exact inv_notifyDisconnect h hfield he
  | readSector => exact inv_readSector h hfield he
  | eraseSector => exact inv_eraseSector h hfield he
  | erasePlayer => exact inv_erasePlayer h hfield he
  | otherResult => exact inv_otherResult h hfield he
  | done =>
    unfold fieldStep at he
    rw [hfield] at he
    cases he

end

/-! ### The other steps -/

theorem inv_dbStep (h : Inv s) (he : dbStep s = some t) : Inv t := by
  have hpc := h.fieldSide.pc
  unfold dbStep at he
  rcases hdb : s.db with _ | job | job <;> simp only [hdb] at he
  · split at he
    · cases he
    · rename_i job dbReqQ hq
      cases he
      apply h.results s.field (.execute job) dbReqQ s.dbResQ (.inl rfl) (.inl rfl) _ hpc
      simp [State.saves, hdb, hq, DbPc.jobs]
  · cases he
    have hdone := h.results s.field (.answer job) s.dbReqQ s.dbResQ (.inl rfl) (.inl rfl)
      (by simp [State.saves, hdb, DbPc.jobs]) hpc
    exact hdone.logged _
  · cases he
    apply h.results s.field .idle s.dbReqQ (s.dbResQ ++ [job]) (.inl rfl) (.inl rfl) _ hpc
    simp [State.saves, hdb, DbPc.jobs]

/-- A player is made. -/
theorem Inv.accept (h : Inv s) {q : ℕ} (hq : s.nextSeq ≤ q) :
    Inv { (s.setPlayer q .new).setStage q .unAuth with
      nextSeq := q + 1, unAuthSessions := insert q s.unAuthSessions } := by
  obtain ⟨hst, hna, hnf⟩ := h.fresh q hq
  have hside := h.authSide
  refine ⟨fun q' => ?_, fun q' hq' => ?_, fun q' p hp => ?_, ⟨h.msgQ.1, fun q' hq' => ?_⟩,
    ⟨h.notices.1, fun a ha => ?_⟩, ⟨fun q' => ?_, fun q' hq' => ?_, fun q' hq' => ?_, ?_⟩,
    h.fieldSide.mono rfl rfl rfl rfl (fun q' hq' => ?_) (fun q' hq' p hp => ⟨p, ?_, rfl, id⟩)⟩
  · have := h.absent q'
    simp only [State.setStage, State.setPlayer]
    grind [Function.update_apply]
  · have hne : q' ≠ q := by
      have : q + 1 ≤ q' := hq'
      omega
    obtain ⟨h1, h2, h3⟩ := h.fresh q' (le_trans (Nat.le_succ_of_le hq) hq')
    exact ⟨(Function.update_of_ne hne _ _).trans h1, h2, h3⟩
  · by_cases hqq : q' = q
    · subst hqq
      simp only [State.setStage, State.setPlayer, Function.update_self, Option.some.injEq] at hp
      subst hp
      exact ⟨fun _ => rfl, by simp [State.setStage, Stage.live], by simp [State.setStage],
        by simp [State.setStage]⟩
    · simp only [State.setStage, State.setPlayer, Function.update_of_ne hqq] at hp
      exact (h.record q' p hp).mono (Function.update_of_ne hqq _ _) (fun _ => id) id
  · have := h.msgQ.2 q' hq'
    simp only [State.setStage, State.setPlayer]
    grind [Function.update_apply]
  · obtain ⟨q', p, h1, h2, h3⟩ := h.notices.2 a ha
    refine ⟨q', p, ?_, ?_, h3⟩
    · simp only [State.setStage, State.setPlayer]
      grind [Function.update_apply]
    · simp only [State.setStage, State.setPlayer]
      grind [Function.update_apply]
  · have := hside.unAuth q'
    simp only [State.setStage, State.setPlayer, Finset.mem_insert]
    grind [Function.update_apply]
  · by_cases hqq : q' = q
    · subst hqq
      simp only [State.setStage, Function.update_self] at hq'
      cases hq'
    · obtain ⟨ds, ls, hfree⟩ := hside.deleting q' ((Function.update_of_ne hqq _ _).symm.trans hq')
      exact ⟨ds, ls, hfree⟩
  · have := hside.players q' hq'
    simp only [State.setStage, State.setPlayer]
    grind [Function.update_apply, Stage.atAuth]
  · refine hside.pc.mono (fun _ => id) fun q' hq' => ?_
    simp only [State.setStage, State.setPlayer]
    grind [Function.update_apply]
  · simp only [State.setStage, State.setPlayer]
    grind [Function.update_apply]
  · simp only [State.setStage, State.setPlayer] at hp
    grind [Function.update_apply]

theorem Inv.skip (h : Inv s) {q : ℕ} (hq : s.nextSeq ≤ q) : Inv { s with nextSeq := q + 1 } :=
  ⟨h.absent, fun q' hq' => h.fresh q' (le_trans (Nat.le_succ_of_le hq) hq'),
    fun q p hp => (h.record q p hp).mono rfl (fun _ => id) id, h.msgQ, h.notices,
    h.authSide.mono rfl rfl rfl fun _ => .inl rfl,
    h.fieldSide.mono rfl rfl rfl rfl (fun _ _ => rfl) fun _ _ p hp => ⟨p, hp, rfl, id⟩⟩

theorem Inv.off (h : Inv s) (bOn : Bool) : Inv { s with bOn } :=
  ⟨h.absent, h.fresh, fun q p hp => (h.record q p hp).mono rfl (fun _ => id) id, h.msgQ, h.notices,
    h.authSide.mono rfl rfl rfl fun _ => .inl rfl,
    h.fieldSide.mono rfl rfl rfl rfl (fun _ _ => rfl) fun _ _ p hp => ⟨p, hp, rfl, id⟩⟩

theorem inv_step (h : Inv s) {cap : ℕ} {l : Step} (hk : Keeps s l)
    (he : next cap s l = some t) : Inv t := by
  unfold next at he
  by_cases hdead : s.fault = true ∨ s.halted = true
  · rw [if_pos hdead] at he
    cases he
  rw [if_neg hdead] at he
  cases l with
  | onAccept q =>
    dsimp only at he
    split_ifs at he with h1 h2 <;> cases he
    · exact h.skip h1
    · exact h.accept h1
  | onRelease q =>
    dsimp only at he
    split at he
    · rename_i p hp
      cases he
      exact h.rewrite s.field hp _ rfl rfl (fun _ => rfl) (h.record q p hp).pending
        (fun _ _ => id) rfl rfl h.fieldSide.pc
    · cases he
  | auth a => exact inv_authStep h hk he
  | field a => exact inv_fieldStep h he
  | db => exact inv_dbStep h he
  | stop =>
    cases he
    exact h.off false

end

theorem start_inv : Inv start := by
  refine ⟨fun _ => ⟨fun _ => rfl, fun _ => rfl⟩, fun _ _ => ⟨rfl, by simp [start], by simp [start]⟩,
    fun _ _ hp => ?_, ⟨List.nodup_nil, by simp [start]⟩,
    ⟨List.nodup_nil, by simp [start, State.notices, AuthPc.notice]⟩,
    ⟨by simp [start], by simp [start], by simp [start], trivial⟩,
    ⟨by simp [start], by simp [start], ⟨List.nodup_nil, ?_⟩, trivial⟩⟩
  · cases hp
  · simp [start, State.saves, FieldPc.held, DbPc.jobs]

theorem invariant (cap : ℕ) : ((server cap).restrict Keeps).Invariant Inv :=
  System.restrict_invariant (fun hs => by rw [show _ = start from hs]; exact start_inv)
    fun _ hp hk he => inv_step hp hk he

end Server
end MyMMO
