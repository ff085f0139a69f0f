/-
# A login

`FieldServer::handleAuthReq`: the id and the password of a FIELD_AUTH_REQ are looked up, an account
that is not there is made, and the session is promoted unless somebody is logged in with the
account. Whatever the database does, the session comes to be somebody only who it can say the
password of, and no failure is left behind (`logs_in`).
-/
import MyMMO.CDB
import Mathlib.Data.List.AList

namespace MyMMO
namespace Login

open Machine

/-! ### `handleAuthReq` -/

/-- What a login sets in a `Player`. -/
structure Identity (F : Type) where
  accountNo : ℤ
  characterID : ℤ
  nextFieldID : ℤ
  nickname : List UInt8
  pos : Field.Position F

inductive Packet (F : Type)
  | fieldAuthFail
  | fieldAuthRes (characterId : ℤ) (pos : Field.Position F)

/-- A `Player` is named by its `mSeqID`. -/
structure State (D F : Type) where
  player : SeqAndIdx → Identity F
  unAuthSessions : Finset SeqAndIdx
  accountsHash : AList fun _ : ℤ => SeqAndIdx
  characterID : ℤ
  db : CDB D
  sent : List (SeqAndIdx × Packet F)
  disconnects : List SeqAndIdx

/-- The string in a `char` array. -/
def cstr (bs : List UInt8) : List UInt8 := bs.takeWhile (· ≠ 0)

def isalnum (c : UInt8) : Bool := (48 ≤ c && c ≤ 57) || (65 ≤ c && c ≤ 90) || (97 ≤ c && c ≤ 122)

def isValidId (id : List UInt8) : Bool := !id.isEmpty && id.all isalnum

/-- The loop of `escapeSqlString`, with `outIdx` bytes in the output. -/
def escapeLoop (outputSize : ℕ) : List UInt8 → ℕ → List UInt8
  | [], _ => []
  | c :: input, outIdx =>
    if outIdx + 2 < outputSize then
      if c = QUOTE ∨ c = BACKSLASH then BACKSLASH :: c :: escapeLoop outputSize input (outIdx + 2)
      else c :: escapeLoop outputSize input (outIdx + 1)
    else []

def escapeSqlString (input : List UInt8) (outputSize : ℕ) : List UInt8 :=
  escapeLoop outputSize input 0

/-- What `snprintf` leaves of `text` in a buffer of `size` bytes. -/
def snprintf (size : ℕ) (text : List UInt8) : List UInt8 := text.take (size - 1)

section

variable {D F : Type}

def sendAuthFail (s : State D F) (sessionID : SeqAndIdx) : State D F :=
  { s with sent := s.sent ++ [(sessionID, .fieldAuthFail)] }

/-- What `handleAuthReq` does with the account. -/
def promote (s : State D F) (sessionID : SeqAndIdx) (accountNo : ℤ) (pos : Field.Position F)
    (id : List UInt8) : State D F :=
  match s.accountsHash.lookup accountNo with
  | some dup => sendAuthFail { s with disconnects := s.disconnects ++ [dup] } sessionID
  | none =>
    if sessionID ∈ s.unAuthSessions then
      let characterId := s.characterID + 1
      { s with
        player := Function.update s.player sessionID ⟨accountNo, characterId, 0, id, pos⟩
        unAuthSessions := s.unAuthSessions.erase sessionID
        accountsHash := s.accountsHash.insert accountNo sessionID
        characterID := characterId
        sent := s.sent ++ [(sessionID, .fieldAuthRes characterId pos)] }
    else s

variable [Machine F] [Mysql D F]

def handleAuthReq (s : State D F) (msg : Message) : Except Thrown (State D F) := do
  let (id, msg) ← (msg.getData 20).mapError .stop
  let id := id.set 19 0
  let (pw, msg) ← (msg.getData 64).mapError .stop
  let sessionID := msg.ownerID
  if isValidId (cstr id) = false then return sendAuthFail s sessionID
  else
    let escapedPw := escapeSqlString (cstr pw) 129
    let (rs, db) ← s.db.query (snprintf 384 (selectAccount (cstr id) escapedPw))
    let s := { s with db := if rs.isSome then db else db.clearError }
    match (rs.getD []).head? with
    | some (row : Account F) => return promote s sessionID row.accountNo row.pos id
    | none =>
      let (executed, db) ← s.db.execute (F := F) (snprintf 384 (insertAccount (cstr id) escapedPw))
      if executed = false then return sendAuthFail { s with db := db.clearError } sessionID
      else
        let (rs2, db) ← db.query (snprintf 128 (selectAccountNo (cstr id)))
        match (rs2.getD []).head? with
        | none => return sendAuthFail { s with db := db.clearError } sessionID
        | some (row : Account F) =>
            return promote { s with db } sessionID row.accountNo ⟨lit 0, lit 0⟩ id

end

/-! ### What is sent -/

/-- The id of a FIELD_AUTH_REQ, cut at 19 bytes. -/
def sentBuffer (msg : Message) : List UInt8 := ((msg.data.drop msg.front).take 20).set 19 0

def sentId (msg : Message) : List UInt8 := cstr (sentBuffer msg)

def sentPw (msg : Message) : List UInt8 := cstr ((msg.data.drop (msg.front + 20)).take 64)

theorem cstr_length_le (bs : List UInt8) : (cstr bs).length ≤ bs.length :=
  (List.takeWhile_sublist _).length_le

theorem sentId_length (msg : Message) : (sentId msg).length ≤ 20 := by
  refine (cstr_length_le _).trans ?_
  unfold sentBuffer
  rw [List.length_set]
  exact List.length_take_le _ _

theorem sentPw_length (msg : Message) : (sentPw msg).length ≤ 64 :=
  (cstr_length_le _).trans (List.length_take_le _ _)

/-- A valid id is its own literal. -/
theorem isalnum_plain {c : UInt8} (h : isalnum c = true) : c ≠ QUOTE ∧ c ≠ BACKSLASH := by
  constructor
  · rintro rfl
    cases h
  · rintro rfl
    cases h

theorem denotes_id {id : List UInt8} (h : isValidId id = true) : Denotes id id := by
  have hall : id.all isalnum = true := (Bool.and_eq_true_iff.mp h).2
  clear h
  induction id with
  | nil => exact .nil
  | cons c id ih =>
    obtain ⟨hc, hid⟩ := Bool.and_eq_true_iff.mp hall
    exact .plain (isalnum_plain hc).1 (isalnum_plain hc).2 (ih hid)

/-- Where the output has room for two bytes each, the literal denotes what is escaped. -/
theorem denotes_escapeLoop {outputSize outIdx : ℕ} {input : List UInt8}
    (h : outIdx + 2 * input.length < outputSize) :
    Denotes (escapeLoop outputSize input outIdx) input := by
  induction input generalizing outIdx with
  | nil => exact .nil
  | cons c input ih =>
    rw [List.length_cons] at h
    unfold escapeLoop
    rw [if_pos (by omega)]
    split_ifs with hc
    · exact .escaped hc (ih (by omega))
    · obtain ⟨hquote, hbackslash⟩ := not_or.mp hc
      exact .plain hquote hbackslash (ih (by omega))

theorem escapeLoop_length (outputSize outIdx : ℕ) (input : List UInt8) :
    (escapeLoop outputSize input outIdx).length ≤ 2 * input.length := by
  induction input generalizing outIdx with
  | nil => exact le_rfl
  | cons c input ih =>
    unfold escapeLoop
    have h1 := ih (outIdx + 1)
    have h2 := ih (outIdx + 2)
    split_ifs <;> simp only [List.length_cons, List.length_nil] <;> omega

theorem denotes_pw {pw : List UInt8} (h : pw.length ≤ 64) : Denotes (escapeSqlString pw 129) pw :=
  denotes_escapeLoop (by omega)

/-! ### What fits the buffers -/

theorem snprintf_fits {size : ℕ} {text : List UInt8} (h : text.length < size) :
    snprintf size text = text :=
  List.take_of_length_le (by omega)

section

variable {id pw : List UInt8}

theorem snprintf_selectAccount (hid : id.length ≤ 20) (hpw : pw.length ≤ 128) :
    snprintf 384 (selectAccount id pw) = selectAccount id pw := by
  apply snprintf_fits
  have h1 : (ascii "SELECT accountNo, x, y FROM Accounts WHERE id='").length = 47 := by decide
  have h2 : (ascii "' AND pw='").length = 10 := by decide
  have h3 : (ascii "'").length = 1 := by decide
  simp only [selectAccount, List.length_append]
  omega

theorem snprintf_insertAccount (hid : id.length ≤ 20) (hpw : pw.length ≤ 128) :
    snprintf 384 (insertAccount id pw) = insertAccount id pw := by
  apply snprintf_fits
  have h1 : (ascii "INSERT INTO Accounts (id, pw, x, y) VALUES ('").length = 45 := by decide
  have h2 : (ascii "', '").length = 4 := by decide
  have h3 : (ascii "', 0, 0)").length = 8 := by decide
  simp only [insertAccount, List.length_append]
  omega

theorem snprintf_selectAccountNo (hid : id.length ≤ 20) :
    snprintf 128 (selectAccountNo id) = selectAccountNo id := by
  apply snprintf_fits
  have h1 : (ascii "SELECT accountNo FROM Accounts WHERE id='").length = 41 := by decide
  have h2 : (ascii "'").length = 1 := by decide
  simp only [selectAccountNo, List.length_append]
  omega

end

/-! ### What the statements of a login come to -/

section

variable {D F : Type} [Machine F] [Mysql D F]

/-- The UNIQUE constraint on `id`. -/
def UniqueIds (D : Type) {F : Type} [Mysql D F] (d : D) : Prop :=
  ∀ a ∈ (Mysql.accounts d : List (Account F)), ∀ b ∈ Mysql.accounts d, a.id = b.id → a = b

variable {c : CDB D} {id pw i p : List UInt8}

/-- The first SELECT changes nothing, and if it is answered, by the accounts with this id and this
password. -/
theorem select_spec (hlaw : Mysql.Lawful D F) (h : c.bFailed = false) (hi : Denotes id i)
    (hp : Denotes pw p) :
    ∃ (rs : Option (List (Account F))) (c' : CDB D), c.query (selectAccount id pw) = .ok
        (rs, c') ∧ c'.bFailed = rs.isNone ∧
      c'.db = c.db ∧
        (∀ rows, rs = some rows → ∀ a, a ∈ rows ↔ a ∈ Mysql.accounts c.db ∧ a.id = i ∧ a.pw = p) ∧
      (c.Calm → c'.Calm ∧ rs.isSome = true) := by
  obtain ⟨rs, c', hquery, hfailed, hrows, hdb, hcalm⟩ :=
    CDB.query_spec (F := F) h (selectAccount id pw)
  obtain ⟨rows, hrun, hmem⟩ := hlaw.select c.db hi hp
  rw [hrun] at hdb
  refine ⟨rs, c', hquery, hfailed, hdb.elim (fun h => h) (fun h => h), fun rows' h => ?_,
    fun hc => ?_⟩
  · have hrun' := hrows rows' h
    rw [hrun] at hrun'
    rw [← Option.some.inj (Prod.mk.inj hrun').1]
    exact hmem
  · obtain ⟨hcalm', hrs⟩ := hcalm hc
    rw [hrun] at hrs
    rw [(Prod.mk.inj hrs).1]
    exact ⟨hcalm', rfl⟩

/-- The INSERT makes an account, or it fails; and if the call does not fail, it is because there is
an account with this id. -/
theorem insert_spec (hlaw : Mysql.Lawful D F) (h : c.bFailed = false) (hi : Denotes id i)
    (hp : Denotes pw p) :
    ∃ (executed : Bool) (c' : CDB D), c.execute (F := F) (insertAccount id pw) = .ok
        (executed, c') ∧ c'.bFailed = !executed ∧
      (executed = true → (∀ a ∈ (Mysql.accounts c.db : List (Account F)), a.id ≠ i) ∧
        ∃ accountNo, ∀ a : Account F, a ∈ Mysql.accounts c'.db ↔
          a ∈ Mysql.accounts c.db ∨ a = ⟨accountNo, i, p, ⟨lit 0, lit 0⟩⟩) ∧
      (c.Calm → c'.Calm ∧ (executed = false → c'.db = c.db ∧
        ∃ a ∈ (Mysql.accounts c.db : List (Account F)), a.id = i)) := by
  obtain ⟨executed, c', hexecute, hfailed, hrows, hdb, hcalm⟩ :=
    CDB.execute_spec (F := F) h (insertAccount id pw)
  refine ⟨executed, c', hexecute, hfailed, fun h => ?_, fun hc => ⟨(hcalm hc).1, fun h => ?_⟩⟩
  · obtain ⟨rows, hrun⟩ := hrows h
    have hnew : ∀ a ∈ (Mysql.accounts c.db : List (Account F)), a.id ≠ i := by
      intro a ha hid
      rw [hlaw.duplicate c.db hi hp ⟨a, ha, hid⟩] at hrun
      cases hrun
    obtain ⟨rows', d', accountNo, hrun', hmem⟩ := hlaw.insert c.db hi hp hnew
    rw [hrun'] at hrun
    cases hrun
    exact ⟨hnew, accountNo, hmem⟩
  · have hsome := (hcalm hc).2
    rw [h] at hsome
    by_cases hex : ∃ a ∈ (Mysql.accounts c.db : List (Account F)), a.id = i
    · rw [hlaw.duplicate c.db hi hp hex] at hdb
      exact ⟨hdb.elim (fun h => h) (fun h => h), hex⟩
    · push Not at hex
      obtain ⟨rows, d', accountNo, hrun, -⟩ := hlaw.insert c.db hi hp hex
      rw [hrun] at hsome
      cases hsome

/-- The second SELECT changes nothing, and if it is answered, by the accounts with this id. -/
theorem selectNo_spec (hlaw : Mysql.Lawful D F) (h : c.bFailed = false) (hi : Denotes id i) :
    ∃ (rs : Option (List (Account F))) (c' : CDB D), c.query (selectAccountNo id) = .ok
        (rs, c') ∧ c'.bFailed = rs.isNone ∧
      c'.db = c.db ∧ (∀ rows, rs = some rows → ∀ a, a ∈ rows ↔ a ∈ Mysql.accounts c.db ∧ a.id = i) ∧
      (c.Calm → rs.isSome = true) := by
  obtain ⟨rs, c', hquery, hfailed, hrows, hdb, hcalm⟩ :=
    CDB.query_spec (F := F) h (selectAccountNo id)
  obtain ⟨rows, hrun, hmem⟩ := hlaw.selectNo c.db hi
  rw [hrun] at hdb
  refine ⟨rs, c', hquery, hfailed, hdb.elim (fun h => h) (fun h => h), fun rows' h => ?_,
    fun hc => ?_⟩
  · have hrun' := hrows rows' h
    rw [hrun] at hrun'
    rw [← Option.some.inj (Prod.mk.inj hrun').1]
    exact hmem
  · have hrs := (hcalm hc).2
    rw [hrun] at hrs
    rw [(Prod.mk.inj hrs).1]
    rfl

end

/-! ### What a login decides -/

section

variable {D F : Type} {s t : State D F} {q : SeqAndIdx} {a : Account F} {id : List UInt8}
    {msg : Message}

/-- `q` is promoted to `a`. -/
structure Promoted (s : State D F) (q : SeqAndIdx) (id : List UInt8) (a : Account F)
    (t : State D F) : Prop where
  waiting : q ∈ s.unAuthSessions
  free : s.accountsHash.lookup a.accountNo = none
  player : t.player = Function.update s.player q ⟨a.accountNo, s.characterID + 1, 0, id, a.pos⟩
  unAuthSessions : t.unAuthSessions = s.unAuthSessions.erase q
  accountsHash : t.accountsHash = s.accountsHash.insert a.accountNo q

/-- Nobody is promoted. -/
structure Unchanged (s t : State D F) : Prop where
  player : t.player = s.player
  unAuthSessions : t.unAuthSessions = s.unAuthSessions
  accountsHash : t.accountsHash = s.accountsHash

theorem promote_cases (s : State D F) (q : SeqAndIdx) (id : List UInt8) (a : Account F) :
    Promoted s q id a (promote s q a.accountNo a.pos id) ∨ Unchanged s
      (promote s q a.accountNo a.pos id) := by
  unfold promote
  split
  · exact Or.inr ⟨rfl, rfl, rfl⟩
  · next hnone =>
    split_ifs with hq
    · exact Or.inl ⟨hq, hnone, rfl, rfl, rfl⟩
    · exact Or.inr ⟨rfl, rfl, rfl⟩

theorem promote_promotes (hq : q ∈ s.unAuthSessions)
    (hnone : s.accountsHash.lookup a.accountNo = none) :
    Promoted s q id a (promote s q a.accountNo a.pos id) := by
  unfold promote
  rw [hnone]
  dsimp only
  rw [if_pos hq]
  exact ⟨hq, hnone, rfl, rfl, rfl⟩

theorem promote_db (s : State D F) (q : SeqAndIdx) (accountNo : ℤ) (pos : Field.Position F)
    (id : List UInt8) :
    (promote s q accountNo pos id).db = s.db := by
  unfold promote
  split
  · rfl
  · split_ifs <;> rfl

variable [Mysql D F]

/-- What becomes of the FIELD_AUTH_REQ `msg`. -/
structure Decided (s : State D F) (msg : Message) (t : State D F) : Prop where
  clear : t.db.bFailed = false
  only : (∃ a : Account F, Promoted s msg.ownerID (sentBuffer msg) a t ∧ a.id = sentId msg ∧
      a.pw = sentPw msg ∧
    (a ∈ Mysql.accounts s.db.db ∨
      (∀ b ∈ (Mysql.accounts s.db.db : List (Account F)), b.id ≠ sentId msg) ∧
        a ∈ Mysql.accounts t.db.db)) ∨ Unchanged s t
  every : s.db.Calm → isValidId (sentId msg) = true → msg.ownerID ∈ s.unAuthSessions →
    ∀ a ∈ (Mysql.accounts t.db.db : List (Account F)), a.id = sentId msg → a.pw = sentPw msg →
      s.accountsHash.lookup a.accountNo = none → Promoted s msg.ownerID (sentBuffer msg) a t
  -- an id that nobody has is signed up
  created : s.db.Calm → isValidId (sentId msg) = true → msg.ownerID ∈ s.unAuthSessions →
    (∀ b ∈ (Mysql.accounts s.db.db : List (Account F)), b.id ≠ sentId msg) →
      ∃ a ∈ (Mysql.accounts t.db.db : List (Account F)), a.id = sentId msg ∧ a.pw = sentPw msg ∧
        (s.accountsHash.lookup a.accountNo = none → Promoted s msg.ownerID (sentBuffer msg) a t)

/-- If no call failed, there is an account with the id, and its password is another. -/
theorem Decided.rejected (hclear : t.db.bFailed = false) (hsame : Unchanged s t)
    (hnone : s.db.Calm → ∀ a ∈ (Mysql.accounts t.db.db : List (Account F)), a.id = sentId msg →
      a.pw = sentPw msg → False)
    (hknown : s.db.Calm → ∃ a ∈ (Mysql.accounts s.db.db : List (Account F)), a.id = sentId msg) :
    Decided s msg t := by
  refine ⟨hclear, Or.inr hsame, fun hc _ _ a ha hid hpw _ => (hnone hc a ha hid hpw).elim,
    fun hc _ _ hnew => ?_⟩
  obtain ⟨b, hb, hid⟩ := hknown hc
  exact absurd hid (hnew b hb)

/-- The one account that the database has with the id and the password. -/
theorem Decided.found {db : CDB D} (hclear : db.bFailed = false) (hid : a.id = sentId msg)
    (hpw : a.pw = sentPw msg)
    (ha : a ∈ Mysql.accounts s.db.db ∨ (∀ b ∈ (Mysql.accounts s.db.db : List (Account F)),
      b.id ≠ sentId msg) ∧ a ∈ Mysql.accounts db.db)
    (hone : ∀ b ∈ (Mysql.accounts db.db : List (Account F)), b.id = sentId msg → b = a) :
    Decided s msg (promote { s with db } msg.ownerID a.accountNo a.pos (sentBuffer msg)) := by
  have hdb := promote_db { s with db } msg.ownerID a.accountNo a.pos (sentBuffer msg)
  have hpromote : msg.ownerID ∈ s.unAuthSessions → s.accountsHash.lookup a.accountNo = none →
      Promoted s msg.ownerID (sentBuffer msg) a (promote { s with
        db } msg.ownerID a.accountNo a.pos (sentBuffer msg)) := by
    intro hq hnone
    have hpromoted : Promoted { s with db } msg.ownerID (sentBuffer msg) a _ :=
      promote_promotes hq hnone
    exact ⟨hq, hnone, hpromoted.player, hpromoted.unAuthSessions, hpromoted.accountsHash⟩
  refine ⟨by rw [hdb]; exact hclear, ?_, fun _ _ hq b hb hbid _ hnone => ?_, fun _ _ hq hnew => ?_⟩
  · rcases promote_cases { s with db } msg.ownerID (sentBuffer msg) a with hpromoted | hsame
    · refine Or.inl ⟨a, ⟨hpromoted.waiting, hpromoted.free, hpromoted.player,
        hpromoted.unAuthSessions, hpromoted.accountsHash⟩, hid, hpw, ?_⟩
      rw [hdb]
      exact ha
    · exact Or.inr ⟨hsame.player, hsame.unAuthSessions, hsame.accountsHash⟩
  · rw [hdb] at hb
    obtain rfl := hone b hb hbid
    exact hpromote hq hnone
  · obtain ⟨-, hmem⟩ := ha.resolve_left fun hold => hnew a hold hid
    exact ⟨a, by rw [hdb]; exact hmem, hid, hpw, hpromote hq⟩

variable [Machine F]

/-- No failure is left behind, whatever MySQL is. -/
theorem clear_handleAuthReq (s : State D F) (msg : Message) (hclear : s.db.bFailed = false) :
    (∃ t, handleAuthReq s msg = .ok t ∧ t.db.bFailed = false) ∨ ∃ e, handleAuthReq s msg = .error
    (.stop e) := by
  unfold handleAuthReq
  cases msg.getData 20 with
  | error e => exact Or.inr ⟨e, rfl⟩
  | ok r =>
  dsimp only [Except.mapError, bind, Except.bind]
  cases r.2.getData 64 with
  | error e => exact Or.inr ⟨e, rfl⟩
  | ok r' =>
  dsimp only
  left
  split_ifs
  · exact ⟨_, rfl, hclear⟩
  obtain ⟨rs, db1, hselect, hfailed1, -⟩ := CDB.query_spec (F := F) hclear
    (snprintf 384 (selectAccount (cstr (r.1.set 19 0)) (escapeSqlString (cstr r'.1) 129)))
  rw [hselect]
  dsimp only
  have hclear1 : (if rs.isSome = true then db1 else db1.clearError).bFailed = false := by
    cases rs with
    | none => rfl
    | some rows => exact hfailed1
  generalize (if rs.isSome = true then db1 else db1.clearError) = db1' at hclear1 ⊢
  cases (rs.getD []).head? with
  | some row => exact ⟨_, rfl, by rw [promote_db]; exact hclear1⟩
  | none =>
    obtain ⟨executed, db2, hinsert, hfailed2, -⟩ := CDB.execute_spec (F := F) hclear1
      (snprintf 384 (insertAccount (cstr (r.1.set 19 0)) (escapeSqlString (cstr r'.1) 129)))
    dsimp only
    rw [hinsert]
    dsimp only
    cases executed with
    | false => exact ⟨_, rfl, rfl⟩
    | true =>
      obtain ⟨rs2, db3, hselect2, hfailed3, -⟩ := CDB.query_spec (F := F) hfailed2
        (snprintf 128 (selectAccountNo (cstr (r.1.set 19 0))))
      rw [if_neg Bool.true_eq_false_eq_False, hselect2]
      dsimp only
      cases hfound : (rs2.getD []).head? with
      | none => exact ⟨_, rfl, rfl⟩
      | some row =>
        refine ⟨_, rfl, ?_⟩
        rw [promote_db]
        cases rs2 with
        | none => cases hfound
        | some rows => exact hfailed3

/-- A later FIELD_AUTH_REQ. Anything may have changed in between, but nobody else uses the
connection of `authThread`. -/
def handleLater (s : State D F) (later : State D F × Message) : Except Thrown (State D F) :=
  handleAuthReq { later.1 with db := { later.1.db with bFailed := s.db.bFailed } } later.2

/-- So `authThread` never sees a CDBException. -/
theorem no_cdbException (msgs : List (State D F × Message)) (hclear : s.db.bFailed = false) :
    msgs.foldlM handleLater s ≠ .error .cdbException := by
  induction msgs generalizing s with
  | nil => nofun
  | cons later msgs ih =>
    rw [List.foldlM_cons, handleLater]
    rcases clear_handleAuthReq { later.1 with
        db := { later.1.db with bFailed := s.db.bFailed } } later.2 hclear with
      ⟨t, ht, hclear'⟩ | ⟨e, he⟩
    · rw [ht]
      exact ih hclear'
    · rw [he]
      nofun

/-- Whatever the database holds, and whichever of its calls fail, a FIELD_AUTH_REQ is decided. -/
theorem decided_handleAuthReq (hlaw : Mysql.Lawful D F) (hunique : UniqueIds (F := F) D s.db.db)
    (hclear : s.db.bFailed = false) (hmsg : msg.front + 84 ≤ msg.data.length) :
    ∃ t, handleAuthReq s msg = .ok t ∧ Decided s msg t := by
  have hbuffer : ((msg.data.drop msg.front).take 20).set 19 0 = sentBuffer msg := rfl
  have hid : cstr (sentBuffer msg) = sentId msg := rfl
  have hpw : cstr ((msg.data.drop (msg.front + 20)).take 64) = sentPw msg := rfl
  unfold handleAuthReq
  rw [Message.getData_ok (by omega)]
  dsimp only [Except.mapError, bind, Except.bind]
  rw [Message.getData_ok (by omega)]
  dsimp only
  rw [hbuffer, hid, hpw]
  by_cases hvalid : isValidId (sentId msg) = false
  · rw [if_pos hvalid]
    refine ⟨_, rfl, hclear, Or.inr ⟨rfl, rfl, rfl⟩, fun _ hvalid' => ?_, fun _ hvalid' => ?_⟩ <;>
      rw [hvalid] at hvalid' <;> cases hvalid'
  rw [if_neg hvalid]
  rw [Bool.not_eq_false] at hvalid
  have hdid := denotes_id hvalid
  have hdpw := denotes_pw (sentPw_length msg)
  have hsize := sentId_length msg
  have hescaped : (escapeSqlString (sentPw msg) 129).length ≤ 128 :=
    (escapeLoop_length _ _ _).trans (Nat.mul_le_mul_left 2 (sentPw_length msg))
  rw [snprintf_selectAccount hsize hescaped, snprintf_insertAccount hsize hescaped,
    snprintf_selectAccountNo hsize]
  obtain ⟨rs, db1, hselect, hfailed1, hdb1, hrows1, hcalm1⟩ := select_spec hlaw hclear hdid hdpw
  rw [hselect]
  dsimp only
  -- whatever the SELECT was answered, its failure is cleared
  have hclear1 : (if rs.isSome = true then db1 else db1.clearError).bFailed = false := by
    cases rs with
    | none => rfl
    | some rows => exact hfailed1
  have hstore1 : (if rs.isSome = true then db1 else db1.clearError).db = s.db.db := by
    split_ifs <;> exact hdb1
  have hcalmed1 : s.db.Calm → (if rs.isSome = true then db1 else db1.clearError).Calm :=
    fun hc => by
    split_ifs <;> exact (hcalm1 hc).1
  generalize (if rs.isSome = true then db1 else db1.clearError) = db1' at hclear1 hstore1 hcalmed1 ⊢
  cases hfound : (rs.getD []).head? with
  | some row =>
    have hrow : row ∈ (Mysql.accounts s.db.db : List (Account F)) ∧ row.id = sentId msg ∧
        row.pw = sentPw msg := by
      cases rs with
      | none => cases hfound
      | some rows => exact (hrows1 rows rfl row).mp (List.mem_of_mem_head? hfound)
    refine ⟨_, rfl, .found hclear1 hrow.2.1 hrow.2.2 (Or.inl hrow.1) fun b hb hbid => ?_⟩
    rw [hstore1] at hb
    exact hunique b hb row hrow.1 (hbid.trans hrow.2.1.symm)
  | none =>
    have hnone : s.db.Calm → ∀ a ∈ (Mysql.accounts s.db.db : List (Account F)), a.id = sentId msg →
        a.pw = sentPw msg →
        False := by
      intro hc a ha haid hapw
      obtain ⟨rows, rfl⟩ := Option.isSome_iff_exists.mp (hcalm1 hc).2
      have hmem := (hrows1 rows rfl a).mpr ⟨ha, haid, hapw⟩
      rw [List.head?_eq_none_iff.mp (show rows.head? = none from hfound)] at hmem
      cases hmem
    obtain ⟨executed, db2, hinsert, hfailed2, hmade, hcalm2⟩ := insert_spec hlaw hclear1 hdid hdpw
    rw [hstore1] at hmade hcalm2
    rw [hinsert]
    dsimp only
    by_cases hexecuted : executed = false
    · rw [if_pos hexecuted]
      refine ⟨_, rfl, .rejected rfl ⟨rfl, rfl, rfl⟩ (fun hc => ?_) fun hc =>
        ((hcalm2 (hcalmed1 hc)).2 hexecuted).2⟩
      change ∀ a ∈ (Mysql.accounts db2.db : List (Account F)), _
      rw [((hcalm2 (hcalmed1 hc)).2 hexecuted).1]
      exact hnone hc
    · rw [if_neg hexecuted]
      rw [Bool.not_eq_false] at hexecuted
      obtain ⟨hnew, accountNo, haccounts⟩ := hmade hexecuted
      rw [hexecuted] at hfailed2
      obtain ⟨rs2, db3, hselect2, hfailed3, hdb3, hrows3, hcalm3⟩ :=
        selectNo_spec (F := F) hlaw hfailed2 hdid
      rw [hselect2]
      dsimp only
      -- the new account is the only one with the id
      have hone : ∀ b ∈ (Mysql.accounts db3.db : List (Account F)), b.id = sentId msg →
          b = ⟨accountNo, sentId msg, sentPw msg, ⟨lit 0, lit 0⟩⟩ := by
        intro b hb hbid
        rw [hdb3] at hb
        exact ((haccounts b).mp hb).resolve_left fun hold => hnew b hold hbid
      cases hfound2 : (rs2.getD []).head? with
      | none =>
        -- an answered SELECT finds the account just made
        have hanswered : ¬s.db.Calm := fun hc => by
          obtain ⟨rows, rfl⟩ := Option.isSome_iff_exists.mp (hcalm3 (hcalm2 (hcalmed1 hc)).1)
          have hmem := (hrows3 rows rfl _).mpr
            ⟨(haccounts ⟨accountNo, sentId msg, sentPw msg, ⟨lit 0, lit 0⟩⟩).mpr (Or.inr rfl), rfl⟩
          rw [List.head?_eq_none_iff.mp (show rows.head? = none from hfound2)] at hmem
          cases hmem
        exact ⟨_, rfl, .rejected rfl ⟨rfl, rfl, rfl⟩ (fun hc => absurd hc hanswered) fun hc =>
          absurd hc hanswered⟩
      | some row =>
        have hrow : row ∈ (Mysql.accounts db2.db : List (Account F)) ∧ row.id = sentId msg := by
          cases rs2 with
          | none => cases hfound2
          | some rows => exact (hrows3 rows rfl row).mp (List.mem_of_mem_head? hfound2)
        rw [← hdb3] at hrow
        obtain rfl := hone row hrow.1 hrow.2
        have hclear3 : db3.bFailed = false := by
          cases rs2 with
          | none => cases hfound2
          | some rows => exact hfailed3
        exact ⟨_, rfl, .found hclear3 rfl rfl (Or.inr ⟨hnew, hrow.1⟩) hone⟩

/-- A FIELD_AUTH_REQ is decided, and no later one finds the failure of a call left behind. -/
theorem logs_in (hlaw : Mysql.Lawful D F) (hunique : UniqueIds (F := F) D s.db.db)
    (hclear : s.db.bFailed = false) (hmsg : msg.front + 84 ≤ msg.data.length) :
    ∃ t, handleAuthReq s msg = .ok t ∧ Decided s msg t ∧
      ∀ msgs : List (State D F × Message), msgs.foldlM handleLater t ≠ .error .cdbException := by
  obtain ⟨t, ht, hdecided⟩ := decided_handleAuthReq hlaw hunique hclear hmsg
  exact ⟨t, ht, hdecided, fun msgs => no_cdbException msgs hdecided.clear⟩

end

/-! ### A table -/

/-- `Accounts` as a list of rows. -/
structure Table (F : Type) where
  rows : List (Account F)
  nextNo : ℤ

inductive Statement
  | selectAccount (id pw : List UInt8)
  | insertAccount (id pw : List UInt8)
  | selectAccountNo (id : List UInt8)
  deriving DecidableEq

/-- A string literal up to its closing quote, and what is behind it. -/
def scan : List UInt8 → Option (List UInt8 × List UInt8)
  | [] => none
  | [c] => if c = QUOTE then some ([], []) else none
  | c :: c' :: text =>
    if c = QUOTE then some ([], c' :: text)
    else if c = BACKSLASH then (scan text).map fun r => (c' :: r.1, r.2)
    else (scan (c' :: text)).map fun r => (c :: r.1, r.2)

/-- What is behind `start`. -/
def behind (start text : List UInt8) : Option (List UInt8) :=
  if start.isPrefixOf text then some (text.drop start.length) else none

def parseSelectAccount (text : List UInt8) : Option Statement := do
  let text ← behind (ascii "SELECT accountNo, x, y FROM Accounts WHERE id='") text
  let (id, text) ← scan text
  let text ← behind (ascii " AND pw='") text
  let (pw, text) ← scan text
  if text = [] then some (.selectAccount id pw) else none

def parseInsertAccount (text : List UInt8) : Option Statement := do
  let text ← behind (ascii "INSERT INTO Accounts (id, pw, x, y) VALUES ('") text
  let (id, text) ← scan text
  let text ← behind (ascii ", '") text
  let (pw, text) ← scan text
  if text = ascii ", 0, 0)" then some (.insertAccount id pw) else none

def parseSelectAccountNo (text : List UInt8) : Option Statement := do
  let text ← behind (ascii "SELECT accountNo FROM Accounts WHERE id='") text
  let (id, text) ← scan text
  if text = [] then some (.selectAccountNo id) else none

def parse (text : List UInt8) : Option Statement :=
  parseSelectAccount text <|> parseInsertAccount text <|> parseSelectAccountNo text

def Table.execute {F : Type} [Machine F] (d : Table F) : Statement →
    Option (List (Account F)) × Table F
  | .selectAccount id pw => (some (d.rows.filter fun a => a.id = id ∧ a.pw = pw), d)
  | .insertAccount id pw =>
    if d.rows.any fun a => a.id = id then (none, d)
    else (some [], ⟨d.rows ++ [⟨d.nextNo, id, pw, ⟨lit 0, lit 0⟩⟩], d.nextNo + 1⟩)
  | .selectAccountNo id => (some (d.rows.filter fun a => a.id = id), d)

instance {F : Type} [Machine F] : Mysql (Table F) F where
  accounts d := d.rows
  run d text :=
    match parse text with
    | some statement => d.execute statement
    | none => (none, d)

theorem behind_append (start text : List UInt8) : behind start (start ++ text) = some text := by
  unfold behind
  rw [if_pos (by rw [List.isPrefixOf_iff_prefix]; exact List.prefix_append _ _), List.drop_left]

/-- A literal is read as the string it denotes. -/
theorem scan_denotes {text str : List UInt8} (h : Denotes text str) (rest : List UInt8) :
    scan (text ++ QUOTE :: rest) = some (str, rest) := by
  induction h with
  | nil => cases rest <;> rfl
  | @plain c text str hquote hbackslash h ih =>
    obtain ⟨c', text', htext⟩ : ∃ c' text', text ++ QUOTE :: rest = c' :: text' := by
      cases text with
      | nil => exact ⟨_, _, rfl⟩
      | cons c' text' => exact ⟨_, _, rfl⟩
    rw [List.cons_append, htext, scan, if_neg hquote, if_neg hbackslash, ← htext, ih]
    rfl
  | @escaped c text str hc h ih =>
    rw [List.cons_append, List.cons_append, scan, if_neg (by decide), if_pos rfl, ih]
    rfl

section

variable {id pw i p : List UInt8}

theorem parse_selectAccount (hi : Denotes id i) (hp : Denotes pw p) :
    parse (selectAccount id pw) = some (.selectAccount i p) := by
  have htext : selectAccount id pw = ascii "SELECT accountNo, x, y FROM Accounts WHERE id='" ++
      (id ++ QUOTE :: (ascii " AND pw='" ++ (pw ++ QUOTE :: []))) := by
    unfold selectAccount
    simp only [List.append_assoc]
    rfl
  unfold parse parseSelectAccount
  rw [htext, behind_append, Option.bind_eq_bind, Option.bind_some, scan_denotes hi]
  simp only [Option.bind_eq_bind, Option.bind_some]
  rw [behind_append, Option.bind_some, scan_denotes hp]
  rfl

theorem parse_insertAccount (hi : Denotes id i) (hp : Denotes pw p) :
    parse (insertAccount id pw) = some (.insertAccount i p) := by
  have htext : insertAccount id pw = ascii "INSERT INTO Accounts (id, pw, x, y) VALUES ('" ++
      (id ++ QUOTE :: (ascii ", '" ++ (pw ++ QUOTE :: ascii ", 0, 0)"))) := by
    unfold insertAccount
    simp only [List.append_assoc]
    rfl
  have hother : parseSelectAccount (insertAccount id pw) = none := rfl
  unfold parse
  rw [hother]
  unfold parseInsertAccount
  rw [htext, behind_append, Option.bind_eq_bind, Option.bind_some, scan_denotes hi]
  simp only [Option.bind_eq_bind, Option.bind_some]
  rw [behind_append, Option.bind_some, scan_denotes hp]
  rfl

theorem parse_selectAccountNo (hi : Denotes id i) :
    parse (selectAccountNo id) = some (.selectAccountNo i) := by
  have htext : selectAccountNo id = ascii "SELECT accountNo FROM Accounts WHERE id='" ++
      (id ++ QUOTE :: []) := by
    unfold selectAccountNo
    simp only [List.append_assoc]
    rfl
  have hselect : parseSelectAccount (selectAccountNo id) = none := rfl
  have hinsert : parseInsertAccount (selectAccountNo id) = none := rfl
  unfold parse
  rw [hselect, hinsert]
  unfold parseSelectAccountNo
  rw [htext, behind_append, Option.bind_eq_bind, Option.bind_some, scan_denotes hi]
  rfl

end

theorem table_lawful {F : Type} [Machine F] : Mysql.Lawful (Table F) F := by
  constructor
  · intro d id pw i p hi hp
    refine ⟨d.rows.filter fun a => a.id = i ∧ a.pw = p, ?_, fun a => ?_⟩
    · simp only [Mysql.run, parse_selectAccount hi hp, Table.execute]
    · rw [List.mem_filter, decide_eq_true_eq]
      rfl
  · intro d id pw i p hi hp hnew
    refine ⟨[], ⟨d.rows ++ [⟨d.nextNo, i, p, ⟨lit 0, lit 0⟩⟩], d.nextNo + 1⟩, d.nextNo, ?_,
      fun a => ?_⟩
    · simp only [Mysql.run, parse_insertAccount hi hp, Table.execute]
      rw [if_neg]
      intro hany
      obtain ⟨a, ha, hid⟩ := List.any_eq_true.mp hany
      exact hnew a ha (of_decide_eq_true hid)
    · simp only [Mysql.accounts, List.mem_append, List.mem_singleton]
  · intro d id pw i p hi hp hold
    obtain ⟨a, ha, hid⟩ := hold
    simp only [Mysql.run, parse_insertAccount hi hp, Table.execute]
    have hany : (d.rows.any fun a => a.id = i) = true :=
      List.any_eq_true.mpr ⟨a, ha, decide_eq_true hid⟩
    rw [if_pos hany]
  · intro d id i hi
    refine ⟨d.rows.filter fun a => a.id = i, ?_, fun a => ?_⟩
    · simp only [Mysql.run, parse_selectAccountNo hi, Table.execute]
    · rw [List.mem_filter, decide_eq_true_eq]
      rfl

/-- FIELD_AUTH_REQ of the session 1, behind its type. -/
def authReq (id pw : List UInt8) : Message :=
  ⟨⟨1, 1⟩, 0, id ++ List.replicate (20 - id.length) 0 ++
    (pw ++ List.replicate (64 - pw.length) 0), 0⟩

/-- Session 1 has connected, and there is one account. -/
def oneAccount (account : Account ℚ) : State (Table ℚ) ℚ where
  player _ := ⟨0, 0, -1, List.replicate 20 0, ⟨0, 0⟩⟩
  unAuthSessions := {⟨1, 1⟩}
  accountsHash := ∅
  characterID := 0
  db := ⟨false, ⟨[account], account.accountNo + 1⟩, fun _ => .answered⟩
  sent := []
  disconnects := []

theorem uniqueIds_oneAccount (account : Account ℚ) :
    UniqueIds (F := ℚ) (Table ℚ) (oneAccount account).db.db := by
  intro a ha b hb _
  rw [List.mem_singleton.mp ha, List.mem_singleton.mp hb]

/-- The account of the witness: its password has a quote in it. -/
def quoted : State (Table ℚ) ℚ := oneAccount ⟨7, ascii "amy", ascii "it's", ⟨3, 4⟩⟩

theorem logs_in_quoted : ∃ t, handleAuthReq quoted (authReq (ascii "amy") (ascii "it's")) = .ok t ∧
    Decided quoted (authReq (ascii "amy") (ascii "it's")) t ∧
      ∀ msgs : List (State (Table ℚ) ℚ × Message), msgs.foldlM handleLater t ≠
        .error .cdbException :=
  logs_in table_lawful (uniqueIds_oneAccount _) rfl (by decide)

def underscored : State (Table ℚ) ℚ := oneAccount ⟨7, ascii "a_b", ascii "pw", ⟨3, 4⟩⟩

/-- An account whose id is not only letters and digits cannot log in. -/
theorem refuses_underscore :
    ¬ ∀ (s : State (Table ℚ) ℚ) (msg : Message), UniqueIds (F := ℚ) (Table ℚ) s.db.db →
    s.db.bFailed = false → msg.front + 84 ≤ msg.data.length →
      msg.ownerID ∈ s.unAuthSessions → s.db.Calm →
      ∃ t, handleAuthReq s msg = .ok t ∧
        ∀ a ∈ (Mysql.accounts t.db.db : List (Account ℚ)), a.id = sentId msg →
        a.pw = sentPw msg → s.accountsHash.lookup a.accountNo = none → Promoted s msg.ownerID
          (sentBuffer msg) a t := by
  intro hall
  have hrefused : handleAuthReq underscored (authReq (ascii "a_b") (ascii "pw")) =
      .ok (sendAuthFail underscored ⟨1, 1⟩) := rfl
  obtain ⟨t, ht, hevery⟩ := hall underscored (authReq (ascii "a_b") (ascii "pw"))
    (uniqueIds_oneAccount _) rfl (by decide) (Finset.mem_singleton_self _) (fun _ => rfl)
  rw [hrefused] at ht
  cases ht
  have hpromoted := hevery _ (List.mem_singleton_self _) (by decide) (by decide) rfl
  exact absurd hpromoted.unAuthSessions (by decide)

end Login
end MyMMO
