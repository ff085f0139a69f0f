/-
# The threads of the server

`authThread`, the field thread, its `dbThread` and the workers' callbacks share
the `Player` objects. A `Player` is made by `onAccept` and belongs to `authThread`,
goes to the field thread in a REGISTER_PLAYER message, comes back with a
PLAYER_DISCONNECTED message that names only its account, and is deleted by
`authThread`. One step is one queue operation, one access to the fields of
a `Player`, one update of a container, or the deletion.

A `Player` is named by its `mSeqID`, which no two accepted sessions share; the
heap says which of them have been made and not been deleted. An access to a
`Player` that is not in the heap is a `fault`, and a `MY_ASSERT` that fails halts
the process.
-/
import Mathlib.Data.List.AList
import MyMMO.Lib.System
import MyMMO.Common
import MyMMO.Sector

namespace MyMMO

/-- `CONFIG_AUTH_FIELD_IDX`. -/
def AUTH_FIELD_IDX : ℤ := -1

/-- `CONFIG_FIELD_SIZE`: there is one field, and its index is 0. -/
def FIELD_SIZE : ℤ := 1

/-- `CONFIG_UNAUTH_MAX_SIZE`. -/
def UNAUTH_MAX_SIZE : ℕ := 10000

/-- `CONFIG_DISCONNECT_AND_LEAVE_CAP`. -/
def DISCONNECT_AND_LEAVE_CAP : ℕ := 1000

namespace Server

/-- What the threads share of a `Player`. `savePending` is the one bit of
`mDBRequestCnt` in use, DB_POSITION_SAVE_PENDING_BIT. -/
structure Player where
  accountNo : ℤ
  nextFieldID : ℤ
  connect : Bool
  currentSector : Sector
  savePending : Bool

/-- The constructor of `Player`. -/
def Player.new : Player := ⟨0, AUTH_FIELD_IDX, true, ⟨0, 0⟩, false⟩

/-- A job of `dbThread`, and its result: PositionSave, or KillCountUpdate and RankingQuery. -/
inductive Job
  | positionSave (seqID : ℕ) (accountNo : ℤ)
  | other (seqID : ℕ)
  deriving DecidableEq

/-- A statement the database has executed: the SELECT of a login and the UPDATE of a PositionSave.
-/
inductive Statement
  | select (accountNo : ℤ) (seqID : ℕ)
  | update (accountNo : ℤ) (seqID : ℕ)
  deriving DecidableEq

inductive AuthPc
  | top
  -- the players that are still to be served
  | messages (todo : List ℕ)
  -- `handleAuthReq`, behind its SELECT
  | promote (q : ℕ) (accountNo : ℤ) (todo : List ℕ)
  -- the notices that were there when `mNotifyMsgQ` was looked at
  | notify (n : ℕ)
  | notifyProc (accountNo : ℤ) (n : ℕ)
  -- `checkDisConnectedAndLeavePlayer`
  | scan (todo disconnectSession leaveFieldSession : List ℕ)
  | deletePlayers (disconnectSession leaveFieldSession : List ℕ)
  | free (q : ℕ) (disconnectSession leaveFieldSession : List ℕ)
  | erasePlayer (q : ℕ) (disconnectSession leaveFieldSession : List ℕ)
  | leavePlayers (leaveFieldSession : List ℕ)
  | enterField (q : ℕ) (leaveFieldSession : List ℕ)
  | done
  deriving DecidableEq

inductive FieldPc
  | top
  | messages (n : ℕ)
  -- `handleRegisterPlayer`
  | registerPlayer (q n : ℕ)
  | enterSector (q n : ℕ)
  | broadcast (n : ℕ)
  -- `fieldUpdate`, `playerProc` and `monsterProc`
  | tick
  | moveErase (q : ℕ) (oldSector newSector : Sector)
  | moveInsert (q : ℕ) (newSector : Sector)
  | moveSet (q : ℕ) (newSector : Sector)
  -- `checkDisConnectedAndLeavePlayer`
  | scan (todo disconnectSession : List ℕ)
  | disconnect (disconnectSession : List ℕ)
  | requestSave (q : ℕ) (disconnectSession : List ℕ)
  | setPending (q : ℕ) (disconnectSession : List ℕ)
  -- `dbResultPacketProc`
  | dbResult (n : ℕ)
  | findPlayer (q n : ℕ)
  | clearPending (q n : ℕ)
  | readAccount (q n : ℕ)
  | notifyDisconnect (q : ℕ) (accountNo : ℤ) (n : ℕ)
  | readSector (q n : ℕ)
  | eraseSector (q : ℕ) (sector : Sector) (n : ℕ)
  | erasePlayer (q n : ℕ)
  | otherResult (q n : ℕ)
  | done
  deriving DecidableEq

/-- `dbThread`: it waits, has dequeued a job, or has executed it. -/
inductive DbPc
  | idle
  | execute (job : Job)
  | answer (job : Job)
  deriving DecidableEq

/-- Where a `Player` is in its life. The program does not keep this. -/
inductive Stage
  | absent
  | unAuth
  -- in `mAccountsHash`, not yet sent to the field
  | waiting
  | leaving
  | queued
  | registering
  | inField
  -- a PositionSave is outstanding
  | saving
  | notified
  -- PLAYER_DISCONNECTED has been processed
  | handedBack
  -- out of the maps, about to be deleted
  | deleting
  deriving DecidableEq

/-- `authPlayers` and `fieldPlayers` are the `players` of the two threads.
`stage` and `log` are the history the program does not keep. -/
structure State where
  bOn : Bool
  nextSeq : ℕ
  heap : ℕ → Option Player
  unAuthSessions : Finset ℕ
  accountsHash : AList fun _ : ℤ => ℕ
  authPlayers : Finset ℕ
  fieldPlayers : Finset ℕ
  sectors : Finset (Sector × ℕ)
  msgQ : List ℕ
  notifyMsgQ : List ℤ
  dbReqQ : List Job
  dbResQ : List Job
  auth : AuthPc
  field : FieldPc
  db : DbPc
  fault : Bool
  halted : Bool
  stage : ℕ → Stage
  log : List Statement

namespace State

/-- An access to the fields of `q`. -/
def read (s : State) (q : ℕ) (k : Player → State) : State :=
  match s.heap q with
  | some p => k p
  | none => { s with fault := true }

def setPlayer (s : State) (q : ℕ) (p : Player) : State :=
  { s with heap := Function.update s.heap q (some p) }

def setStage (s : State) (q : ℕ) (st : Stage) : State :=
  { s with stage := Function.update s.stage q st }

end State

/-- What the environment decides in a step of `authThread`: the order in which a
loop goes through `players`, and what the next message of a player comes to
(none there, a login that fails in the database, or the account it names). -/
structure AuthInput where
  order : List ℕ
  msg : Option (Option ℤ)

/-- A step of `authThread`. `cap` is `CONFIG_DISCONNECT_AND_LEAVE_CAP`. -/
def authStep (cap : ℕ) (a : AuthInput) (s : State) : Option State :=
  match s.auth with
  | .top =>
    if s.bOn = false ∧ s.accountsHash.keys = [] then some { s with auth := .done }
    else
      let authPlayers := s.authPlayers ∪ s.unAuthSessions
      if a.order.Nodup ∧ a.order.toFinset = authPlayers then
        some { s with authPlayers, auth := .messages a.order }
      else none
  | .messages [] => some { s with auth := .notify s.notifyMsgQ.length }
  | .messages (q :: todo) =>
    some (s.read q fun p =>
      if p.nextFieldID ≠ AUTH_FIELD_IDX then { s with auth := .messages todo }
      else
        match if p.connect then a.msg else none with
        | none => { s with auth := .messages todo }
        | some none => s
        | some (some accountNo) =>
          { s with auth := .promote q accountNo todo, log := s.log ++ [.select accountNo q] })
  | .promote q accountNo todo =>
    match s.accountsHash.lookup accountNo with
    -- `disconnectSession(dupIt->second->mSeqID)` and `sendAuthFail`
    | some dup => some (s.read dup fun _ => { s with auth := .messages (q :: todo) })
    | none =>
      if q ∈ s.unAuthSessions then
        some (s.read q fun p =>
          { (s.setPlayer q { p with accountNo, nextFieldID := 0 }).setStage q .waiting with
            unAuthSessions := s.unAuthSessions.erase q
            accountsHash := s.accountsHash.insert accountNo q
            auth := .messages todo })
      else some { s with auth := .messages (q :: todo) }
  | .notify 0 =>
    if a.order.Nodup ∧ a.order.toFinset = s.authPlayers then some { s with
      auth := .scan a.order [] [] }
    else none
  | .notify (n + 1) =>
    match s.notifyMsgQ with
    | [] => none
    | accountNo :: notifyMsgQ => some { s with notifyMsgQ, auth := .notifyProc accountNo n }
  | .notifyProc accountNo n =>
    match s.accountsHash.lookup accountNo with
    | none => some { s with halted := true }
    | some q =>
      some (s.read q fun _ =>
        { s.setStage q .handedBack with
          authPlayers := insert q s.authPlayers
          accountsHash := s.accountsHash.erase accountNo
          auth := .notify n })
  | .scan [] ds ls => some { s with auth := .deletePlayers ds ls }
  | .scan (q :: todo) ds ls =>
    some (s.read q fun p =>
      let ds := if p.connect then ds else ds ++ [q]
      let ls := if p.connect ∧ p.nextFieldID ≠ AUTH_FIELD_IDX then ls ++ [q] else ls
      { s with
        auth := if ds.length = cap ∨ ls.length = cap then .deletePlayers ds ls else
        .scan todo ds ls })
  | .deletePlayers [] ls => some { s with auth := .leavePlayers ls }
  | .deletePlayers (q :: ds) ls =>
    if q ∈ s.authPlayers then
      some (s.read q fun p =>
        if q ∈ s.unAuthSessions then
          { s.setStage q .deleting with
            unAuthSessions := s.unAuthSessions.erase q, auth := .free q ds ls }
        else
          { s.setStage q .deleting with
            accountsHash := s.accountsHash.erase p.accountNo, auth := .free q ds ls })
    else some { s with halted := true }
  | .free q ds ls =>
    some (s.read q fun _ =>
      { s.setStage q .absent with
        heap := Function.update s.heap q none, auth := .erasePlayer q ds ls })
  | .erasePlayer q ds ls =>
    some { s with authPlayers := s.authPlayers.erase q, auth := .deletePlayers ds ls }
  | .leavePlayers [] => some { s with auth := .top }
  | .leavePlayers (q :: ls) =>
    if q ∈ s.authPlayers then
      some (s.read q fun p =>
        if p.savePending then { s with auth := .leavePlayers ls }
        else if p.nextFieldID < FIELD_SIZE then
          { s.setStage q .leaving with
            authPlayers := s.authPlayers.erase q, auth := .enterField q ls }
        else { s with halted := true })
    else some { s with halted := true }
  | .enterField q ls =>
    some { s.setStage q .queued with msgQ := s.msgQ ++ [q], auth := .leavePlayers ls }
  | .done => none

/-- What a tick of the field does to a player: an access to its fields, the disconnect of everybody
when the server stops, a request to `dbThread`, or a move to another sector. -/
inductive TickOp
  | use
  | cut
  | query
  | move (newSector : Sector)

/-- What the environment decides in a step of the field thread: the order of a
loop over `players`, which player the tick or a broadcast turns to next (none:
it is over), and the sector of a new player's position. -/
structure FieldInput where
  order : List ℕ
  op : Option (ℕ × TickOp)
  sector : Sector

/-- A step of the field thread. -/
def fieldStep (cap : ℕ) (a : FieldInput) (s : State) : Option State :=
  match s.field with
  | .top =>
    if s.msgQ = [] ∧ s.fieldPlayers = ∅ ∧ s.bOn = false then some { s with field := .done }
    else some { s with field := .messages s.msgQ.length }
  | .messages 0 => some { s with field := .tick }
  | .messages (n + 1) =>
    match s.msgQ with
    | [] => none
    | q :: msgQ => some { s.setStage q .registering with msgQ, field := .registerPlayer q n }
  | .registerPlayer q n =>
    some (s.read q fun _ =>
      if q ∈ s.fieldPlayers then { s with halted := true }
      else { s.setStage q .inField with
        fieldPlayers := insert q s.fieldPlayers, field := .enterSector q n })
  | .enterSector q n =>
    some (s.read q fun p =>
      if (a.sector, q) ∈ s.sectors then { s with halted := true }
      else
        { s.setPlayer q { p with currentSector := a.sector } with
          sectors := insert (a.sector, q) s.sectors, field := .broadcast n })
  | .broadcast n =>
    match a.op with
    | none => some { s with field := .messages n }
    | some (q, _) => if q ∈ s.sectors.image Prod.snd then some (s.read q fun _ => s) else none
  | .tick =>
    match a.op with
    | none =>
      if a.order.Nodup ∧ a.order.toFinset = s.fieldPlayers then some { s with
        field := .scan a.order [] }
      else none
    | some (q, op) =>
      if q ∈ s.fieldPlayers ∪ s.sectors.image Prod.snd then
        some (s.read q fun p =>
          match op with
          | .use => s
          | .cut => s.setPlayer q { p with connect := p.connect && s.bOn }
          | .query => { s with dbReqQ := s.dbReqQ ++ [.other q] }
          | .move newSector =>
            if (p.currentSector, q) ∈ s.sectors then { s with
              field := .moveErase q p.currentSector newSector }
            else { s with halted := true })
      else none
  | .moveErase q oldSector newSector =>
    some { s with sectors := s.sectors.erase (oldSector, q), field := .moveInsert q newSector }
  | .moveInsert q newSector =>
    some { s with sectors := insert (newSector, q) s.sectors, field := .moveSet q newSector }
  | .moveSet q newSector =>
    some (s.read q fun p => { s.setPlayer q { p with currentSector := newSector } with
      field := .tick })
  | .scan [] ds => some { s with field := .disconnect ds }
  | .scan (q :: todo) ds =>
    some (s.read q fun p =>
      let ds := if p.connect then ds else ds ++ [q]
      { s with field := if ds.length = cap then .disconnect ds else .scan todo ds })
  | .disconnect [] => some { s with field := .dbResult s.dbResQ.length }
  | .disconnect (q :: ds) =>
    if q ∈ s.fieldPlayers then
      some (s.read q fun p => { s with
        field := if p.savePending then .disconnect ds else .requestSave q ds })
    else some { s with halted := true }
  | .requestSave q ds =>
    some (s.read q fun p =>
      { s.setStage q .saving with
        dbReqQ := s.dbReqQ ++ [.positionSave q p.accountNo], field := .setPending q ds })
  | .setPending q ds =>
    some (s.read q fun p => { s.setPlayer q { p with savePending := true } with
      field := .disconnect ds })
  | .dbResult 0 => some { s with field := .top }
  | .dbResult (n + 1) =>
    match s.dbResQ with
    | [] => none
    | .positionSave q _ :: dbResQ => some { s with dbResQ, field := .findPlayer q n }
    | .other q :: dbResQ =>
      some { s with dbResQ, field := if q ∈ s.fieldPlayers then .otherResult q n else .dbResult n }
  | .findPlayer q n =>
    some { s with field := if q ∈ s.fieldPlayers then .clearPending q n else .dbResult n }
  | .clearPending q n =>
    some (s.read q fun p => { s.setPlayer q { p with savePending := false } with
      field := .readAccount q n })
  | .readAccount q n =>
      some (s.read q fun p => { s with field := .notifyDisconnect q p.accountNo n })
  | .notifyDisconnect q accountNo n =>
    some { s.setStage q .notified with
      notifyMsgQ := s.notifyMsgQ ++ [accountNo], field := .readSector q n }
  | .readSector q n => some (s.read q fun p => { s with field := .eraseSector q p.currentSector n })
  | .eraseSector q sector n =>
    if (sector, q) ∈ s.sectors then
      some { s with sectors := s.sectors.erase (sector, q), field := .erasePlayer q n }
    else some { s with halted := true }
  | .erasePlayer q n => some { s with fieldPlayers := s.fieldPlayers.erase q, field := .dbResult n }
  | .otherResult q n => some (s.read q fun _ => { s with field := .dbResult n })
  | .done => none

/-- A step of `dbThread`. -/
def dbStep (s : State) : Option State :=
  match s.db with
  | .idle =>
    match s.dbReqQ with
    | [] => none
    | job :: dbReqQ => some { s with dbReqQ, db := .execute job }
  | .execute job =>
    let log := match job with
      | .positionSave q accountNo => s.log ++ [.update accountNo q]
      | .other _ => s.log
    some { s with log, db := .answer job }
  | .answer job => some { s with dbResQ := s.dbResQ ++ [job], db := .idle }

/-- A session is accepted, a session is released, a thread takes its next step,
or the server stops. -/
inductive Step
  | onAccept (q : ℕ)
  | onRelease (q : ℕ)
  | auth (a : AuthInput)
  | field (a : FieldInput)
  | db
  | stop

def next (cap : ℕ) (s : State) (l : Step) : Option State :=
  if s.fault ∨ s.halted then none
  else
    match l with
    | .onAccept q =>
      if s.nextSeq ≤ q then
        if UNAUTH_MAX_SIZE ≤ s.unAuthSessions.card then some { s with nextSeq := q + 1 }
        else
          some { (s.setPlayer q .new).setStage q .unAuth with
            nextSeq := q + 1, unAuthSessions := insert q s.unAuthSessions }
      else none
    | .onRelease q =>
      match s.heap q with
      | some p => some (s.setPlayer q { p with connect := false })
      | none => none
    | .auth a => authStep cap a s
    | .field a => fieldStep cap a s
    | .db => dbStep s
    | .stop => some { s with bOn := false }

/-- Nobody has connected. -/
def start : State where
  bOn := true
  nextSeq := 0
  heap _ := none
  unAuthSessions := ∅
  accountsHash := ∅
  authPlayers := ∅
  fieldPlayers := ∅
  sectors := ∅
  msgQ := []
  notifyMsgQ := []
  dbReqQ := []
  dbResQ := []
  auth := .top
  field := .top
  db := .idle
  fault := false
  halted := false
  stage _ := .absent
  log := []

def server (cap : ℕ) : System State Step where
  init s := s = start
  next := next cap

end Server
end MyMMO
