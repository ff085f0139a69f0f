/-
# The messages of the players

What the clients send goes through `mRecvQ` of their `Player`: a worker puts it
there in `onRecv` and counts it twice, in `mPlayerMessageQCnt` and in the
player's `mSendMsgCnt`; `authThread` takes it out as long as `mNextFieldID` is
its own, and then the field thread does. The threads are those of
`MyMMO.Server`, with the loops that empty the queues split up: one step is the
dequeue with what it tests, the decrement of one counter, or the deletion of the message.

The messages of a session are numbered in the order in which `onRecv` is
called. `mRecvQ` is a list here, which may hold more than the buffer does: when
a message comes that the buffer has no room for, the server stops
(`RecvQueue.never_full_iff`), so what holds of every run here holds of the runs
before that.
-/
import MyMMO.Life

namespace MyMMO
namespace Mail

/-- What the `onRecv` of a session still has to do: nothing, `++mPlayerMessageQCnt`, or
`++mSendMsgCnt`. -/
inductive RecvPc
  | idle
  | count
  | countPlayer
  deriving DecidableEq

/-- What a thread still has to do with a message it has taken out. -/
inductive HandPc
  | process
  | uncount
  | uncountPlayer
  | delete
  deriving DecidableEq

/-- The message `msg` of session `q`, taken out of its queue. -/
structure Hand where
  q : ℕ
  msg : ℕ
  pc : HandPc
  deriving DecidableEq

/-- `mRecvQ` and `mSendMsgCnt` of a `Player`, and the `onRecv` of its session;
`online` is from `onAccept` to `onRelease`. The rest is the history: how many
messages the session has sent, which ones the two threads have taken out,
which have been deleted, which were in the queue when it was deleted, and the FIELD_AUTH_REQ that
succeeded. -/
structure Box where
  recvQ : List ℕ
  sendMsgCnt : ℤ
  recv : RecvPc
  online : Bool
  received : ℕ
  authLog : List ℕ
  fieldLog : List ℕ
  deleted : List ℕ
  lost : List ℕ
  accepted : Option ℕ

/-- A session that does not exist. -/
def Box.empty : Box := ⟨[], 0, .idle, false, 0, [], [], [], [], none⟩

/-- The threads, the queues, `mPlayerMessageQCnt`, and what the two threads have in hand. -/
structure State where
  server : Server.State
  box : ℕ → Box
  messageQCnt : ℤ
  authHand : Option Hand
  fieldHand : Option Hand

namespace State

def setBox (p : State) (q : ℕ) (b : Box) : State := { p with box := Function.update p.box q b }

@[simp] theorem setBox_server (p : State) (q : ℕ) (b : Box) :
    (p.setBox q b).server = p.server := rfl

@[simp] theorem setBox_box (p : State) (q q' : ℕ) (b : Box) :
    (p.setBox q b).box q' = if q' = q then b else p.box q' := Function.update_apply _ _ _ _

@[simp] theorem setBox_messageQCnt (p : State) (q : ℕ) (b : Box) :
    (p.setBox q b).messageQCnt = p.messageQCnt := rfl

@[simp] theorem setBox_authHand (p : State) (q : ℕ) (b : Box) :
    (p.setBox q b).authHand = p.authHand := rfl

@[simp] theorem setBox_fieldHand (p : State) (q : ℕ) (b : Box) :
    (p.setBox q b).fieldHand = p.fieldHand := rfl

/-- An access to the fields of `q`. -/
def read (p : State) (q : ℕ) (k : Server.Player → State) : State :=
  match p.server.heap q with
  | some player => k player
  | none => { p with server := { p.server with fault := true } }

end State

/-- `DeQueueMsgOrNull` finds these. -/
def visible (player : Option Server.Player) (b : Box) : List ℕ :=
  if player.any (·.connect) then b.recvQ else []

/-- What both loops do with a message behind its handler. -/
def finish (p : State) (h : Hand) : Option (State × Option Hand) :=
  match h.pc with
  | .process => none
  | .uncount =>
      some ({ p with messageQCnt := p.messageQCnt - 1 }, some { h with pc := .uncountPlayer })
  | .uncountPlayer =>
    some (p.read h.q fun _ => p.setBox h.q { p.box h.q with
      sendMsgCnt := (p.box h.q).sendMsgCnt - 1 }, some { h with pc := .delete })
  | .delete =>
      some (p.setBox h.q { p.box h.q with deleted := (p.box h.q).deleted ++ [h.msg] }, none)

/-- A step of `authThread`. -/
def authNext (cap : ℕ) (a : Server.AuthInput) (p : State) : Option State :=
  match p.authHand with
  | some h =>
    if h.pc = .process then
      -- `handleAuthReq`, behind its SELECT
      (Server.authStep cap a p.server).map fun server =>
        let p := { p with server, authHand := some { h with pc := .uncount } }
        if (server.heap h.q).any (·.nextFieldID ≠ AUTH_FIELD_IDX) then
          p.setBox h.q { p.box h.q with accepted := some h.msg }
        else p
    else (finish p h).map fun r => { r.1 with authHand := r.2 }
  | none =>
    match p.server.auth with
    | .messages (q :: _) =>
      let mine := (p.server.heap q).filter (·.nextFieldID = AUTH_FIELD_IDX)
      match visible mine (p.box q) with
      | [] => if a.msg = none then (Server.authStep cap a p.server).map fun server => { p with
          server } else none
      | msg :: recvQ =>
        if a.msg = none then none
        else
          (Server.authStep cap a p.server).map fun server =>
            { p.setBox q { p.box q with recvQ, authLog := (p.box q).authLog ++ [msg] } with
              server
              authHand := some ⟨q, msg, if a.msg = some none then .uncount else .process⟩ }
    | .free q _ _ =>
      match visible (p.server.heap q) (p.box q) with
      | msg :: recvQ =>
        some { p.setBox q { p.box q with recvQ, deleted := (p.box q).deleted ++ [msg] } with
          messageQCnt := p.messageQCnt - 1 }
      | [] =>
        (Server.authStep cap a p.server).map fun server =>
          { p.setBox q { p.box q with recvQ := [], lost := (p.box q).lost ++ (p.box q).recvQ } with
            server }
    | _ => (Server.authStep cap a p.server).map fun server => { p with server }

/-- What `fieldContentsPacketProc` does to the players: accesses, and requests to `dbThread`. -/
def processes : Option (ℕ × Server.TickOp) → Bool
  | some (_, .use) | some (_, .query) => true
  | _ => false

/-- A step of the field thread outside `DeQueueMsgOrNull`. -/
def fieldNext (cap : ℕ) (a : Server.FieldInput) (p : State) : Option State :=
  match p.fieldHand with
  | some h =>
    if h.pc = .process then
      if a.op = none then some { p with fieldHand := some { h with pc := .uncount } }
      else if processes a.op then (Server.fieldStep cap a p.server).map fun server =>
        { p with server }
      else none
    else (finish p h).map fun r => { r.1 with fieldHand := r.2 }
  | none => (Server.fieldStep cap a p.server).map fun server => { p with server }

/-- `playerProc` turns to player `q`. -/
def dequeue (q : ℕ) (p : State) : Option State :=
  if p.fieldHand = none ∧ p.server.field = .tick ∧ q ∈ p.server.fieldPlayers then
    some (p.read q fun player =>
      match visible (some player) (p.box q) with
      | [] => p
      | msg :: recvQ =>
        { p.setBox q { p.box q with recvQ, fieldLog := (p.box q).fieldLog ++ [msg] } with
          fieldHand := some ⟨q, msg, .process⟩ })
  else none

/-- A step of the `onRecv` of session `q`. -/
def onRecv (q : ℕ) (p : State) : Option State :=
  let b := p.box q
  match b.recv with
  | .idle =>
    if b.online then
      some (p.read q fun _ =>
        p.setBox q { b with
          recvQ := b.recvQ ++ [b.received], received := b.received + 1, recv := .count })
    else none
  | .count => some { p.setBox q { b with recv := .countPlayer } with
      messageQCnt := p.messageQCnt + 1 }
  | .countPlayer =>
      some (p.read q fun _ => p.setBox q { b with sendMsgCnt := b.sendMsgCnt + 1, recv := .idle })

/-- A session is accepted or released, a worker takes the next step of its
`onRecv`, a thread takes its next step, or the server stops. -/
inductive Step
  | onAccept (q : ℕ)
  | onRecv (q : ℕ)
  | onRelease (q : ℕ)
  | auth (a : Server.AuthInput)
  | field (a : Server.FieldInput)
  | dequeue (q : ℕ)
  | db
  | stop

/-- The session whose `onRecv` is in progress has a reference, and is not released. -/
def next (cap : ℕ) (p : State) (l : Step) : Option State :=
  if p.server.fault ∨ p.server.halted then none
  else
    match l with
    | .onAccept q =>
      (Server.next cap p.server (.onAccept q)).map fun server =>
        { p.setBox q { p.box q with online := (server.heap q).isSome } with server }
    | .onRecv q => onRecv q p
    | .onRelease q =>
      if (p.box q).online ∧ (p.box q).recv = .idle then
        (Server.next cap p.server (.onRelease q)).map fun server =>
          { p.setBox q { p.box q with online := false } with server }
      else none
    | .auth a => authNext cap a p
    | .field a => fieldNext cap a p
    | .dequeue q => dequeue q p
    | .db => (Server.dbStep p.server).map fun server => { p with server }
    | .stop => some { p with server := { p.server with bOn := false } }

def start : State := ⟨Server.start, fun _ => .empty, 0, none, none⟩

def mail (cap : ℕ) : System State Step where
  init p := p = start
  next := next cap

/-! ### What a step does -/

/-- The message that is taken out of `mRecvQ` of `q`: what `authThread` does. -/
def State.takeAuth (p : State) (q msg : ℕ) (recvQ : List ℕ) (pc : HandPc)
    (server : Server.State) : State :=
  { p.setBox q { p.box q with recvQ, authLog := (p.box q).authLog ++ [msg] } with
    server
    authHand := some ⟨q, msg, pc⟩ }

/-- What the field thread does. -/
def State.takeField (p : State) (q msg : ℕ) (recvQ : List ℕ) : State :=
  { p.setBox q { p.box q with recvQ, fieldLog := (p.box q).fieldLog ++ [msg] } with
    fieldHand := some ⟨q, msg, .process⟩ }

/-- `handleAuthReq` has come to its end. -/
def State.login (p : State) (h : Hand) (server : Server.State) : State :=
  let p := { p with server, authHand := some { h with pc := .uncount } }
  if (server.heap h.q).any (·.nextFieldID ≠ AUTH_FIELD_IDX) then
    p.setBox h.q { p.box h.q with accepted := some h.msg }
  else p

/-- The `Player` of `q` is deleted. -/
def State.free (p : State) (q : ℕ) (server : Server.State) : State :=
  { p.setBox q { p.box q with recvQ := [], lost := (p.box q).lost ++ (p.box q).recvQ } with server }

/-- What a step can do, with what it has seen. -/
inductive Did (cap : ℕ) (p : State) : Step → State → Prop
  | onAccept {q : ℕ} {server : Server.State} :
      Server.next cap p.server (.onAccept q) = some server →
      Did cap p (.onAccept q) { p.setBox q { p.box q with online := (server.heap q).isSome } with
        server }
  | onRelease {q : ℕ} {server : Server.State} : (p.box q).recv = .idle →
      Server.next cap p.server (.onRelease q) = some server →
      Did cap p (.onRelease q) { p.setBox q { p.box q with online := false } with server }
  | enqueue {q : ℕ} : (p.box q).recv = .idle → p.server.heap q ≠ none →
      Did cap p (.onRecv q) (p.setBox q { p.box q with
        recvQ := (p.box q).recvQ ++ [(p.box q).received], received := (p.box q).received + 1,
          recv := .count })
  | count {q : ℕ} : (p.box q).recv = .count →
      Did cap p (.onRecv q)
        { p.setBox q { p.box q with recv := .countPlayer } with messageQCnt := p.messageQCnt + 1 }
  | countPlayer {q : ℕ} : (p.box q).recv = .countPlayer → p.server.heap q ≠ none →
      Did cap p (.onRecv q) (p.setBox q { p.box q with
        sendMsgCnt := (p.box q).sendMsgCnt + 1, recv := .idle })
  | auth {a : Server.AuthInput} {server : Server.State} : p.authHand = none →
      (∀ q todo, p.server.auth = .messages (q :: todo) → a.msg = none) →
      (∀ q ds ls, p.server.auth ≠ .free q ds ls) → Server.authStep cap a p.server = some server →
      Did cap p (.auth a) { p with server }
  | takeAuth {a : Server.AuthInput} {server : Server.State} {q msg : ℕ} {todo recvQ : List ℕ}
      {player : Server.Player} : p.authHand = none → p.server.auth = .messages (q :: todo) →
      p.server.heap q = some player → player.nextFieldID = AUTH_FIELD_IDX → player.connect = true →
      (p.box q).recvQ = msg :: recvQ → a.msg ≠ none → Server.authStep cap a p.server = some server →
      Did cap p (.auth a) (p.takeAuth q msg recvQ (if a.msg = some none then .uncount else
        .process) server)
  | login {a : Server.AuthInput} {server : Server.State} {h : Hand} : p.authHand = some h →
    h.pc = .process →
      Server.authStep cap a p.server = some server → Did cap p (.auth a) (p.login h server)
  | drain {a : Server.AuthInput} {q msg : ℕ} {ds ls recvQ : List ℕ} {player : Server.Player} :
      p.authHand = none → p.server.auth = .free q ds ls → p.server.heap q = some player →
      player.connect = true →
      Did cap p (.auth a) { p.setBox q { p.box q with
        recvQ, deleted := (p.box q).deleted ++ [msg] } with
        messageQCnt := p.messageQCnt - 1 }
  | free {a : Server.AuthInput} {server : Server.State} {q : ℕ} {ds ls : List ℕ} :
      p.authHand = none →
      p.server.auth = .free q ds ls → Server.authStep cap a p.server = some server →
      Did cap p (.auth a) (p.free q server)
  | finishAuth {a : Server.AuthInput} {h : Hand} {r : State × Option Hand} : p.authHand = some h →
      finish p h = some r → Did cap p (.auth a) { r.1 with authHand := r.2 }
  | field {a : Server.FieldInput} {server : Server.State} :
      Server.fieldStep cap a p.server = some server →
      Did cap p (.field a) { p with server }
  | processed {a : Server.FieldInput} {h : Hand} : p.fieldHand = some h → h.pc = .process →
      Did cap p (.field a) { p with fieldHand := some { h with pc := .uncount } }
  | finishField {a : Server.FieldInput} {h : Hand} {r : State × Option Hand} :
      p.fieldHand = some h →
      finish p h = some r → Did cap p (.field a) { r.1 with fieldHand := r.2 }
  | takeField {q msg : ℕ} {recvQ : List ℕ} : p.fieldHand = none → q ∈ p.server.fieldPlayers →
      p.server.heap q ≠ none → (p.box q).recvQ = msg :: recvQ →
        Did cap p (.dequeue q) (p.takeField q msg recvQ)
  | db {server : Server.State} : Server.dbStep p.server = some server →
    Did cap p .db { p with server }
  | stop : Did cap p .stop { p with server := { p.server with bOn := false } }
  | seen {l : Step} : Did cap p l p
  | fault {l : Step} : Did cap p l { p with server := { p.server with fault := true } }

section

variable {cap : ℕ} {p t : State} {l : Step}

/-- `DeQueueMsgOrNull` gives something only to a player that is connected. -/
theorem visible_eq_cons {player : Option Server.Player} {b : Box} {msg : ℕ} {recvQ : List ℕ}
    (h : visible player b = msg :: recvQ) :
    b.recvQ = msg :: recvQ ∧ ∃ pl, player = some pl ∧ pl.connect = true := by
  unfold visible at h
  split_ifs at h with hc
  exact ⟨h, Option.any_eq_true _ _ |>.mp hc⟩

theorem did_onRecv {q : ℕ} (he : onRecv q p = some t) : Did cap p (.onRecv q) t := by
  unfold onRecv State.read at he
  dsimp only at he
  split at he
  · next hpc =>
    split_ifs at he
    split at he
    · next player hp =>
      cases he
      exact .enqueue hpc (by simp [hp])
    · cases he
      exact .fault
  · next hpc =>
    cases he
    exact .count hpc
  · next hpc =>
    split at he
    · next player hp =>
      cases he
      exact .countPlayer hpc (by simp [hp])
    · cases he
      exact .fault

theorem did_dequeue {q : ℕ} (he : dequeue q p = some t) : Did cap p (.dequeue q) t := by
  unfold dequeue State.read at he
  split_ifs at he with hc
  obtain ⟨hhand, -, hq⟩ := hc
  split at he
  · next player hp =>
    dsimp only at he
    split at he
    · cases he
      exact .seen
    · next msg recvQ hv =>
      cases he
      exact .takeField hhand hq (by simp [hp]) (visible_eq_cons hv).1
  · cases he
    exact .fault

theorem did_auth {a : Server.AuthInput} (he : authNext cap a p = some t) :
    Did cap p (.auth a) t := by
  unfold authNext at he
  split at he
  · next h hhand =>
    split_ifs at he with hpc
    · obtain ⟨server, hs, rfl⟩ := Option.map_eq_some_iff.mp he
      exact .login hhand hpc hs
    · obtain ⟨r, hr, rfl⟩ := Option.map_eq_some_iff.mp he
      exact .finishAuth hhand hr
  · next hhand =>
    split at he
    · next q todo hpc =>
      dsimp only at he
      split at he
      · split_ifs at he with hmsg
        obtain ⟨server, hs, rfl⟩ := Option.map_eq_some_iff.mp he
        exact .auth hhand (fun _ _ _ => hmsg) (by simp [hpc]) hs
      · next msg recvQ hv =>
        have hmsg : a.msg ≠ none := by
          intro hnone
          rw [if_pos hnone] at he
          cases he
        rw [if_neg hmsg] at he
        obtain ⟨server, hs, rfl⟩ := Option.map_eq_some_iff.mp he
        obtain ⟨hQ, player, hp, hc⟩ := visible_eq_cons hv
        obtain ⟨hp, hn⟩ := Option.filter_eq_some_iff.mp hp
        exact .takeAuth hhand hpc hp (by simpa using hn) hc hQ hmsg hs
    · next q ds ls hpc =>
      split at he
      · next msg recvQ hv =>
        cases he
        obtain ⟨-, player, hp, hc⟩ := visible_eq_cons hv
        exact .drain hhand hpc hp hc
      · obtain ⟨server, hs, rfl⟩ := Option.map_eq_some_iff.mp he
        exact .free hhand hpc hs
    · next hm hf =>
      obtain ⟨server, hs, rfl⟩ := Option.map_eq_some_iff.mp he
      exact .auth hhand (fun q todo h => absurd h (hm q todo)) (fun q ds ls => hf q ds ls) hs

theorem did_field {a : Server.FieldInput} (he : fieldNext cap a p = some t) :
    Did cap p (.field a) t := by
  unfold fieldNext at he
  split at he
  · next h hhand =>
    split_ifs at he with hpc
    · cases he
      exact .processed hhand hpc
    · obtain ⟨server, hs, rfl⟩ := Option.map_eq_some_iff.mp he
      exact .field hs
    · obtain ⟨r, hr, rfl⟩ := Option.map_eq_some_iff.mp he
      exact .finishField hhand hr
  · obtain ⟨server, hs, rfl⟩ := Option.map_eq_some_iff.mp he
    exact .field hs

theorem did_next (he : next cap p l = some t) : Did cap p l t := by
  unfold next at he
  split_ifs at he
  cases l with
  | onAccept q =>
    obtain ⟨server, hs, rfl⟩ := Option.map_eq_some_iff.mp he
    exact .onAccept hs
  | onRecv q => exact did_onRecv he
  | onRelease q =>
    dsimp only at he
    split_ifs at he with hr
    obtain ⟨server, hs, rfl⟩ := Option.map_eq_some_iff.mp he
    exact .onRelease hr.2 hs
  | auth a => exact did_auth he
  | field a => exact did_field he
  | dequeue q => exact did_dequeue he
  | db =>
    obtain ⟨server, hs, rfl⟩ := Option.map_eq_some_iff.mp he
    exact .db hs
  | stop =>
    cases he
    exact .stop

end

/-! ### The hand-over

`authThread` takes messages as long as no FIELD_AUTH_REQ has succeeded, the
field thread from then on, and what the two have taken is the beginning of what was sent. -/

/-- The part of a `Box` that says where the messages are. -/
def Box.mail (b : Box) : List ℕ × ℕ × List ℕ × List ℕ × List ℕ × Option ℕ :=
  (b.recvQ, b.received, b.authLog, b.fieldLog, b.lost, b.accepted)

/-- Every message is where it should be, `player` being the `Player` of the session. -/
structure InOrder (b : Box) (player : Option Server.Player) : Prop where
  kept : player ≠ none → b.lost = []
  gone : player = none → b.recvQ = []
  order : b.authLog ++ b.fieldLog ++ b.recvQ ++ b.lost = List.range b.received
  before : b.accepted = none → b.fieldLog = [] ∧ ∀ pl, player = some pl →
    pl.nextFieldID = AUTH_FIELD_IDX
  after : ∀ k, b.accepted = some k →
    b.authLog = List.range (k + 1) ∧ ∀ pl, player = some pl → pl.nextFieldID ≠ AUTH_FIELD_IDX

section

variable {b b' : Box} {player player' : Option Server.Player} {pl pl' : Server.Player} {msg : ℕ}
    {recvQ : List ℕ}

theorem inOrder_empty (h : ∀ pl, player = some pl → pl.nextFieldID = AUTH_FIELD_IDX) :
    InOrder .empty player where
  kept _ := rfl
  gone _ := rfl
  order := rfl
  before _ := ⟨rfl, h⟩
  after k hk := by cases hk

theorem InOrder.of_mail (h : InOrder b player) (hb : b'.mail = b.mail) : InOrder b' player := by
  simp only [Box.mail, Prod.mk.injEq] at hb
  obtain ⟨hQ, hr, ha, hf, hl, hacc⟩ := hb
  constructor
  · rw [hl]
    exact h.kept
  · rw [hQ]
    exact h.gone
  · rw [hQ, hr, ha, hf, hl]
    exact h.order
  · rw [hacc, hf]
    exact h.before
  · rw [hacc, ha]
    exact h.after

theorem InOrder.of_stays {s t : Server.State} {q : ℕ} (h : InOrder b (s.heap q))
    (hs : Server.Stays s t q) :
    InOrder b (t.heap q) where
  kept hne := h.kept fun hn => by
    obtain ⟨pl, hpl⟩ := Option.ne_none_iff_exists'.mp hne
    obtain ⟨pl', hpl', -⟩ := hs.back pl hpl
    rw [hn] at hpl'
    cases hpl'
  gone hn := h.gone (hs.forth hn)
  order := h.order
  before ha := by
    refine ⟨(h.before ha).1, fun pl hpl => ?_⟩
    obtain ⟨pl', hpl', -, hn⟩ := hs.back pl hpl
    rw [hn]
    exact (h.before ha).2 pl' hpl'
  after k hk := by
    refine ⟨(h.after k hk).1, fun pl hpl => ?_⟩
    obtain ⟨pl', hpl', -, hn⟩ := hs.back pl hpl
    rw [hn]
    exact (h.after k hk).2 pl' hpl'

/-- Only a player that no FIELD_AUTH_REQ has taken to the field belongs to `authThread`. -/
theorem InOrder.accepted_eq_none (h : InOrder b (some pl)) (hn : pl.nextFieldID = AUTH_FIELD_IDX) :
    b.accepted = none := by
  cases hacc : b.accepted with
  | none => rfl
  | some k => exact absurd hn ((h.after k hacc).2 pl rfl)

theorem InOrder.accepted_ne_none (h : InOrder b (some pl)) (hn : pl.nextFieldID ≠ AUTH_FIELD_IDX) :
    b.accepted ≠ none := fun hacc => hn ((h.before hacc).2 pl rfl)

theorem InOrder.enqueue (h : InOrder b player) (hp : player ≠ none) (r : RecvPc) :
    InOrder { b with recvQ := b.recvQ ++ [b.received], received := b.received + 1, recv := r }
      player where
  kept := h.kept
  gone hn := absurd hn hp
  order := by
    have ho := h.order
    rw [h.kept hp, List.append_nil] at ho
    rw [h.kept hp, List.append_nil, ← List.append_assoc, ho, List.range_succ]
  before := h.before
  after := h.after

theorem InOrder.takeAuth (h : InOrder b (some pl)) (hn : pl.nextFieldID = AUTH_FIELD_IDX)
    (hQ : b.recvQ = msg :: recvQ) :
    InOrder { b with recvQ, authLog := b.authLog ++ [msg] } (some pl) where
  kept := h.kept
  gone hp := by cases hp
  order := by
    have ho := h.order
    rw [hQ, (h.before (h.accepted_eq_none hn)).1] at ho
    rw [(h.before (h.accepted_eq_none hn)).1, ← ho]
    simp
  before := h.before
  after k hk := by
    rw [h.accepted_eq_none hn] at hk
    cases hk

theorem InOrder.takeField (h : InOrder b (some pl)) (hn : pl.nextFieldID ≠ AUTH_FIELD_IDX)
    (hQ : b.recvQ = msg :: recvQ) :
    InOrder { b with recvQ, fieldLog := b.fieldLog ++ [msg] } (some pl) where
  kept := h.kept
  gone hp := by cases hp
  order := by
    have ho := h.order
    rw [hQ] at ho
    rw [← ho]
    simp
  before ha := absurd ha (h.accepted_ne_none hn)
  after := h.after

/-- The message `authThread` has taken last is the FIELD_AUTH_REQ that succeeds. -/
theorem InOrder.login (h : InOrder b (some pl)) (hlog : b.authLog = List.range (msg + 1))
    (hn : pl'.nextFieldID ≠ AUTH_FIELD_IDX) :
    InOrder { b with accepted := some msg } (some pl') where
  kept _ := h.kept (by simp)
  gone hp := by cases hp
  order := h.order
  before ha := by cases ha
  after k hk := by
    cases hk
    refine ⟨hlog, fun pl hpl => ?_⟩
    cases hpl
    exact hn

theorem InOrder.free (h : InOrder b player) :
    InOrder { b with recvQ := [], lost := b.lost ++ b.recvQ } none where
  kept hn := absurd rfl hn
  gone _ := rfl
  order := by
    rw [← h.order]
    by_cases hp : player = none
    · simp [h.gone hp]
    · simp [h.kept hp]
  before ha := ⟨(h.before ha).1, fun pl hpl => by cases hpl⟩
  after k hk := ⟨(h.after k hk).1, fun pl hpl => by cases hpl⟩

/-- A beginning of the numbers that ends with `msg`. -/
theorem eq_range_of_prefix {l : List ℕ} {n : ℕ} (h : l ++ [msg] <+: List.range n) :
    l ++ [msg] = List.range (msg + 1) := by
  have hlen := h.length_le
  rw [List.length_range] at hlen
  have heq : l ++ [msg] = List.range (l.length + 1) := by
    calc l ++ [msg] = (List.range n).take (l ++ [msg]).length := List.prefix_iff_eq_take.mp h
      _ = List.range (l.length + 1) := by
        rw [List.take_range, min_eq_left hlen, List.length_append, List.length_singleton]
  obtain ⟨-, hmsg⟩ := List.append_inj' (heq.trans List.range_succ) rfl
  rw [List.singleton_inj.mp hmsg] at heq ⊢
  exact heq

theorem InOrder.authLog_take (h : InOrder b (some pl)) (hn : pl.nextFieldID = AUTH_FIELD_IDX)
    (hQ : b.recvQ = msg :: recvQ) : b.authLog ++ [msg] = List.range (msg + 1) := by
  have ho := (h.takeAuth hn hQ).order
  rw [List.append_assoc, List.append_assoc] at ho
  exact eq_range_of_prefix ⟨_, ho⟩

end

/-- While `authThread` is in `handleAuthReq` it has the FIELD_AUTH_REQ in hand, the last message it
has taken. -/
structure Handling (p : State) : Prop where
  hand : ∀ h, p.authHand = some h → h.pc = .process → (p.box h.q).accepted = none ∧
    (p.box h.q).authLog = List.range (h.msg + 1) ∧
      ∃ accountNo todo, p.server.auth = .promote h.q accountNo todo
  promoting : p.server.fault = false →
    ∀ q accountNo todo, p.server.auth = .promote q accountNo todo →
    ∃ h, p.authHand = some h ∧ h.q = q ∧ h.pc = .process

structure Inv (p : State) : Prop where
  life : Server.Life p.server
  fresh : ∀ q, p.server.nextSeq ≤ q → (p.box q).mail = Box.empty.mail
  inOrder : ∀ q, InOrder (p.box q) (p.server.heap q)
  handling : Handling p

section

variable {cap : ℕ} {p t : State} {l : Step}

theorem unmoved_fault (s : Server.State) : Server.Unmoved s { s with fault := true } :=
  ⟨rfl, rfl, rfl, rfl, rfl, rfl⟩

theorem unmoved_stop (s : Server.State) : Server.Unmoved s { s with bOn := false } :=
  ⟨rfl, rfl, rfl, rfl, rfl, rfl⟩

/-- What follows the handler concerns only the counters and the message itself. -/
structure Finishes (p : State) (h : Hand) (r : State × Option Hand) : Prop where
  handled : h.pc ≠ .process
  server : Server.Unmoved p.server r.1.server
  mail : ∀ q, (r.1.box q).mail = (p.box q).mail
  authHand : r.1.authHand = p.authHand
  fieldHand : r.1.fieldHand = p.fieldHand
  rest : ∀ h', r.2 = some h' → h'.pc ≠ .process

theorem box_setBox_eq {α : Type*} (f : Box → α) {q : ℕ} {b : Box}
    (hb : f b = f (p.box q)) (q' : ℕ) :
    f ((p.setBox q b).box q') = f (p.box q') := by
  rw [State.setBox_box]
  split_ifs with hq
  · rw [hb, hq]
  · rfl

theorem mail_setBox {q : ℕ} {b : Box} (hb : b.mail = (p.box q).mail) (q' : ℕ) :
    ((p.setBox q b).box q').mail = (p.box q').mail := box_setBox_eq Box.mail hb q'

theorem finishes {h : Hand} {r : State × Option Hand} (he : finish p h = some r) :
    Finishes p h r := by
  unfold finish State.read at he
  have hunmoved : Server.Unmoved p.server p.server := ⟨rfl, rfl, rfl, rfl, rfl, rfl⟩
  split at he
  · cases he
  · next hpc =>
    cases he
    exact ⟨by simp [hpc], hunmoved, fun _ => rfl, rfl, rfl, by rintro _ ⟨⟩; simp⟩
  · next hpc =>
    cases he
    split
    · exact ⟨by simp [hpc], hunmoved, mail_setBox rfl, rfl, rfl, by rintro _ ⟨⟩; simp⟩
    · exact ⟨by simp [hpc], unmoved_fault _, fun _ => rfl, rfl, rfl, by rintro _ ⟨⟩; simp⟩
  · next hpc =>
    cases he
    exact ⟨by simp [hpc], hunmoved, mail_setBox rfl, rfl, rfl, by rintro _ ⟨⟩⟩

@[simp] theorem login_server (h : Hand) (server : Server.State) :
    (p.login h server).server = server := by
  unfold State.login
  split_ifs
  · rfl
  · rfl

@[simp] theorem login_authHand (h : Hand) (server : Server.State) :
    (p.login h server).authHand = some { h with pc := .uncount } := by
  unfold State.login
  split_ifs
  · rfl
  · rfl

theorem life_did (h : Server.Life p.server) (hd : Did cap p l t) : Server.Life t.server := by
  cases hd with
  | onAccept he => exact Server.life_onAccept h he
  | onRelease _ he => exact Server.life_onRelease h he
  | enqueue | count | countPlayer | drain | processed | takeField | seen => exact h
  | auth _ _ _ he => exact Server.life_authStep h he
  | takeAuth _ _ _ _ _ _ _ he => exact Server.life_authStep h he
  | login _ _ he =>
    rw [login_server]
    exact Server.life_authStep h he
  | free _ _ he => exact Server.life_authStep h he
  | finishAuth _ he => exact h.of_unmoved (finishes he).server
  | field he => exact Server.life_fieldStep h he
  | finishField _ he => exact h.of_unmoved (finishes he).server
  | db he => exact h.of_unmoved (Server.unmoved_dbStep he)
  | stop => exact h.of_unmoved (unmoved_stop _)
  | fault => exact h.of_unmoved (unmoved_fault _)

theorem nextSeq_did (hd : Did cap p l t) : p.server.nextSeq ≤ t.server.nextSeq := by
  cases hd with
  | onAccept he =>
    obtain ⟨hle, hn, -⟩ := Server.onAccept_heap he
    exact hle.trans (Nat.le_succ_of_le le_rfl |>.trans hn.ge)
  | onRelease _ he => exact (Server.onRelease_frame he).1.ge
  | enqueue | count | countPlayer | drain | processed | takeField | seen | stop | fault =>
      exact le_rfl
  | auth _ _ _ he => exact (Server.authStep_frame he).1.ge
  | takeAuth _ _ _ _ _ _ _ he => exact (Server.authStep_frame he).1.ge
  | login _ _ he =>
    rw [login_server]
    exact (Server.authStep_frame he).1.ge
  | free _ _ he => exact (Server.authStep_frame he).1.ge
  | finishAuth _ he => exact (finishes he).server.nextSeq.ge
  | field he => exact (Server.fieldStep_frame he).1.ge
  | finishField _ he => exact (finishes he).server.nextSeq.ge
  | db he => exact (Server.unmoved_dbStep he).nextSeq.ge

/-- Where the threads go on, in the steps that begin and end a FIELD_AUTH_REQ. -/
theorem Handling.not_promote (h : Handling p) (hf : p.server.fault = false)
    (hnone : p.authHand = none) (q : ℕ) (accountNo : ℤ) (todo : List ℕ) :
    p.server.auth ≠ .promote q accountNo todo := by
  intro hpc
  obtain ⟨hd, hhand, -⟩ := h.promoting hf q accountNo todo hpc
  rw [hnone] at hhand
  cases hhand

/-- The step of a box under a step of the threads. -/
theorem inOrder_setBox {s : Server.State} {q : ℕ}
    {b : Box} (h : ∀ q', InOrder (p.box q') (p.server.heap q'))
    (hs : ∀ q', q' ≠ q → Server.Stays p.server s q') (hb : InOrder b (s.heap q)) (q' : ℕ) :
    InOrder ((p.setBox q b).box q') (s.heap q') := by
  rw [State.setBox_box]
  split_ifs with hq
  · subst hq
    exact hb
  · exact (h q').of_stays (hs q' hq)

theorem inOrder_login (h : Inv p) {a : Server.AuthInput} {server : Server.State} {hd : Hand}
    (hhand : p.authHand = some hd) (hpc : hd.pc = .process)
    (he : Server.authStep cap a p.server = some server) (q : ℕ) :
    InOrder ((p.login hd server).box q) (server.heap q) := by
  obtain ⟨hacc, hlog, accountNo, todo, hauth⟩ := h.handling.hand hd hhand hpc
  obtain ⟨hother, hself⟩ := Server.promote_heap hauth he
  have hstays : ∀ q', q' ≠ hd.q → Server.Stays p.server server q' :=
    fun q' hne => .of_eq (hother q' hne)
  unfold State.login
  dsimp only
  rcases hself with hself | ⟨pl, pl', hpl, hpl', hn⟩
  · -- the login has failed
    have hno : ¬ (server.heap hd.q).any (·.nextFieldID ≠ AUTH_FIELD_IDX) := by
      rw [hself, Option.any_eq_true]
      rintro ⟨pl, hpl, hn⟩
      exact (of_decide_eq_true hn) (((h.inOrder hd.q).before hacc).2 pl hpl)
    rw [if_neg hno]
    refine (h.inOrder q).of_stays ?_
    by_cases hq : q = hd.q
    · exact .of_eq (by rw [hq, hself])
    · exact hstays q hq
  · have hyes : (server.heap hd.q).any (·.nextFieldID ≠ AUTH_FIELD_IDX) := by
      rw [hpl']
      simpa using hn
    rw [if_pos hyes]
    refine inOrder_setBox (p := p) h.inOrder hstays ?_ q
    have hold := h.inOrder hd.q
    rw [hpl] at hold
    rw [hpl']
    exact hold.login hlog hn

theorem inOrder_did (h : Inv p) (hf : p.server.fault = false) (hd : Did cap p l t) (q : ℕ) :
    InOrder (t.box q) (t.server.heap q) := by
  have hself : ∀ q', Server.Stays p.server p.server q' := fun _ => .of_eq rfl
  have hmail : ∀ {q' : ℕ} {b : Box}, b.mail = (p.box q').mail →
      InOrder ((p.setBox q' b).box q) (p.server.heap q) := fun hb =>
        (h.inOrder q).of_mail (mail_setBox hb q)
  cases hd with
  | @onAccept q' server he =>
    obtain ⟨hle, -, -, hnew, hother⟩ := Server.onAccept_heap he
    refine inOrder_setBox (p := p) h.inOrder (fun q'' hne => .of_eq (hother q'' hne)) ?_ q
    refine (inOrder_empty fun pl hpl => ?_).of_mail (h.fresh q' hle)
    rcases hnew pl hpl with hpl | rfl
    · exact absurd (h.life.fresh q' pl hpl) (by omega)
    · rfl
  | @onRelease q' server _ he =>
    refine inOrder_setBox (p := p) h.inOrder (fun _ _ => Server.stays_onRelease he) ?_ q
    exact InOrder.of_stays ((h.inOrder q').of_mail rfl) (Server.stays_onRelease he)
  | @enqueue q' _ hp =>
      exact inOrder_setBox h.inOrder (fun _ _ => hself _) ((h.inOrder q').enqueue hp _) q
  | count => exact hmail rfl
  | countPlayer => exact hmail rfl
  | auth hnone _ hfree he =>
    exact (h.inOrder q).of_stays
      (Server.stays_authStep (h.handling.not_promote hf hnone q) (hfree q) he)
  | @takeAuth a server q' msg todo recvQ pl hnone hauth hpl hn _ hQ _ he =>
    have hstays : ∀ q'', Server.Stays p.server server q'' := fun q'' =>
      Server.stays_authStep (by simp [hauth]) (by simp [hauth]) he
    refine inOrder_setBox (p := p) h.inOrder (fun q'' _ => hstays q'') ?_ q
    refine InOrder.of_stays (s := p.server) ?_ (hstays q')
    have hold := h.inOrder q'
    rw [hpl] at hold ⊢
    exact hold.takeAuth hn hQ
  | login hhand hpc he =>
    rw [login_server]
    exact inOrder_login h hhand hpc he q
  | @drain _ _ _ _ _ _ pl _ hauth hpl hc =>
    have hcut : pl.connect = false :=
      (h.life.cut _ (by rw [hauth]; exact List.mem_cons_self)).2 _ hpl
    rw [hc] at hcut
    cases hcut
  | @free a server q' ds ls _ hauth he =>
    obtain ⟨hnone, hother⟩ := Server.free_heap hauth he
    refine inOrder_setBox (p := p) h.inOrder (fun q'' hne => .of_eq (hother q'' hne)) ?_ q
    rw [hnone]
    exact (h.inOrder q').free
  | finishAuth _ he =>
      exact ((h.inOrder q).of_mail ((finishes he).mail q)).of_stays ((finishes he).server.stays q)
  | field he => exact (h.inOrder q).of_stays (Server.stays_fieldStep he)
  | processed => exact h.inOrder q
  | finishField _ he =>
      exact ((h.inOrder q).of_mail ((finishes he).mail q)).of_stays ((finishes he).server.stays q)
  | @takeField q' msg recvQ _ hq' hp hQ =>
    obtain ⟨pl, hpl⟩ := Option.ne_none_iff_exists'.mp hp
    have hn := (h.life.passed q' (.inr (.inr (.inr hq')))).2 pl hpl
    refine inOrder_setBox h.inOrder (fun _ _ => hself _) ?_ q
    have hold := h.inOrder q'
    rw [hpl] at hold ⊢
    exact hold.takeField hn hQ
  | db he => exact (h.inOrder q).of_stays ((Server.unmoved_dbStep he).stays q)
  | stop => exact h.inOrder q
  | seen => exact h.inOrder q
  | fault => exact h.inOrder q

/-- Nobody puts a message into the queue of a `Player` that does not exist, or takes one out. -/
theorem mail_did (h : Inv p) (hd : Did cap p l t) {q : ℕ} (hq : p.server.heap q = none) :
    (t.box q).mail = (p.box q).mail := by
  have hne : ∀ {q' : ℕ} {b : Box}, p.server.heap q' ≠ none →
      ((p.setBox q' b).box q).mail = (p.box q).mail := by
    intro q' b hq'
    rw [State.setBox_box, if_neg]
    rintro rfl
    exact hq' hq
  cases hd with
  | onAccept | onRelease | count | countPlayer => exact mail_setBox (p := p) (by rfl) q
  | enqueue _ hp => exact hne hp
  | takeAuth _ _ hpl => exact hne (by simp [hpl])
  | drain _ _ hpl => exact hne (by simp [hpl])
  | takeField _ _ hp => exact hne hp
  | auth | field | processed | db | stop | seen | fault => rfl
  | finishAuth _ he => exact (finishes he).mail q
  | finishField _ he => exact (finishes he).mail q
  | @login a server hd hhand hpc he =>
    obtain ⟨-, -, accountNo, todo, hauth⟩ := h.handling.hand hd hhand hpc
    unfold State.login
    dsimp only
    split_ifs with hany
    · obtain ⟨pl', hpl', -⟩ := Option.any_eq_true _ _ |>.mp hany
      refine hne ?_
      obtain ⟨pl, hpl, -⟩ := Server.ages_authStep he pl' hpl'
      simp [hpl]
    · rfl
  | @free a server q' =>
    by_cases hq' : p.server.heap q' = none
    · exact mail_setBox (by simp [Box.mail, (h.inOrder q').gone hq']) q
    · exact hne hq'

/-- As long as `authThread` does not move. -/
theorem Handling.of_eq (h : Handling p) (hf : p.server.fault = false)
    (hhand : t.authHand = p.authHand) (hauth : t.server.auth = p.server.auth)
    (hbox : ∀ q, (t.box q).accepted = (p.box q).accepted ∧ (t.box q).authLog = (p.box q).authLog) :
    Handling t where
  hand hd hhd hpc := by
    rw [hhand] at hhd
    rw [(hbox hd.q).1, (hbox hd.q).2, hauth]
    exact h.hand hd hhd hpc
  promoting _ := by
    rw [hhand, hauth]
    exact h.promoting hf

/-- As long as it is not in `handleAuthReq`. -/
theorem handling_of_not (hhand : ∀ hd, t.authHand = some hd → hd.pc ≠ .process)
    (hauth : t.server.fault = false → ∀ q accountNo todo,
      t.server.auth ≠ .promote q accountNo todo) : Handling t where
  hand hd hhd hpc := absurd hpc (hhand hd hhd)
  promoting hf q accountNo todo hpc := absurd hpc (hauth hf q accountNo todo)

theorem handling_did (h : Inv p) (hf : p.server.fault = false) (hd : Did cap p l t) :
    Handling t := by
  have hsame : ∀ {q : ℕ} {b : Box}, b.accepted = (p.box q).accepted →
      b.authLog = (p.box q).authLog →
      ∀ q', ((p.setBox q b).box q').accepted = (p.box q').accepted ∧
        ((p.setBox q b).box q').authLog = (p.box q').authLog :=
    fun h1 h2 q' => ⟨box_setBox_eq Box.accepted h1 q', box_setBox_eq Box.authLog h2 q'⟩
  have hnone : ∀ hd, p.authHand = none → p.authHand = some hd → hd.pc ≠ .process := by
    intro hd h1 h2
    rw [h1] at h2
    cases h2
  cases hd with
  | onAccept he => exact h.handling.of_eq hf rfl (Server.onAccept_heap he).2.2.1 (hsame rfl rfl)
  | onRelease _ he => exact h.handling.of_eq hf rfl (Server.onRelease_frame he).2.1 (hsame rfl rfl)
  | enqueue | count | countPlayer | takeField => exact h.handling.of_eq hf rfl rfl (hsame rfl rfl)
  | processed | stop | seen | fault => exact h.handling.of_eq hf rfl rfl fun _ => ⟨rfl, rfl⟩
  | drain => exact h.handling.of_eq hf rfl rfl (hsame rfl rfl)
  | field he => exact h.handling.of_eq hf rfl (Server.fieldStep_frame he).2 fun _ => ⟨rfl, rfl⟩
  | db he => exact h.handling.of_eq hf rfl (Server.unmoved_dbStep he).auth fun _ => ⟨rfl, rfl⟩
  | finishField _ he =>
    have hfin := finishes he
    refine h.handling.of_eq hf hfin.authHand hfin.server.auth fun q => ?_
    have hm := hfin.mail q
    simp only [Box.mail, Prod.mk.injEq] at hm
    exact ⟨hm.2.2.2.2.2, hm.2.2.1⟩
  | auth hhand hmsg _ he =>
    refine handling_of_not (fun hd => hnone hd hhand) fun hft q accountNo todo hpc => ?_
    rcases Server.promote_authStep he hpc with ⟨-, hfault⟩ | ⟨hauth, ha⟩
    · exact Bool.false_ne_true (hft.symm.trans hfault)
    · simp [hmsg q todo hauth] at ha
  | free hhand hauth he =>
    refine handling_of_not (fun hd => hnone hd hhand) fun hft q accountNo todo hpc => ?_
    rcases Server.promote_authStep he hpc with ⟨-, hfault⟩ | ⟨hauth', -⟩
    · exact Bool.false_ne_true (hft.symm.trans hfault)
    · rw [hauth] at hauth'
      cases hauth'
  | @finishAuth a hd r hhand he =>
    have hfin := finishes he
    refine handling_of_not hfin.rest fun _ q accountNo todo hpc => ?_
    obtain ⟨hd', hhand', -, hproc⟩ :=
      h.handling.promoting hf q accountNo todo (hfin.server.auth ▸ hpc)
    rw [hhand] at hhand'
    cases hhand'
    exact hfin.handled hproc
  | @login a server hd hhand hproc he =>
    obtain ⟨-, -, accountNo, todo, hauth⟩ := h.handling.hand hd hhand hproc
    refine handling_of_not (fun hd' hhd' => ?_) fun hft q accountNo' todo' hpc => ?_
    · rw [login_authHand] at hhd'
      cases hhd'
      simp
    · rw [login_server] at hft hpc
      rcases Server.promote_authStep he hpc with ⟨-, hfault⟩ | ⟨hauth', -⟩
      · exact Bool.false_ne_true (hft.symm.trans hfault)
      · rw [hauth] at hauth'
        cases hauth'
  | @takeAuth a server q msg todo recvQ pl hhand hauth hpl hn hc hQ hmsg he =>
    have hold := h.inOrder q
    rw [hpl] at hold
    refine ⟨fun hd hhd hproc => ?_, fun hft q' accountNo todo' hpc => ?_⟩
    · cases hhd
      obtain ⟨accountNo, ha⟩ : ∃ accountNo, a.msg = some (some accountNo) := by
        match hm : a.msg with
        | none => exact absurd hm hmsg
        | some none => simp [hm] at hproc
        | some (some accountNo) => exact ⟨accountNo, rfl⟩
      refine ⟨?_, ?_, accountNo, todo, Server.messages_authStep hauth hpl hn hc ha he⟩
      · simpa [State.takeAuth] using hold.accepted_eq_none hn
      · simpa [State.takeAuth] using hold.authLog_take hn hQ
    · rcases Server.promote_authStep he hpc with ⟨-, hfault⟩ | ⟨hauth', ha⟩
      · exact absurd (hft.symm.trans hfault) Bool.false_ne_true
      · rw [hauth] at hauth'
        cases hauth'
        exact ⟨_, rfl, rfl, by simp [ha]⟩

theorem inv_did (h : Inv p) (hf : p.server.fault = false) (hd : Did cap p l t) : Inv t where
  life := life_did h.life hd
  fresh q hq := by
    have hle : p.server.nextSeq ≤ q := (nextSeq_did hd).trans hq
    have hnone : p.server.heap q = none := by
      by_contra hne
      obtain ⟨pl, hpl⟩ := Option.ne_none_iff_exists'.mp hne
      have := h.life.fresh q pl hpl
      omega
    rw [mail_did h hd hnone]
    exact h.fresh q hle
  inOrder := inOrder_did h hf hd
  handling := handling_did h hf hd

theorem fault_next (he : next cap p l = some t) : p.server.fault = false := by
  unfold next at he
  split_ifs at he with hc
  simpa using fun hf => hc (.inl hf)

theorem inv_start : Inv start where
  life := Server.life_start
  fresh _ _ := rfl
  inOrder _ := inOrder_empty fun pl hpl => by cases hpl
  handling := handling_of_not (fun hd hhd => by cases hhd) fun _ q accountNo todo hpc => by
    cases hpc

theorem invariant (cap : ℕ) : (mail cap).Invariant Inv where
  init hi := by
    obtain rfl : _ = start := hi
    exact inv_start
  step l h he := inv_did h (fault_next he) (did_next he)

end

/-- `authThread` takes messages out of `mRecvQ` of `q`: in its loop as long as `mNextFieldID` is its
own, and before the deletion. -/
def AuthMay (p : State) (q : ℕ) : Prop :=
  (∃ todo player, p.server.auth = .messages todo ∧ q ∈ todo ∧ p.server.heap q = some player ∧
    player.nextFieldID = AUTH_FIELD_IDX) ∨ ∃ ds ls, p.server.auth = .free q ds ls

/-- The field thread goes through its `players`. -/
def FieldMay (p : State) (q : ℕ) : Prop := q ∈ p.server.fieldPlayers

/-- What the two threads have taken is the beginning of what session `q` has
sent, `authThread` stops at the FIELD_AUTH_REQ that succeeds, and they never take both. -/
structure HandedOver (p : State) (q : ℕ) : Prop where
  inOrder : (p.box q).authLog ++ (p.box q).fieldLog <+: List.range (p.box q).received
  last : ∀ k, (p.box q).accepted = some k → (p.box q).authLog = List.range (k + 1)
  since : (p.box q).fieldLog ≠ [] → (p.box q).accepted ≠ none
  one : ∀ player, p.server.heap q = some player → player.connect = true →
    ¬ (AuthMay p q ∧ FieldMay p q)

section

variable {cap : ℕ} {p t : State} {l : Step} {q : ℕ}

theorem recvQ_of_mail {b b' : Box} (h : b'.mail = b.mail) : b'.recvQ = b.recvQ :=
  congrArg Prod.fst h

/-- Only then does a step of `authThread` take something out of the queue. -/
theorem authMay_of_next {a : Server.AuthInput} (he : next cap p (.auth a) = some t)
    (hne : (t.box q).recvQ ≠ (p.box q).recvQ) : AuthMay p q := by
  have hother : ∀ {q' : ℕ} {b : Box}, ((p.setBox q' b).box q).recvQ ≠ (p.box q).recvQ → q = q' := by
    intro q' b hne
    by_contra hq
    rw [State.setBox_box, if_neg hq] at hne
    exact hne rfl
  cases did_next he with
  | auth | seen | fault => exact absurd rfl hne
  | @takeAuth _ _ q' _ todo _ player _ hauth hp hn =>
    obtain rfl : q = q' := hother hne
    exact .inl ⟨_, player, hauth, List.mem_cons_self, hp, hn⟩
  | @drain _ q' _ ds ls _ _ _ hauth =>
    obtain rfl : q = q' := hother hne
    exact .inr ⟨ds, ls, hauth⟩
  | @free _ _ q' ds ls _ hauth =>
    obtain rfl : q = q' := hother hne
    exact .inr ⟨ds, ls, hauth⟩
  | login =>
    refine absurd ?_ hne
    unfold State.login
    dsimp only
    split_ifs
    · exact box_setBox_eq Box.recvQ (by rfl) q
    · rfl
  | finishAuth _ hfin => exact absurd (recvQ_of_mail ((finishes hfin).mail q)) hne

theorem fieldMay_of_next {q' : ℕ} (he : next cap p (.dequeue q') = some t)
    (hne : (t.box q).recvQ ≠ (p.box q).recvQ) : FieldMay p q := by
  cases did_next he with
  | seen | fault => exact absurd rfl hne
  | takeField _ hq =>
    by_cases hqq : q = q'
    · exact hqq ▸ hq
    · simp [State.takeField, hqq] at hne

/-- The field thread takes messages in its `playerProc` only. -/
theorem recvQ_field {a : Server.FieldInput} (he : next cap p (.field a) = some t) :
    (t.box q).recvQ = (p.box q).recvQ := by
  cases did_next he with
  | field | processed | seen | fault => rfl
  | finishField _ hfin => exact recvQ_of_mail ((finishes hfin).mail q)

theorem handedOver (h : (mail cap).Reachable p) (q : ℕ) : HandedOver p q := by
  have hinv := (invariant cap).reachable h
  have hq := hinv.inOrder q
  refine ⟨⟨(p.box q).recvQ ++ (p.box q).lost, ?_⟩, fun k hk => (hq.after k hk).1,
    fun hlog hacc => ?_, ?_⟩
  · rw [← hq.order, List.append_assoc _ (p.box q).recvQ]
  · exact hlog (hq.before hacc).1
  · rintro player hp hc ⟨⟨todo, player', -, -, hp', hn⟩ | ⟨ds, ls, hauth⟩, hfield⟩
    · exact (hinv.life.passed q (.inr (.inr (.inr hfield)))).2 player' hp' hn
    · have hcut : player.connect = false :=
        (hinv.life.cut q (by rw [hauth]; exact List.mem_cons_self)).2 player hp
      rw [hc] at hcut
      cases hcut

end

/-- `n` steps of `authThread`. -/
def authSteps (n : ℕ) (order : List ℕ) (msg : Option (Option ℤ)) : List Step :=
  .replicate n (.auth ⟨order, msg⟩)

/-- `n` steps of the field thread. -/
def fieldSteps (n : ℕ) (order : List ℕ) : List Step := .replicate n (.field ⟨order, none, ⟨0, 0⟩⟩)

/-- Session 0 sends two messages, the first logs in with account 7, and the second is for the field.
-/
def handoverRun : List Step :=
  .onAccept 0 :: .replicate 6 (.onRecv 0) ++ authSteps 1 [0] none ++ authSteps 1 []
    (some (some 7)) ++ authSteps 12 [0] none ++ fieldSteps 6 [] ++ [.dequeue 0] ++ fieldSteps 4 []

theorem handedOver_handoverRun :
    ∃ p, HandedOver p 0 ∧ (p.box 0).authLog = [0] ∧ (p.box 0).fieldLog =
      [1] ∧ (p.box 0).accepted = some 0 := by
  have hrun : ((mail DISCONNECT_AND_LEAVE_CAP).exec start handoverRun).any (fun p =>
      (p.box 0).authLog = [0] ∧ (p.box 0).fieldLog = [1] ∧ (p.box 0).accepted = some 0) =
        true := by decide
  obtain ⟨p, hp, hlogs⟩ := Option.any_eq_true _ _ |>.mp hrun
  exact ⟨p, handedOver (System.Reachable.exec handoverRun (.start rfl) hp) 0,
    of_decide_eq_true hlogs⟩

end Mail
end MyMMO
