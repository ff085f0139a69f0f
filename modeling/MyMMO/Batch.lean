/-
# Batch packets

`sendSpawnBatch`, `sendMonsterSpawnBatch` and `sendItemSpawnBatch` with their two counters of 16
bits and the message that is open. The three loops are one, `sendBatch`, over a `Layout` that says
what is written for an entity. Together the messages hold every entity once (`batches_exact`); they
are the batches that the field's model sends, in bytes (`sendBatch_eq`).
-/
import MyMMO.FieldFrame
import MyMMO.Wire
import MyMMO.Lib.Outcome

namespace MyMMO
namespace Batch

open MyMMO.Field Machine Outcome FloatBytes

/-- What the three functions do differently: the PacketType, RECORD_SIZE and what is written for an
entity. -/
structure Layout (ε : Type) where
  type : ℤ
  recordSize : ℕ
  record : ε → List (List UInt8)
  record_length : ∀ e, (record e).flatten.length = recordSize
  recordSize_pos : 0 < recordSize
  recordSize_le : recordSize ≤ BufferSize - 2 - 2 - Header.size

/-- The locals of a function, `cnt`, `PlayerCnt` (or `monsterCnt`, `itemCnt`) and `msg`, and what it
has sent. -/
structure Locals where
  cnt : ℤ
  batchCnt : ℤ
  msg : Option Message
  sent : List Message

section

variable {ε : Type} (l : Layout ε) (sessionID : SeqAndIdx)

namespace Layout

def maxBatch : ℕ := (BufferSize - 2 - 2 - Header.size) / l.recordSize

/-- A new message, its header, the type and the number of its records. -/
def start (batchCnt : ℤ) : Except Stop Message :=
  let len := int16 (2 + 2 + l.recordSize * batchCnt)
  (Message.initMessage sessionID 0).putAll [intToBytes 2 len ++ intToBytes 1 0, intToBytes 2 l.type,
    intToBytes 2 batchCnt]

/-- The body of the inner loops. -/
def put (skip : ε → Bool) (b : Locals) (e : ε) : Except Stop Locals :=
  if skip e then return b
  else do
    let b ←
      if b.batchCnt = 0 then do
        let batchCnt : ℤ := if b.cnt < l.maxBatch then b.cnt else l.maxBatch
        let msg ← l.start sessionID batchCnt
        pure { b with batchCnt, msg := some msg, sent := b.sent ++ b.msg.toList }
      else pure b
    match b.msg with
    | none => .error .overrun -- `*nullptr`, as undefined as what is past an array
    | some msg =>
      let msg ← msg.putAll (l.record e)
      return { b with
        cnt := int16 (b.cnt - 1), batchCnt := int16 (b.batchCnt - 1), msg := some msg }

/-- `while (cnt != 0)`, for `fuel` passes at most; `near` is what the two loops inside go over. -/
def whileCnt (skip : ε → Bool) (near : List ε) : ℕ → Locals → Option (Except Stop Locals)
  | 0, b => if b.cnt = 0 then some (return b) else none
  | fuel + 1, b =>
    if b.cnt = 0 then some (return b)
    else
      match near.foldlM (l.put sessionID skip) { b with batchCnt := 0 } with
      | .error stop => some (.error stop)
      | .ok b => whileCnt skip near fuel b

/-- From `if (cnt == 0)` on: the messages that are sent, in their order. -/
def sendBatch (skip : ε → Bool) (near : List ε) (cnt : ℤ) (fuel : ℕ) :
    Option (Except Stop (List Message)) :=
  if cnt = 0 then some (return [])
  else (l.whileCnt sessionID skip near fuel ⟨cnt, 0, none, []⟩).map fun r => r.map fun b =>
    b.sent ++ b.msg.toList

end Layout

end

/-! ### The three functions -/

section

variable {F : Type} [FloatBytes F] (s : State F)

/-- The twenty bytes of `mNickname`. -/
def nicknameBytes (nickname : List UInt8) : List UInt8 := (nickname ++ List.replicate 20 0).take 20

def playerLayout : Layout ℕ where
  type := 104
  recordSize := 8 + 4 + 4 + 1 + 1 + 4 + 4 + 1 + 20
  record q :=
    let player := s.player q
    [intToBytes 8 player.characterID, floatBytes player.pos.x, floatBytes player.pos.y,
      intToBytes 1 player.state.toInt8, intToBytes 1 player.direction, floatBytes player.speed,
      intToBytes 4 player.animFrame, intToBytes 1 player.characterType,
        nicknameBytes player.nickname]
  record_length q := by simp [nicknameBytes]
  recordSize_pos := by decide
  recordSize_le := by decide

def monsterLayout : Layout ℤ where
  type := 109
  recordSize := 8 + 4 + 4 + 1 + 1 + 4 + 1 + 4
  record id :=
    let monster := s.monster id
    [intToBytes 8 monster.monsterID, floatBytes monster.pos.x, floatBytes monster.pos.y,
      intToBytes 1 monster.state.toInt8, intToBytes 1 monster.direction, intToBytes 4 monster.hp,
      intToBytes 1 monster.monsterType, intToBytes 4 monster.animFrame]
  record_length id := by simp
  recordSize_pos := by decide
  recordSize_le := by decide

def itemLayout : Layout ℤ where
  type := 119
  recordSize := 8 + 1 + 4 + 4
  record id :=
    let item := s.item id
    [intToBytes 8 item.itemUniqueId, intToBytes 1 item.itemId.toInt8, floatBytes item.pos.x,
      floatBytes item.pos.y]
  record_length id := by simp
  recordSize_pos := by decide
  recordSize_le := by decide

/-- `cnt` of `sendSpawnBatch`. -/
def playerCnt (targetPlayer : ℕ) (nearSector : List Sector) : ℤ :=
  (s.near nearSector).foldl (fun cnt player => if player = targetPlayer then cnt else
    int16 (cnt + 1)) 0

/-- `cnt` of the other two, for the cells `sectors`. -/
def sizeCnt {α : Type} (sectors : Sector → List α) (nearSector : List Sector) : ℤ :=
  nearSector.foldl (fun cnt sector => int16 (cnt + int16 (sectors sector).length)) 0

def sendSpawnBatch (targetPlayer : ℕ) (sessionID : SeqAndIdx) (nearSector : List Sector)
    (fuel : ℕ) :
    Option (Except Stop (List Message)) :=
  (playerLayout s).sendBatch sessionID (· = targetPlayer) (s.near nearSector)
    (playerCnt s targetPlayer nearSector) fuel

def sendMonsterSpawnBatch (sessionID : SeqAndIdx) (nearSector : List Sector) (fuel : ℕ) :
    Option (Except Stop (List Message)) :=
  (monsterLayout s).sendBatch sessionID (fun _ => false) (s.nearMonsters nearSector)
    (sizeCnt s.monsterSectors nearSector) fuel

def sendItemSpawnBatch (sessionID : SeqAndIdx) (nearSector : List Sector) (fuel : ℕ) :
    Option (Except Stop (List Message)) :=
  (itemLayout s).sendBatch sessionID (fun _ => false) (s.nearItems nearSector)
    (sizeCnt s.itemSectors nearSector) fuel

end

/-! ### The loops -/

section

variable {ε : Type} (l : Layout ε) (sessionID : SeqAndIdx)

/-- A message with the header of `n` records that holds those of `part`. -/
def Layout.message (n : ℕ) (part : List ε) : Message :=
  ⟨sessionID, 0, (intToBytes 2 (2 + 2 + l.recordSize * n) ++ intToBytes 1 0 ++
    intToBytes 2 l.type ++ intToBytes 2 n) ++ part.flatMap fun e => (l.record e).flatten, 0⟩

variable {l sessionID}

theorem maxBatch_bounds :
    0 < l.maxBatch ∧ l.maxBatch < 32768 ∧ 7 + l.recordSize * l.maxBatch ≤ BufferSize := by
  have hpos := l.recordSize_pos
  have hle := l.recordSize_le
  unfold Layout.maxBatch
  unfold BufferSize Header.size at hle ⊢
  refine ⟨Nat.div_pos hle hpos, ?_, ?_⟩
  · exact (Nat.div_le_self _ _).trans_lt (by norm_num)
  · have hmul := Nat.mul_div_le (6000 - 2 - 2 - 3) l.recordSize
    omega

theorem message_length (n : ℕ) (part : List ε) :
    (l.message sessionID n part).data.length = 7 + l.recordSize * part.length := by
  have hrecords : (part.flatMap fun e => (l.record e).flatten).length =
      l.recordSize * part.length := by
    induction part with
    | nil => rfl
    | cons e part ih => rw [List.flatMap_cons, List.length_append, l.record_length, ih,
        List.length_cons, Nat.mul_succ, Nat.add_comm]
  unfold Layout.message
  rw [List.length_append, hrecords]
  simp

/-- A message of at most `maxBatch` records fits. -/
theorem message_fits {n : ℕ} {part : List ε} (h : part.length ≤ l.maxBatch) :
    (l.message sessionID n part).data.length ≤ BufferSize := by
  rw [message_length]
  have hmul := Nat.mul_le_mul_left l.recordSize h
  have hmax := (maxBatch_bounds (l := l)).2.2
  omega

theorem start_ok {n : ℕ} (h : n ≤ l.maxBatch) :
    l.start sessionID n = .ok (l.message sessionID n []) := by
  have hlen : int16 (2 + 2 + l.recordSize * n) = 2 + 2 + l.recordSize * n := by
    have hmul := Nat.mul_le_mul_left l.recordSize h
    have hmax := (maxBatch_bounds (l := l)).2.2
    have hle : 2 + 2 + l.recordSize * n < 32768 := by
      unfold BufferSize at hmax
      omega
    exact int16_of_lt (by positivity) (by exact_mod_cast hle)
  unfold Layout.start
  dsimp only
  rw [hlen, Message.putAll_ok (by simp [Message.initMessage, BufferSize])]
  unfold Layout.message Message.initMessage
  simp

theorem putAll_record {n : ℕ} {part : List ε} (h : part.length < l.maxBatch) (e : ε) :
    (l.message sessionID n part).putAll (l.record e) = .ok
    (l.message sessionID n (part ++ [e])) := by
  have hfits : (l.message sessionID n (part ++ [e])).data.length ≤ BufferSize :=
    message_fits (by rw [List.length_append]; exact h)
  rw [message_length, List.length_append, List.length_singleton, Nat.mul_add, Nat.mul_one] at hfits
  rw [Message.putAll_ok (by rw [message_length, l.record_length]; omega)]
  unfold Layout.message
  simp

/-- What `batchCnt` and `msg` say: a message for `n` records holds those of `part`, and `left` are
to come. -/
inductive Open (l : Layout ε) (sessionID : SeqAndIdx) : ℕ → Option (ℕ × List ε) →
    Option Message → Prop
  | none : Open l sessionID 0 none none
  | some (n left : ℕ) (part : List ε) (hn : part.length + left = n) (hmax : n ≤ l.maxBatch) :
      Open l sessionID left (some (n, part)) (some (l.message sessionID n part))

/-- A message that is sent. -/
theorem Open.toList {left : ℕ} {m : Option (ℕ × List ε)} {msg : Option Message}
    (h : Open l sessionID left m msg) :
    msg.toList = m.toList.map fun m => l.message sessionID m.1 m.2 := by
  cases h with
  | none => rfl
  | some => rfl

/-- The first record of a new message, for `n` of the `cnt` that are left. -/
theorem put_start {skip : ε → Bool} {b : Locals} {e : ε} {cnt n : ℕ} (hskip : skip e = false)
    (hcnt : b.cnt = cnt) (hpos : 0 < cnt) (hle : cnt ≤ 32767) (hleft : b.batchCnt = 0)
    (hn : n = min cnt l.maxBatch) :
    l.put sessionID skip b e = .ok
      ⟨(cnt - 1 : ℕ), (n - 1 : ℕ), some (l.message sessionID n [e]), b.sent ++ b.msg.toList⟩ := by
  have hmax := maxBatch_bounds (l := l)
  have hbatch : (if b.cnt < l.maxBatch then b.cnt else (l.maxBatch : ℤ)) = n := by
    rw [hcnt, hn]
    push_cast
    omega
  have hcnt' : int16 (b.cnt - 1) = ((cnt - 1 : ℕ) : ℤ) := by
    rw [hcnt, Nat.cast_sub (by omega), Nat.cast_one]
    exact int16_of_lt (by omega) (by omega)
  have hbatchCnt : int16 ((n : ℤ) - 1) = ((n - 1 : ℕ) : ℤ) := by
    rw [Nat.cast_sub (by omega), Nat.cast_one]
    exact int16_of_lt (by omega) (by omega)
  have hrecord : (l.message sessionID n []).putAll (l.record e) = .ok (l.message sessionID n [e]) :=
    putAll_record (by exact hmax.1) e
  unfold Layout.put
  rw [if_neg (by simp [hskip]), if_pos hleft]
  dsimp only
  rw [hbatch, start_ok (by omega)]
  show ((l.message sessionID n []).putAll (l.record e) >>= fun msg => .ok
    (⟨int16 (b.cnt - 1), int16 ((n : ℤ) - 1), some msg, b.sent ++ b.msg.toList⟩ : Locals)) = _
  rw [hrecord, hcnt', hbatchCnt]
  rfl

/-- One more record of the message that is open. -/
theorem put_record {skip : ε → Bool} {b : Locals}
    {e : ε} {cnt left n : ℕ} {part : List ε} (hskip : skip e = false) (hcnt : b.cnt = cnt)
    (hpos : 0 < cnt) (hle : cnt ≤ 32767) (hleft : b.batchCnt = left) (hleft₀ : 0 < left)
    (hmsg : b.msg = some (l.message sessionID n part)) (hn : part.length + left ≤ l.maxBatch) :
    l.put sessionID skip b e =
      .ok ⟨(cnt - 1 : ℕ), (left - 1 : ℕ), some (l.message sessionID n (part ++ [e])), b.sent⟩ := by
  have hmax := maxBatch_bounds (l := l)
  have hcnt' : int16 (b.cnt - 1) = ((cnt - 1 : ℕ) : ℤ) := by
    rw [hcnt, Nat.cast_sub (by omega), Nat.cast_one]
    exact int16_of_lt (by omega) (by omega)
  have hbatchCnt : int16 (b.batchCnt - 1) = ((left - 1 : ℕ) : ℤ) := by
    rw [hleft, Nat.cast_sub (by omega), Nat.cast_one]
    exact int16_of_lt (by omega) (by omega)
  unfold Layout.put
  rw [if_neg (by simp [hskip]), if_neg (by rw [hleft]; exact_mod_cast hleft₀.ne')]
  show (match b.msg with
    | none => (.error .overrun : Except Stop Locals)
    | some msg => msg.putAll (l.record e) >>= fun msg => .ok
      ⟨int16 (b.cnt - 1), int16 (b.batchCnt - 1), some msg, b.sent⟩) = _
  rw [hmsg]
  dsimp only
  rw [putAll_record (by omega), hcnt', hbatchCnt]
  rfl

/-- A pass over `near` writes the batches of those that are not skipped. -/
theorem foldlM_put {skip : ε → Bool} (near : List ε) {rest : List ε}
    (hrest : rest = near.filter fun e => !skip e) (hsize : rest.length ≤ 32767) {left : ℕ}
    {m : Option (ℕ × List ε)} {b : Locals} (hcnt : b.cnt = rest.length) (hleft : b.batchCnt = left)
    (hle : left ≤ rest.length) (hopen : Open l sessionID left m b.msg) :
    ∃ b', near.foldlM (l.put sessionID skip) b = .ok b' ∧ b'.cnt = 0 ∧ b'.sent ++ b'.msg.toList =
      b.sent ++ (batchLoop l.maxBatch rest rest.length left m).map fun m =>
        l.message sessionID m.1 m.2 := by
  induction near generalizing rest left m b with
  | nil =>
    subst hrest
    refine ⟨b, rfl, by simpa using hcnt, ?_⟩
    rw [hopen.toList]
    simp [batchLoop]
  | cons e near ih =>
    rw [List.foldlM_cons]
    by_cases hskip : skip e = true
    · have hsame : rest = near.filter fun e => !skip e := by
        rw [hrest, List.filter_cons_of_neg (by simp [hskip])]
      have hput : l.put sessionID skip b e = .ok b := by
        unfold Layout.put
        rw [if_pos hskip]
        rfl
      rw [hput]
      exact ih hsame hsize hcnt hleft hle hopen
    have hkeep : skip e = false := eq_false_of_ne_true hskip
    obtain ⟨tail, htail⟩ : ∃ tail, tail = near.filter fun e => !skip e := ⟨_, rfl⟩
    have hcons : rest = e :: tail := by
      rw [hrest, List.filter_cons_of_pos (by simp [hskip]), htail]
    subst hcons
    have hpos : 0 < (e :: tail).length := Nat.succ_pos _
    have htl : (e :: tail).length - 1 = tail.length := rfl
    by_cases hzero : left = 0
    · obtain ⟨n, hn⟩ : ∃ n, n = min (e :: tail).length l.maxBatch := ⟨_, rfl⟩
      have hmax := maxBatch_bounds (l := l)
      have hput : l.put sessionID skip b e = .ok ⟨((e :: tail).length - 1 : ℕ),
          (n - 1 : ℕ), some (l.message sessionID n [e]), b.sent ++ b.msg.toList⟩ :=
        put_start hkeep hcnt hpos hsize (by rw [hleft, hzero]; rfl) hn
      have hnext : Open l sessionID (n - 1) (some (n, [e])) (some (l.message sessionID n [e])) :=
        .some n (n - 1) [e] (by rw [List.length_singleton]; omega) (by omega)
      obtain ⟨b', hb', hzero', hsent⟩ := ih (b := ⟨((e :: tail).length - 1 : ℕ), (n - 1 : ℕ),
        some (l.message sessionID n [e]), b.sent ++ b.msg.toList⟩) htail
          (by omega) rfl rfl (by omega) hnext
      refine ⟨b', by rw [hput]; exact hb', hzero', ?_⟩
      rw [hsent, hopen.toList]
      rw [batchLoop, if_pos hzero]
      dsimp only
      rw [← hn, htl, List.map_append, List.append_assoc]
    · obtain ⟨cnt, batchCnt, msg, sent⟩ := b
      dsimp only at hcnt hleft hopen
      cases hopen with
      | none => exact absurd rfl hzero
      | some n left part hn hmax =>
        have hput : l.put sessionID skip ⟨cnt, batchCnt, some (l.message sessionID n part),
            sent⟩ e = .ok ⟨((e :: tail).length - 1 : ℕ), (left - 1 : ℕ),
            some (l.message sessionID n (part ++ [e])), sent⟩ :=
          put_record hkeep hcnt hpos hsize hleft (by omega) rfl (by omega)
        have hnext : Open l sessionID (left - 1) (some (n, part ++ [e]))
            (some (l.message sessionID n (part ++ [e]))) :=
          .some n (left - 1) (part ++ [e])
            (by rw [List.length_append, List.length_singleton]; omega) hmax
        obtain ⟨b', hb', hzero', hsent⟩ := ih (b := ⟨((e :: tail).length - 1 : ℕ), (left - 1 : ℕ),
          some (l.message sessionID n (part ++ [e])), sent⟩) htail
            (by omega) rfl rfl (by omega) hnext
        refine ⟨b', by rw [hput]; exact hb', hzero', ?_⟩
        rw [hsent]
        rw [batchLoop, if_neg hzero, htl]
        rfl

/-- The messages of a batch function are the batches of the field's model. -/
theorem sendBatch_eq {skip : ε → Bool} {near rest : List ε}
    (hrest : rest = near.filter fun e => !skip e) (hsize : rest.length ≤ 32767) {cnt : ℤ}
    (hcnt : cnt = rest.length) {fuel : ℕ} (hfuel : 1 ≤ fuel) :
    l.sendBatch sessionID skip near cnt fuel =
      some (.ok ((batches l.recordSize rest).map fun m => l.message sessionID m.1 m.2)) := by
  obtain ⟨fuel, rfl⟩ : ∃ k, fuel = k + 1 := ⟨fuel - 1, by omega⟩
  unfold Layout.sendBatch
  by_cases hzero : cnt = 0
  · have hnil : rest = [] := by
      rw [hzero] at hcnt
      exact List.eq_nil_of_length_eq_zero (by exact_mod_cast hcnt.symm)
    rw [if_pos hzero, hnil]
    rfl
  · have hopen : Open l sessionID 0 none none := .none
    obtain ⟨b', hpass, hdone, hsent⟩ :=
      foldlM_put (b := ⟨cnt, 0, none, []⟩) near hrest hsize hcnt rfl (Nat.zero_le _) hopen
    have hwhile : l.whileCnt sessionID skip near (fuel + 1) ⟨cnt, 0, none, []⟩ = some (.ok b') := by
      unfold Layout.whileCnt
      rw [if_neg hzero]
      dsimp only
      rw [hpass]
      dsimp only
      cases fuel with
      | zero =>
        unfold Layout.whileCnt
        rw [if_pos hdone]
        rfl
      | succ fuel =>
        unfold Layout.whileCnt
        rw [if_pos hdone]
        rfl
    rw [if_neg hzero, hwhile]
    show some (Except.ok (b'.sent ++ b'.msg.toList)) = _
    rw [hsent, List.nil_append]
    rfl

/-- Each batch is as long as it says, none is empty or too long, and there are no more than are
needed. -/
theorem batchLoop_parts {maxBatch : ℕ} (hmax : 0 < maxBatch) (es : List ε)
    {left : ℕ} {m : Option (ℕ × List ε)} (hleft : left ≤ es.length)
    (hm : ∀ b ∈ m, b.2.length + left = b.1 ∧ 1 ≤ b.2.length ∧ b.1 ≤ maxBatch)
    (hnone : m = none → left = 0) :
    (∀ b ∈ batchLoop maxBatch es es.length left m, b.1 = b.2.length ∧ 1 ≤ b.1 ∧ b.1 ≤ maxBatch) ∧
      (batchLoop maxBatch es es.length left m).length =
        m.toList.length + (es.length - left + maxBatch - 1) / maxBatch := by
  induction es generalizing left m with
  | nil =>
    have hzero : left = 0 := by simpa using hleft
    subst hzero
    refine ⟨fun b hb => ?_, ?_⟩
    · obtain ⟨hlen, hpos, hle⟩ := hm b (by simpa [batchLoop] using hb)
      omega
    · have hdiv : (maxBatch - 1) / maxBatch = 0 := Nat.div_eq_of_lt (by omega)
      simp [batchLoop, hdiv]
  | cons e es ih =>
    rw [List.length_cons] at hleft ⊢
    by_cases hzero : left = 0
    · subst hzero
      obtain ⟨n, hn⟩ : ∃ n, n = min (es.length + 1) maxBatch := ⟨_, rfl⟩
      have hle : n - 1 ≤ es.length := by omega
      obtain ⟨hparts, hcount⟩ := ih (m := some (n, [e])) hle
        (fun b hb => by
          cases hb
          rw [List.length_singleton]
          omega) (by simp)
      rw [batchLoop, if_pos rfl]
      dsimp only
      rw [← hn, Nat.add_sub_cancel]
      refine ⟨fun b hb => ?_, ?_⟩
      · rcases List.mem_append.mp hb with hb | hb
        · obtain ⟨hlen, hpos, hle⟩ := hm b (Option.mem_toList.mp hb)
          omega
        · exact hparts b hb
      · have hceil : (es.length + 1 + maxBatch - 1) / maxBatch =
            1 + (es.length - (n - 1) + maxBatch - 1) / maxBatch := by
          rcases Nat.lt_or_ge es.length maxBatch with hlt | hge
          · have hfirst : (es.length + 1 + maxBatch - 1) / maxBatch = 1 := by
              rw [show es.length + 1 + maxBatch - 1 = es.length + maxBatch by omega,
                Nat.add_div_right _ hmax, Nat.div_eq_of_lt hlt]
            have hrest : (es.length - (n - 1) + maxBatch - 1) / maxBatch = 0 :=
              Nat.div_eq_of_lt (by omega)
            rw [hfirst, hrest]
          · rw [show es.length + 1 + maxBatch - 1 = (es.length - (n - 1) + maxBatch - 1) +
              maxBatch by omega, Nat.add_div_right _ hmax, Nat.add_comm]
        rw [List.length_append, hcount, Nat.sub_zero, hceil]
        rfl
    · obtain ⟨⟨n, part⟩, rfl⟩ : ∃ b, m = some b :=
        Option.ne_none_iff_exists'.mp fun h => hzero (hnone h)
      obtain ⟨hlen, hpos, hle⟩ := hm _ rfl
      have hle' : left - 1 ≤ es.length := by omega
      obtain ⟨hparts, hcount⟩ := ih (m := some (n, part ++ [e])) hle'
        (fun b hb => by
          cases hb
          rw [List.length_append, List.length_singleton]
          dsimp only at hlen hpos hle
          omega) (by simp)
      rw [batchLoop, if_neg hzero, Nat.add_sub_cancel]
      refine ⟨hparts, ?_⟩
      rw [show es.length + 1 - left = es.length - (left - 1) by omega]
      exact hcount

/-! ### What is sent -/

/-- `header.Len` and the `cnt` field, as they are read. -/
def lenField (msg : Message) : ℤ := (Header.ofBytes msg.data).len

def cntField (msg : Message) : ℤ := Message.intOfBytes ((msg.data.drop 5).take 2)

/-- The messages hold `es`, in parts. -/
structure Exact (l : Layout ε) (sessionID : SeqAndIdx) (es : List ε) (msgs : List Message)
    (parts : List (List ε)) :
    Prop where
  flatten : parts.flatten = es
  messages : msgs = parts.map fun part => l.message sessionID part.length part
  cnt : ∀ part ∈ parts, cntField (l.message sessionID part.length part) = part.length ∧
    1 ≤ part.length ∧
    part.length ≤ l.maxBatch
  len : ∀ msg ∈ msgs, lenField msg = msg.data.length - Header.size ∧ msg.data.length ≤ BufferSize
  number : msgs.length = (es.length + l.maxBatch - 1) / l.maxBatch

theorem lenField_message {part : List ε} (h : part.length ≤ l.maxBatch) :
    lenField (l.message sessionID part.length part) =
      (l.message sessionID part.length part).data.length - Header.size := by
  have hfits : (l.message sessionID part.length part).data.length ≤ BufferSize := message_fits h
  have hlen : (l.message sessionID part.length part).data.length = 7 + l.recordSize * part.length :=
    message_length _ part
  rw [hlen] at hfits
  unfold BufferSize at hfits
  have hdata : (l.message sessionID part.length part).data =
      Header.bytes (2 + 2 + l.recordSize * part.length) 0 ++ (intToBytes 2 l.type ++
      intToBytes 2 part.length ++ part.flatMap fun e => (l.record e).flatten) := by
    rw [← header_bytes]
    unfold Layout.message
    push_cast
    simp only [List.append_assoc]
  unfold lenField
  rw [hlen, hdata, Header.ofBytes_bytes (by omega)]
  dsimp only
  unfold Header.size
  push_cast
  ring

theorem cntField_message {part : List ε} (h : part.length ≤ l.maxBatch) :
    cntField (l.message sessionID part.length part) = part.length := by
  have hmax := (maxBatch_bounds (l := l)).2.1
  have htake : ((l.message sessionID part.length part).data.drop 5).take 2 =
      intToBytes 2 part.length := by
    have hfront : (intToBytes 2 (2 + 2 + l.recordSize * part.length) ++ intToBytes 1 0 ++
        intToBytes 2 l.type).length = 5 := by
      simp
    unfold Layout.message
    dsimp only
    rw [List.append_assoc, List.drop_left' hfront, List.take_left' (intToBytes_length 2 _)]
  unfold cntField
  rw [htake]
  exact intOfBytes_intToBytes (by norm_num) (by omega) (by norm_num; omega)

/-- The batches of the field's model are exact. -/
theorem exact_batches (es : List ε) :
    Exact l sessionID es ((batches l.recordSize es).map fun m => l.message sessionID m.1 m.2)
      ((batches l.recordSize es).map Prod.snd) := by
  obtain ⟨hmax, -⟩ := maxBatch_bounds (l := l)
  obtain ⟨hparts, hcount⟩ :=
    batchLoop_parts (m := none) hmax es (Nat.zero_le _) (by simp) (fun _ => rfl)
  have hmessages : (batches l.recordSize es).map (fun m => l.message sessionID m.1 m.2) =
      ((batches l.recordSize es).map Prod.snd).map fun part =>
        l.message sessionID part.length part := by
    rw [List.map_map]
    exact List.map_congr_left fun m hm => by rw [Function.comp_apply, ← (hparts m hm).1]
  have hsizes : ∀ part ∈ (batches l.recordSize es).map Prod.snd, 1 ≤ part.length ∧
      part.length ≤ l.maxBatch := by
    intro part hpart
    obtain ⟨m, hm, rfl⟩ := List.mem_map.mp hpart
    rw [← (hparts m hm).1]
    exact (hparts m hm).2
  refine ⟨?_, hmessages, fun part hpart => ⟨cntField_message (hsizes part hpart).2,
    hsizes part hpart⟩, ?_, ?_⟩
  · rw [← List.flatMap_def, batches_flatMap]
  · intro msg hmsg
    rw [hmessages] at hmsg
    obtain ⟨part, hpart, rfl⟩ := List.mem_map.mp hmsg
    exact ⟨lenField_message (hsizes part hpart).2, message_fits (hsizes part hpart).2⟩
  · rw [List.length_map]
    exact hcount.trans (Nat.zero_add _)

end

section

variable {F : Type} {s : State F}

theorem playerCnt_eq {targetPlayer : ℕ} {nearSector : List Sector}
    (h : ((s.near nearSector).filter (· ≠ targetPlayer)).length ≤ 32767) :
    playerCnt s targetPlayer nearSector =
      ((s.near nearSector).filter (· ≠ targetPlayer)).length := by
  suffices hfold : ∀ (near : List ℕ) (cnt : ℕ),
      cnt + (near.filter (· ≠ targetPlayer)).length ≤ 32767 →
      near.foldl (fun cnt player => if player = targetPlayer then cnt else int16 (cnt + 1))
        (cnt : ℤ) = ((cnt + (near.filter (· ≠ targetPlayer)).length : ℕ) : ℤ) by
    simpa [playerCnt] using hfold (s.near nearSector) 0 (by simpa using h)
  intro near
  induction near with
  | nil => simp
  | cons player near ih =>
    intro cnt hcnt
    by_cases hskip : player = targetPlayer
    · rw [List.foldl_cons, if_pos hskip]
      rw [List.filter_cons_of_neg (by simp [hskip])] at hcnt ⊢
      exact ih cnt hcnt
    · rw [List.filter_cons_of_pos (by simp [hskip]), List.length_cons] at hcnt ⊢
      rw [List.foldl_cons, if_neg hskip, int16_of_lt (by omega) (by omega), ← Nat.cast_succ,
        ih (cnt + 1) (by omega)]
      congr 1
      omega

theorem sizeCnt_eq {α : Type} {sectors : Sector → List α} {nearSector : List Sector}
    (h : (nearSector.flatMap sectors).length ≤ 32767) :
    sizeCnt sectors nearSector = (nearSector.flatMap sectors).length := by
  suffices hfold : ∀ (nearSector : List Sector) (cnt : ℕ),
      cnt + (nearSector.flatMap sectors).length ≤ 32767 →
      nearSector.foldl (fun cnt sector => int16 (cnt + int16 (sectors sector).length)) (cnt : ℤ) =
        ((cnt + (nearSector.flatMap sectors).length : ℕ) : ℤ) by
    simpa [sizeCnt] using hfold nearSector 0 (by simpa using h)
  intro nearSector
  induction nearSector with
  | nil => simp
  | cons sector nearSector ih =>
    intro cnt hcnt
    rw [List.flatMap_cons, List.length_append] at hcnt ⊢
    rw [List.foldl_cons, int16_of_lt (n := (sectors sector).length) (by omega) (by omega),
      int16_of_lt (by omega) (by omega), ← Nat.cast_add,
      ih (cnt + (sectors sector).length) (by omega)]
    congr 1
    omega

/-- Each of the three functions ends after a pass of its loop, and has sent every entity of the near
sectors once. -/
theorem batches_exact [FloatBytes F] (s : State F) (targetPlayer : ℕ) (sessionID : SeqAndIdx)
    (nearSector : List Sector) (fuel : ℕ) (hfuel : 1 ≤ fuel) :
    (((s.near nearSector).filter (· ≠ targetPlayer)).length ≤ 32767 → ∃ msgs parts,
      sendSpawnBatch s targetPlayer sessionID nearSector fuel = some (.ok msgs) ∧
        Exact (playerLayout s) sessionID
            ((s.near nearSector).filter (· ≠ targetPlayer)) msgs parts) ∧
    ((s.nearMonsters nearSector).length ≤ 32767 → ∃ msgs parts,
      sendMonsterSpawnBatch s sessionID nearSector fuel = some (.ok msgs) ∧
        Exact (monsterLayout s) sessionID (s.nearMonsters nearSector) msgs parts) ∧
    ((s.nearItems nearSector).length ≤ 32767 → ∃ msgs parts,
      sendItemSpawnBatch s sessionID nearSector fuel = some (.ok msgs) ∧
        Exact (itemLayout s) sessionID (s.nearItems nearSector) msgs parts) := by
  refine ⟨fun h => ?_, fun h => ?_, fun h => ?_⟩
  · refine ⟨_, _, sendBatch_eq (by simp) h (playerCnt_eq h) hfuel, exact_batches _⟩
  · refine ⟨_, _, sendBatch_eq (by simp) h (sizeCnt_eq h) hfuel, exact_batches _⟩
  · refine ⟨_, _, sendBatch_eq (by simp) h (sizeCnt_eq h) hfuel, exact_batches _⟩

/-- A sector with three players, one monster more than fit in a message, and no item. -/
def crowded : State ℚ :=
  { empty 0 with
    sectors := fun _ => [1, 2, 3]
    monsterSectors := fun _ => (List.range 222).map fun n : ℕ => (n : ℤ) }

/-- The players without the target are one message, the monsters are two, the items none. -/
theorem batches_exact_crowded :
    (∃ msgs parts, sendSpawnBatch crowded 2 ⟨7, 1⟩ [⟨0, 0⟩] 1 = some (.ok msgs) ∧
      Exact (playerLayout crowded) ⟨7, 1⟩ [1, 3] msgs parts ∧ msgs.length = 1) ∧
    (∃ msgs parts, sendMonsterSpawnBatch crowded ⟨7, 1⟩ [⟨0, 0⟩] 1 = some (.ok msgs) ∧
      Exact (monsterLayout crowded) ⟨7, 1⟩ (crowded.nearMonsters [⟨0, 0⟩]) msgs parts ∧
        msgs.length = 2) ∧
    ∃ msgs parts, sendItemSpawnBatch crowded ⟨7, 1⟩ [⟨0, 0⟩] 1 = some (.ok msgs) ∧
      Exact (itemLayout crowded) ⟨7, 1⟩ [] msgs parts ∧ msgs.length = 0 := by
  obtain ⟨hplayers, hmonsters, hitems⟩ := batches_exact crowded 2 ⟨7, 1⟩ [⟨0, 0⟩] 1 le_rfl
  have hnear : (crowded.near [⟨0, 0⟩]).filter (· ≠ 2) = [1, 3] := by decide
  have hlength : (crowded.nearMonsters [⟨0, 0⟩]).length = 222 := by
    have hcell : crowded.monsterSectors ⟨0, 0⟩ = (List.range 222).map fun n : ℕ => (n : ℤ) := rfl
    unfold State.nearMonsters
    rw [List.flatMap_singleton, hcell, List.length_map, List.length_range]
  have hnone : crowded.nearItems [⟨0, 0⟩] = [] := by decide
  rw [hnear] at hplayers
  rw [hnone] at hitems
  obtain ⟨msgs, parts, hmsgs, hexact⟩ := hplayers (by decide)
  obtain ⟨msgs', parts', hmsgs', hexact'⟩ := hmonsters (by rw [hlength]; norm_num)
  obtain ⟨msgs'', parts'', hmsgs'', hexact''⟩ := hitems (by decide)
  refine ⟨⟨msgs, parts, hmsgs, hexact, hexact.number⟩, ⟨msgs', parts', hmsgs', hexact', ?_⟩,
    msgs'', parts'', hmsgs'', hexact'', hexact''.number⟩
  rw [hexact'.number, hlength]
  rfl

end

end Batch
end MyMMO
