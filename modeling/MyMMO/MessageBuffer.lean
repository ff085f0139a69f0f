/-
# The buffer of a Message

`utility/Message` as it stands in memory: a `char` array, how much of it may be used, and three
pointers into it. `operator<<` of a fundamental value copies its bytes, as `PutData` copies a block;
each has its own test of the room, and that of `operator<<` may resize, and writes `HexLog` before
it throws. `operator>>` and `GetData` copy out.

What the rest of the development calls a `Message`, the bytes written and a position, is what such a
buffer stands for (`Stands`): every operation does to the one what it does to the other. The
exception is an `operator<<` that does not fit: `HexLog` takes the size of its buffer for a number
of `wchar_t`, and writes behind its end (`message_queue_iff`).
-/
import MyMMO.Message
import MyMMO.Lib.Circular

namespace MyMMO

open Circular

/-- `eBufferSize::MaxSize`. -/
def MaxSize : ℕ := 6000

/-- The pointers are offsets from `mBegin`; `resizes` is how often `Resize` has printed its line. -/
structure MessageBuffer where
  begin : ℕ → UInt8
  size : ℕ
  endPtr : ℕ
  frontPtr : ℕ
  rearPtr : ℕ
  resizes : ℕ

namespace MessageBuffer

/-- What an operation comes to. `undefined` is a write past the end of an array. -/
inductive Result
  | done
  | got (bytes : List UInt8)
  | threw (type : MessageErrorType)
  | undefined
  deriving DecidableEq

def initMessage (m : MessageBuffer) : MessageBuffer :=
  { m with size := BufferSize, frontPtr := 0, rearPtr := 0, endPtr := BufferSize }

/-- A `SerializeBufferSize`. -/
def toSize (n : ℤ) : ℕ := (n % 2 ^ 32).toNat

/-- `none` is a `memcpy` past the end of `mBegin`. -/
def resize (m : MessageBuffer) : Option MessageBuffer :=
  let back (m : MessageBuffer) (useSize : ℕ) : MessageBuffer :=
    { m with endPtr := MaxSize, frontPtr := 0, rearPtr := useSize, resizes := m.resizes + 1 }
  let m := { m with size := MaxSize }
  if m.rearPtr < m.frontPtr then
    let useSize := toSize (m.rearPtr - m.frontPtr)
    if m.endPtr + useSize ≤ MaxSize then
      some (back { m with begin := store m.begin m.endPtr (load m.begin 0 useSize) } useSize)
    else none
  else some (back m (toSize (m.frontPtr - m.rearPtr)))

/-- The cells of `hexBuffer` that `HexLog` writes: three for every byte and a terminator, the same
blank, and the marks. -/
def hexCells (m : MessageBuffer) : List ℕ :=
  let words := (List.range m.endPtr).flatMap fun current =>
    [3 * current, 3 * current + 1, 3 * current + 2]
  words ++ [3 * m.endPtr] ++ words ++
    [3 * m.endPtr, 3 * m.endPtr + 1, 3 * m.frontPtr, 3 * m.rearPtr]

/-- The `wchar_t`s, of two bytes each, that `malloc` has room for. -/
def hexCapacity : ℕ := (MaxSize * 3 + 4) / 2

/-- Whether `HexLog` stays inside its buffer. -/
def hexLog (m : MessageBuffer) : Bool := m.hexCells.all fun cell => cell < hexCapacity

/-- `memcpy` to `mRearPtr`. -/
def append (m : MessageBuffer) (bytes : List UInt8) : MessageBuffer :=
  { m with begin := store m.begin m.rearPtr bytes, rearPtr := m.rearPtr + bytes.length }

/-- `operator<<` of a fundamental value of these bytes. -/
def shiftLeft (m : MessageBuffer) (data : List UInt8) : MessageBuffer × Result :=
  if m.endPtr < m.rearPtr + data.length then
    if m.size = BufferSize ∧ m.size + data.length < MaxSize then
      match m.resize with
      | none => (m, .undefined)
      | some m => if m.hexLog then (m.append data, .done) else (m, .undefined)
    else if m.hexLog then (m, .threw .notEnoughSpace) else (m, .undefined)
  else (m.append data, .done)

def putData (m : MessageBuffer) (src : List UInt8) : MessageBuffer × Result :=
  if m.endPtr < m.rearPtr + src.length then (m, .threw .notEnoughSpace) else (m.append src, .done)

/-- `operator>>` of a fundamental value of `len` bytes, and `GetData`. -/
def getData (m : MessageBuffer) (len : ℕ) : MessageBuffer × Result :=
  if m.rearPtr < m.frontPtr + len then (m, .threw .hasNotData)
  else ({ m with frontPtr := m.frontPtr + len }, .got (load m.begin m.frontPtr len))

def getUseSize (m : MessageBuffer) : ℕ :=
  if m.frontPtr ≤ m.rearPtr then m.rearPtr - m.frontPtr else m.endPtr - m.frontPtr + m.rearPtr

inductive Op
  | shiftLeft (data : List UInt8)
  | putData (src : List UInt8)
  | shiftRight (len : ℕ)
  | getData (len : ℕ)

def step (m : MessageBuffer) : Op → MessageBuffer × Result
  | .shiftLeft data => m.shiftLeft data
  | .putData src => m.putData src
  | .shiftRight len | .getData len => m.getData len

/-- A write to a `Message`. -/
def specWrite (msg : Message) (bytes : List UInt8) : Message × Result :=
  match msg.putData bytes with
  | .ok msg => (msg, .done)
  | .error _ => (msg, .threw .notEnoughSpace)

/-- A read from it. -/
def specRead (msg : Message) (len : ℕ) : Message × Result :=
  match msg.getData len with
  | .ok (bytes, msg) => (msg, .got bytes)
  | .error _ => (msg, .threw .hasNotData)

/-- What an operation does to a `Message`: both writes append, both reads take from the front. -/
def spec (msg : Message) : Op → Message × Result
  | .shiftLeft bytes | .putData bytes => specWrite msg bytes
  | .shiftRight len | .getData len => specRead msg len

/-- The buffer holds the bytes of the message, and stands where it stands; `Resize` has run `n`
times. -/
structure Stands (n : ℕ) (m : MessageBuffer) (msg : Message) : Prop where
  size_eq : m.size = BufferSize
  end_eq : m.endPtr = BufferSize
  rear_eq : m.rearPtr = msg.data.length
  front_eq : m.frontPtr = msg.front
  data_eq : load m.begin 0 msg.data.length = msg.data
  front_le : msg.front ≤ msg.data.length
  fits : msg.data.length ≤ BufferSize
  resizes : m.resizes = n

/-- Every operation does to the buffer what it does to the message, without a `Resize`, and the used
size stays the bytes written less those read. -/
def Follows (n : ℕ) : MessageBuffer → Message → List Op → Prop
  | _, _, [] => True
  | m, msg, op :: ops => (step m op).2 = (spec msg op).2 ∧ Stands n (step m op).1 (spec msg op).1 ∧
      (step m op).1.getUseSize = (spec msg op).1.data.length - (spec msg op).1.front ∧
      Follows n (step m op).1 (spec msg op).1 ops

/-- No `operator<<` comes to more than the buffer has room for. -/
def Roomy : Message → List Op → Prop
  | _, [] => True
  | msg, op :: ops =>
    (match op with
      | .shiftLeft data => msg.data.length + data.length ≤ BufferSize
      | _ => True) ∧ Roomy (spec msg op).1 ops

/-! ### Steps -/

section

variable {n : ℕ} {m : MessageBuffer} {msg : Message}

theorem initMessage_stands (m : MessageBuffer) (sessionID : SeqAndIdx) (randKey : UInt8) :
    Stands m.resizes m.initMessage (.initMessage sessionID randKey) :=
  ⟨rfl, rfl, rfl, rfl, rfl, le_rfl, Nat.zero_le _, rfl⟩

theorem Stands.getUseSize (h : Stands n m msg) : m.getUseSize = msg.data.length - msg.front := by
  unfold MessageBuffer.getUseSize
  rw [h.front_eq, h.rear_eq, if_pos h.front_le]

theorem Stands.append (h : Stands n m msg) {bytes : List UInt8}
    (hfit : msg.data.length + bytes.length ≤ BufferSize) :
    Stands n (m.append bytes) { msg with data := msg.data ++ bytes } := by
  refine ⟨h.size_eq, h.end_eq, ?_, h.front_eq, ?_, ?_, ?_, h.resizes⟩
  · show m.rearPtr + bytes.length = _
    rw [h.rear_eq, List.length_append]
  · have hstore := load_store_snoc m.begin bytes 0 msg.data.length
    rw [h.data_eq, Nat.zero_add] at hstore
    show load (store m.begin m.rearPtr bytes) 0 (msg.data ++ bytes).length = msg.data ++ bytes
    rw [h.rear_eq, List.length_append]
    exact hstore
  · rw [List.length_append]
    exact h.front_le.trans (Nat.le_add_right _ _)
  · rw [List.length_append]
    exact hfit

theorem specWrite_ok {bytes : List UInt8} (hfit : msg.data.length + bytes.length ≤ BufferSize) :
    specWrite msg bytes = ({ msg with data := msg.data ++ bytes }, .done) := by
  unfold specWrite
  rw [Message.putData_ok hfit]

theorem specWrite_full {bytes : List UInt8} (hfull : BufferSize < msg.data.length + bytes.length) :
    specWrite msg bytes = (msg, .threw .notEnoughSpace) := by
  unfold specWrite
  rw [Message.putData_error hfull]

/-- The test of the room is that of the message. -/
theorem Stands.full_iff (h : Stands n m msg) (bytes : List UInt8) :
    m.endPtr < m.rearPtr + bytes.length ↔ BufferSize < msg.data.length + bytes.length := by
  rw [h.end_eq, h.rear_eq]

theorem Stands.putData (h : Stands n m msg) (src : List UInt8) :
    (m.putData src).2 = (specWrite msg src).2 ∧ Stands n (m.putData src).1
    (specWrite msg src).1 := by
  unfold MessageBuffer.putData
  by_cases hfull : BufferSize < msg.data.length + src.length
  · rw [if_pos ((h.full_iff src).mpr hfull), specWrite_full hfull]
    exact ⟨rfl, h⟩
  · rw [if_neg (mt (h.full_iff src).mp hfull), specWrite_ok (not_lt.mp hfull)]
    exact ⟨rfl, h.append (not_lt.mp hfull)⟩

theorem specRead_ok {len : ℕ} (h : msg.front + len ≤ msg.data.length) :
    specRead msg len =
      ({ msg with front := msg.front + len }, .got ((msg.data.drop msg.front).take len)) := by
  unfold specRead
  rw [Message.getData_ok h]

theorem specRead_none {len : ℕ} (h : msg.data.length < msg.front + len) :
    specRead msg len = (msg, .threw .hasNotData) := by
  unfold specRead
  rw [Message.getData_error h]

theorem Stands.getData (h : Stands n m msg) (len : ℕ) :
    (m.getData len).2 = (specRead msg len).2 ∧ Stands n (m.getData len).1 (specRead msg len).1 := by
  unfold MessageBuffer.getData
  rw [h.front_eq]
  by_cases hnone : msg.data.length < msg.front + len
  · rw [if_pos (by rw [h.rear_eq]; exact hnone), specRead_none hnone]
    exact ⟨rfl, h⟩
  · have hle := not_lt.mp hnone
    have hload : (msg.data.drop msg.front).take len = load m.begin msg.front len := by
      rw [← h.data_eq, load_drop 0 h.front_le, load_take _ (by omega), Nat.zero_add]
    rw [if_neg (by rw [h.rear_eq]; exact hnone), specRead_ok hle]
    exact ⟨congrArg Result.got hload.symm, h.size_eq, h.end_eq, h.rear_eq, rfl, h.data_eq, hle,
      h.fits, h.resizes⟩

/-- `HexLog` leaves its buffer. -/
theorem Stands.hexLog (h : Stands n m msg) : m.hexLog = false := by
  unfold MessageBuffer.hexLog
  rw [List.all_eq_false]
  refine ⟨3 * m.endPtr, ?_, ?_⟩
  · unfold hexCells
    simp
  · rw [h.end_eq]
    decide

theorem Stands.shiftLeft_full (h : Stands n m msg) {data : List UInt8}
    (hfull : BufferSize < msg.data.length + data.length) :
    m.shiftLeft data = (m, .undefined) := by
  have hresize : ¬(m.size = BufferSize ∧ m.size + data.length < MaxSize) := by
    rw [h.size_eq]
    unfold BufferSize MaxSize
    omega
  unfold MessageBuffer.shiftLeft
  rw [if_pos ((h.full_iff data).mpr hfull), if_neg hresize, h.hexLog]
  rfl

theorem Stands.shiftLeft (h : Stands n m msg) {data : List UInt8}
    (hfit : msg.data.length + data.length ≤ BufferSize) :
    (m.shiftLeft data).2 = (specWrite msg data).2 ∧ Stands n (m.shiftLeft data).1
    (specWrite msg data).1 := by
  unfold MessageBuffer.shiftLeft
  rw [if_neg (mt (h.full_iff data).mp (not_lt.mpr hfit)), specWrite_ok hfit]
  exact ⟨rfl, h.append hfit⟩

/-- A step follows if and only if it is no `operator<<` without room. -/
theorem Stands.step_iff (h : Stands n m msg) (op : Op) :
    ((step m op).2 = (spec msg op).2 ∧ Stands n (step m op).1 (spec msg op).1) ↔
      (match op with
        | .shiftLeft data => msg.data.length + data.length ≤ BufferSize
        | _ => True) := by
  cases op with
  | shiftLeft data =>
    constructor
    · rintro ⟨hresult, -⟩
      by_contra hfull
      have hspec : spec msg (.shiftLeft data) = (msg, .threw .notEnoughSpace) :=
        specWrite_full (not_le.mp hfull)
      have hstep : step m (.shiftLeft data) = (m, .undefined) := h.shiftLeft_full (not_le.mp hfull)
      rw [hstep, hspec] at hresult
      cases hresult
    · exact h.shiftLeft
  | putData src => exact iff_true_intro (h.putData src)
  | shiftRight len => exact iff_true_intro (h.getData len)
  | getData len => exact iff_true_intro (h.getData len)

theorem Stands.follows_iff (h : Stands n m msg) (ops : List Op) : Follows n m msg ops ↔
    Roomy msg ops := by
  induction ops generalizing m msg with
  | nil => exact Iff.rfl
  | cons op ops ih =>
    unfold Follows Roomy
    constructor
    · rintro ⟨hresult, hstands, -, hrest⟩
      exact ⟨(h.step_iff op).mp ⟨hresult, hstands⟩, (ih hstands).mp hrest⟩
    · rintro ⟨hroom, hrest⟩
      obtain ⟨hresult, hstands⟩ := (h.step_iff op).mpr hroom
      exact ⟨hresult, hstands, hstands.getUseSize, (ih hstands).mpr hrest⟩

end

/-! ### Reading back -/

/-- A block, and whether it is written with `operator<<` and read with `operator>>`. -/
structure Block where
  bytes : List UInt8
  shiftedIn : Bool
  shiftedOut : Bool

namespace Block

def write (b : Block) : Op := if b.shiftedIn then .shiftLeft b.bytes else .putData b.bytes

def read (b : Block) : Op :=
  if b.shiftedOut then .shiftRight b.bytes.length else .getData b.bytes.length

theorem spec_write (b : Block) (msg : Message) : spec msg b.write = specWrite msg b.bytes := by
  unfold write
  split_ifs <;> rfl

theorem spec_read (b : Block) (msg : Message) : spec msg b.read = specRead msg b.bytes.length := by
  unfold read
  split_ifs <;> rfl

end Block

/-- The bytes of blocks, one after the other. -/
def blockBytes (blocks : List Block) : List UInt8 := blocks.flatMap Block.bytes

/-- What a run of operations comes to, each by itself. -/
def results : MessageBuffer → List Op → List Result
  | _, [] => []
  | m, op :: ops => (step m op).2 :: results (step m op).1 ops

def specResults : Message → List Op → List Result
  | _, [] => []
  | msg, op :: ops => (spec msg op).2 :: specResults (spec msg op).1 ops

theorem specResults_cons (msg : Message) (op : Op) (ops : List Op) :
    specResults msg (op :: ops) = (spec msg op).2 :: specResults (spec msg op).1 ops := rfl

section

variable {n : ℕ} {m : MessageBuffer} {msg : Message}

theorem results_eq {ops : List Op} (h : Follows n m msg ops) :
    results m ops = specResults msg ops := by
  induction ops generalizing m msg with
  | nil => rfl
  | cons op ops ih =>
    obtain ⟨hresult, -, -, hrest⟩ := h
    rw [specResults_cons, ← hresult, ← ih hrest]
    rfl

/-- Reading blocks of these sizes, which come next. -/
theorem specResults_reads
    {blocks : List Block} {rest : List UInt8} (hfront : msg.front ≤ msg.data.length)
    (h : msg.data.drop msg.front = blockBytes blocks ++ rest) :
    specResults msg (blocks.map Block.read) = blocks.map fun b => .got b.bytes := by
  induction blocks generalizing msg with
  | nil => rfl
  | cons b blocks ih =>
    have hnext : msg.data.drop msg.front = b.bytes ++ (blockBytes blocks ++ rest) := by
      rw [h]
      unfold blockBytes
      rw [List.flatMap_cons, List.append_assoc]
    have hlen := congrArg List.length hnext
    rw [List.length_drop, List.length_append] at hlen
    rw [List.map_cons, List.map_cons, specResults_cons, b.spec_read, specRead_ok (by omega)]
    dsimp only
    rw [hnext, List.take_left]
    congr 1
    apply ih
    · dsimp only
      omega
    · dsimp only
      rw [← List.drop_drop, hnext, List.drop_left]

/-- Writing blocks that fit. -/
theorem specResults_writes {blocks : List Block} {ops : List Op}
    (h : msg.data.length + (blockBytes blocks).length ≤ BufferSize) :
    specResults msg (blocks.map Block.write ++ ops) =
        List.replicate blocks.length .done ++ specResults
            { msg with data := msg.data ++ blockBytes blocks } ops ∧
      (Roomy { msg with data := msg.data ++ blockBytes blocks } ops →
        Roomy msg (blocks.map Block.write ++ ops)) := by
  induction blocks generalizing msg with
  | nil =>
    have hsame : { msg with data := msg.data ++ blockBytes [] } = msg := by
      unfold blockBytes
      rw [List.flatMap_nil, List.append_nil]
    rw [hsame]
    exact ⟨rfl, id⟩
  | cons b blocks ih =>
    have hbytes : blockBytes (b :: blocks) = b.bytes ++ blockBytes blocks := List.flatMap_cons
    rw [hbytes, List.length_append] at h
    have hfit : msg.data.length + b.bytes.length ≤ BufferSize := by omega
    have hspec : spec msg b.write = ({ msg with data := msg.data ++ b.bytes }, .done) := by
      rw [b.spec_write, specWrite_ok hfit]
    have hrest := @ih { msg with data := msg.data ++ b.bytes } (by
      dsimp only
      rw [List.length_append]
      omega)
    rw [hbytes, ← List.append_assoc]
    constructor
    · rw [List.map_cons, List.cons_append, specResults_cons, hspec, hrest.1]
      rfl
    · intro hroomy
      rw [List.map_cons, List.cons_append]
      unfold Roomy
      rw [hspec]
      refine ⟨?_, hrest.2 hroomy⟩
      unfold Block.write
      split_ifs
      · exact hfit
      · trivial

theorem roomy_reads (blocks : List Block) (msg : Message) : Roomy msg (blocks.map Block.read) := by
  induction blocks generalizing msg with
  | nil => trivial
  | cons b blocks ih =>
    rw [List.map_cons]
    unfold Roomy
    refine ⟨?_, ih _⟩
    unfold Block.read
    split_ifs <;> trivial

end

/-- From `InitMessage` on, the buffer is the bounded queue of bytes if and only if no `operator<<`
goes beyond its room; and blocks that fit, written in either way, are read back as they are. -/
theorem message_queue_iff (m : MessageBuffer) (sessionID : SeqAndIdx) (randKey : UInt8) :
    (∀ ops, Follows m.resizes m.initMessage (.initMessage sessionID randKey) ops ↔
        Roomy (.initMessage sessionID randKey) ops) ∧
    ∀ blocks : List Block, (blockBytes blocks).length ≤ BufferSize →
      results m.initMessage (blocks.map Block.write ++ blocks.map Block.read) =
        List.replicate blocks.length .done ++ blocks.map fun b => .got b.bytes := by
  have hstands := initMessage_stands m sessionID randKey
  refine ⟨hstands.follows_iff, fun blocks hfit => ?_⟩
  have hroom : (Message.initMessage sessionID randKey).data.length + (blockBytes blocks).length ≤
      BufferSize :=
    (Nat.zero_add _).le.trans hfit
  have hwrites := @specResults_writes _ blocks (blocks.map Block.read) hroom
  rw [results_eq ((hstands.follows_iff _).mpr (hwrites.2 (roomy_reads blocks _))), hwrites.1]
  congr 1
  have hdata : ∀ bytes : List UInt8, bytes = bytes ++ [] :=
    fun bytes => (List.append_nil bytes).symm
  exact specResults_reads (Nat.zero_le _) (hdata _)

/-- There is no room behind a full buffer. -/
theorem not_roomy_full (sessionID : SeqAndIdx) (randKey : UInt8)
    {bytes data : List UInt8} (hfull : bytes.length = BufferSize) (hdata : data ≠ []) :
    ¬Roomy (.initMessage sessionID randKey) [.putData bytes, .shiftLeft data] := by
  have hwrite : spec (.initMessage sessionID randKey) (.putData bytes) =
      ({ Message.initMessage sessionID randKey with data := [] ++ bytes }, .done) := by
    apply specWrite_ok
    rw [hfull]
    exact (Nat.zero_add BufferSize).le
  intro hroomy
  have hlast := hroomy.2.1
  rw [hwrite] at hlast
  dsimp only at hlast
  rw [List.nil_append, hfull] at hlast
  have hpos := List.length_pos_of_ne_nil hdata
  omega

/-- A full buffer, and a value of one byte more. -/
def oneMore : List Op := [.putData (List.replicate BufferSize 0), .shiftLeft [0]]

/-- `HexLog` writes the cell 18000 of a buffer of 9002. -/
theorem oneMore_not_follows : ¬∀ (m : MessageBuffer) (ops : List Op),
    Follows m.resizes m.initMessage (.initMessage ⟨0, 1⟩ 0) ops := by
  intro h
  have hstands := initMessage_stands ⟨fun _ => 0, 0, 0, 0, 0, 0⟩ ⟨0, 1⟩ 0
  have hroomy := (hstands.follows_iff oneMore).mp (h _ oneMore)
  exact not_roomy_full _ _ List.length_replicate (List.cons_ne_nil _ _) hroomy

/-- Three blocks, across both kinds. -/
theorem message_queue_iff_three : results (initMessage ⟨fun _ => 0, 0, 0, 0, 0, 0⟩)
      [.shiftLeft [1, 0], .putData [7, 8, 9], .shiftLeft [5], .getData 2, .shiftRight 3, .getData 1]
    = [.done, .done, .done, .got [1, 0], .got [7, 8, 9], .got [5]] :=
  (message_queue_iff ⟨fun _ => 0, 0, 0, 0, 0, 0⟩ ⟨0, 1⟩ 0).2
    [⟨[1, 0], true, false⟩, ⟨[7, 8, 9], false, true⟩, ⟨[5], true, false⟩] (by decide)

end MessageBuffer
end MyMMO
