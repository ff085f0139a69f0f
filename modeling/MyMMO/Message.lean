/-
# Header and Message

The wire format: three bytes of header (`Header.h`), the payload's length as a
little-endian `int16_t` and a key that nothing uses, then the payload. A
received payload travels as a `Message` (`utility/Message.cpp`), a buffer of
`eBufferSize::BufferSize` bytes with a read and a write position; what does
not fit or is not there throws.
-/
import MyMMO.Common

namespace MyMMO

/-- `network::SeqAndIdx`: the slot of a session and the number of its incarnation. -/
structure SeqAndIdx where
  idx : ℕ
  seq : ℕ
  deriving DecidableEq, Repr

structure Header where
  len : ℤ
  randKey : UInt8
  deriving DecidableEq, Repr

namespace Header

/-- `sizeof(Header)`. -/
def size : ℕ := 3

/-- Two bytes as an `int16_t`. -/
def int16 (lo hi : UInt8) : ℤ :=
  let n := lo.toNat + 256 * hi.toNat
  if n < 32768 then n else (n : ℤ) - 65536

/-- The header at the beginning of `bs`; bytes that were never written are 0. -/
def ofBytes (bs : List UInt8) : Header :=
  ⟨int16 (bs.getD 0 0) (bs.getD 1 0), bs.getD 2 0⟩

/-- A header in memory. -/
def bytes (len : ℕ) (randKey : UInt8) : List UInt8 := [.ofNat len, .ofNat (len / 256), randKey]

@[simp] theorem bytes_length (len : ℕ) (randKey : UInt8) : (bytes len randKey).length = size := rfl

theorem ofBytes_bytes {len : ℕ} (h : len < 32768) (randKey : UInt8) (bs : List UInt8) :
    ofBytes (bytes len randKey ++ bs) = ⟨len, randKey⟩ := by
  have h1 : len / 256 % 256 = len / 256 := Nat.mod_eq_of_lt (by omega)
  have h2 : len % 256 + 256 * (len / 256) = len := by omega
  simp [ofBytes, bytes, int16, h1, h2, h]

/-- Only the first three bytes matter. -/
theorem ofBytes_append {bs : List UInt8} (h : size ≤ bs.length) (cs : List UInt8) :
    ofBytes (bs ++ cs) = ofBytes bs := by
  rw [size] at h
  simp only [ofBytes, List.getD_eq_getElem?_getD]
  rw [List.getElem?_append_left (by omega), List.getElem?_append_left (by omega),
    List.getElem?_append_left (by omega)]

theorem ofBytes_take (bs : List UInt8) : ofBytes (bs.take size) = ofBytes bs := by
  simp [ofBytes, size]

end Header

/-- `eBufferSize::BufferSize`. -/
def BufferSize : ℕ := 6000

/-- A message: whose it is, and what stands between `mBegin` and `mRearPtr`;
`front` is the offset of `mFrontPtr`. -/
structure Message where
  ownerID : SeqAndIdx
  randKey : UInt8
  data : List UInt8
  front : ℕ
  deriving DecidableEq, Repr

namespace Message

/-- A new message after `InitMessage`. -/
def initMessage (sessionID : SeqAndIdx) (randKey : UInt8) : Message := ⟨sessionID, randKey, [], 0⟩

def putData (msg : Message) (src : List UInt8) : Except Stop Message :=
  if BufferSize < msg.data.length + src.length then .error (.messageException .notEnoughSpace)
  else .ok { msg with data := msg.data ++ src }

/-- `size` bytes from the front; `operator>>` and `GetData`. -/
def getData (msg : Message) (size : ℕ) : Except Stop (List UInt8 × Message) :=
  if msg.data.length < msg.front + size then .error (.messageException .hasNotData)
  else .ok ((msg.data.drop msg.front).take size, { msg with front := msg.front + size })

/-- A signed integer of as many bytes as there are in `bs`, little-endian. -/
def intOfBytes (bs : List UInt8) : ℤ :=
  let n : ℕ := bs.foldr (fun b n => b.toNat + 256 * n) 0
  if n < 2 ^ (8 * bs.length) / 2 then n else (n : ℤ) - 2 ^ (8 * bs.length)

/-- `msg >> data` for a signed integer of `size` bytes. -/
def readInt (msg : Message) (size : ℕ) : Except Stop (ℤ × Message) := do
  let (bs, msg) ← msg.getData size
  return (intOfBytes bs, msg)

theorem putData_ok {msg : Message} {src : List UInt8}
    (h : msg.data.length + src.length ≤ BufferSize) :
    msg.putData src = .ok { msg with data := msg.data ++ src } := if_neg (by omega)

theorem putData_error {msg : Message} {src : List UInt8}
    (h : BufferSize < msg.data.length + src.length) :
    msg.putData src = .error (.messageException .notEnoughSpace) := if_pos h

theorem getData_ok {msg : Message} {size : ℕ} (h : msg.front + size ≤ msg.data.length) :
    msg.getData size = .ok ((msg.data.drop msg.front).take size, { msg with
      front := msg.front + size }) :=
  if_neg (by omega)

theorem getData_error {msg : Message} {size : ℕ} (h : msg.data.length < msg.front + size) :
    msg.getData size = .error (.messageException .hasNotData) := if_pos h

end Message
end MyMMO
