/-
# What is written into a message

`operator<<` copies a value's bytes as they are in memory: integers little-endian in two's
complement, a `float` in its four bytes, an enumeration as an `int8_t`.
-/
import MyMMO.Contents
import Mathlib.Data.Int.Log

namespace MyMMO

/-- An `int16_t`. -/
def int16 (n : ℤ) : ℤ := n.bmod (2 ^ 16)

theorem int16_of_lt {n : ℤ} (h₁ : 0 ≤ n) (h₂ : n < 32768) : int16 n = n := by
  unfold int16
  rw [Int.bmod_def]
  omega

/-- A signed integer of `size` bytes in memory. -/
def intToBytes : ℕ → ℤ → List UInt8
  | 0, _ => []
  | size + 1, n => .ofNat (n % 256).toNat :: intToBytes size (n / 256)

@[simp] theorem intToBytes_length (size : ℕ) (n : ℤ) : (intToBytes size n).length = size := by
  induction size generalizing n with
  | zero => rfl
  | succ size ih => rw [intToBytes, List.length_cons, ih]

/-- A header in memory, as it is put. -/
theorem header_bytes (n : ℕ) : intToBytes 2 n ++ intToBytes 1 0 = Header.bytes n 0 := by
  have hlow : UInt8.ofNat ((n : ℤ) % 256).toNat = UInt8.ofNat n := by
    apply UInt8.toNat_inj.mp
    rw [UInt8.toNat_ofNat', UInt8.toNat_ofNat']
    omega
  have hhigh : UInt8.ofNat ((n : ℤ) / 256 % 256).toNat = UInt8.ofNat (n / 256) := by
    apply UInt8.toNat_inj.mp
    rw [UInt8.toNat_ofNat', UInt8.toNat_ofNat']
    omega
  simp only [intToBytes, hlow, hhigh]
  rfl

/-- The lowest byte and the others. -/
theorem emod_mul_eq (n : ℤ) {c : ℤ} (hc : 0 < c) :
    n % (256 * c) = n % 256 + 256 * (n / 256 % c) := by
  have h₁ := Int.emod_add_mul_ediv n 256
  have h₂ := Int.emod_add_mul_ediv (n / 256) c
  have hlo := Int.emod_nonneg (n / 256) hc.ne'
  have hhi := Int.emod_lt_of_pos (n / 256) hc
  refine ((Int.ediv_emod_unique (q := n / 256 / c) (by omega)).mpr ⟨?_, ?_, ?_⟩).2
  · linear_combination h₁ + 256 * h₂
  · omega
  · omega

theorem natOfBytes_intToBytes (size : ℕ) (n : ℤ) :
    (((intToBytes size n).foldr (fun b n => b.toNat + 256 * n) 0 : ℕ) : ℤ) = n % 2 ^
    (8 * size) := by
  induction size generalizing n with
  | zero => simp [intToBytes]
  | succ size ih =>
    have hbyte : ((UInt8.ofNat (n % 256).toNat).toNat : ℤ) = n % 256 := by
      rw [UInt8.toNat_ofNat']
      omega
    have hpow : (2 : ℤ) ^ (8 * (size + 1)) = 256 * 2 ^ (8 * size) := by
      rw [Nat.mul_succ, pow_add]
      ring
    rw [intToBytes, List.foldr_cons]
    push_cast
    rw [ih, hbyte, hpow, emod_mul_eq n (by positivity)]

/-- An integer in its range is read as it was written. -/
theorem intOfBytes_intToBytes {size : ℕ} (hsize : 0 < size) {n : ℤ} (h₁ : -2 ^ (8 * size - 1) ≤ n)
    (h₂ : n < 2 ^ (8 * size - 1)) : Message.intOfBytes (intToBytes size n) = n := by
  have hnat := natOfBytes_intToBytes size n
  obtain ⟨k, hk⟩ : ∃ k : ℕ, 8 * size = k + 1 := ⟨8 * size - 1, by omega⟩
  rw [hk, Nat.add_sub_cancel] at h₁ h₂
  rw [hk, pow_succ] at hnat
  have hhalf : 2 ^ (8 * (intToBytes size n).length) / 2 = 2 ^ k := by
    rw [intToBytes_length, hk, pow_succ, Nat.mul_div_cancel _ (by norm_num)]
  have hfull : (2 : ℤ) ^ (8 * (intToBytes size n).length) = 2 ^ k * 2 := by
    rw [intToBytes_length, hk, pow_succ]
  have hcast : ((2 ^ k : ℕ) : ℤ) = 2 ^ k := by norm_cast
  have hpos : (0 : ℤ) < 2 ^ k := by positivity
  unfold Message.intOfBytes
  dsimp only
  rw [hhalf, hfull]
  rcases le_or_gt 0 n with hn | hn
  · rw [Int.emod_eq_of_lt hn (by omega)] at hnat
    rw [if_pos (by omega), hnat]
  · have hmod : n % (2 ^ k * 2) = n + 2 ^ k * 2 := by
      rw [← Int.add_emod_right, Int.emod_eq_of_lt (by omega) (by omega)]
    rw [hmod] at hnat
    rw [if_neg (by omega), hnat]
    ring

/-- A `float` in memory. -/
class FloatBytes (F : Type) where
  floatBytes : F → List UInt8
  floatBytes_length : ∀ x, (floatBytes x).length = 4

attribute [simp] FloatBytes.floatBytes_length

/-- The IEEE single that is next to `x` towards 0; none is infinite or subnormal here. -/
def bytesOfSingle (x : ℚ) : List UInt8 :=
  if x = 0 then intToBytes 4 0
  else
    let exponent := Int.log 2 |x|
    let mantissa : ℤ := ⌊|x| * 2 ^ (23 - exponent)⌋ - 2 ^ 23
    let sign : ℤ := if x < 0 then 2 ^ 31 else 0
    intToBytes 4 (sign + (exponent + 127) * 2 ^ 23 + mantissa)

instance : FloatBytes ℚ where
  floatBytes := bytesOfSingle
  floatBytes_length x := by
    unfold bytesOfSingle
    dsimp only
    split_ifs
    · exact intToBytes_length 4 0
    all_goals exact intToBytes_length 4 _

namespace Message

/-- `msg << x << y << ...`, where the values are given by their bytes. -/
def putAll (msg : Message) (values : List (List UInt8)) : Except Stop Message :=
  values.foldlM putData msg

theorem putAll_ok {msg : Message} {values : List (List UInt8)}
    (h : msg.data.length + values.flatten.length ≤ BufferSize) :
    msg.putAll values = .ok { msg with data := msg.data ++ values.flatten } := by
  unfold putAll
  induction values generalizing msg with
  | nil => simp [pure, Except.pure]
  | cons v values ih =>
    rw [List.flatten_cons, List.length_append] at h
    rw [List.foldlM_cons, putData_ok (by omega)]
    show List.foldlM putData { msg with data := msg.data ++ v } values = _
    rw [ih (by rw [List.length_append]; omega), List.flatten_cons, List.append_assoc]

end Message

/-- `static_cast<int8_t>` of the enumerations. -/
def Field.PlayerState.toInt8 : Field.PlayerState → ℤ
  | .idle => 0
  | .move => 1
  | .attack => 2
  | .dead => 3
  | .stun => 4

def Field.MonsterState.toInt8 : Field.MonsterState → ℤ
  | .idle => 0
  | .move => 1
  | .chase => 2
  | .attack => 3
  | .stun => 4
  | .dead => 5
  | .return => 6

def Field.ItemId.toInt8 : Field.ItemId → ℤ
  | .gold => 0
  | .potion => 1
  | .max => 2

end MyMMO
