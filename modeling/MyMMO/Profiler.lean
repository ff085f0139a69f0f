/-
# The profiler

`CProfileManager` has thirty entries, each for the tag that took it first. An entry counts and adds
up the durations recorded under its tag, and keeps the three shortest and the three longest;
`CreateProfile` takes these six off before it divides, and stops the process if they come to more
than the whole.

They do not, as long as the sum fits into an `int64_t`: what an entry holds is a function of the
durations since the last reset (`Inv`), the six are the two ends of the sorted durations, and what
is left is the middle (`trimming`).
-/
import MyMMO.Common
import MyMMO.Lib.Extremes

namespace MyMMO
namespace Profiler

open Extremes

/-- `eConfig::EntryMaxSize`. -/
def EntryMaxSize : ℕ := 30

/-- `eConfig::AbnormalBufferSize`. -/
def AbnormalBufferSize : ℕ := 3

def INT_MAX : ℤ := 2147483647

/-- A value stored in an `int64_t`. -/
def toInt64 (n : ℤ) : ℤ := (n + 2 ^ 63) % 2 ^ 64 - 2 ^ 63

variable {Tag : Type}

/-- `none` is the tag `nullptr`; `min` and `max` are arrays of three. -/
structure ProfileEntry (Tag : Type) where
  tag : Option Tag
  totalTime : ℤ
  totalCnt : ℤ
  min : ℕ → ℤ
  max : ℕ → ℤ

namespace ProfileEntry

def new : ProfileEntry Tag := ⟨none, 0, 0, fun _ => INT_MAX, fun _ => 0⟩

def initEntry (e : ProfileEntry Tag) : ProfileEntry Tag :=
  { e with totalTime := 0, totalCnt := 0, min := fun _ => INT_MAX, max := fun _ => 0 }

/-- What `UpdateEntry` does with the entry of the tag. -/
def record (e : ProfileEntry Tag) (distanceTime : ℤ) : ProfileEntry Tag :=
  { e with
    totalCnt := toInt64 (e.totalCnt + 1)
    totalTime := toInt64 (e.totalTime + distanceTime)
    min := keep (· ≤ ·) AbnormalBufferSize e.min distanceTime
    max := keep (· ≥ ·) AbnormalBufferSize e.max distanceTime }

end ProfileEntry

structure CProfileManager (Tag : Type) where
  entrys : ℕ → ProfileEntry Tag
  freeIndex : List ℕ

/-- A line of the profile: the tag and its count, and what the average is the quotient of. -/
structure Row (Tag : Type) where
  tag : Option Tag
  totalCnt : ℤ
  totalTime : ℤ
  divisor : ℤ

namespace CProfileManager

/-- The free indices are a stack with 0 on top. -/
def new : CProfileManager Tag := ⟨fun _ => .new, List.range EntryMaxSize⟩

section

variable [DecidableEq Tag]

/-- The first entry with the tag. -/
def find (m : CProfileManager Tag) (tag : Tag) : Option ℕ :=
  (List.range EntryMaxSize).find? fun i => (m.entrys i).tag = some tag

def updateEntry (m : CProfileManager Tag) (tag : Tag) (distanceTime : ℤ) :
    Except Stop (CProfileManager Tag) :=
  match m.find tag with
  | some i => .ok { m with entrys := Function.update m.entrys i ((m.entrys i).record distanceTime) }
  | none =>
    match m.freeIndex with
    | [] => .error .debugBreak
    | idx :: freeIndex =>
      let entry := { m.entrys idx with tag := some tag }
      .ok ⟨Function.update m.entrys idx (entry.record distanceTime), freeIndex⟩

end

def resetEntry (m : CProfileManager Tag) : CProfileManager Tag :=
  { m with entrys := fun i => if i < EntryMaxSize then (m.entrys i).initEntry else m.entrys i }

/-- `abnormalSum`. -/
def abnormalSum (e : ProfileEntry Tag) : ℤ :=
  (List.range AbnormalBufferSize).foldl (fun sum j => toInt64 (toInt64 (sum + e.min j) + e.max j)) 0

/-- A round of the loop in `CreateProfile`. -/
def profileRow (e : ProfileEntry Tag) : Except Stop (Option (Row Tag)) :=
  if (AbnormalBufferSize : ℤ) * 2 < e.totalCnt then
    if e.totalTime < abnormalSum e then .error .debugBreak
    else .ok (some ⟨e.tag, e.totalCnt, toInt64 (e.totalTime - abnormalSum e),
      toInt64 (e.totalCnt - AbnormalBufferSize * 2)⟩)
  else .ok none

def profileRows (m : CProfileManager Tag) : List ℕ → Except Stop (List (Row Tag))
  | [] => .ok []
  | i :: rest => do
    let row ← profileRow (m.entrys i)
    let rows ← m.profileRows rest
    return row.toList ++ rows

def createProfile (m : CProfileManager Tag) : Except Stop (List (Row Tag)) :=
  m.profileRows (List.range EntryMaxSize)

end CProfileManager

inductive Op (Tag : Type)
  | updateEntry (tag : Tag) (distanceTime : ℤ)
  | resetEntry

/-- A duration below `INT_MAX`. -/
def Op.Valid : Op Tag → Prop
  | .updateEntry _ distanceTime => 0 ≤ distanceTime ∧ distanceTime < INT_MAX
  | .resetEntry => True

instance : (op : Op Tag) → Decidable op.Valid
  | .updateEntry _ _ => inferInstanceAs (Decidable (_ ∧ _))
  | .resetEntry => inferInstanceAs (Decidable True)

section

variable [DecidableEq Tag]

def apply (m : CProfileManager Tag) : Op Tag → Except Stop (CProfileManager Tag)
  | .updateEntry tag distanceTime => m.updateEntry tag distanceTime
  | .resetEntry => .ok m.resetEntry

def run (ops : List (Op Tag)) : Except Stop (CProfileManager Tag) := ops.foldlM apply .new

/-- The durations recorded under each tag since the last reset. -/
def note (log : Tag → List ℤ) : Op Tag → Tag → List ℤ
  | .updateEntry tag distanceTime => Function.update log tag (log tag ++ [distanceTime])
  | .resetEntry => fun _ => []

def samples (ops : List (Op Tag)) : Tag → List ℤ := ops.foldl note fun _ => []

end

/-! ### An entry and its durations -/

theorem toInt64_eq {n : ℤ} (h0 : -2 ^ 63 ≤ n) (h1 : n < 2 ^ 63) : toInt64 n = n := by
  unfold toInt64
  omega

theorem toInt64_add (n m : ℤ) : toInt64 (toInt64 n + m) = toInt64 (n + m) := by
  unfold toInt64
  omega

/-- The entry holds the durations `l`. -/
structure Holds (e : ProfileEntry Tag) (l : List ℤ) : Prop where
  totalCnt : e.totalCnt = toInt64 l.length
  totalTime : e.totalTime = toInt64 l.sum
  min : Keeps (· ≤ ·) 3 INT_MAX e.min l
  max : Keeps (· ≥ ·) 3 0 e.max l

theorem holds_nil (tag : Option Tag) : Holds ⟨tag, 0, 0, fun _ => INT_MAX, fun _ => 0⟩ [] :=
  ⟨rfl, rfl, .start 3 INT_MAX, .start 3 0⟩

theorem Holds.record {e : ProfileEntry Tag} {l : List ℤ} (h : Holds e l) (distanceTime : ℤ) :
    Holds (e.record distanceTime) (l ++ [distanceTime]) := by
  refine ⟨?_, ?_, h.min.keep distanceTime, h.max.keep distanceTime⟩
  · show toInt64 (e.totalCnt + 1) = _
    rw [h.totalCnt, toInt64_add, List.length_append, List.length_singleton]
    push_cast
    rfl
  · show toInt64 (e.totalTime + distanceTime) = _
    rw [h.totalTime, toInt64_add, List.sum_append, List.sum_singleton]

/-- The samples left without the three shortest and the three longest. -/
def left (l : List ℤ) : List ℤ := ((l.insertionSort (· ≤ ·)).drop 3).take (l.length - 6)

theorem left_length {l : List ℤ} (h : 6 < l.length) : (left l).length = l.length - 6 := by
  unfold left
  rw [List.length_take, List.length_drop, List.length_insertionSort]
  omega

theorem insertionSort_ge (l : List ℤ) :
    l.insertionSort (· ≥ ·) = (l.insertionSort (· ≤ ·)).reverse := by
  have hperm : (l.insertionSort (· ≥ ·)).Perm (l.insertionSort (· ≤ ·)).reverse :=
    calc (l.insertionSort (· ≥ ·)).Perm l := List.perm_insertionSort _ l
      List.Perm _ (l.insertionSort (· ≤ ·)) := (List.perm_insertionSort _ l).symm
      List.Perm _ (l.insertionSort (· ≤ ·)).reverse := (List.reverse_perm _).symm
  apply hperm.eq_of_pairwise' (List.pairwise_insertionSort (· ≥ ·) l)
  rw [List.pairwise_reverse]
  exact List.pairwise_insertionSort (· ≤ ·) l

/-- The two ends and what is left are all. -/
theorem sum_eq {l : List ℤ} (h : 6 < l.length) : l.sum = ((l.insertionSort (· ≤ ·)).take 3).sum +
    (left l).sum + ((l.insertionSort (· ≥ ·)).take 3).sum := by
  obtain ⟨s, hs⟩ : ∃ s, s = l.insertionSort (· ≤ ·) := ⟨_, rfl⟩
  have hlen : s.length = l.length := by rw [hs, List.length_insertionSort]
  have hsum : l.sum = s.sum := by
    rw [hs]
    exact (List.perm_insertionSort _ l).sum_eq.symm
  have hrest : (s.drop 3).drop (l.length - 6) = s.drop (s.length - 3) := by
    rw [List.drop_drop, hlen]
    congr 1
    omega
  unfold left
  rw [insertionSort_ge, ← hs, List.take_reverse, List.sum_reverse, ← hrest, hsum, add_assoc,
    List.sum_take_add_sum_drop, List.sum_take_add_sum_drop]

/-- The entry holds the three shortest and the three longest of the durations `l`. -/
structure Extremes (e : ProfileEntry Tag) (l : List ℤ) : Prop where
  min : cells e.min 3 = (l.insertionSort (· ≤ ·) ++ List.replicate 3 INT_MAX).take 3
  max : cells e.max 3 = (l.insertionSort (· ≥ ·) ++ List.replicate 3 0).take 3

/-- The entry is that of the durations `l`. -/
structure Exact (e : ProfileEntry Tag) (l : List ℤ) : Prop extends Extremes e l where
  totalCnt : e.totalCnt = l.length
  totalTime : e.totalTime = l.sum
  trimmed : 6 < e.totalCnt → (cells e.min 3).sum + (cells e.max 3).sum ≤ e.totalTime

section

variable {e : ProfileEntry Tag} {l : List ℤ}

/-- With more than six durations the six trimmed values are durations. -/
theorem ends_sum
    (hmin : cells e.min 3 = (l.insertionSort (· ≤ ·) ++ List.replicate 3 INT_MAX).take 3)
    (hmax : cells e.max 3 = (l.insertionSort (· ≥ ·) ++ List.replicate 3 0).take 3)
    (h : 6 < l.length) :
    l.sum = (cells e.min 3).sum + (left l).sum + (cells e.max 3).sum := by
  rw [hmin, hmax, List.take_append_of_le_length (by rw [List.length_insertionSort]; omega),
    List.take_append_of_le_length (by rw [List.length_insertionSort]; omega)]
  exact sum_eq h

theorem left_nonneg (hl : ∀ d ∈ l, 0 ≤ d) : 0 ≤ (left l).sum := by
  apply List.sum_nonneg
  intro d hd
  exact hl d ((List.mem_insertionSort _).mp (List.mem_of_mem_drop (List.mem_of_mem_take hd)))

theorem Holds.extremes (h : Holds e l) (hl : ∀ d ∈ l, 0 ≤ d ∧ d < INT_MAX) : Extremes e l :=
  ⟨h.min.cells_eq fun d hd => (hl d hd).2.le, h.max.cells_eq fun d hd => (hl d hd).1⟩

theorem Holds.exact (h : Holds e l) (hl : ∀ d ∈ l, 0 ≤ d ∧ d < INT_MAX)
    (hcnt : (l.length : ℤ) < 2 ^ 63) (hsum : l.sum < 2 ^ 63) : Exact e l := by
  have hpos : 0 ≤ l.sum := List.sum_nonneg fun d hd => (hl d hd).1
  have hextremes := h.extremes hl
  have htotalCnt : e.totalCnt = l.length := by rw [h.totalCnt, toInt64_eq (by omega) hcnt]
  have htotalTime : e.totalTime = l.sum := by rw [h.totalTime, toInt64_eq (by omega) hsum]
  refine ⟨hextremes, htotalCnt, htotalTime, fun hmany => ?_⟩
  rw [htotalCnt] at hmany
  have hends := ends_sum hextremes.min hextremes.max (by exact_mod_cast hmany)
  have hleft := left_nonneg fun d hd => (hl d hd).1
  rw [htotalTime]
  omega

/-- A cell is a duration or a filler. -/
theorem cell_bounds {r : ℤ → ℤ → Prop} [DecidableRel r] {a : ℕ → ℤ} {pad : ℤ}
    (ha : cells a 3 = (l.insertionSort r ++ List.replicate 3 pad).take 3)
    (hl : ∀ d ∈ l, 0 ≤ d ∧ d < INT_MAX) (hpad : 0 ≤ pad ∧ pad ≤ INT_MAX) {j : ℕ} (hj : j < 3) :
    0 ≤ a j ∧ a j ≤ INT_MAX := by
  have hmem : a j ∈ cells a 3 := List.mem_map.mpr ⟨j, List.mem_range.mpr hj, rfl⟩
  rw [ha] at hmem
  rcases List.mem_append.mp (List.mem_of_mem_take hmem) with hsort | hfill
  · have hd := hl _ ((List.mem_insertionSort r).mp hsort)
    exact ⟨hd.1, hd.2.le⟩
  · rw [List.eq_of_mem_replicate hfill]
    exact hpad

theorem Exact.abnormalSum_eq (h : Exact e l) (hl : ∀ d ∈ l, 0 ≤ d ∧ d < INT_MAX) :
    CProfileManager.abnormalSum e = (cells e.min 3).sum + (cells e.max 3).sum := by
  have hmin : ∀ j < 3, 0 ≤ e.min j ∧ e.min j ≤ INT_MAX :=
    fun j hj => cell_bounds h.min hl (by decide) hj
  have hmax : ∀ j < 3, 0 ≤ e.max j ∧ e.max j ≤ INT_MAX :=
    fun j hj => cell_bounds h.max hl (by decide) hj
  have hmin0 := hmin 0 (by decide)
  have hmin1 := hmin 1 (by decide)
  have hmin2 := hmin 2 (by decide)
  have hmax0 := hmax 0 (by decide)
  have hmax1 := hmax 1 (by decide)
  have hmax2 := hmax 2 (by decide)
  have hunfold : CProfileManager.abnormalSum e =
      toInt64 (e.min 0 + e.max 0 + e.min 1 + e.max 1 + e.min 2 + e.max 2) := by
    show toInt64 (toInt64 (toInt64 (toInt64 (toInt64 (toInt64 (0 + e.min 0) + e.max 0) + e.min 1) +
      e.max 1) + e.min 2) + e.max 2) = _
    simp only [toInt64_add, zero_add]
  have hcells : (cells e.min 3).sum + (cells e.max 3).sum =
      e.min 0 + e.max 0 + e.min 1 + e.max 1 + e.min 2 + e.max 2 := by
    show e.min 0 + (e.min 1 + (e.min 2 + 0)) + (e.max 0 + (e.max 1 + (e.max 2 + 0))) = _
    ring
  unfold INT_MAX at *
  rw [hunfold, hcells, toInt64_eq (by omega) (by omega)]

/-- The line of an entry is made of what is left. -/
theorem Exact.profileRow (h : Exact e l) (hl : ∀ d ∈ l, 0 ≤ d ∧ d < INT_MAX)
    (hcnt : (l.length : ℤ) < 2 ^ 63) (hsum : l.sum < 2 ^ 63) : CProfileManager.profileRow e =
      .ok
        (if 6 < l.length then some ⟨e.tag, l.length, (left l).sum, (left l).length⟩ else none) := by
  unfold CProfileManager.profileRow
  rw [h.abnormalSum_eq hl]
  have hthreshold : ((AbnormalBufferSize : ℤ) * 2 < e.totalCnt) ↔ 6 < l.length := by
    rw [h.totalCnt]
    show (3 : ℤ) * 2 < l.length ↔ _
    omega
  by_cases hmany : 6 < l.length
  · have hends := ends_sum h.min h.max hmany
    have hleft := left_nonneg fun d hd => (hl d hd).1
    have htrimmed := h.trimmed (by rw [h.totalCnt]; exact_mod_cast hmany)
    have htotal := h.totalTime
    have hsmall : (left l).sum ≤ l.sum := by
      have hmin : 0 ≤ (cells e.min 3).sum := List.sum_nonneg fun c hc => by
        obtain ⟨j, hj, rfl⟩ := List.mem_map.mp hc
        exact (cell_bounds h.min hl (by decide) (List.mem_range.mp hj)).1
      have hmax : 0 ≤ (cells e.max 3).sum := List.sum_nonneg fun c hc => by
        obtain ⟨j, hj, rfl⟩ := List.mem_map.mp hc
        exact (cell_bounds h.max hl (by decide) (List.mem_range.mp hj)).1
      omega
    rw [if_pos (hthreshold.mpr hmany), if_neg (not_lt.mpr htrimmed), if_pos hmany]
    have htime : e.totalTime - ((cells e.min 3).sum + (cells e.max 3).sum) = (left l).sum := by
      omega
    have hdivisor : e.totalCnt - (AbnormalBufferSize : ℤ) * 2 = (left l).length := by
      rw [h.totalCnt, left_length hmany]
      show (l.length : ℤ) - 3 * 2 = _
      omega
    rw [htime, hdivisor, toInt64_eq (by omega) (by omega), h.totalCnt, toInt64_eq (by omega)]
    rw [left_length hmany]
    omega
  · rw [if_neg (mt hthreshold.mp hmany), if_neg hmany]

end

/-! ### The manager -/

section

variable [DecidableEq Tag] {m m' : CProfileManager Tag} {log : Tag → List ℤ}

/-- What the log holds for an entry. -/
def logged (log : Tag → List ℤ) (tag : Option Tag) : List ℤ := (tag.map log).getD []

/-- Every entry holds the durations of its tag, no two entries have the same, and what is recorded
has one. -/
structure Inv (log : Tag → List ℤ) (m : CProfileManager Tag) : Prop where
  holds : ∀ i < EntryMaxSize, Holds (m.entrys i) (logged log (m.entrys i).tag)
  tags : ∀ i < EntryMaxSize, ∀ j < EntryMaxSize, ∀ tag, (m.entrys i).tag = some tag →
    (m.entrys j).tag = some tag → i = j
  free : ∀ i ∈ m.freeIndex, i < EntryMaxSize ∧ (m.entrys i).tag = none
  nodup : m.freeIndex.Nodup
  found : ∀ tag, log tag ≠ [] → ∃ i < EntryMaxSize, (m.entrys i).tag = some tag

omit [DecidableEq Tag] in
theorem inv_new : Inv (fun _ : Tag => []) CProfileManager.new where
  holds _ _ := holds_nil none
  tags i _ j _ tag hi _ := by cases hi
  free i hi := ⟨List.mem_range.mp hi, rfl⟩
  nodup := List.nodup_range
  found _ h := absurd rfl h

theorem find_some {tag : Tag} {i : ℕ} (h : m.find tag = some i) :
    i < EntryMaxSize ∧ (m.entrys i).tag = some tag :=
  ⟨List.mem_range.mp (List.mem_of_find?_eq_some h), by simpa using List.find?_some h⟩

theorem find_none {tag : Tag} (h : m.find tag = none) :
    ∀ i < EntryMaxSize, (m.entrys i).tag ≠ some tag := by
  intro i hi
  simpa using List.find?_eq_none.mp h i (List.mem_range.mpr hi)

/-- Recording in the entry `i`, which has the tag or is free. -/
theorem Inv.record (h : Inv log m)
    {tag : Tag} {i : ℕ} {freeIndex : List ℕ} {entry : ProfileEntry Tag}
    (distanceTime : ℤ) (hi : i < EntryMaxSize) (hentry : Holds entry (log tag))
    (hnew : entry.tag = some tag) (hother : ∀ j < EntryMaxSize, (m.entrys j).tag = some tag → j = i)
    (hsub : freeIndex.Sublist m.freeIndex) (hfree : i ∉ freeIndex)
    (htag : ∀ t, (m.entrys i).tag = some t → t = tag) :
    Inv (Function.update log tag (log tag ++ [distanceTime]))
      ⟨Function.update m.entrys i (entry.record distanceTime), freeIndex⟩ := by
  have hrecord : (entry.record distanceTime).tag = some tag := hnew
  have htags : ∀ j < EntryMaxSize, ∀ t,
      (Function.update m.entrys i (entry.record distanceTime) j).tag = some t →
      j = i ∧ t = tag ∨ j ≠ i ∧ t ≠ tag ∧ (m.entrys j).tag = some t := by
    intro j hj t ht
    by_cases hji : j = i
    · left
      rw [hji, Function.update_self, hrecord] at ht
      exact ⟨hji, (Option.some.inj ht).symm⟩
    · right
      rw [Function.update_of_ne hji] at ht
      refine ⟨hji, ?_, ht⟩
      rintro rfl
      exact hji (hother j hj ht)
  constructor
  · intro j hj
    by_cases hji : j = i
    · have hlog : logged (Function.update log tag (log tag ++ [distanceTime])) (some tag) =
          log tag ++ [distanceTime] :=
        Function.update_self _ _ _
      dsimp only
      rw [hji, Function.update_self, hrecord, hlog]
      exact hentry.record distanceTime
    · dsimp only
      rw [Function.update_of_ne hji]
      have hsame : logged (Function.update log tag (log tag ++ [distanceTime])) (m.entrys j).tag =
          logged log (m.entrys j).tag := by
        cases ht : (m.entrys j).tag with
        | none => rfl
        | some t =>
          have hne : t ≠ tag := by
            rintro rfl
            exact hji (hother j hj ht)
          exact Function.update_of_ne hne _ _
      rw [hsame]
      exact h.holds j hj
  · intro j hj k hk t hjt hkt
    rcases htags j hj t hjt with ⟨rfl, rfl⟩ | ⟨-, hne, hjt⟩
    · rcases htags k hk t hkt with ⟨rfl, -⟩ | ⟨-, hne, -⟩
      · rfl
      · exact absurd rfl hne
    · rcases htags k hk t hkt with ⟨-, rfl⟩ | ⟨-, -, hkt⟩
      · exact absurd rfl hne
      · exact h.tags j hj k hk t hjt hkt
  · intro j hj
    have hji : j ≠ i := by
      rintro rfl
      exact hfree hj
    dsimp only
    rw [Function.update_of_ne hji]
    exact h.free j (hsub.subset hj)
  · exact h.nodup.sublist hsub
  · intro t ht
    by_cases hne : t = tag
    · refine ⟨i, hi, ?_⟩
      rw [hne]
      dsimp only
      rw [Function.update_self]
      exact hrecord
    · rw [Function.update_of_ne hne] at ht
      obtain ⟨j, hj, hjt⟩ := h.found t ht
      have hji : j ≠ i := by
        rintro rfl
        exact hne (htag t hjt)
      refine ⟨j, hj, ?_⟩
      dsimp only
      rw [Function.update_of_ne hji]
      exact hjt

theorem Inv.updateEntry (h : Inv log m) {tag : Tag} {distanceTime : ℤ}
    (he : m.updateEntry tag distanceTime = .ok m') :
    Inv (Function.update log tag (log tag ++ [distanceTime])) m' := by
  unfold CProfileManager.updateEntry at he
  cases hfind : m.find tag with
  | some i =>
    rw [hfind] at he
    cases he
    obtain ⟨hi, htag⟩ := find_some hfind
    have hholds := h.holds i hi
    rw [htag] at hholds
    exact h.record distanceTime hi hholds htag (fun j hj hjt => h.tags j hj i hi tag hjt htag)
      (.refl _) (fun hmem => by rw [(h.free i hmem).2] at htag; cases htag)
      (fun t ht => Option.some.inj (ht.symm.trans htag))
  | none =>
    rw [hfind] at he
    have hnone := find_none hfind
    cases hfree : m.freeIndex with
    | nil =>
      simp only [hfree] at he
      cases he
    | cons idx freeIndex =>
      simp only [hfree] at he
      cases he
      obtain ⟨hi, htag⟩ := h.free idx (by rw [hfree]; exact List.mem_cons_self)
      have hnodup := h.nodup
      rw [hfree, List.nodup_cons] at hnodup
      have hempty : log tag = [] := by
        by_contra hne
        obtain ⟨i, hi, ht⟩ := h.found tag hne
        exact hnone i hi ht
      have hholds := h.holds idx hi
      rw [htag] at hholds
      apply h.record distanceTime hi
      · rw [hempty]
        exact ⟨hholds.totalCnt, hholds.totalTime, hholds.min, hholds.max⟩
      · rfl
      · exact fun j hj hjt => absurd hjt (hnone j hj)
      · rw [hfree]
        exact List.sublist_cons_self _ _
      · exact hnodup.1
      · intro t ht
        rw [htag] at ht
        cases ht

omit [DecidableEq Tag] in
theorem Inv.resetEntry (h : Inv log m) : Inv (fun _ => []) m.resetEntry := by
  have htag : ∀ i, (m.resetEntry.entrys i).tag = (m.entrys i).tag := by
    intro i
    show (if i < EntryMaxSize then (m.entrys i).initEntry else m.entrys i).tag = _
    split_ifs <;> rfl
  constructor
  · intro i hi
    have hlog : logged (fun _ : Tag => ([] : List ℤ)) (m.resetEntry.entrys i).tag = [] := by
      unfold logged
      cases (m.resetEntry.entrys i).tag <;> rfl
    rw [hlog]
    show Holds (if i < EntryMaxSize then (m.entrys i).initEntry else m.entrys i) []
    rw [if_pos hi]
    exact holds_nil _
  · intro i hi j hj tag hit hjt
    rw [htag] at hit hjt
    exact h.tags i hi j hj tag hit hjt
  · intro i hi
    rw [htag]
    exact h.free i hi
  · exact h.nodup
  · exact fun _ hne => absurd rfl hne

theorem Inv.apply (h : Inv log m) {op : Op Tag} (he : apply m op = .ok m') :
    Inv (note log op) m' := by
  cases op with
  | updateEntry tag distanceTime => exact h.updateEntry he
  | resetEntry =>
    cases he
    exact h.resetEntry

theorem Inv.foldlM (h : Inv log m) {ops : List (Op Tag)}
    (he : ops.foldlM Profiler.apply m = .ok m') :
    Inv (ops.foldl note log) m' := by
  induction ops generalizing m log with
  | nil =>
    cases he
    exact h
  | cons op ops ih =>
    rw [List.foldlM_cons] at he
    cases happly : Profiler.apply m op with
    | error stop =>
      rw [happly] at he
      cases he
    | ok next =>
      rw [happly] at he
      exact ih (h.apply happly) he

theorem inv_run {ops : List (Op Tag)} (he : run ops = .ok m) : Inv (samples ops) m :=
  inv_new.foldlM he

/-- Only valid durations are noted. -/
theorem note_valid {log : Tag → List ℤ} (hlog : ∀ tag, ∀ d ∈ log tag, 0 ≤ d ∧ d < INT_MAX)
    {op : Op Tag} (hop : op.Valid) :
    ∀ tag, ∀ d ∈ note log op tag, 0 ≤ d ∧ d < INT_MAX := by
  intro tag d hd
  cases op with
  | updateEntry t distanceTime =>
    simp only [note] at hd
    by_cases htag : tag = t
    · rw [htag, Function.update_self] at hd
      rcases List.mem_append.mp hd with hd | hd
      · exact hlog t d hd
      · rw [List.mem_singleton.mp hd]
        exact hop
    · rw [Function.update_of_ne htag] at hd
      exact hlog tag d hd
  | resetEntry => cases hd

theorem samples_valid {ops : List (Op Tag)} (hops : ∀ op ∈ ops, op.Valid) (tag : Tag) :
    ∀ d ∈ samples ops tag, 0 ≤ d ∧ d < INT_MAX := by
  have hfold : ∀ (ops : List (Op Tag)) (log : Tag → List ℤ), (∀ op ∈ ops, op.Valid) →
      (∀ tag, ∀ d ∈ log tag, 0 ≤ d ∧ d < INT_MAX) → ∀ tag, ∀ d ∈ ops.foldl note log tag,
        0 ≤ d ∧ d < INT_MAX := by
    intro ops
    induction ops with
    | nil => exact fun log _ hlog => hlog
    | cons op ops ih =>
      intro log hops hlog
      exact ih _ (fun o ho => hops o (List.mem_cons_of_mem _ ho))
        (note_valid hlog (hops op List.mem_cons_self))
  exact hfold ops _ hops (fun _ d hd => by cases hd) tag

end

/-- The line of the entry `i`, of what is left of its durations. -/
def exactRow (log : Tag → List ℤ) (m : CProfileManager Tag) (i : ℕ) : Option (Row Tag) :=
  (m.entrys i).tag.bind fun tag =>
    if 6 < (log tag).length then
      some ⟨some tag, (log tag).length, (left (log tag)).sum, (left (log tag)).length⟩ else none

theorem profileRows_eq {log : Tag → List ℤ} {m : CProfileManager Tag} (is : List ℕ)
    (h : ∀ i ∈ is, CProfileManager.profileRow (m.entrys i) = .ok (exactRow log m i)) :
    m.profileRows is = .ok (is.filterMap (exactRow log m)) := by
  induction is with
  | nil => rfl
  | cons i is ih =>
    unfold CProfileManager.profileRows
    rw [h i List.mem_cons_self, ih fun j hj => h j (List.mem_cons_of_mem _ hj), List.filterMap_cons]
    cases exactRow log m i <;> rfl

/-- The durations come to what fits into an `int64_t`. -/
def Fits (l : List ℤ) : Prop := (l.length : ℤ) < 2 ^ 63 ∧ l.sum < 2 ^ 63

instance (l : List ℤ) : Decidable (Fits l) := inferInstanceAs (Decidable (_ ∧ _))

/-- Whatever is recorded under whatever tags: the entry of a tag holds the three shortest and the
three longest durations; if they fit, also their count and sum, and its line divides what is left;
and `CreateProfile` gets through if all of them fit. -/
theorem trimming [DecidableEq Tag] {ops : List (Op Tag)} {m : CProfileManager Tag}
    (hops : ∀ op ∈ ops, op.Valid) (hrun : run ops = .ok m) :
    (∀ tag, samples ops tag ≠ [] → ∃ i < EntryMaxSize, (m.entrys i).tag = some tag) ∧
    (∀ i < EntryMaxSize, ∀ tag, (m.entrys i).tag = some tag →
        Extremes (m.entrys i) (samples ops tag)) ∧
    (∀ i < EntryMaxSize, ∀ tag, (m.entrys i).tag = some tag → Fits (samples ops tag) →
      Exact (m.entrys i) (samples ops tag) ∧
        CProfileManager.profileRow (m.entrys i) = .ok (exactRow (samples ops) m i)) ∧
    ((∀ tag, Fits (samples ops tag)) →
      m.createProfile = .ok ((List.range EntryMaxSize).filterMap (exactRow (samples ops) m))) := by
  have hinv := inv_run hrun
  have hentry : ∀ i < EntryMaxSize, ∀ tag, (m.entrys i).tag = some tag → Fits (samples ops tag) →
      Exact (m.entrys i) (samples ops tag) ∧
        CProfileManager.profileRow (m.entrys i) = .ok (exactRow (samples ops) m i) := by
    intro i hi tag htag hfits
    have hholds := hinv.holds i hi
    rw [htag] at hholds
    have hexact := hholds.exact (samples_valid hops tag) hfits.1 hfits.2
    refine ⟨hexact, ?_⟩
    rw [hexact.profileRow (samples_valid hops tag) hfits.1 hfits.2]
    unfold exactRow
    rw [htag]
    rfl
  have hextremes : ∀ i < EntryMaxSize, ∀ tag, (m.entrys i).tag = some tag →
      Extremes (m.entrys i) (samples ops tag) := by
    intro i hi tag htag
    have hholds := hinv.holds i hi
    rw [htag] at hholds
    exact hholds.extremes (samples_valid hops tag)
  refine ⟨hinv.found, hextremes, hentry, fun hfits => profileRows_eq _ fun i hi => ?_⟩
  have hi := List.mem_range.mp hi
  cases htag : (m.entrys i).tag with
  | none =>
    have hholds := hinv.holds i hi
    have hnil : logged (samples ops) none = [] := rfl
    rw [htag, hnil] at hholds
    have hempty : Exact (m.entrys i) [] :=
      hholds.exact (fun d hd => by cases hd) (by decide) (by decide)
    rw [hempty.profileRow (fun d hd => by cases hd) (by decide) (by decide)]
    unfold exactRow
    rw [htag]
    rfl
  | some tag => exact (hentry i hi tag htag (hfits tag)).2

/-- The same duration `n` times. -/
def repeated (n : ℕ) (distanceTime : ℤ) : List (Op Unit) :=
  List.replicate n (.updateEntry () distanceTime)

theorem samples_repeated (n : ℕ) (distanceTime : ℤ) :
    samples (repeated n distanceTime) () = List.replicate n distanceTime := by
  have hnote : ∀ log : Unit → List ℤ, note log (.updateEntry () distanceTime) () = log () ++
      [distanceTime] := by
    intro log
    simp only [note, Function.update_self]
  induction n with
  | zero => rfl
  | succ n ih =>
    unfold samples repeated at ih ⊢
    rw [List.replicate_succ', List.foldl_append, List.replicate_succ', List.foldl_cons,
      List.foldl_nil, hnote, ih]

theorem repeated_valid (n : ℕ) {distanceTime : ℤ} (h : 0 ≤ distanceTime ∧ distanceTime < INT_MAX) :
    ∀ op ∈ repeated n distanceTime, op.Valid := by
  intro op hop
  rw [List.eq_of_mem_replicate hop]
  exact h

theorem run_repeated (n : ℕ) (distanceTime : ℤ) : ∃ m, run (repeated n distanceTime) = .ok m := by
  induction n with
  | zero => exact ⟨.new, rfl⟩
  | succ n ih =>
    obtain ⟨m, hm⟩ := ih
    have hstep : run (repeated (n + 1) distanceTime) = m.updateEntry () distanceTime := by
      unfold run repeated at hm ⊢
      rw [List.replicate_succ', List.foldlM_append, hm]
      show (m.updateEntry () distanceTime).bind _ = _
      cases m.updateEntry () distanceTime <;> rfl
    rw [hstep]
    unfold CProfileManager.updateEntry
    cases hfind : m.find () with
    | some i => exact ⟨_, rfl⟩
    | none =>
      cases n with
      | zero =>
        obtain rfl : CProfileManager.new = m := Except.ok.inj hm
        exact ⟨_, rfl⟩
      | succ n =>
        have hsome : samples (repeated (n + 1) distanceTime) () ≠ [] := by
          rw [samples_repeated, List.replicate_succ]
          exact List.cons_ne_nil _ _
        obtain ⟨i, hi, htag⟩ := (inv_run hm).found () hsome
        exact absurd htag (find_none hfind i hi)

/-- What the entry adds up is what fits into 64 bits. -/
theorem totalTime_repeated {n : ℕ} {distanceTime : ℤ} {m : CProfileManager Unit}
    (hm : run (repeated n distanceTime) = .ok m) (hn : n ≠ 0) : ∃ i < EntryMaxSize,
    (m.entrys i).tag = some () ∧ (m.entrys i).totalTime = toInt64 (n * distanceTime) := by
  have hinv := inv_run hm
  have hsamples := samples_repeated n distanceTime
  have hsome : samples (repeated n distanceTime) () ≠ [] := by
    intro hnil
    have hlen := congrArg List.length (hsamples.symm.trans hnil)
    rw [List.length_replicate] at hlen
    exact hn hlen
  obtain ⟨i, hi, htag⟩ := hinv.found () hsome
  refine ⟨i, hi, htag, ?_⟩
  have hholds := (hinv.holds i hi).totalTime
  have hlogged : logged (samples (repeated n distanceTime)) (m.entrys i).tag =
      List.replicate n distanceTime := by
    rw [htag]
    exact hsamples
  rw [hholds, hlogged, List.sum_replicate, nsmul_eq_mul]

/-- Durations of almost `INT_MAX`, somewhat more than 2^32 of them, do not fit. -/
theorem repeated_not_exact :
    ¬∀ (ops : List (Op Unit)) (m : CProfileManager Unit), (∀ op ∈ ops, op.Valid) → run ops = .ok m →
    ∀ i < EntryMaxSize, ∀ tag, (m.entrys i).tag = some tag →
      Exact (m.entrys i) (samples ops tag) := by
  intro h
  obtain ⟨m, hm⟩ := run_repeated 4294967304 2147483646
  obtain ⟨i, hi, htag, htotal⟩ := totalTime_repeated hm (by decide)
  have hexact := (h _ m (repeated_valid _ (by decide)) hm i hi () htag).totalTime
  rw [htotal, samples_repeated, List.sum_replicate, nsmul_eq_mul] at hexact
  have hwrapped : toInt64 ((4294967304 : ℕ) * 2147483646) < 0 := by
    unfold toInt64
    norm_num
  rw [hexact] at hwrapped
  norm_num at hwrapped

/-- Seven durations, and those of another tag that are reset. -/
def sevenDurations : List (Op Bool) :=
  [.updateEntry true 8, .resetEntry] ++ [5, 1, 4, 1, 3, 9, 2].map (.updateEntry false)

theorem trimming_sevenDurations : ∃ m, run sevenDurations = .ok m ∧
    (∃ i < EntryMaxSize, Exact (m.entrys i) [5, 1, 4, 1, 3, 9, 2]) ∧
    ∃ rows, m.createProfile = .ok rows := by
  obtain ⟨m, hm⟩ : ∃ m, run sevenDurations = .ok m := ⟨_, rfl⟩
  have hsamples : samples sevenDurations = fun tag => if tag then [] else
      [5, 1, 4, 1, 3, 9, 2] := by
    funext tag
    cases tag <;> rfl
  have h := trimming (m := m) (by decide) hm
  rw [hsamples] at h
  obtain ⟨i, hi, htag⟩ := h.1 false (by decide)
  exact ⟨m, hm, ⟨i, hi, (h.2.2.1 i hi false htag (by decide)).1⟩, _, h.2.2.2 (by decide)⟩

end Profiler
end MyMMO
