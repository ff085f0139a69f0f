/-
# The tie loop of RankingQuery

`dbThread` sorts each run of equal scores in place: an index stands at the beginning of a run, a
second one looks for its end, the times of the members are fetched and parsed, and `std::sort` gets
the part between the two. `sortTies` says the same of the runs as lists (`tieLoop_append`); here are
the indices, the reply of HMGET and the map of times, and what the loop leaves in the list
(`tieLoop_orders`).
-/
import MyMMO.Ranking

namespace MyMMO
namespace Ranking

open Positions

/-! ### Decimal texts -/

def isdigit (c : UInt8) : Bool := 48 ≤ c && c ≤ 57

def isspace (c : UInt8) : Bool := c = 32 || (9 ≤ c && c ≤ 13)

/-- The number that digits write. -/
def digitsValue (digits : List UInt8) : ℕ := digits.foldl (fun n c => 10 * n + (c.toNat - 48)) 0

/-- `std::stoll`; `none` is an exception. -/
def stoll (text : List UInt8) : Option ℤ :=
  let (negative, rest) := match text.dropWhile isspace with
    | [] => (false, [])
    | c :: rest => if c = 45 then (true, rest) else if c = 43 then (false, rest) else
        (false, c :: rest)
  let digits := rest.takeWhile isdigit
  -- `std::invalid_argument`
  if digits = [] then none
  else
    let value : ℤ := if negative then -digitsValue digits else digitsValue digits
    -- else `std::out_of_range`
    if -2 ^ 63 ≤ value ∧ value < 2 ^ 63 then some value else none

/-- `text` is `value` in decimal. -/
structure Decimal (text : List UInt8) (value : ℤ) : Prop where
  digits : ∃ digits, digits ≠ [] ∧ (∀ c ∈ digits, isdigit c = true) ∧
    (text = digits ∧ value = digitsValue digits ∨ text = 45 :: digits ∧ value = -digitsValue digits)
  int64 : -2 ^ 63 ≤ value ∧ value < 2 ^ 63

theorem Decimal.ne_nil {text : List UInt8} {value : ℤ} (h : Decimal text value) : text ≠ [] := by
  obtain ⟨⟨digits, hne, -, ⟨rfl, -⟩ | ⟨rfl, -⟩⟩, -⟩ := h
  · exact hne
  · exact List.cons_ne_nil _ _

theorem isdigit_not {c : UInt8} (h : isdigit c = true) : isspace c = false ∧ c ≠ 45 ∧ c ≠ 43 := by
  simp only [isdigit, Bool.and_eq_true, decide_eq_true_eq, UInt8.le_iff_toNat_le] at h
  have hlow : 48 ≤ c.toNat := h.1
  have hhigh : c.toNat ≤ 57 := h.2
  have hne : ∀ d : UInt8, d.toNat < 48 → c ≠ d := by
    rintro d hd rfl
    omega
  refine ⟨?_, hne 45 (by decide), hne 43 (by decide)⟩
  have hupper : ¬c ≤ 13 := by
    rw [UInt8.le_iff_toNat_le, not_le]
    show 13 < c.toNat
    omega
  simp [isspace, hne 32 (by decide), hupper]

theorem Decimal.stoll {text : List UInt8} {value : ℤ} (h : Decimal text value) :
    stoll text = some value := by
  obtain ⟨⟨digits, hne, hall, htext⟩, hrange⟩ := h
  have htake : digits.takeWhile isdigit = digits := List.takeWhile_eq_self_iff.mpr hall
  rcases htext with ⟨rfl, rfl⟩ | ⟨rfl, rfl⟩
  · obtain ⟨c, rest, rfl⟩ := List.exists_cons_of_ne_nil hne
    obtain ⟨hspace, hminus, hplus⟩ := isdigit_not (hall c List.mem_cons_self)
    unfold Ranking.stoll
    rw [List.dropWhile_cons_of_neg (by rw [hspace]; exact Bool.false_ne_true)]
    dsimp only
    rw [if_neg hminus, if_neg hplus, htake, if_neg hne]
    exact if_pos hrange
  · unfold Ranking.stoll
    rw [List.dropWhile_cons_of_neg (by decide)]
    dsimp only
    rw [if_pos rfl, htake, if_neg hne]
    exact if_pos hrange

/-! ### The loop -/

section

variable {S : Type} [LinearOrder S]

/-- `HMGetSync`: a value for each field, and nothing for what is not there. -/
def hmGetSync (table : Member → Option (List UInt8)) (fields : List Member) : List (List UInt8) :=
  fields.map fun member => (table member).getD []

/-- `lastKillTimeMap`, filled from the members of a run and their times. -/
def lastKillTimeMap : List (Member × List UInt8) → (Member → ℤ) → Option (Member → ℤ)
  | [], map => some map
  | (member, time) :: rest, map =>
    (if time = [] then some 0 else stoll time).bind fun value =>
      lastKillTimeMap rest (Function.update map member value)

/-- The inner loop: `j` goes on while the score is that at `i`. -/
def tieEnd (topList : List (Member × S)) (i : ℕ) (hi : i < topList.length) (j : ℕ) : ℕ :=
  if hj : j < topList.length then if topList[j].2 = topList[i].2 then tieEnd topList i hi (j + 1)
    else j else j
  termination_by topList.length - j

/-- The run `[i, j)`, if it is longer than one. -/
def sortRun (sort : (Member × S → Member × S → Bool) → List (Member × S) → List (Member × S))
    (table : Member → Option (List UInt8)) (topList : List (Member × S)) (i j : ℕ) :
    Option (List (Member × S)) :=
  if 1 < j - i then do
    let tied := (topList.drop i).take (j - i)
    let tiedMembers := tied.map Prod.fst
    let times := hmGetSync table tiedMembers
    let map ← lastKillTimeMap (tiedMembers.zip times) fun _ => 0
    return topList.take i ++ sort (fun a b => map a.1 < map b.1) tied ++ topList.drop j
  else some topList

omit [LinearOrder S] in
theorem sortRun_length
    {sort : (Member × S → Member × S → Bool) → List (Member × S) → List (Member × S)}
    (hsort : StdSort sort) {table : Member → Option (List UInt8)} {topList out : List (Member × S)}
    {i j : ℕ} (hij : i ≤ j) (h : sortRun sort table topList i j = some out) :
    out.length = topList.length := by
  unfold sortRun at h
  by_cases hlong : 1 < j - i
  · rw [if_pos hlong] at h
    obtain ⟨map, -, hout⟩ := Option.bind_eq_some_iff.mp h
    obtain rfl := Option.some.inj hout
    have hperm := hsort.perm (fun a b => decide (map a.1 < map b.1)) ((topList.drop i).take (j - i))
    simp only [List.length_append, hperm.length_eq, List.length_take, List.length_drop]
    omega
  · rw [if_neg hlong] at h
    obtain rfl := Option.some.inj h
    rfl

theorem le_tieEnd (topList : List (Member × S)) {i : ℕ} (hi : i < topList.length) (j : ℕ) :
    j ≤ tieEnd topList i hi j := by
  induction j using tieEnd.induct topList i hi with
  | case1 j hj heq ih =>
    rw [tieEnd, dif_pos hj, if_pos heq]
    omega
  | case2 j hj hne =>
    rw [tieEnd, dif_pos hj, if_neg hne]
  | case3 j hj =>
    rw [tieEnd, dif_neg hj]

/-- The loop over the runs, from the index `i` on. -/
def tieLoop {sort : (Member × S → Member × S → Bool) → List (Member × S) → List (Member × S)}
    (hsort : StdSort sort) (table : Member → Option (List UInt8)) (topList : List (Member × S))
    (i : ℕ) : Option (List (Member × S)) :=
  if hi : i < topList.length then
    match hrun : sortRun sort table topList i (tieEnd topList i hi (i + 1)) with
    | some sorted => tieLoop hsort table sorted (tieEnd topList i hi (i + 1))
    | none => none
  else some topList
  termination_by topList.length - i
  decreasing_by
    have := le_tieEnd topList hi (i + 1)
    have := sortRun_length hsort (by omega) hrun
    omega

/-! ### What a run is sorted by -/

variable {sort : (Member × S → Member × S → Bool) → List (Member × S) → List (Member × S)}
  {table : Member → Option (List UInt8)} {time : Member → ℤ}

/-- The table holds `time`, in decimal, and nothing for 0 if it holds nothing. -/
def Times (table : Member → Option (List UInt8)) (time : Member → ℤ) : Prop :=
  ∀ member, match table member with
    | none => time member = 0
    | some text => Decimal text (time member)

theorem Times.parse (h : Times table time) (member : Member) :
    (if (table member).getD [] = [] then some 0 else stoll ((table member).getD [])) = some
    (time member) := by
  have hmember := h member
  cases ht : table member with
  | none =>
    rw [ht] at hmember
    dsimp only at hmember
    rw [hmember]
    rfl
  | some text =>
    rw [ht] at hmember
    dsimp only at hmember
    show (if text = [] then some 0 else stoll text) = _
    rw [if_neg hmember.ne_nil]
    exact hmember.stoll

/-- The map has the times of all members of the run. -/
theorem lastKillTimeMap_eq (h : Times table time) (members : List Member) (map : Member → ℤ) :
    ∃ map', lastKillTimeMap (members.zip (hmGetSync table members)) map = some map' ∧
      (∀ m ∈ members, map' m = time m) ∧ ∀ m ∉ members, map' m = map m := by
  induction members generalizing map with
  | nil => exact ⟨map, rfl, by simp, by simp⟩
  | cons member members ih =>
    obtain ⟨map', hmap, hin, hout⟩ := ih (Function.update map member (time member))
    refine ⟨map', ?_, ?_, ?_⟩
    · show lastKillTimeMap ((member, (table member).getD []) :: members.zip
        (hmGetSync table members)) map = _
      unfold lastKillTimeMap
      rw [h.parse]
      exact hmap
    · intro m hm
      by_cases hlater : m ∈ members
      · exact hin m hlater
      · obtain rfl := (List.mem_cons.mp hm).resolve_right hlater
        rw [hout m hlater, Function.update_self]
    · intro m hm
      rw [List.mem_cons, not_or] at hm
      rw [hout m hm.2, Function.update_of_ne hm.1]

/-- `std::sort` looks at the comparisons of the elements and at nothing else. -/
def OnlyCompares (sort : (Member × S → Member × S → Bool) → List (Member × S) → List (Member × S)) :
    Prop :=
  ∀ lt lt' l, (∀ a ∈ l, ∀ b ∈ l, lt a b = lt' a b) → sort lt l = sort lt' l

omit [LinearOrder S] in
/-- What the loop makes of a run: the same entries, the earlier kill first. -/
theorem sortRun_eq (hsort : StdSort sort) (htimes : Times table time)
    (done run rest : List (Member × S)) :
    ∃ run', sortRun sort table (done ++ (run ++ rest)) done.length (done.length + run.length) =
        some (done ++ (run' ++ rest)) ∧
      run'.Perm run ∧ (run'.Pairwise fun a b => time a.1 ≤ time b.1) ∧
      (OnlyCompares sort → run' = sortTie sort time run) := by
  unfold sortRun
  rw [Nat.add_sub_cancel_left, List.drop_left, List.take_left, List.take_left]
  by_cases hlong : 1 < run.length
  · obtain ⟨map, hmap, hin, -⟩ := lastKillTimeMap_eq htimes (run.map Prod.fst) fun _ => 0
    have hperm := hsort.perm (fun a b => decide (map a.1 < map b.1)) run
    rw [if_pos hlong]
    refine ⟨sort (fun a b => decide (map a.1 < map b.1)) run, ?_, hperm, ?_, fun hcompares => ?_⟩
    · dsimp only
      rw [hmap, ← List.append_assoc done run rest, ← List.length_append, List.drop_left,
        ← List.append_assoc done]
      rfl
    · have hsorted := hsort.sorted _ run (weak_key fun a : Member × S => map a.1)
      apply hsorted.imp_of_mem
      intro a b ha hb hab
      have hle := not_lt.mp (of_decide_eq_false hab)
      rw [hin a.1 (List.mem_map_of_mem (hperm.mem_iff.mp ha)),
        hin b.1 (List.mem_map_of_mem (hperm.mem_iff.mp hb))] at hle
      exact hle
    · unfold sortTie
      rw [if_pos hlong]
      refine hcompares _ _ _ fun a ha b hb => ?_
      rw [hin a.1 (List.mem_map_of_mem ha), hin b.1 (List.mem_map_of_mem hb)]
  · rw [if_neg hlong]
    refine ⟨run, rfl, .refl _, ?_, fun _ => (if_neg hlong).symm⟩
    match run, hlong with
    | [], _ => exact .nil
    | [a], _ => exact List.pairwise_singleton _ _
    | a :: b :: run, hlong =>
      rw [List.length_cons, List.length_cons] at hlong
      exact absurd (by omega) hlong

/-- The inner loop finds the end of the run. -/
theorem tieEnd_eq {topList : List (Member × S)} (done seen rest : List (Member × S))
    (e : Member × S) (h : topList = done ++ (e :: seen ++ rest))
    (hi : done.length < topList.length) :
    tieEnd topList done.length hi (done.length + 1 + seen.length) =
      done.length + 1 + seen.length + (rest.takeWhile fun b => b.2 = e.2).length := by
  have hlen : topList.length = done.length + 1 + seen.length + rest.length := by
    rw [h, List.length_append, List.length_append, List.length_cons]
    omega
  induction rest generalizing seen with
  | nil =>
    rw [tieEnd, dif_neg]
    · rfl
    · rw [hlen, List.length_nil]
      omega
  | cons b rest ih =>
    have hj : done.length + 1 + seen.length < topList.length := by
      rw [hlen, List.length_cons]
      omega
    have hgetj : topList[done.length + 1 + seen.length]? = some b := by
      have hpos : done.length + 1 + seen.length - done.length - (e :: seen).length = 0 := by
        rw [List.length_cons]
        omega
      rw [h, List.getElem?_append_right (by omega),
        List.getElem?_append_right (by rw [List.length_cons]; omega), hpos]
      rfl
    have hgeti : topList[done.length]? = some e := by
      rw [h, List.getElem?_append_right le_rfl, Nat.sub_self]
      rfl
    rw [List.getElem?_eq_getElem hj, Option.some.injEq] at hgetj
    rw [List.getElem?_eq_getElem hi, Option.some.injEq] at hgeti
    rw [tieEnd, dif_pos hj, hgetj, hgeti]
    by_cases heq : b.2 = e.2
    · have hnext := ih (seen ++ [b]) (by rw [h]; simp)
        (by rw [hlen, List.length_append, List.length_cons, List.length_singleton]; omega)
      rw [List.length_append, List.length_singleton, ← Nat.add_assoc] at hnext
      rw [if_pos heq, List.takeWhile_cons_of_pos (by simpa using heq), List.length_cons, hnext]
      omega
    · rw [if_neg heq, List.takeWhile_cons_of_neg (by simpa using heq)]
      rfl

/-- From the beginning of a run on, the loop sorts what is left. -/
theorem tieLoop_append (hsort : StdSort sort) (htimes : Times table time)
    (done rest : List (Member × S)) (hrest : rest.Pairwise fun a b => b.2 ≤ a.2) :
    ∃ out, tieLoop hsort table (done ++ rest) done.length = some (done ++ out) ∧ out.Perm rest ∧
      (out.Pairwise fun a b => b.2 < a.2 ∨ b.2 = a.2 ∧ time a.1 ≤ time b.1) ∧
      (OnlyCompares sort → out = sortTies sort time rest) := by
  induction rest using sortTies.induct generalizing done with
  | case1 =>
    refine ⟨[], ?_, .refl _, .nil, fun _ => by rw [sortTies]⟩
    rw [tieLoop, dif_neg]
    rw [List.append_nil]
    exact lt_irrefl _
  | case2 e rest ih =>
    obtain ⟨hhead, htail⟩ := List.pairwise_cons.mp hrest
    set run := e :: rest.takeWhile fun b => b.2 = e.2 with hrun
    set after := rest.dropWhile fun b => b.2 = e.2 with hafter
    have hsplit : done ++ e :: rest = done ++ (run ++ after) := by
      rw [hrun, hafter, List.cons_append, List.takeWhile_append_dropWhile]
    have hi : done.length < (done ++ e :: rest).length := by
      rw [List.length_append, List.length_cons]
      omega
    have hend : tieEnd (done ++ e :: rest) done.length hi (done.length + 1) =
        done.length + run.length := by
      have hscan := tieEnd_eq done [] rest e rfl hi
      rw [List.length_nil, Nat.add_zero] at hscan
      rw [hrun, List.length_cons]
      refine Eq.trans hscan ?_
      omega
    obtain ⟨run', hsorted, hperm, htime, hrun'⟩ := sortRun_eq hsort htimes done run after
    obtain ⟨out, hout, hpermOut, horder, hout'⟩ :=
      ih (done ++ run') (htail.sublist (List.dropWhile_sublist _))
    have hscore : ∀ a ∈ run', a.2 = e.2 := by
      intro a ha
      rcases List.mem_cons.mp (hperm.mem_iff.mp ha) with rfl | ha
      · rfl
      · exact of_decide_eq_true (List.all_eq_true.mp List.all_takeWhile a ha)
    refine ⟨run' ++ out, ?_, ?_, ?_,
      fun hcompares => by rw [sortTies, hrun' hcompares, hout' hcompares]⟩
    · rw [tieLoop, dif_pos hi]
      rw [← hsplit, ← hend] at hsorted
      split
      · rename_i sorted heq
        rw [hsorted] at heq
        obtain rfl := Option.some.inj heq
        rw [hend, ← hperm.length_eq, ← List.length_append, ← List.append_assoc, ← List.append_assoc]
        exact hout
      · rename_i heq
        rw [hsorted] at heq
        cases heq
    · have hwhole : run ++ after = e :: rest := by
        rw [hrun, hafter, List.cons_append, List.takeWhile_append_dropWhile]
      rw [← hwhole]
      exact hperm.append hpermOut
    · rw [List.pairwise_append]
      refine ⟨htime.imp_of_mem fun {a b} ha hb hab => Or.inr ⟨?_, hab⟩, horder, ?_⟩
      · rw [hscore a ha, hscore b hb]
      · intro a ha b hb
        left
        rw [hscore a ha]
        exact lt_of_mem_dropWhile htail hhead b (hpermOut.mem_iff.mp hb)

end

/-- The loop ends with a permutation of the list, sorted by score and in every tie by the time of
the last kill; each score stays where it was. It is what `rankingQuery` has in its place. -/
theorem tieLoop_orders {S : Type} [LinearOrder S]
    {sort : (Member × S → Member × S → Bool) → List (Member × S) → List (Member × S)}
    (hsort : StdSort sort) {table : Member → Option (List UInt8)}
    {time : Member → ℤ} (htimes : Times table time) (topList : List (Member × S))
    (htop : topList.Pairwise fun a b => b.2 ≤ a.2) :
    ∃ out, tieLoop hsort table topList 0 = some out ∧ out.Perm topList ∧
      (out.Pairwise fun a b => b.2 < a.2 ∨ b.2 = a.2 ∧ time a.1 ≤ time b.1) ∧
      out.map Prod.snd = topList.map Prod.snd ∧
        (OnlyCompares sort → out = sortTies sort time topList) := by
  obtain ⟨out, hout, hperm, horder, hties⟩ := tieLoop_append hsort htimes [] topList htop
  refine ⟨out, hout, hperm, horder, ?_, hties⟩
  have hsorted : out.Pairwise fun a b => b.2 ≤ a.2 :=
    horder.imp fun hab => hab.elim le_of_lt fun heq => heq.1.le
  apply (hperm.map Prod.snd).eq_of_sortedGE
  · exact (List.pairwise_map.mpr hsorted).sortedGE
  · exact (List.pairwise_map.mpr htop).sortedGE

/-- Three kills of "c", and one each of "b", "a" and "d". -/
def topOfFour : List (Member × ℤ) := [([99], 3), ([98], 1), ([97], 1), ([100], 1)]

/-- "a" made it at 100, "b" at 200; of "d" nothing is known. -/
def timesOfTwo (member : Member) : Option (List UInt8) :=
  if member = [97] then some [49, 48, 48] else if member = [98] then some [50, 48, 48] else none

theorem tieLoop_orders_topOfFour : ∃ out, tieLoop
    (stdSort_arranged fun l : List (Member × ℤ) => .refl l) timesOfTwo topOfFour 0 = some out ∧
    out.Perm topOfFour ∧ out.map Prod.snd = [3, 1, 1, 1] := by
  have h100 : Decimal [49, 48, 48] 100 :=
    ⟨⟨[49, 48, 48], by decide, List.all_eq_true.mp (by decide), Or.inl ⟨rfl, rfl⟩⟩, by decide⟩
  have h200 : Decimal [50, 48, 48] 200 :=
    ⟨⟨[50, 48, 48], by decide, List.all_eq_true.mp (by decide), Or.inl ⟨rfl, rfl⟩⟩, by decide⟩
  have htimes : Times timesOfTwo fun m => if m = [97] then 100 else if m = [98] then 200
      else 0 := by
    intro member
    unfold timesOfTwo
    dsimp only
    by_cases ha : member = [97]
    · rw [if_pos ha, if_pos ha]
      exact h100
    · rw [if_neg ha, if_neg ha]
      by_cases hb : member = [98]
      · rw [if_pos hb, if_pos hb]
        exact h200
      · rw [if_neg hb, if_neg hb]
  obtain ⟨out, hout, hperm, -, hscores, -⟩ :=
    tieLoop_orders (stdSort_arranged fun l => .refl l) htimes topOfFour (by decide)
  exact ⟨out, hout, hperm, hscores⟩

end Ranking
end MyMMO
