/-
# The ranking

`dbThread` counts every kill twice, in the accounts table and in the sorted set `ranking:killcount`
(KillCountUpdate), and answers a RankingQuery from the sorted set: the list of the first 200, whose
ties it sorts by `ranking:lastkilltime`, and the rank of who asks, which is the one in the sorted
set. `counters_equal_iff` says for which outcomes of the calls the two counters agree, and
`ranking_agrees_iff` for which contents the list agrees with the rank.
-/
import Mathlib.Data.List.TakeWhile
import MyMMO.Lib.Positions

namespace MyMMO
namespace Ranking

open Positions

/-- A `std::string` of bytes. -/
abbrev Member := List UInt8

/-- The string in a `char` array. -/
def cString (bytes : List UInt8) : Member := bytes.takeWhile (· ≠ 0)

/-! ### KillCountUpdate -/

structure DBKillCountUpdate where
  accountNo : ℤ
  nickname : List UInt8
  cnt : ℤ

/-- `requestKillCountUpdate`, which `processPlayerAttackHit` calls for one kill. -/
def requestKillCountUpdate (accountNo : ℤ) (nickname : List UInt8) : DBKillCountUpdate :=
  ⟨accountNo, nickname, 1⟩

/-- What the calls of a job come to: the UPDATE, ZINCRBY and HSET. -/
structure Outcome where
  dbOk : Bool
  redisOk : Bool
  redisTimeOk : Bool

/-- The columns of `Accounts` and the keys of Redis that a KillCountUpdate writes. -/
structure Stores where
  killCount : ℤ → ℤ
  lastKillTime : ℤ → ℤ
  rankingKillCount : Member → ℤ
  rankingLastKillTime : Member → ℤ

/-- `static_cast<int>`. -/
def toInt (n : ℤ) : ℤ := (n + 2 ^ 31) % 2 ^ 32 - 2 ^ 31

/-- The case `KillCountUpdate` of `dbThread`, at the time `now`, and the flag of its result. -/
def killCountUpdate (s : Stores) (job : DBKillCountUpdate) (o : Outcome) (now : ℤ) :
    Stores × Bool :=
  let nickName := cString job.nickname
  let s := if o.dbOk then
    { s with
      killCount := Function.update s.killCount job.accountNo (s.killCount job.accountNo + job.cnt)
      lastKillTime := Function.update s.lastKillTime job.accountNo now }
    else s
  let s := if o.redisOk then
    { s with rankingKillCount :=
        Function.update s.rankingKillCount nickName (s.rankingKillCount nickName + toInt job.cnt) }
    else s
  let s := if o.redisTimeOk then
    { s with rankingLastKillTime := Function.update s.rankingLastKillTime nickName now }
    else s
  (s, o.dbOk && o.redisOk && o.redisTimeOk)

/-- A job that has been processed. -/
structure Done where
  job : DBKillCountUpdate
  outcome : Outcome
  now : ℤ

/-- The stores after the jobs. -/
def exec (s : Stores) (run : List Done) : Stores :=
  run.foldl (fun s d => (killCountUpdate s d.job d.outcome d.now).1) s

/-- The counters of the account `accountNo` and of its nickname have grown alike between `s` and
`t`. -/
def Alike (accountNo : ℤ) (nickname : Member) (s t : Stores) : Prop :=
  t.killCount accountNo - s.killCount accountNo =
    t.rankingKillCount nickname - s.rankingKillCount nickname

/-- A job that failed has changed nothing. -/
def Atomic (s : Stores) (d : Done) : Prop :=
  (killCountUpdate s d.job d.outcome d.now).2 = false →
    (killCountUpdate s d.job d.outcome d.now).1 = s

/-- The two counters of every account are equal after each job, and no job is half done. -/
def CountersEqual (s : Stores) (run : List Done) : Prop :=
  ∀ pre d post, run = pre ++ d :: post →
    (∀ e ∈ run, Alike e.job.accountNo (cString e.job.nickname) s (exec s (pre ++ [d]))) ∧
      Atomic (exec s pre) d

/-- The calls of the job succeed together or fail together, but for an HSET of the time that is
there already. -/
def Together (s : Stores) (d : Done) : Prop :=
  d.outcome.dbOk = d.outcome.redisOk ∧ (d.outcome.dbOk = true → d.outcome.redisTimeOk = true) ∧
    (d.outcome.dbOk = false → d.outcome.redisTimeOk = true →
      s.rankingLastKillTime (cString d.job.nickname) = d.now)

/-- Every account of the jobs has one nickname, and no two have the same. -/
def Named (run : List Done) : Prop :=
  ∀ d ∈ run, ∀ e ∈ run, d.job.accountNo = e.job.accountNo ↔
    cString d.job.nickname = cString e.job.nickname

section

variable {s : Stores} {d : Done} {accountNo : ℤ} {nickname : Member}

theorem toInt_of_lt {n : ℤ} (h0 : 0 ≤ n) (h : n < 2 ^ 31) : toInt n = n := by
  unfold toInt
  omega

theorem killCountUpdate_killCount (a : ℤ) :
    (killCountUpdate s d.job d.outcome d.now).1.killCount a =
    s.killCount a + if d.outcome.dbOk = true ∧ a = d.job.accountNo then d.job.cnt else 0 := by
  unfold killCountUpdate
  dsimp only
  by_cases ha : a = d.job.accountNo
  · rw [ha]
    cases d.outcome.dbOk <;> cases d.outcome.redisOk <;> cases d.outcome.redisTimeOk <;> simp
  · cases d.outcome.dbOk <;> cases d.outcome.redisOk <;> cases d.outcome.redisTimeOk <;> simp [ha]

theorem killCountUpdate_ranking (m : Member) :
    (killCountUpdate s d.job d.outcome d.now).1.rankingKillCount m =
    s.rankingKillCount m + if d.outcome.redisOk = true ∧ m = cString d.job.nickname then
      toInt d.job.cnt else 0 := by
  unfold killCountUpdate
  dsimp only
  by_cases hm : m = cString d.job.nickname
  · rw [hm]
    cases d.outcome.dbOk <;> cases d.outcome.redisOk <;> cases d.outcome.redisTimeOk <;> simp
  · cases d.outcome.dbOk <;> cases d.outcome.redisOk <;> cases d.outcome.redisTimeOk <;> simp [hm]

theorem exec_append_one (run : List Done) :
    exec s (run ++ [d]) = (killCountUpdate (exec s run) d.job d.outcome d.now).1 := by
  unfold exec
  rw [List.foldl_append]
  rfl

/-- A job of the account adds to its counters what succeeded. -/
theorem alike_step {t : Stores} (h : Alike d.job.accountNo (cString d.job.nickname) s t) :
    Alike d.job.accountNo (cString d.job.nickname) s (killCountUpdate t d.job d.outcome d.now).1 ↔
      (if d.outcome.dbOk = true then d.job.cnt else 0) = if d.outcome.redisOk = true then
    toInt d.job.cnt else 0 := by
  unfold Alike at h ⊢
  rw [killCountUpdate_killCount, killCountUpdate_ranking]
  simp only [and_true]
  constructor
  · intro he
    linarith
  · intro he
    linarith

/-- A job of another account does not touch them. -/
theorem alike_other {t : Stores} (ha : accountNo ≠ d.job.accountNo)
    (hm : nickname ≠ cString d.job.nickname) (h : Alike accountNo nickname s t) :
    Alike accountNo nickname s (killCountUpdate t d.job d.outcome d.now).1 := by
  unfold Alike at h ⊢
  rw [killCountUpdate_killCount, killCountUpdate_ranking, if_neg fun hc => ha hc.2,
    if_neg fun hc => hm hc.2]
  linarith

theorem killCountUpdate_time (m : Member) :
    (killCountUpdate s d.job d.outcome d.now).1.rankingLastKillTime m =
    if d.outcome.redisTimeOk = true ∧ m = cString d.job.nickname then d.now else
      s.rankingLastKillTime m := by
  unfold killCountUpdate
  dsimp only
  by_cases hm : m = cString d.job.nickname
  · rw [hm]
    cases d.outcome.dbOk <;> cases d.outcome.redisOk <;> cases d.outcome.redisTimeOk <;> simp
  · cases d.outcome.dbOk <;> cases d.outcome.redisOk <;> cases d.outcome.redisTimeOk <;> simp [hm]

/-- A job whose UPDATE and ZINCRBY fail changes at most the time of the last kill. -/
theorem killCountUpdate_failed (hdb : d.outcome.dbOk = false) (hredis : d.outcome.redisOk = false)
    (htime : d.outcome.redisTimeOk = true →
      s.rankingLastKillTime (cString d.job.nickname) = d.now) :
    (killCountUpdate s d.job d.outcome d.now).1 = s := by
  unfold killCountUpdate
  rw [hdb, hredis]
  by_cases ht : d.outcome.redisTimeOk = true
  · simp [ht, ← htime ht]
  · simp [ht]

theorem together_of_atomic (h : Atomic s d) (hsame : d.outcome.dbOk = d.outcome.redisOk)
    (hcnt : d.job.cnt ≠ 0) :
    Together s d := by
  have hflag : (killCountUpdate s d.job d.outcome d.now).2 =
      (d.outcome.dbOk && d.outcome.redisOk && d.outcome.redisTimeOk) := rfl
  unfold Atomic at h
  rw [hflag] at h
  refine ⟨hsame, fun hdb => ?_, fun hdb htime => ?_⟩
  · by_contra htime
    have hkill := congrArg (fun t => Stores.killCount t d.job.accountNo) (h (by simp [htime]))
    rw [killCountUpdate_killCount, if_pos ⟨hdb, rfl⟩] at hkill
    omega
  · have hlast :=
      congrArg (fun t => Stores.rankingLastKillTime t (cString d.job.nickname)) (h (by simp [hdb]))
    rw [killCountUpdate_time, if_pos ⟨htime, rfl⟩] at hlast
    exact hlast.symm

theorem Together.atomic (h : Together s d) : Atomic s d := by
  obtain ⟨hsame, hok, hfail⟩ := h
  intro hflag
  by_cases hdb : d.outcome.dbOk = true
  · have hall : (d.outcome.dbOk && d.outcome.redisOk && d.outcome.redisTimeOk) = true := by
      rw [hdb, ← hsame, hdb, hok hdb]
      rfl
    have hno : (d.outcome.dbOk && d.outcome.redisOk && d.outcome.redisTimeOk) = false := hflag
    rw [hall] at hno
    cases hno
  · have hdb' := Bool.not_eq_true _ |>.mp hdb
    exact killCountUpdate_failed hdb' (hsame ▸ hdb') (hfail hdb')

/-- What the calls of a job add is the same if they succeed together. -/
theorem amount_iff (hpos : 0 < d.job.cnt) (hint : d.job.cnt < 2 ^ 31) :
    ((if d.outcome.dbOk = true then d.job.cnt else 0) = if d.outcome.redisOk = true then
        toInt d.job.cnt else 0) ↔
      d.outcome.dbOk = d.outcome.redisOk := by
  rw [toInt_of_lt hpos.le hint]
  cases d.outcome.dbOk <;> cases d.outcome.redisOk <;> simp <;> omega

/-- Jobs whose calls succeed together keep the counters of an account equal. -/
theorem alike_exec {run pre : List Done}
    (hname : Named run) (hcnt : ∀ d ∈ run, 0 < d.job.cnt ∧ d.job.cnt < 2 ^ 31) (hd : d ∈ run)
    (hpre : ∀ e ∈ pre, e ∈ run ∧ e.outcome.dbOk = e.outcome.redisOk) :
    Alike d.job.accountNo (cString d.job.nickname) s (exec s pre) := by
  induction pre using List.reverseRecOn with
  | nil =>
    change s.killCount _ - s.killCount _ = s.rankingKillCount _ - s.rankingKillCount _
    rw [sub_self, sub_self]
  | append_singleton pre e ih =>
    have hprev := ih fun e' he' => hpre e' (List.mem_append_left _ he')
    obtain ⟨he, htogether⟩ := hpre e (List.mem_append_right _ (List.mem_singleton_self e))
    rw [exec_append_one]
    by_cases hsame : d.job.accountNo = e.job.accountNo
    · have hnick := (hname d hd e he).mp hsame
      rw [hsame, hnick] at hprev ⊢
      exact (alike_step hprev).mpr ((amount_iff (hcnt e he).1 (hcnt e he).2).mpr htogether)
    · exact alike_other hsame (mt (hname d hd e he).mpr hsame) hprev

/-- The first job whose UPDATE and ZINCRBY do not agree is seen at once. -/
theorem agree_of_countersEqual {run : List Done} (hname : Named run)
    (hcnt : ∀ d ∈ run, 0 < d.job.cnt ∧ d.job.cnt < 2 ^ 31) (h : CountersEqual s run) :
    ∀ pre post, run = pre ++ post → ∀ e ∈ pre, e.outcome.dbOk = e.outcome.redisOk := by
  intro pre
  induction pre using List.reverseRecOn with
  | nil => simp
  | append_singleton pre d ih =>
    intro post hrun e he
    have hsub : ∀ e' ∈ pre ++ [d], e' ∈ run := by
      intro e' he'
      rw [hrun]
      exact List.mem_append_left _ he'
    rw [List.append_assoc] at hrun
    have hpre := ih ([d] ++ post) hrun
    rcases List.mem_append.mp he with he | he
    · exact hpre e he
    · obtain rfl := List.mem_singleton.mp he
      have hmem := hsub e (List.mem_append_right _ (List.mem_singleton_self e))
      have hprev : Alike e.job.accountNo (cString e.job.nickname) s (exec s pre) :=
        alike_exec hname hcnt hmem fun e' he' => ⟨hsub e' (List.mem_append_left _ he'), hpre e' he'⟩
      have hafter := (h pre e post hrun).1 e hmem
      rw [exec_append_one] at hafter
      exact (amount_iff (hcnt e hmem).1 (hcnt e hmem).2).mp ((alike_step hprev).mp hafter)

end

/-- The counters stay equal if and only if the calls of every job succeed or fail together. -/
theorem counters_equal_iff (s : Stores) (run : List Done) (hname : Named run)
    (hcnt : ∀ d ∈ run, 0 < d.job.cnt ∧ d.job.cnt < 2 ^ 31) :
    CountersEqual s run ↔ ∀ pre d post, run = pre ++ d :: post → Together (exec s pre) d := by
  constructor
  · intro h pre d post hrun
    have hd : d ∈ run := by
      rw [hrun]
      exact List.mem_append_right _ List.mem_cons_self
    have hsame := agree_of_countersEqual hname hcnt h run [] (List.append_nil run).symm d hd
    exact together_of_atomic (h pre d post hrun).2 hsame (hcnt d hd).1.ne'
  · intro h pre d post hrun
    refine ⟨fun e he => alike_exec hname hcnt he fun e' he' => ?_, (h pre d post hrun).atomic⟩
    have hmem : e' ∈ run := by
      rw [hrun]
      rcases List.mem_append.mp he' with he' | he'
      · exact List.mem_append_left _ he'
      · rw [List.mem_singleton.mp he']
        exact List.mem_append_right _ List.mem_cons_self
    obtain ⟨pre', post', hrun'⟩ := List.append_of_mem hmem
    exact ⟨hmem, (h pre' e' post' hrun').1⟩

/-- Nobody has killed anything. -/
def noKills : Stores := ⟨fun _ => 0, fun _ => 0, fun _ => 0, fun _ => 0⟩

/-- A kill of account 7, whose nickname is "a". -/
def killOf7 (outcome : Outcome) : Done := ⟨requestKillCountUpdate 7 [97], outcome, 100⟩

/-- The UPDATE fails, and the kill is counted in the sorted set alone. -/
theorem killOf7_not_equal : ¬CountersEqual noKills [killOf7 ⟨false, true, true⟩] := by
  intro h
  have halike := (h [] (killOf7 ⟨false, true, true⟩) [] rfl).1 _ List.mem_cons_self
  exact absurd halike (by unfold Alike; decide)

theorem counters_equal_iff_two :
    CountersEqual noKills [killOf7 ⟨true, true, true⟩, killOf7 ⟨false, false, false⟩] := by
  refine (counters_equal_iff noKills _ (by unfold Named; decide) (by decide)).mpr ?_
  intro pre d post hrun
  have hd : d ∈ [killOf7 ⟨true, true, true⟩, killOf7 ⟨false, false, false⟩] := by
    rw [hrun]
    exact List.mem_append_right _ List.mem_cons_self
  rcases List.mem_cons.mp hd with rfl | hd
  · exact ⟨rfl, fun _ => rfl, fun hno => by cases hno⟩
  · obtain rfl := List.mem_singleton.mp hd
    exact ⟨rfl, fun hno => (by cases hno), fun _ hno => by cases hno⟩

/-! ### RankingQuery -/

/-- A sorted set, in the order of ZREVRANGE: by score, and then by member in reverse. -/
structure SortedSet (S : Type) [LinearOrder S] where
  entries : List (Member × S)
  members : (entries.map Prod.fst).Nodup
  sorted : entries.Pairwise fun a b => b.2 < a.2 ∨ b.2 = a.2 ∧ b.1 < a.1

/-- `DBRankingResult::MAX_TOP_ENTRY`. -/
def MAX_TOP_ENTRY : ℕ := 200

structure RankEntry where
  nickname : List UInt8
  killCount : ℤ
  deriving DecidableEq

structure DBRankingResult where
  seqID : ℤ
  success : Bool
  myRank : ℤ
  myKillCount : ℤ
  topEntries : List RankEntry

section

variable {S : Type} [LinearOrder S]

def zRevRangeWithScoresSync (set : SortedSet S) (stop : ℕ) : List (Member × S) :=
  set.entries.take (stop + 1)

/-- `ZRevRankSync`: -1 for what is not in the set. -/
def zRevRankSync (set : SortedSet S) (member : Member) : ℤ :=
  if member ∈ set.entries.map Prod.fst then ((set.entries.map Prod.fst).idxOf member : ℤ) else -1

/-- `ZScoreSync`; `toInt64` is the cast of a score. -/
def zScoreSync (toInt64 : S → ℤ) (set : SortedSet S) (member : Member) : ℤ :=
  match set.entries.find? fun e => e.1 = member with
  | some e => toInt64 e.2
  | none => 0

/-- One group of the same score, sorted by the time of the last kill. -/
def sortTie (sort : (Member × S → Member × S → Bool) → List (Member × S) → List (Member × S))
    (lastKillTime : Member → ℤ) (tied : List (Member × S)) : List (Member × S) :=
  if 1 < tied.length then sort (fun a b => lastKillTime a.1 < lastKillTime b.1) tied else tied

/-- The loop over the groups of `topList`. -/
def sortTies (sort : (Member × S → Member × S → Bool) → List (Member × S) → List (Member × S))
    (lastKillTime : Member → ℤ) : List (Member × S) → List (Member × S)
  | [] => []
  | e :: rest =>
    sortTie sort lastKillTime (e :: rest.takeWhile fun b => b.2 = e.2) ++
      sortTies sort lastKillTime (rest.dropWhile fun b => b.2 = e.2)
  termination_by l => l.length
  decreasing_by
    have := (List.dropWhile_suffix (l := rest) fun b => decide (b.2 = e.2)).length_le
    rw [List.length_cons]
    omega

/-- `entry.nickname`: at most 19 bytes of the member, and zeros up to 20. -/
def nicknameBytes (member : Member) : List UInt8 :=
  let len := min member.length 19
  member.take len ++ List.replicate (20 - len) 0

/-- The case `RankingQuery` of `dbThread`; `times` is what `ranking:lastkilltime` holds, and 0
stands for what it does not. -/
def rankingQuery (sort : (Member × S → Member × S → Bool) → List (Member × S) → List (Member × S))
    (toInt64 : S → ℤ) (set : SortedSet S) (times : Member → Option ℤ) (seqID : ℤ)
    (nickname : List UInt8) : DBRankingResult :=
  let myNickname := cString nickname
  let topList := zRevRangeWithScoresSync set (MAX_TOP_ENTRY - 1)
  let myRankZeroBased := zRevRankSync set myNickname
  let myKillCount := zScoreSync toInt64 set myNickname
  let topList := sortTies sort (fun member => (times member).getD 0) topList
  let myRank := if myRankZeroBased = -1 then -1 else myRankZeroBased + 1
  ⟨seqID, true, myRank, myKillCount, topList.map fun e => ⟨nicknameBytes e.1, toInt64 e.2⟩⟩

/-- Wherever the nickname stands in the list, it stands at `myRank`, and with `myKillCount`. -/
def DBRankingResult.Agrees (r : DBRankingResult) (nickname : List UInt8) : Prop :=
  ∀ (idx : ℕ) (entry : RankEntry), r.topEntries[idx]? = some entry →
    cString entry.nickname = cString nickname →
    (idx : ℤ) + 1 = r.myRank ∧ entry.killCount = r.myKillCount

/-- What the tie of `e` comes to: nobody in it made its last kill at the same time, and as many made
it earlier as have a name behind that of `e`. -/
def Placed (top : List (Member × S)) (time : Member → ℤ) (e : Member × S) : Prop :=
  (∀ a ∈ top, a.2 = e.2 → time a.1 = time e.1 → a = e) ∧
    (top.countP fun a => a.2 = e.2 ∧ time a.1 < time e.1) = top.countP fun a => a.2 =
      e.2 ∧ e.1 < a.1

/-! ### The list after the sort -/

variable {sort : (Member × S → Member × S → Bool) → List (Member × S) → List (Member × S)}
    {time : Member → ℤ}

omit [LinearOrder S] in
theorem sortTie_perm (hsort : StdSort sort) (tied : List (Member × S)) :
    (sortTie sort time tied).Perm tied := by
  unfold sortTie
  split_ifs
  · exact hsort.perm _ _
  · exact .refl _

omit [LinearOrder S] in
theorem sortTie_sorted (hsort : StdSort sort) (tied : List (Member × S)) :
    (sortTie sort time tied).Pairwise fun a b => ¬time b.1 < time a.1 := by
  unfold sortTie
  split_ifs with hlen
  · exact (hsort.sorted _ _ (weak_key fun a => time a.1)).imp fun hab => of_decide_eq_false hab
  · cases tied with
    | nil => exact .nil
    | cons a l =>
      obtain rfl : l = [] := by
        rw [← List.length_eq_zero_iff]
        rw [List.length_cons] at hlen
        omega
      exact List.pairwise_singleton _ _

theorem sortTies_perm (hsort : StdSort sort) (top : List (Member × S)) :
    (sortTies sort time top).Perm top := by
  induction top using sortTies.induct with
  | case1 => rw [sortTies]
  | case2 e rest ih =>
    rw [sortTies]
    refine ((sortTie_perm hsort _).append ih).trans ?_
    rw [List.cons_append, List.takeWhile_append_dropWhile]

/-- Behind the group of a score come lower ones. -/
theorem lt_of_mem_dropWhile {score : S}
    {l : List (Member × S)} (h : l.Pairwise fun a b => b.2 ≤ a.2) (hle : ∀ b ∈ l, b.2 ≤ score) :
    ∀ b ∈ l.dropWhile (fun b => b.2 = score), b.2 < score := by
  induction l with
  | nil => simp
  | cons a l ih =>
    obtain ⟨hhead, htail⟩ := List.pairwise_cons.mp h
    intro b hb
    by_cases ha : a.2 = score
    · simp only [List.dropWhile_cons, ha, decide_true, if_true] at hb
      exact ih htail (fun c hc => hle c (List.mem_cons_of_mem _ hc)) b hb
    · simp only [List.dropWhile_cons, ha, decide_false, Bool.false_eq_true, if_false] at hb
      have hlt : a.2 < score := lt_of_le_of_ne (hle a List.mem_cons_self) ha
      rcases List.mem_cons.mp hb with rfl | hb
      · exact hlt
      · exact lt_of_le_of_lt (hhead b hb) hlt

/-- By score, and in a tie nobody before one who made its last kill earlier. -/
theorem sortTies_sorted (hsort : StdSort sort) {top : List (Member × S)}
    (h : top.Pairwise fun a b => b.2 ≤ a.2) :
    (sortTies sort time top).Pairwise fun a b => b.2 < a.2 ∨ b.2 = a.2 ∧ ¬time b.1 < time a.1 := by
  induction top using sortTies.induct with
  | case1 =>
    rw [sortTies]
    exact .nil
  | case2 e rest ih =>
    obtain ⟨hhead, hrest⟩ := List.pairwise_cons.mp h
    have hdrop := hrest.sublist (List.dropWhile_sublist fun b => decide (b.2 = e.2))
    have htied : ∀ a ∈ sortTie sort time (e :: rest.takeWhile fun b => b.2 = e.2), a.2 = e.2 := by
      intro a ha
      rcases List.mem_cons.mp ((sortTie_perm hsort _).mem_iff.mp ha) with rfl | ha
      · rfl
      · exact of_decide_eq_true (List.all_eq_true.mp List.all_takeWhile a ha)
    rw [sortTies, List.pairwise_append]
    refine ⟨?_, ih hdrop, ?_⟩
    · refine (sortTie_sorted hsort _).imp_of_mem fun {a b} ha hb hab => Or.inr ⟨?_, hab⟩
      rw [htied a ha, htied b hb]
    · intro a ha b hb
      left
      rw [htied a ha]
      exact lt_of_mem_dropWhile hrest hhead b ((sortTies_perm hsort _).mem_iff.mp hb)

/-! ### Where somebody stands -/

/-- In ZREVRANGE. -/
theorem idxOf_top {top : List (Member × S)}
    (hsorted : top.Pairwise fun a b => b.2 < a.2 ∨ b.2 = a.2 ∧ b.1 < a.1) {e : Member × S}
    (he : e ∈ top) :
    top.idxOf e = top.countP fun a => e.2 < a.2 ∨ a.2 = e.2 ∧ e.1 < a.1 := by
  apply idxOf_eq_countP_of_pairwise hsorted he
  · simp
  · intro b _ hbe _
    rcases hbe with hlt | ⟨heq, hlt⟩
    · exact decide_eq_true (Or.inl hlt)
    · exact decide_eq_true (Or.inr ⟨heq.symm, hlt⟩)
  · intro b _ heb
    rcases heb with hlt | ⟨heq, hlt⟩
    · exact decide_eq_false (not_or.mpr ⟨hlt.asymm, fun hb => hlt.ne hb.1⟩)
    · exact decide_eq_false (not_or.mpr ⟨by rw [heq]; exact lt_irrefl _,
        fun hb => List.lt_asymm hlt hb.2⟩)

/-- After the sort, if nobody tied with `e` made its last kill at the same time. -/
theorem idxOf_sorted (hsort : StdSort sort) {top : List (Member × S)}
    (htop : top.Pairwise fun a b => b.2 ≤ a.2) {e : Member × S} (he : e ∈ top)
    (halone : ∀ a ∈ top, a.2 = e.2 → time a.1 = time e.1 → a = e) :
    (sortTies sort time top).idxOf e = top.countP fun a => e.2 < a.2 ∨ a.2 = e.2 ∧ time a.1 <
    time e.1 := by
  have hperm : (sortTies _ time top).Perm top := sortTies_perm hsort top
  rw [← hperm.countP_eq]
  apply idxOf_eq_countP_of_pairwise (sortTies_sorted hsort htop) (hperm.mem_iff.mpr he)
  · simp
  · intro b hb hbe hne
    rcases hbe with hlt | ⟨heq, hle⟩
    · exact decide_eq_true (Or.inl hlt)
    · have htime : time b.1 ≠ time e.1 := fun ht => hne (halone b (hperm.mem_iff.mp hb) heq.symm ht)
      exact decide_eq_true (Or.inr ⟨heq.symm, lt_of_le_of_ne (not_lt.mp hle) htime⟩)
  · intro b _ heb
    rcases heb with hlt | ⟨heq, hle⟩
    · exact decide_eq_false (not_or.mpr ⟨hlt.asymm, fun hb => hlt.ne hb.1⟩)
    · exact decide_eq_false (not_or.mpr ⟨by rw [heq]; exact lt_irrefl _, fun hb => hle hb.2⟩)

/-- Two of a tie come out in the order they were arranged in. -/
theorem pair_sortTies (arrange : List (Member × S) → List (Member × S)) {top : List (Member × S)}
    (htop : top.Pairwise fun a b => b.2 ≤ a.2) {a b : Member × S} (hne : a ≠ b)
    (ha : a ∈ top) (hb : b ∈ top) (htie : a.2 = b.2) (htime : time a.1 = time b.1)
    (harrange : ∀ l, a ∈ l → b ∈ l → [a, b].Sublist (arrange l)) :
    [a, b].Sublist (sortTies (arrangedSort arrange) time top) := by
  induction top using sortTies.induct with
  | case1 => cases ha
  | case2 e rest ih =>
    obtain ⟨hhead, hrest⟩ := List.pairwise_cons.mp htop
    have hdrop := hrest.sublist (List.dropWhile_sublist fun b => decide (b.2 = e.2))
    have hlow := lt_of_mem_dropWhile hrest hhead
    have hmem : ∀ c ∈ e :: rest, c ∈ e :: (rest.takeWhile fun b => b.2 = e.2) ∨
        c ∈ rest.dropWhile fun b => b.2 = e.2 := by
      intro c hc
      rw [← List.mem_append, List.cons_append, List.takeWhile_append_dropWhile]
      exact hc
    have htied : ∀ c ∈ e :: rest.takeWhile (fun b => b.2 = e.2), c.2 = e.2 := by
      intro c hc
      rcases List.mem_cons.mp hc with rfl | hc
      · rfl
      · exact of_decide_eq_true (List.all_eq_true.mp List.all_takeWhile c hc)
    rw [sortTies]
    rcases hmem a ha with ha | ha
    · rcases hmem b hb with hb | hb
      · refine List.Sublist.trans ?_ (List.sublist_append_left _ _)
        have hpair := harrange _ ha hb
        have hlen : 1 < (e :: rest.takeWhile fun b => b.2 = e.2).length := by
          by_contra hlen
          have hnil : (rest.takeWhile fun b => b.2 = e.2) = [] := by
            rw [← List.length_eq_zero_iff]
            rw [List.length_cons] at hlen
            omega
          rw [hnil, List.mem_singleton] at ha hb
          exact hne (ha.trans hb.symm)
        rw [sortTie, if_pos hlen]
        refine pair_arranged (weak_key fun c : Member × S => time c.1) hpair ?_
        rw [htime]
        exact decide_eq_false (lt_irrefl _)
      · exact absurd ((htied a ha).symm.trans htie) (hlow b hb).ne'
    · rcases hmem b hb with hb | hb
      · exact absurd (htie.trans (htied b hb)) (hlow a ha).ne
      · exact (ih hdrop ha hb).trans (List.sublist_append_right _ _)

/-! ### The nicknames -/

theorem takeWhile_append_zeros (l : List UInt8) (n : ℕ) :
    (l ++ List.replicate n 0).takeWhile (· ≠ 0) = l.takeWhile (· ≠ 0) := by
  induction l with
  | nil => cases n <;> simp [List.replicate_succ]
  | cons c l ih =>
    by_cases hc : c = 0
    · simp [hc]
    · simp only [List.cons_append, List.takeWhile_cons, ih]

theorem cString_nicknameBytes (m : Member) :
    cString (nicknameBytes m) = (m.take 19).takeWhile (· ≠ 0) := by
  unfold cString nicknameBytes
  dsimp only
  rw [takeWhile_append_zeros]
  congr 1
  rcases le_total m.length 19 with h | h
  · rw [min_eq_left h, List.take_of_length_le h, List.take_of_length_le (le_refl _)]
  · rw [min_eq_right h]

/-- What an entry shows, an entry of that name shows too. -/
theorem cString_nicknameBytes_idem (m : Member) :
    cString (nicknameBytes (cString (nicknameBytes m))) = cString (nicknameBytes m) := by
  rw [cString_nicknameBytes, cString_nicknameBytes]
  have hlen : ((m.take 19).takeWhile (· ≠ 0)).length ≤ 19 :=
    (List.takeWhile_sublist _).length_le.trans (List.length_take_le 19 m)
  rw [List.take_of_length_le hlen, List.takeWhile_idem]

/-! ### The rank -/

omit [LinearOrder S] in
theorem idxOf_map_fst {l : List (Member × S)} (hnd : (l.map Prod.fst).Nodup)
    [BEq (Member × S)] [LawfulBEq (Member × S)] {e : Member × S} (he : e ∈ l) :
    (l.map Prod.fst).idxOf e.1 = l.idxOf e := by
  induction l with
  | nil => cases he
  | cons a l ih =>
    obtain ⟨hnot, hnd⟩ := List.nodup_cons.mp hnd
    by_cases ha : a = e
    · subst ha
      rw [List.map_cons, List.idxOf_cons_self, List.idxOf_cons_self]
    · have hmem : e ∈ l := (List.mem_cons.mp he).resolve_left fun h => ha h.symm
      have hfst : a.1 ≠ e.1 := fun h => hnot (h ▸ List.mem_map_of_mem hmem)
      rw [List.map_cons, List.idxOf_cons_ne _ hfst, List.idxOf_cons_ne _ ha, ih hnd hmem]

variable {set : SortedSet S} {toInt64 : S → ℤ}

theorem SortedSet.mem_unique (set : SortedSet S) {a e : Member × S} (ha : a ∈ set.entries)
    (he : e ∈ set.entries) (h : a.1 = e.1) : a = e := List.inj_on_of_nodup_map set.members ha he h

theorem zRevRankSync_of_mem {e : Member × S} (he : e ∈ set.entries) :
    zRevRankSync set e.1 = (set.entries.idxOf e : ℤ) := by
  unfold zRevRankSync
  rw [if_pos (List.mem_map_of_mem he), idxOf_map_fst set.members he]

theorem zScoreSync_of_mem {e : Member × S} (he : e ∈ set.entries) :
    zScoreSync toInt64 set e.1 = toInt64 e.2 := by
  unfold zScoreSync
  cases hfind : set.entries.find? fun a => a.1 = e.1 with
  | none => exact absurd (decide_eq_true rfl) (List.find?_eq_none.mp hfind e he)
  | some a =>
    have hname : decide (a.1 = e.1) = true :=
      List.find?_some (p := fun a : Member × S => decide (a.1 = e.1)) hfind
    rw [set.mem_unique (List.mem_of_find?_eq_some hfind) he (of_decide_eq_true hname)]

/-- The list before its ties are sorted. -/
theorem SortedSet.top_pairwise (set : SortedSet S) (n : ℕ) :
    (set.entries.take n).Pairwise fun a b => b.2 ≤ a.2 := by
  refine (set.sorted.sublist (List.take_sublist _ _)).imp fun {a b} h => ?_
  rcases h with h | h
  · exact h.le
  · exact h.1.le

theorem idxOf_take {n : ℕ} {e : Member × S} (he : e ∈ set.entries.take n) :
    (set.entries.take n).idxOf e = set.entries.idxOf e := by
  conv_rhs => rw [← List.take_append_drop n set.entries]
  rw [List.idxOf_append_of_mem he]

/-- What the result says, of the members of the list. -/
theorem agrees_iff (hsort : StdSort sort) (times : Member → Option ℤ) (seqID : ℤ)
    (nickname : List UInt8) :
    (rankingQuery sort toInt64 set times seqID nickname).Agrees nickname ↔
      ∀ e ∈ set.entries.take MAX_TOP_ENTRY, cString (nicknameBytes e.1) = cString nickname →
        ((sortTies sort (fun m => (times m).getD 0) (set.entries.take MAX_TOP_ENTRY)).idxOf e : ℤ) +
          1 = (rankingQuery sort toInt64 set times seqID nickname).myRank ∧
          toInt64 e.2 = zScoreSync toInt64 set (cString nickname) := by
  have hperm :
      (sortTies sort (fun m => (times m).getD 0) (set.entries.take MAX_TOP_ENTRY)).Perm _ :=
    sortTies_perm hsort _
  have hnd : (sortTies sort (fun m => (times m).getD 0) (set.entries.take MAX_TOP_ENTRY)).Nodup :=
    hperm.nodup_iff.mpr (set.members.of_map.sublist (List.take_sublist _ _))
  have hentries : (rankingQuery sort toInt64 set times seqID nickname).topEntries =
      (sortTies sort (fun m => (times m).getD 0) (set.entries.take MAX_TOP_ENTRY)).map
        fun e => ⟨nicknameBytes e.1, toInt64 e.2⟩ := rfl
  have hkills : (rankingQuery sort toInt64 set times seqID nickname).myKillCount =
      zScoreSync toInt64 set (cString nickname) := rfl
  unfold DBRankingResult.Agrees
  rw [hkills]
  constructor
  · intro h e he hnick
    have hmem := hperm.mem_iff.mpr he
    refine h _ ⟨nicknameBytes e.1, toInt64 e.2⟩ ?_ hnick
    rw [hentries, List.getElem?_map, List.getElem?_idxOf hmem]
    rfl
  · intro h idx entry hentry hnick
    rw [hentries, List.getElem?_map] at hentry
    obtain ⟨e, he, rfl⟩ := Option.map_eq_some_iff.mp hentry
    have hmem := List.mem_of_getElem? he
    obtain ⟨hlt, hget⟩ := List.getElem?_eq_some_iff.mp he
    have hidx : (sortTies sort (fun m => (times m).getD 0) (set.entries.take MAX_TOP_ENTRY)).idxOf
        e = idx := by
      rw [← hget]
      exact hnd.idxOf_getElem idx hlt
    have := h e (hperm.mem_iff.mp hmem) hnick
    rw [hidx] at this
    exact this

theorem myRank_of_mem (times : Member → Option ℤ) (seqID : ℤ) {nickname : List UInt8}
    {e : Member × S} (he : e ∈ set.entries) (hnick : e.1 = cString nickname) :
    (rankingQuery sort toInt64 set times seqID nickname).myRank =
    (set.entries.idxOf e : ℤ) + 1 := by
  have hrank : (rankingQuery sort toInt64 set times seqID nickname).myRank =
      if zRevRankSync set (cString nickname) = -1 then -1 else
        zRevRankSync set (cString nickname) + 1 := rfl
  rw [hrank, ← hnick, zRevRankSync_of_mem he, if_neg (by omega)]

theorem myRank_of_not_mem (times : Member → Option ℤ) (seqID : ℤ) {nickname : List UInt8}
    (h : ∀ e ∈ set.entries, e.1 ≠ cString nickname) :
    (rankingQuery sort toInt64 set times seqID nickname).myRank = -1 := by
  have hrank : (rankingQuery sort toInt64 set times seqID nickname).myRank =
      if zRevRankSync set (cString nickname) = -1 then -1 else
        zRevRankSync set (cString nickname) + 1 := rfl
  have hnot : cString nickname ∉ set.entries.map Prod.fst := by
    intro hmem
    obtain ⟨e, he, hnick⟩ := List.mem_map.mp hmem
    exact h e he hnick
  have hminus : zRevRankSync set (cString nickname) = -1 := if_neg hnot
  rw [hrank, if_pos hminus]

/-- An entry that shows the nickname of another member stands elsewhere. -/
theorem member_of_agrees (hsort : StdSort sort) {times : Member → Option ℤ}
    {seqID : ℤ} {nickname : List UInt8}
    (h : (rankingQuery sort toInt64 set times seqID nickname).Agrees nickname)
    {e : Member × S} (he : e ∈ set.entries.take MAX_TOP_ENTRY)
    (hnick : cString (nicknameBytes e.1) = cString nickname) :
    e.1 = cString nickname := by
  rw [agrees_iff hsort] at h
  have hperm :
      (sortTies sort (fun m => (times m).getD 0) (set.entries.take MAX_TOP_ENTRY)).Perm _ :=
    sortTies_perm hsort _
  have hpos := (h e he hnick).1
  have hlt := List.idxOf_lt_length_of_mem (hperm.mem_iff.mpr he)
  rw [hperm.length_eq, List.length_take] at hlt
  by_contra hne
  by_cases hown : ∃ a ∈ set.entries, a.1 = cString nickname
  · obtain ⟨a, ha, hname⟩ := hown
    rw [myRank_of_mem times seqID ha hname] at hpos
    by_cases htop : a ∈ set.entries.take MAX_TOP_ENTRY
    · -- the member of that name is shown too
      have hshown : cString (nicknameBytes a.1) = cString nickname := by
        rw [hname, ← hnick, cString_nicknameBytes_idem]
      have hpos' := (h a htop hshown).1
      rw [myRank_of_mem times seqID ha hname] at hpos'
      have hsame : (sortTies sort (fun m => (times m).getD 0)
          (set.entries.take MAX_TOP_ENTRY)).idxOf e = (sortTies sort (fun m => (times m).getD 0)
          (set.entries.take MAX_TOP_ENTRY)).idxOf a := by omega
      rw [List.idxOf_inj (hperm.mem_iff.mpr he)] at hsame
      exact hne (hsame ▸ hname)
    · have hbeyond : MAX_TOP_ENTRY ≤ set.entries.idxOf a := by
        by_contra hin
        apply htop
        have hlen := List.idxOf_lt_length_of_mem ha
        refine List.mem_iff_getElem.mpr ⟨set.entries.idxOf a, ?_, ?_⟩
        · rw [List.length_take]
          omega
        · rw [List.getElem_take, List.getElem_idxOf]
      omega
  · push Not at hown
    rw [myRank_of_not_mem times seqID hown] at hpos
    omega

/-- `e` first of those in `l`. -/
def toFront [DecidableEq S] (e : Member × S) (l : List (Member × S)) : List (Member × S) :=
  if e ∈ l then e :: l.erase e else l

/-- `e` last of those in `l`. -/
def toBack [DecidableEq S] (e : Member × S) (l : List (Member × S)) : List (Member × S) :=
  if e ∈ l then l.erase e ++ [e] else l

theorem stdSort_toFront (e : Member × S) : StdSort (arrangedSort (toFront e)) := by
  refine stdSort_arranged fun l => ?_
  unfold toFront
  split_ifs with h
  · exact (List.perm_cons_erase h).symm
  · exact .refl _

theorem stdSort_toBack (e : Member × S) : StdSort (arrangedSort (toBack e)) := by
  refine stdSort_arranged fun l => ?_
  unfold toBack
  split_ifs with h
  · exact List.perm_append_comm.trans (List.perm_cons_erase h).symm
  · exact .refl _

/-- Sorted with `e` before those that made their last kill at the same time. -/
theorem idxOf_toFront {top : List (Member × S)}
    (hnd : top.Nodup) (htop : top.Pairwise fun a b => b.2 ≤ a.2) {e : Member × S} (he : e ∈ top) :
    (sortTies (arrangedSort (toFront e)) time top).idxOf e =
      top.countP fun a => e.2 < a.2 ∨ a.2 = e.2 ∧ time a.1 < time e.1 := by
  have hsort := stdSort_toFront e
  have hperm : (sortTies _ time top).Perm top := sortTies_perm hsort top
  have hsorted : (sortTies _ time top).Pairwise _ := sortTies_sorted hsort htop
  have hnd' := hperm.nodup_iff.mpr hnd
  rw [← hperm.countP_eq]
  apply idxOf_eq_countP (hperm.mem_iff.mpr he)
  · simp
  · intro b hb hne
    have hmem := hperm.mem_iff.mp (hb.subset List.mem_cons_self)
    rcases List.pairwise_pair.mp (hsorted.sublist hb) with hlt | ⟨heq, hle⟩
    · exact decide_eq_true (Or.inl hlt)
    · refine decide_eq_true (Or.inr ⟨heq.symm, lt_of_le_of_ne (not_lt.mp hle) fun ht => ?_⟩)
      have hpair := pair_sortTies (toFront e) htop hne.symm he hmem heq ht.symm fun l hel hbl => by
        unfold toFront
        rw [if_pos hel]
        exact (List.singleton_sublist.mpr ((List.mem_erase_of_ne hne).mpr hbl)).cons_cons e
      exact not_pair_swap hnd' hpair hb
  · intro b hb
    rcases List.pairwise_pair.mp (hsorted.sublist hb) with hlt | ⟨heq, hle⟩
    · exact decide_eq_false (not_or.mpr ⟨hlt.asymm, fun hb => hlt.ne hb.1⟩)
    · exact decide_eq_false (not_or.mpr ⟨by rw [heq]; exact lt_irrefl _, fun hb => hle hb.2⟩)

/-- And behind them. -/
theorem idxOf_toBack {top : List (Member × S)} (hnd : top.Nodup)
    (htop : top.Pairwise fun a b => b.2 ≤ a.2) {e : Member × S} (he : e ∈ top) :
    (sortTies (arrangedSort (toBack e)) time top).idxOf e =
      top.countP fun a => (e.2 < a.2 ∨ a.2 = e.2 ∧ time a.1 < time e.1) ∨ a.2 = e.2 ∧ time a.1 =
        time e.1 ∧ a ≠ e := by
  have hsort := stdSort_toBack e
  have hperm : (sortTies _ time top).Perm top := sortTies_perm hsort top
  have hsorted : (sortTies _ time top).Pairwise _ := sortTies_sorted hsort htop
  have hnd' := hperm.nodup_iff.mpr hnd
  rw [← hperm.countP_eq]
  apply idxOf_eq_countP (hperm.mem_iff.mpr he)
  · simp
  · intro b hb hne
    rcases List.pairwise_pair.mp (hsorted.sublist hb) with hlt | ⟨heq, hle⟩
    · exact decide_eq_true (Or.inl (Or.inl hlt))
    · rcases lt_or_eq_of_le (not_lt.mp hle) with hlt | ht
      · exact decide_eq_true (Or.inl (Or.inr ⟨heq.symm, hlt⟩))
      · exact decide_eq_true (Or.inr ⟨heq.symm, ht, hne⟩)
  · intro b hb
    have hmem := hperm.mem_iff.mp (hb.subset (List.mem_cons_of_mem _ List.mem_cons_self))
    apply decide_eq_false
    rcases List.pairwise_pair.mp (hsorted.sublist hb) with hlt | ⟨heq, hle⟩
    · rintro ((h | ⟨h, -⟩) | ⟨h, -⟩)
      · exact hlt.asymm h
      · exact hlt.ne h
      · exact hlt.ne h
    · rintro ((h | ⟨-, h⟩) | ⟨-, ht, hne⟩)
      · rw [heq] at h
        exact lt_irrefl _ h
      · exact hle h
      · have hpair := pair_sortTies (toBack e) htop hne hmem he heq ht fun l hbl hel => by
          unfold toBack
          rw [if_pos hel]
          exact (List.singleton_sublist.mpr ((List.mem_erase_of_ne hne).mpr hbl)).append
            (List.Sublist.refl [e])
        exact not_pair_swap hnd' hpair hb

theorem countP_placed (top : List (Member × S)) (e : Member × S) (q : Member × S → Prop)
    [DecidablePred q] :
    (top.countP fun a => e.2 < a.2 ∨ a.2 = e.2 ∧ q a) =
      (top.countP fun a => e.2 < a.2) + top.countP fun a => a.2 = e.2 ∧ q a :=
  countP_or fun _ hlt heq => hlt.ne heq.1.symm

end

/-- Whatever `std::sort` does with what is equivalent, the list agrees with the own rank if and only
if every entry that shows the nickname is of the member of that name, and its tie is placed. -/
theorem ranking_agrees_iff {S : Type} [LinearOrder S] (toInt64 : S → ℤ) (set : SortedSet S)
    (times : Member → Option ℤ) (seqID : ℤ) (nickname : List UInt8) :
    (∀ sort, StdSort sort → (rankingQuery sort toInt64 set times seqID nickname).Agrees nickname) ↔
      ∀ e ∈ set.entries.take MAX_TOP_ENTRY, cString (nicknameBytes e.1) = cString nickname →
        e.1 = cString nickname ∧ Placed (set.entries.take MAX_TOP_ENTRY)
          (fun m => (times m).getD 0) e := by
  have hnd : (set.entries.take MAX_TOP_ENTRY).Nodup :=
    set.members.of_map.sublist (List.take_sublist _ _)
  have htop := set.top_pairwise MAX_TOP_ENTRY
  have hrank : ∀ e ∈ set.entries.take MAX_TOP_ENTRY, set.entries.idxOf e =
      ((set.entries.take MAX_TOP_ENTRY).countP fun a => e.2 < a.2) +
        (set.entries.take MAX_TOP_ENTRY).countP fun a => a.2 = e.2 ∧ e.1 < a.1 := by
    intro e he
    rw [← idxOf_take he, idxOf_top (set.sorted.sublist (List.take_sublist _ _)) he, countP_placed]
  constructor
  · intro h e he hnick
    have hname := member_of_agrees (stdSort_toFront e) (h _ (stdSort_toFront e)) he hnick
    have hmem := List.mem_of_mem_take he
    have hfront := ((agrees_iff (stdSort_toFront e) times seqID nickname).mp
      (h _ (stdSort_toFront e)) e he hnick).1
    have hback := ((agrees_iff (stdSort_toBack e) times seqID nickname).mp
      (h _ (stdSort_toBack e)) e he hnick).1
    rw [myRank_of_mem times seqID hmem hname, idxOf_toFront hnd htop he, hrank e he,
      countP_placed] at hfront
    rw [myRank_of_mem times seqID hmem hname, idxOf_toBack hnd htop he, hrank e he, countP_or,
      countP_placed] at hback
    · refine ⟨hname, fun a ha htie htime => ?_,
        Nat.add_left_cancel (Int.ofNat_inj.mp (add_right_cancel hfront))⟩
      by_contra hne
      have hpos : 0 < (set.entries.take MAX_TOP_ENTRY).countP
          fun a => a.2 = e.2 ∧ (times a.1).getD 0 = (times e.1).getD 0 ∧ a ≠ e :=
        List.countP_pos_iff.mpr ⟨a, ha, decide_eq_true ⟨htie, htime, hne⟩⟩
      omega
    · rintro a (h | h) htie
      · exact h.ne htie.1.symm
      · exact h.2.ne htie.2.1
  · intro h sort hsort
    rw [agrees_iff hsort]
    intro e he hnick
    obtain ⟨hname, halone, hcount⟩ := h e he hnick
    have hmem := List.mem_of_mem_take he
    rw [myRank_of_mem times seqID hmem hname, idxOf_sorted hsort htop he halone, hrank e he,
      countP_placed, hcount, ← hname, zScoreSync_of_mem hmem]
    exact ⟨rfl, rfl⟩

/-- Two players of one kill each, of whom "a" made it first. -/
def tiedSet : SortedSet ℤ := ⟨[([98], 1), ([97], 1)], by decide, by decide⟩

/-- "a" is the first of the list, and its own rank is 2. -/
theorem tiedSet_not_agrees : ¬∀ sort, StdSort sort →
    (rankingQuery sort id tiedSet (fun m => if m = [97] then some 100 else some 200) 0 [97]).Agrees
    [97] := by
  rw [ranking_agrees_iff]
  intro h
  have hplaced := (h ([97], 1) (by decide) (by decide)).2.2
  revert hplaced
  decide

end Ranking
end MyMMO
