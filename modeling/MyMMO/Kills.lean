/-
# Kills

A monster dies in `processPlayerAttackHit` and nowhere else, and there the drop and the job for the
kill go with the death (`Credited`). So in every run there are as many of them as there are deaths,
and each job is that of the player whose hit it was (`kills_credited`).
-/
import MyMMO.FieldIndex
import MyMMO.MonsterTick

namespace MyMMO
namespace Field

open Outcome

variable {F : Type}

/-! ### The history of the monsters -/

/-- The changes of `mState` from not Dead to Dead: which monster, and by whose hit. -/
def deaths (h : List Event) : List (ℤ × Option ℕ) :=
  h.filterMap fun
    | .monsterState attacker id old new =>
        if old ≠ .dead ∧ new = .dead then some (id, attacker) else none
    | _ => none

/-- The monsters for which `dropItem` was called. -/
def drops (h : List Event) : List ℤ :=
  h.filterMap fun
    | .dropItem id => some id
    | _ => none

/-- The KillCountUpdate jobs: for which monster, and the player, account and nickname that they
carry. -/
def credits (h : List Event) : List (ℤ × ℕ × ℤ × List UInt8) :=
  h.filterMap fun
    | .killCountUpdate id q accountNo nickname => some (id, q, accountNo, nickname)
    | _ => none

/-- The KillCountUpdate jobs among `jobs`. -/
def killJobs (jobs : List (DBJob F)) : List (ℕ × ℤ × List UInt8 × ℤ) :=
  jobs.filterMap fun
    | .killCountUpdate q accountNo nickname killCnt => some (q, accountNo, nickname, killCnt)
    | _ => none

/-- What `mState` of the monster `id` has been changed from and to. -/
def trace (id : ℤ) (h : List Event) : List (MonsterState × MonsterState) :=
  h.filterMap fun
    | .monsterState _ id' old new => if id' = id then some (old, new) else none
    | _ => none

/-- The changes follow each other from the first state to the last. -/
def Links : MonsterState → List (MonsterState × MonsterState) → MonsterState → Prop
  | first, [], last => first = last
  | first, (old, new) :: changes, last => first = old ∧ Links new changes last

theorem Links.append {first mid last : MonsterState} {as bs : List (MonsterState × MonsterState)}
    (h : Links first as mid) (h' : Links mid bs last) : Links first (as ++ bs) last := by
  induction as generalizing first with
  | nil =>
    obtain rfl : first = mid := h
    exact h'
  | cons a as ih => exact ⟨h.1, ih h.2⟩

@[simp] theorem deaths_append (h es : List Event) : deaths (h ++ es) = deaths h ++ deaths es :=
  List.filterMap_append

@[simp] theorem drops_append (h es : List Event) : drops (h ++ es) = drops h ++ drops es :=
  List.filterMap_append

@[simp] theorem credits_append (h es : List Event) : credits (h ++ es) = credits h ++ credits es :=
  List.filterMap_append

@[simp] theorem killJobs_append (as bs : List (DBJob F)) :
    killJobs (as ++ bs) = killJobs as ++ killJobs bs :=
  List.filterMap_append

@[simp] theorem trace_append (id : ℤ) (h es : List Event) :
    trace id (h ++ es) = trace id h ++ trace id es :=
  List.filterMap_append

theorem deaths_monsterState (attacker : Option ℕ) (id : ℤ) (old new : MonsterState) :
    deaths [.monsterState attacker id old new] = if old ≠ .dead ∧ new = .dead then
      [(id, attacker)] else [] := by
  unfold deaths
  split_ifs with h <;> simp [h]

theorem trace_monsterState (attacker : Option ℕ) (id id' : ℤ) (old new : MonsterState) :
    trace id' [.monsterState attacker id old new] = if id = id' then [(old, new)] else [] := by
  unfold trace
  split_ifs with h <;> simp [h]

/-- Events that are not in the life of a monster. -/
def Peaceful (es : List Event) : Prop :=
  deaths es = [] ∧ drops es = [] ∧ credits es = [] ∧ ∀ id, trace id es = []

/-! ### Credit -/

/-- Deaths, drops and jobs agree. -/
structure Credited (s : State F) : Prop where
  dropped : drops s.history = (deaths s.history).map Prod.fst
  credited : (credits s.history).map (fun c => (c.1, some c.2.1)) = deaths s.history
  owner : ∀ c ∈ credits s.history, c.2.1 ∈ s.met ∧ c.2.2.1 = (s.player c.2.1).accountNo ∧
    c.2.2.2 = (s.player c.2.1).nickname
  -- the jobs are taken in order
  jobs : ∃ done, (credits s.history).map (fun c => (c.2.1, c.2.2.1, c.2.2.2, (1 : ℤ))) =
    done ++ killJobs (s.dbJob.toList ++ s.dbReqQ)
  links : ∀ id ∈ s.monsters, Links .idle (trace id s.history) (s.monster id).state

/-- `t` has the players of `s`, and some more. -/
def SameNames (s t : State F) : Prop :=
  ∀ q ∈ s.met, q ∈ t.met ∧ (t.player q).accountNo = (s.player q).accountNo ∧
    (t.player q).nickname = (s.player q).nickname

section

variable {s t : State F}

theorem sameNames_of_eq (hp : t.player = s.player) (hmet : t.met = s.met) : SameNames s t :=
  fun q hq => ⟨by rwa [hmet], by rw [hp], by rw [hp]⟩

theorem Frame.sameNames (h : Frame s t) : SameNames s t :=
  fun q hq => ⟨by rwa [h.met], h.accountNo q, h.nickname q⟩

theorem Moves.sameNames (h : Moves s t) : SameNames s t := by
  cases h with
  | frame hf => exact hf.sameNames
  | cross q hq =>
    intro q' hq'
    obtain ⟨sent, hrest⟩ := cross_rest (s := s) q
    refine ⟨by rwa [hrest], ?_⟩
    rw [cross_player]
    split_ifs with he
    · rw [he]
      exact ⟨rfl, rfl⟩
    · exact ⟨rfl, rfl⟩
  | enter q p hq hid hname hcur hdest =>
    intro q' hq'
    have hother : (s.enter q p).player q' = s.player q' := by
      apply Function.update_of_ne
      rintro rfl
      exact hq hq'
    refine ⟨List.mem_cons_of_mem _ hq', ?_⟩
    rw [sendSpawns_player, hother]
    exact ⟨rfl, rfl⟩
  | rehash hp hps hsec hmet hsent => exact sameNames_of_eq hp hmet

/-- What has no part in it: the containers may be reordered, and jobs taken. -/
theorem Credited.of_events {es : List Event} (h : Credited s) (hn : SameNames s t)
    (hh : t.history = s.history ++ es) (hes : Peaceful es) (hm : t.monster = s.monster)
    (hms : t.monsters.Perm s.monsters)
    (hjobs : ∃ done, killJobs (s.dbJob.toList ++ s.dbReqQ) = done ++
      killJobs (t.dbJob.toList ++ t.dbReqQ)) :
    Credited t := by
  obtain ⟨hdeaths, hdrops, hcredits, htrace⟩ := hes
  have hdeath : deaths t.history = deaths s.history := by
    rw [hh, deaths_append, hdeaths, List.append_nil]
  have hcredit : credits t.history = credits s.history := by
    rw [hh, credits_append, hcredits, List.append_nil]
  refine ⟨?_, ?_, fun c hc => ?_, ?_, fun id hid => ?_⟩
  · rw [hdeath, hh, drops_append, hdrops, List.append_nil]
    exact h.dropped
  · rw [hcredit, hdeath]
    exact h.credited
  · rw [hcredit] at hc
    obtain ⟨hmet, hacc, hnick⟩ := h.owner c hc
    obtain ⟨hmet', hacc', hnick'⟩ := hn _ hmet
    exact ⟨hmet', hacc.trans hacc'.symm, hnick.trans hnick'.symm⟩
  · obtain ⟨done, hdone⟩ := h.jobs
    obtain ⟨taken, htaken⟩ := hjobs
    exact ⟨done ++ taken, by rw [hcredit, hdone, htaken, List.append_assoc]⟩
  · rw [hh, trace_append, htrace, List.append_nil, hm]
    exact h.links id (hms.mem_iff.mp hid)

/-- The monster `id` changes its state and does not die. -/
theorem Credited.change (h : Credited s)
    {id : ℤ} {attacker : Option ℕ} {new : MonsterState} (hn : SameNames s t)
    (hh : t.history = s.history ++ [.monsterState attacker id (s.monster id).state new])
    (hnew : (t.monster id).state = new) (hlive : new = .dead → (s.monster id).state = .dead)
    (hm : ∀ id', id' ≠ id → t.monster id' = s.monster id') (hms : t.monsters = s.monsters)
    (hreq : t.dbReqQ = s.dbReqQ) (hjob : t.dbJob = s.dbJob) : Credited t := by
  have hnodeath : deaths [.monsterState attacker id (s.monster id).state new] = [] := by
    rw [deaths_monsterState, if_neg fun hd => hd.1 (hlive hd.2)]
  have hdeath : deaths t.history = deaths s.history := by
    rw [hh, deaths_append, hnodeath, List.append_nil]
  have hcredit : credits t.history = credits s.history := by
    rw [hh, credits_append]
    exact List.append_nil _
  refine ⟨?_, ?_, fun c hc => ?_, ?_, fun id' hid => ?_⟩
  · rw [hdeath, hh, drops_append, ← h.dropped]
    exact List.append_nil _
  · rw [hcredit, hdeath]
    exact h.credited
  · rw [hcredit] at hc
    obtain ⟨hmet, hacc, hnick⟩ := h.owner c hc
    obtain ⟨hmet', hacc', hnick'⟩ := hn _ hmet
    exact ⟨hmet', hacc.trans hacc'.symm, hnick.trans hnick'.symm⟩
  · rw [hcredit, hreq, hjob]
    exact h.jobs
  · rw [hms] at hid
    have hlinks := h.links id' hid
    rw [hh, trace_append, trace_monsterState]
    by_cases he : id' = id
    · subst he
      rw [if_pos rfl]
      exact hlinks.append ⟨rfl, hnew.symm⟩
    · rw [hm id' he, if_neg (Ne.symm he), List.append_nil]
      exact hlinks

/-- The monster `id` dies of a hit of `q`. -/
theorem Credited.kill (h : Credited s) {id : ℤ} {q : ℕ} {es : List Event} (hn : SameNames s t)
    (hq : q ∈ s.met)
    (hh : t.history = s.history ++ [.monsterState (some q) id (s.monster id).state .dead] ++
      [.dropItem id] ++ es ++ [.killCountUpdate id q (s.player q).accountNo (s.player q).nickname])
    (hes : Peaceful es) (hstate : (s.monster id).state ≠ .dead)
    (hdead : (t.monster id).state = .dead) (hm : ∀ id', id' ≠ id → t.monster id' = s.monster id')
    (hms : t.monsters = s.monsters)
    (hreq : t.dbReqQ = s.dbReqQ ++
      [.killCountUpdate q (s.player q).accountNo (s.player q).nickname 1])
    (hjob : t.dbJob = s.dbJob) : Credited t := by
  obtain ⟨hdeaths, hdrops, hcredits, htrace⟩ := hes
  have hdeath : deaths t.history = deaths s.history ++ [(id, some q)] := by
    rw [hh, deaths_append, deaths_append, deaths_append, deaths_append, hdeaths,
      deaths_monsterState, if_pos ⟨hstate, rfl⟩, List.append_nil]
    exact (List.append_nil _).trans (List.append_nil _)
  have hdrop : drops t.history = drops s.history ++ [id] := by
    rw [hh, drops_append, drops_append, drops_append, drops_append, hdrops, List.append_nil]
    exact (List.append_nil _).trans (congrArg (· ++ [id]) (List.append_nil _))
  have hcredit : credits t.history = credits s.history ++
      [(id, q, (s.player q).accountNo, (s.player q).nickname)] := by
    rw [hh, credits_append, credits_append, credits_append, credits_append, hcredits,
      List.append_nil]
    exact congrArg (· ++ _) ((List.append_nil _).trans (List.append_nil _))
  refine ⟨?_, ?_, fun c hc => ?_, ?_, fun id' hid => ?_⟩
  · rw [hdrop, hdeath, List.map_append, h.dropped]
    rfl
  · rw [hcredit, hdeath, List.map_append, h.credited]
    rfl
  · rw [hcredit] at hc
    rcases List.mem_append.mp hc with hc | hc
    · obtain ⟨hmet, hacc, hnick⟩ := h.owner c hc
      obtain ⟨hmet', hacc', hnick'⟩ := hn _ hmet
      exact ⟨hmet', hacc.trans hacc'.symm, hnick.trans hnick'.symm⟩
    · rw [List.mem_singleton.mp hc]
      obtain ⟨hmet', hacc', hnick'⟩ := hn _ hq
      exact ⟨hmet', hacc'.symm, hnick'.symm⟩
  · obtain ⟨done, hdone⟩ := h.jobs
    refine ⟨done, ?_⟩
    rw [hcredit, List.map_append, hdone, hreq, hjob, ← List.append_assoc s.dbJob.toList,
      killJobs_append (s.dbJob.toList ++ s.dbReqQ), ← List.append_assoc]
    rfl
  · rw [hms] at hid
    have hlinks := h.links id' hid
    have htrace' : trace id' t.history = trace id' s.history ++ if id = id' then
        [((s.monster id).state, .dead)] else [] := by
      rw [hh, trace_append, trace_append, trace_append, trace_append, htrace, List.append_nil,
        trace_monsterState]
      exact (List.append_nil _).trans (List.append_nil _)
    rw [htrace']
    by_cases he : id' = id
    · subst he
      rw [if_pos rfl]
      exact hlinks.append ⟨rfl, hdead.symm⟩
    · rw [hm id' he, if_neg (Ne.symm he), List.append_nil]
      exact hlinks

theorem Credited.of_eq (h : Credited s) (hn : SameNames s t) (hh : t.history = s.history)
    (hm : t.monster = s.monster) (hms : t.monsters = s.monsters) (hreq : t.dbReqQ = s.dbReqQ)
    (hjob : t.dbJob = s.dbJob) : Credited t :=
  h.of_events hn (hh.trans (List.append_nil _).symm) ⟨rfl, rfl, rfl, fun _ => rfl⟩ hm (by rw [hms])
    ⟨[], by rw [hreq, hjob, List.nil_append]⟩

theorem Credited.of_event {e : Event} (h : Credited s) (hn : SameNames s t)
    (hh : t.history = s.history ++ [e]) (he : Peaceful [e]) (hm : t.monster = s.monster)
    (hms : t.monsters = s.monsters) (hreq : t.dbReqQ = s.dbReqQ) (hjob : t.dbJob = s.dbJob) :
    Credited t :=
  h.of_events hn hh he hm (by rw [hms]) ⟨[], by rw [hreq, hjob, List.nil_append]⟩

/-- Another job is queued. -/
theorem Credited.enqueue {job : DBJob F} {es : List Event} (h : Credited s) (hn : SameNames s t)
    (hh : t.history = s.history ++ es) (hes : Peaceful es) (hm : t.monster = s.monster)
    (hms : t.monsters = s.monsters) (hreq : t.dbReqQ = s.dbReqQ ++ [job])
    (hno : killJobs [job] = []) (hjob : t.dbJob = s.dbJob) : Credited t := by
  refine h.of_events hn hh hes hm (by rw [hms]) ⟨[], ?_⟩
  rw [hreq, hjob, ← List.append_assoc, killJobs_append (s.dbJob.toList ++ s.dbReqQ), hno,
    List.append_nil]
  rfl

/-- The monsters are rewritten, their states apart. -/
theorem Credited.of_states (h : Credited s) (hn : SameNames s t) (hh : t.history = s.history)
    (hms : t.monsters = s.monsters) (hreq : t.dbReqQ = s.dbReqQ) (hjob : t.dbJob = s.dbJob)
    (hstate : ∀ id, (t.monster id).state = (s.monster id).state) :
    Credited t := by
  have hall := h.of_eq (t := { t with monster := s.monster }) hn hh rfl hms hreq hjob
  refine ⟨hall.dropped, hall.credited, hall.owner, hall.jobs, fun id hid => ?_⟩
  rw [hstate]
  exact hall.links id hid

theorem update_state {f : ℤ → Monster F} {id : ℤ} {m : Monster F}
    (h : m.state = (f id).state) (id' : ℤ) :
    (Function.update f id m id').state = (f id').state := by
  rw [Function.update_apply]
  split_ifs with he
  · rw [he, h]
  · rfl

theorem settle_state (s : State F) (id id' : ℤ) :
    ((s.settle id).monster id').state = (s.monster id').state := by
  unfold State.settle
  rw [setMonster_monster]
  split_ifs with he
  · rw [he]
  · rfl

theorem Credited.handBack (h : Credited s) (hs : Index s) (q : ℕ) : Credited (s.handBack q) := by
  obtain ⟨u, hf, -, he⟩ := frame_handBack hs q
  have hn : SameNames s (s.handBack q) := by
    rw [he]
    exact hf.sameNames
  exact h.of_event hn rfl ⟨rfl, rfl, rfl, fun _ => rfl⟩ rfl rfl rfl rfl

variable [Machine F]

/-- A drop, whatever it comes to, is that of the items alone. -/
theorem Dropped.only {m : Monster F} (h : Dropped s m t) : ∃ es, Peaceful es ∧
    t.history = s.history ++ [.dropItem m.monsterID] ++ es ∧ t.player = s.player ∧
      t.monster = s.monster ∧
      t.monsters = s.monsters ∧ t.dbReqQ = s.dbReqQ ∧ t.dbJob = s.dbJob := by
  cases h with
  | nothing rands =>
    exact ⟨[], ⟨rfl, rfl, rfl, fun _ => rfl⟩, (List.append_nil _).symm, rfl, rfl, rfl, rfl, rfl⟩
  | item itemId count rands =>
    exact ⟨[.itemCreated (s.itemUniqueID + 1) itemId count], ⟨rfl, rfl, rfl, fun _ => rfl⟩, rfl,
      rfl, rfl, rfl, rfl, rfl⟩

theorem Act.credited (ha : Act s t) (hs : Sound s) (h : Credited s) : Credited t := by
  have hn := ha.moves.sameNames
  cases ha with
  | hit q id m hq hid hstate hm hdead hgrid =>
    have hself : (s.hitMonster q id m).monster id = m := Function.update_self _ _ _
    exact h.change hn rfl (congrArg Monster.state hself) (fun hd => absurd hd hdead)
      (fun id' hne => Function.update_of_ne hne _ _) rfl rfl rfl
  | kill q id m u hq hid hstate hm hdead hgrid hu =>
    have hself : (s.hitMonster q id m).monster id = m := Function.update_self _ _ _
    have hother : ∀ id', id' ≠ id → (s.hitMonster q id m).monster id' = s.monster id' :=
      fun id' hne => Function.update_of_ne hne _ _
    have hname : m.monsterID = id := by
      rw [monster_takeDamage_eq hm]
      exact hs.monsters.name id hid
    have hq := hs.players.met q hq
    obtain ⟨es, hes, hhistory, hrest⟩ := hu.only
    have hplayer : u.player = s.player := hrest.1
    refine h.kill hn hq ?_ hes hstate ?_ (fun id' hne => ?_) hrest.2.2.1 ?_ hrest.2.2.2.2
    · rw [← hplayer, ← hdead]
      change u.history ++ [_] = _
      rw [hhistory, hname]
      rfl
    · change (u.monster id).state = .dead
      rw [hrest.2.1, hself, hdead]
    · change u.monster id' = s.monster id'
      rw [hrest.2.1, hother id' hne]
    · rw [← hplayer]
      change u.dbReqQ ++ [_] = _
      rw [hrest.2.2.2.1]
      rfl
  | cross q hq hne =>
    obtain ⟨sent, hrest⟩ := cross_rest (s := s) q
    rw [hrest] at hn ⊢
    exact h.of_eq hn rfl rfl rfl rfl rfl
  | request q hq =>
    exact h.enqueue hn (List.append_nil _).symm ⟨rfl, rfl, rfl, fun _ => rfl⟩ rfl rfl rfl rfl rfl
  | save q hq hconnect hpending =>
      exact h.enqueue hn rfl ⟨rfl, rfl, rfl, fun _ => rfl⟩ rfl rfl rfl rfl rfl
  | dbDequeue job dbReqQ hjob hqueue =>
    refine h.of_events hn (List.append_nil _).symm ⟨rfl, rfl, rfl,
      fun _ => rfl⟩ rfl (.refl _) ⟨[], ?_⟩
    rw [hjob, hqueue]
    rfl
  | dbAnswer job ranking hjob =>
    refine h.of_events hn (List.append_nil _).symm ⟨rfl, rfl, rfl, fun _ => rfl⟩ rfl (.refl _)
      ⟨killJobs [job], ?_⟩
    rw [hjob, killJobs_append]
    rfl
  | rehash players sectors monsters monsterSectors items itemSectors hp hs hm hms hi his =>
    exact h.of_events hn (List.append_nil _).symm ⟨rfl, rfl, rfl, fun _ => rfl⟩ rfl hm ⟨[], rfl⟩
  | _ =>
    first
    | exact h.of_eq hn rfl rfl rfl rfl rfl
    | exact h.of_event hn rfl ⟨rfl, rfl, rfl, fun _ => rfl⟩ rfl rfl rfl rfl

theorem MonsterAct.credited {id : ℤ} (ha : MonsterAct id s t) (h : Credited s) : Credited t := by
  have hn : SameNames s t := ha.frame.sameNames
  -- what is left of a monster but its state
  have hkeep : ∀ {u : State F}, u.history = s.history → u.monsters = s.monsters →
      u.dbReqQ = s.dbReqQ →
      u.dbJob = s.dbJob → SameNames s u → (∀ id', (u.monster id').state = (s.monster id').state) →
        Credited u :=
    fun hh hms hreq hjob hn hstate => h.of_states hn hh hms hreq hjob hstate
  cases ha with
  | update m rands hid hm =>
    have hself : (s.setMonster id (updateMonsterSectorCheck m)).monster id =
        updateMonsterSectorCheck m :=
      Function.update_self _ _ _
    have hstate : (updateMonsterSectorCheck m).state = m.state := by
      rw [updateMonsterSectorCheck_eq]
    exact h.change hn rfl ((congrArg Monster.state hself).trans hstate) (nextMonster_dies hm)
      (fun id' hne => Function.update_of_ne hne _ _) rfl rfl rfl
  | cross hid hstate hne => exact hkeep rfl rfl rfl rfl hn (update_state rfl)
  | proc ht =>
    cases ht with
    | moveStart hid hstate hbefore => exact hkeep rfl rfl rfl rfl hn (update_state rfl)
    | moveAgain hid hstate hbefore => exact hkeep rfl rfl rfl rfl hn (update_state rfl)
    | attack hid hstate => exact hkeep rfl rfl rfl rfl hn (update_state rfl)
    | moveStop hid hstate hbefore => exact hkeep rfl rfl rfl rfl hn (update_state rfl)
    | respawn hid hstate hbefore hsame => exact hkeep rfl rfl rfl rfl hn (update_state rfl)
    | respawnAway hid hstate hbefore hne =>
      refine hkeep rfl rfl rfl rfl hn fun id' => ?_
      have hmove : ∀ id', ((s.moveMonster id (s.monster id)).monster id').state =
          (s.monster id').state := update_state rfl
      exact (settle_state _ id id').trans (hmove id')
    | settle hid hstate => exact hkeep rfl rfl rfl rfl hn (update_state rfl)

theorem PlayerAct.credited {q : ℕ} (ha : PlayerAct q s t) (h : Credited s) : Credited t := by
  have hn : SameNames s t := ha.frame.sameNames
  cases ha with
  | update p hq hp hframe => exact h.of_eq hn rfl rfl rfl rfl rfl
  | attackHit p hq hp hstate hframe =>
      exact h.of_event hn rfl ⟨rfl, rfl, rfl, fun _ => rfl⟩ rfl rfl rfl rfl

omit [Machine F] in
theorem ItemAct.credited {id : ℤ} (ha : ItemAct id s t) (h : Credited s) : Credited t := by
  cases ha with
  | update hid hlife => exact h.of_eq (sameNames_of_eq rfl rfl) rfl rfl rfl rfl rfl
  | expire hid hlife hgrid =>
    exact h.of_event (e := .expired id) (sameNames_of_eq rfl rfl) rfl ⟨rfl, rfl, rfl,
      fun _ => rfl⟩ rfl rfl rfl rfl

theorem Fresh.credited (h : Fresh s) : Credited s := by
  obtain ⟨hplayers, hmet, hsent, hhistory⟩ := h.nobody
  obtain ⟨hreq, hjob, -, -⟩ := h.idle
  refine ⟨?_, ?_, ?_, ⟨[], ?_⟩, fun id hid => ?_⟩
  · rw [hhistory]
    rfl
  · rw [hhistory]
    rfl
  · rw [hhistory]
    exact fun _ hc => absurd hc List.not_mem_nil
  · rw [hhistory, hreq, hjob]
    rfl
  · rw [hhistory]
    exact (h.still id hid).1.symm

end

end Field
end MyMMO
