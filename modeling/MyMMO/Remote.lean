/-
# Remote players that set out and stop

`FieldScene` keeps of every other character whether it moves (`mBMove`), and asserts that one that
sets out stands still. MOVE_STOP and CHARACTER_DAMAGED end a move there, OTHER_CHARACTER_ATTACK does
not; but `handleAttackReq` takes a player out of Move and says no more than that, and its next
MOVE_START finds the actor still moving (`setsOut_twice`). In every run in which no such MOVE_START
is accepted while somebody is around, no assertion about a character fails (`remote_inStep`).
-/
import MyMMO.Aoi
import MyMMO.MonsterMoves
import MyMMO.Cooldown
import MyMMO.Reports

namespace MyMMO
namespace Field

open Outcome

variable {F : Type}

/-! ### The client -/

/-- OTHER_CHARACTER_SPAWN: an actor that is not there yet, and moves if the character does. -/
def remoteSpawn (state : PlayerState) : Option Bool → Option (Option Bool)
  | none => some (some (decide (state = .move)))
  | some _ => none

/-- One of the characters of a spawn. -/
def seeCharacterRecord (id : ℤ) (actor : Option (Option Bool)) (record : CharacterRecord F) :
    Option (Option Bool) :=
  if record.characterID = id then actor.bind (remoteSpawn record.state) else actor

/-- A packet reaches the client: its actor of the character `id`, as of a monster in `seeMonster`.
CHARACTER_DAMAGED is the one packet that may be about a character that is not there. -/
def seeCharacter (id : ℤ) (actor : Option (Option Bool)) : Packet F → Option (Option Bool)
  | .otherCharacterSpawn record => seeCharacterRecord id actor record
  | .otherCharacterSpawnBatch _ records => records.foldl (seeCharacterRecord id) actor
  | .characterDespawn id' => if id' = id then actor.map fun _ => none else actor
  | .moveStart id' _ _ _ => if id' = id then actor.bind actorMoveStart else actor
  | .moveStop id' _ _ => if id' = id then actor.bind actorStop else actor
  | .otherCharacterAttack id' => if id' = id then actor.bind actorAttack else actor
  | .characterDamaged id' _ _ _ _ =>
      if id' = id then actor.map fun mBMove => mBMove.map fun _ => false else actor
  | _ => actor

/-- The actor of the character `id` in the client of `o`; none if an assertion about it has failed.
-/
def characterOf (s : State F) (o : ℕ) (id : ℤ) : Option (Option Bool) :=
  told (seeCharacter id) (some none) s o

/-- A packet about a character. -/
def Packet.OfCharacter : Packet F → Prop
  | .otherCharacterSpawn _ | .otherCharacterSpawnBatch _ _ | .characterDespawn _
  | .moveStart _ _ _ _ | .moveStop _ _ _
  | .otherCharacterAttack _ | .characterDamaged _ _ _ _ _ => True
  | _ => False

theorem seeCharacter_still {id : ℤ} {packet : Packet F} (h : ¬packet.OfCharacter)
    (actor : Option (Option Bool)) :
    seeCharacter id actor packet = actor := by
  cases packet <;> first | rfl | exact absurd trivial h

/-! ### Characters that are spawned and despawned -/

section

variable {s t : State F} {id : ℤ} {qs : List ℕ}

theorem foldl_seeCharacterRecord_of_ne (h : ∀ q ∈ qs, (s.player q).characterID ≠ id)
    (actor : Option (Option Bool)) :
    (qs.map fun q => (s.player q).record).foldl (seeCharacterRecord id) actor = actor := by
  induction qs with
  | nil => rfl
  | cons q qs ih =>
    have hne : (s.player q).record.characterID ≠ id := h q List.mem_cons_self
    rw [List.map_cons, List.foldl_cons, seeCharacterRecord, if_neg hne]
    exact ih fun q' hq' => h q' (List.mem_cons_of_mem _ hq')

/-- A spawn of different characters is one of `q` if it is among them. -/
theorem foldl_seeCharacterRecord (hnd : qs.Nodup) {q : ℕ}
    (hid : ∀ q' ∈ qs, (s.player q').characterID = (s.player q).characterID → q' = q)
    (actor : Option (Option Bool)) :
    (qs.map fun q => (s.player q).record).foldl (seeCharacterRecord (s.player q).characterID)
    actor = if q ∈ qs then actor.bind (remoteSpawn (s.player q).state) else actor := by
  induction qs generalizing actor with
  | nil => rfl
  | cons q' qs ih =>
    obtain ⟨hnot, hnd⟩ := List.nodup_cons.mp hnd
    have hrest : ∀ q'' ∈ qs, (s.player q'').characterID = (s.player q).characterID → q'' = q :=
      fun q'' hq'' =>
      hid q'' (List.mem_cons_of_mem _ hq'')
    rw [List.map_cons, List.foldl_cons, ih hnd hrest, seeCharacterRecord]
    by_cases he : q' = q
    · subst he
      rw [if_neg hnot, if_pos List.mem_cons_self]
      exact if_pos rfl
    · have hne : (s.player q').record.characterID ≠ (s.player q).characterID :=
        fun heq => he (hid q' List.mem_cons_self heq)
      rw [if_neg hne]
      simp only [List.mem_cons, Ne.symm he, false_or]

theorem foldl_seeCharacterDespawn (actor : Option (Option Bool)) :
    (qs.map fun q => (Packet.characterDespawn (s.player q).characterID : Packet F)).foldl
    (seeCharacter id) actor = if id ∈ qs.map fun q =>
    (s.player q).characterID then actor.map fun _ => none else actor := by
  induction qs generalizing actor with
  | nil => rfl
  | cons q qs ih =>
    rw [List.map_cons, List.foldl_cons, ih]
    change (if _ then Option.map (fun _ => none) (if (s.player q).characterID = id then _ else _)
      else if (s.player q).characterID = id then _ else _) = _
    by_cases he : (s.player q).characterID = id
    · rw [if_pos he, List.map_cons, if_pos (show id ∈ _ :: _ from he ▸ List.mem_cons_self),
        Option.map_map]
      exact ite_self _
    · simp only [he, if_false, List.map_cons, List.mem_cons, Ne.symm he, false_or]

variable {near : List Sector} {q o : ℕ}

/-- Who comes to `near` is told of those there, and they of it. -/
theorem characterOf_sendSpawns (h : Index s) (hnd : near.Nodup) (id : ℤ) (q o : ℕ) :
    characterOf (s.sendSpawns q near) o id =
      if o = q then (((s.near near).filter (· ≠ q)).map fun q' => (s.player q').record).foldl
        (seeCharacterRecord id) (characterOf s q id)
      else if o ∈ s.near near then seeCharacterRecord id (characterOf s o id) (s.player q).record
      else characterOf s o id := by
  unfold characterOf State.sendSpawns State.sendItemSpawnBatch State.sendMonsterSpawnBatch
  dsimp only
  rw [told_sendAll_still fun _ _ => rfl, told_sendAll_still fun _ _ => rfl]
  unfold State.sendSpawnBatch
  rw [told_sendAll, foldl_batch fun _ _ _ => rfl, batches_flatMap]
  unfold State.broadcastSpawn
  rw [told_broadcast (h.near_nodup hnd), told_broadcast (h.near_nodup hnd)]
  by_cases hq : o = q
  · subst hq
    simp only [decide_true, Bool.true_eq_false, and_false, if_false, if_true]
    rfl
  · simp only [hq, decide_false, and_true, if_false]
    rfl

theorem characterOf_sendDespawns (h : Index s) (hnd : near.Nodup) (hq : q ∈ s.players)
    (id : ℤ) (o : ℕ) :
    characterOf (s.sendDespawns q near) o id =
      if o = q then
        if ∃ q' ∈ s.near near, q' ≠ q ∧ (s.player q').characterID = id then
          (characterOf s q id).map fun _ => none
        else characterOf s q id
      else if o ∈ s.near near ∧ (s.player q).characterID = id then
        (characterOf s o id).map fun _ => none
      else characterOf s o id := by
  -- the characters are told apart by their ids
  have hsame : ∀ q' ∈ s.near near, ((s.player q').characterID = (s.player q).characterID ↔
      q' = q) := by
    intro q' hq'
    constructor
    · exact h.ids q' (h.mem_near.mp hq').1 q hq
    · intro he
      rw [he]
  unfold characterOf State.sendDespawns State.sendItemDespawnBatch State.sendMonsterDespawnBatch
  dsimp only
  rw [told_sendAll_still fun _ _ => rfl, told_sendAll_still fun _ _ => rfl]
  unfold State.sendDespawnBatch
  rw [told_sendAll]
  unfold State.broadcastDespawn
  rw [told_broadcast (h.near_nodup hnd), told_broadcast (h.near_nodup hnd)]
  by_cases hoq : o = q
  · subst hoq
    simp only [decide_true, Bool.true_eq_false, and_false, if_false, if_true]
    rw [foldl_seeCharacterDespawn]
    congr 1
    simp only [List.mem_map, List.mem_filter, decide_eq_true_eq, eq_iff_iff]
    constructor
    · rintro ⟨q', ⟨hmem, hne⟩, he⟩
      exact ⟨q', hmem, fun heq => hne ((hsame q' hmem).mpr heq), he⟩
    · rintro ⟨q', hmem, hne, he⟩
      exact ⟨q', ⟨hmem, fun heq => hne ((hsame q' hmem).mp heq)⟩, he⟩
  · simp only [hoq, if_false]
    by_cases hmem : o ∈ s.near near
    · have hne : ¬(s.player o).characterID = (s.player q).characterID :=
        fun he => hoq ((hsame o hmem).mp he)
      simp only [hmem, hne, decide_false, and_self, if_true, true_and]
      rfl
    · simp only [hmem, false_and, if_false]

/-- The client of `o` is told of `q'` when `q` comes to `near` or leaves it. -/
def Concerns (s : State F) (q : ℕ) (near : List Sector) (o q' : ℕ) : Prop :=
  o = q ∧ q' ≠ q ∧ (s.player q').currentSector ∈ near ∨
    o ≠ q ∧ q' = q ∧ o ∈ s.players ∧ (s.player o).currentSector ∈ near

instance (s : State F) (q : ℕ) (near : List Sector) (o q' : ℕ) :
    Decidable (Concerns s q near o q') :=
  inferInstanceAs (Decidable (_ ∨ _))

theorem concerns_self {q' : ℕ} (hne : q' ≠ q) : Concerns s q near q q' ↔
    (s.player q').currentSector ∈ near := by
  simp [Concerns, hne]

theorem concerns_other (hne : o ≠ q) (ho : o ∈ s.players) : Concerns s q near o q ↔
    (s.player o).currentSector ∈ near := by
  simp [Concerns, hne, ho]

theorem not_concerns {q' : ℕ} (h : o = q ↔ q' = q) : ¬Concerns s q near o q' := by
  simp only [Concerns, h]
  tauto

/-- `q` comes to `near`: its client has actors of those there, and theirs have one of it. -/
theorem Index.characterOf_spawns (h : Index s) (hnd : near.Nodup) (hq : q ∈ s.players) {q' : ℕ}
    (hq' : q' ∈ s.players) (o : ℕ) : characterOf (s.sendSpawns q near) o (s.player q').characterID =
      if Concerns s q near o q' then
        (characterOf s o (s.player q').characterID).bind (remoteSpawn (s.player q').state)
      else characterOf s o (s.player q').characterID := by
  rw [characterOf_sendSpawns h hnd]
  by_cases hoq : o = q
  · subst hoq
    have hnear : q' ∈ (s.near near).filter (· ≠ o) ↔
        q' ≠ o ∧ (s.player q').currentSector ∈ near := by
      rw [List.mem_filter, h.mem_near, decide_eq_true_eq]
      tauto
    rw [if_pos rfl, foldl_seeCharacterRecord ((h.near_nodup hnd).filter _)
      fun q'' hq'' he => h.ids q'' (h.mem_near.mp (List.mem_of_mem_filter hq'')).1 q' hq' he]
    simp only [Concerns, hnear, true_and, ne_eq, not_true_eq_false, false_and, or_false]
  · have hid : (s.player q).record.characterID = (s.player q').characterID ↔ q' = q :=
      ⟨fun he => (h.ids q hq q' hq' he).symm, fun he => he ▸ rfl⟩
    simp only [Concerns, hoq, if_false, false_and, false_or, not_false_eq_true, true_and,
      h.mem_near, seeCharacterRecord, hid, ne_eq]
    by_cases he : q' = q
    · subst he
      simp only [if_true, true_and]
      rfl
    · simp only [he, if_false, false_and, ite_self]

theorem Index.characterOf_despawns
    (h : Index s) (hnd : near.Nodup) (hq : q ∈ s.players) {q' : ℕ} (hq' : q' ∈ s.players) (o : ℕ) :
    characterOf (s.sendDespawns q near) o (s.player q').characterID =
      if Concerns s q near o q' then
        (characterOf s o (s.player q').characterID).map fun _ => none
      else characterOf s o (s.player q').characterID := by
  rw [characterOf_sendDespawns h hnd hq]
  by_cases hoq : o = q
  · subst hoq
    have hnear :
        (∃ q'' ∈ s.near near, q'' ≠ o ∧ (s.player q'').characterID = (s.player q').characterID) ↔
        q' ≠ o ∧ (s.player q').currentSector ∈ near := by
      constructor
      · rintro ⟨q'', hmem, hne, he⟩
        obtain ⟨hplayer, hsector⟩ := h.mem_near.mp hmem
        obtain rfl := h.ids q'' hplayer q' hq' he
        exact ⟨hne, hsector⟩
      · rintro ⟨hne, hsector⟩
        exact ⟨q', h.mem_near.mpr ⟨hq', hsector⟩, hne, rfl⟩
    simp only [Concerns, hnear, if_true, true_and, ne_eq, not_true_eq_false, false_and, or_false]
  · have hid : (s.player q).characterID = (s.player q').characterID ↔ q' = q :=
      ⟨fun he => (h.ids q hq q' hq' he).symm, fun he => he ▸ rfl⟩
    simp only [Concerns, hoq, if_false, false_and, false_or, not_false_eq_true, true_and,
      h.mem_near, hid, ne_eq]
    congr 1
    simp only [eq_iff_iff]
    tauto

/-- Nobody is told of a character that is not a player's. -/
theorem Index.characterOf_spawns_of_ne (h : Index s) (hnd : near.Nodup) (hq : q ∈ s.players)
    (hid : ∀ q' ∈ s.players, (s.player q').characterID ≠ id) (o : ℕ) :
    characterOf (s.sendSpawns q near) o id = characterOf s o id := by
  rw [characterOf_sendSpawns h hnd, foldl_seeCharacterRecord_of_ne fun q' hq' =>
    hid q' (h.mem_near.mp (List.mem_of_mem_filter hq')).1]
  have hne : (s.player q).record.characterID ≠ id := hid q hq
  rw [seeCharacterRecord, if_neg hne, ite_self]
  split_ifs with hoq
  · rw [hoq]
  · rfl

theorem Index.characterOf_despawns_of_ne (h : Index s) (hnd : near.Nodup) (hq : q ∈ s.players)
    (hid : ∀ q' ∈ s.players, (s.player q').characterID ≠ id) (o : ℕ) :
    characterOf (s.sendDespawns q near) o id = characterOf s o id := by
  have hnone : ¬∃ q' ∈ s.near near, q' ≠ q ∧ (s.player q').characterID = id :=
    fun ⟨q', hq', _, he⟩ =>
    hid q' (h.mem_near.mp hq').1 he
  rw [characterOf_sendDespawns h hnd hq]
  by_cases hoq : o = q
  · rw [if_pos hoq, if_neg hnone, hoq]
  · rw [if_neg hoq, if_neg fun he => hid q hq he.2]

/-- Only players are told anything. -/
theorem Index.characterOf_spawns_of_notMem (h : Index s) (hnd : near.Nodup) (hq : q ∈ s.players)
    (ho : o ∉ s.players) :
    characterOf (s.sendSpawns q near) o id = characterOf s o id := by
  have hoq : o ≠ q := fun he => ho (he ▸ hq)
  rw [characterOf_sendSpawns h hnd, if_neg hoq, if_neg fun hmem => ho (h.mem_near.mp hmem).1]

theorem Index.characterOf_despawns_of_notMem (h : Index s) (hnd : near.Nodup) (hq : q ∈ s.players)
    (ho : o ∉ s.players) :
    characterOf (s.sendDespawns q near) o id = characterOf s o id := by
  have hoq : o ≠ q := fun he => ho (he ▸ hq)
  rw [characterOf_sendDespawns h hnd hq, if_neg hoq, if_neg fun hmem => ho (h.mem_near.mp hmem.1).1]

end

/-! ### What the clients have -/

/-- Of its MOVE_STARTs, its MOVE_STOPs and the hits of monsters, the last that came to `q` was a
MOVE_START. -/
def Underway (q : ℕ) (h : List Event) : Prop :=
  ∃ a b, h = a ++ .moveStart q :: b ∧ .moveStop q ∉ b ∧ .damaged q ∉ b

theorem Underway.append {q : ℕ} {h es : List Event} (hu : Underway q h) (hstop : .moveStop q ∉ es)
    (hdamaged : .damaged q ∉ es) :
    Underway q (h ++ es) := by
  obtain ⟨a, b, rfl, hb, hb'⟩ := hu
  refine ⟨a, b ++ es, by rw [List.append_assoc, List.cons_append], ?_, ?_⟩
  · rw [List.mem_append, not_or]
    exact ⟨hb, hstop⟩
  · rw [List.mem_append, not_or]
    exact ⟨hb', hdamaged⟩

theorem underway_start (q : ℕ) (h : List Event) : Underway q (h ++ [.moveStart q]) :=
  ⟨h, [], rfl, List.not_mem_nil, List.not_mem_nil⟩

/-- The client of `o` has an actor of `q` if `q` is around it, and one that moves only if `q` is
under way. -/
def Follows (s : State F) (o q : ℕ) : Prop :=
  if (s.player q).currentSector ∈ (s.player o).currentSector.around then
    ∃ mBMove, characterOf s o (s.player q).characterID = some (some mBMove) ∧
      (mBMove = true → Underway q s.history)
  else characterOf s o (s.player q).characterID = some none

structure Followed (s : State F) : Prop where
  ids : ∀ q ∈ s.met, ∀ q' ∈ s.met, (s.player q).characterID = (s.player q').characterID → q = q'
  moving : ∀ q ∈ s.players, (s.player q).state = .move → Underway q s.history
  seen : ∀ q ∈ s.players, ∀ o ∈ s.players, o ≠ q → Follows s o q
  self : ∀ q ∈ s.players, characterOf s q (s.player q).characterID = some none
  unknown : ∀ id, (∀ q ∈ s.met, (s.player q).characterID ≠ id) → ∀ o, characterOf s o id = some none
  -- no assertion has failed in the client of one who is gone, or about a character that is
  safe : ∀ o id, o ∉ s.players ∨ (∀ q ∈ s.players, (s.player q).characterID ≠ id) →
    characterOf s o id ≠ none

section

variable {s t : State F}

/-- No assertion has failed. -/
theorem Followed.characterOf_ne_none (h : Followed s) (o : ℕ) (id : ℤ) :
    characterOf s o id ≠ none := by
  by_cases ho : o ∈ s.players
  swap
  · exact h.safe o id (Or.inl ho)
  by_cases hid : ∃ q ∈ s.players, (s.player q).characterID = id
  swap
  · exact h.safe o id (Or.inr fun q hq he => hid ⟨q, hq, he⟩)
  obtain ⟨q, hq, rfl⟩ := hid
  by_cases hoq : o = q
  · subst hoq
    rw [h.self o hq]
    exact Option.some_ne_none _
  · have hfollows := h.seen q hq o ho hoq
    unfold Follows at hfollows
    split_ifs at hfollows
    · obtain ⟨b, hb, -⟩ := hfollows
      rw [hb]
      exact Option.some_ne_none _
    · rw [hfollows]
      exact Option.some_ne_none _

/-- Nobody is told of a character, and nobody sets out. -/
structure Silent (s t : State F) : Prop where
  players : ∀ q ∈ t.players, q ∈ s.players
  met : t.met = s.met
  currentSector : ∀ q, (t.player q).currentSector = (s.player q).currentSector
  characterID : ∀ q, (t.player q).characterID = (s.player q).characterID
  state : ∀ q, (t.player q).state = .move → (s.player q).state = .move
  history : ∃ es, t.history = s.history ++ es ∧ ∀ q, .moveStop q ∉ es ∧ .damaged q ∉ es
  sent : ∃ ks, t.sent = s.sent ++ ks ∧ ∀ k ∈ ks, ¬k.2.OfCharacter

theorem Silent.characterOf (hst : Silent s t) (o : ℕ) (id : ℤ) :
    characterOf t o id = characterOf s o id := by
  obtain ⟨ks, hks, hk⟩ := hst.sent
  exact told_still hks (fun k hmem => seeCharacter_still (hk k hmem)) o

theorem Silent.underway (hst : Silent s t) {q : ℕ} (h : Underway q s.history) :
    Underway q t.history := by
  obtain ⟨es, hes, he⟩ := hst.history
  rw [hes]
  exact h.append (he q).1 (he q).2

theorem Silent.followed (hst : Silent s t) (h : Followed s) : Followed t := by
  refine ⟨?_, fun q hq hmove => hst.underway (h.moving q (hst.players q hq) (hst.state q hmove)),
    ?_, ?_, ?_, ?_⟩
  · simp only [hst.met, hst.characterID]
    exact h.ids
  · intro q hq o ho hne
    have hfollows := h.seen q (hst.players q hq) o (hst.players o ho) hne
    unfold Follows at hfollows ⊢
    rw [hst.currentSector, hst.currentSector, hst.characterID, hst.characterOf]
    split_ifs at hfollows ⊢
    · obtain ⟨b, hb, hu⟩ := hfollows
      exact ⟨b, hb, fun hmove => hst.underway (hu hmove)⟩
    · exact hfollows
  · intro q hq
    rw [hst.characterOf, hst.characterID]
    exact h.self q (hst.players q hq)
  · intro id hid o
    rw [hst.characterOf]
    apply h.unknown
    intro q hq
    rw [← hst.characterID]
    exact hid q (hst.met ▸ hq)
  · intro o id _
    rw [hst.characterOf]
    exact h.characterOf_ne_none o id

/-- Those around `q` see the packet about what becomes of it, the others see nothing. -/
theorem characterOf_announce (hs : Index s) {q : ℕ} {p : Player F}
    (hface : SameFace (s.player q) p) {e : Event} {skip : ℕ → Bool} {packet : Packet F} (o : ℕ)
    (id : ℤ) :
    characterOf (((s.setPlayer q p).record e).broadcast p.currentSector.around skip packet) o id =
      if (o ∈ s.players ∧ (s.player o).currentSector ∈ (s.player q).currentSector.around) ∧
        skip o = false
      then seeCharacter id (characterOf s o id) packet else characterOf s o id := by
  have hf : Frame s ((s.setPlayer q p).record e) := (frame_setPlayer hface).trans (frame_record _ _)
  have hindex : Index ((s.setPlayer q p).record e) := (hs.setPlayer hface).of_eq rfl rfl rfl rfl rfl
  have hsector : p.currentSector = (s.player q).currentSector := hface.1
  unfold characterOf
  rw [told_broadcast (hindex.near_nodup (Sector.around_nodup _))]
  simp only [hindex.mem_near, hf.currentSector, hsector]
  rfl

theorem characterOf_announce_ne (hs : Index s) {q : ℕ} {p : Player F}
    (hface : SameFace (s.player q) p) {e : Event} {skip : ℕ → Bool} {packet : Packet F}
    (hother : ∀ id, id ≠ p.characterID → ∀ actor, seeCharacter id actor packet = actor) (o : ℕ)
    {id : ℤ} (hne : id ≠ p.characterID) :
    characterOf (((s.setPlayer q p).record e).broadcast p.currentSector.around skip packet) o id =
      characterOf s o id := by
  rw [characterOf_announce hs hface, hother id hne, ite_self]

/-- Everybody around `q` is told what becomes of it. -/
theorem Followed.announce (h : Followed s) (hs : Index s) {q : ℕ} (hq : q ∈ s.players)
    {p : Player F} (hface : SameFace (s.player q) p) {e : Event} {skip : ℕ → Bool}
    {packet : Packet F} (hskip : ∀ o, o ≠ q → skip o = false)
    (hself : skip q = false → seeCharacter p.characterID (some none) packet = some none)
    (hother : ∀ id, id ≠ p.characterID → ∀ actor, seeCharacter id actor packet = actor)
    (hsee :
      (∃ o ∈ s.players, o ≠ q ∧ (s.player q).currentSector ∈ (s.player o).currentSector.around) →
      ∀ b, (b = true → Underway q s.history) →
      ∃ b', seeCharacter p.characterID (some (some b)) packet = some (some b') ∧
        (b' = true → Underway q (s.history ++ [e])))
    (hmove : p.state = .move → Underway q (s.history ++ [e]))
    (he : ∀ q', q' ≠ q → e ≠ .moveStop q' ∧ e ≠ .damaged q') :
    Followed (((s.setPlayer q p).record e).broadcast p.currentSector.around skip packet) := by
  have hf : Frame s ((s.setPlayer q p).record e) := (frame_setPlayer hface).trans (frame_record _ _)
  have hid : p.characterID = (s.player q).characterID := hface.2.2.1
  have hunder : ∀ q', q' ≠ q → Underway q' s.history → Underway q' (s.history ++ [e]) := by
    intro q' hne hu
    obtain ⟨hstop, hdamaged⟩ := he q' hne
    exact hu.append (fun hmem => hstop (List.mem_singleton.mp hmem).symm) fun hmem =>
      hdamaged (List.mem_singleton.mp hmem).symm
  have hplayer : ∀ q', q' ≠ q → (s.setPlayer q p).player q' = s.player q' :=
    fun q' hne => Function.update_of_ne hne _ _
  refine ⟨?_, ?_, ?_, ?_, ?_, ?_⟩
  · intro q1 h1 q2 h2 heq
    change ((s.setPlayer q p).record e |>.player q1).characterID =
      ((s.setPlayer q p).record e |>.player q2).characterID at heq
    rw [hf.characterID, hf.characterID] at heq
    exact h.ids q1 h1 q2 h2 heq
  · intro q' hq' hstate
    change Underway q' (s.history ++ [e])
    by_cases hne : q' = q
    · subst hne
      apply hmove
      have hstate' : ((s.setPlayer q' p).player q').state = .move := hstate
      rwa [setPlayer_player, if_pos rfl] at hstate'
    · have hstate' : ((s.setPlayer q p).player q').state = .move := hstate
      rw [hplayer q' hne] at hstate'
      exact hunder q' hne (h.moving q' hq' hstate')
  · intro q' hq' o ho hne
    have hfollows := h.seen q' hq' o ho hne
    have hcomm := Sector.mem_around_comm (hs.grid q' hq').1 (hs.grid o ho).1
    unfold Follows at hfollows ⊢
    change if ((s.setPlayer q p).record e |>.player q').currentSector ∈
        ((s.setPlayer q p).record e |>.player o).currentSector.around then
      ∃ mBMove, characterOf _ o ((s.setPlayer q p).record e |>.player q').characterID =
          some (some mBMove) ∧
        (mBMove = true → Underway q' (s.history ++ [e]))
      else characterOf _ o ((s.setPlayer q p).record e |>.player q').characterID = some none
    rw [hf.currentSector, hf.currentSector, hf.characterID]
    by_cases hqq : q' = q
    · subst hqq
      rw [characterOf_announce hs hface, ← hid]
      rw [← hid] at hfollows
      by_cases haround : (s.player q').currentSector ∈ (s.player o).currentSector.around
      · rw [if_pos haround] at hfollows ⊢
        rw [if_pos ⟨⟨ho, hcomm.mp haround⟩, hskip o hne⟩]
        obtain ⟨b, hb, hu⟩ := hfollows
        rw [hb]
        exact hsee ⟨o, ho, hne, haround⟩ b hu
      · rw [if_neg haround] at hfollows ⊢
        rw [if_neg fun hin => haround (hcomm.mpr hin.1.2)]
        exact hfollows
    · have hids : (s.player q').characterID ≠ p.characterID :=
        fun heq => hqq (hs.ids q' hq' q hq (heq.trans hid))
      rw [characterOf_announce_ne hs hface hother o hids]
      split_ifs at hfollows ⊢
      · obtain ⟨b, hb, hu⟩ := hfollows
        exact ⟨b, hb, fun hmove => hunder q' hqq (hu hmove)⟩
      · exact hfollows
  · intro q' hq'
    change characterOf _ q' ((s.setPlayer q p).record e |>.player q').characterID = some none
    rw [hf.characterID]
    by_cases hqq : q' = q
    · subst hqq
      rw [characterOf_announce hs hface, ← hid, hid, h.self q' hq', ← hid]
      split_ifs with hin
      · exact hself hin.2
      · rfl
    · have hids : (s.player q').characterID ≠ p.characterID :=
        fun heq => hqq (hs.ids q' hq' q hq (heq.trans hid))
      rw [characterOf_announce_ne hs hface hother q' hids]
      exact h.self q' hq'
  · intro id hunknown o
    have hunknown' : ∀ q' ∈ s.met, (s.player q').characterID ≠ id := by
      intro q' hq' heq
      apply hunknown q' hq'
      change ((s.setPlayer q p).record e |>.player q').characterID = id
      rwa [hf.characterID]
    rw [characterOf_announce_ne hs hface hother o fun heq =>
      hunknown' q (hs.met q hq) (hid ▸ heq.symm)]
    exact h.unknown id hunknown' o
  · intro o id hgone
    by_cases heq : id = p.characterID
    · rcases hgone with ho | hnobody
      · have ho : o ∉ s.players := ho
        rw [characterOf_announce hs hface, if_neg fun hin => ho hin.1.1]
        exact h.characterOf_ne_none o id
      · have hself' : ((s.setPlayer q p).player q).characterID ≠ id := hnobody q hq
        rw [setPlayer_player, if_pos rfl] at hself'
        exact absurd heq.symm hself'
    · rw [characterOf_announce_ne hs hface hother o heq]
      exact h.characterOf_ne_none o id

/-- When `q` crosses into another sector, somebody is told of a player who is around it from then
on. -/
theorem Index.concerns_spawn (hs : Index s) {q o q' : ℕ} (hq : q ∈ s.players) (ho : o ∈ s.players)
    (hne : o ≠ q') :
    Concerns s q ((s.player q).destSector.around.diff (s.player q).currentSector.around) o q' ↔
      cellAfter s q q' ∈ (cellAfter s q o).around ∧ (s.player q').currentSector ∉
        (s.player o).currentSector.around := by
  have hcur := (hs.grid q hq).1
  have hdest := (hs.grid q hq).2
  have hgrid := (hs.grid o ho).1
  unfold cellAfter
  by_cases hoq : o = q
  · subst hoq
    rw [concerns_self (Ne.symm hne), Sector.mem_around_diff, if_neg (Ne.symm hne), if_pos rfl]
  · by_cases hqq : q' = q
    · subst hqq
      rw [concerns_other hne ho, Sector.mem_around_diff, if_pos rfl, if_neg hne,
        Sector.mem_around_comm hdest hgrid, Sector.mem_around_comm hcur hgrid]
    · rw [if_neg hqq, if_neg hoq]
      simp only [not_concerns (show o = q ↔ q' = q by simp only [hoq, hqq]), and_not_self]

theorem Index.concerns_despawn (hs : Index s) {q o q' : ℕ} (hq : q ∈ s.players) (ho : o ∈ s.players)
    (hne : o ≠ q') :
    Concerns s q ((s.player q).currentSector.around.diff (s.player q).destSector.around) o q' ↔
      (s.player q').currentSector ∈ (s.player o).currentSector.around ∧ cellAfter s q q' ∉
    (cellAfter s q o).around := by
  have hcur := (hs.grid q hq).1
  have hdest := (hs.grid q hq).2
  have hgrid := (hs.grid o ho).1
  unfold cellAfter
  by_cases hoq : o = q
  · subst hoq
    rw [concerns_self (Ne.symm hne), Sector.mem_around_diff, if_neg (Ne.symm hne), if_pos rfl]
  · by_cases hqq : q' = q
    · subst hqq
      rw [concerns_other hne ho, Sector.mem_around_diff, if_pos rfl, if_neg hne,
        Sector.mem_around_comm hdest hgrid, Sector.mem_around_comm hcur hgrid]
    · rw [if_neg hqq, if_neg hoq]
      simp only [not_concerns (show o = q ↔ q' = q by simp only [hoq, hqq]), and_not_self]

theorem Index.characterOf_cross (hs : Index s) {q q' o : ℕ}
    (hq : q ∈ s.players) (hq' : q' ∈ s.players) (ho : o ∈ s.players) (hne : o ≠ q') :
    characterOf (s.cross q) o (s.player q').characterID =
      if (s.player q').currentSector ∈ (s.player o).currentSector.around then
        if cellAfter s q q' ∈ (cellAfter s q o).around then characterOf s o
          (s.player q').characterID
        else (characterOf s o (s.player q').characterID).map fun _ => none
      else if cellAfter s q q' ∈ (cellAfter s q o).around then
        (characterOf s o (s.player q').characterID).bind (remoteSpawn (s.player q').state)
      else characterOf s o (s.player q').characterID := by
  have hindex :=
    hs.sendSpawns hq ((s.player q).destSector.around.diff (s.player q).currentSector.around)
  have hspawn := hs.characterOf_spawns
    (Sector.around_diff_nodup (s.player q).destSector (s.player q).currentSector) hq hq' o
  have hdespawn := hindex.characterOf_despawns
    (Sector.around_diff_nodup (s.player q).currentSector (s.player q).destSector) hq hq' o
  change characterOf (s.cross q) o (s.player q').characterID =
    if Concerns s q ((s.player q).currentSector.around.diff (s.player q).destSector.around) o
      q' then
      (characterOf (s.sendSpawns q _) o (s.player q').characterID).map fun _ => none
    else characterOf (s.sendSpawns q _) o (s.player q').characterID at hdespawn
  rw [hdespawn, hspawn]
  simp only [hs.concerns_spawn hq ho hne, hs.concerns_despawn hq ho hne]
  by_cases hold : (s.player q').currentSector ∈ (s.player o).currentSector.around <;>
    by_cases hnew : cellAfter s q q' ∈ (cellAfter s q o).around <;> simp [hold, hnew]

/-- What `q` crossing does not concern. -/
theorem Index.characterOf_cross_of_not (hs : Index s) {q : ℕ} (hq : q ∈ s.players) {o : ℕ} {id : ℤ}
    (h : o ∉ s.players ∨ ∀ q' ∈ s.players, (s.player q').characterID ≠ id) :
    characterOf (s.cross q) o id = characterOf s o id := by
  have hindex :=
    hs.sendSpawns hq ((s.player q).destSector.around.diff (s.player q).currentSector.around)
  have hspawn := Sector.around_diff_nodup (s.player q).destSector (s.player q).currentSector
  have hdespawn := Sector.around_diff_nodup (s.player q).currentSector (s.player q).destSector
  rcases h with ho | hid
  · exact (hindex.characterOf_despawns_of_notMem hdespawn hq ho).trans
      (hs.characterOf_spawns_of_notMem hspawn hq ho)
  · exact (hindex.characterOf_despawns_of_ne hdespawn hq hid o).trans
      (hs.characterOf_spawns_of_ne hspawn hq hid o)

theorem Index.characterOf_cross_self (hs : Index s) {q q' : ℕ} (hq : q ∈ s.players)
    (hq' : q' ∈ s.players) :
    characterOf (s.cross q) q' (s.player q').characterID = characterOf s q'
      (s.player q').characterID := by
  have hindex :=
    hs.sendSpawns hq ((s.player q).destSector.around.diff (s.player q).currentSector.around)
  have hdespawn := hindex.characterOf_despawns
    (Sector.around_diff_nodup (s.player q).currentSector (s.player q).destSector) hq hq' q'
  rw [if_neg (not_concerns Iff.rfl)] at hdespawn
  have hspawn := hs.characterOf_spawns
    (Sector.around_diff_nodup (s.player q).destSector (s.player q).currentSector) hq hq' q'
  rw [if_neg (not_concerns Iff.rfl)] at hspawn
  exact hdespawn.trans hspawn

theorem Followed.cross (h : Followed s) (hs : Index s) {q : ℕ} (hq : q ∈ s.players) :
    Followed (s.cross q) := by
  obtain ⟨sent, hrest⟩ := cross_rest (s := s) q
  have hplayers : (s.cross q).players = s.players := by rw [hrest]
  have hmet : (s.cross q).met = s.met := by rw [hrest]
  have hhistory : (s.cross q).history = s.history := by rw [hrest]
  have hface : ∀ q', ((s.cross q).player q').characterID = (s.player q').characterID ∧
      ((s.cross q).player q').state = (s.player q').state ∧
        ((s.cross q).player q').currentSector = cellAfter s q q' := by
    intro q'
    unfold cellAfter
    rw [cross_player]
    split_ifs with he
    · rw [he]
      exact ⟨rfl, rfl, rfl⟩
    · exact ⟨rfl, rfl, rfl⟩
  refine ⟨?_, ?_, ?_, ?_, ?_, ?_⟩
  · intro q1 h1 q2 h2 heq
    rw [(hface q1).1, (hface q2).1] at heq
    rw [hmet] at h1 h2
    exact h.ids q1 h1 q2 h2 heq
  · intro q' hq' hmove
    rw [hhistory]
    rw [hplayers] at hq'
    exact h.moving q' hq' ((hface q').2.1.symm.trans hmove)
  · intro q' hq' o ho hne
    rw [hplayers] at hq' ho
    have hfollows := h.seen q' hq' o ho hne
    unfold Follows at hfollows ⊢
    rw [(hface q').1, (hface q').2.2, (hface o).2.2, hhistory, hs.characterOf_cross hq hq' ho hne]
    by_cases hold : (s.player q').currentSector ∈ (s.player o).currentSector.around
    · rw [if_pos hold] at hfollows ⊢
      obtain ⟨b, hb, hu⟩ := hfollows
      rw [hb]
      split_ifs
      · exact ⟨b, rfl, hu⟩
      · rfl
    · rw [if_neg hold] at hfollows ⊢
      rw [hfollows]
      split_ifs
      · exact ⟨_, rfl, fun hmove => h.moving q' hq' (of_decide_eq_true hmove)⟩
      · rfl
  · intro q' hq'
    rw [hplayers] at hq'
    rw [(hface q').1, hs.characterOf_cross_self hq hq']
    exact h.self q' hq'
  · intro id hid o
    have hnobody : ∀ q' ∈ s.met, (s.player q').characterID ≠ id := by
      intro q' hq' he
      rw [← hmet] at hq'
      exact hid q' hq' ((hface q').1.trans he)
    rw [hs.characterOf_cross_of_not hq (Or.inr fun q' hq' => hnobody q' (hs.met q' hq'))]
    exact h.unknown id hnobody o
  · intro o id hgone
    rw [hplayers] at hgone
    have hgone' : o ∉ s.players ∨ ∀ q' ∈ s.players, (s.player q').characterID ≠ id :=
      hgone.imp_right fun hid q' hq' he => hid q' hq' ((hface q').1.trans he)
    rw [hs.characterOf_cross_of_not hq hgone']
    exact h.characterOf_ne_none o id

/-- A player enters with an id that nobody has had. -/
theorem Followed.enter (h : Followed s) (hs : Index s) {q : ℕ} {p : Player F} (hq : q ∉ s.met)
    (hfresh : ∀ q' ∈ s.met, (s.player q').characterID ≠ p.characterID) (hname : p.seqID = q)
    (hcur : p.currentSector.InGrid) (hdest : p.destSector.InGrid) (hstate : p.state ≠ .move) :
    Followed ((s.enter q p).sendSpawns q p.currentSector.around) := by
  have hindex := hs.enter hq (fun q' hq' => hfresh q' (hs.met q' hq')) hname hcur hdest
  have hmem : q ∈ (s.enter q p).players := List.mem_cons_self
  have hself : (s.enter q p).player q = p := Function.update_self _ _ _
  have hother : ∀ {q'}, q' ≠ q → (s.enter q p).player q' = s.player q' :=
    fun hne => Function.update_of_ne hne _ _
  have hmet : ∀ {q'}, q' ∈ s.met → q' ≠ q := fun hq' he => hq (he ▸ hq')
  -- nothing has been sent to `q`, and nothing about its character
  have hnone : ∀ id, characterOf s q id = some none := by
    intro id
    unfold characterOf told
    rw [hs.quiet q hq]
    rfl
  have hunknown : ∀ o, characterOf s o p.characterID = some none := h.unknown p.characterID hfresh
  have htold : ∀ q' ∈ (s.enter q p).players, ∀ o,
      characterOf ((s.enter q p).sendSpawns q p.currentSector.around) o
          ((s.enter q p).player q').characterID =
        if Concerns (s.enter q p) q p.currentSector.around o q' then
          (characterOf s o ((s.enter q p).player q').characterID).bind
            (remoteSpawn ((s.enter q p).player q').state)
        else characterOf s o ((s.enter q p).player q').characterID :=
    fun q' hq' o => hindex.characterOf_spawns (Sector.around_nodup _) hmem hq' o
  refine ⟨?_, ?_, ?_, ?_, ?_, ?_⟩
  · intro q1 h1 q2 h2 heq
    rw [sendSpawns_player] at heq
    rcases List.mem_cons.mp h1 with e1 | h1 <;> rcases List.mem_cons.mp h2 with e2 | h2
    · rw [e1, e2]
    · rw [e1, hself, hother (hmet h2)] at heq
      exact absurd heq.symm (hfresh q2 h2)
    · rw [e2, hself, hother (hmet h1)] at heq
      exact absurd heq (hfresh q1 h1)
    · rw [hother (hmet h1), hother (hmet h2)] at heq
      exact h.ids q1 h1 q2 h2 heq
  · intro q' hq' hmove
    rw [sendSpawns_player] at hmove
    rcases List.mem_cons.mp hq' with rfl | hq'
    · rw [hself] at hmove
      exact absurd hmove hstate
    · rw [hother (hmet (hs.met q' hq'))] at hmove
      exact h.moving q' hq' hmove
  · intro q' hq' o ho hne
    unfold Follows
    rw [sendSpawns_player, htold q' hq' o]
    change if _ then ∃ mBMove, _ ∧ (mBMove = true → Underway q' s.history) else _
    by_cases hoq : o = q
    · subst hoq
      have hq'' : q' ∈ s.players := (List.mem_cons.mp hq').resolve_left (Ne.symm hne)
      rw [hself, hother (Ne.symm hne), hnone]
      simp only [concerns_self (Ne.symm hne), hother (Ne.symm hne)]
      split_ifs
      · exact ⟨_, rfl, fun hmove => h.moving q' hq'' (of_decide_eq_true hmove)⟩
      · rfl
    · have ho' : o ∈ s.players := (List.mem_cons.mp ho).resolve_left hoq
      rw [hother hoq]
      by_cases hqq : q' = q
      · subst hqq
        have hcomm := Sector.mem_around_comm hcur (hs.grid o ho').1
        have hplayer : o ∈ (s.enter q' p).players := ho
        rw [hself, hunknown]
        simp only [concerns_other hne hplayer, hother hoq, ← hcomm]
        split_ifs
        · exact ⟨_, rfl, fun hmove => absurd (of_decide_eq_true hmove) hstate⟩
        · rfl
      · have hq'' : q' ∈ s.players := (List.mem_cons.mp hq').resolve_left hqq
        rw [hother hqq, if_neg (not_concerns (by simp only [hoq, hqq]))]
        exact h.seen q' hq'' o ho' hne
  · intro q' hq'
    rw [sendSpawns_player, htold q' hq' q', if_neg (not_concerns Iff.rfl)]
    rcases List.mem_cons.mp hq' with rfl | hq'
    · exact hnone _
    · rw [hother (hmet (hs.met q' hq'))]
      exact h.self q' hq'
  · intro id hid o
    rw [sendSpawns_player] at hid
    have hold : ∀ q' ∈ s.met, (s.player q').characterID ≠ id := by
      intro q' hq'
      rw [← hother (hmet hq')]
      exact hid q' (List.mem_cons_of_mem _ hq')
    rw [hindex.characterOf_spawns_of_ne (Sector.around_nodup _) hmem fun q' hq' =>
      hid q' (hindex.met q' hq')]
    exact h.unknown id hold o
  · intro o id hgone
    have hsame : characterOf ((s.enter q p).sendSpawns q p.currentSector.around) o id =
        characterOf s o id := by
      rcases hgone with ho | hid
      · exact hindex.characterOf_spawns_of_notMem (Sector.around_nodup _) hmem ho
      · exact hindex.characterOf_spawns_of_ne (Sector.around_nodup _) hmem hid o
    rw [hsame]
    exact h.characterOf_ne_none o id

end

/-! ### The effects -/

section

variable {s t u : State F}

/-- If nobody sets out and nobody enters, the clients stay right. -/
structure Heard (s t : State F) : Prop where
  history : s.history <+: t.history
  met : s.met <:+ t.met
  followed : Stands s t → t.met = s.met → Followed s → Followed t

theorem Heard.refl (s : State F) : Heard s s := ⟨List.prefix_rfl, List.suffix_rfl, fun _ _ h => h⟩

theorem Heard.trans (h : Heard s t) (h' : Heard t u) : Heard s u := by
  refine ⟨h.history.trans h'.history, h.met.trans h'.met, fun hstands hmet hs => ?_⟩
  have hmet' : t.met = s.met := ((hmet ▸ h'.met).eq_of_length_le h.met.length_le)
  obtain ⟨es, hes⟩ := h.history
  obtain ⟨fs, hfs⟩ := h'.history
  obtain ⟨gs, hgs, hg⟩ := hstands
  obtain rfl : gs = es ++ fs := by
    rw [← hfs, ← hes, List.append_assoc] at hgs
    exact (List.append_cancel_left hgs).symm
  have hfirst : Stands s t := ⟨es, hes.symm, fun q hmem => hg q (List.mem_append_left _ hmem)⟩
  have hsecond : Stands t u := ⟨fs, hfs.symm, fun q hmem => hg q (List.mem_append_right _ hmem)⟩
  exact h'.followed hsecond (hmet.trans hmet'.symm) (h.followed hfirst hmet' hs)

theorem Silent.heard (h : Silent s t) : Heard s t := by
  obtain ⟨es, hes, -⟩ := h.history
  refine ⟨⟨es, hes.symm⟩, ?_, fun _ _ hs => h.followed hs⟩
  rw [h.met]

/-- An event that ends no move. -/
def Event.Going (e : Event) : Prop := ∀ q, e ≠ .moveStop q ∧ e ≠ .damaged q

theorem Silent.trans (h : Silent s t) (h' : Silent t u) : Silent s u := by
  obtain ⟨es, hes, he⟩ := h.history
  obtain ⟨fs, hfs, hf⟩ := h'.history
  obtain ⟨ks, hks, hk⟩ := h.sent
  obtain ⟨ls, hls, hl⟩ := h'.sent
  refine ⟨fun q hq => h.players q (h'.players q hq), h'.met.trans h.met,
    fun q => (h'.currentSector q).trans (h.currentSector q), fun q =>
      (h'.characterID q).trans (h.characterID q),
    fun q hmove => h.state q (h'.state q hmove), ⟨es ++ fs, ?_, fun q => ?_⟩, ks ++ ls, ?_, ?_⟩
  · rw [hfs, hes, List.append_assoc]
  · simp only [List.mem_append, not_or]
    exact ⟨⟨(he q).1, (hf q).1⟩, (he q).2, (hf q).2⟩
  · rw [hls, hks, List.append_assoc]
  · intro k hmem
    rcases List.mem_append.mp hmem with hmem | hmem
    · exact hk k hmem
    · exact hl k hmem

/-- The rest of the state is not for the clients. -/
theorem silent_rest (hp : t.player = s.player) (hps : ∀ q ∈ t.players, q ∈ s.players)
    (hmet : t.met = s.met) (hhistory : t.history = s.history) (hsent : t.sent = s.sent) :
    Silent s t :=
  ⟨hps, hmet, fun q => by rw [hp], fun q => by rw [hp], fun q hmove => by rwa [hp] at hmove,
    ⟨[], by rw [hhistory, List.append_nil], by simp⟩, [], by rw [hsent, List.append_nil], by simp⟩

theorem silent_setPlayer {q : ℕ}
    {p : Player F} (hsector : p.currentSector = (s.player q).currentSector)
    (hid : p.characterID = (s.player q).characterID)
    (hstate : p.state = .move → (s.player q).state = .move) :
    Silent s (s.setPlayer q p) := by
  have hself : (s.setPlayer q p).player q = p := Function.update_self _ _ _
  have hother : ∀ {q'}, q' ≠ q → (s.setPlayer q p).player q' = s.player q' :=
    fun hne => Function.update_of_ne hne _ _
  refine ⟨fun _ h => h, rfl, fun q' => ?_, fun q' => ?_, fun q' hmove => ?_,
    ⟨[], (List.append_nil _).symm, by simp⟩, [], (List.append_nil _).symm, by simp⟩
  all_goals by_cases he : q' = q
  · rw [he, hself, hsector]
  · rw [hother he]
  · rw [he, hself, hid]
  · rw [hother he]
  · rw [he, hself] at hmove
    rw [he]
    exact hstate hmove
  · rwa [hother he] at hmove

theorem silent_record {e : Event} (he : e.Going) : Silent s (s.record e) := by
  refine ⟨fun _ h => h, rfl, fun _ => rfl, fun _ => rfl, fun _ h => h, ⟨[e], rfl, fun q => ?_⟩, [],
    (List.append_nil _).symm, by simp⟩
  exact ⟨fun hmem => (he q).1 (List.mem_singleton.mp hmem).symm,
    fun hmem => (he q).2 (List.mem_singleton.mp hmem).symm⟩

theorem silent_sends {ks : List (ℕ × Packet F)} (h : ∀ k ∈ ks, ¬k.2.OfCharacter) :
    Silent s { s with sent := s.sent ++ ks } :=
  ⟨fun _ h => h, rfl, fun _ => rfl, fun _ => rfl, fun _ h => h,
    ⟨[], (List.append_nil _).symm, by simp⟩, ks, rfl, h⟩

theorem silent_broadcast {near : List Sector} {skip : ℕ → Bool} {packet : Packet F}
    (h : ¬packet.OfCharacter) :
    Silent s (s.broadcast near skip packet) := by
  apply silent_sends
  intro k hk
  obtain ⟨q, -, rfl⟩ := List.mem_map.mp hk
  exact h

theorem silent_itemDespawn (s : State F) (item : FieldItem F) (near : List Sector) :
    Silent s (s.broadcastItemDespawn item near) := silent_broadcast fun h => h

theorem silent_sendPost {q : ℕ} {packet : Packet F} (h : ¬packet.OfCharacter) :
    Silent s (s.sendPost q packet) := by
  apply silent_sends
  intro k hk
  rw [List.mem_singleton.mp hk]
  exact h

theorem Packet.Private.not_ofCharacter {packet : Packet F} (h : packet.Private) :
    ¬packet.OfCharacter := by
  cases packet with
  | lootRes | rankingRes => exact id
  | _ => exact h.elim

theorem silent_hitMonster (s : State F) (q : ℕ) (id : ℤ) (m : Monster F) :
    Silent s (s.hitMonster q id m) := by
  have hset : Silent s (s.setMonster id m) := silent_rest rfl (fun _ h => h) rfl rfl rfl
  have hrecord := hset.trans
    (silent_record (e := .monsterState (some q) id (s.monster id).state m.state)
      fun _ => ⟨nofun, nofun⟩)
  exact hrecord.trans (silent_broadcast fun h => h)

variable [Machine F]

theorem Dropped.silent {m : Monster F} (h : Dropped s m t) : Silent s t := by
  have hdrop : Silent s (s.record (.dropItem m.monsterID)) := silent_record fun _ => ⟨nofun, nofun⟩
  cases h with
  | nothing rands => exact hdrop.trans (silent_rest rfl (fun _ h => h) rfl rfl rfl)
  | item itemId count rands =>
    have hcreate := hdrop.trans
      (silent_record (e := .itemCreated (s.itemUniqueID + 1) itemId count) fun _ => ⟨nofun, nofun⟩)
    have hspawn : ¬(Packet.itemSpawn (droppedItem s m itemId count).record : Packet
        F).OfCharacter := fun h => h
    refine (hcreate.trans ?_).trans (silent_broadcast hspawn)
    exact silent_rest rfl (fun _ h => h) rfl rfl rfl

omit [Machine F] in
/-- What becomes of a player, and what it tells those around it. -/
theorem heard_announce (hs : Index s) {q : ℕ} (hq : q ∈ s.players) {p : Player F}
    (hface : SameFace (s.player q) p) {e : Event} {skip : ℕ → Bool} {packet : Packet F}
    (hskip : ∀ o, o ≠ q → skip o = false)
    (hself : skip q = false → seeCharacter p.characterID (some none) packet = some none)
    (hother : ∀ id, id ≠ p.characterID → ∀ actor, seeCharacter id actor packet = actor)
    (hsee : ∀ b, ∃ b', seeCharacter p.characterID (some (some b)) packet = some (some b') ∧
      (b' = true → e = .attackAccepted q ∧ b = true)) (hmove : p.state ≠ .move)
    (he : ∀ q', q' ≠ q → e ≠ .moveStop q' ∧ e ≠ .damaged q') :
    Heard s (((s.setPlayer q p).record e).broadcast p.currentSector.around skip packet) := by
  refine ⟨List.prefix_append _ _, List.suffix_rfl, fun _ _ h => ?_⟩
  refine h.announce hs hq hface hskip hself hother (fun _ b hu => ?_) (fun h => absurd h hmove) he
  obtain ⟨b', hb', hlast⟩ := hsee b
  refine ⟨b', hb', fun hgoes => ?_⟩
  obtain ⟨rfl, hb⟩ := hlast hgoes
  exact (hu hb).append (by simp) (by simp)

theorem Act.heard (h : Act s t) (hs : Sound s) : Heard s t := by
  have hrest : ∀ {u : State F}, u.player = s.player → (∀ q ∈ u.players, q ∈ s.players) →
      u.met = s.met →
      u.history = s.history → u.sent = s.sent → Heard s u := fun hp hps hmet hh hsent =>
    (silent_rest hp hps hmet hh hsent).heard
  cases h with
  | fieldUpdate => exact Silent.heard (silent_record fun q => ⟨nofun, nofun⟩)
  | adjust q syncCnt targets hq => exact Silent.heard (silent_setPlayer rfl rfl fun h => h)
  | hit q id m hq hid hstate hm hdead hgrid => exact Silent.heard (silent_hitMonster s q id m)
  | kill q id m u hq hid hstate hm hdead hgrid hu =>
    have hkill := (silent_hitMonster s q id m).trans hu.silent
    have hrecord := hkill.trans (silent_record (e := .killCountUpdate id q (u.player q).accountNo
      (u.player q).nickname) fun _ => ⟨nofun, nofun⟩)
    unfold requestKillCountUpdate
    dsimp only
    generalize u.record _ = v at hrecord ⊢
    exact Silent.heard (hrecord.trans (silent_rest rfl (fun _ h => h) rfl rfl rfl))
  | aim q hq hne => exact Silent.heard (silent_setPlayer rfl rfl fun h => h)
  | cross q hq hne =>
    obtain ⟨sent, hrest⟩ := cross_rest (s := s) q
    refine ⟨?_, ?_, fun _ _ h => h.cross hs.players hq⟩ <;> rw [hrest]
  | damaged q m p hq hstate hp =>
    have hmove : p.state ≠ .move := by
      rcases takeDamage_state hstate hp with h | h <;> rw [h] <;> decide
    refine heard_announce hs.players (hs.players.mem_near.mp hq).1 (takeDamage_face hp)
      (fun _ _ => rfl) (fun _ => if_pos rfl) (fun id hne actor => if_neg (Ne.symm hne))
      (fun b => ⟨false, ?_, nofun⟩) hmove fun q' hne => ⟨nofun, ?_⟩
    · exact if_pos rfl
    · rintro ⟨⟩
      exact hne rfl
  | enter q accountNo characterID pos nickname hq hid =>
    obtain ⟨sent, hsent⟩ := sends_sendSpawns
      (s := s.enter q (entered q accountNo characterID pos nickname)) q (calcSector pos).around
    rw [hsent]
    exact ⟨List.prefix_rfl, List.suffix_cons _ _,
      fun _ hmet _ => absurd hmet (List.cons_ne_self _ _)⟩
  | moveStart q p packetPos direction hq hstate hsync hp =>
    refine ⟨List.prefix_append _ _, List.suffix_rfl, fun hstands _ _ => ?_⟩
    obtain ⟨es, hes, he⟩ := hstands
    obtain rfl : [.moveStart q] = es := List.append_cancel_left hes
    exact absurd List.mem_cons_self (he q)
  | moveStop q p packetPos direction hq hsync hp =>
    obtain ⟨hface, hmove⟩ : SameFace (s.player q) p ∧ p.state ≠ .move := by
      have hplace := place_face (s.player q) packetPos direction
      rcases hp with ⟨hidle, rfl⟩ | ⟨-, hp⟩
      · refine ⟨hplace, ?_⟩
        rw [place_attack, hidle]
        decide
      · refine ⟨hplace.trans (changeState_face hp), ?_⟩
        rw [changeState_state hp]
        decide
    unfold State.broadcastMoveStop
    rw [show ((s.setPlayer q p).record (.moveStop q)).player q = p from Function.update_self _ _ _]
    refine heard_announce hs.players hq hface (fun o hne => decide_eq_false hne) (fun hskip => ?_)
      (fun id hne actor => if_neg (Ne.symm hne)) (fun b => ⟨false, if_pos rfl, nofun⟩) hmove
        fun q' hne => ⟨?_, nofun⟩
    · exact absurd rfl (of_decide_eq_false hskip)
    · rintro ⟨⟩
      exact hne rfl
  | attackReq q p skillId hq hstate hp =>
    unfold State.broadcastPlayerAttack
    rw [show ((s.setPlayer q { p with pendingAttackSkillId := skillId }).record
      (.attackAccepted q)).player q = { p with pendingAttackSkillId := skillId } from
        Function.update_self _ _ _]
    have hmove : p.state ≠ .move := by
      rw [changeState_state hp]
      decide
    have hface := changeState_face hp
    refine heard_announce (p := { p with pendingAttackSkillId := skillId }) hs.players hq hface
      (fun o hne => decide_eq_false hne) (fun hskip => ?_)
        (fun id hne actor => if_neg (Ne.symm hne))
      (fun b => ⟨b, if_pos rfl, fun hb => ⟨rfl, hb⟩⟩) hmove fun q' _ => ⟨nofun, nofun⟩
    exact absurd rfl (of_decide_eq_false hskip)
  | loot q id hq hid hgrid hcell =>
    have hset : Silent s (s.setPlayer q ((s.player q).addItem (s.item id))) :=
      silent_setPlayer rfl rfl fun h => h
    have hloot : ¬(Packet.lootRes 0 (s.item id).itemId (s.item id).count : Packet F).OfCharacter :=
      fun h => h
    have hres :
        ∀ u : State F, Silent u (u.sendLootRes q true (s.item id).itemId (s.item id).count) :=
      fun _ => silent_sendPost hloot
    have hrecord := ((hset.trans (silent_itemDespawn _ (s.item id) (s.item id).sector.around)).trans
      (hres _)).trans (silent_record (e := .looted q id) fun _ => ⟨nofun, nofun⟩)
    refine Silent.heard (hrecord.trans ?_)
    exact silent_rest rfl (fun _ h => h) rfl rfl rfl
  | send q packet hq hp => exact Silent.heard (silent_sendPost hp.not_ofCharacter)
  | disconnectSession q => exact hrest rfl (fun _ h => h) rfl rfl rfl
  | request q hq => exact hrest rfl (fun _ h => h) rfl rfl rfl
  | save q hq hconnect hpending =>
    have hset : Silent s (s.setPlayer q { s.player q with savePending := true }) :=
      silent_setPlayer rfl rfl fun h => h
    have hrecord := hset.trans (silent_record (e := .positionSave q) fun _ => ⟨nofun, nofun⟩)
    exact Silent.heard (hrecord.trans (silent_rest rfl (fun _ h => h) rfl rfl rfl))
  | dbDequeue job dbReqQ hjob hqueue => exact hrest rfl (fun _ h => h) rfl rfl rfl
  | dbAnswer job ranking hjob => exact hrest rfl (fun _ h => h) rfl rfl rfl
  | rehash players sectors monsters monsterSectors items itemSectors hp hs hm hms hi his =>
    exact hrest rfl (fun _ hq => hp.mem_iff.mp hq) rfl rfl rfl

/-- A tick sets nobody moving. -/
theorem update_move {p p' : Player F} (h : p.update = .ok p') (hstate : p'.state = .move) :
    p.state = .move := by
  unfold Player.update at h
  split_ifs at h with hc
  · cases h
    exact hstate
  · dsimp only at h
    split at h
    · next hmove => exact hmove
    · split_ifs at h
      · rw [changeState_state h] at hstate
        cases hstate
      · cases h
        exact hstate
    · split_ifs at h
      · cases h
        exact hstate
      · rw [changeState_state h] at hstate
        cases hstate
    · cases h
      exact hstate
    · cases h
      exact hstate

theorem PlayerAct.silent {q : ℕ} (h : PlayerAct q s t) : Silent s t := by
  have hset : ∀ {p : Player F}, (s.player q).update = .ok p → Silent s (s.setPlayer q p) := by
    intro p hp
    have hface := update_face hp
    exact silent_setPlayer hface.1 hface.2.2.1 (update_move hp)
  cases h with
  | update p hq hp hframe => exact hset hp
  | attackHit p hq hp hstate hframe => exact (hset hp).trans (silent_record fun _ => ⟨nofun, nofun⟩)

theorem MonsterAct.silent {id : ℤ} (h : MonsterAct id s t) : Silent s t := by
  have hstart : ∀ (u : State F) m near, Silent u (u.broadcastMonsterMoveStart m near) :=
    fun _ _ _ => silent_broadcast fun h => h
  have hstop : ∀ (u : State F) m near, Silent u (u.broadcastMonsterMoveStop m near) :=
    fun _ _ _ => silent_broadcast fun h => h
  have hattack : ∀ (u : State F) m near, Silent u (u.broadcastMonsterAttack m near) :=
    fun _ _ _ => silent_broadcast fun h => h
  have hspawn : ∀ (u : State F) m near, Silent u (u.broadcastMonsterSpawn m near) :=
    fun _ _ _ => silent_broadcast fun h => h
  have hdespawn : ∀ (u : State F) m near, Silent u (u.broadcastMonsterDespawn m near) :=
    fun _ _ _ =>
    silent_broadcast fun h => h
  have hmonster : ∀ (u : State F) (m : Monster F), Silent u (u.setMonster id m) :=
    fun _ _ => silent_rest rfl (fun _ h => h) rfl rfl rfl
  have hmove : ∀ (u : State F) (m : Monster F), Silent u (u.moveMonster id m) :=
    fun _ _ => silent_rest rfl (fun _ h => h) rfl rfl rfl
  cases h with
  | update m rands hid hm =>
    have hrecord := (hmonster s (updateMonsterSectorCheck m)).trans
      (silent_record (e := .monsterState none id (s.monster id).state m.state) fun _ =>
        ⟨nofun, nofun⟩)
    refine hrecord.trans ?_
    exact silent_rest rfl (fun _ h => h) rfl rfl rfl
  | cross hid hstate hne => exact ((hspawn _ _ _).trans (hdespawn _ _ _)).trans (hmove _ _)
  | proc ht =>
    cases ht with
    | moveStart hid hstate hbefore => exact (hstart _ _ _).trans (hmonster _ _)
    | moveAgain hid hstate hbefore =>
        exact ((hstop _ _ _).trans (hstart _ _ _)).trans (hmonster _ _)
    | attack hid hstate => exact ((hstop _ _ _).trans (hattack _ _ _)).trans (hmonster _ _)
    | moveStop hid hstate hbefore => exact (hstop _ _ _).trans (hmonster _ _)
    | respawn hid hstate hbefore hsame =>
        exact ((hdespawn _ _ _).trans (hspawn _ _ _)).trans (hmonster _ _)
    | respawnAway hid hstate hbefore hne =>
      exact (((hdespawn _ _ _).trans (hmove _ _)).trans (hspawn _ _ _)).trans (hmonster _ _)
    | settle hid hstate => exact hmonster _ _

omit [Machine F] in
theorem ItemAct.silent {id : ℤ} (h : ItemAct id s t) : Silent s t := by
  cases h with
  | update hid hlife => exact silent_rest rfl (fun _ h => h) rfl rfl rfl
  | expire hid hlife hgrid =>
    have hupdate : Silent s { s with item := Function.update s.item id (s.item id).update } :=
      silent_rest rfl (fun _ h => h) rfl rfl rfl
    have hdespawn := hupdate.trans
      (silent_itemDespawn _ (s.item id).update (s.item id).sector.around)
    refine (hdespawn.trans (silent_record (e := .expired id) fun _ => ⟨nofun, nofun⟩)).trans ?_
    exact silent_rest rfl (fun _ h => h) rfl rfl rfl

omit [Machine F] in
theorem silent_disconnect (s : State F) (q : ℕ) : Silent s (s.disconnect q) :=
  silent_setPlayer rfl rfl fun h => h

omit [Machine F] in
theorem silent_handBack (s : State F) (q : ℕ) : Silent s (s.handBack q) := by
  have hset : Silent s (s.setPlayer q { s.player q with savePending := false }) :=
    silent_setPlayer rfl rfl fun h => h
  refine (hset.trans (silent_record (e := .playerDisconnected q) fun _ => ⟨nofun, nofun⟩)).trans ?_
  exact silent_rest rfl (fun _ h => List.mem_of_mem_erase h) rfl rfl rfl

theorem Effects.heard (h : Effects s t) (hs : Sound s) : Heard s t := by
  refine (h.keeps (P := fun u => Sound u ∧
    Heard s u) (fun hu ha => ?_) (fun hu => ⟨hu.1.takeResults, hu.2.trans ?_⟩)
    (fun hu _ => ⟨hu.1.handBack _, hu.2.trans (silent_handBack _ _).heard⟩) ⟨hs, .refl s⟩).2
  · refine ⟨Stays.sound (.single ha) hu.1, hu.2.trans ?_⟩
    rcases ha with ((ha | ⟨id, ha⟩) | ⟨q, ha⟩) | ⟨id, ha⟩ | ⟨q, rfl⟩
    · exact ha.heard hu.1
    · exact ha.silent.heard
    · exact ha.silent.heard
    · exact ha.silent.heard
    · exact (silent_disconnect _ q).heard
  · exact Silent.heard (silent_rest rfl (fun _ h => h) rfl rfl rfl)

theorem heard_step {l : Step F} (hs : Sound s) (he : step s l = some (.ok t)) : Heard s t :=
  (effects_step (fun _ hu => (hu.sound hs).items.cells.nodup) he).heard hs

/-! ### Who sets out -/

/-- Nobody sets out, and nobody enters. -/
structure Bides (s t : State F) : Prop where
  stands : Stands s t
  met : t.met = s.met

omit [Machine F] in
theorem Bides.refl (s : State F) : Bides s s := ⟨stands_of_eq rfl, rfl⟩

omit [Machine F] in
theorem Stands.trans (h : Stands s t) (h' : Stands t u) : Stands s u := by
  obtain ⟨es, hes, he⟩ := h
  obtain ⟨fs, hfs, hf⟩ := h'
  refine ⟨es ++ fs, by rw [hfs, hes, List.append_assoc], fun q hmem => ?_⟩
  rcases List.mem_append.mp hmem with hmem | hmem
  · exact he q hmem
  · exact hf q hmem

omit [Machine F] in
theorem Bides.trans (h : Bides s t) (h' : Bides t u) : Bides s u :=
  ⟨h.stands.trans h'.stands, h'.met.trans h.met⟩

omit [Machine F] in
theorem bides_of_eq (hhistory : t.history = s.history) (hmet : t.met = s.met) : Bides s t :=
  ⟨stands_of_eq hhistory, hmet⟩

omit [Machine F] in
theorem Hits.stands (h : Hits s t) : Stands s t := by
  obtain ⟨es, hes, he⟩ := h
  refine ⟨es, hes, fun q hmem => ?_⟩
  cases he _ hmem

theorem bides_updatePlayer {q : ℕ} (h : updatePlayer s q = .ok t) : Bides s t := by
  obtain ⟨p, targets, destSector, hp, hrewrites⟩ := updatePlayer_self h
  refine ⟨?_, hrewrites.met⟩
  rcases updatePlayer_history h hp with ⟨-, -, hhits⟩ | ⟨-, hsame⟩
  · obtain ⟨es, hes, he⟩ := hhits.stands
    refine ⟨.attackHit q :: es, ?_, fun q' hmem => ?_⟩
    · rw [hes]
      exact List.append_assoc _ _ _
    · rcases List.mem_cons.mp hmem with hmem | hmem
      · cases hmem
      · exact he q' hmem
  · exact stands_of_eq hsame

omit [Machine F] in
theorem bides_updateSector {q : ℕ} (h : updateSector s q = .ok t) : Bides s t := by
  refine ⟨?_, (updateSector_player h).met⟩
  unfold updateSector at h
  dsimp only at h
  split_ifs at h
  · cases h
    exact stands_of_eq rfl
  · obtain ⟨_, -, h⟩ := bind_ok h
    obtain ⟨⟨spawnSector, despawnSector⟩, -, h⟩ := bind_ok h
    obtain ⟨sent, hsent⟩ : Sends s ((s.sendSpawns q spawnSector).sendDespawns q despawnSector) :=
      (sends_sendSpawns q spawnSector).trans (sends_sendDespawns q despawnSector)
    dsimp only at h
    rw [hsent] at h
    cases h
    exact stands_of_eq rfl

theorem bides_updateMonster {id : ℤ} (h : updateMonster s id = .ok t) : Bides s t := by
  obtain ⟨m, rands, -, u, rfl, hu⟩ := updateMonster_next h
  have htick : Bides s (s.ticked id m rands) := ⟨⟨[_], rfl, by simp⟩, rfl⟩
  have hset : ∀ u : State F, Bides u (u.setMonster id (updateMonsterSectorCheck m)) :=
    fun _ => bides_of_eq rfl rfl
  rcases hu with ⟨-, -, hu⟩ | ⟨-, rfl⟩
  · refine (htick.trans ?_).trans (hset u)
    unfold processMonsterAttackHit at hu
    obtain ⟨near, -, hu⟩ := bind_ok hu
    split at hu
    · cases hu
      exact .refl _
    · obtain ⟨p, -, hu⟩ := bind_ok hu
      obtain ⟨near, -, hu⟩ := bind_ok hu
      cases hu
      exact ⟨⟨[_], rfl, by simp⟩, rfl⟩
  · exact htick.trans (hset _)

omit [Machine F] in
theorem bides_updateMonsterSector {id : ℤ} (h : updateMonsterSector s id = .ok t) : Bides s t := by
  rcases updateMonsterSector_cases h with ⟨rfl, -⟩ | ⟨-, -, rfl⟩
  · exact .refl _
  · exact bides_of_eq rfl rfl

omit [Machine F] in
theorem bides_updateItem {id : ℤ} (h : updateItem s id = .ok t) : Bides s t := by
  unfold updateItem at h
  dsimp only at h
  split at h
  · obtain ⟨near, -, h⟩ := bind_ok h
    cases h
    exact ⟨⟨[_], rfl, by simp⟩, rfl⟩
  · cases h
    exact bides_of_eq rfl rfl

theorem bides_fieldUpdate (h : fieldUpdate s = .ok t) : Bides s t := by
  have hloop : ∀ {α : Type} {f : State F → α → Except Stop (State F)} {l : List α} {u v : State F},
      (∀ u v a, f u a = .ok v → Bides u v) → l.foldlM f u = .ok v → Bides u v := fun hf hl =>
    foldlM_rel Bides.refl (fun _ _ _ => Bides.trans) hf hl
  unfold fieldUpdate at h
  obtain ⟨s1, h1, h⟩ := bind_ok h
  obtain ⟨s2, h2, h⟩ := bind_ok h
  obtain ⟨s3, h3, h⟩ := bind_ok h
  obtain ⟨s4, h4, h⟩ := bind_ok h
  have hbegin : Bides s (s.record .fieldUpdate) := ⟨⟨[_], rfl, by simp⟩, rfl⟩
  have hplayers := (hbegin.trans (hloop (fun _ _ _ => bides_updatePlayer) h1)).trans
    (hloop (fun _ _ _ => bides_updateSector) h2)
  have hmonsters := (hplayers.trans (hloop (fun _ _ _ => bides_updateMonster) h3)).trans
    (hloop (fun _ _ _ => bides_updateMonsterSector) h4)
  exact hmonsters.trans (hloop (fun _ _ _ => bides_updateItem) h)

theorem bides_monsterProc (h : monsterProc s = .ok t) : Bides s t := by
  refine (foldlM_keeps (P := fun u => Bides s u ∧ u.monsters = s.monsters) ?_ ⟨.refl s, rfl⟩ h).1
  intro u v id hid hu hv
  rw [← hu.2] at hid
  refine ⟨hu.1.trans ?_, (calms_procMonster hid hv).2.trans hu.2⟩
  rcases act_procMonster hid hv with ⟨rfl, -⟩ | hproc
  · exact .refl _
  · cases hproc <;> exact bides_of_eq rfl rfl

omit [Machine F] in
theorem bides_checkDisConnected (h : checkDisConnectedAndLeavePlayer s = .ok t) : Bides s t := by
  refine foldlM_rel Bides.refl (fun _ _ _ => Bides.trans) (fun u v q hu => ?_) h
  rcases saveDisconnected_cases hu with rfl | ⟨-, -, rfl⟩
  · exact .refl _
  · exact ⟨⟨[_], rfl, by simp⟩, rfl⟩

omit [Machine F] in
theorem bides_dbResults (h : dbResultPacketProc s = .ok t) : Bides s t := by
  unfold dbResultPacketProc at h
  have htake : Bides s { s with dbResQ := [] } := bides_of_eq rfl rfl
  refine htake.trans (foldlM_rel Bides.refl (fun _ _ _ => Bides.trans) (fun u v result hu => ?_) h)
  rcases dbResult_cases hu with ⟨-, rfl | ⟨q, packet, -, -, rfl⟩⟩ | ⟨q, -, -, rfl⟩
  · exact .refl _
  · exact bides_of_eq rfl rfl
  · exact ⟨⟨[_], rfl, by simp⟩, rfl⟩

/-! ### Runs -/

omit [Machine F] in
/-- A MOVE_START. -/
def isMoveStart (msg : Message) : Bool :=
  match msg.readInt 2 with
  | .ok (type, _) => type = PacketType.MOVE_START
  | .error _ => false

omit [Machine F] in
theorem Replies.stands [Machine F] (h : Replies s t) : Stands s t := by
  induction h with
  | refl => exact stands_of_eq rfl
  | tail _ ha ih => exact ih.trans ha.2.2

theorem bides_elsewhere {l : Step F} (h : Field.step s l = some (.ok t)) (hl : l.elsewhere = true) :
    Bides s t := by
  unfold Field.step at h
  cases l with
  | onRelease q =>
    cases h
    exact bides_of_eq rfl rfl
  | dbDequeue | dbAnswer ranking =>
    dsimp only at h
    split at h <;> cases h
    exact bides_of_eq rfl rfl
  | rehashPlayers | rehashSector | rehashMonsters | rehashMonsterSector | rehashItems
  | rehashItemSector =>
    dsimp only at h
    split_ifs at h
    cases h
    exact bides_of_eq rfl rfl
  | _ => cases hl

/-- Players set out by their MOVE_STARTs alone. -/
theorem bides_contentsPacket {msg : Message} {q : ℕ} (hconnect : (s.player q).connect = true)
    (h : fieldContentsPacketProc s msg q = .ok t) :
    Bides s t ∨ isMoveStart msg = true ∧ SetsOut q s t := by
  obtain ⟨p, -, hrewrites⟩ := handled_fieldContentsPacketProc h
  have hstands : Stands s t → Bides s t := fun hstands => ⟨hstands, hrewrites.met⟩
  unfold fieldContentsPacketProc at h
  obtain ⟨⟨type, msg'⟩, htype, h⟩ := bind_ok h
  obtain ⟨_, -, h⟩ := bind_ok h
  split_ifs at h with hstart
  · refine (replies_handleMoveStart hconnect h).imp (fun h => hstands h.stands) fun h => ⟨?_, h⟩
    unfold isMoveStart
    rw [htype]
    exact decide_eq_true hstart
  · exact Or.inl (hstands (replies_handleMoveStop hconnect h).stands)
  · exact Or.inl (hstands (replies_handleAttackReq h).stands)
  · exact Or.inl (hstands (replies_handleLootReq h).stands)
  · unfold handleRankingReq at h
    obtain ⟨_, -, h⟩ := bind_ok h
    cases h
    exact Or.inl (hstands (stands_of_eq rfl))
  · cases h
    exact Or.inl (hstands (stands_of_eq rfl))

omit [Machine F] in
/-- `q` is around nobody. -/
def Unwatched (s : State F) (q : ℕ) : Prop :=
  ∀ o ∈ s.players, o ≠ q → (s.player q).currentSector ∉ (s.player o).currentSector.around

/-- `authThread` has numbered the characters, and no MOVE_START is accepted of a player that is
under way and seen. -/
def Orderly (s : State F) : Step F → Prop
  | .registerPlayer _ _ characterID _ _ => ∀ q ∈ s.met, (s.player q).characterID ≠ characterID
  | .contentsPacket q msg => isMoveStart msg = true → (s.player q).starts = true →
    Underway q s.history → Unwatched s q
  | _ => True

theorem SetsOut.followed {q : ℕ} (h : SetsOut q s t) (hs : Index s) (hf : Followed s)
    (hunwatched : (s.player q).starts = true → Underway q s.history → Unwatched s q) :
    Followed t := by
  obtain ⟨p, packetPos, direction, hq, hstate, -, hp, -⟩ := h
  have hface := (place_face (s.player q) packetPos direction).trans (changeState_face hp)
  unfold State.broadcastMoveStart
  rw [show ((s.setPlayer q p).record (.moveStart q)).player q = p from Function.update_self _ _ _]
  refine hf.announce hs hq hface (fun o hne => decide_eq_false hne)
    (fun hskip => absurd rfl (of_decide_eq_false hskip)) (fun id hne actor => if_neg (Ne.symm hne))
    ?_ (fun _ => underway_start q _) fun q' _ => ⟨nofun, nofun⟩
  rintro ⟨o, ho, hne, haround⟩ b hu
  have hb : b = false := by
    rw [Bool.eq_false_iff]
    exact fun hb => hunwatched (decide_eq_true hstate) (hu hb) o ho hne haround
  subst hb
  exact ⟨true, if_pos rfl, fun _ => underway_start q _⟩

theorem Followed.step {l : Step F} (h : Followed s) (hs : Sound s) (hl : Orderly s l)
    (he : step s l = some (.ok t)) :
    Followed t := by
  have hbides : Bides s t → Followed t := fun hb => (heard_step hs he).followed hb.stands hb.met h
  cases l with
  | registerPlayer q accountNo characterID pos nickname =>
    unfold Field.step at he
    dsimp only at he
    split_ifs at he with hnew
    obtain rfl := handleRegisterPlayer_eq (Option.some.inj he)
    have hfresh : ∀ q' ∈ s.met, (s.player q').characterID ≠
        (entered q accountNo characterID pos nickname).characterID := hl
    exact h.enter hs.players hnew.1 hfresh rfl (calcSector_inGrid pos) (calcSector_inGrid pos) nofun
  | contentsPacket q msg =>
    unfold Field.step at he
    dsimp only at he
    split_ifs at he with hq
    rcases bides_contentsPacket hq.2 (Option.some.inj he) with hb | ⟨hmsg, hset⟩
    · exact hbides hb
    · exact hset.followed hs.players h (hl hmsg)
  | fieldUpdate => exact hbides (bides_fieldUpdate (Option.some.inj he))
  | monsterProc => exact hbides (bides_monsterProc (Option.some.inj he))
  | checkDisConnected => exact hbides (bides_checkDisConnected (Option.some.inj he))
  | dbResults => exact hbides (bides_dbResults (Option.some.inj he))
  | _ => exact hbides (bides_elsewhere he rfl)

theorem Fresh.followed (h : Fresh s) : Followed s := by
  obtain ⟨hplayers, hmet, hsent, -⟩ := h.nobody
  have hnone : ∀ o id, characterOf s o id = some none := by
    intro o id
    unfold characterOf told
    rw [hsent]
    rfl
  have hnobody : ∀ {q : ℕ}, q ∉ s.players := by
    intro q
    rw [hplayers]
    exact List.not_mem_nil
  refine ⟨?_, fun q hq => absurd hq hnobody, fun q hq => absurd hq hnobody, fun q _ => hnone q _,
    fun id _ o => hnone o id, fun o id _ => ?_⟩
  · rw [hmet]
    exact fun q hq => absurd hq List.not_mem_nil
  · rw [hnone]
    exact Option.some_ne_none _

/-- No assertion about a character fails in a client. -/
theorem characterOf_ne_none (h : (field.restrict Orderly).Reachable s) (o : ℕ) (id : ℤ) :
    characterOf s o id ≠ none :=
  (field_runs_if (P := Followed) (fun hs => hs.followed)
    (fun hs hf hl he => hf.step hs hl he) h).characterOf_ne_none o id

omit [Machine F] in
theorem foldl_seeCharacter_none (id : ℤ) (packets : List (Packet F)) :
    packets.foldl (seeCharacter id) none = none := by
  induction packets with
  | nil => rfl
  | cons packet packets ih =>
    have hnone : seeCharacter id none packet = none := by
      cases packet with
      | otherCharacterSpawnBatch cnt records =>
        exact List.foldl_fixed' (fun record => ite_self _) records
      | _ => first | rfl | exact ite_self _
    rw [List.foldl_cons, hnone, ih]

omit [Machine F] in
/-- A MOVE_START that a client survives found an actor that stands. -/
theorem foldl_moveStart {id : ℤ} {pos : Position F} {direction : ℤ}
    {speed : F} {pre post : List (Packet F)} {actor : Option (Option Bool)}
    (h : (pre ++ .moveStart id pos direction speed :: post).foldl (seeCharacter id) actor ≠ none) :
    pre.foldl (seeCharacter id) actor = some (some false) := by
  rw [List.foldl_append, List.foldl_cons] at h
  generalize pre.foldl (seeCharacter id) actor = x at h ⊢
  have hsee : x.bind actorMoveStart ≠ none := by
    intro hnone
    apply h
    have hlast : seeCharacter id x (.moveStart id pos direction speed) = none :=
      (if_pos rfl).trans hnone
    rw [hlast, foldl_seeCharacter_none]
  rcases x with - | - | b
  · exact absurd rfl hsee
  · exact absurd rfl hsee
  · cases b with
    | false => rfl
    | true => exact absurd rfl hsee

/-- In an orderly run every MOVE_START finds the character in the client, and there it stands. -/
theorem remote_inStep (h : (field.restrict Orderly).Reachable s)
    {o : ℕ} {id : ℤ} {pos : Position F} {direction : ℤ} {speed : F} {pre post : List (Packet F)}
    (hinbox : inbox o s.sent = pre ++ .moveStart id pos direction speed :: post) :
    pre.foldl (seeCharacter id) (some none) = some (some false) := by
  have hsafe : (inbox o s.sent).foldl (seeCharacter id) (some none) ≠ none :=
    characterOf_ne_none h o id
  rw [hinbox] at hsafe
  exact foldl_moveStart hsafe

end

/-! ### Two runs -/

section

/-- `Orderly` as a test: what has come to the session since it last stopped is no MOVE_START. -/
def orderly (s : State ℚ) : Step ℚ → Bool
  | .registerPlayer _ _ characterID _ _ => s.met.all fun q => (s.player q).characterID ≠ characterID
  | .contentsPacket q msg => !isMoveStart msg ||
      (s.history.reverse.takeWhile fun e => e ≠ .moveStop q ∧ e ≠ .damaged q).all (· ≠ .moveStart q)
  | _ => true

theorem orderly_sound {s : State ℚ} {l : Step ℚ} (h : orderly s l = true) : Orderly s l := by
  cases l with
  | registerPlayer q accountNo characterID pos nickname => simpa [orderly, Orderly] using h
  | contentsPacket q msg =>
    rintro hmsg - ⟨a, b, hab, hstop, hdamaged⟩
    have hlast : ∀ e ∈ b.reverse, decide (e ≠ .moveStop q ∧ e ≠ .damaged q) = true := by
      intro e he
      rw [List.mem_reverse] at he
      exact decide_eq_true ⟨fun heq => hstop (heq ▸ he), fun heq => hdamaged (heq ▸ he)⟩
    simp only [orderly, hmsg, Bool.not_true, Bool.false_or, hab, List.reverse_append,
      List.reverse_cons, List.append_assoc, List.takeWhile_append_of_pos hlast] at h
    simp at h
  | _ => trivial

/-- The packets end in a MOVE_START of `id`. -/
def endsInStart (id : ℤ) (packets : List (Packet ℚ)) : Bool :=
  match packets.getLast? with
  | some (.moveStart id' _ _ _) => id' = id
  | _ => false

theorem endsInStart_ok {id : ℤ} {packets : List (Packet ℚ)} (h : endsInStart id packets = true) :
    ∃ pos direction speed,
    packets = packets.dropLast ++ [.moveStart id pos direction speed] := by
  unfold endsInStart at h
  split at h
  · next id' pos direction speed hlast =>
    obtain rfl := of_decide_eq_true h
    exact ⟨pos, direction, speed, (List.dropLast_append_getLast? _ hlast).symm⟩
  · cases h

/-- Sessions 1 and 2 enter at one place, and session 1 walks. -/
def walk : List (Step ℚ) :=
  [.registerPlayer 1 7 11 ⟨0, 0⟩ [], .registerPlayer 2 8 12 ⟨0, 0⟩ []] ++
    pass [.contentsPacket 1 (moveStartMsg 6)]

/-- It stops, and walks on. -/
theorem remote_inStep_walk :
    ∃ (s : State ℚ) (pos : Position ℚ) (direction : ℤ) (speed : ℚ) (pre : List (Packet ℚ)),
    inbox 2 s.sent = pre ++ [.moveStart 11 pos direction speed] ∧ pre.length = 4 ∧
      pre.foldl (seeCharacter 11) (some none) = some (some false) := by
  have hrun : (field.execIf orderly oneMonster (walk ++ pass [.contentsPacket 1 (moveStopMsg 0 0)]
      ++ pass [.contentsPacket 1 (moveStartMsg 6)])).any (fun s => endsInStart 11 (inbox 2 s.sent) ∧
      (inbox 2 s.sent).dropLast.length = 4) = true := by decide +kernel
  obtain ⟨s, hs, hp⟩ := Option.any_eq_true _ _ |>.mp hrun
  obtain ⟨hends, hlength⟩ := of_decide_eq_true hp
  obtain ⟨pos, direction, speed, hinbox⟩ := endsInStart_ok hends
  have hreach : (field.restrict Orderly).Reachable s :=
    System.Reachable.execIf (fun _ _ => orderly_sound) _ (.start oneMonster_init) hs
  exact ⟨s, pos, direction, speed, _, hinbox, hlength, remote_inStep hreach hinbox⟩

/-- It attacks, and walks on when the attack is over: nobody has told session 2 that it had stopped.
-/
theorem setsOut_twice :
    ∃ (c : Phase × State ℚ) (pos : Position ℚ) (direction : ℤ) (speed : ℚ) (pre : List (Packet ℚ)),
    fieldThread.Reachable c ∧ inbox 2 c.2.sent = pre ++ [.moveStart 11 pos direction speed] ∧
      pre.foldl (seeCharacter 11) (some none) = some (some true) := by
  have hrun : (fieldThread.exec (Phase.messages, oneMonster)
      (walk ++ pass [.contentsPacket 1 attackMsg] ++ (List.replicate 5 (pass [])).flatten ++
      pass [.contentsPacket 1 (moveStartMsg 6)])).any (fun c => endsInStart 11 (inbox 2 c.2.sent) ∧
      (inbox 2 c.2.sent).dropLast.foldl (seeCharacter 11) (some none) = some (some true)) =
      true := by decide +kernel
  obtain ⟨c, hc, hp⟩ := Option.any_eq_true _ _ |>.mp hrun
  obtain ⟨hends, hmoves⟩ := of_decide_eq_true hp
  obtain ⟨pos, direction, speed, hinbox⟩ := endsInStart_ok hends
  exact ⟨c, pos, direction, speed, _, .exec _ (.start (fieldThread_init oneMonster_init)) hc,
    hinbox, hmoves⟩

end

end Field
end MyMMO
