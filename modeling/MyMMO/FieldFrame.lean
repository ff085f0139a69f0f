/-
# What a client is shown

A client knows the characters that OTHER_CHARACTER_SPAWN packets have shown it and CHARACTER_DESPAWN
packets have not taken away (`known`). Most effects change neither what anybody knows nor where
anybody is registered (`Frame`); the others are the arrival of a player, one that crosses into
another sector, and containers that are reordered (`Moves`).
-/
import MyMMO.Acts

namespace MyMMO
namespace Field

open Outcome

variable {F : Type}

/-! ### What a client knows -/

/-- A character is spawned; a spawn of one that is known leaves nothing to say. -/
def learn (ids : Option (Finset ℤ)) (id : ℤ) : Option (Finset ℤ) :=
  match ids with
  | none => none
  | some ids => if id ∈ ids then none else some (insert id ids)

/-- A packet reaches the client. -/
def see (ids : Option (Finset ℤ)) : Packet F → Option (Finset ℤ)
  | .otherCharacterSpawn record => learn ids record.characterID
  | .otherCharacterSpawnBatch _ records => (records.map CharacterRecord.characterID).foldl learn ids
  | .characterDespawn id => ids.map fun ids => ids.erase id
  | _ => ids

/-- The packets sent to `q`, in order. -/
def inbox (q : ℕ) (sent : List (ℕ × Packet F)) : List (Packet F) :=
  (sent.filter fun k => k.1 = q).map Prod.snd

/-- What becomes of `start` in the client of `q` if `see` is what a packet does to it. -/
def told {κ : Type} (see : κ → Packet F → κ) (start : κ) (s : State F) (q : ℕ) : κ :=
  (inbox q s.sent).foldl see start

/-- What the client of `q` knows; none if a character was spawned to it twice. -/
def known (s : State F) (q : ℕ) : Option (Finset ℤ) := told see (some ∅) s q

/-- A packet that changes nothing of what a client knows. -/
def Neutral (packet : Packet F) : Prop := ∀ ids, see ids packet = ids

theorem inbox_append (q : ℕ) (ks ls : List (ℕ × Packet F)) :
    inbox q (ks ++ ls) = inbox q ks ++ inbox q ls := by
  unfold inbox
  rw [List.filter_append, List.map_append]

section

variable {κ : Type} {see : κ → Packet F → κ} {start : κ} {s t : State F}

theorem told_append {ks : List (ℕ × Packet F)} (h : t.sent = s.sent ++ ks) (q : ℕ) :
    told see start t q = (inbox q ks).foldl see (told see start s q) := by
  unfold told
  rw [h, inbox_append, List.foldl_append]

/-- Packets that say nothing. -/
theorem foldl_still {ks : List (Packet F)} {k : κ} (h : ∀ packet ∈ ks, see k packet = k) :
    ks.foldl see k = k := by
  induction ks with
  | nil => rfl
  | cons packet ks ih =>
    rw [List.foldl_cons, h packet List.mem_cons_self]
    exact ih fun packet hp => h packet (List.mem_cons_of_mem _ hp)

theorem told_still {ks : List (ℕ × Packet F)} (h : t.sent = s.sent ++ ks)
    (hk : ∀ k ∈ ks, ∀ x, see x k.2 = x) (q : ℕ) :
    told see start t q = told see start s q := by
  rw [told_append h]
  apply foldl_still
  intro packet hp
  obtain ⟨k, hk', rfl⟩ := List.mem_map.mp hp
  exact hk k (List.mem_of_mem_filter hk') _

end

theorem inbox_map (q q' : ℕ) (ks : List (Packet F)) :
    inbox q (ks.map fun k => (q', k)) = if q = q' then ks else [] := by
  unfold inbox
  split_ifs with h
  · subst h
    simp [List.filter_map, Function.comp_def]
  · simp [List.filter_map, Function.comp_def, Ne.symm h]

theorem inbox_eq_nil {q : ℕ} {ks : List (ℕ × Packet F)} (h : ∀ k ∈ ks, k.1 ≠ q) :
    inbox q ks = [] := by
  unfold inbox
  rw [List.filter_eq_nil_iff.mpr]
  · rfl
  · intro k hk
    simpa using h k hk

/-- Everybody on a list without repetitions is sent the packet once. -/
theorem inbox_broadcast (q : ℕ) {qs : List ℕ} (hnd : qs.Nodup) (packet : Packet F) :
    inbox q (qs.map fun q' => (q', packet)) = if q ∈ qs then [packet] else [] := by
  induction qs with
  | nil => rfl
  | cons q' qs ih =>
    obtain ⟨hnot, hnd⟩ := List.nodup_cons.mp hnd
    have hcons : inbox q ((q' :: qs).map fun q' => (q', packet)) =
        (if q = q' then [packet] else []) ++ inbox q (qs.map fun q' => (q', packet)) := by
      unfold inbox
      rw [List.map_cons, List.filter_cons]
      by_cases h : q = q'
      · simp [h]
      · simp [h, Ne.symm h]
    rw [hcons, ih hnd]
    by_cases h : q = q'
    · subst h
      simp [hnot]
    · simp [h]

section

variable {κ : Type} {see : κ → Packet F → κ} {start : κ} {s : State F}

theorem told_sendAll (s : State F) (q : ℕ) (packets : List (Packet F)) (q' : ℕ) :
    told see start (s.sendAll q packets) q' =
      if q' = q then packets.foldl see (told see start s q) else told see start s q' := by
  rw [told_append (t := s.sendAll q packets) rfl, inbox_map]
  split_ifs with h
  · rw [h]
  · rfl

theorem told_broadcast {near : List Sector} (hnd : (s.near near).Nodup) (skip : ℕ → Bool)
    (packet : Packet F) (q : ℕ) :
    told see start (s.broadcast near skip packet) q =
      if q ∈ s.near near ∧ skip q = false then see
        (told see start s q) packet else told see start s q := by
  rw [told_append (t := s.broadcast near skip packet) rfl, inbox_broadcast q (hnd.filter _)]
  simp only [List.mem_filter, Bool.not_eq_true']
  split_ifs <;> rfl

end

section

variable {κ : Type} {see : κ → Packet F → κ} {start : κ} {s : State F}

theorem told_broadcast_still {near : List Sector} {skip : ℕ → Bool} {packet : Packet F}
    (hsee : ∀ x, see x packet = x) (q : ℕ) :
    told see start (s.broadcast near skip packet) q = told see start s q := by
  apply told_still (t := s.broadcast near skip packet) rfl
  intro k hk x
  obtain ⟨q', -, rfl⟩ := List.mem_map.mp hk
  exact hsee x

theorem told_sendAll_still {ρ : Type} {q' : ℕ} {l : List ρ} {packet : ρ → Packet F}
    (hsee : ∀ r x, see x (packet r) = x) (q : ℕ) :
    told see start (s.sendAll q' (l.map packet)) q = told see start s q := by
  apply told_still (t := s.sendAll q' (l.map packet)) rfl
  intro k hk x
  obtain ⟨packet', hp, rfl⟩ := List.mem_map.mp hk
  obtain ⟨r, -, rfl⟩ := List.mem_map.mp hp
  exact hsee r x

end

/-! ### What spawns and despawns say -/

/-- New ones are learnt. -/
theorem foldl_learn {ids : List ℤ} (hnd : ids.Nodup) {known : Finset ℤ}
    (hnew : ∀ id ∈ ids, id ∉ known) :
    ids.foldl learn (some known) = some (known ∪ ids.toFinset) := by
  induction ids generalizing known with
  | nil => simp
  | cons id ids ih =>
    obtain ⟨hnot, hnd⟩ := List.nodup_cons.mp hnd
    rw [List.foldl_cons, learn, if_neg (hnew id List.mem_cons_self), ih hnd]
    · rw [List.toFinset_cons, Finset.insert_union, Finset.union_insert]
    · intro id' hid' hmem
      rcases Finset.mem_insert.mp hmem with rfl | hmem
      · exact hnot hid'
      · exact hnew id' (List.mem_cons_of_mem _ hid') hmem

section

variable {see : Option (Finset ℤ) → Packet F → Option (Finset ℤ)}

theorem foldl_despawn {packet : ℤ → Packet F}
    (hsee : ∀ ids id, see ids (packet id) = ids.map fun ids => ids.erase id) (ids : List ℤ)
    (known : Finset ℤ) : (ids.map packet).foldl see (some known) = some (known \ ids.toFinset) := by
  induction ids generalizing known with
  | nil => simp
  | cons id ids ih =>
    rw [List.map_cons, List.foldl_cons, hsee, Option.map_some, ih]
    congr 1
    ext id'
    simp
    tauto

/-- The messages of a batch carry what they are made from. -/
theorem batchLoop_flatMap {ρ : Type} (maxBatch : ℕ) (es : List ρ) (cnt left : ℕ)
    (msg : Option (ℕ × List ρ)) (hmsg : msg = none → left = 0) :
    (batchLoop maxBatch es cnt left msg).flatMap Prod.snd = msg.toList.flatMap Prod.snd ++ es := by
  induction es generalizing cnt left msg with
  | nil =>
    simp [batchLoop]
  | cons e es ih =>
    unfold batchLoop
    split_ifs with h
    · rw [List.flatMap_append, ih _ _ _ (by simp)]
      simp
    · obtain ⟨m, rfl⟩ : ∃ m, msg = some m := by
        cases msg with
        | none => exact absurd (hmsg rfl) h
        | some m => exact ⟨m, rfl⟩
      rw [ih _ _ _ (by simp)]
      simp

theorem batches_flatMap {ρ : Type} (recordSize : ℕ) (es : List ρ) :
    (batches recordSize es).flatMap Prod.snd = es := by
  unfold batches
  rw [batchLoop_flatMap _ _ _ _ _ fun _ => rfl]
  rfl

/-- Messages of a batch say what is in them. -/
theorem foldl_batch {ρ κ : Type} {see : κ → Packet F → κ} {packet : ℕ → List ρ → Packet F}
    {f : κ → ρ → κ} (hsee : ∀ k cnt es, see k (packet cnt es) = es.foldl f k)
    (ms : List (ℕ × List ρ)) (k : κ) :
    (ms.map fun m => packet m.1 m.2).foldl see k = (ms.flatMap Prod.snd).foldl f k := by
  induction ms generalizing k with
  | nil => rfl
  | cons m ms ih =>
      rw [List.map_cons, List.foldl_cons, ih, List.flatMap_cons, List.foldl_append, hsee]

end

/-! ### Operations that nobody notices -/

/-- `t` is `s` as far as anybody's knowledge goes. -/
structure Frame (s t : State F) : Prop where
  players : t.players = s.players
  sectors : t.sectors = s.sectors
  met : t.met = s.met
  currentSector : ∀ q, (t.player q).currentSector = (s.player q).currentSector
  destSector : ∀ q, (s.player q).destSector.InGrid → (t.player q).destSector.InGrid
  characterID : ∀ q, (t.player q).characterID = (s.player q).characterID
  connect : ∀ q, (t.player q).connect = true → (s.player q).connect = true
  seqID : ∀ q, (t.player q).seqID = (s.player q).seqID
  accountNo : ∀ q, (t.player q).accountNo = (s.player q).accountNo
  nickname : ∀ q, (t.player q).nickname = (s.player q).nickname
  sent : ∃ ks, t.sent = s.sent ++ ks ∧ ∀ k ∈ ks, Neutral k.2

section

variable {s t u : State F}

theorem Frame.trans (h : Frame s t) (h' : Frame t u) : Frame s u := by
  obtain ⟨ks, hks, hn⟩ := h.sent
  obtain ⟨ls, hls, hn'⟩ := h'.sent
  refine ⟨h'.players.trans h.players, h'.sectors.trans h.sectors, h'.met.trans h.met,
    fun q => (h'.currentSector q).trans (h.currentSector q), fun q hq =>
      h'.destSector q (h.destSector q hq),
    fun q => (h'.characterID q).trans (h.characterID q), fun q hq => h.connect q (h'.connect q hq),
    fun q => (h'.seqID q).trans (h.seqID q), fun q => (h'.accountNo q).trans (h.accountNo q),
    fun q => (h'.nickname q).trans (h.nickname q), ks ++ ls, ?_, ?_⟩
  · rw [hls, hks, List.append_assoc]
  · intro k hk
    rcases List.mem_append.mp hk with hk | hk
    · exact hn k hk
    · exact hn' k hk

theorem Frame.known (h : Frame s t) (q : ℕ) : known t q = known s q := by
  obtain ⟨ks, hks, hn⟩ := h.sent
  exact told_still hks hn q

/-- The fields of a player that others see. -/
def SameFace (p p' : Player F) : Prop :=
  p'.currentSector = p.currentSector ∧ (p.destSector.InGrid → p'.destSector.InGrid) ∧
    p'.characterID = p.characterID ∧ (p'.connect = true → p.connect = true) ∧ p'.seqID = p.seqID ∧
      p'.accountNo = p.accountNo ∧ p'.nickname = p.nickname

theorem SameFace.trans {p p' p'' : Player F} (h : SameFace p p') (h' : SameFace p' p'') :
    SameFace p p'' := by
  obtain ⟨h1, h2, h3, h4, h5, h6, h7⟩ := h
  obtain ⟨h1', h2', h3', h4', h5', h6', h7'⟩ := h'
  exact ⟨h1'.trans h1, fun hq => h2' (h2 hq), h3'.trans h3, fun hq => h4 (h4' hq), h5'.trans h5,
    h6'.trans h6, h7'.trans h7⟩

theorem frame_setPlayer {q : ℕ} {p : Player F} (h : SameFace (s.player q) p) :
    Frame s (s.setPlayer q p) := by
  have hface : ∀ q', SameFace (s.player q') ((s.setPlayer q p).player q') := by
    intro q'
    unfold State.setPlayer
    dsimp only
    rw [Function.update_apply]
    split_ifs with hq
    · rw [hq]
      exact h
    · exact ⟨rfl, id, rfl, id, rfl, rfl, rfl⟩
  exact ⟨rfl, rfl, rfl, fun q' => (hface q').1, fun q' => (hface q').2.1,
    fun q' => (hface q').2.2.1, fun q' => (hface q').2.2.2.1, fun q' => (hface q').2.2.2.2.1,
    fun q' => (hface q').2.2.2.2.2.1, fun q' => (hface q').2.2.2.2.2.2, [],
    by simp [State.setPlayer], by simp⟩

theorem frame_broadcast {nearSector : List Sector} {skip : ℕ → Bool} {packet : Packet F}
    (h : Neutral packet) :
    Frame s (s.broadcast nearSector skip packet) := by
  refine ⟨rfl, rfl, rfl, fun _ => rfl, fun _ => id, fun _ => rfl, fun _ => id, fun _ => rfl,
    fun _ => rfl, fun _ => rfl, _, rfl, ?_⟩
  intro k hk
  obtain ⟨q, -, rfl⟩ := List.mem_map.mp hk
  exact h

theorem frame_sendAll {q : ℕ} {packets : List (Packet F)} (h : ∀ k ∈ packets, Neutral k) :
    Frame s (s.sendAll q packets) := by
  refine ⟨rfl, rfl, rfl, fun _ => rfl, fun _ => id, fun _ => rfl, fun _ => id, fun _ => rfl,
    fun _ => rfl, fun _ => rfl, _, rfl, ?_⟩
  intro k hk
  obtain ⟨l, hl, rfl⟩ := List.mem_map.mp hk
  exact h l hl

theorem frame_sendPost {q : ℕ} {packet : Packet F} (h : Neutral packet) :
    Frame s (s.sendPost q packet) := by
  refine ⟨rfl, rfl, rfl, fun _ => rfl, fun _ => id, fun _ => rfl, fun _ => id, fun _ => rfl,
    fun _ => rfl, fun _ => rfl, [(q, packet)], rfl, ?_⟩
  intro k hk
  rw [List.mem_singleton.mp hk]
  exact h

theorem frame_sendPrivate (q : ℕ) {packet : Packet F} (h : packet.Private) :
    Frame s (s.sendPost q packet) := by
  apply frame_sendPost
  intro ids
  cases packet <;> first | rfl | cases h

/-- The rest of the state is nobody's face. -/
theorem frame_of_eq (hp : t.player = s.player) (hps : t.players = s.players)
    (hsec : t.sectors = s.sectors) (hmet : t.met = s.met) (hsent : t.sent = s.sent) : Frame s t :=
  ⟨hps, hsec, hmet, fun q => by rw [hp], fun q => by rw [hp]; exact id, fun q => by rw [hp],
    fun q => by rw [hp]; exact id, fun q => by rw [hp], fun q => by rw [hp], fun q => by
      rw [hp], [], by rw [hsent, List.append_nil], by simp⟩

theorem frame_setMonster (s : State F) (id : ℤ) (m : Monster F) : Frame s (s.setMonster id m) :=
  frame_of_eq rfl rfl rfl rfl rfl

theorem frame_moveMonster (s : State F) (id : ℤ) (m : Monster F) : Frame s (s.moveMonster id m) :=
  frame_of_eq rfl rfl rfl rfl rfl

theorem changeState_face {p p' : Player F} {state : PlayerState}
    (h : p.changeState state = .ok p') :
    SameFace p p' := by
  rw [(changeState_eq h).2]
  exact ⟨rfl, id, rfl, id, rfl, rfl, rfl⟩

theorem frame_record (s : State F) (e : Event) : Frame s (s.record e) :=
  frame_of_eq rfl rfl rfl rfl rfl

theorem frame_removeItem (s : State F) (id : ℤ) (c : Sector) : Frame s (s.removeItem id c) :=
  frame_of_eq rfl rfl rfl rfl rfl

variable [Machine F]

theorem update_face {p p' : Player F} (h : p.update = .ok p') : SameFace p p' := by
  rw [update_eq h]
  exact ⟨rfl, id, rfl, id, rfl, rfl, rfl⟩

theorem takeDamage_face {p p' : Player F} {damage : ℤ} {m : Monster F}
    (h : p.takeDamage damage m = .ok p') :
    SameFace p p' := by
  rw [takeDamage_eq h]
  exact ⟨rfl, id, rfl, id, rfl, rfl, rfl⟩

theorem place_face (p : Player F) (packetPos : Position F) (direction : ℤ) :
    SameFace p (p.place packetPos direction) := by
  unfold Player.place
  rw [syncCheck_eq]
  exact ⟨rfl, id, rfl, id, rfl, rfl, rfl⟩

theorem Dropped.frame {m : Monster F} (h : Dropped s m t) : Frame s t := by
  cases h with
  | nothing rands => exact frame_of_eq rfl rfl rfl rfl rfl
  | item itemId count rands =>
    apply Frame.trans _ (frame_broadcast fun _ => rfl)
    exact frame_of_eq rfl rfl rfl rfl rfl

omit [Machine F] in
theorem frame_hitMonster (s : State F) (q : ℕ) (id : ℤ) (m : Monster F) :
    Frame s (s.hitMonster q id m) := by
  unfold State.hitMonster
  apply Frame.trans _ (frame_broadcast fun _ => rfl)
  exact frame_of_eq rfl rfl rfl rfl rfl

/-! ### Who is where -/

/-- What an effect comes to for those who see. -/
inductive Moves (s : State F) : State F → Prop
  | frame {t : State F} (hf : Frame s t) : Moves s t
  | cross (q : ℕ) (hq : q ∈ s.players) :
      Moves s (s.cross q)
  | enter (q : ℕ) (p : Player F) (hq : q ∉ s.met)
      (hid : ∀ q' ∈ s.players, (s.player q').characterID ≠ p.characterID)
      (hname : p.seqID = q) (hcur : p.currentSector.InGrid)
      (hdest : p.destSector.InGrid) : Moves s ((s.enter q p).sendSpawns q p.currentSector.around)
  | rehash {t : State F} (hp : t.player = s.player) (hps : t.players.Perm s.players)
      (hsec : ∀ c, (t.sectors c).Perm (s.sectors c)) (hmet : t.met = s.met)
      (hsent : t.sent = s.sent) : Moves s t

theorem Act.moves (h : Act s t) : Moves s t := by
  cases h with
  | fieldUpdate => exact .frame (frame_record _ _)
  | adjust q syncCnt targets hq => exact .frame (frame_setPlayer ⟨rfl, id, rfl, id, rfl, rfl, rfl⟩)
  | hit q id m hq hid hstate hm hdead hgrid => exact .frame (frame_hitMonster s q id m)
  | kill q id m u hq hid hstate hm hdead hgrid hu =>
    have hdrop := (frame_hitMonster s q id m).trans hu.frame
    exact .frame (hdrop.trans (frame_of_eq rfl rfl rfl rfl rfl))
  | aim q hq hne =>
      exact .frame (frame_setPlayer ⟨rfl, fun _ => calcSector_inGrid _, rfl, id, rfl, rfl, rfl⟩)
  | cross q hq hne => exact .cross q hq
  | damaged q m p hq hstate hp =>
    have hset : Frame s ((s.setPlayer q p).record (.damaged q)) :=
      (frame_setPlayer (takeDamage_face hp)).trans (frame_record _ _)
    exact .frame (hset.trans (frame_broadcast fun _ => rfl))
  | enter q accountNo characterID pos nickname hq hid =>
    exact .enter q (entered q accountNo characterID pos nickname) hq hid rfl (calcSector_inGrid pos)
      (calcSector_inGrid pos)
  | moveStart q p packetPos direction hq hstate hsync hp =>
    have hface := (place_face (s.player q) packetPos direction).trans (changeState_face hp)
    have hset : Frame s ((s.setPlayer q p).record (.moveStart q)) :=
      (frame_setPlayer hface).trans (frame_record _ _)
    exact .frame (hset.trans (frame_broadcast fun _ => rfl))
  | moveStop q p packetPos direction hq hsync hp =>
    have hface : SameFace (s.player q) p := by
      rcases hp with ⟨-, rfl⟩ | ⟨-, hp⟩
      · exact place_face _ _ _
      · exact (place_face _ _ _).trans (changeState_face hp)
    have hset : Frame s ((s.setPlayer q p).record (.moveStop q)) :=
      (frame_setPlayer hface).trans (frame_record _ _)
    exact .frame (hset.trans (frame_broadcast fun _ => rfl))
  | attackReq q p skillId hq hstate hp =>
    have hface := changeState_face hp
    have hset : Frame s (s.setPlayer q { p with pendingAttackSkillId := skillId }) :=
      frame_setPlayer hface
    exact .frame ((hset.trans (frame_record _ _)).trans (frame_broadcast fun _ => rfl))
  | loot q id hq hid hgrid hcell =>
    have hadd : Frame s (s.setPlayer q ((s.player q).addItem (s.item id))) :=
      frame_setPlayer ⟨rfl, fun h => h, rfl, fun h => h, rfl, rfl, rfl⟩
    refine .frame (Frame.trans (Frame.trans (hadd.trans ?_) (frame_record _ _))
      (frame_removeItem _ _ _))
    unfold State.sendLootRes State.broadcastItemDespawn
    exact (frame_broadcast (by intro _; rfl)).trans (frame_sendPost (by intro _; rfl))
  | send q packet hq hp => exact .frame (frame_sendPrivate q hp)
  | disconnectSession q => exact .frame (frame_of_eq rfl rfl rfl rfl rfl)
  | request q hq => exact .frame (frame_of_eq rfl rfl rfl rfl rfl)
  | save q hq hconnect hpending =>
    have hset : Frame s (s.setPlayer q { s.player q with savePending := true }) :=
      frame_setPlayer ⟨rfl, id, rfl, id, rfl, rfl, rfl⟩
    exact .frame (hset.trans (frame_of_eq rfl rfl rfl rfl rfl))
  | dbDequeue job dbReqQ hjob hqueue => exact .frame (frame_of_eq rfl rfl rfl rfl rfl)
  | dbAnswer job ranking hjob => exact .frame (frame_of_eq rfl rfl rfl rfl rfl)
  | rehash players sectors monsters monsterSectors items itemSectors hp hs hm hms hi his =>
    exact .rehash rfl hp hs rfl rfl

theorem PlayerAct.frame {q : ℕ} (h : PlayerAct q s t) : Frame s t := by
  cases h with
  | update p hq hp hframe => exact frame_setPlayer (update_face hp)
  | attackHit p hq hp hstate hframe =>
      exact (frame_setPlayer (update_face hp)).trans (frame_record _ _)

omit [Machine F] in
theorem frame_disconnect (s : State F) (q : ℕ) : Frame s (s.disconnect q) :=
  frame_setPlayer ⟨rfl, id, rfl, fun hc => (by cases hc), rfl, rfl, rfl⟩

omit [Machine F] in
theorem frame_settle (s : State F) (id : ℤ) : Frame s (s.settle id) := frame_setMonster s id _

theorem MonsterAct.frame {id : ℤ} (h : MonsterAct id s t) : Frame s t := by
  have hsend : ∀ (u : State F) (near : List Sector) (packet : Packet F), Neutral packet →
      Frame u (u.broadcast near (fun _ => false) packet) := fun _ _ _ hn => frame_broadcast hn
  cases h with
  | update m rands hid hm => exact frame_of_eq rfl rfl rfl rfl rfl
  | cross hid hstate hne =>
    apply Frame.trans _ (frame_moveMonster _ _ _)
    exact (hsend _ _ _ (by intro _; rfl)).trans (hsend _ _ _ (by intro _; rfl))
  | proc ht =>
    cases ht with
    | moveStart hid hstate hbefore => exact (hsend _ _ _ (by intro _; rfl)).trans (frame_settle _ _)
    | moveAgain hid hstate hbefore =>
      apply Frame.trans _ (frame_settle _ _)
      exact (hsend _ _ _ (by intro _; rfl)).trans (hsend _ _ _ (by intro _; rfl))
    | attack hid hstate =>
      apply Frame.trans _ (frame_settle _ _)
      exact (hsend _ _ _ (by intro _; rfl)).trans (hsend _ _ _ (by intro _; rfl))
    | moveStop hid hstate hbefore => exact (hsend _ _ _ (by intro _; rfl)).trans (frame_settle _ _)
    | respawn hid hstate hbefore hsame =>
      apply Frame.trans _ (frame_settle _ _)
      exact (hsend _ _ _ (by intro _; rfl)).trans (hsend _ _ _ (by intro _; rfl))
    | respawnAway hid hstate hbefore hne =>
      apply Frame.trans _ (frame_settle _ _)
      have hdespawn := hsend s (s.monster id).sector.around
        (.monsterDespawn (s.monster id).monsterID) (by intro _; rfl)
      exact (hdespawn.trans (frame_moveMonster _ _ _)).trans (hsend _ _ _ (by intro _; rfl))
    | settle hid hstate => exact frame_settle _ _

omit [Machine F] in
theorem ItemAct.frame {id : ℤ} (h : ItemAct id s t) : Frame s t := by
  cases h with
  | update hid hlife => exact frame_of_eq rfl rfl rfl rfl rfl
  | expire hid hlife hgrid =>
    apply Frame.trans _ (frame_removeItem _ _ _)
    have hset : Frame s { s with item := Function.update s.item id (s.item id).update } :=
      frame_of_eq rfl rfl rfl rfl rfl
    exact (hset.trans (frame_broadcast (by intro _; rfl))).trans (frame_record _ _)

end

end Field
end MyMMO
