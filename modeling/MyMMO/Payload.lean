/-
# Which payloads are survived

`fieldContentsPacketProc` reads a payload whose length, type and values are the client's choice.
`Message` throws when the payload is too short, `RecordRecv` asserts about the type, the move
handlers about what they read; nobody catches. `Accepts` is the exact condition under which none of
it stops the process (`payload_survived_iff`). A payload that is survived changes no other player
and ends no other session (`Aside`).
-/
import MyMMO.SectorIndex

namespace MyMMO

open Outcome

/-! ### What is left of a message -/

namespace Message

/-- The bytes that have not been read. -/
def rest (msg : Message) : List UInt8 := msg.data.drop msg.front

def skip (msg : Message) (size : ℕ) : Message := { msg with front := msg.front + size }

@[simp] theorem rest_skip (msg : Message) (size : ℕ) :
    (msg.skip size).rest = msg.rest.drop size := by
  rw [rest, rest, List.drop_drop]
  rfl

theorem rest_length (msg : Message) : msg.rest.length = msg.data.length - msg.front :=
  List.length_drop

theorem getData_bind {σ : Type} {msg : Message} {size : ℕ} (hsize : 0 < size)
    {f : List UInt8 × Message → Except Stop σ} :
    Succeeds (msg.getData size >>= f) ↔ size ≤ msg.rest.length ∧ Succeeds
      (f (msg.rest.take size, msg.skip size)) := by
  rw [rest_length]
  by_cases h : msg.front + size ≤ msg.data.length
  · rw [succeeds_bind_ok (getData_ok h)]
    exact ⟨fun hs => ⟨by omega, hs⟩, fun hs => hs.2⟩
  · rw [getData_error (by omega)]
    constructor
    · intro hs
      exact absurd hs (not_succeeds_error _)
    · rintro ⟨hle, -⟩
      omega

theorem readInt_bind {σ : Type} {msg : Message} {size : ℕ} (hsize : 0 < size)
    {f : ℤ × Message → Except Stop σ} :
    Succeeds (msg.readInt size >>= f) ↔
      size ≤ msg.rest.length ∧ Succeeds (f (intOfBytes (msg.rest.take size), msg.skip size)) := by
  rw [readInt, bind_assoc, getData_bind hsize]
  exact Iff.rfl

end Message

namespace Field

open Message
open Sector (getAroundSectors)

variable {F : Type} [Machine F]

theorem readFloat_bind {σ : Type} {msg : Message} {f : F × Message → Except Stop σ} :
    Succeeds (readFloat msg >>= f) ↔ 4 ≤ msg.rest.length ∧ Succeeds
      (f (Machine.ofBytes (msg.rest.take 4), msg.skip 4)) := by
  rw [readFloat, bind_assoc, getData_bind (by omega)]
  exact Iff.rfl

theorem myAssert_bind {σ : Type} {x : Bool} {str : String} {f : Unit → Except Stop σ} :
    Succeeds (myAssert x str >>= f) ↔ x = true ∧ Succeeds (f ()) := by
  cases x with
  | true => exact (iff_and_self.mpr fun _ => rfl)
  | false =>
    constructor
    · intro hs
      exact absurd hs (not_succeeds_error _)
    · rintro ⟨hx, -⟩
      cases hx

/-! ### The condition -/

/-- A `float` of the payload. -/
def floatAt (bs : List UInt8) (i : ℕ) : F := Machine.ofBytes ((bs.drop i).take 4)

/-- A signed integer of `size` bytes of the payload. -/
def intAt (bs : List UInt8) (i size : ℕ) : ℤ := intOfBytes ((bs.drop i).take size)

/-- A MOVE_START behind its type: `characterId`, `x`, `y`, `direction` and `speed`. -/
def AcceptsMoveStart (p : Player F) (bs : List UInt8) : Prop :=
  21 ≤ bs.length ∧ (p.starts = true →
    p.outOfSync ⟨floatAt bs 8, floatAt bs 12⟩ = false ∧ Machine.eq p.speed (floatAt bs 17) = true)

/-- A MOVE_STOP: `characterId`, `x`, `y` and `direction`. -/
def AcceptsMoveStop (p : Player F) (bs : List UInt8) : Prop :=
  17 ≤ bs.length ∧ (p.stops = true → Position.InWorld (⟨floatAt bs 8, floatAt bs 12⟩ : Position F))

omit [Machine F] in
/-- A PLAYER_ATTACK_REQ: `skillId`, `targetCnt` and the targets. A `targetCnt` above the limit ends
the session instead. -/
def AcceptsAttackReq (p : Player F) (bs : List UInt8) : Prop :=
  3 ≤ bs.length ∧ (p.stops = true → intAt bs 0 1 = 0 → intAt bs 1 2 = 1 → 11 ≤ bs.length)

/-- The payload `bs` of a session whose player is `p` does not stop the process. -/
def Accepts (p : Player F) (bs : List UInt8) : Prop :=
  2 ≤ bs.length ∧ 0 ≤ intAt bs 0 2 ∧ intAt bs 0 2 < 128 ∧
    (intAt bs 0 2 = PacketType.MOVE_START → AcceptsMoveStart p (bs.drop 2)) ∧
    (intAt bs 0 2 = PacketType.MOVE_STOP → AcceptsMoveStop p (bs.drop 2)) ∧
    (intAt bs 0 2 = PacketType.PLAYER_ATTACK_REQ → AcceptsAttackReq p (bs.drop 2)) ∧
    (intAt bs 0 2 = PacketType.LOOT_REQ → 10 ≤ bs.length)

instance (p : Player F) (bs : List UInt8) : Decidable (AcceptsMoveStart p bs) :=
  inferInstanceAs (Decidable (_ ∧ _))

instance (p : Player F) (bs : List UInt8) : Decidable (AcceptsMoveStop p bs) :=
  inferInstanceAs (Decidable (_ ∧ _))

omit [Machine F] in
instance (p : Player F) (bs : List UInt8) : Decidable (AcceptsAttackReq p bs) :=
  inferInstanceAs (Decidable (_ ∧ _))

instance (p : Player F) (bs : List UInt8) : Decidable (Accepts p bs) :=
  inferInstanceAs (Decidable (_ ∧ _))

section

variable {s t : State F} {q : ℕ} {msg : Message}

omit [Machine F] in
theorem changeState_bind {σ : Type} {p : Player F} {state : PlayerState}
    {f : Player F → Except Stop σ} :
    Succeeds (p.changeState state >>= f) ↔ state ≠ p.state ∧ Succeeds
      (f { p with state }.resetAnimStart) := by
  rw [Player.changeState, bind_assoc, myAssert_bind, decide_eq_true_iff]
  exact Iff.rfl

omit [Machine F] in
theorem getAroundSectors_bind {σ : Type} {c : Sector} {f : List Sector → Except Stop σ}
    (h : c.InGrid) :
    Succeeds (getAroundSectors c >>= f) ↔ Succeeds (f c.around) :=
  succeeds_bind_ok (Sector.getAroundSectors_ok h)

theorem place_frame (p : Player F) (packetPos : Position F) (direction : ℤ) :
    (p.place packetPos direction).state = p.state ∧
    (p.place packetPos direction).speed = p.speed ∧
    (p.place packetPos direction).currentSector = p.currentSector := by
  unfold Player.place
  rw [syncCheck_eq]
  exact ⟨rfl, rfl, rfl⟩

/-- Behind the switch over the states there is the position and the speed. -/
theorem succeeds_start (hstarts : (s.player q).starts = true)
    (hgrid : (s.player q).currentSector.InGrid) {x y speed : F} {direction : ℤ} :
    Succeeds (handleMoveStart.start s q x y direction speed (s.player q)) ↔
      (s.player q).outOfSync ⟨x, y⟩ = false ∧ Machine.eq (s.player q).speed speed = true := by
  obtain ⟨hstate, hspeed, hsector⟩ := place_frame (s.player q) ⟨x, y⟩ direction
  have hmove : PlayerState.move ≠ ((s.player q).place ⟨x, y⟩ direction).state := by
    rw [hstate]
    rcases of_decide_eq_true hstarts with he | ⟨he, -⟩ <;> rw [he] <;> decide
  unfold handleMoveStart.start
  rw [myAssert_bind, changeState_bind, myAssert_bind,
    getAroundSectors_bind (by rw [← hsector] at hgrid; exact hgrid)]
  simp only [Bool.not_eq_true', Player.resetAnimStart, hspeed, succeeds_pure, and_true]
  exact and_congr_right fun _ => and_iff_right hmove

omit [Machine F] in
/-- `players.find` finds the player. -/
theorem hasPlayer_bind {σ : Type} {str : String} {f : Unit → Except Stop σ} (hq : q ∈ s.players) :
    Succeeds (s.hasPlayer q str >>= f) ↔ Succeeds (f ()) := by
  rw [State.hasPlayer, myAssert_bind]
  exact and_iff_right (decide_eq_true hq)

theorem succeeds_handleMoveStart (hq : q ∈ s.players) (hgrid : (s.player q).currentSector.InGrid) :
    Succeeds (handleMoveStart s msg q) ↔ AcceptsMoveStart (s.player q) msg.rest := by
  unfold handleMoveStart AcceptsMoveStart
  rw [readInt_bind (by omega), readFloat_bind, readFloat_bind, readInt_bind (by omega),
    readFloat_bind, hasPlayer_bind hq]
  simp only [rest_skip, List.length_drop, List.drop_drop]
  rw [← and_assoc, ← and_assoc, ← and_assoc, ← and_assoc]
  refine and_congr (by omega) ?_
  -- a player that does not start leaves the rest unread
  have hidle : (s.player q).starts = false → (True ↔ ((s.player q).starts = true →
      (s.player q).outOfSync ⟨floatAt msg.rest 8, floatAt msg.rest 12⟩ = false ∧
        Machine.eq (s.player q).speed (floatAt msg.rest 17) = true)) := by
    intro h
    simp [h]
  have hstart : (s.player q).starts = true →
      (Succeeds (handleMoveStart.start s q (floatAt msg.rest 8) (floatAt msg.rest 12)
        (intAt msg.rest 16 1) (floatAt msg.rest 17) (s.player q)) ↔
      ((s.player q).starts = true →
        (s.player q).outOfSync ⟨floatAt msg.rest 8, floatAt msg.rest 12⟩ = false ∧
        Machine.eq (s.player q).speed (floatAt msg.rest 17) = true)) := by
    intro h
    rw [succeeds_start h hgrid]
    simp [h]
  split
  · next hstate => simpa using hidle (by simp [Player.starts, hstate])
  · next hstate => simpa using hidle (by simp [Player.starts, hstate])
  · next hstate => simpa using hidle (by simp [Player.starts, hstate])
  · next hstate =>
    split
    · next hlate => simpa using hidle (by simp [Player.starts, hstate, hlate])
    · next hlate => exact hstart (by simp [Player.starts, hstate, not_le.mp hlate])
  · next hstate => exact hstart (by simp [Player.starts, hstate])

theorem succeeds_handleMoveStop (hq : q ∈ s.players) (hgrid : (s.player q).currentSector.InGrid) :
    Succeeds (handleMoveStop s msg q) ↔ AcceptsMoveStop (s.player q) msg.rest := by
  unfold handleMoveStop AcceptsMoveStop
  rw [readInt_bind (by omega), readFloat_bind, readFloat_bind, readInt_bind (by omega),
    hasPlayer_bind hq]
  simp only [rest_skip, List.length_drop, List.drop_drop]
  rw [← and_assoc, ← and_assoc, ← and_assoc]
  refine and_congr (by omega) ?_
  have hplaced : ∀ (packetPos : Position F) (direction : ℤ),
      ((s.player q).place packetPos direction).currentSector.InGrid := by
    intro packetPos direction
    rw [place_currentSector]
    exact hgrid
  split
  · next hstate => simp [Player.stops, hstate]
  · next hstate => simp [Player.stops, hstate]
  · next hstate => simp [Player.stops, hstate]
  all_goals
    next hstate =>
    have hstops : (s.player q).stops = true := by simp [Player.stops, hstate]
    rw [myAssert_bind, myAssert_bind, myAssert_bind, myAssert_bind]
    -- nothing fails behind the four assertions
    have htail : ∀ {x : Prop} {y : Except Stop (State F)}, Succeeds y → (x ∧ Succeeds y ↔ x) :=
      fun hy => and_iff_left hy
    rw [← and_assoc, ← and_assoc, ← and_assoc, htail]
    · simp only [hstops, forall_const, Position.InWorld, floatAt]
      tauto
    · split
      · exact succeeds_pure _
      · split
        · next hne =>
          rw [changeState_bind]
          refine ⟨hne.symm, ?_⟩
          rw [getAroundSectors_bind]
          · exact succeeds_pure _
          · exact hplaced ⟨floatAt msg.rest 8, floatAt msg.rest 12⟩ (intAt msg.rest 16 1)
        · rw [pure_bind, getAroundSectors_bind]
          · exact succeeds_pure _
          · exact hplaced _ _

omit [Machine F] in
theorem succeeds_readTargets (n : ℕ) (msg : Message) : Succeeds (readTargets n msg) ↔
    8 * n ≤ msg.rest.length := by
  induction n generalizing msg with
  | zero => exact iff_of_true (succeeds_pure _) (Nat.zero_le _)
  | succ n ih =>
    unfold readTargets
    rw [readInt_bind (by omega)]
    have hlast : Succeeds (readTargets n (msg.skip 8) >>=
        fun l => pure (intOfBytes (msg.rest.take 8) :: l)) ↔
        Succeeds (readTargets n (msg.skip 8)) := by
      rw [succeeds_bind]
      constructor
      · rintro ⟨l, hl, -⟩
        exact ⟨l, hl⟩
      · rintro ⟨l, hl⟩
        exact ⟨l, hl, succeeds_pure _⟩
    rw [hlast, ih, rest_skip, List.length_drop]
    omega

theorem succeeds_handleAttackReq (hq : q ∈ s.players) (hgrid : (s.player q).currentSector.InGrid) :
    Succeeds (handleAttackReq s msg q) ↔ AcceptsAttackReq (s.player q) msg.rest := by
  unfold handleAttackReq AcceptsAttackReq
  rw [readInt_bind (by omega), readInt_bind (by omega)]
  simp only [rest_skip, List.length_drop]
  have hhead : (1 ≤ msg.rest.length ∧ 2 ≤ msg.rest.length - 1) ↔ 3 ≤ msg.rest.length := by omega
  rw [← and_assoc, hhead]
  refine and_congr_right fun hlen => ?_
  have hskill : intOfBytes (msg.rest.take 1) = intAt msg.rest 0 1 := rfl
  have hcnt : intOfBytes ((msg.rest.drop 1).take 2) = intAt msg.rest 1 2 := rfl
  rw [hskill, hcnt]
  by_cases h0 : intAt msg.rest 0 1 = 0
  · rw [getSkillConfig, if_pos h0]
    dsimp only
    by_cases h1 : (1 : ℤ) < intAt msg.rest 1 2
    · -- too many targets
      rw [if_pos h1]
      exact iff_of_true (succeeds_pure _) fun _ _ he => by omega
    · rw [if_neg h1, hasPlayer_bind hq]
      split
      iterate 3
        · next hstate =>
          simp [Player.stops, hstate]
      all_goals
        next hstate =>
        rw [getAroundSectors_bind hgrid, changeState_bind, hstate]
        refine (and_iff_right (by decide)).trans ?_
        rw [succeeds_bind]
        have htargets :
            (∃ l, readTargets (intAt msg.rest 1 2).toNat ((msg.skip 1).skip 2) = .ok l) ↔
            Succeeds (readTargets (intAt msg.rest 1 2).toNat ((msg.skip 1).skip 2)) := Iff.rfl
        simp only [succeeds_pure, and_true]
        rw [htargets, succeeds_readTargets]
        have hstops : (s.player q).stops = true := by simp [Player.stops, hstate]
        simp only [rest_skip, List.length_drop, hstops, h0, forall_const]
        omega
  · rw [getSkillConfig, if_neg h0]
    exact iff_of_true (succeeds_pure _) fun _ he => absurd he h0

/-- An item that is on the field is in its cell, so only the length counts. -/
theorem succeeds_handleLootReq (hs : Sound s) (hq : q ∈ s.players) :
    Succeeds (handleLootReq s msg q) ↔ 8 ≤ msg.rest.length := by
  unfold handleLootReq
  rw [readInt_bind (by omega), hasPlayer_bind hq]
  refine and_iff_left ?_
  dsimp only
  split
  · exact succeeds_pure _
  · next hid =>
    have hmem := not_not.mp hid
    split
    · exact succeeds_pure _
    · rw [getAroundSectors_bind (hs.items.grid _ hmem), myAssert_bind]
      exact ⟨decide_eq_true (hs.items.cells.self_mem hmem), succeeds_pure _⟩

omit [Machine F] in
theorem rtAssert_bind {σ : Type} {x : Bool} {f : Unit → Except Stop σ} :
    Succeeds (rtAssert x >>= f) ↔ x = true ∧ Succeeds (f ()) := by
  cases x with
  | true => exact ⟨fun hs => ⟨rfl, hs⟩, fun hs => hs.2⟩
  | false =>
    constructor
    · intro hs
      exact absurd hs (not_succeeds_error _)
    · rintro ⟨hx, -⟩
      cases hx

theorem succeeds_fieldContentsPacketProc (hs : Sound s) (hq : q ∈ s.players) :
    Succeeds (fieldContentsPacketProc s msg q) ↔ Accepts (s.player q) msg.rest := by
  have hgrid := (hs.players.grid q hq).1
  unfold fieldContentsPacketProc Accepts recordRecv
  rw [readInt_bind (by omega), rtAssert_bind, decide_eq_true_iff, and_assoc]
  have htype : intOfBytes (msg.rest.take 2) = intAt msg.rest 0 2 := rfl
  rw [htype]
  refine and_congr_right fun hlen => and_congr_right fun _ => and_congr_right fun _ => ?_
  have hrest : (msg.skip 2).rest = msg.rest.drop 2 := rest_skip msg 2
  generalize intAt msg.rest 0 2 = type
  split_ifs with h1 h2 h3 h4 h5
  · rw [succeeds_handleMoveStart hq hgrid, hrest, h1]
    simp [PacketType.MOVE_START, PacketType.MOVE_STOP, PacketType.PLAYER_ATTACK_REQ,
      PacketType.LOOT_REQ]
  · rw [succeeds_handleMoveStop hq hgrid, hrest, h2]
    simp [PacketType.MOVE_START, PacketType.MOVE_STOP, PacketType.PLAYER_ATTACK_REQ,
      PacketType.LOOT_REQ]
  · rw [succeeds_handleAttackReq hq hgrid, hrest, h3]
    simp [PacketType.MOVE_START, PacketType.MOVE_STOP, PacketType.PLAYER_ATTACK_REQ,
      PacketType.LOOT_REQ]
  · rw [succeeds_handleLootReq hs hq, hrest, h4, List.length_drop]
    simp [PacketType.MOVE_START, PacketType.MOVE_STOP, PacketType.PLAYER_ATTACK_REQ,
      PacketType.LOOT_REQ]
    omega
  · rw [handleRankingReq, hasPlayer_bind hq]
    simp [h1, h2, h3, h4]
  · simp [h1, h2, h3, h4]

/-! ### What a payload leaves alone -/

omit [Machine F] in
/-- No session is ended but that of `q`, and no monster is touched. -/
structure Aside (q : ℕ) (s t : State F) : Prop where
  disconnects : t.disconnects = s.disconnects ∨ t.disconnects = s.disconnects ++ [q]
  monster : t.monster = s.monster
  monsters : t.monsters = s.monsters
  monsterSectors : t.monsterSectors = s.monsterSectors

omit [Machine F] in
theorem Aside.refl : Aside q s s := ⟨.inl rfl, rfl, rfl, rfl⟩

omit [Machine F] in
theorem aside_disconnectSession : Aside q s (s.disconnectSession q) := ⟨.inr rfl, rfl, rfl, rfl⟩

theorem aside_start {x y speed : F} {direction : ℤ} {p : Player F}
    (h : handleMoveStart.start s q x y direction speed p = .ok t) : Aside q s t := by
  unfold handleMoveStart.start at h
  obtain ⟨_, -, h⟩ := bind_ok h
  obtain ⟨p', -, h⟩ := bind_ok h
  obtain ⟨_, -, h⟩ := bind_ok h
  obtain ⟨near, -, h⟩ := bind_ok h
  cases h
  exact ⟨.inl rfl, rfl, rfl, rfl⟩

theorem aside_handleMoveStart (h : handleMoveStart s msg q = .ok t) : Aside q s t := by
  unfold handleMoveStart at h
  obtain ⟨_, -, h⟩ := bind_ok h
  obtain ⟨_, -, h⟩ := bind_ok h
  obtain ⟨_, -, h⟩ := bind_ok h
  obtain ⟨_, -, h⟩ := bind_ok h
  obtain ⟨_, -, h⟩ := bind_ok h
  obtain ⟨_, -, h⟩ := bind_ok h
  dsimp only at h
  split at h
  iterate 3
    · cases h
      exact .refl
  · split at h
    · cases h
      split_ifs
      · exact ⟨.inr rfl, rfl, rfl, rfl⟩
      · exact ⟨.inl rfl, rfl, rfl, rfl⟩
    · exact aside_start h
  · exact aside_start h

theorem aside_handleMoveStop (h : handleMoveStop s msg q = .ok t) : Aside q s t := by
  unfold handleMoveStop at h
  obtain ⟨_, -, h⟩ := bind_ok h
  obtain ⟨_, -, h⟩ := bind_ok h
  obtain ⟨_, -, h⟩ := bind_ok h
  obtain ⟨_, -, h⟩ := bind_ok h
  obtain ⟨_, -, h⟩ := bind_ok h
  dsimp only at h
  split at h
  iterate 3
    · cases h
      exact .refl
  all_goals
    obtain ⟨_, -, h⟩ := bind_ok h
    obtain ⟨_, -, h⟩ := bind_ok h
    obtain ⟨_, -, h⟩ := bind_ok h
    obtain ⟨_, -, h⟩ := bind_ok h
    split at h
    · cases h
      exact ⟨.inr rfl, rfl, rfl, rfl⟩
    · split at h
      all_goals
        obtain ⟨p, -, h⟩ := bind_ok h
        obtain ⟨near, -, h⟩ := bind_ok h
        cases h
        exact ⟨.inl rfl, rfl, rfl, rfl⟩

theorem aside_handleAttackReq (h : handleAttackReq s msg q = .ok t) : Aside q s t := by
  unfold handleAttackReq at h
  obtain ⟨_, -, h⟩ := bind_ok h
  obtain ⟨_, -, h⟩ := bind_ok h
  dsimp only at h
  split at h
  · cases h
    exact aside_disconnectSession
  · split at h
    · cases h
      exact aside_disconnectSession
    · obtain ⟨_, -, h⟩ := bind_ok h
      split at h
      iterate 3
        · cases h
          exact .refl
      all_goals
        obtain ⟨near, -, h⟩ := bind_ok h
        obtain ⟨p, -, h⟩ := bind_ok h
        obtain ⟨targets, -, h⟩ := bind_ok h
        cases h
        exact ⟨.inl rfl, rfl, rfl, rfl⟩

theorem aside_handleLootReq (h : handleLootReq s msg q = .ok t) : Aside q s t := by
  unfold handleLootReq at h
  obtain ⟨_, -, h⟩ := bind_ok h
  obtain ⟨_, -, h⟩ := bind_ok h
  dsimp only at h
  split at h
  · cases h
    exact ⟨.inl rfl, rfl, rfl, rfl⟩
  · split at h
    · cases h
      exact ⟨.inl rfl, rfl, rfl, rfl⟩
    · obtain ⟨near, -, h⟩ := bind_ok h
      obtain ⟨_, -, h⟩ := bind_ok h
      cases h
      exact ⟨.inl rfl, rfl, rfl, rfl⟩

theorem aside_fieldContentsPacketProc (h : fieldContentsPacketProc s msg q = .ok t) :
    Aside q s t := by
  unfold fieldContentsPacketProc at h
  obtain ⟨_, -, h⟩ := bind_ok h
  obtain ⟨_, -, h⟩ := bind_ok h
  split_ifs at h
  · exact aside_handleMoveStart h
  · exact aside_handleMoveStop h
  · exact aside_handleAttackReq h
  · exact aside_handleLootReq h
  · obtain ⟨_, -, h⟩ := bind_ok h
    cases h
    exact ⟨.inl rfl, rfl, rfl, rfl⟩
  · cases h
    exact aside_disconnectSession

/-- In every reachable state a payload is survived exactly if it is accepted. It then changes no
other player and no monster, and ends at most the session it comes from. -/
theorem payload_survived_iff (h : field.Reachable s) (hq : q ∈ s.players) (msg : Message) :
    ((∃ t, fieldContentsPacketProc s msg q = .ok t) ↔ Accepts (s.player q) msg.rest) ∧
      ∀ t, fieldContentsPacketProc s msg q = .ok t → Aside q s t ∧ t.players = s.players ∧
        ∀ q', q' ≠ q → t.player q' = s.player q' := by
  refine ⟨succeeds_fieldContentsPacketProc (sound h) hq, fun t ht => ?_⟩
  obtain ⟨p, -, hrewrites⟩ := handled_fieldContentsPacketProc ht
  exact ⟨aside_fieldContentsPacketProc ht, hrewrites.players, fun q' hne => hrewrites.of_ne hne⟩

end

/-- Session 1 has entered; a MOVE_START is survived, and one without its `speed` is not. -/
theorem payload_survived_iff_moveStart : ∃ (s t : State ℚ), field.Reachable s ∧
    fieldContentsPacketProc s (moveStartMsg 6) 1 = .ok t ∧
      ¬∃ t, fieldContentsPacketProc s
        { moveStartMsg 6 with data := (moveStartMsg 6).data.take 19 } 1 = .ok t := by
  have hrun : (field.exec oneMonster [.registerPlayer 1 7 11 ⟨0, 0⟩ []]).any
      (fun s => 1 ∈ s.players ∧
      Accepts (s.player 1) (moveStartMsg 6).rest ∧
        ¬Accepts (s.player 1) ((moveStartMsg 6).data.take 19)) = true := by
    decide +kernel
  obtain ⟨s, hs, hp⟩ := Option.any_eq_true _ _ |>.mp hrun
  obtain ⟨hq, hwhole, hcut⟩ := of_decide_eq_true hp
  have hreach := System.Reachable.exec _ (.start oneMonster_init) hs
  obtain ⟨t, ht⟩ := (payload_survived_iff hreach hq _).1.mpr hwhole
  exact ⟨s, t, hreach, ht, fun hcutoff => hcut ((payload_survived_iff hreach hq _).1.mp hcutoff)⟩

end Field
end MyMMO
