/-
# What the server makes of a byte stream

Completion after completion, whatever the client sends and however it is cut:
`run_spec` says in which of three ways it ends. The stream is whole messages
and a rest; the receive path waits with the rest in its buffer, or has
disconnected because of the rest's header, or a `MessageException` has left
the worker thread. The last happens when a header announces more than
a `Message` holds and no more than the ring does, and all of it has arrived
(`oversized_throws`); until then the session waits for such a payload.
`survives_iff` says for which streams every malformed header leads to a
disconnect.
-/
import MyMMO.Recv

namespace MyMMO

open Framing

/-- A payload and its header that the buffer can hold. -/
def RECV_CAPACITY : ℕ := RINGBUFFER_SIZE - 1

/-- The announced length at the beginning of `rest`. -/
def announced (rest : List UInt8) : ℤ := (Header.ofBytes rest).len

theorem announced_append {rest : List UInt8} (h : Header.size ≤ rest.length) (cs : List UInt8) :
    announced (rest ++ cs) = announced rest := by
  rw [announced, Header.ofBytes_append h, announced]

/-- Nothing to decide yet: no more than a header, or less than it announces and
room for more. -/
def Unfinished (rest : List UInt8) : Prop :=
  rest.length ≤ Header.size ∨
    0 < announced rest ∧ (rest.length : ℤ) < announced rest + Header.size ∧
      rest.length < RECV_CAPACITY

/-- A whole header whose length cannot be a message's. -/
def Malformed (rest : List UInt8) : Prop :=
  Header.size ≤ rest.length ∧ (announced rest ≤ 0 ∨ (BufferSize : ℤ) < announced rest)

/-- A malformed header that the receive path disconnects for: at the first byte
behind it, or when the buffer is full. -/
def Refused (rest : List UInt8) : Prop :=
  Header.size < rest.length ∧
    (announced rest ≤ 0 ∨
      (RECV_CAPACITY : ℤ) < announced rest + Header.size ∧ RECV_CAPACITY ≤ rest.length)

/-- A header that announces more than a `Message` holds but not more than the
ring does, and all it announces. -/
def Oversized (rest : List UInt8) : Prop :=
  (BufferSize : ℤ) < announced rest ∧ announced rest + Header.size ≤ RECV_CAPACITY ∧
    announced rest + Header.size ≤ rest.length

theorem serverHead_more {rest : List UInt8} : serverHead rest = .more ↔
    rest.length ≤ Header.size ∨
      0 < announced rest ∧ (rest.length : ℤ) < announced rest + Header.size := by
  simp only [serverHead, announced]
  split_ifs <;> simp <;> omega

theorem serverHead_invalidLen {rest : List UInt8} : serverHead rest = .bad .invalidLen ↔
    Header.size < rest.length ∧ announced rest ≤ 0 := by
  simp only [serverHead, announced]
  split_ifs <;> simp <;> omega

theorem serverHead_tooLong {rest : List UInt8} : serverHead rest = .bad .tooLong ↔
    Header.size < rest.length ∧ (BufferSize : ℤ) < announced rest ∧
      announced rest + Header.size ≤ rest.length := by
  simp only [serverHead, announced, BufferSize]
  split_ifs <;> simp <;> omega

/-- A frame the loop takes off is a valid message as it stood on the wire. -/
theorem serverHead_frame {bs : List UInt8} {f : Frame} {n : ℕ} (h : serverHead bs = .frame f n) :
    f.Valid ∧ bs = f.bytes ++ bs.drop n := by
  simp only [serverHead] at h
  split_ifs at h with h0 h1 h2 h3
  cases h
  rcases bs with _ | ⟨b0, _ | ⟨b1, _ | ⟨b2, bs⟩⟩⟩ <;> simp [Header.size] at h0
  have hlen : (Header.ofBytes (b0 :: b1 :: b2 :: bs)).len = Header.int16 b0 b1 := rfl
  have hkey : (Header.ofBytes (b0 :: b1 :: b2 :: bs)).randKey = b2 := rfl
  rw [hlen] at h1 h2 h3 ⊢
  have hn : Header.int16 b0 b1 = b0.toNat + 256 * b1.toNat := by
    simp only [Header.int16] at h1 ⊢
    have := b0.toNat_lt
    have := b1.toNat_lt
    split_ifs at h1 ⊢ <;> push_cast at h1 ⊢ <;> omega
  set len := (Header.int16 b0 b1).toNat with hl
  have hl' : len = b0.toNat + 256 * b1.toNat := by omega
  simp only [Header.size, List.length_cons] at h2
  have hpay : (bs.take len).length = len := by rw [List.length_take]; omega
  have e0 : UInt8.ofNat len = b0 := by
    apply UInt8.toNat_inj.mp
    rw [UInt8.toNat_ofNat', hl']
    have := b0.toNat_lt
    omega
  have e1 : UInt8.ofNat (len / 256) = b1 := by
    apply UInt8.toNat_inj.mp
    rw [UInt8.toNat_ofNat', hl']
    have := b0.toNat_lt
    have := b1.toNat_lt
    omega
  refine ⟨⟨?_, ?_⟩, ?_⟩
  · change 1 ≤ (bs.take len).length
    omega
  · change (bs.take len).length ≤ BufferSize
    omega
  · simp only [hkey, Header.size, List.drop_succ_cons, List.drop_zero, Frame.bytes, Header.bytes,
      hpay, e0, e1, List.cons_append, List.nil_append, Nat.add_comm 3 len, List.take_append_drop]

/-- What a scan leaves. -/
theorem scan_rest (bs : List UInt8) :
    (∀ f ∈ (serverFormat.scan bs).1, f.Valid) ∧
    ∃ rest, bs = (serverFormat.scan bs).1.flatMap Frame.bytes ++ rest ∧
      ((serverFormat.scan bs).2 = .ok rest ∧ serverHead rest = .more ∨
        ∃ e, (serverFormat.scan bs).2 = .error e ∧ serverHead rest = .bad e) := by
  refine ⟨?_, Format.scan_split (F := serverFormat) (fun _ _ _ h => (serverHead_frame h).2) bs⟩
  induction bs using serverFormat.scan_induction with
  | more bs hh => rw [Format.scan_more hh]; simp
  | bad bs e hh => rw [Format.scan_bad hh]; simp
  | frame bs f n hh ih =>
    rw [Format.scan_frame hh]
    exact List.forall_mem_cons.mpr ⟨(serverHead_frame hh).1, ih⟩

/-- Where valid messages end is determined by the stream. -/
theorem frames_unique {fs gs : List Frame} {r t : List UInt8} (hf : ∀ f ∈ fs, f.Valid)
    (hg : ∀ f ∈ gs, f.Valid) (hr : ∀ f n, serverHead r ≠ .frame f n)
    (ht : ∀ f n, serverHead t ≠ .frame f n)
    (h : fs.flatMap Frame.bytes ++ r = gs.flatMap Frame.bytes ++ t) : fs = gs ∧ r = t := by
  have stuck {r : List UInt8} (hr : ∀ f n, serverHead r ≠ .frame f n) :
      (serverFormat.scan r).1 = [] := by
    rcases hh : serverHead r with _ | e | ⟨f, n⟩
    · rw [Format.scan_more hh]
    · rw [Format.scan_bad hh]
    · exact absurd hh (hr f n)
  have hs := congrArg (fun bs => (serverFormat.scan bs).1) h
  simp only [Format.scan_flatMap (serverFormat_reads hf).whole, Format.scan_flatMap
    (serverFormat_reads hg).whole, stuck hr, stuck ht, List.map_id, List.append_nil] at hs
  subst hs
  exact ⟨rfl, List.append_cancel_left h⟩

/-- There is no message at a malformed header. -/
theorem malformed_not_frame {rest : List UInt8} (h : Malformed rest) :
    ∀ f n, serverHead rest ≠ .frame f n := by
  intro f n hf
  have hlen := (serverFormat.frame_le hf).2
  simp only [serverHead] at hf
  split_ifs at hf with h0 h1 h2 h3
  cases hf
  simp only [Malformed, announced, BufferSize, Header.size] at *
  omega

theorem Refused.malformed {rest : List UInt8} (h : Refused rest) : Malformed rest := by
  obtain ⟨h1, h2⟩ := h
  simp only [Malformed, RECV_CAPACITY, RINGBUFFER_SIZE, Header.size, BufferSize] at *
  omega

theorem Oversized.malformed {rest : List UInt8} (h : Oversized rest) :
    Malformed rest ∧ ¬Refused rest := by
  simp only [Oversized, Malformed, Refused, RECV_CAPACITY, RINGBUFFER_SIZE, Header.size,
    BufferSize] at *
  omega

/-- The session does not wait with what it disconnects for. -/
theorem Unfinished.not_refused {rest : List UInt8} (h : Unfinished rest) : ¬Refused rest := by
  simp only [Unfinished, Refused, RECV_CAPACITY, RINGBUFFER_SIZE, Header.size] at *
  omega

namespace Receiver

theorem record_deliver (sessionID : SeqAndIdx) (fs : List Frame) (msgs : List Message)
    (live : Bool) :
    fs.foldlM (deliver record sessionID) (msgs, live) =
      .ok (msgs ++ fs.map (Frame.message sessionID), live) := by
  induction fs generalizing msgs with
  | nil => simp [pure, Except.pure]
  | cons f fs ih =>
    have h1 : deliver record sessionID (msgs, live) f =
        .ok (msgs ++ [f.message sessionID], live) := by
      simp [deliver, record, bind, Except.bind, pure, Except.pure]
    rw [List.foldlM_cons, h1]
    simp only [bind, Except.bind]
    rw [ih]
    simp

/-- Nothing reaches a closed session. -/
theorem run_closed {σ : Type} (onRecv : Message → σ → Except Stop (σ × Bool))
    {s : Receiver} (h : Closed s) (app : σ) (chunks : List (List UInt8)) :
    run onRecv (s, app) chunks = .ok (s, app) := by
  induction chunks with
  | nil => rfl
  | cons c cs ih =>
    have hc : receive onRecv (s, app) c = .ok (s, app) := by simp only [receive, h.wsabuf]
    rw [run, List.foldlM_cons, hc]
    exact ih

/-- One completion, into an application that writes down what it gets. -/
theorem receive_record {s : Receiver} (msgs : List Message) {tail bytes : List UInt8}
    (h : Posted s tail) (hne : bytes ≠ []) (hfit : bytes.length ≤ s.recvBuffer.freeSize) :
    match (serverFormat.scan (tail ++ bytes)).2 with
    | .ok t => ∃ s', receive record (s, msgs) bytes =
          .ok (s', msgs ++ (serverFormat.scan (tail ++ bytes)).1.map (Frame.message s.sessionID)) ∧
        s'.sessionID = s.sessionID ∧
        (Posted s' t ∧ t.length < RECV_CAPACITY ∨ Closed s' ∧ t.length = RECV_CAPACITY)
    | .error .invalidLen => ∃ s', receive record (s, msgs) bytes =
          .ok (s', msgs ++ (serverFormat.scan (tail ++ bytes)).1.map (Frame.message s.sessionID)) ∧
            Closed s'
    | .error .tooLong => receive record (s, msgs) bytes =
        .error (.messageException .notEnoughSpace) := by
  obtain ⟨b', h1, h2⟩ := receive_eq record msgs h hne hfit
  rw [record_deliver] at h2
  simp only [bind, Except.bind] at h2
  rcases hr : (serverFormat.scan (tail ++ bytes)).2 with (_ | _) | t <;> simp only [hr] at h1 h2 ⊢
  · exact ⟨_, h2, rfl, rfl⟩
  · exact h2
  · obtain ⟨w1, w2, w3⟩ := h1 t rfl
    have hsz := w1.use_add_free
    rw [← MyRingBuffer.contents_length, w3, w2, h.size_eq] at hsz
    refine ⟨_, h2, ?_, ?_⟩
    · unfold registerRecv; split_ifs <;> rfl
    · simp only [RECV_CAPACITY]
      by_cases h0 : b'.freeSize = 0
      · exact Or.inr ⟨registerRecv_closed rfl (Or.inr h0), by omega⟩
      · exact Or.inl ⟨w3 ▸ registerRecv_posted w1 (w2.trans h.size_eq) rfl h0, by omega⟩

/-- The three ways a stream can end. -/
inductive Ends (s : Receiver) (msgs : List Message) (chunks : List (List UInt8))
    (frames : List Frame) (rest : List UInt8) : Prop
  | waits (s' : Receiver) : run record (s, msgs) chunks =
        .ok (s', msgs ++ frames.map (Frame.message s.sessionID)) →
      Posted s' rest → Unfinished rest → Ends s msgs chunks frames rest
  | disconnects (s' : Receiver) : run record (s, msgs) chunks =
        .ok (s', msgs ++ frames.map (Frame.message s.sessionID)) →
      Closed s' → Refused rest → Ends s msgs chunks frames rest
  | throws : run record (s, msgs) chunks = .error (.messageException .notEnoughSpace) →
      Oversized rest → Ends s msgs chunks frames rest

/-- Another completion before. -/
theorem Ends.cons {s s' : Receiver} {msgs : List Message} {c : List UInt8} {cs : List (List UInt8)}
    {fs frames : List Frame} {rest : List UInt8}
    (hr : receive record (s, msgs) c = .ok (s', msgs ++ fs.map (Frame.message s.sessionID)))
    (hid : s'.sessionID = s.sessionID)
    (h : Ends s' (msgs ++ fs.map (Frame.message s.sessionID)) cs frames rest) :
    Ends s msgs (c :: cs) (fs ++ frames) rest := by
  have hrun : run record (s, msgs) (c :: cs) =
      run record (s', msgs ++ fs.map (Frame.message s.sessionID)) cs := by
    rw [run, List.foldlM_cons, hr]; rfl
  rcases h with ⟨s'', h1, h2, h3⟩ | ⟨s'', h1, h2, h3⟩ | ⟨h1, h2⟩
  · exact .waits s'' (by rw [hrun, h1, hid]; simp) h2 h3
  · exact .disconnects s'' (by rw [hrun, h1, hid]; simp) h2 h3
  · exact .throws (by rw [hrun, h1]) h2

/-- What has been decided stays so when more bytes follow. -/
theorem refused_append {rest : List UInt8} (h : Refused rest) (cs : List UInt8) :
    Refused (rest ++ cs) := by
  obtain ⟨h1, h2⟩ := h
  rw [Refused, announced_append h1.le, List.length_append]
  exact ⟨by omega, h2.imp_right fun h => ⟨h.1, by omega⟩⟩

theorem oversized_append {rest : List UInt8} (h : Oversized rest) (cs : List UInt8) :
    Oversized (rest ++ cs) := by
  obtain ⟨h1, h2, h3⟩ := h
  have hs : Header.size ≤ rest.length := by omega
  refine ⟨by rwa [announced_append hs], by rwa [announced_append hs], ?_⟩
  rw [announced_append hs, List.length_append]
  omega

/-- **Every stream ends in one of the three ways.** -/
theorem run_spec {s : Receiver} {msgs : List Message} {tail : List UInt8} (h : Posted s tail)
    (hu : Unfinished tail) (chunks : List (List UInt8))
    (hfit : Fits record (s, msgs) chunks) :
    ∃ frames rest, tail ++ chunks.flatten = frames.flatMap Frame.bytes ++ rest ∧
      (∀ f ∈ frames, f.Valid) ∧ Ends s msgs chunks frames rest := by
  induction chunks generalizing s msgs tail with
  | nil => exact ⟨[], tail, by simp, by simp, .waits s (by simp [run, pure, Except.pure]) h hu⟩
  | cons c cs ih =>
    obtain ⟨hc, hfits⟩ := hfit
    obtain ⟨hne, hlen⟩ := hc (by rw [h.wsabuf]; simp)
    simp only at hlen
    have hrec := receive_record msgs h hne hlen
    obtain ⟨hv, rest, hsplit, hrest⟩ := scan_rest (tail ++ c)
    set fs := (serverFormat.scan (tail ++ c)).1
    have hflat : tail ++ (c :: cs).flatten = fs.flatMap Frame.bytes ++ (rest ++ cs.flatten) := by
      rw [List.flatten_cons, ← List.append_assoc, hsplit, List.append_assoc]
    rcases hrest with ⟨hscan, hmore⟩ | ⟨_ | _, hscan, hbad⟩ <;> rw [hscan] at hrec
    · obtain ⟨s', e1, e3, ⟨e4, e5⟩ | ⟨e4, e5⟩⟩ := hrec
      · have hu' : Unfinished rest := by
          rcases serverHead_more.mp hmore with h1 | ⟨h1, h2⟩
          · exact Or.inl h1
          · exact Or.inr ⟨h1, h2, e5⟩
        obtain ⟨frames, rest', i1, i2, i3⟩ := ih e4 hu' (hfits _ e1)
        refine ⟨fs ++ frames, rest', ?_, ?_, i3.cons e1 e3⟩
        · rw [hflat, i1, List.flatMap_append, List.append_assoc]
        · exact fun f hf => (List.mem_append.mp hf).elim (hv f) (i2 f)
      · have href : Refused rest := by
          simp only [RECV_CAPACITY, RINGBUFFER_SIZE] at e5
          rcases serverHead_more.mp hmore with h1 | ⟨h1, h2⟩ <;> rw [Header.size] at *
          · omega
          · simp only [Refused, RECV_CAPACITY, RINGBUFFER_SIZE, Header.size]
            omega
        refine ⟨fs, _, hflat, hv, .disconnects s' ?_ e4 (refused_append href cs.flatten)⟩
        rw [run, List.foldlM_cons, e1]
        exact run_closed record e4 _ cs
    · obtain ⟨s', e1, e2⟩ := hrec
      have href : Refused rest := by
        obtain ⟨h1, h2⟩ := serverHead_invalidLen.mp hbad
        exact ⟨h1, Or.inl h2⟩
      refine ⟨fs, _, hflat, hv, .disconnects s' ?_ e2 (refused_append href cs.flatten)⟩
      rw [run, List.foldlM_cons, e1]
      exact run_closed record e2 _ cs
    · obtain ⟨h1, h2, h3⟩ := serverHead_tooLong.mp hbad
      have hover : Oversized rest := by
        refine ⟨h2, ?_, h3⟩
        have hfull := h.wf.use_add_free
        rw [← MyRingBuffer.contents_length, h.contents, h.size_eq] at hfull
        have hl := congrArg List.length hsplit
        simp only [List.length_append] at hl
        simp only [RECV_CAPACITY]
        omega
      refine ⟨fs, _, hflat, hv, .throws ?_ (oversized_append hover cs.flatten)⟩
      rw [run, List.foldlM_cons, hrec]; rfl

/-! ### Survival -/

theorem accepted_posted {b : MyRingBuffer UInt8} (hb : b.WF) (hc : b.contents = [])
    (hs : b.size = RINGBUFFER_SIZE) (sessionID : SeqAndIdx) : Posted (accepted sessionID b) [] ∧
      (accepted sessionID b).sessionID = sessionID := by
  have hfull := hb.use_add_free
  rw [← b.contents_length, hc, hs, RINGBUFFER_SIZE, List.length_nil] at hfull
  have hp := registerRecv_posted (s := ⟨sessionID, b, true, none⟩) hb hs rfl (by simp only; omega)
  rw [hc] at hp
  refine ⟨hp, ?_⟩
  unfold accepted registerRecv
  split_ifs <;> rfl

theorem unfinished_nil : Unfinished [] := Or.inl (Nat.zero_le _)

/-- Where the loop stops taking messages off. -/
theorem not_frame {rest : List UInt8} (h : Unfinished rest ∨ Refused rest ∨ Oversized rest) :
    ∀ f n, serverHead rest ≠ .frame f n := by
  intro f n hf
  have hlen := (serverFormat.frame_le hf).2
  simp only [serverHead] at hf
  split_ifs at hf with h0 h1 h2 h3
  cases hf
  simp only [Unfinished, Refused, Oversized, announced, RECV_CAPACITY, RINGBUFFER_SIZE, BufferSize,
    Header.size] at *
  omega

/-- After the messages and the rest of the stream, the session waits with the
rest, in which there is no malformed header, or it is disconnected for one. No exception
has left the worker, and `onRecv` has got the messages before the rest. -/
def Survives (sessionID : SeqAndIdx) (b : MyRingBuffer UInt8) (chunks : List (List UInt8)) : Prop :=
  ∃ s' msgs, run record (accepted sessionID b, []) chunks = .ok (s', msgs) ∧
    ∃ (frames : List Frame) (rest : List UInt8), chunks.flatten =
        frames.flatMap Frame.bytes ++ rest ∧
      (∀ f ∈ frames, f.Valid) ∧ msgs = frames.map (Frame.message sessionID) ∧
      (s'.live = true ∧ s'.wsabuf ≠ none ∧ s'.recvBuffer.contents = rest ∧ Unfinished rest ∧
          ¬Malformed rest ∨
        s'.live = false ∧ s'.wsabuf = none ∧ Malformed rest)

/-- The first malformed header of the stream announces more than a `Message`
holds but not more than the ring does, and all it announces is there. -/
def StreamOversized (bs : List UInt8) : Prop :=
  ∃ (frames : List Frame) (rest : List UInt8),
    bs = frames.flatMap Frame.bytes ++ rest ∧ (∀ f ∈ frames, f.Valid) ∧ Oversized rest

/-- The stream has a malformed header, and the receive path does not disconnect
for it: its length is not positive and nothing follows it, or it announces more than a
`Message` holds and either the ring could hold that or is not full. -/
def StreamUnrefused (bs : List UInt8) : Prop :=
  ∃ (frames : List Frame) (rest : List UInt8),
    bs = frames.flatMap Frame.bytes ++ rest ∧ (∀ f ∈ frames, f.Valid) ∧ Malformed rest ∧
      ¬Refused rest

section

variable {b : MyRingBuffer UInt8} (hb : b.WF) (hc : b.contents = []) (hs : b.size = RINGBUFFER_SIZE)
include hb hc hs

theorem oversized_throws {sessionID : SeqAndIdx} {chunks : List (List UInt8)}
    (hfit : Fits record (accepted sessionID b, []) chunks) (ho : StreamOversized chunks.flatten) :
    run record (accepted sessionID b, []) chunks = .error (.messageException .notEnoughSpace) := by
  obtain ⟨gs, t, h1, h2, h3⟩ := ho
  obtain ⟨hp, -⟩ := accepted_posted hb hc hs sessionID
  obtain ⟨frames, rest, e1, e2, e3⟩ := run_spec hp unfinished_nil chunks hfit
  rw [List.nil_append, h1] at e1
  have hne := not_frame (Or.inr (Or.inr h3))
  simp only [Oversized, BufferSize, RECV_CAPACITY, RINGBUFFER_SIZE, Header.size] at h3
  rcases e3 with ⟨s', -, -, f3⟩ | ⟨s', -, -, f3⟩ | ⟨f1, -⟩
  · obtain ⟨-, rfl⟩ := frames_unique h2 e2 hne (not_frame (Or.inl f3)) e1
    simp only [Unfinished, Header.size] at f3
    omega
  · obtain ⟨-, rfl⟩ := frames_unique h2 e2 hne (not_frame (Or.inr (Or.inl f3))) e1
    simp only [Refused, RECV_CAPACITY, RINGBUFFER_SIZE, Header.size] at f3
    omega
  · exact f1

/-- **The network layer survives exactly the streams without a malformed header
and those it disconnects for.** -/
theorem survives_iff {sessionID : SeqAndIdx} {chunks : List (List UInt8)}
    (hfit : Fits record (accepted sessionID b, []) chunks) :
    Survives sessionID b chunks ↔ ¬StreamUnrefused chunks.flatten := by
  obtain ⟨hp, hid⟩ := accepted_posted hb hc hs sessionID
  obtain ⟨frames, rest, e1, e2, e3⟩ := run_spec hp unfinished_nil chunks hfit
  rw [List.nil_append] at e1
  refine ⟨?_, fun hno => ?_⟩
  · rintro ⟨s'', msgs, h1, fs, r, g1, g2, -, g3⟩ ⟨gs, t, t1, t2, t3, t4⟩
    have hmal := malformed_not_frame t3
    rcases e3 with ⟨s', f1, f2, f3⟩ | ⟨s', -, -, f3⟩ | ⟨f1, -⟩
    · -- the session waits, so it is the rest that is not malformed
      rw [f1] at h1
      cases h1
      rcases g3 with ⟨-, -, -, g3, g4⟩ | ⟨g3, -⟩
      · obtain ⟨-, rfl⟩ := frames_unique t2 g2 hmal (not_frame (Or.inl g3)) (t1.symm.trans g1)
        exact g4 t3
      · rw [f2.live] at g3
        cases g3
    · obtain ⟨-, rfl⟩ :=
        frames_unique t2 e2 hmal (not_frame (Or.inr (Or.inl f3))) (t1.symm.trans e1)
      exact t4 f3
    · rw [f1] at h1
      cases h1
  · rcases e3 with ⟨s', f1, f2, f3⟩ | ⟨s', f1, f2, f3⟩ | ⟨-, f2⟩
    · rw [hid] at f1
      have hok : ¬Malformed rest := fun hmal => hno ⟨frames, rest, e1, e2, hmal, f3.not_refused⟩
      exact ⟨s', _, f1, frames, rest, e1, e2, List.nil_append _,
        Or.inl ⟨f2.live, by simp [f2.wsabuf], f2.contents, f3, hok⟩⟩
    · rw [hid] at f1
      exact ⟨s', _, f1, frames, rest, e1, e2, List.nil_append _,
        Or.inr ⟨f2.live, f2.wsabuf, f3.malformed⟩⟩
    · exact absurd ⟨frames, rest, e1, e2, f2.malformed⟩ hno

end

/-- The receive buffer of a new session. -/
def newBuffer : MyRingBuffer UInt8 := .new RINGBUFFER_SIZE fun _ => 0

theorem newBuffer_wf : newBuffer.WF := MyRingBuffer.new_wf _ (by decide)

/-- A message of two bytes and the header of another, in one completion. -/
theorem survives_iff_two : Survives ⟨0, 1⟩ newBuffer [[2, 0, 9, 7, 8, 1, 0, 9]] ↔
    ¬StreamUnrefused [[2, 0, 9, 7, 8, 1, 0, 9]].flatten :=
  survives_iff newBuffer_wf rfl rfl
    ⟨fun _ => ⟨by decide, by decide⟩, fun _ _ => trivial⟩

/-- 6001 bytes of payload behind a header that announces them. -/
def tooLongBytes : List UInt8 := Header.bytes 6001 0 ++ List.replicate 6001 0

/-- A header that announces 6001 bytes and is followed by them throws. -/
theorem tooLongBytes_not_survived :
    Fits record (accepted ⟨0, 1⟩ newBuffer, []) [tooLongBytes] ∧
      ¬Survives ⟨0, 1⟩ newBuffer [tooLongBytes] := by
  have hlen : tooLongBytes.length = 6004 := by
    rw [tooLongBytes, List.length_append, List.length_replicate, Header.bytes_length, Header.size]
  have hfit : Fits record (accepted ⟨0, 1⟩ newBuffer, []) [tooLongBytes] := by
    refine ⟨fun _ => ⟨fun h => ?_, ?_⟩, fun _ _ => trivial⟩
    · rw [h] at hlen; cases hlen
    · rw [hlen]; decide
  refine ⟨hfit, ?_⟩
  rintro ⟨s', msgs, h1, -⟩
  rw [oversized_throws newBuffer_wf rfl rfl hfit] at h1
  · cases h1
  · have ha : announced tooLongBytes = 6001 := by
      rw [announced, tooLongBytes, Header.ofBytes_bytes (by omega)]; rfl
    refine ⟨[], tooLongBytes, by simp, by simp, ?_⟩
    rw [Oversized, ha, hlen]
    simp [BufferSize, RECV_CAPACITY, RINGBUFFER_SIZE, Header.size]

end Receiver
end MyMMO
