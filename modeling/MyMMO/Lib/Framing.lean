/-
# Framed streams

A stream of cells made of frames. A format says what the beginning of a
stream is (`Head`): a whole frame of `n` cells, a beginning that can never
become one, or too little to tell. `scan` takes whole frames off until it
meets one of the other two. More input never changes what has been decided
(`frame_append`, `bad_append`), hence scanning a stream in pieces and keeping
the rest in between is the same as scanning it at once (`scan_append_ok`).

`Cut` says where the beginning of an encoded sequence breaks off; it names
the frames that are complete and the rest without mentioning a format, so that
two formats that read the same encoding agree (`scan_cut`).
-/
import Mathlib.Tactic

namespace Framing

/-- What the beginning of a stream is. -/
inductive Head (φ ε : Type*)
  | more
  | bad (e : ε)
  | frame (f : φ) (n : ℕ)
  deriving DecidableEq

/-- A way to read the beginning of a stream that more input does not change. -/
structure Format (α φ ε : Type*) where
  head : List α → Head φ ε
  frame_le : ∀ {bs f n}, head bs = .frame f n → 0 < n ∧ n ≤ bs.length
  frame_append : ∀ {bs f n} (cs), head bs = .frame f n → head (bs ++ cs) = .frame f n
  bad_append : ∀ {bs e} (cs), head bs = .bad e → head (bs ++ cs) = .bad e

namespace Format

variable {α φ ε ι : Type*} (F : Format α φ ε)

/-- The frames at the beginning of the stream, and what stops them: the rest
that is still unfinished, or the error. -/
def scan (bs : List α) : List φ × Except ε (List α) :=
  match _h : F.head bs with
  | .more => ([], .ok bs)
  | .bad e => ([], .error e)
  | .frame f n =>
    let r := scan (bs.drop n)
    (f :: r.1, r.2)
  termination_by bs.length
  decreasing_by
    have := F.frame_le _h
    rw [List.length_drop]; omega

variable {F}

theorem scan_more {bs : List α} (h : F.head bs = .more) : F.scan bs = ([], .ok bs) := by
  rw [scan]; split <;> simp_all

theorem scan_bad {bs : List α} {e : ε} (h : F.head bs = .bad e) : F.scan bs = ([], .error e) := by
  rw [scan]; split <;> simp_all

theorem scan_frame {bs : List α} {f : φ} {n : ℕ} (h : F.head bs = .frame f n) :
    F.scan bs = (f :: (F.scan (bs.drop n)).1, (F.scan (bs.drop n)).2) := by
  rw [scan]; split <;> simp_all

/-- Induction along `scan`. -/
theorem scan_induction {P : List α → Prop} (more : ∀ bs, F.head bs = .more → P bs)
    (bad : ∀ bs e, F.head bs = .bad e → P bs)
    (frame : ∀ bs f n, F.head bs = .frame f n → P (bs.drop n) → P bs) (bs : List α) : P bs := by
  induction hn : bs.length using Nat.strong_induction_on generalizing bs with
  | _ k ih =>
    rcases h : F.head bs with _ | e | ⟨f, n⟩
    · exact more bs h
    · exact bad bs e h
    · have := F.frame_le h
      exact frame bs f n h (ih _ (by rw [List.length_drop]; omega) _ rfl)

/-- The rest a scan leaves is unfinished, and no longer than what it began with. -/
theorem scan_ok {bs tail : List α} (h : (F.scan bs).2 = .ok tail) :
    F.head tail = .more ∧ tail.length ≤ bs.length := by
  induction bs using F.scan_induction with
  | more bs hh =>
    rw [scan_more hh] at h
    cases h; exact ⟨hh, le_rfl⟩
  | bad bs e hh => rw [scan_bad hh] at h; cases h
  | frame bs f n hh ih =>
    rw [scan_frame hh] at h
    obtain ⟨h1, h2⟩ := ih h
    rw [List.length_drop] at h2
    exact ⟨h1, by omega⟩

/-- More input behind an unfinished rest is scanned together with it. -/
theorem scan_append_ok {bs tail : List α} (cs : List α) (h : (F.scan bs).2 = .ok tail) :
    F.scan (bs ++ cs) = ((F.scan bs).1 ++ (F.scan (tail ++ cs)).1, (F.scan (tail ++ cs)).2) := by
  induction bs using F.scan_induction with
  | more bs hh =>
    rw [scan_more hh] at h ⊢
    cases h; rfl
  | bad bs e hh => rw [scan_bad hh] at h; cases h
  | frame bs f n hh ih =>
    rw [scan_frame hh] at h ⊢
    have hn := F.frame_le hh
    rw [scan_frame (F.frame_append cs hh), List.drop_append_of_le_length hn.2, ih h]
    rfl

end Format

/-! ### Encoded streams -/

variable {α ι : Type*}

/-- `bs` is the first `k` encoded frames of `fs` and an unfinished beginning
of the next. -/
structure Cut (enc : ι → List α) (fs : List ι) (bs : List α) (k : ℕ) (tail : List α) : Prop where
  eq : bs = (fs.take k).flatMap enc ++ tail
  unfinished : tail = [] ∨ ∃ f, fs[k]? = some f ∧ tail <+: enc f ∧ tail ≠ enc f

/-- Every beginning of an encoded sequence breaks off somewhere. -/
theorem exists_cut (enc : ι → List α) (fs : List ι) {bs : List α} (h : bs <+: fs.flatMap enc) :
    ∃ k tail, Cut enc fs bs k tail := by
  induction fs generalizing bs with
  | nil => exact ⟨0, [], by simpa using h, Or.inl rfl⟩
  | cons f fs ih =>
    rw [List.flatMap_cons] at h
    by_cases hb : enc f <+: bs
    · obtain ⟨bs', rfl⟩ := hb
      obtain ⟨k, tail, h1, h2⟩ := ih ((List.prefix_append_right_inj _).mp h)
      exact ⟨k + 1, tail, by simp [h1], by simpa using h2⟩
    · have hlt : bs <+: enc f := by
        rcases List.prefix_or_prefix_of_prefix h (List.prefix_append (enc f) _) with h' | h'
        · exact h'
        · exact absurd h' hb
      exact ⟨0, bs, by simp, Or.inr ⟨f, rfl, hlt, fun he => hb (he ▸ List.prefix_rfl)⟩⟩

/-- The whole sequence breaks off behind its last frame. -/
theorem Cut.whole {enc : ι → List α} {fs : List ι}
    {k : ℕ} {tail : List α} (hpos : ∀ f ∈ fs, enc f ≠ []) (h : Cut enc fs (fs.flatMap enc) k tail) :
    fs.take k = fs ∧ tail = [] := by
  have hsplit : fs.flatMap enc = (fs.take k).flatMap enc ++ (fs.drop k).flatMap enc := by
    rw [← List.flatMap_append, List.take_append_drop]
  have htail : (fs.drop k).flatMap enc = tail := List.append_cancel_left (hsplit.symm.trans h.eq)
  rcases h.unfinished with rfl | ⟨f, hf, hp, hne⟩
  · refine ⟨List.take_of_length_le ?_, rfl⟩
    by_contra hk
    have hmem : fs[k] ∈ fs.drop k := by
      rw [List.drop_eq_getElem_cons (by omega)]
      exact List.mem_cons_self
    exact hpos fs[k] (List.getElem_mem _) (List.flatMap_eq_nil_iff.mp htail _ hmem)
  · obtain ⟨hk, rfl⟩ := List.getElem?_eq_some_iff.mp hf
    rw [List.drop_eq_getElem_cons hk, List.flatMap_cons] at htail
    refine absurd (hp.eq_of_length ?_) hne
    have h1 := congrArg List.length htail
    have h2 := hp.length_le
    rw [List.length_append] at h1
    omega

/-- The format reads the encoding `enc` of every frame in `fs`, as `out`. -/
structure Format.Reads {φ ε : Type*} (F : Format α φ ε) (enc : ι → List α) (out : ι → φ)
    (fs : List ι) : Prop where
  whole : ∀ f ∈ fs, F.head (enc f) = .frame (out f) (enc f).length
  part : ∀ f ∈ fs, ∀ bs, bs <+: enc f → bs ≠ enc f → F.head bs = .more
  empty : F.head [] = .more

/-- Encoded frames are taken off one by one. -/
theorem Format.scan_flatMap {φ ε : Type*} {F : Format α φ ε} {enc : ι → List α} {out : ι → φ}
    {fs : List ι} (h : ∀ f ∈ fs, F.head (enc f) = .frame (out f) (enc f).length) (rest : List α) :
    F.scan (fs.flatMap enc ++ rest) = (fs.map out ++ (F.scan rest).1, (F.scan rest).2) := by
  induction fs with
  | nil => rfl
  | cons f fs ih =>
    have hf := F.frame_append (fs.flatMap enc ++ rest) (h f (by simp))
    rw [List.flatMap_cons, List.append_assoc, scan_frame hf, List.drop_left,
      ih fun g hg => h g (by simp [hg])]
    rfl

/-- If every frame read is its own encoding, the stream is the encoded frames and the rest. -/
theorem Format.scan_split {φ ε : Type*} {F : Format α φ ε} {enc : φ → List α}
    (h : ∀ bs f n, F.head bs = .frame f n → bs = enc f ++ bs.drop n) (bs : List α) :
    ∃ rest, bs = (F.scan bs).1.flatMap enc ++ rest ∧
      ((F.scan bs).2 = .ok rest ∧ F.head rest = .more ∨
        ∃ e, (F.scan bs).2 = .error e ∧ F.head rest = .bad e) := by
  induction bs using F.scan_induction with
  | more bs hh =>
    rw [scan_more hh]
    exact ⟨bs, rfl, Or.inl ⟨rfl, hh⟩⟩
  | bad bs e hh =>
    rw [scan_bad hh]
    exact ⟨bs, rfl, Or.inr ⟨e, rfl, hh⟩⟩
  | frame bs f n hh ih =>
    obtain ⟨rest, h1, h2⟩ := ih
    rw [scan_frame hh]
    refine ⟨rest, ?_, h2⟩
    rw [List.flatMap_cons, List.append_assoc, ← h1]
    exact h bs f n hh

/-- A format that reads the encoding delivers the complete frames and keeps the rest. -/
theorem Format.scan_cut {φ ε : Type*} {F : Format α φ ε} {enc : ι → List α} {out : ι → φ}
    {fs : List ι} (hF : F.Reads enc out fs) {bs tail : List α} {k : ℕ} (h : Cut enc fs bs k tail) :
    F.scan bs = ((fs.take k).map out, .ok tail) := by
  obtain ⟨rfl, hu⟩ := h
  have htail : F.head tail = .more := by
    rcases hu with rfl | ⟨f, hf, h1, h2⟩
    · exact hF.empty
    · exact hF.part f (List.mem_of_getElem? hf) tail h1 h2
  rw [scan_flatMap fun f hf => hF.whole f (List.mem_of_mem_take hf), scan_more htail,
    List.append_nil]

/-! ### Receivers -/

/-- A receiver that scans what it kept and what each piece brings has, in the
end, scanned everything. `I s fs tail` is what its state `s` has to do with the
frames it has delivered and the rest it keeps; `Fits` is what the pieces have
to meet along the way. -/
theorem Format.receiver_run {φ ε σ γ δ : Type*} (F : Format α φ ε) {step : σ → γ → Except δ σ}
    (piece : γ → List α) (Fits : σ → List γ → Prop) (I : σ → List φ → List α → Prop)
    {whole : List α}
    (hstep : ∀ s fs tail c cs t, I s fs tail → Fits s (c :: cs) →
      (F.scan (tail ++ piece c)).2 = .ok t →
      ∃ s', step s c = .ok s' ∧ I s' (fs ++ (F.scan (tail ++ piece c)).1) t ∧ Fits s' cs)
    (hok : ∀ bs, bs <+: whole → ∃ t, (F.scan bs).2 = .ok t) {s : σ} (bs : List α) {tail : List α}
    (hs : I s (F.scan bs).1 tail) (ht : (F.scan bs).2 = .ok tail) (cs : List γ) (hfits : Fits s cs)
    (hw : bs ++ (cs.map piece).flatten <+: whole) :
    ∃ s' t, cs.foldlM step s = .ok s' ∧ I s' (F.scan (bs ++ (cs.map piece).flatten)).1 t ∧
      (F.scan (bs ++ (cs.map piece).flatten)).2 = .ok t := by
  induction cs generalizing s bs tail with
  | nil => exact ⟨s, tail, rfl, by simpa using hs, by simpa using ht⟩
  | cons c cs ih =>
    rw [List.map_cons, List.flatten_cons, ← List.append_assoc] at hw ⊢
    have happ := scan_append_ok (piece c) ht
    obtain ⟨t, hst⟩ := hok _ ((List.prefix_append _ _).trans hw)
    obtain ⟨s', h1, h2, h3⟩ := hstep s _ tail c cs t hs hfits (by rw [happ] at hst; exact hst)
    obtain ⟨s'', t', e1, e2, e3⟩ := ih (bs ++ piece c) (by rw [happ]; exact h2) hst h3 hw
    refine ⟨s'', t', ?_, e2, e3⟩
    rw [List.foldlM_cons, h1]
    exact e1

end Framing
