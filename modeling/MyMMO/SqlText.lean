/-
# The statements of a login

What MySQL reads in the texts of `handleAuthReq`, with backslash escapes enabled and a character set
of single bytes: a text is the bytes outside of its string literals and the values of these
(`readStatement`). `escapeSqlString` is followed write by write here (`escapeSqlStringInto`);
`Login` only has the string it leaves.
-/
import MyMMO.Login

namespace MyMMO
namespace Login

/-! ### What MySQL reads -/

def DOUBLE_QUOTE : UInt8 := 34

/-- What a backslash and `c` stand for; `%` and `_` keep the backslash. -/
def unescape (c : UInt8) : List UInt8 :=
  if c = 48 then [0]
  else if c = 98 then [8]
  else if c = 110 then [10]
  else if c = 114 then [13]
  else if c = 116 then [9]
  else if c = 90 then [26]
  else if c = 37 ∨ c = 95 then [BACKSLASH, c]
  else [c]

/-- A string literal behind its opening quote: its value, and what is behind it. -/
def readLiteral (quote : UInt8) : List UInt8 → Option (List UInt8 × List UInt8)
  | [] => none
  | [c] => if c = quote then some ([], []) else none
  | c :: c' :: text =>
    if c = BACKSLASH then (readLiteral quote text).map fun r => (unescape c' ++ r.1, r.2)
    else if c = quote then
      -- two quotes are one
      if c' = quote then (readLiteral quote text).map fun r => (quote :: r.1, r.2) else
        some ([], c' :: text)
    else (readLiteral quote (c' :: text)).map fun r => (c :: r.1, r.2)

theorem readLiteral_length {quote : UInt8} {text str rest : List UInt8}
    (h : readLiteral quote text = some (str, rest)) :
    rest.length < text.length := by
  fun_induction readLiteral quote text generalizing str rest with
  | case1 => cases h
  | case2 =>
    cases h
    exact Nat.one_pos
  | case3 => cases h
  | case4 c' text ih =>
    obtain ⟨r, hr, hrest⟩ := Option.map_eq_some_iff.mp h
    cases hrest
    have := ih hr
    simp only [List.length_cons]
    omega
  | case5 text _ ih =>
    obtain ⟨r, hr, hrest⟩ := Option.map_eq_some_iff.mp h
    cases hrest
    have := ih hr
    simp only [List.length_cons]
    omega
  | case6 =>
    cases h
    simp only [List.length_cons]
    omega
  | case7 c c' text _ _ ih =>
    obtain ⟨r, hr, hrest⟩ := Option.map_eq_some_iff.mp h
    cases hrest
    have := ih hr
    simp only [List.length_cons] at this ⊢
    omega

inductive Token
  | outside (c : UInt8)
  | literal (str : List UInt8)
  deriving DecidableEq

def readStatement : List UInt8 → Option (List Token)
  | [] => some []
  | c :: text =>
    if c = QUOTE ∨ c = DOUBLE_QUOTE then
      match _h : readLiteral c text with
      | none => none
      | some (str, rest) => (readStatement rest).map (.literal str :: ·)
    else (readStatement text).map (.outside c :: ·)
termination_by text => text.length
decreasing_by
  · have := readLiteral_length _h
    rw [List.length_cons]
    omega
  · exact Nat.lt_succ_self _

/-- A literal is read as what it denotes, and what is behind it is not touched. -/
theorem readLiteral_denotes {text str : List UInt8} (h : Denotes text str) {rest : List UInt8}
    (hrest : rest.head? ≠ some QUOTE) :
    readLiteral QUOTE (text ++ QUOTE :: rest) = some (str, rest) := by
  induction h with
  | nil =>
    cases rest with
    | nil => rfl
    | cons c rest =>
      have hc : c ≠ QUOTE := fun heq => hrest (congrArg some heq)
      rw [List.nil_append, readLiteral, if_neg (by decide), if_pos rfl, if_neg hc]
  | @plain c text str hquote hbackslash h ih =>
    obtain ⟨c', text', htext⟩ : ∃ c' text', text ++ QUOTE :: rest = c' :: text' :=
      List.exists_cons_of_ne_nil (List.append_ne_nil_of_right_ne_nil _ (List.cons_ne_nil _ _))
    rw [List.cons_append, htext, readLiteral, if_neg hbackslash, if_neg hquote, ← htext, ih]
    rfl
  | @escaped c text str hc h ih =>
    have hself : unescape c = [c] := by rcases hc with rfl | rfl <;> rfl
    rw [List.cons_append, List.cons_append, readLiteral, if_pos rfl, ih, hself]
    rfl

theorem readStatement_outside {start : List UInt8}
    (h : start.all (fun c => c ≠ QUOTE && c ≠ DOUBLE_QUOTE) = true) (text : List UInt8) :
    readStatement (start ++ text) = (readStatement text).map (start.map .outside ++ ·) := by
  induction start with
  | nil =>
    change readStatement text = (readStatement text).map id
    rw [Option.map_id, id]
  | cons c start ih =>
    obtain ⟨hc, hstart⟩ := Bool.and_eq_true_iff.mp h
    obtain ⟨hquote, hdouble⟩ := Bool.and_eq_true_iff.mp hc
    rw [List.cons_append, readStatement, if_neg
      (not_or.mpr ⟨of_decide_eq_true hquote, of_decide_eq_true hdouble⟩), ih hstart, Option.map_map]
    rfl

theorem readStatement_literal {text str : List UInt8} (h : Denotes text str) {rest : List UInt8}
    (hrest : rest.head? ≠ some QUOTE) :
    readStatement (QUOTE :: (text ++ QUOTE :: rest)) = (readStatement rest).map
      (.literal str :: ·) := by
  rw [readStatement, if_pos (Or.inl rfl)]
  split
  · next hnone =>
    rw [readLiteral_denotes h hrest] at hnone
    cases hnone
  · next str' rest' hsome =>
    rw [readLiteral_denotes h hrest] at hsome
    cases hsome
    rfl

theorem head_unquoted {start : List UInt8} (hne : start ≠ []) (h : start.head? ≠ some QUOTE)
    (rest : List UInt8) :
    (start ++ rest).head? ≠ some QUOTE := by
  rw [List.head?_append_of_ne_nil _ hne]
  exact h

/-! ### The statements -/

def outside (str : String) : List Token := (ascii str).map .outside

def selectTokens (id pw : List UInt8) : List Token :=
  outside "SELECT accountNo, x, y FROM Accounts WHERE id=" ++
    .literal id :: (outside " AND pw=" ++ [.literal pw])

def insertTokens (id pw : List UInt8) : List Token :=
  outside "INSERT INTO Accounts (id, pw, x, y) VALUES (" ++
    .literal id :: (outside ", " ++ .literal pw :: outside ", 0, 0)")

def selectNoTokens (id : List UInt8) : List Token :=
  outside "SELECT accountNo FROM Accounts WHERE id=" ++ [.literal id]

section

variable {id pw i p : List UInt8}

theorem readStatement_selectAccount (hi : Denotes id i) (hp : Denotes pw p) :
    readStatement (selectAccount id pw) = some (selectTokens i p) := by
  have hstart : ascii "SELECT accountNo, x, y FROM Accounts WHERE id='" =
      ascii "SELECT accountNo, x, y FROM Accounts WHERE id=" ++ [QUOTE] := by decide
  have hmiddle : ascii "' AND pw='" = QUOTE :: (ascii " AND pw=" ++ [QUOTE]) := by decide
  have hend : ascii "'" = [QUOTE] := by decide
  have htext : selectAccount id pw = ascii "SELECT accountNo, x, y FROM Accounts WHERE id=" ++
      QUOTE :: (id ++ QUOTE :: (ascii " AND pw=" ++ QUOTE :: (pw ++ QUOTE :: []))) := by
    rw [selectAccount, hstart, hmiddle, hend]
    simp only [List.append_assoc, List.cons_append, List.nil_append]
  rw [htext, readStatement_outside (by decide),
    readStatement_literal hi (head_unquoted (by decide) (by decide) _),
    readStatement_outside (by decide), readStatement_literal hp (by decide), readStatement]
  rfl

theorem readStatement_insertAccount (hi : Denotes id i) (hp : Denotes pw p) :
    readStatement (insertAccount id pw) = some (insertTokens i p) := by
  have hstart : ascii "INSERT INTO Accounts (id, pw, x, y) VALUES ('" =
      ascii "INSERT INTO Accounts (id, pw, x, y) VALUES (" ++ [QUOTE] := by decide
  have hmiddle : ascii "', '" = QUOTE :: (ascii ", " ++ [QUOTE]) := by decide
  have hend : ascii "', 0, 0)" = QUOTE :: (ascii ", 0, 0)" ++ []) := by decide
  have htext : insertAccount id pw = ascii "INSERT INTO Accounts (id, pw, x, y) VALUES (" ++
      QUOTE ::
        (id ++ QUOTE :: (ascii ", " ++ QUOTE :: (pw ++ QUOTE :: (ascii ", 0, 0)" ++ [])))) := by
    rw [insertAccount, hstart, hmiddle, hend]
    simp only [List.append_assoc, List.cons_append, List.nil_append]
  rw [htext, readStatement_outside (by decide),
    readStatement_literal hi (head_unquoted (by decide) (by decide) _), readStatement_outside
    (by decide), readStatement_literal hp (head_unquoted (by decide) (by decide) _),
    readStatement_outside (by decide), readStatement, Option.map_some, List.append_nil]
  rfl

theorem readStatement_selectAccountNo (hi : Denotes id i) :
    readStatement (selectAccountNo id) = some (selectNoTokens i) := by
  have hstart : ascii "SELECT accountNo FROM Accounts WHERE id='" =
      ascii "SELECT accountNo FROM Accounts WHERE id=" ++ [QUOTE] := by decide
  have hend : ascii "'" = [QUOTE] := by decide
  have htext : selectAccountNo id = ascii "SELECT accountNo FROM Accounts WHERE id=" ++
      QUOTE :: (id ++ QUOTE :: []) := by
    rw [selectAccountNo, hstart, hend]
    simp only [List.append_assoc, List.cons_append, List.nil_append]
  rw [htext, readStatement_outside (by decide), readStatement_literal hi (by decide), readStatement]
  rfl

end

/-! ### What `escapeSqlString` writes -/

/-- `output[outIdx] = c`. -/
def poke (output : List UInt8) (outIdx : ℕ) (c : UInt8) : Except Stop (List UInt8) :=
  if outIdx < output.length then .ok (output.set outIdx c) else .error .overrun

/-- The loop of `escapeSqlString` on what is left of the array `input`. -/
def escapeWrites (outputSize : ℕ) : List UInt8 → List UInt8 → ℕ → Except Stop (List UInt8)
  | [], _, _ => .error .overrun
  | c :: input, output, outIdx =>
    if c ≠ 0 ∧ outIdx + 2 < outputSize then do
      let (output, outIdx) ←
        if c = QUOTE ∨ c = BACKSLASH then do pure (← poke output outIdx BACKSLASH, outIdx + 1) else
          pure (output, outIdx)
      let output ← poke output outIdx c
      escapeWrites outputSize input output (outIdx + 1)
    else poke output outIdx 0

def escapeSqlStringInto (input output : List UInt8) (outputSize : ℕ) : Except Stop (List UInt8) :=
  escapeWrites outputSize input output 0

theorem poke_append (front back : List UInt8) (b c : UInt8) :
    poke (front ++ b :: back) front.length c = .ok (front ++ [c] ++ back) := by
  unfold poke
  rw [if_pos (by simp), List.set_append_right _ _ le_rfl, Nat.sub_self, List.set_cons_zero,
    List.append_assoc]
  rfl

theorem cstr_cons_zero (input : List UInt8) : cstr (0 :: input) = [] := rfl

theorem cstr_cons_ne {c : UInt8} (h : c ≠ 0) (input : List UInt8) :
    cstr (c :: input) = c :: cstr input :=
  List.takeWhile_cons_of_pos (decide_eq_true h)

/-- What is written lies between `front` and the end of the buffer. -/
theorem escapeLoop_lt {outputSize outIdx : ℕ} (h : outIdx < outputSize) (input : List UInt8) :
    outIdx + (escapeLoop outputSize input outIdx).length < outputSize := by
  induction input generalizing outIdx with
  | nil => exact h
  | cons c input ih =>
    unfold escapeLoop
    split_ifs with hroom hc
    · have := ih (show outIdx + 2 < outputSize by omega)
      simp only [List.length_cons]
      omega
    · have := ih (show outIdx + 1 < outputSize by omega)
      simp only [List.length_cons]
      omega
    · exact h

/-- The loop leaves the string of `escapeLoop` behind `front`, and a NUL behind that. -/
theorem escapeWrites_spec {input front back : List UInt8} (hnul : 0 ∈ input) (hback : back ≠ []) :
    escapeWrites (front.length + back.length) input (front ++ back) front.length =
      .ok (front ++ escapeLoop (front.length + back.length) (cstr input) front.length ++
        0 :: back.drop
          ((escapeLoop (front.length + back.length) (cstr input) front.length).length + 1)) := by
  induction input generalizing front back with
  | nil => cases hnul
  | cons c input ih =>
    obtain ⟨b, back, rfl⟩ := List.exists_cons_of_ne_nil hback
    unfold escapeWrites
    by_cases hloop : c ≠ 0 ∧ front.length + 2 < front.length + (b :: back).length
    · rw [if_pos hloop]
      have hnul' : 0 ∈ input := (List.mem_cons.mp hnul).resolve_left hloop.1.symm
      have hroom := hloop.2
      rw [List.length_cons] at hroom
      obtain ⟨b', back, rfl⟩ : ∃ b' back', back = b' :: back' := by
        cases back with
        | nil => simp only [List.length_nil] at hroom; omega
        | cons b' back => exact ⟨b', back, rfl⟩
      rw [List.length_cons] at hroom
      have hne : back ≠ [] := by
        rintro rfl
        simp only [List.length_nil] at hroom
        omega
      rw [cstr_cons_ne hloop.1]
      unfold escapeLoop
      rw [if_pos hloop.2]
      by_cases hc : c = QUOTE ∨ c = BACKSLASH
      · have hstep := @ih (front ++ [BACKSLASH] ++ [c]) back hnul' hne
        have hsize : (front ++ [BACKSLASH] ++ [c]).length + back.length =
            front.length + (b :: b' :: back).length := by
          simp only [List.length_append, List.length_cons, List.length_nil]
          omega
        have hidx : (front ++ [BACKSLASH] ++ [c]).length = front.length + 2 := by
          simp only [List.length_append, List.length_cons, List.length_nil]
        have hlast : front.length + 1 = (front ++ [BACKSLASH]).length := by
          rw [List.length_append, List.length_singleton]
        rw [hsize, hidx] at hstep
        rw [if_pos hc, if_pos hc, poke_append]
        dsimp only [bind, Except.bind, pure, Except.pure]
        rw [hlast, poke_append]
        dsimp only
        rw [← hlast, hstep]
        simp only [List.append_assoc, List.cons_append, List.nil_append, List.length_cons,
          List.drop_succ_cons]
      · have hstep := @ih (front ++ [c]) (b' :: back) hnul' (List.cons_ne_nil _ _)
        have hsize : (front ++ [c]).length + (b' :: back).length =
            front.length + (b :: b' :: back).length := by
          simp only [List.length_append, List.length_cons, List.length_nil]
          omega
        have hidx : (front ++ [c]).length = front.length + 1 := by
          rw [List.length_append, List.length_singleton]
        rw [hsize, hidx] at hstep
        rw [if_neg hc, if_neg hc]
        dsimp only [bind, Except.bind, pure, Except.pure]
        rw [poke_append]
        dsimp only
        rw [hstep]
        simp only [List.append_assoc, List.cons_append, List.nil_append, List.length_cons,
          List.drop_succ_cons]
    · rw [if_neg hloop, poke_append]
      -- the string ends here, or the room does
      have hnothing :
          escapeLoop (front.length + (b :: back).length) (cstr (c :: input)) front.length = [] := by
        by_cases hc : c = 0
        · rw [hc, cstr_cons_zero]
          rfl
        · rw [cstr_cons_ne hc]
          unfold escapeLoop
          rw [if_neg fun hroom => hloop ⟨hc, hroom⟩]
      rw [hnothing]
      simp only [List.append_nil, List.length_nil, Nat.zero_add, List.drop_succ_cons,
        List.drop_zero, List.append_assoc, List.cons_append, List.nil_append]

/-- What is left denotes a prefix of what there was. -/
theorem denotes_prefix (outputSize outIdx : ℕ) (input : List UInt8) :
    ∃ str, str <+: input ∧ Denotes (escapeLoop outputSize input outIdx) str := by
  induction input generalizing outIdx with
  | nil => exact ⟨[], List.nil_prefix, .nil⟩
  | cons c input ih =>
    unfold escapeLoop
    split_ifs with hroom hc
    · obtain ⟨str, hstr, hdenotes⟩ := ih (outIdx + 2)
      exact ⟨c :: str, List.cons_prefix_cons.mpr ⟨rfl, hstr⟩, .escaped hc hdenotes⟩
    · obtain ⟨str, hstr, hdenotes⟩ := ih (outIdx + 1)
      obtain ⟨hquote, hbackslash⟩ := not_or.mp hc
      exact ⟨c :: str, List.cons_prefix_cons.mpr ⟨rfl, hstr⟩, .plain hquote hbackslash hdenotes⟩
    · exact ⟨[], List.nil_prefix, .nil⟩

/-- A buffer with a string in it. -/
theorem cstr_append_zero {text : List UInt8} (h : ∀ c ∈ text, c ≠ 0) (rest : List UInt8) :
    cstr (text ++ 0 :: rest) = text := by
  induction text with
  | nil => rfl
  | cons c text ih =>
    rw [List.cons_append, cstr_cons_ne (h c List.mem_cons_self),
      ih fun d hd => h d (List.mem_cons_of_mem _ hd)]

theorem cstr_append_nul (bs : List UInt8) : cstr (bs ++ [0]) = cstr bs := by
  induction bs with
  | nil => rfl
  | cons c bs ih =>
    by_cases hc : c = 0
    · rw [hc]
      rfl
    · rw [List.cons_append, cstr_cons_ne hc, cstr_cons_ne hc, ih]

theorem cstr_ne_zero (bs : List UInt8) : ∀ c ∈ cstr bs, c ≠ 0 := fun c hc =>
  of_decide_eq_true (List.all_eq_true.mp List.all_takeWhile c hc)

theorem escapeLoop_ne_zero (outputSize outIdx : ℕ) {input : List UInt8} (h : ∀ c ∈ input, c ≠ 0) :
    ∀ c ∈ escapeLoop outputSize input outIdx, c ≠ 0 := by
  induction input generalizing outIdx with
  | nil => exact fun _ hd => absurd hd List.not_mem_nil
  | cons c input ih =>
    have hc := h c List.mem_cons_self
    have ih' := fun outIdx => ih outIdx fun d hd => h d (List.mem_cons_of_mem _ hd)
    unfold escapeLoop
    split_ifs with hroom hquote
    · intro d hd
      rcases List.mem_cons.mp hd with rfl | hd
      · decide
      rcases List.mem_cons.mp hd with rfl | hd
      · exact hc
      · exact ih' _ d hd
    · intro d hd
      rcases List.mem_cons.mp hd with rfl | hd
      · exact hc
      · exact ih' _ d hd
    · exact fun _ hd => absurd hd List.not_mem_nil

/-- What `escapeSqlString` makes of a buffer. -/
structure Escaped (input output output' : List UInt8) : Prop where
  buffer : output' = cstr output' ++ 0 :: output.drop ((cstr output').length + 1)
  fits : (cstr output').length < output.length
  /-- Between quotes it is a prefix of the input, and the closing quote closes it. -/
  reads : ∃ str, str <+: cstr input ∧
    (∀ rest, rest.head? ≠ some QUOTE →
        readLiteral QUOTE (cstr output' ++ QUOTE :: rest) = some (str, rest)) ∧
    (2 * (cstr input).length + 1 ≤ output.length → str = cstr input)

theorem cstr_escaped {input output output' : List UInt8} (hnul : 0 ∈ input)
    (hsize : 1 ≤ output.length) (h : escapeSqlStringInto input output output.length = .ok output') :
    cstr output' = escapeSqlString (cstr input) output.length ∧
      output' = cstr output' ++ 0 :: output.drop ((cstr output').length + 1) := by
  have hspec := @escapeWrites_spec input [] output hnul (List.length_pos_iff.mp hsize)
  rw [List.length_nil, Nat.zero_add, List.nil_append, List.nil_append] at hspec
  unfold escapeSqlStringInto at h
  rw [hspec] at h
  have hcstr := cstr_append_zero (escapeLoop_ne_zero output.length 0 (cstr_ne_zero input))
    (output.drop ((escapeLoop output.length (cstr input) 0).length + 1))
  rw [← Except.ok.inj h, hcstr]
  exact ⟨rfl, rfl⟩

theorem escapes {input output : List UInt8} (hnul : 0 ∈ input) (hsize : 1 ≤ output.length) :
    ∃ output', escapeSqlStringInto input output output.length = .ok output' ∧
      Escaped input output output' := by
  have hspec := @escapeWrites_spec input [] output hnul (List.length_pos_iff.mp hsize)
  rw [List.length_nil, Nat.zero_add, List.nil_append] at hspec
  refine ⟨_, hspec, ?_⟩
  obtain ⟨hcstr, hbuffer⟩ := cstr_escaped hnul hsize hspec
  refine ⟨hbuffer, ?_, ?_⟩
  · rw [hcstr]
    have := escapeLoop_lt (show 0 < output.length from hsize) (cstr input)
    rwa [Nat.zero_add] at this
  rw [hcstr]
  by_cases hwhole : 2 * (cstr input).length + 1 ≤ output.length
  · have hdenotes : Denotes (escapeSqlString (cstr input) output.length) (cstr input) :=
      denotes_escapeLoop (by omega)
    exact ⟨cstr input, List.prefix_rfl, fun rest hrest => readLiteral_denotes hdenotes hrest,
      fun _ => rfl⟩
  · obtain ⟨str, hstr, hdenotes⟩ := denotes_prefix output.length 0 (cstr input)
    exact ⟨str, hstr, fun rest hrest => readLiteral_denotes hdenotes hrest,
      fun h => absurd h hwhole⟩

/-! ### What `handleAuthReq` sends -/

/-- MySQL, and what it has been sent. -/
structure Logged (D : Type) where
  db : D
  texts : List (List UInt8)

section

variable {D F : Type} [Mysql D F]

instance : Mysql (Logged D) F where
  accounts d := Mysql.accounts d.db
  run d text := ((Mysql.run d.db text).1, ⟨(Mysql.run (F := F) d.db text).2, d.texts ++ [text]⟩)

/-- One of the statements of a login, with these values. -/
def LoginText (id pw text : List UInt8) : Prop :=
  readStatement text = some (selectTokens id pw) ∨ readStatement text = some (insertTokens id pw) ∨
    readStatement text = some (selectNoTokens id)

/-- What was sent since `d`. -/
def SentOnly (P : List UInt8 → Prop) (d d' : Logged D) : Prop :=
  ∃ texts, d'.texts = d.texts ++ texts ∧ ∀ text ∈ texts, P text

variable {P : List UInt8 → Prop} {d d' d'' : Logged D}

theorem SentOnly.refl (d : Logged D) : SentOnly P d d := ⟨[], (List.append_nil _).symm, nofun⟩

theorem SentOnly.trans (h : SentOnly P d d') (h' : SentOnly P d' d'') : SentOnly P d d'' := by
  obtain ⟨texts, htexts, hall⟩ := h
  obtain ⟨texts', htexts', hall'⟩ := h'
  refine ⟨texts ++ texts', by rw [htexts', htexts, List.append_assoc], fun text htext => ?_⟩
  rcases List.mem_append.mp htext with htext | htext
  · exact hall text htext
  · exact hall' text htext

/-- A call sends its text, or nothing. -/
theorem SentOnly.of_call {q : List UInt8} (hq : P q)
    (h : d' = d ∨ d' = (Mysql.run (F := F) d q).2) : SentOnly P d d' := by
  rcases h with rfl | rfl
  · exact .refl _
  · exact ⟨[q], rfl, fun text htext => List.mem_singleton.mp htext ▸ hq⟩

variable {c c' : CDB (Logged D)} {q : List UInt8}

theorem sentOnly_query {rs : Option (List (Account F))} (hq : P q) (h : c.query q = .ok (rs, c')) :
    SentOnly P c.db c'.db := by
  by_cases hclear : c.bFailed = false
  · obtain ⟨rs', c1, hquery, -, -, hdb, -⟩ := CDB.query_spec (F := F) hclear q
    rw [hquery] at h
    cases h
    exact .of_call hq hdb
  · unfold CDB.query CDB.throwIfFailed at h
    rw [if_pos (by simpa using hclear)] at h
    cases h

theorem sentOnly_execute {ok : Bool} (hq : P q) (h : c.execute (F := F) q = .ok (ok, c')) :
    SentOnly P c.db c'.db := by
  by_cases hclear : c.bFailed = false
  · obtain ⟨ok', c1, hexecute, -, -, hdb, -⟩ := CDB.execute_spec (F := F) hclear q
    rw [hexecute] at h
    cases h
    exact .of_call hq hdb
  · unfold CDB.execute CDB.throwIfFailed at h
    rw [if_pos (by simpa using hclear)] at h
    cases h

variable [Machine F]

/-- The texts of a login are its three statements, and they fit. -/
theorem loginTexts {id pw : List UInt8} (hid : id.length ≤ 20) (hpw : pw.length ≤ 64)
    (hvalid : isValidId id = true) :
    LoginText id pw (snprintf 384 (selectAccount id (escapeSqlString pw 129))) ∧
      LoginText id pw (snprintf 384 (insertAccount id (escapeSqlString pw 129))) ∧
      LoginText id pw (snprintf 128 (selectAccountNo id)) := by
  have hescaped : (escapeSqlString pw 129).length ≤ 128 :=
    (escapeLoop_length _ _ _).trans (Nat.mul_le_mul_left 2 hpw)
  have hdid := denotes_id hvalid
  have hdpw := denotes_pw hpw
  rw [snprintf_selectAccount hid hescaped, snprintf_insertAccount hid hescaped,
    snprintf_selectAccountNo hid]
  exact ⟨Or.inl (readStatement_selectAccount hdid hdpw),
    Or.inr (Or.inl (readStatement_insertAccount hdid hdpw)),
    Or.inr (Or.inr (readStatement_selectAccountNo hdid))⟩

theorem sentOnly_handleAuthReq {s t : State (Logged D) F} {msg : Message}
    (h : handleAuthReq s msg = .ok t) :
    SentOnly (LoginText (sentId msg) (sentPw msg)) s.db.db t.db.db := by
  unfold handleAuthReq at h
  by_cases hfront : msg.front + 20 ≤ msg.data.length
  swap
  · rw [Message.getData_error (by omega)] at h
    cases h
  rw [Message.getData_ok hfront] at h
  dsimp only [Except.mapError, bind, Except.bind] at h
  by_cases hmsg : msg.front + 20 + 64 ≤ msg.data.length
  swap
  · rw [Message.getData_error (by dsimp only; omega)] at h
    cases h
  rw [Message.getData_ok hmsg] at h
  dsimp only at h
  rw [show cstr (((msg.data.drop msg.front).take 20).set 19 0) = sentId msg from rfl,
    show cstr ((msg.data.drop (msg.front + 20)).take 64) = sentPw msg from rfl] at h
  by_cases hvalid : isValidId (sentId msg) = false
  · rw [if_pos hvalid] at h
    cases h
    exact .refl _
  rw [if_neg hvalid] at h
  rw [Bool.not_eq_false] at hvalid
  obtain ⟨hselect, hinsert, hselectNo⟩ := loginTexts (sentId_length msg) (sentPw_length msg) hvalid
  cases hquery : s.db.query (F := F)
    (snprintf 384 (selectAccount (sentId msg) (escapeSqlString (sentPw msg) 129))) with
  | error e =>
    rw [hquery] at h
    cases h
  | ok r =>
  obtain ⟨rs, db1⟩ := r
  have hsent1 := sentOnly_query hselect hquery
  rw [hquery] at h
  dsimp only at h
  have hstore1 : (if rs.isSome = true then db1 else db1.clearError).db = db1.db := by
    split_ifs <;> rfl
  rw [← hstore1] at hsent1
  generalize (if rs.isSome = true then db1 else db1.clearError) = db1' at hsent1 h
  cases hfound : (rs.getD []).head? with
  | some row =>
    rw [hfound] at h
    cases h
    rw [promote_db]
    exact hsent1
  | none =>
    rw [hfound] at h
    dsimp only at h
    cases hexecute : db1'.execute (F := F)
      (snprintf 384 (insertAccount (sentId msg) (escapeSqlString (sentPw msg) 129))) with
    | error e =>
      rw [hexecute] at h
      cases h
    | ok r =>
    obtain ⟨executed, db2⟩ := r
    have hsent2 := hsent1.trans (sentOnly_execute hinsert hexecute)
    rw [hexecute] at h
    dsimp only at h
    by_cases hexecuted : executed = false
    · rw [if_pos hexecuted] at h
      cases h
      exact hsent2
    rw [if_neg hexecuted] at h
    cases hquery2 : db2.query (F := F) (snprintf 128 (selectAccountNo (sentId msg))) with
    | error e =>
      rw [hquery2] at h
      cases h
    | ok r =>
    obtain ⟨rs2, db3⟩ := r
    have hsent3 := hsent2.trans (sentOnly_query hselectNo hquery2)
    rw [hquery2] at h
    dsimp only at h
    cases hfound2 : (rs2.getD []).head? with
    | none =>
      rw [hfound2] at h
      cases h
      exact hsent3
    | some row =>
      rw [hfound2] at h
      cases h
      rw [promote_db]
      exact hsent3

/-- Whatever is typed in, MySQL reads the id and the password in the two literals and nothing of
them outside. -/
theorem no_injection :
    (∀ (s t : State (Logged D) F) (msg : Message), handleAuthReq s msg = .ok t →
      SentOnly (LoginText (sentId msg) (sentPw msg)) s.db.db t.db.db) ∧
    (∀ id pw : List UInt8, id.length = 20 → pw.length = 64 → isValidId (cstr (id.set 19 0)) = true →
      ∃ escapedPw, escapeSqlStringInto (pw ++ [0]) (List.replicate 129 0) 129 = .ok escapedPw ∧
        let select := selectAccount (cstr (id.set 19 0)) (cstr escapedPw)
        let insert := insertAccount (cstr (id.set 19 0)) (cstr escapedPw)
        let selectNo := selectAccountNo (cstr (id.set 19 0))
        (snprintf 384 select = select ∧ snprintf 384 insert = insert ∧
            snprintf 128 selectNo = selectNo) ∧
        readStatement select = some (selectTokens (cstr (id.set 19 0)) (cstr pw)) ∧
        readStatement insert = some (insertTokens (cstr (id.set 19 0)) (cstr pw)) ∧
        readStatement selectNo = some (selectNoTokens (cstr (id.set 19 0)))) ∧
    ∀ input output : List UInt8, 0 ∈ input → 1 ≤ output.length →
      ∃ output', escapeSqlStringInto input output output.length = .ok output' ∧
        Escaped input output output' := by
  refine ⟨fun s t msg => sentOnly_handleAuthReq, fun id pw hid hpw hvalid => ?_,
    fun input output => escapes⟩
  have hnul : 0 ∈ pw ++ [0] := List.mem_append_right _ (List.mem_singleton_self _)
  have hlength : (List.replicate 129 (0 : UInt8)).length = 129 := List.length_replicate
  have hsize : 1 ≤ (List.replicate 129 (0 : UInt8)).length := by
    rw [hlength]
    decide
  obtain ⟨escapedPw, hescape, -⟩ := escapes hnul hsize
  obtain ⟨hcstr, -⟩ := cstr_escaped hnul hsize hescape
  rw [hlength] at hescape
  refine ⟨escapedPw, hescape, ?_⟩
  rw [cstr_append_nul, hlength] at hcstr
  have hidLength : (cstr (id.set 19 0)).length ≤ 20 := by
    have := cstr_length_le (id.set 19 0)
    rwa [List.length_set, hid] at this
  have hpwLength : (cstr pw).length ≤ 64 := hpw ▸ cstr_length_le pw
  have hescaped : (cstr escapedPw).length ≤ 128 := by
    rw [hcstr]
    exact (escapeLoop_length _ _ _).trans (Nat.mul_le_mul_left 2 hpwLength)
  have hdpw : Denotes (cstr escapedPw) (cstr pw) := hcstr ▸ denotes_pw hpwLength
  have hdid := denotes_id hvalid
  exact ⟨⟨snprintf_selectAccount hidLength hescaped, snprintf_insertAccount hidLength hescaped,
    snprintf_selectAccountNo hidLength⟩, readStatement_selectAccount hdid hdpw,
      readStatement_insertAccount hdid hdpw,
    readStatement_selectAccountNo hdid⟩

end

/-- Session 1 has connected, there is one account, and nothing has been sent. -/
def oneLogged (account : Account ℚ) : State (Logged (Table ℚ)) ℚ where
  player _ := ⟨0, 0, -1, List.replicate 20 0, ⟨0, 0⟩⟩
  unAuthSessions := {⟨1, 1⟩}
  accountsHash := ∅
  characterID := 0
  db := ⟨false, ⟨⟨[account], account.accountNo + 1⟩, []⟩, fun _ => .answered⟩
  sent := []
  disconnects := []

/-- A password of quotes and backslashes, and a buffer that has no room for its last escape. -/
theorem no_injection_quoted :
    (∃ t, handleAuthReq (oneLogged ⟨7, ascii "amy", ascii "it's", ⟨3, 4⟩⟩)
        (authReq (ascii "amy") (ascii "' OR ''='")) = .ok t ∧
      SentOnly (LoginText (sentId (authReq (ascii "amy") (ascii "' OR ''='")))
          (sentPw (authReq (ascii "amy") (ascii "' OR ''='"))))
          (oneLogged ⟨7, ascii "amy", ascii "it's", ⟨3, 4⟩⟩).db.db t.db.db) ∧
    (∃ escapedPw, escapeSqlStringInto (List.replicate 64 QUOTE ++ [0]) (List.replicate 129 0) 129 =
        .ok escapedPw) ∧
    ∃ output', escapeSqlStringInto (ascii "a'" ++ [0]) [1, 1, 1] 3 = .ok output' ∧ Escaped
      (ascii "a'" ++ [0]) [1, 1, 1] output' := by
  have hinjection := no_injection (D := Table ℚ) (F := ℚ)
  refine ⟨⟨_, rfl, hinjection.1 _ _ _ rfl⟩, ?_, hinjection.2.2 _ [1, 1, 1] (by decide) (by decide)⟩
  obtain ⟨escapedPw, hescape, -⟩ := hinjection.2.1 (ascii "amy" ++ List.replicate 17 0)
    (List.replicate 64 QUOTE) (by decide) List.length_replicate (by decide)
  exact ⟨escapedPw, hescape⟩

end Login
end MyMMO
