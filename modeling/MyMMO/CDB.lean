/-
# The database

`_lib/CDB/CDB.cpp`: a connection to MySQL that remembers a failure until `ClearError`, and throws if
it is used before that. MySQL is not part of the repository. `Mysql` is what it answers, and
`Mysql.Lawful` is what the statements of a login rely on: a string literal denotes a string
(`Denotes`), a SELECT finds the rows that match, and no INSERT makes a second row with one `id`. Any
call may fail, and a statement whose call fails may have been executed or not.
-/
import MyMMO.Contents

namespace MyMMO
namespace Login

/-- A row of `Accounts`. -/
structure Account (F : Type) where
  accountNo : ℤ
  id : List UInt8
  pw : List UInt8
  pos : Field.Position F

/-- What the server answers to a statement: the rows of the result, or an error. `D` is all it
stores. -/
class Mysql (D F : Type) where
  accounts : D → List (Account F)
  run : D → List UInt8 → Option (List (Account F)) × D

/-- What becomes of a call of the client library: it is answered, the statement is not executed, or
the answer is lost. -/
inductive Call
  | answered
  | lost
  | unheard
  deriving DecidableEq

/-! ### Statements -/

/-- The bytes of a string literal of the source. -/
def ascii (str : String) : List UInt8 := str.toList.map fun c => .ofNat c.toNat

def QUOTE : UInt8 := 39
def BACKSLASH : UInt8 := 92

/-- What stands between the quotes of a string literal denotes this string. -/
inductive Denotes : List UInt8 → List UInt8 → Prop
  | nil : Denotes [] []
  | plain {c : UInt8} {text str : List UInt8} (hquote : c ≠ QUOTE) (hbackslash : c ≠ BACKSLASH)
      (h : Denotes text str) : Denotes (c :: text) (c :: str)
  | escaped {c : UInt8} {text str : List UInt8} (hc : c = QUOTE ∨ c = BACKSLASH)
      (h : Denotes text str) : Denotes (BACKSLASH :: c :: text) (c :: str)

def selectAccount (id pw : List UInt8) : List UInt8 :=
  ascii "SELECT accountNo, x, y FROM Accounts WHERE id='" ++ id ++ ascii "' AND pw='" ++
    pw ++ ascii "'"

def insertAccount (id pw : List UInt8) : List UInt8 :=
  ascii "INSERT INTO Accounts (id, pw, x, y) VALUES ('" ++ id ++ ascii "', '" ++ pw ++
    ascii "', 0, 0)"

def selectAccountNo (id : List UInt8) : List UInt8 :=
  ascii "SELECT accountNo FROM Accounts WHERE id='" ++ id ++ ascii "'"

/-- What MySQL is documented to do with them. -/
structure Mysql.Lawful (D F : Type) [Machine F] [Mysql D F] : Prop where
  select : ∀ (d : D) {id pw i p : List UInt8}, Denotes id i → Denotes pw p →
    ∃ rows : List (Account F), run d (selectAccount id pw) = (some rows, d) ∧
      ∀ a, a ∈ rows ↔ a ∈ accounts d ∧ a.id = i ∧ a.pw = p
  insert : ∀ (d : D) {id pw i p : List UInt8}, Denotes id i → Denotes pw p →
    (∀ a ∈ (accounts d : List (Account F)), a.id ≠ i) →
    ∃ (rows : List (Account F)) (d' : D) (accountNo : ℤ), run d (insertAccount id pw) =
        (some rows, d') ∧
      ∀ a : Account F, a ∈ accounts d' ↔
        a ∈ accounts d ∨ a = ⟨accountNo, i, p, ⟨Machine.lit 0, Machine.lit 0⟩⟩
  duplicate : ∀ (d : D) {id pw i p : List UInt8}, Denotes id i → Denotes pw p →
    (∃ a ∈ (accounts d : List (Account F)), a.id = i) →
      run d (insertAccount id pw) = ((none : Option (List (Account F))), d)
  selectNo : ∀ (d : D) {id i : List UInt8}, Denotes id i →
    ∃ rows : List (Account F), run d (selectAccountNo id) = (some rows, d) ∧ ∀ a, a ∈ rows ↔
      a ∈ accounts d ∧ a.id = i

/-! ### The connection -/

/-- What a login can throw. -/
inductive Thrown
  | stop (s : Stop)
  | cdbException

/-- `calls` is what becomes of the calls from here on. -/
structure CDB (D : Type) where
  bFailed : Bool
  db : D
  calls : ℕ → Call

namespace CDB

variable {D F : Type} [Mysql D F]

def clearError (c : CDB D) : CDB D := { c with bFailed := false }

def fail (c : CDB D) : CDB D := { c with bFailed := true }

def throwIfFailed (c : CDB D) : Except Thrown Unit :=
  if c.bFailed then .error .cdbException else .ok ()

/-- `mysql_query`. -/
def mysqlQuery (c : CDB D) (query : List UInt8) : Option (List (Account F)) × CDB D :=
  let calls n := c.calls (n + 1)
  match c.calls 0 with
  | .answered =>
      ((Mysql.run c.db query).1, { c with db := (Mysql.run (F := F) c.db query).2, calls })
  | .lost => (none, { c with calls })
  | .unheard => (none, { c with db := (Mysql.run (F := F) c.db query).2, calls })

/-- `mysql_store_result`. -/
def mysqlStoreResult (c : CDB D) (rows : List (Account F)) : Option (List (Account F)) × CDB D :=
  (if c.calls 0 = .answered then some rows else none, { c with calls := fun n => c.calls (n + 1) })

def execute (c : CDB D) (query : List UInt8) : Except Thrown (Bool × CDB D) := do
  c.throwIfFailed
  match (c.mysqlQuery query : Option (List (Account F)) × CDB D) with
  | (none, c) => return (false, c.fail)
  | (some _, c) => return (true, c)

/-- The rows of the result, if there is one. -/
def query (c : CDB D) (query : List UInt8) : Except Thrown (Option (List (Account F)) × CDB D) := do
  c.throwIfFailed
  match (c.mysqlQuery query : Option (List (Account F)) × CDB D) with
  | (none, c) => return (none, c.fail)
  | (some rows, c) =>
    match c.mysqlStoreResult rows with
    | (none, c) => return (none, c.fail)
    | (some rows, c) => return (some rows, c)

section

variable {c : CDB D} {q : List UInt8}

/-- No call fails from here on. -/
def Calm (c : CDB D) : Prop := ∀ n, c.calls n = .answered

theorem throwIfFailed_clear (h : c.bFailed = false) : c.throwIfFailed = .ok () := by
  unfold throwIfFailed
  rw [h]
  rfl

/-- A statement is executed or not, and what it is answered is heard or not. -/
theorem mysqlQuery_spec (c : CDB D) (q : List UInt8) :
    ∃ (rs : Option (List (Account F))) (c' : CDB D),
    c.mysqlQuery q = (rs, c') ∧ c'.bFailed = c.bFailed ∧
      (∀ rows, rs = some rows → Mysql.run c.db q = (some rows, c'.db)) ∧
      (c'.db = c.db ∨ c'.db = (Mysql.run (F := F) c.db q).2) ∧
    (c.Calm → c'.Calm ∧ (rs, c'.db) = Mysql.run c.db q) := by
  unfold mysqlQuery
  dsimp only
  cases hcall : c.calls 0 with
  | answered =>
    refine ⟨_, _, rfl, rfl, fun rows hrows => Prod.ext hrows rfl, Or.inr rfl,
      fun hcalm => ⟨fun n => hcalm (n + 1), rfl⟩⟩
  | lost =>
    refine ⟨_, _, rfl, rfl, nofun, Or.inl rfl, fun hcalm => ?_⟩
    rw [hcalm 0] at hcall
    cases hcall
  | unheard =>
    refine ⟨_, _, rfl, rfl, nofun, Or.inr rfl, fun hcalm => ?_⟩
    rw [hcalm 0] at hcall
    cases hcall

theorem execute_spec (h : c.bFailed = false) (q : List UInt8) : ∃ (ok : Bool) (c' : CDB D),
    c.execute (F := F) q = .ok (ok, c') ∧ c'.bFailed = !ok ∧
      (ok = true → ∃ rows : List (Account F), Mysql.run c.db q = (some rows, c'.db)) ∧
      (c'.db = c.db ∨ c'.db = (Mysql.run (F := F) c.db q).2) ∧
      (c.Calm → c'.Calm ∧ ok = (Mysql.run (F := F) c.db q).1.isSome) := by
  obtain ⟨rs, c', hquery, hfailed, hrows, hdb, hcalm⟩ := mysqlQuery_spec (F := F) c q
  unfold execute
  rw [throwIfFailed_clear h, hquery]
  cases rs with
  | none =>
    refine ⟨false, c'.fail, rfl, rfl, nofun, hdb, fun hc => ⟨(hcalm hc).1, ?_⟩⟩
    rw [← (hcalm hc).2]
    rfl
  | some rows =>
    refine ⟨true, c', rfl, hfailed.trans h, fun _ => ⟨rows, hrows rows rfl⟩, hdb,
      fun hc => ⟨(hcalm hc).1, ?_⟩⟩
    rw [← (hcalm hc).2]
    rfl

theorem query_spec (h : c.bFailed = false) (q : List UInt8) :
    ∃ (rs : Option (List (Account F))) (c' : CDB D),
    c.query q = .ok (rs, c') ∧ c'.bFailed = rs.isNone ∧
      (∀ rows, rs = some rows → Mysql.run c.db q = (some rows, c'.db)) ∧
      (c'.db = c.db ∨ c'.db = (Mysql.run (F := F) c.db q).2) ∧
    (c.Calm → c'.Calm ∧ (rs, c'.db) = Mysql.run c.db q) := by
  obtain ⟨rs, c', hquery, hfailed, hrows, hdb, hcalm⟩ := mysqlQuery_spec (F := F) c q
  unfold query
  rw [throwIfFailed_clear h, hquery]
  cases rs with
  | none => exact ⟨none, c'.fail, rfl, rfl, nofun, hdb, hcalm⟩
  | some rows =>
    by_cases hstored : c'.calls 0 = .answered
    · refine ⟨some rows, { c' with calls := fun n => c'.calls (n + 1) }, ?_, hfailed.trans h,
        ?_, hdb, ?_⟩
      · simp [mysqlStoreResult, hstored, bind, Except.bind, pure, Except.pure]
      · rintro _ ⟨⟩
        exact hrows rows rfl
      · exact fun hc => ⟨fun n => (hcalm hc).1 (n + 1), (hcalm hc).2⟩
    · refine ⟨none, { c' with calls := fun n => c'.calls (n + 1) }.fail, ?_, rfl, nofun, hdb, ?_⟩
      · simp [mysqlStoreResult, hstored, bind, Except.bind, pure, Except.pure]
      · exact fun hc => absurd ((hcalm hc).1 0) hstored

end

end CDB

end Login
end MyMMO
