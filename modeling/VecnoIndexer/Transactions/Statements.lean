import VecnoIndexer.Database.Pieces
import VecnoIndexer.Mapping.Mapper

/-!
# The inserts of the transaction processor

The `INSERT` statements that store transactions.  Two of them read other tables: the
inputs may be stored with the outputs they spend, and the addresses of those outputs
are related to the spending transaction.
-/

namespace VecnoIndexer

open VecnoIndexer.Sql

/-! ## Joins -/

/-- `LEFT JOIN transactions_outputs o ON previous outpoint = o.transaction_id, o.index` -/
def Db.spentOutput (db : Db) (input : TransactionInput) : Option TransactionOutput := do
  let transactionId ← input.previousOutpointHash
  let index ← input.previousOutpointIndex
  db.transactionsOutputs.lookup (transactionId, index)

/-- `COALESCE(i.previous_outpoint_script, o.script_public_key)`, and the amount. -/
def Db.resolveInput (db : Db) (input : TransactionInput) : TransactionInput :=
  let output := db.spentOutput input
  { input with
    previousOutpointScript :=
      input.previousOutpointScript <|> output.bind TransactionOutput.scriptPublicKey
    previousOutpointAmount :=
      input.previousOutpointAmount <|> output.bind TransactionOutput.amount }

/-- An input of one of the transactions with the output it spends. -/
structure SpentInput where
  transactionId : Hash
  output : TransactionOutput
  blockTime : Option Int

/-- `transactions_inputs i JOIN transactions_outputs o .. WHERE i.transaction_id = ANY($1)`,
with `JOIN transactions t` for the time. -/
def Db.spentInputs (db : Db) (useTx : Bool) (transactionIds : List Hash) : List SpentInput :=
  db.transactionsInputs.rows.filterMap fun input => do
    let output ← db.spentOutput input
    let blockTime ←
      (if useTx then (db.transactions.lookup input.transactionId).map Transaction.blockTime
      else some input.blockTime)
    if input.transactionId ∈ transactionIds then
      some ⟨input.transactionId, output, blockTime⟩
    else
      none

/-- A joined input is a stored input of the transactions with a time. -/
theorem exists_of_mem_spentInputs {db : Db} {useTx : Bool} {transactionIds : List Hash}
    {spent : SpentInput} (member : spent ∈ db.spentInputs useTx transactionIds) :
    ∃ input ∈ db.transactionsInputs, input.transactionId = spent.transactionId ∧
      input.transactionId ∈ transactionIds ∧
      (useTx = true → db.transactions.HasKey input.transactionId) ∧
      db.spentOutput input = some spent.output := by
  obtain ⟨input, inputMem, joined⟩ := List.mem_filterMap.mp member
  simp only [Option.bind_eq_bind, Option.bind_eq_some_iff] at joined
  obtain ⟨output, outputEq, blockTime, timeEq, eq⟩ := joined
  split at eq
  · rename_i among
    cases eq
    refine ⟨input, inputMem, rfl, among, fun usesTx => ?_, outputEq⟩
    rw [if_pos usesTx] at timeEq
    obtain ⟨transaction, found, _⟩ := Option.map_eq_some_iff.mp timeEq
    exact ⟨transaction, Table.lookup_eq_some_iff.mp found⟩
  · contradiction

/-- The address of a spent output, which the key of `addresses_transactions` needs. -/
def SpentInput.addressTransaction (spent : SpentInput) : Except SqlError AddressTransaction :=
  match spent.output.scriptPublicKeyAddress with
  | some address => .ok ⟨address, spent.transactionId, spent.blockTime⟩
  | none => .error .notNullViolation

def SpentInput.scriptTransaction (spent : SpentInput) : Except SqlError ScriptTransaction :=
  match spent.output.scriptPublicKey with
  | some script => .ok ⟨script, spent.transactionId, spent.blockTime⟩
  | none => .error .notNullViolation

/-! ## Statements -/

/-- An `INSERT .. ON CONFLICT DO NOTHING` of the transaction processor. -/
inductive InsertStatement where
  | transactions (rows : List Transaction)
  | inputs (resolvePreviousOutpoints : Bool) (rows : List TransactionInput)
  | outputs (rows : List TransactionOutput)
  | addresses (rows : List AddressTransaction)
  | scripts (rows : List ScriptTransaction)
  | blocksTransactions (rows : List BlockTransaction)
  | addressesFromInputs (useTx : Bool) (transactionIds : List Hash)
  | scriptsFromInputs (useTx : Bool) (transactionIds : List Hash)
  deriving DecidableEq, Repr

namespace InsertStatement

/-- The rows inserted into a table, with their number. -/
def inserted {α κ : Type} [DecidableEq κ] {key : α → Option κ} (place : TableOf Db key)
    (rows : List α) (db : Db) : ℕ × Db :=
  let after := place.insert rows db
  ((place.get after).rows.length - (place.get db).rows.length, after)

def effect (db : Db) : InsertStatement → Except SqlError (ℕ × Db)
  | transactions rows => .ok (inserted transactionsTable rows db)
  | inputs resolvePreviousOutpoints rows =>
      .ok (inserted inputsTable
        (if resolvePreviousOutpoints then rows.map db.resolveInput else rows) db)
  | outputs rows => .ok (inserted outputsTable rows db)
  | addresses rows => .ok (inserted addressesTable rows db)
  | scripts rows => .ok (inserted scriptsTable rows db)
  | blocksTransactions rows => .ok (inserted blocksTransactionsTable rows db)
  | addressesFromInputs useTx transactionIds => do
      let rows ← (db.spentInputs useTx transactionIds).mapM SpentInput.addressTransaction
      .ok (inserted addressesTable rows db)
  | scriptsFromInputs useTx transactionIds => do
      let rows ← (db.spentInputs useTx transactionIds).mapM SpentInput.scriptTransaction
      .ok (inserted scriptsTable rows db)

def execute (insert : InsertStatement) : DbM ℕ :=
  statement fun db => effect db insert

/-- What a statement that succeeds leaves. -/
def Leaves (db after : Db) : InsertStatement → Prop
  | transactions rows => after = transactionsTable.insert rows db
  | inputs resolvePreviousOutpoints rows => after = inputsTable.insert
      (if resolvePreviousOutpoints then rows.map db.resolveInput else rows) db
  | outputs rows => after = outputsTable.insert rows db
  | addresses rows => after = addressesTable.insert rows db
  | scripts rows => after = scriptsTable.insert rows db
  | blocksTransactions rows => after = blocksTransactionsTable.insert rows db
  | addressesFromInputs useTx transactionIds => ∃ rows,
      (db.spentInputs useTx transactionIds).mapM SpentInput.addressTransaction = .ok rows ∧
        after = addressesTable.insert rows db
  | scriptsFromInputs useTx transactionIds => ∃ rows,
      (db.spentInputs useTx transactionIds).mapM SpentInput.scriptTransaction = .ok rows ∧
        after = scriptsTable.insert rows db

theorem leaves_of_effect {insert : InsertStatement} {db after : Db} {affected : ℕ}
    (executed : effect db insert = .ok (affected, after)) : Leaves db after insert := by
  cases insert with
  | addressesFromInputs useTx transactionIds =>
      simp only [effect] at executed
      cases joined : (db.spentInputs useTx transactionIds).mapM SpentInput.addressTransaction with
      | error error =>
          rw [joined] at executed
          contradiction
      | ok rows =>
          rw [joined] at executed
          cases executed
          exact ⟨rows, joined, rfl⟩
  | scriptsFromInputs useTx transactionIds =>
      simp only [effect] at executed
      cases joined : (db.spentInputs useTx transactionIds).mapM SpentInput.scriptTransaction with
      | error error =>
          rw [joined] at executed
          contradiction
      | ok rows =>
          rw [joined] at executed
          cases executed
          exact ⟨rows, joined, rfl⟩
  | _ =>
      cases executed
      rfl

/-- Statements executed one after another; an error ends the process. -/
def executeAll : List InsertStatement → DbM ℕ
  | [] => pure 0
  | insert :: rest => do
      let affected ← insert.execute.unwrap
      let total ← executeAll rest
      pure (affected + total)

theorem executeAll_append {first second : List InsertStatement} {db middle final : Db}
    {script rest last : Script} {firstTotal secondTotal : ℕ}
    (firstRan : Session.run (executeAll first) db script = .done firstTotal middle rest)
    (secondRan : Session.run (executeAll second) middle rest = .done secondTotal final last) :
    ∃ total, Session.run (executeAll (first ++ second)) db script = .done total final last := by
  induction first generalizing db script firstTotal with
  | nil =>
      cases firstRan
      exact ⟨secondTotal, secondRan⟩
  | cons insert later ih =>
      obtain ⟨affected, next, left, insertRan, firstRan⟩ := Session.done_of_run_bind firstRan
      obtain ⟨remaining, reached, lastRest, laterRan, firstRan⟩ := Session.done_of_run_bind firstRan
      cases firstRan
      obtain ⟨total, both⟩ := ih laterRan
      refine ⟨affected + total, ?_⟩
      rw [List.cons_append, executeAll, Session.run_bind_of_done insertRan,
        Session.run_bind_of_done both]
      rfl

/-- What holds of single statements that succeed, and composes, holds of all. -/
theorem executeAll_induction {motive : List InsertStatement → Db → Db → Prop}
    (nil : ∀ db, motive [] db db)
    (cons : ∀ insert rest db middle final, Leaves db middle insert →
      motive rest middle final → motive (insert :: rest) db final)
    {inserts : List InsertStatement} {db final : Db} {script rest : Script} {total : ℕ}
    (ran : Session.run (executeAll inserts) db script = .done total final rest) :
    motive inserts db final := by
  induction inserts generalizing db script total with
  | nil =>
      cases ran
      exact nil final
  | cons insert later ih =>
      obtain ⟨affected, middle, left, firstRan, ran⟩ := Session.done_of_run_bind ran
      obtain ⟨remaining, last, lastRest, laterRan, ran⟩ := Session.done_of_run_bind ran
      cases ran
      have executed := Session.executed_of_run_statement (Session.done_of_run_unwrap firstRan)
      exact cons insert later db middle final (leaves_of_effect executed) (ih laterRan)

/-- Tables no statement inserts into. -/
structure SameOthers (db after : Db) : Prop where
  subnetworks : after.subnetworks = db.subnetworks
  subnetworksNextId : after.subnetworksNextId = db.subnetworksNextId
  blocks : after.blocks = db.blocks
  blockParent : after.blockParent = db.blockParent

theorem Leaves.sameOthers {insert : InsertStatement} {db after : Db}
    (leaves : Leaves db after insert) : SameOthers db after := by
  cases insert with
  | addressesFromInputs useTx transactionIds =>
      obtain ⟨rows, _, rfl⟩ := leaves
      exact ⟨rfl, rfl, rfl, rfl⟩
  | scriptsFromInputs useTx transactionIds =>
      obtain ⟨rows, _, rfl⟩ := leaves
      exact ⟨rfl, rfl, rfl, rfl⟩
  | _ =>
      cases leaves
      exact ⟨rfl, rfl, rfl, rfl⟩

theorem sameOthers_of_executeAll {inserts : List InsertStatement} {db final : Db}
    {script rest : Script} {total : ℕ}
    (ran : Session.run (executeAll inserts) db script = .done total final rest) :
    SameOthers db final :=
  executeAll_induction (motive := fun _ db final => SameOthers db final)
    (fun _ => ⟨rfl, rfl, rfl, rfl⟩)
    (fun _ _ _ _ _ leaves later =>
      have first := leaves.sameOthers
      ⟨later.subnetworks.trans first.subnetworks,
        later.subnetworksNextId.trans first.subnetworksNextId,
        later.blocks.trans first.blocks, later.blockParent.trans first.blockParent⟩) ran

end InsertStatement

end VecnoIndexer
