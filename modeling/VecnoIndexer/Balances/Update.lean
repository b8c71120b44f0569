import VecnoIndexer.Collections.Chunks
import VecnoIndexer.Collections.Reordering
import VecnoIndexer.Collections.Totals
import VecnoIndexer.Database.Models

/-!
# Updating live balances between two checkpoints

The program of `balance_updater.rs` and of `update_balances_incremental`: two
grouped joins over the interval between two checkpoints' blue scores, the merge
of their rows into deltas, the aggregation per address, and the chunked upserts.
The program is built with overflow checks, so `i64` arithmetic that overflows is a
panic, which ends the process.
-/

namespace VecnoIndexer

open VecnoIndexer.Sql
open VecnoIndexer.Collections

/-! ## The interval queries -/

/-- The `blocks` row joined to a transaction through its acceptance. Both joins
are on unique keys, so there is at most one; an acceptance without a block joins
to none. -/
def Db.acceptingBlock (db : Db) (transactionId : Hash) : Option Block := do
  let acceptance ← db.transactionsAcceptances.lookup transactionId
  let blockHash ← acceptance.blockHash
  db.blocks.lookup blockHash

/-- What the interval queries read of one joined row. -/
structure DeltaSource where
  address : Option String
  amount : Option Int
  blueScore : Option Int
  deriving DecidableEq, Repr

/-- `FROM transactions_outputs o JOIN transactions_acceptances a .. JOIN blocks b ..` -/
def createdSources (db : Db) : List DeltaSource :=
  db.transactionsOutputs.rows.filterMap fun output =>
    (db.acceptingBlock output.transactionId).map fun block =>
      ⟨output.scriptPublicKeyAddress, output.amount, block.blueScore⟩

/-- The output row an input references, if both columns of the outpoint are set
and the row exists. -/
def Db.previousOutput (db : Db) (input : TransactionInput) : Option TransactionOutput := do
  let transactionId ← input.previousOutpointHash
  let index ← input.previousOutpointIndex
  db.transactionsOutputs.lookup (transactionId, index)

/-- `FROM transactions_inputs i JOIN transactions_acceptances a .. JOIN blocks b ..
JOIN transactions_outputs o ..` -/
def spentSources (db : Db) : List DeltaSource :=
  db.transactionsInputs.rows.filterMap fun input => do
    let block ← db.acceptingBlock input.transactionId
    let output ← db.previousOutput input
    pure ⟨output.scriptPublicKeyAddress, output.amount, block.blueScore⟩

/-- `b.blue_score > f.blue_score AND b.blue_score <= t.blue_score`, which NULL
scores do not satisfy. -/
def scoreBetween (blueScore fromScore toScore : Option Int) : Bool :=
  match blueScore, fromScore, toScore with
  | some score, some lower, some upper => decide (lower < score ∧ score ≤ upper)
  | _, _, _ => false

/-- The rows an interval query selects before grouping. The two score
sub-selects are cross joined, so nothing is selected when one is empty. -/
def selectSources (db : Db) (sources : List DeltaSource) (fromHash toHash : Hash) :
    List DeltaSource :=
  match db.blocks.lookup fromHash, db.blocks.lookup toHash with
  | some fromBlock, some toBlock =>
      sources.filter fun source =>
        scoreBetween source.blueScore fromBlock.blueScore toBlock.blueScore &&
          source.address.isSome
  | _, _ => []

/-- `COALESCE(SUM(o.amount), 0)` over the rows of one address. -/
def totalAmount (sources : List DeltaSource) (address : String) : Int :=
  ((sources.filter fun source => source.address = some address).map fun source =>
    source.amount.getD 0).sum

/-- One row of an interval query's result. `WHERE` and `COALESCE` leave neither
column NULL. -/
structure DeltaRow where
  address : String
  totalAmount : Int
  deriving DecidableEq, Repr

/-- `SELECT address, COALESCE(SUM(amount), 0)::BIGINT .. GROUP BY address`. -/
def groupByAddress (sources : List DeltaSource) : Except SqlError (List DeltaRow) :=
  let addresses := (sources.filterMap DeltaSource.address).dedup
  if ∀ address ∈ addresses, InI64 (totalAmount sources address) then
    .ok (addresses.map fun address => ⟨address, totalAmount sources address⟩)
  else
    .error .numericValueOutOfRange

/-- One interval query. A checkpoint is the text of a hash; of other texts, which are never
saved, `decode` would accept some that name no block. -/
def selectDeltas (sources : Db → List DeltaSource) (fromCheckpoint toCheckpoint : String) :
    DbM (List DeltaRow) :=
  statement fun db =>
    match Hash.fromStr fromCheckpoint, Hash.fromStr toCheckpoint with
    | some fromHash, some toHash =>
        (groupByAddress (selectSources db (sources db) fromHash toHash)).map fun rows => (rows, db)
    | _, _ => .error .invalidTextRepresentation

/-! ## `update_balances_incremental` -/

/-- `COALESCE(b.balance, 0)` of the row of an address. -/
def balanceIn (balances : Table Balance.primaryKey) (address : String) : Int :=
  ((balances.lookup address).map Balance.balance).getD 0

def Db.balanceOf (db : Db) (address : String) : Int :=
  balanceIn db.balances address

/-- The statement of one chunk: add each delta to the balance of its address and
upsert the results. -/
def upsertBalances (chunk : List (String × Int)) (db : Db) : Except SqlError (Nat × Db) :=
  let rows : List Balance := chunk.map fun entry => ⟨entry.1, db.balanceOf entry.1 + entry.2⟩
  if ∀ row ∈ rows, InI64 row.balance then
    .ok (rows.length, { db with balances := rows.foldl Table.upsert db.balances })
  else
    .error .numericValueOutOfRange

/-- The chunk loop; each chunk is a statement of its own. -/
def upsertBalanceChunks : List (List (String × Int)) → DbM Nat
  | [] => pure 0
  | chunk :: rest => do
      let affected ← statement (upsertBalances chunk)
      let total ← upsertBalanceChunks rest
      pure (affected + total)

def incrementalChunkSize : Nat := 25000

/-- Sum the deltas per address, with a panic at an overflow, and drop the zero sums. -/
def aggregateDeltas (balanceDeltas : List Balance) : Option (List (String × Int)) :=
  (addAmounts []
      (balanceDeltas.map fun delta => (delta.scriptPublicKeyAddress, delta.balance))).map
    fun aggregated => aggregated.filter fun entry => entry.2 ≠ 0

/-- `update_balances_incremental`, with the order in which the aggregated map is
read. -/
def updateBalancesIncremental (hashOrder : Reordering (String × Int))
    (balanceDeltas : List Balance) : DbM Nat :=
  if balanceDeltas.isEmpty then
    pure 0
  else do
    let aggregated ← Session.orDie (aggregateDeltas balanceDeltas)
    let entries := hashOrder.order aggregated
    upsertBalanceChunks (chunks incrementalChunkSize entries)

/-! ## `update_balances_from_utxo_changes` -/

/-- The negated amount of a spent row. -/
def negateRow (row : DeltaRow) : Option Balance :=
  (checkedI64 (-row.totalAmount)).map fun change => ⟨row.address, change⟩

/-- The deltas of the rows of both queries: created amounts, then negated spent
amounts, without the zero rows. -/
def mergeDeltas (created spent : List DeltaRow) : Option (List Balance) :=
  ((spent.filter fun row => row.totalAmount ≠ 0).mapM negateRow).map fun changes =>
    ((created.filter fun row => row.totalAmount ≠ 0).map fun row =>
      ⟨row.address, row.totalAmount⟩) ++ changes

/-- The log sorts the deltas by `balance.abs()`, which panics at the least `i64`. A single
delta is not compared. -/
def sortByMagnitude (deltas : List Balance) : Option Unit :=
  if 2 ≤ deltas.length then
    (deltas.mapM fun delta => checkedI64 delta.balance.natAbs).map fun _ => ()
  else
    some ()

/-- What follows the two queries. -/
def applyDeltas (hashOrder : Reordering (String × Int)) (created spent : List DeltaRow) :
    DbM Unit := do
  let deltas ← Session.orDie (mergeDeltas created spent)
  if deltas.isEmpty then
    pure ()
  else
    Session.orDie (sortByMagnitude deltas)
    let _updated ← updateBalancesIncremental hashOrder deltas
    pure ()

def updateBalancesFromUtxoChanges (hashOrder : Reordering (String × Int))
    (fromCheckpoint toCheckpoint : String) : DbM Unit := do
  let created ← selectDeltas createdSources fromCheckpoint toCheckpoint
  let spent ← selectDeltas spentSources fromCheckpoint toCheckpoint
  applyDeltas hashOrder created spent

/-! ## What the statements leave alone -/

theorem keeps_selectDeltas (sources : Db → List DeltaSource)
    (fromCheckpoint toCheckpoint : String) (property : Db → Prop) :
    (selectDeltas sources fromCheckpoint toCheckpoint).Keeps property := by
  apply Session.keeps_statement
  intro db rows after holds executed
  split at executed
  · cases grouped : groupByAddress (selectSources db (sources db) _ _) with
    | error error =>
        rw [grouped] at executed
        contradiction
    | ok groups =>
        rw [grouped] at executed
        cases executed
        exact holds
  · contradiction

/-! An update writes balances only. -/

section Frame

variable {property : Db → Prop}
  (frame : ∀ db balances, property db → property { db with balances })

include frame

theorem keeps_upsertBalanceChunks (pieces : List (List (String × Int))) :
    (upsertBalanceChunks pieces).Keeps property := by
  induction pieces with
  | nil => exact Session.keeps_pure 0 _
  | cons piece rest ih =>
      have first : (statement (upsertBalances piece)).Keeps property := by
        apply Session.keeps_statement
        intro db count after holds executed
        simp only [upsertBalances] at executed
        split at executed
        · cases executed
          exact frame db _ holds
        · contradiction
      exact first.bind fun _ => ih.bind fun _ => Session.keeps_pure _ _

theorem keeps_updateBalancesIncremental (hashOrder : Reordering (String × Int))
    (balanceDeltas : List Balance) :
    (updateBalancesIncremental hashOrder balanceDeltas).Keeps property := by
  unfold updateBalancesIncremental
  split
  · exact Session.keeps_pure 0 property
  · exact (Session.keeps_orDie _ property).bind fun aggregated =>
      keeps_upsertBalanceChunks frame _

theorem keeps_applyDeltas (hashOrder : Reordering (String × Int)) (created spent : List DeltaRow) :
    (applyDeltas hashOrder created spent).Keeps property := by
  apply (Session.keeps_orDie _ property).bind
  intro deltas
  split
  · exact Session.keeps_pure () property
  · apply (Session.keeps_orDie _ property).bind
    intro _
    exact (keeps_updateBalancesIncremental frame hashOrder deltas).bind fun _ =>
      Session.keeps_pure () property

end Frame

end VecnoIndexer
