import VecnoIndexer.Checkpoint.Core
import VecnoIndexer.Database.Pieces
import Mathlib.Data.List.Sort

/-!
# The virtual chain processor

One poll of `process_virtual_chain`: the answer of the node is truncated by the
tip distance, the acceptances of the removed blocks are deleted, those of the
added blocks are inserted in concurrent chunks, the tip distance adapts, and the
start moves to the last added block.
-/

namespace VecnoIndexer

open VecnoIndexer.Sql
open VecnoIndexer.Collections

/-- `RpcAcceptedTransactionIds` -/
structure AcceptedTransactionIds where
  acceptingBlockHash : Hash
  acceptedTransactionIds : List Hash
  deriving DecidableEq, Repr

/-- The answer to `get_virtual_chain_from_block`. -/
structure VirtualChain where
  removedChainBlockHashes : List Hash
  addedChainBlockHashes : List Hash
  acceptedTransactionIds : List AcceptedTransactionIds
  deriving DecidableEq, Repr

/-- What is read of a block header. -/
structure BlockHeader where
  hash : Hash
  timestamp : ℕ
  daaScore : ℕ
  blueScore : ℕ
  deriving DecidableEq, Repr

/-! ## Deleting and inserting acceptances -/

/-- `block_hash = ANY($1)`. A NULL block equals none. -/
def TransactionAcceptance.InBlocks (blockHashes : List Hash) (row : TransactionAcceptance) :
    Prop :=
  match row.blockHash with
  | some hash => hash ∈ blockHashes
  | none => False

instance (blockHashes : List Hash) :
    DecidablePred (TransactionAcceptance.InBlocks blockHashes) := fun row =>
  match rowBlock : row.blockHash with
  | some hash =>
      decidable_of_iff (hash ∈ blockHashes) (by simp [TransactionAcceptance.InBlocks, rowBlock])
  | none => isFalse (by simp [TransactionAcceptance.InBlocks, rowBlock])

theorem not_inBlocks_iff {blockHashes : List Hash} {row : TransactionAcceptance} :
    ¬ row.InBlocks blockHashes ↔
      ∀ hash, row.blockHash = some hash → hash ∉ blockHashes := by
  cases rowBlock : row.blockHash <;> simp [TransactionAcceptance.InBlocks, rowBlock]

/-- `DELETE FROM transactions_acceptances WHERE block_hash = ANY($1)` -/
def deleteAcceptances (blockHashes : List Hash) (db : Db) : Nat × Db :=
  let condition := TransactionAcceptance.InBlocks blockHashes
  (db.transactionsAcceptances.countWhere condition,
    { db with transactionsAcceptances := db.transactionsAcceptances.deleteWhere condition })

theorem mem_deleteAcceptances {blockHashes : List Hash} {db : Db} {row : TransactionAcceptance} :
    row ∈ (deleteAcceptances blockHashes db).2.transactionsAcceptances ↔
      row ∈ db.transactionsAcceptances ∧
        ∀ hash, row.blockHash = some hash → hash ∉ blockHashes := by
  rw [deleteAcceptances, Table.mem_deleteWhere, not_inBlocks_iff]

def deleteTransactionAcceptances (blockHashes : List Hash) : DbM Nat :=
  statement fun db => .ok (deleteAcceptances blockHashes db)

/-- `INSERT INTO transactions_acceptances .. ON CONFLICT DO NOTHING` -/
def insertAcceptances (rows : List TransactionAcceptance) (db : Db) : Nat × Db :=
  let inserted := db.transactionsAcceptances.insertAll rows
  (inserted.rows.length - db.transactionsAcceptances.rows.length,
    { db with transactionsAcceptances := inserted })

def insertTransactionAcceptances (rows : List TransactionAcceptance) : DbM Nat :=
  statement fun db => .ok (insertAcceptances rows db)

def removeBatchSize (batchScale : BatchScale) : ℕ :=
  min (batchScale.scaled 500) 7500

def removeChainBlocks (batchScale : BatchScale) (removedHashes : List Hash) : DbM Nat :=
  forPieces deleteTransactionAcceptances (chunks (removeBatchSize batchScale) removedHashes)

def acceptBatchSize (batchScale : BatchScale) : ℕ :=
  min (batchScale.scaled 1000) 7500

/-- The rows of accepted transactions, block by block. -/
def acceptanceRows (acceptedTransactionIds : List AcceptedTransactionIds) :
    List TransactionAcceptance :=
  acceptedTransactionIds.flatMap fun accepted =>
    accepted.acceptedTransactionIds.map fun transactionId =>
      ⟨some transactionId, some accepted.acceptingBlockHash⟩

/-- `sort_by(|a, b| a.transaction_id.cmp(&b.transaction_id))` -/
def sortByTransactionId (rows : List TransactionAcceptance) : List TransactionAcceptance :=
  rows.insertionSort fun first second =>
    (first.transactionId.map BitVec.toNat).getD 0 ≤ (second.transactionId.map BitVec.toNat).getD 0

/-- The rows of the concurrent statements, in the order in which they complete. -/
def acceptancePieces (batchScale : BatchScale)
    (completion : Reordering (List TransactionAcceptance))
    (acceptedTransactionIds : List AcceptedTransactionIds) : List (List TransactionAcceptance) :=
  let acceptedTransactions := sortByTransactionId (acceptanceRows acceptedTransactionIds)
  completion.order (chunks (acceptBatchSize batchScale) acceptedTransactions)

/-- `accept_transactions` -/
def acceptTransactions (batchScale : BatchScale)
    (completion : Reordering (List TransactionAcceptance))
    (acceptedTransactionIds : List AcceptedTransactionIds) : DbM Nat :=
  forPieces insertTransactionAcceptances
    (acceptancePieces batchScale completion acceptedTransactionIds)

/-- `add_chain_blocks` -/
def addChainBlocks (batchScale : BatchScale) (addedHashes : List Hash) : DbM Nat :=
  forPieces insertTransactionAcceptances
    ((chunks (removeBatchSize batchScale) addedHashes).map fun chunk =>
      chunk.map fun hash => ⟨none, some hash⟩)

/-! ## The tip distance -/

/-- The local variables of `process_virtual_chain`. -/
structure VcpState where
  startHash : Hash
  synced : Bool
  tipDistance : ℕ
  /-- Newest first. -/
  tipDistanceHistory : List Bool
  deriving DecidableEq, Repr

namespace VcpState

def start (settings : Settings) : VcpState where
  startHash := settings.checkpoint
  synced := false
  tipDistance := if settings.cliArgs.isEnabled .dynamicVcpTipDistance then 10 else 0
  tipDistanceHistory := []

/-- The number of polls the history covers. -/
def tipDistanceWindow (cliArgs : CliArgs) : ℕ :=
  max (cliArgs.vcpWindow * 1000 / cliArgs.vcpInterval) 1

/-- More than two reorgs within the window widen the distance, none narrows it. -/
def adjustTipDistance (cliArgs : CliArgs) (vcp : VcpState) (rowsRemoved : ℕ) : VcpState :=
  if cliArgs.isEnabled .dynamicVcpTipDistance then
    let window := tipDistanceWindow cliArgs
    let kept :=
      if vcp.tipDistanceHistory.length = window then vcp.tipDistanceHistory.dropLast
      else vcp.tipDistanceHistory
    let history := decide (0 < rowsRemoved) :: kept
    let reorgsCount := history.count true
    if 3 ≤ reorgsCount then
      { vcp with
        tipDistance := vcp.tipDistance + 1
        tipDistanceHistory := false :: kept }
    else if vcp.synced ∧ reorgsCount = 0 ∧ 0 < vcp.tipDistance then
      { vcp with
        tipDistance := vcp.tipDistance - 1
        tipDistanceHistory := if history.length = window then true :: kept else history }
    else
      { vcp with tipDistanceHistory := history }
  else
    vcp

@[simp]
theorem adjustTipDistance_startHash (cliArgs : CliArgs) (vcp : VcpState) (rowsRemoved : ℕ) :
    (vcp.adjustTipDistance cliArgs rowsRemoved).startHash = vcp.startHash := by
  unfold adjustTipDistance
  split
  · simp only
    split_ifs <;> rfl
  · rfl

end VcpState

/-! ## One poll -/

/-- What a poll reads from outside: the node's answer, if it gives one, its
answers to `get_block`, whether a shutdown ends the wait for the block processor,
and the order in which the inserts complete. -/
structure VcpInput where
  response : Option VirtualChain
  getBlock : Hash → Option BlockHeader
  shutdown : Bool
  completion : Reordering (List TransactionAcceptance)

/-- The notification of the last block of a batch. -/
def vcpCheckpoint (header : BlockHeader) : CheckpointBlock where
  origin := .vcp
  hash := header.hash
  timestamp := header.timestamp
  daaScore := header.daaScore
  blueScore := header.blueScore

/-- The statements of a batch; they return the number of rows removed. -/
def commitBatch (cliArgs : CliArgs) (completion : Reordering (List TransactionAcceptance))
    (removed added : List Hash) (accepted : List AcceptedTransactionIds) : DbM Nat := do
  let rowsRemoved ← removeChainBlocks cliArgs.batchScale removed
  if cliArgs.isDisabled .transactionAcceptance then
    let _rowsAdded ← addChainBlocks cliArgs.batchScale added
    pure rowsRemoved
  else
    let _rowsAdded ← acceptTransactions cliArgs.batchScale completion accepted
    pure rowsRemoved

/-- The branch for enough added blocks. Slicing more accepted lists than the
node sent panics, as does a failed `get_block`. -/
def pollBatch (cliArgs : CliArgs) (vcp : VcpState) (input : VcpInput) (response : VirtualChain) :
    DbM (VcpState × Option CheckpointBlock) :=
  let count := response.addedChainBlockHashes.length - vcp.tipDistance
  let added := response.addedChainBlockHashes.take count
  match added.getLast?.bind input.getBlock with
  | none => Session.die
  | some header =>
      if input.shutdown then
        pure (vcp, none)
      else if cliArgs.isDisabled .transactionAcceptance = false ∧
          response.acceptedTransactionIds.length < count then do
        let _rowsRemoved ← removeChainBlocks cliArgs.batchScale response.removedChainBlockHashes
        Session.die
      else do
        let rowsRemoved ← commitBatch cliArgs input.completion response.removedChainBlockHashes
          added (response.acceptedTransactionIds.take count)
        pure ({ vcp.adjustTipDistance cliArgs rowsRemoved with startHash := header.hash },
          some (vcpCheckpoint header))

/-- The branch on the number of added blocks. -/
def pollResponse (cliArgs : CliArgs) (vcp : VcpState) (input : VcpInput)
    (response : VirtualChain) : DbM (VcpState × Option CheckpointBlock) :=
  if vcp.tipDistance < response.addedChainBlockHashes.length then
    pollBatch cliArgs vcp input response
  else
    pure (vcp, none)

/-- One iteration of the loop after the start was notified, with the
notification it pushes. -/
def pollVirtualChain (cliArgs : CliArgs) (vcp : VcpState) (input : VcpInput) :
    DbM (VcpState × Option CheckpointBlock) :=
  match input.response with
  | none => pure (vcp, none)
  | some response => do
      let (polled, checkpoint) ← pollResponse cliArgs vcp input response
      let synced := polled.synced || decide (response.addedChainBlockHashes.length < 200)
      pure ({ polled with synced }, checkpoint)

end VecnoIndexer
