import VecnoIndexer.Blocks.FetchBlocks
import VecnoIndexer.Collections.Sorting
import VecnoIndexer.Transactions.Statements

/-!
# The transaction processor

One iteration of the loop of `process_transactions`.  The transactions of a popped
block are mapped unless the cache knows their id, and kept until the batch is large or
old enough.  A commit inserts them by statements that run concurrently: first what does
not depend on other tables, then the relation to the blocks and the addresses of the
outputs that are spent.
-/

namespace VecnoIndexer

open VecnoIndexer.Sql
open VecnoIndexer.Collections

/-- The subnetwork keys known, the newest first. -/
abbrev SubnetworkMap := List (String × Int)

/-- The rows a transaction is mapped to. -/
structure TransactionRows where
  transaction : Transaction
  inputs : List TransactionInput
  outputs : List TransactionOutput
  addresses : List AddressTransaction
  scripts : List ScriptTransaction
  deriving DecidableEq, Repr

/-- The local variables of `process_transactions`. The sets of address rows are listed in
order of insertion. -/
structure TransactionLoop where
  subnetworkMap : SubnetworkMap
  txIdCache : List Hash
  transactions : List Transaction
  blockTx : List BlockTransaction
  txInputs : List TransactionInput
  txOutputs : List TransactionOutput
  txAddressTransactions : List AddressTransaction
  txScriptTransactions : List ScriptTransaction
  checkpointBlocks : List CheckpointBlock
  lastCommitTime : ℕ
  deriving DecidableEq, Repr

/-- What an iteration meets. -/
structure TransactionsInput where
  popped : Option TransactionData
  /-- The entries the cache has lost before the lookup of each transaction. -/
  forgotten : ℕ → Hash → Bool
  now : ℕ
  commitNow : ℕ
  /-- The timestamp of the batch's last block can be formatted. -/
  timestampValid : Bool
  /-- The orders in which the concurrent statements of a commit are executed. -/
  firstOrder : Reordering InsertStatement
  secondOrder : Reordering InsertStatement

/-! ## Options -/

def CliArgs.mapsAddresses (cliArgs : CliArgs) : Bool :=
  !cliArgs.isDisabled .addressesTransactionsTable &&
    !cliArgs.isExcluded .txOutScriptPublicKeyAddress

def CliArgs.mapsScripts (cliArgs : CliArgs) : Bool :=
  !cliArgs.isDisabled .addressesTransactionsTable &&
    (cliArgs.isExcluded .txOutScriptPublicKeyAddress && !cliArgs.isExcluded .txOutScriptPublicKey)

def transactionsBatchSize (batchScale : BatchScale) : ℕ :=
  batchScale.scaled 5000

/-! ## Subnetworks -/

def selectSubnetworks : DbM (List Subnetwork) :=
  statement fun db => .ok (db.subnetworks.rows, db)

/-- `INSERT .. ON CONFLICT DO NOTHING RETURNING id`. The sequence advances even when there
is no row to return. -/
def insertSubnetwork (subnetworkId : String) : DbM Int := do
  let returned ← statement fun db =>
    if InI32 db.subnetworksNextId then
      let row : Subnetwork := ⟨db.subnetworksNextId, subnetworkId⟩
      .ok (if db.subnetworks.Conflicts row then none else some row.id,
        { db with
          subnetworks := db.subnetworks.insertIgnore row
          subnetworksNextId := db.subnetworksNextId + 1 })
    else
      .error .numericValueOutOfRange
  match returned with
  | some id => pure id
  | none => Session.fail .rowNotFound

/-- The key of a subnetwork, with the map that knows it. -/
def subnetworkKey (subnetworkMap : SubnetworkMap) (subnetworkId : String) :
    DbM (Int × SubnetworkMap) :=
  match subnetworkMap.lookup subnetworkId with
  | some key => pure (key, subnetworkMap)
  | none => do
      let key ← (insertSubnetwork subnetworkId).unwrap
      pure (key, (subnetworkId, key) :: subnetworkMap)

/-- The map of the subnetworks loaded. -/
def loadSubnetworks (results : List Subnetwork) : SubnetworkMap :=
  results.foldl (fun known subnetwork => (subnetwork.subnetworkId, subnetwork.id) :: known) []

/-! ## Mapping -/

def RpcTransaction.transactionId (transaction : RpcTransaction) : Option Hash :=
  transaction.verboseData.map RpcTransactionVerboseData.transactionId

/-- The rows of a transaction the cache does not know. -/
def mapRows (cliArgs : CliArgs) (transaction : RpcTransaction) (subnetworkKey : Int) :
    Option TransactionRows := do
  let mapper := VecnoDbMapper.new cliArgs
  let row ← mapper.mapTransaction transaction subnetworkKey
  let inputs ← mapper.mapTransactionInputs transaction
  let outputs ← mapper.mapTransactionOutputs transaction
  let addresses ←
    (if cliArgs.mapsAddresses then VecnoDbMapper.mapTransactionOutputsAddress transaction
    else pure [])
  let scripts ←
    (if cliArgs.mapsScripts then VecnoDbMapper.mapTransactionOutputsScript transaction
    else pure [])
  pure ⟨row, inputs, outputs, addresses, scripts⟩

/-- `set.extend(rows)` for a set of rows that are equal when their keys are. -/
def extendSet {α κ : Type} [DecidableEq κ] (key : α → κ) (set rows : List α) : List α :=
  rows.foldl (fun set row => if key row ∈ set.map key then set else set ++ [row]) set

/-! ## The loop -/

namespace TransactionLoop

/-- The variables before the first iteration. -/
def loaded (now : ℕ) (results : List Subnetwork) : TransactionLoop where
  subnetworkMap := loadSubnetworks results
  txIdCache := []
  transactions := []
  blockTx := []
  txInputs := []
  txOutputs := []
  txAddressTransactions := []
  txScriptTransactions := []
  checkpointBlocks := []
  lastCommitTime := now

def start (now : ℕ) : DbM TransactionLoop := do
  let results ← selectSubnetworks.unwrap
  pure (loaded now results)

/-- The notification of a block. -/
def notification (data : TransactionData) : CheckpointBlock where
  origin := .transactions
  hash := data.blockHash
  timestamp := data.blockTimestamp.toNat
  daaScore := data.blockDaaScore.toNat
  blueScore := data.blockBlueScore.toNat

/-- Keep the rows of a transaction and remember its id. -/
def add (loop : TransactionLoop) (transactionId : Hash) (rows : TransactionRows) :
    TransactionLoop :=
  { loop with
    transactions := loop.transactions ++ [rows.transaction]
    txInputs := loop.txInputs ++ rows.inputs
    txOutputs := loop.txOutputs ++ rows.outputs
    txAddressTransactions :=
      extendSet AddressTransaction.primaryKey loop.txAddressTransactions rows.addresses
    txScriptTransactions :=
      extendSet ScriptTransaction.primaryKey loop.txScriptTransactions rows.scripts
    txIdCache := transactionId :: loop.txIdCache }

/-- Take one transaction into the batch. Only the block relation is kept of one whose id is
in the cache. Mapping it may panic. -/
def collect (cliArgs : CliArgs) (loop : TransactionLoop) (forgotten : Hash → Bool)
    (transaction : RpcTransaction) (subnetworkKey : Int) : Option TransactionLoop := do
  let transactionId ← transaction.transactionId
  let loop := { loop with txIdCache := loop.txIdCache.filter fun id => !forgotten id }
  let collected ←
    (if transactionId ∈ loop.txIdCache then pure loop
    else (mapRows cliArgs transaction subnetworkKey).map (loop.add transactionId))
  let relation ← VecnoDbMapper.mapBlockTransaction transaction
  pure { collected with blockTx := collected.blockTx ++ [relation] }

def receiveTransaction (cliArgs : CliArgs) (loop : TransactionLoop) (forgotten : Hash → Bool)
    (transaction : RpcTransaction) : DbM TransactionLoop := do
  let (key, subnetworkMap) ← subnetworkKey loop.subnetworkMap transaction.subnetworkId
  match collect cliArgs { loop with subnetworkMap } forgotten transaction key with
  | some collected => pure collected
  | none => Session.die

def receiveAll (cliArgs : CliArgs) (loop : TransactionLoop) (forgotten : ℕ → Hash → Bool) :
    List RpcTransaction → DbM TransactionLoop
  | [] => pure loop
  | transaction :: rest => do
      let received ← loop.receiveTransaction cliArgs (forgotten 0) transaction
      received.receiveAll cliArgs (fun n => forgotten (n + 1)) rest

/-- Take a popped block into the batch. -/
def receive (cliArgs : CliArgs) (loop : TransactionLoop) (forgotten : ℕ → Hash → Bool)
    (data : TransactionData) : DbM TransactionLoop :=
  { loop with checkpointBlocks := loop.checkpointBlocks ++ [notification data] }.receiveAll
    cliArgs forgotten data.transactions

/-- The batch is committed. -/
def IsDue (cliArgs : CliArgs) (loop : TransactionLoop) (now : ℕ) : Prop :=
  transactionsBatchSize cliArgs.batchScale ≤ loop.blockTx.length ∨
    (loop.blockTx ≠ [] ∧ 2 < secondsSince loop.lastCommitTime now)

instance (cliArgs : CliArgs) (loop : TransactionLoop) (now : ℕ) :
    Decidable (loop.IsDue cliArgs now) :=
  inferInstanceAs (Decidable (_ ∨ _))

/-! ## A commit -/

section Commit

variable (cliArgs : CliArgs) (loop : TransactionLoop)

/-- `tx_outputs_map`, where a later output replaces an earlier one. -/
def pendingOutput (transactionId : Hash) (index : Int) : Option TransactionOutput :=
  loop.txOutputs.reverse.find? fun output =>
    decide (output.transactionId = transactionId ∧ output.index = index)

/-- Resolve an input from the outputs of the batch. It panics without an outpoint. -/
def preResolve (input : TransactionInput) : Option TransactionInput := do
  let transactionId ← input.previousOutpointHash
  let index ← input.previousOutpointIndex
  match loop.pendingOutput transactionId index with
  | some output => pure { input with
      previousOutpointScript := output.scriptPublicKey
      previousOutpointAmount := output.amount }
  | none => pure input

/-- The inputs of the batch as they are inserted. -/
def resolvedInputs : Option (List TransactionInput) :=
  if !cliArgs.isDisabled .transactionsInputsTable &&
      cliArgs.isEnabled .transactionsInputsResolve then
    loop.txInputs.mapM loop.preResolve
  else
    some loop.txInputs

/-- `insert_txs` -/
def transactionInserts : List InsertStatement :=
  if cliArgs.isDisabled .transactionsTable then []
  else sortedChunks (min (cliArgs.batchScale.scaled 250) 8000)
    (fun row : Transaction => row.transactionId.toNat) .transactions loop.transactions

/-- `insert_output_tx_addr` and `insert_output_tx_script` -/
def outputAddressInserts : List InsertStatement :=
  if cliArgs.mapsAddresses then
    sortedChunks (min (cliArgs.batchScale.scaled 250) 20000)
      (fun row : AddressTransaction => toLex (row.address, row.transactionId.toNat)) .addresses
      loop.txAddressTransactions
  else if cliArgs.mapsScripts then
    sortedChunks (min (cliArgs.batchScale.scaled 250) 20000)
      (fun row : ScriptTransaction =>
        toLex (row.scriptPublicKey.map UInt8.toNat, row.transactionId.toNat)) .scripts
      loop.txScriptTransactions
  else
    []

/-- `insert_tx_inputs` -/
def inputInserts (txInputs : List TransactionInput) : List InsertStatement :=
  if cliArgs.isDisabled .transactionsInputsTable then []
  else sortedChunks (min (cliArgs.batchScale.scaled 250) 8000)
    (fun row : TransactionInput => toLex (row.transactionId.toNat, row.index))
    (.inputs (cliArgs.isEnabled .transactionsInputsResolve)) txInputs

/-- `insert_tx_outputs` -/
def outputInserts : List InsertStatement :=
  if cliArgs.isDisabled .transactionsOutputsTable then []
  else sortedChunks (min (cliArgs.batchScale.scaled 250) 10000)
    (fun row : TransactionOutput => toLex (row.transactionId.toNat, row.index)) .outputs
    loop.txOutputs

/-- `insert_block_txs` -/
def blockTransactionInserts : List InsertStatement :=
  if cliArgs.isDisabled .blocksTransactionsTable then []
  else sortedChunks (min (cliArgs.batchScale.scaled 500) 30000)
    (fun row : BlockTransaction => toLex (row.blockHash.toNat, row.transactionId.toNat))
    .blocksTransactions loop.blockTx

/-- `insert_input_tx_addr` and `insert_input_tx_script` -/
def inputAddressInserts : List InsertStatement :=
  let useTxForTime := cliArgs.isExcluded .txInBlockTime
  let transactionIds := chunks (min (cliArgs.batchScale.scaled 250) 8000)
    (loop.transactions.map Transaction.transactionId)
  if cliArgs.mapsAddresses then transactionIds.map (.addressesFromInputs useTxForTime)
  else if cliArgs.mapsScripts then transactionIds.map (.scriptsFromInputs useTxForTime)
  else []

/-- The statements executed before the others are started. -/
def firstInserts (txInputs : List TransactionInput) : List InsertStatement :=
  loop.transactionInserts cliArgs ++ loop.outputAddressInserts cliArgs ++
    inputInserts cliArgs txInputs ++ loop.outputInserts cliArgs

/-- The statements that need the first ones. -/
def secondInserts : List InsertStatement :=
  loop.blockTransactionInserts cliArgs ++ loop.inputAddressInserts cliArgs

/-- The rows of a batch. The statements started before a panic may still be executed. -/
def insertBatch (input : TransactionsInput) : DbM Unit :=
  match loop.resolvedInputs cliArgs with
  | none => do
      let _started ← InsertStatement.executeAll (input.firstOrder.order
        (loop.transactionInserts cliArgs ++ loop.outputAddressInserts cliArgs))
      Session.die
  | some txInputs => do
      let _first ← InsertStatement.executeAll
        (input.firstOrder.order (loop.firstInserts cliArgs txInputs))
      let _second ← InsertStatement.executeAll
        (input.secondOrder.order (loop.secondInserts cliArgs))
      pure ()

/-- The variables after a commit. -/
def cleared (now : ℕ) : TransactionLoop :=
  { loop with
    transactions := []
    blockTx := []
    txInputs := []
    txOutputs := []
    txAddressTransactions := []
    txScriptTransactions := []
    checkpointBlocks := []
    lastCommitTime := now }

/-- A commit. Its notifications are pushed at the end, so they are those of the batch. -/
def commit (input : TransactionsInput) : DbM TransactionLoop := do
  loop.insertBatch cliArgs input
  if input.timestampValid then pure (loop.cleared input.commitNow) else Session.die

end Commit

/-- One iteration, with the notifications it pushes. -/
def iterate (cliArgs : CliArgs) (loop : TransactionLoop) (input : TransactionsInput) :
    DbM (TransactionLoop × List CheckpointBlock) :=
  match input.popped with
  | none => pure (loop, [])
  | some data => do
      let received ← loop.receive cliArgs input.forgotten data
      if received.IsDue cliArgs input.now then do
        let committed ← received.commit cliArgs input
        pure (committed, received.checkpointBlocks)
      else
        pure (received, [])

end TransactionLoop

end VecnoIndexer
