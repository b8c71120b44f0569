import VecnoIndexer.Database.Hash
import Mathlib.Data.Rat.Floor
import Mathlib.Tactic.NormNum

/-!
# Command-line options

The switches of `cli_args.rs` that the modelled components read.  Listing a
feature under `--enable` or `--disable` is what turns it on or off; the mere
absence of the option enables or disables nothing.
-/

namespace VecnoIndexer

/-- `--enable` -/
inductive CliEnable where
  | none
  | dynamicVcpTipDistance
  | transactionsInputsResolve
  | forceUtxoImport
  deriving DecidableEq, Repr

/-- `--disable` -/
inductive CliDisable where
  | none
  | virtualChainProcessing
  | transactionAcceptance
  | transactionProcessing
  | blocksTable
  | blockParentTable
  | blocksTransactionsTable
  | transactionsTable
  | transactionsInputsTable
  | transactionsOutputsTable
  | addressesTransactionsTable
  | initialUtxoImport
  | vcpWaitForSync
  deriving DecidableEq, Repr

/-- `--exclude-fields` -/
inductive CliField where
  | none
  | blockAcceptedIdMerkleRoot
  | blockMergeSetBluesHashes
  | blockMergeSetRedsHashes
  | blockSelectedParentHash
  | blockBits
  | blockBlueWork
  | blockBlueScore
  | blockDaaScore
  | blockHashMerkleRoot
  | blockNonce
  | blockPruningPoint
  | blockTimestamp
  | blockUtxoCommitment
  | blockVersion
  | txSubnetworkId
  | txHash
  | txMass
  | txPayload
  | txBlockTime
  | txInPreviousOutpoint
  | txInSignatureScript
  | txInSigOpCount
  | txInBlockTime
  | txOutAmount
  | txOutScriptPublicKey
  | txOutScriptPublicKeyAddress
  | txOutBlockTime
  deriving DecidableEq, Repr

/-- The networks a node may serve. -/
inductive NetworkType where
  | mainnet
  | testnet
  | devnet
  | simnet
  deriving DecidableEq, Repr

/-- A batch scale `main` accepts, taken as an exact number. -/
structure BatchScale where
  value : ℚ
  lower : 1 / 10 ≤ value
  upper : value ≤ 10

namespace BatchScale

/-- The default of `--batch-scale`. -/
def standard : BatchScale where
  value := 1
  lower := by norm_num
  upper := by norm_num

/-- `(factor as f64 * batch_scale) as usize`. -/
def scaled (batchScale : BatchScale) (factor : ℕ) : ℕ :=
  ⌊(factor : ℚ) * batchScale.value⌋₊

/-- No batch size of at least ten before scaling is scaled down to zero. -/
theorem scaled_pos (batchScale : BatchScale) {factor : ℕ} (large : 10 ≤ factor) :
    0 < batchScale.scaled factor := by
  have factorLarge : (10 : ℚ) ≤ factor := by exact_mod_cast large
  have product : (1 : ℚ) ≤ factor * batchScale.value :=
    calc (1 : ℚ) = 10 * (1 / 10) := by norm_num
      _ ≤ factor * batchScale.value :=
        mul_le_mul factorLarge batchScale.lower (by norm_num) (by linarith)
  exact Nat.floor_pos.mpr product

/-- A batch size is scaled up tenfold at most. -/
theorem scaled_le (batchScale : BatchScale) (factor : ℕ) :
    batchScale.scaled factor ≤ factor * 10 := by
  have factorNonneg : (0 : ℚ) ≤ factor := by positivity
  have product : (factor : ℚ) * batchScale.value ≤ factor * 10 :=
    mul_le_mul_of_nonneg_left batchScale.upper factorNonneg
  exact Nat.floor_le_of_le (by exact_mod_cast product)

end BatchScale

/-- The command line. -/
structure CliArgs where
  rpcUrl : Option String
  p2pUrl : Option String
  network : NetworkType
  batchScale : BatchScale
  batchConcurrency : ℕ
  vcpInterval : ℕ
  vcpWindow : ℕ
  ignoreCheckpoint : Option String
  enable : Option (List CliEnable)
  disable : Option (List CliDisable)
  excludeFields : Option (List CliField)
  forceBalanceRebuild : Bool

namespace CliArgs

/-- The options of a command line without arguments. -/
def standard : CliArgs where
  rpcUrl := none
  p2pUrl := none
  network := .mainnet
  batchScale := .standard
  batchConcurrency := 2
  vcpInterval := 1000
  vcpWindow := 600
  ignoreCheckpoint := none
  enable := none
  disable := none
  excludeFields := none
  forceBalanceRebuild := false

def isEnabled (args : CliArgs) (feature : CliEnable) : Bool :=
  args.enable.any fun enable => enable.contains feature

def isDisabled (args : CliArgs) (feature : CliDisable) : Bool :=
  args.disable.any fun disable => disable.contains feature

def isExcluded (args : CliArgs) (field : CliField) : Bool :=
  match args.excludeFields with
  | some excludeFields => excludeFields.contains field
  | none => false

end CliArgs

/-- What `start_processing` hands to every component. -/
structure Settings where
  cliArgs : CliArgs
  netBps : ℕ
  checkpoint : Hash
  disableVcpWaitForSync : Bool

end VecnoIndexer
