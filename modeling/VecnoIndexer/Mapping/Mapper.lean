import VecnoIndexer.Cli.CliArgs
import VecnoIndexer.Collections.Integers
import VecnoIndexer.Database.Models
import VecnoIndexer.Mapping.Rpc

/-!
# Mapping blocks and transactions to rows

The functions of the `mapping` crate.  An excluded field is stored as NULL.  The
mapping panics, here with no value, when verbose data is missing or a number does
not fit its column; `then_some` computes its argument either way, so excluding a
field does not avoid the panic.
-/

namespace VecnoIndexer

open VecnoIndexer.Collections

/-- `VecnoDbMapper`, which fields are included. -/
structure VecnoDbMapper where
  blockAcceptedIdMerkleRoot : Bool
  blockMergeSetBluesHashes : Bool
  blockMergeSetRedsHashes : Bool
  blockSelectedParentHash : Bool
  blockBits : Bool
  blockBlueWork : Bool
  blockBlueScore : Bool
  blockDaaScore : Bool
  blockHashMerkleRoot : Bool
  blockNonce : Bool
  blockPruningPoint : Bool
  blockTimestamp : Bool
  blockUtxoCommitment : Bool
  blockVersion : Bool
  txSubnetworkId : Bool
  txHash : Bool
  txMass : Bool
  txPayload : Bool
  txBlockTime : Bool
  txInPreviousOutpoint : Bool
  txInSignatureScript : Bool
  txInSigOpCount : Bool
  txInBlockTime : Bool
  txOutAmount : Bool
  txOutScriptPublicKey : Bool
  txOutScriptPublicKeyAddress : Bool
  txOutBlockTime : Bool
  deriving DecidableEq, Repr

/-- `VecnoDbMapper::new` -/
def VecnoDbMapper.new (cliArgs : CliArgs) : VecnoDbMapper where
  blockAcceptedIdMerkleRoot := !cliArgs.isExcluded .blockAcceptedIdMerkleRoot
  blockMergeSetBluesHashes := !cliArgs.isExcluded .blockMergeSetBluesHashes
  blockMergeSetRedsHashes := !cliArgs.isExcluded .blockMergeSetRedsHashes
  blockSelectedParentHash := !cliArgs.isExcluded .blockSelectedParentHash
  blockBits := !cliArgs.isExcluded .blockBits
  blockBlueWork := !cliArgs.isExcluded .blockBlueWork
  blockBlueScore := !cliArgs.isExcluded .blockBlueScore
  blockDaaScore := !cliArgs.isExcluded .blockDaaScore
  blockHashMerkleRoot := !cliArgs.isExcluded .blockHashMerkleRoot
  blockNonce := !cliArgs.isExcluded .blockNonce
  blockPruningPoint := !cliArgs.isExcluded .blockPruningPoint
  blockTimestamp := !cliArgs.isExcluded .blockTimestamp
  blockUtxoCommitment := !cliArgs.isExcluded .blockUtxoCommitment
  blockVersion := !cliArgs.isExcluded .blockVersion
  txSubnetworkId := !cliArgs.isExcluded .txSubnetworkId
  txHash := !cliArgs.isExcluded .txHash
  txMass := !cliArgs.isExcluded .txMass
  txPayload := !cliArgs.isExcluded .txPayload
  txBlockTime := !cliArgs.isExcluded .txBlockTime
  txInPreviousOutpoint := !cliArgs.isExcluded .txInPreviousOutpoint
  txInSignatureScript := !cliArgs.isExcluded .txInSignatureScript
  txInSigOpCount := !cliArgs.isExcluded .txInSigOpCount
  txInBlockTime := !cliArgs.isExcluded .txInBlockTime
  txOutAmount := !cliArgs.isExcluded .txOutAmount
  txOutScriptPublicKey := !cliArgs.isExcluded .txOutScriptPublicKey
  txOutScriptPublicKeyAddress := !cliArgs.isExcluded .txOutScriptPublicKeyAddress
  txOutBlockTime := !cliArgs.isExcluded .txOutBlockTime

/-- `condition.then_some(value)` -/
def thenSome {α : Type} (condition : Bool) (value : α) : Option α :=
  if condition then some value else none

theorem thenSome_eq_some_iff {α : Type} {condition : Bool} {value result : α} :
    thenSome condition value = some result ↔ condition = true ∧ value = result := by
  simp [thenSome]

theorem isSome_thenSome {α : Type} (condition : Bool) (value : α) :
    (thenSome condition value).isSome = condition := by
  cases condition <;> rfl

/-- `nonce.to_be_bytes().to_vec()` -/
def nonceBytes (nonce : UInt64) : Bytes :=
  (List.range 8).map fun position => (nonce >>> (8 * (7 - position)).toUInt64).toUInt8

namespace VecnoDbMapper

variable (mapper : VecnoDbMapper)

/-! ## Blocks -/

def mapBlock (block : RpcBlock) : Option Block := do
  let verboseData ← block.verboseData
  pure {
    hash := block.header.hash
    acceptedIdMerkleRoot :=
      thenSome mapper.blockAcceptedIdMerkleRoot block.header.acceptedIdMerkleRoot
    mergeSetBluesHashes :=
      thenSome (mapper.blockMergeSetBluesHashes && !verboseData.mergeSetBluesHashes.isEmpty)
        verboseData.mergeSetBluesHashes
    mergeSetRedsHashes :=
      thenSome (mapper.blockMergeSetRedsHashes && !verboseData.mergeSetRedsHashes.isEmpty)
        verboseData.mergeSetRedsHashes
    selectedParentHash := thenSome mapper.blockSelectedParentHash verboseData.selectedParentHash
    bits := thenSome mapper.blockBits block.header.bits.toNat
    blueScore := thenSome mapper.blockBlueScore (wrapI64 block.header.blueScore.toNat)
    blueWork := thenSome mapper.blockBlueWork block.header.blueWork
    daaScore := thenSome mapper.blockDaaScore (wrapI64 block.header.daaScore.toNat)
    hashMerkleRoot := thenSome mapper.blockHashMerkleRoot block.header.hashMerkleRoot
    nonce := thenSome mapper.blockNonce (nonceBytes block.header.nonce)
    pruningPoint := thenSome mapper.blockPruningPoint block.header.pruningPoint
    timestamp := thenSome mapper.blockTimestamp (wrapI64 block.header.timestamp.toNat)
    utxoCommitment := thenSome mapper.blockUtxoCommitment block.header.utxoCommitment
    version := thenSome mapper.blockVersion (wrapI16 block.header.version.toNat) }

/-- The parents of the lowest level. -/
def mapBlockParents (block : RpcBlock) : List BlockParent :=
  match block.header.parentsByLevel with
  | [] => []
  | parents :: _ => parents.map fun parent => ⟨block.header.hash, parent⟩

theorem mapBlock_hash {block : RpcBlock} {row : Block} (mapped : mapper.mapBlock block = some row) :
    row.hash = block.header.hash := by
  simp only [mapBlock, Option.bind_eq_bind, Option.bind_eq_some_iff] at mapped
  obtain ⟨verboseData, _, built⟩ := mapped
  cases built
  rfl

theorem mapBlock_blueScore {block : RpcBlock} {row : Block}
    (mapped : mapper.mapBlock block = some row) :
    row.blueScore = thenSome mapper.blockBlueScore (wrapI64 block.header.blueScore.toNat) := by
  simp only [mapBlock, Option.bind_eq_bind, Option.bind_eq_some_iff] at mapped
  obtain ⟨verboseData, _, built⟩ := mapped
  cases built
  rfl

/-! ## Transactions -/

def mapTransaction (transaction : RpcTransaction) (subnetworkKey : Int) : Option Transaction := do
  let verboseData ← transaction.verboseData
  let computeMass ← toI32 verboseData.computeMass.toNat
  let blockTime ← toI64 verboseData.blockTime.toNat
  pure {
    transactionId := verboseData.transactionId
    subnetworkId := thenSome mapper.txSubnetworkId subnetworkKey
    hash := thenSome mapper.txHash verboseData.hash
    mass := thenSome (mapper.txMass && verboseData.computeMass != 0) computeMass
    payload := thenSome (mapper.txPayload && !transaction.payload.isEmpty) transaction.payload
    blockTime := thenSome mapper.txBlockTime blockTime }

def mapBlockTransaction (transaction : RpcTransaction) : Option BlockTransaction := do
  let verboseData ← transaction.verboseData
  pure ⟨verboseData.blockHash, verboseData.transactionId⟩

def mapTransactionInputs (transaction : RpcTransaction) : Option (List TransactionInput) := do
  let verboseData ← transaction.verboseData
  transaction.inputs.zipIdx.mapM fun (input, position) => do
    let index ← toI16 position
    let previousIndex ← toI16 input.previousOutpoint.index.toNat
    let blockTime ← toI64 verboseData.blockTime.toNat
    pure {
      transactionId := verboseData.transactionId
      index
      previousOutpointHash :=
        thenSome mapper.txInPreviousOutpoint input.previousOutpoint.transactionId
      previousOutpointIndex := thenSome mapper.txInPreviousOutpoint previousIndex
      signatureScript := thenSome mapper.txInSignatureScript input.signatureScript
      sigOpCount := thenSome mapper.txInSigOpCount input.sigOpCount.toNat
      blockTime := thenSome mapper.txInBlockTime blockTime
      previousOutpointScript := none
      previousOutpointAmount := none }

def mapTransactionOutputs (transaction : RpcTransaction) : Option (List TransactionOutput) := do
  let verboseData ← transaction.verboseData
  transaction.outputs.zipIdx.mapM fun (output, position) => do
    let outputVerboseData ← output.verboseData
    let index ← toI16 position
    let amount ← toI64 output.value.toNat
    let blockTime ← toI64 verboseData.blockTime.toNat
    pure {
      transactionId := verboseData.transactionId
      index
      amount := thenSome mapper.txOutAmount amount
      scriptPublicKey := thenSome mapper.txOutScriptPublicKey output.scriptPublicKey.script
      scriptPublicKeyAddress :=
        thenSome mapper.txOutScriptPublicKeyAddress outputVerboseData.scriptPublicKeyAddress
      blockTime := thenSome mapper.txOutBlockTime blockTime }

def mapTransactionOutputsAddress (transaction : RpcTransaction) :
    Option (List AddressTransaction) := do
  let verboseData ← transaction.verboseData
  transaction.outputs.mapM fun output => do
    let outputVerboseData ← output.verboseData
    let blockTime ← toI64 verboseData.blockTime.toNat
    pure ⟨outputVerboseData.scriptPublicKeyAddress, verboseData.transactionId, some blockTime⟩

def mapTransactionOutputsScript (transaction : RpcTransaction) :
    Option (List ScriptTransaction) := do
  let verboseData ← transaction.verboseData
  transaction.outputs.mapM fun output => do
    let blockTime ← toI64 verboseData.blockTime.toNat
    pure ⟨output.scriptPublicKey.script, verboseData.transactionId, some blockTime⟩

end VecnoDbMapper

end VecnoIndexer
