import VecnoIndexer.Database.Hash

/-!
# Blocks and transactions as the node sends them

The fields of the node's answers that the mapping reads.  Verbose data may be
missing; what reads it then panics.
-/

namespace VecnoIndexer

structure ScriptPublicKey where
  version : ℕ
  script : Bytes
  deriving DecidableEq, Repr

/-- The verbose data of an output: the payload of its address. -/
structure RpcTransactionOutputVerboseData where
  scriptPublicKeyAddress : String
  deriving DecidableEq, Repr

structure RpcTransactionOutput where
  value : UInt64
  scriptPublicKey : ScriptPublicKey
  verboseData : Option RpcTransactionOutputVerboseData
  deriving DecidableEq, Repr

structure RpcTransactionOutpoint where
  transactionId : Hash
  index : UInt32
  deriving DecidableEq, Repr

structure RpcTransactionInput where
  previousOutpoint : RpcTransactionOutpoint
  signatureScript : Bytes
  sigOpCount : UInt8
  deriving DecidableEq, Repr

structure RpcTransactionVerboseData where
  transactionId : Hash
  hash : Hash
  computeMass : UInt64
  blockHash : Hash
  blockTime : UInt64
  deriving DecidableEq, Repr

/-- A transaction; the subnetwork id is the text it is stored as. -/
structure RpcTransaction where
  inputs : List RpcTransactionInput
  outputs : List RpcTransactionOutput
  subnetworkId : String
  payload : Bytes
  verboseData : Option RpcTransactionVerboseData
  deriving DecidableEq, Repr

/-- A header; the blue work is its bytes without leading zeros. -/
structure RpcHeader where
  hash : Hash
  version : UInt16
  parentsByLevel : List (List Hash)
  hashMerkleRoot : Hash
  acceptedIdMerkleRoot : Hash
  utxoCommitment : Hash
  timestamp : UInt64
  bits : UInt32
  nonce : UInt64
  daaScore : UInt64
  blueWork : Bytes
  blueScore : UInt64
  pruningPoint : Hash
  deriving DecidableEq, Repr

structure RpcBlockVerboseData where
  hash : Hash
  selectedParentHash : Hash
  transactionIds : List Hash
  mergeSetBluesHashes : List Hash
  mergeSetRedsHashes : List Hash
  deriving DecidableEq, Repr

structure RpcBlock where
  header : RpcHeader
  transactions : List RpcTransaction
  verboseData : Option RpcBlockVerboseData
  deriving DecidableEq, Repr

/-- A block without parents and transactions. -/
def plainBlock (hash : Hash) (timestamp blueScore : UInt64) : RpcBlock where
  header := {
    hash
    version := 1
    parentsByLevel := []
    hashMerkleRoot := 0
    acceptedIdMerkleRoot := 0
    utxoCommitment := 0
    timestamp
    bits := 0
    nonce := 0
    daaScore := blueScore
    blueWork := []
    blueScore
    pruningPoint := 0 }
  transactions := []
  verboseData := some ⟨hash, 0, [], [], []⟩

end VecnoIndexer
