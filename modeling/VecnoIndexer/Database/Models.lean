import VecnoIndexer.Database.Hash
import VecnoIndexer.Sql.Session
import VecnoIndexer.Sql.Table

/-!
# Rows and tables of the indexer's database

The row types of `database/src/models` and the tables of `up.sql`, each with
the key its constraint names.  `SMALLINT`, `INTEGER` and `BIGINT` columns are
integers; a nullable column is an `Option`.
-/

namespace VecnoIndexer

open VecnoIndexer.Sql

/-- One row of `vars`. -/
structure Var where
  key : String
  value : String
  deriving DecidableEq, Repr

/-- One row of `blocks`. -/
structure Block where
  hash : Hash
  acceptedIdMerkleRoot : Option Hash
  mergeSetBluesHashes : Option (List Hash)
  mergeSetRedsHashes : Option (List Hash)
  selectedParentHash : Option Hash
  bits : Option Int
  blueScore : Option Int
  blueWork : Option Bytes
  daaScore : Option Int
  hashMerkleRoot : Option Hash
  nonce : Option Bytes
  pruningPoint : Option Hash
  timestamp : Option Int
  utxoCommitment : Option Hash
  version : Option Int
  deriving DecidableEq, Repr

/-- One row of `block_parent`. -/
structure BlockParent where
  blockHash : Hash
  parentHash : Hash
  deriving DecidableEq, Repr

/-- One row of `subnetworks`. -/
structure Subnetwork where
  id : Int
  subnetworkId : String
  deriving DecidableEq, Repr

/-- One row of `transactions`. -/
structure Transaction where
  transactionId : Hash
  subnetworkId : Option Int
  hash : Option Hash
  mass : Option Int
  payload : Option Bytes
  blockTime : Option Int
  deriving DecidableEq, Repr

/-- One row of `transactions_acceptances`. A NULL transaction marks a chain
block only; a NULL block marks a transaction known through the UTXO import. -/
structure TransactionAcceptance where
  transactionId : Option Hash
  blockHash : Option Hash
  deriving DecidableEq, Repr

/-- One row of `blocks_transactions`. -/
structure BlockTransaction where
  blockHash : Hash
  transactionId : Hash
  deriving DecidableEq, Repr

/-- One row of `transactions_inputs`. -/
structure TransactionInput where
  transactionId : Hash
  index : Int
  previousOutpointHash : Option Hash
  previousOutpointIndex : Option Int
  signatureScript : Option Bytes
  sigOpCount : Option Int
  blockTime : Option Int
  previousOutpointScript : Option Bytes
  previousOutpointAmount : Option Int
  deriving DecidableEq, Repr

/-- One row of `transactions_outputs`. -/
structure TransactionOutput where
  transactionId : Hash
  index : Int
  amount : Option Int
  scriptPublicKey : Option Bytes
  scriptPublicKeyAddress : Option String
  blockTime : Option Int
  deriving DecidableEq, Repr

/-- One row of `addresses_transactions`. -/
structure AddressTransaction where
  address : String
  transactionId : Hash
  blockTime : Option Int
  deriving DecidableEq, Repr

/-- One row of `scripts_transactions`. -/
structure ScriptTransaction where
  scriptPublicKey : Bytes
  transactionId : Hash
  blockTime : Option Int
  deriving DecidableEq, Repr

/-- One row of `balances`. -/
structure Balance where
  scriptPublicKeyAddress : String
  balance : Int
  deriving DecidableEq, Repr

/-! ## Constraints -/

def Var.primaryKey (row : Var) : Option String := some row.key

def Block.primaryKey (row : Block) : Option Hash := some row.hash

def BlockParent.primaryKey (row : BlockParent) : Option (Hash × Hash) :=
  some (row.blockHash, row.parentHash)

def Subnetwork.primaryKey (row : Subnetwork) : Option Int := some row.id

def Transaction.primaryKey (row : Transaction) : Option Hash := some row.transactionId

/-- `transaction_id BYTEA UNIQUE`: rows without a transaction never conflict. -/
def TransactionAcceptance.uniqueKey (row : TransactionAcceptance) : Option Hash :=
  row.transactionId

def BlockTransaction.primaryKey (row : BlockTransaction) : Option (Hash × Hash) :=
  some (row.blockHash, row.transactionId)

def TransactionInput.primaryKey (row : TransactionInput) : Option (Hash × Int) :=
  some (row.transactionId, row.index)

def TransactionOutput.primaryKey (row : TransactionOutput) : Option (Hash × Int) :=
  some (row.transactionId, row.index)

def AddressTransaction.primaryKey (row : AddressTransaction) : Option (String × Hash) :=
  some (row.address, row.transactionId)

def ScriptTransaction.primaryKey (row : ScriptTransaction) : Option (Bytes × Hash) :=
  some (row.scriptPublicKey, row.transactionId)

def Balance.primaryKey (row : Balance) : Option String := some row.scriptPublicKeyAddress

/-- The database `up.sql` creates, with the next value of the `subnetworks` id
sequence. -/
structure Db where
  vars : Table Var.primaryKey
  blocks : Table Block.primaryKey
  blockParent : Table BlockParent.primaryKey
  subnetworks : Table Subnetwork.primaryKey
  subnetworksNextId : Int
  transactions : Table Transaction.primaryKey
  transactionsAcceptances : Table TransactionAcceptance.uniqueKey
  blocksTransactions : Table BlockTransaction.primaryKey
  transactionsInputs : Table TransactionInput.primaryKey
  transactionsOutputs : Table TransactionOutput.primaryKey
  addressesTransactions : Table AddressTransaction.primaryKey
  scriptsTransactions : Table ScriptTransaction.primaryKey
  balances : Table Balance.primaryKey

/-- Freshly created tables. -/
def Db.empty : Db where
  vars := .empty
  blocks := .empty
  blockParent := .empty
  subnetworks := .empty
  subnetworksNextId := 1
  transactions := .empty
  transactionsAcceptances := .empty
  blocksTransactions := .empty
  transactionsInputs := .empty
  transactionsOutputs := .empty
  addressesTransactions := .empty
  scriptsTransactions := .empty
  balances := .empty

/-! ## The tables as parts of the database -/

def blocksTable : TableOf Db Block.primaryKey where
  get := Db.blocks
  set table db := { db with blocks := table }
  get_set _ _ := rfl
  set_set _ _ _ := rfl
  set_get _ := rfl

def blockParentTable : TableOf Db BlockParent.primaryKey where
  get := Db.blockParent
  set table db := { db with blockParent := table }
  get_set _ _ := rfl
  set_set _ _ _ := rfl
  set_get _ := rfl

def blocksTransactionsTable : TableOf Db BlockTransaction.primaryKey where
  get := Db.blocksTransactions
  set table db := { db with blocksTransactions := table }
  get_set _ _ := rfl
  set_set _ _ _ := rfl
  set_get _ := rfl

def acceptancesTable : TableOf Db TransactionAcceptance.uniqueKey where
  get := Db.transactionsAcceptances
  set table db := { db with transactionsAcceptances := table }
  get_set _ _ := rfl
  set_set _ _ _ := rfl
  set_get _ := rfl

def addressesTable : TableOf Db AddressTransaction.primaryKey where
  get := Db.addressesTransactions
  set table db := { db with addressesTransactions := table }
  get_set _ _ := rfl
  set_set _ _ _ := rfl
  set_get _ := rfl

def scriptsTable : TableOf Db ScriptTransaction.primaryKey where
  get := Db.scriptsTransactions
  set table db := { db with scriptsTransactions := table }
  get_set _ _ := rfl
  set_set _ _ _ := rfl
  set_get _ := rfl

def transactionsTable : TableOf Db Transaction.primaryKey where
  get := Db.transactions
  set table db := { db with transactions := table }
  get_set _ _ := rfl
  set_set _ _ _ := rfl
  set_get _ := rfl

def outputsTable : TableOf Db TransactionOutput.primaryKey where
  get := Db.transactionsOutputs
  set table db := { db with transactionsOutputs := table }
  get_set _ _ := rfl
  set_set _ _ _ := rfl
  set_get _ := rfl

def inputsTable : TableOf Db TransactionInput.primaryKey where
  get := Db.transactionsInputs
  set table db := { db with transactionsInputs := table }
  get_set _ _ := rfl
  set_set _ _ _ := rfl
  set_get _ := rfl

/-! ## Statements -/

/-- Errors of a database statement. -/
inductive SqlError where
  /-- The connection is gone or the statement was cancelled. -/
  | unavailable
  /-- `fetch_one` found no row. -/
  | rowNotFound
  /-- A value does not fit its column type. -/
  | numericValueOutOfRange
  /-- Text that is not what a conversion expects. -/
  | invalidTextRepresentation
  /-- NULL in a column that does not allow it. -/
  | notNullViolation
  /-- A NULL decoded into a type without one. -/
  | unexpectedNull
  /-- The row count of a `LIMIT` is negative. -/
  | negativeLimit
  deriving DecidableEq, Repr

/-- Code that issues statements to the database. -/
abbrev DbM (α : Type) := Session SqlError Db α

/-- One statement of the program. -/
def statement {α : Type} (execute : Db → Except SqlError (α × Db)) : DbM α :=
  Session.statement .unavailable execute

theorem completes_of_executed {α : Type} {execute : Db → Except SqlError (α × Db)}
    {db next : Db} {value : α} (executed : execute db = .ok (value, next)) :
    (statement execute).Completes db value next :=
  Session.completes_statement executed

theorem strict_of_statement {α : Type} (execute : Db → Except SqlError (α × Db)) :
    (statement execute).Strict :=
  Session.strict_statement _ _

end VecnoIndexer
