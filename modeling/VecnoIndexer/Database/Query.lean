import VecnoIndexer.Database.Models
import VecnoIndexer.Sql.ValuesList

/-!
# Multi-row inserts

The inserts of `query/insert.rs` that bind the columns of each row in turn to numbered
placeholders.  Each has its own list of columns, its number of them, and its order of binds.
A record is read back from the columns by their names.
-/

namespace VecnoIndexer

open VecnoIndexer.Sql

/-! ## Values and columns -/

inductive SqlValue where
  | null
  | integer (value : Int)
  | text (value : String)
  | bytes (value : Bytes)
  | hash (value : Hash)
  | hashes (values : List Hash)
  deriving DecidableEq, Repr

/-- `sqlx::Encode` and `sqlx::Decode` -/
class SqlType (α : Type) where
  encode : α → SqlValue
  decode : SqlValue → Option α
  decode_encode : ∀ value, decode (encode value) = some value

/-- A type whose values are not NULL. -/
class NonNullType (α : Type) extends SqlType α where
  encode_ne_null : ∀ value, encode value ≠ .null

instance : NonNullType Int where
  encode := .integer
  decode | .integer value => some value | _ => none
  decode_encode _ := rfl
  encode_ne_null _ := nofun

instance : NonNullType String where
  encode := .text
  decode | .text value => some value | _ => none
  decode_encode _ := rfl
  encode_ne_null _ := nofun

instance : NonNullType Bytes where
  encode := .bytes
  decode | .bytes value => some value | _ => none
  decode_encode _ := rfl
  encode_ne_null _ := nofun

instance : NonNullType Hash where
  encode := .hash
  decode | .hash value => some value | _ => none
  decode_encode _ := rfl
  encode_ne_null _ := nofun

instance : NonNullType (List Hash) where
  encode := .hashes
  decode | .hashes values => some values | _ => none
  decode_encode _ := rfl
  encode_ne_null _ := nofun

/-- A nullable column. -/
instance {α : Type} [NonNullType α] : SqlType (Option α) where
  encode value := value.elim .null SqlType.encode
  decode
    | .null => some none
    | value => (SqlType.decode value).map some
  decode_encode value := by
    cases value with
    | none => rfl
    | some value =>
        rw [Option.elim_some]
        split
        · rename_i isNull
          exact absurd isNull (NonNullType.encode_ne_null value)
        · rw [SqlType.decode_encode, Option.map_some]

/-- The columns of the tables that are filled row by row. -/
inductive Column where
  | hash
  | acceptedIdMerkleRoot
  | mergeSetBluesHashes
  | mergeSetRedsHashes
  | selectedParentHash
  | bits
  | blueScore
  | blueWork
  | daaScore
  | hashMerkleRoot
  | nonce
  | pruningPoint
  | timestamp
  | utxoCommitment
  | version
  | blockHash
  | parentHash
  | transactionId
  | subnetworkId
  | mass
  | payload
  | blockTime
  | index
  | previousOutpointHash
  | previousOutpointIndex
  | signatureScript
  | sigOpCount
  | previousOutpointScript
  | previousOutpointAmount
  | amount
  | scriptPublicKey
  | scriptPublicKeyAddress
  | address
  deriving DecidableEq, Repr

/-- The value a column of a row has. -/
def field {α : Type} [SqlType α] (column : Column → Option SqlValue) (name : Column) : Option α :=
  (column name).bind SqlType.decode

abbrev Insert := ValuesInsert Column SqlValue

/-! ## The inserts -/

/-- `generate_placeholders` -/
def generatePlaceholders (rows columns : ℕ) : String :=
  ", ".intercalate ((List.range rows).map fun i =>
    "(" ++ ", ".intercalate ((List.range' 1 columns).map fun c =>
      "$" ++ toString (c + i * columns)) ++ ")")

/-- The placeholders number the bound values one after another. -/
theorem generatePlaceholders_eq (rows columns : ℕ) :
    generatePlaceholders rows columns =
      ValuesList.print (ValuesList.numbered columns 1 rows) := by
  rw [ValuesList.print, ValuesList.numbered_eq_map, List.map_map, generatePlaceholders]
  apply congrArg (", ".intercalate ·)
  apply List.map_congr_left
  intro row _
  have numbers : (List.range' 1 columns).map (· + row * columns) =
      List.range' (1 + row * columns) columns := by
    rw [Nat.add_comm 1, ← List.map_add_range']
    simp only [Nat.add_comm]
  rw [Function.comp_apply, ValuesList.printGroup, ← numbers, List.map_map]
  rfl

theorem read_generatePlaceholders (rows : ℕ) {columns : ℕ} (positive : 0 < columns) :
    ValuesList.read (generatePlaceholders rows columns) =
      some (ValuesList.numbered columns 1 rows) := by
  rw [generatePlaceholders_eq]
  apply ValuesList.read_print
  intro numbers isGroup
  apply List.ne_nil_of_length_pos
  rwa [ValuesList.length_of_mem_numbered _ _ _ isGroup]

/-- An insert of records is accepted if there are some, and not too many. -/
theorem accepted_direct {α : Type} {columns : List Column} {records : List α} {width : ℕ}
    (positive : 0 < width) {encode : α → List SqlValue}
    (encoded : ∀ record, (encode record).length = width) :
    (ValuesInsert.direct columns (generatePlaceholders records.length width)
      (records.flatMap encode)).Accepted ↔
        0 < records.length ∧ records.length * width ≤ ValuesInsert.maxBinds := by
  refine ValuesInsert.accepted_iff (read_generatePlaceholders _ positive) ?_
  change (records.flatMap encode).length = records.length * width
  rw [List.length_flatMap, List.map_congr_left fun record _ => encoded record, List.map_const',
    List.sum_replicate_nat]

example : generatePlaceholders 2 3 = "($1, $2, $3), ($4, $5, $6)" := by decide +kernel

section Inserts

open SqlType

def insertBlocksQuery (blocks : List Block) : Insert :=
  .direct [.hash, .acceptedIdMerkleRoot, .mergeSetBluesHashes, .mergeSetRedsHashes,
      .selectedParentHash, .bits, .blueScore, .blueWork, .daaScore, .hashMerkleRoot, .nonce,
      .pruningPoint, .timestamp, .utxoCommitment, .version]
    (generatePlaceholders blocks.length 15)
    (blocks.flatMap fun block =>
      [encode block.hash, encode block.acceptedIdMerkleRoot, encode block.mergeSetBluesHashes,
        encode block.mergeSetRedsHashes, encode block.selectedParentHash, encode block.bits,
        encode block.blueScore, encode block.blueWork, encode block.daaScore,
        encode block.hashMerkleRoot, encode block.nonce, encode block.pruningPoint,
        encode block.timestamp, encode block.utxoCommitment, encode block.version])

def insertBlockParentsQuery (blockParents : List BlockParent) : Insert :=
  .direct [.blockHash, .parentHash] (generatePlaceholders blockParents.length 2)
    (blockParents.flatMap fun bp => [encode bp.blockHash, encode bp.parentHash])

def insertTransactionsQuery (transactions : List Transaction) : Insert :=
  .direct [.transactionId, .subnetworkId, .hash, .mass, .payload, .blockTime]
    (generatePlaceholders transactions.length 6)
    (transactions.flatMap fun tx =>
      [encode tx.transactionId, encode tx.subnetworkId, encode tx.hash, encode tx.mass,
        encode tx.payload, encode tx.blockTime])

/-- With resolution the list is named and selected from.  What is selected for the last two
columns is what the joined output fills in where it is NULL. -/
def insertTransactionInputsQuery (resolvePreviousOutpoints : Bool)
    (transactionInputs : List TransactionInput) : Insert :=
  let text := generatePlaceholders transactionInputs.length 9
  let binds := transactionInputs.flatMap fun tin =>
    [encode tin.transactionId, encode tin.index, encode tin.previousOutpointHash,
      encode tin.previousOutpointIndex, encode tin.signatureScript, encode tin.sigOpCount,
      encode tin.blockTime, encode tin.previousOutpointScript, encode tin.previousOutpointAmount]
  if resolvePreviousOutpoints then
    { columns := [.transactionId, .index, .previousOutpointHash, .previousOutpointIndex,
        .signatureScript, .sigOpCount, .blockTime, .previousOutpointScript,
        .previousOutpointAmount]
      named := [.transactionId, .index, .previousOutpointHash, .previousOutpointIndex,
        .signatureScript, .sigOpCount, .blockTime, .previousOutpointScript,
        .previousOutpointAmount]
      selected := [.transactionId, .index, .previousOutpointHash, .previousOutpointIndex,
        .signatureScript, .sigOpCount, .blockTime, .previousOutpointScript,
        .previousOutpointAmount]
      text
      binds }
  else
    .direct [.transactionId, .index, .previousOutpointHash, .previousOutpointIndex,
      .signatureScript, .sigOpCount, .blockTime, .previousOutpointScript,
      .previousOutpointAmount] text binds

def insertTransactionOutputsQuery (transactionOutputs : List TransactionOutput) : Insert :=
  .direct [.transactionId, .index, .amount, .scriptPublicKey, .scriptPublicKeyAddress, .blockTime]
    (generatePlaceholders transactionOutputs.length 6)
    (transactionOutputs.flatMap fun tout =>
      [encode tout.transactionId, encode tout.index, encode tout.amount,
        encode tout.scriptPublicKey, encode tout.scriptPublicKeyAddress, encode tout.blockTime])

def insertAddressTransactionsQuery (addressTransactions : List AddressTransaction) : Insert :=
  .direct [.address, .transactionId, .blockTime]
    (generatePlaceholders addressTransactions.length 3)
    (addressTransactions.flatMap fun at_ =>
      [encode at_.address, encode at_.transactionId, encode at_.blockTime])

def insertScriptTransactionsQuery (scriptTransactions : List ScriptTransaction) : Insert :=
  .direct [.scriptPublicKey, .transactionId, .blockTime]
    (generatePlaceholders scriptTransactions.length 3)
    (scriptTransactions.flatMap fun st =>
      [encode st.scriptPublicKey, encode st.transactionId, encode st.blockTime])

def insertBlockTransactionsQuery (blockTransactions : List BlockTransaction) : Insert :=
  .direct [.blockHash, .transactionId] (generatePlaceholders blockTransactions.length 2)
    (blockTransactions.flatMap fun bt => [encode bt.blockHash, encode bt.transactionId])

def insertTransactionAcceptancesQuery (txAcceptances : List TransactionAcceptance) : Insert :=
  .direct [.transactionId, .blockHash] (generatePlaceholders txAcceptances.length 2)
    (txAcceptances.flatMap fun ta => [encode ta.transactionId, encode ta.blockHash])

end Inserts

/-! ## Records by column -/

section Records

variable (column : Column → Option SqlValue)

def Block.ofColumns : Option Block := do
  pure {
    hash := ← field column .hash
    acceptedIdMerkleRoot := ← field column .acceptedIdMerkleRoot
    mergeSetBluesHashes := ← field column .mergeSetBluesHashes
    mergeSetRedsHashes := ← field column .mergeSetRedsHashes
    selectedParentHash := ← field column .selectedParentHash
    bits := ← field column .bits
    blueScore := ← field column .blueScore
    blueWork := ← field column .blueWork
    daaScore := ← field column .daaScore
    hashMerkleRoot := ← field column .hashMerkleRoot
    nonce := ← field column .nonce
    pruningPoint := ← field column .pruningPoint
    timestamp := ← field column .timestamp
    utxoCommitment := ← field column .utxoCommitment
    version := ← field column .version }

def BlockParent.ofColumns : Option BlockParent := do
  pure {
    blockHash := ← field column .blockHash
    parentHash := ← field column .parentHash }

def Transaction.ofColumns : Option Transaction := do
  pure {
    transactionId := ← field column .transactionId
    subnetworkId := ← field column .subnetworkId
    hash := ← field column .hash
    mass := ← field column .mass
    payload := ← field column .payload
    blockTime := ← field column .blockTime }

def TransactionInput.ofColumns : Option TransactionInput := do
  pure {
    transactionId := ← field column .transactionId
    index := ← field column .index
    previousOutpointHash := ← field column .previousOutpointHash
    previousOutpointIndex := ← field column .previousOutpointIndex
    signatureScript := ← field column .signatureScript
    sigOpCount := ← field column .sigOpCount
    blockTime := ← field column .blockTime
    previousOutpointScript := ← field column .previousOutpointScript
    previousOutpointAmount := ← field column .previousOutpointAmount }

def TransactionOutput.ofColumns : Option TransactionOutput := do
  pure {
    transactionId := ← field column .transactionId
    index := ← field column .index
    amount := ← field column .amount
    scriptPublicKey := ← field column .scriptPublicKey
    scriptPublicKeyAddress := ← field column .scriptPublicKeyAddress
    blockTime := ← field column .blockTime }

def AddressTransaction.ofColumns : Option AddressTransaction := do
  pure {
    address := ← field column .address
    transactionId := ← field column .transactionId
    blockTime := ← field column .blockTime }

def ScriptTransaction.ofColumns : Option ScriptTransaction := do
  pure {
    scriptPublicKey := ← field column .scriptPublicKey
    transactionId := ← field column .transactionId
    blockTime := ← field column .blockTime }

def BlockTransaction.ofColumns : Option BlockTransaction := do
  pure {
    blockHash := ← field column .blockHash
    transactionId := ← field column .transactionId }

def TransactionAcceptance.ofColumns : Option TransactionAcceptance := do
  pure {
    transactionId := ← field column .transactionId
    blockHash := ← field column .blockHash }

end Records

/-! ## What the inserts store -/

theorem stored_insertBlocksQuery (blocks : List Block) :
    (insertBlocksQuery blocks).stored Block.ofColumns = some blocks := by
  apply ValuesInsert.stored_direct (by decide) (read_generatePlaceholders _ (by decide))
  · exact fun _ => rfl
  · intro block
    simp [Block.ofColumns, field, List.lookup_cons, SqlType.decode_encode, beq_eq_decide]

theorem stored_insertBlockParentsQuery (blockParents : List BlockParent) :
    (insertBlockParentsQuery blockParents).stored BlockParent.ofColumns = some blockParents := by
  apply ValuesInsert.stored_direct (by decide) (read_generatePlaceholders _ (by decide))
  · exact fun _ => rfl
  · intro bp
    simp [BlockParent.ofColumns, field, List.lookup_cons, SqlType.decode_encode, beq_eq_decide]

theorem stored_insertTransactionsQuery (transactions : List Transaction) :
    (insertTransactionsQuery transactions).stored Transaction.ofColumns = some transactions := by
  apply ValuesInsert.stored_direct (by decide) (read_generatePlaceholders _ (by decide))
  · exact fun _ => rfl
  · intro tx
    simp [Transaction.ofColumns, field, List.lookup_cons, SqlType.decode_encode, beq_eq_decide]

/-- The names of the list and what is selected from it follow the columns. -/
theorem stored_insertTransactionInputsQuery (resolvePreviousOutpoints : Bool)
    (transactionInputs : List TransactionInput) :
    (insertTransactionInputsQuery resolvePreviousOutpoints transactionInputs).stored
      TransactionInput.ofColumns = some transactionInputs := by
  have direct : insertTransactionInputsQuery resolvePreviousOutpoints transactionInputs =
      insertTransactionInputsQuery false transactionInputs := by
    cases resolvePreviousOutpoints <;> rfl
  rw [direct]
  apply ValuesInsert.stored_direct (by decide) (read_generatePlaceholders _ (by decide))
  · exact fun _ => rfl
  · intro tin
    simp [TransactionInput.ofColumns, field, List.lookup_cons, SqlType.decode_encode, beq_eq_decide]

theorem stored_insertTransactionOutputsQuery (transactionOutputs : List TransactionOutput) :
    (insertTransactionOutputsQuery transactionOutputs).stored TransactionOutput.ofColumns =
      some transactionOutputs := by
  apply ValuesInsert.stored_direct (by decide) (read_generatePlaceholders _ (by decide))
  · exact fun _ => rfl
  · intro tout
    simp [TransactionOutput.ofColumns, field, List.lookup_cons, SqlType.decode_encode,
      beq_eq_decide]

theorem stored_insertAddressTransactionsQuery (addressTransactions : List AddressTransaction) :
    (insertAddressTransactionsQuery addressTransactions).stored AddressTransaction.ofColumns =
      some addressTransactions := by
  apply ValuesInsert.stored_direct (by decide) (read_generatePlaceholders _ (by decide))
  · exact fun _ => rfl
  · intro at_
    simp [AddressTransaction.ofColumns, field, List.lookup_cons, SqlType.decode_encode,
      beq_eq_decide]

theorem stored_insertScriptTransactionsQuery (scriptTransactions : List ScriptTransaction) :
    (insertScriptTransactionsQuery scriptTransactions).stored ScriptTransaction.ofColumns =
      some scriptTransactions := by
  apply ValuesInsert.stored_direct (by decide) (read_generatePlaceholders _ (by decide))
  · exact fun _ => rfl
  · intro st
    simp [ScriptTransaction.ofColumns, field, List.lookup_cons, SqlType.decode_encode,
      beq_eq_decide]

theorem stored_insertBlockTransactionsQuery (blockTransactions : List BlockTransaction) :
    (insertBlockTransactionsQuery blockTransactions).stored BlockTransaction.ofColumns =
      some blockTransactions := by
  apply ValuesInsert.stored_direct (by decide) (read_generatePlaceholders _ (by decide))
  · exact fun _ => rfl
  · intro bt
    simp [BlockTransaction.ofColumns, field, List.lookup_cons, SqlType.decode_encode, beq_eq_decide]

theorem stored_insertTransactionAcceptancesQuery (txAcceptances : List TransactionAcceptance) :
    (insertTransactionAcceptancesQuery txAcceptances).stored TransactionAcceptance.ofColumns =
      some txAcceptances := by
  apply ValuesInsert.stored_direct (by decide) (read_generatePlaceholders _ (by decide))
  · exact fun _ => rfl
  · intro ta
    simp [TransactionAcceptance.ofColumns, field, List.lookup_cons, SqlType.decode_encode,
      beq_eq_decide]

/-- The placeholders of some rows are groups of one width with the numbers from one on. -/
structure PlaceholdersLineUp (rows columns : ℕ) (groups : List (List ℕ)) : Prop where
  read : ValuesList.read (generatePlaceholders rows columns) = some groups
  height : groups.length = rows
  width : ∀ numbers ∈ groups, numbers.length = columns
  inOrder : groups.flatten = List.range' 1 (rows * columns)
  placed : ∀ k, 1 ≤ k → k ≤ rows * columns →
    (groups[(k - 1) / columns]?).bind (·[(k - 1) % columns]?) = some k

theorem exists_placeholdersLineUp (rows : ℕ) {columns : ℕ} (positive : 0 < columns) :
    ∃ groups, PlaceholdersLineUp rows columns groups := by
  refine ⟨_, read_generatePlaceholders rows positive, ValuesList.length_numbered _ _ _,
    fun _ => ValuesList.length_of_mem_numbered _ _ _, ValuesList.flatten_numbered _ _ _, ?_⟩
  intro k first last
  rw [ValuesList.getElem?_of_numbered _ _ _ positive (by omega)]
  exact congrArg some (by omega)

/-- Placeholders line up with binds, and so each insert stores the rows it is given. -/
theorem inserts_store_their_rows :
    (∀ rows columns, 0 < columns → ∃ groups, PlaceholdersLineUp rows columns groups) ∧
    (∀ blocks, (insertBlocksQuery blocks).stored Block.ofColumns = some blocks) ∧
    (∀ rows, (insertBlockParentsQuery rows).stored BlockParent.ofColumns = some rows) ∧
    (∀ rows, (insertTransactionsQuery rows).stored Transaction.ofColumns = some rows) ∧
    (∀ resolve rows,
      (insertTransactionInputsQuery resolve rows).stored TransactionInput.ofColumns = some rows) ∧
    (∀ rows, (insertTransactionOutputsQuery rows).stored TransactionOutput.ofColumns = some rows) ∧
    (∀ rows,
      (insertAddressTransactionsQuery rows).stored AddressTransaction.ofColumns = some rows) ∧
    (∀ rows, (insertScriptTransactionsQuery rows).stored ScriptTransaction.ofColumns = some rows) ∧
    (∀ rows, (insertBlockTransactionsQuery rows).stored BlockTransaction.ofColumns = some rows) ∧
    ∀ rows,
      (insertTransactionAcceptancesQuery rows).stored TransactionAcceptance.ofColumns = some rows :=
  ⟨fun rows _ positive => exists_placeholdersLineUp rows positive, stored_insertBlocksQuery,
    stored_insertBlockParentsQuery, stored_insertTransactionsQuery,
    stored_insertTransactionInputsQuery, stored_insertTransactionOutputsQuery,
    stored_insertAddressTransactionsQuery, stored_insertScriptTransactionsQuery,
    stored_insertBlockTransactionsQuery, stored_insertTransactionAcceptancesQuery⟩

theorem placeholders_two_by_three : ∃ groups, PlaceholdersLineUp 2 3 groups :=
  inserts_store_their_rows.1 2 3 (by decide)

end VecnoIndexer
