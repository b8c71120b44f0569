import VecnoIndexer.Sql.StoredLists
import VecnoIndexer.Transactions.Content
import VecnoIndexer.Transactions.Origins
import VecnoIndexer.Transactions.SubnetworkKeys

/-!
# Reading a transaction back

The rows of a transaction have its id, hash, mass, payload and subnetwork, the previous
outpoint, the signature script and the signature operations of each input, and the amount, the
script and the address of each output, as long as no field is left out.  The version of a
script is not stored; the version, the lock time and the gas of a transaction and the sequence
of an input are not mapped and not modelled.  So that much of a stored transaction can be read
back from the rows with its id, if what was received under one id is one transaction.
-/

namespace VecnoIndexer

open VecnoIndexer.Sql
open VecnoIndexer.Collections

/-! ## Reading rows -/

def TransactionInput.read (row : TransactionInput) : Option RpcTransactionInput := do
  let transactionId ← row.previousOutpointHash
  let index ← row.previousOutpointIndex
  let signatureScript ← row.signatureScript
  let sigOpCount ← row.sigOpCount
  pure ⟨⟨transactionId, index.toNat.toUInt32⟩, signatureScript, sigOpCount.toNat.toUInt8⟩

/-- The version of the script is not stored. -/
def TransactionOutput.read (row : TransactionOutput) : Option RpcTransactionOutput := do
  let amount ← row.amount
  let script ← row.scriptPublicKey
  let address ← row.scriptPublicKeyAddress
  pure ⟨amount.toNat.toUInt64, ⟨0, script⟩, some ⟨address⟩⟩

/-- A transaction apart from the block it was found in, from its rows. -/
def Db.readTransaction (db : Db) (transactionId : Hash) : Option RpcTransaction := do
  let row ← db.transactions.lookup transactionId
  let key ← row.subnetworkId
  let subnetwork ← db.subnetworks.lookup key
  let hash ← row.hash
  let inputs ← db.transactionsInputs.readList transactionId TransactionInput.read
  let outputs ← db.transactionsOutputs.readList transactionId TransactionOutput.read
  pure {
    inputs
    outputs
    subnetworkId := subnetwork.subnetworkId
    payload := row.payload.getD []
    verboseData := some {
      transactionId
      hash
      computeMass := (row.mass.getD 0).toNat.toUInt64
      blockHash := 0
      blockTime := 0 } }

/-! ## What is recorded -/

def RpcTransactionOutput.recorded (output : RpcTransactionOutput) : RpcTransactionOutput :=
  { output with scriptPublicKey := { output.scriptPublicKey with version := 0 } }

/-- What the rows of a transaction tell of it. -/
def RpcTransaction.recorded (transaction : RpcTransaction) : RpcTransaction :=
  { transaction.content with
    outputs := transaction.outputs.map RpcTransactionOutput.recorded }

theorem recorded_eq_of_content {first second : RpcTransaction}
    (same : first.content = second.content) : first.recorded = second.recorded := by
  have outputs : first.content.outputs = second.content.outputs := by rw [same]
  change first.outputs = second.outputs at outputs
  rw [RpcTransaction.recorded, RpcTransaction.recorded, same, outputs]

/-- The fields that are read back. -/
def readFields : List CliField :=
  [.txSubnetworkId, .txHash, .txMass, .txPayload, .txInPreviousOutpoint, .txInSignatureScript,
    .txInSigOpCount, .txOutAmount, .txOutScriptPublicKey, .txOutScriptPublicKeyAddress]

/-- The tables of transactions are filled, with the fields that are read back. -/
structure RecordsAll (cliArgs : CliArgs) : Prop where
  transactions : cliArgs.isDisabled .transactionsTable = false
  inputs : cliArgs.isDisabled .transactionsInputsTable = false
  outputs : cliArgs.isDisabled .transactionsOutputsTable = false
  included : ∀ field ∈ readFields, cliArgs.isExcluded field = false

section Mapped

variable {cliArgs : CliArgs} {transaction : RpcTransaction}

theorem eq_of_toI32 {value : ℕ} {result : Int} (converted : toI32 value = some result) :
    result = value := by
  unfold toI32 at converted
  split_ifs at converted
  exact (Option.some.inj converted).symm

theorem eq_of_toI64 {value : ℕ} {result : Int} (converted : toI64 value = some result) :
    result = value := by
  unfold toI64 at converted
  split_ifs at converted
  exact (Option.some.inj converted).symm

/-- A row of an input is read as the input. -/
theorem read_of_mem_mapTransactionInputs (records : RecordsAll cliArgs)
    {rows : List TransactionInput}
    (mapped : (VecnoDbMapper.new cliArgs).mapTransactionInputs transaction = some rows)
    {row : TransactionInput} (rowMem : row ∈ rows) :
    transaction.transactionId = some row.transactionId ∧
      ∃ position, ∃ inside : position < transaction.inputs.length,
        row.index = (position : Int) ∧ row.read = some transaction.inputs[position] := by
  simp only [VecnoDbMapper.mapTransactionInputs, Option.bind_eq_bind, Option.bind_eq_some_iff]
    at mapped
  obtain ⟨verboseData, hasVerbose, mapped⟩ := mapped
  obtain ⟨⟨input, position⟩, isInput, rowEq⟩ := exists_of_mem_mapM_eq_some mapped rowMem
  simp only [Option.bind_eq_some_iff] at rowEq
  obtain ⟨index, indexEq, previousIndex, previousEq, _, _, eq⟩ := rowEq
  cases eq
  obtain ⟨inside, isAt⟩ := List.getElem?_eq_some_iff.mp (List.mem_zipIdx_iff_getElem?.mp isInput)
  refine ⟨by rw [RpcTransaction.transactionId, hasVerbose]; rfl, position, inside,
    eq_of_toI16 indexEq, ?_⟩
  have outpoint := records.included .txInPreviousOutpoint (by decide)
  have script := records.included .txInSignatureScript (by decide)
  have sigOpCount := records.included .txInSigOpCount (by decide)
  simp only [TransactionInput.read, VecnoDbMapper.new, outpoint, script, sigOpCount, thenSome,
    Bool.not_false, if_true, Option.bind_eq_bind, Option.bind_some, eq_of_toI16 previousEq,
    Int.toNat_natCast]
  rw [isAt, Nat.toUInt32_eq, UInt32.ofNat_toNat, Nat.toUInt8_eq, UInt8.ofNat_toNat]
  rfl

/-- A row of an output is read as what is recorded of the output. -/
theorem read_of_mem_mapTransactionOutputs (records : RecordsAll cliArgs)
    {rows : List TransactionOutput}
    (mapped : (VecnoDbMapper.new cliArgs).mapTransactionOutputs transaction = some rows)
    {row : TransactionOutput} (rowMem : row ∈ rows) :
    transaction.transactionId = some row.transactionId ∧
      ∃ position, ∃ inside : position < transaction.outputs.length,
        row.index = (position : Int) ∧
          row.read = some transaction.outputs[position].recorded := by
  simp only [VecnoDbMapper.mapTransactionOutputs, Option.bind_eq_bind, Option.bind_eq_some_iff]
    at mapped
  obtain ⟨verboseData, hasVerbose, mapped⟩ := mapped
  obtain ⟨⟨output, position⟩, isOutput, rowEq⟩ := exists_of_mem_mapM_eq_some mapped rowMem
  simp only [Option.bind_eq_some_iff] at rowEq
  obtain ⟨outputVerbose, isVerbose, index, indexEq, amount, amountEq, _, _, eq⟩ := rowEq
  cases eq
  obtain ⟨inside, isAt⟩ := List.getElem?_eq_some_iff.mp (List.mem_zipIdx_iff_getElem?.mp isOutput)
  refine ⟨by rw [RpcTransaction.transactionId, hasVerbose]; rfl, position, inside,
    eq_of_toI16 indexEq, ?_⟩
  have isAmount := records.included .txOutAmount (by decide)
  have script := records.included .txOutScriptPublicKey (by decide)
  have address := records.included .txOutScriptPublicKeyAddress (by decide)
  simp only [TransactionOutput.read, VecnoDbMapper.new, isAmount, script, address, thenSome,
    Bool.not_false, if_true, Option.bind_eq_bind, Option.bind_some, eq_of_toI64 amountEq,
    Int.toNat_natCast]
  rw [isAt, Nat.toUInt64_eq, UInt64.ofNat_toNat, RpcTransactionOutput.recorded, isVerbose]
  rfl

/-- A row of a transaction has its columns. -/
theorem columns_of_mapTransaction_of_records (records : RecordsAll cliArgs) {key : Int}
    {row : Transaction}
    (mapped : (VecnoDbMapper.new cliArgs).mapTransaction transaction key = some row) :
    row.subnetworkId = some key ∧ row.payload.getD [] = transaction.payload ∧
      ∃ hash, row.hash = some hash ∧
        transaction.content.verboseData = some {
          transactionId := row.transactionId
          hash
          computeMass := (row.mass.getD 0).toNat.toUInt64
          blockHash := 0
          blockTime := 0 } := by
  simp only [VecnoDbMapper.mapTransaction, Option.bind_eq_bind, Option.bind_eq_some_iff] at mapped
  obtain ⟨verboseData, hasVerbose, computeMass, massEq, _, _, eq⟩ := mapped
  cases eq
  have subnetworkId := records.included .txSubnetworkId (by decide)
  have isHash := records.included .txHash (by decide)
  have mass := records.included .txMass (by decide)
  have payload := records.included .txPayload (by decide)
  simp only [VecnoDbMapper.new, subnetworkId, isHash, mass, payload, thenSome, Bool.not_false,
    Bool.true_and, if_true]
  refine ⟨trivial, ?_, verboseData.hash, rfl, ?_⟩
  · cases transaction.payload <;> rfl
  · rw [RpcTransaction.content, hasVerbose, Option.map_some, eq_of_toI32 massEq]
    by_cases zero : verboseData.computeMass = 0
    · simp [zero]
    · simp [zero]

end Mapped

/-! ## Reading from the database -/

/-- A database without transactions. -/
structure Db.Unindexed (db : Db) : Prop where
  transactions : db.transactions = .empty
  inputs : db.transactionsInputs = .empty
  outputs : db.transactionsOutputs = .empty
  subnetworks : db.subnetworks = .empty

namespace Received

variable {cliArgs : CliArgs} {start db : Db} {received : Received} {transaction : RpcTransaction}
  {transactionId : Hash}

/-- What peers sent of an output that the node sent too is the same, apart from the time. -/
def Honest (cliArgs : CliArgs) (received : Received) : Prop :=
  ∀ row ∈ received.imported, ∀ transaction ∈ received.transactions,
    transaction.transactionId = some row.transactionId →
      ∃ rows, (VecnoDbMapper.new cliArgs).mapTransactionOutputs transaction = some rows ∧
        ∃ like ∈ rows, like.apartFromTime = row.apartFromTime

theorem content_of_id (same : SameContentById received.transactions)
    (isReceived : transaction ∈ received.transactions)
    (idEq : transaction.transactionId = some transactionId) {other : RpcTransaction}
    (otherReceived : other ∈ received.transactions)
    (otherId : other.transactionId = some transactionId) :
    other.inputs = transaction.inputs ∧ other.outputs = transaction.outputs := by
  have content := same other otherReceived transaction isReceived (otherId.trans idEq.symm)
  have inputs : other.content.inputs = transaction.content.inputs := by rw [content]
  have outputs : other.content.outputs = transaction.content.outputs := by rw [content]
  exact ⟨inputs, outputs⟩

theorem readInputs_eq_some (records : RecordsAll cliArgs)
    (same : SameContentById received.transactions) (unindexed : start.Unindexed)
    (explains : received.Explains cliArgs start db)
    (isReceived : transaction ∈ received.transactions)
    (idEq : transaction.transactionId = some transactionId)
    (stored : Stored cliArgs db transaction transactionId) :
    db.transactionsInputs.readList transactionId TransactionInput.read =
      some transaction.inputs := by
  apply Table.readList_eq_some (stored.inputs records.inputs)
  intro row rowMem index rowKey
  cases rowKey
  rcases explains (.input row) rowMem with before | ⟨other, otherReceived, rows, mapped, isRow, _⟩
  · simp [Db.Stores, unindexed.inputs] at before
  · obtain ⟨otherId, reads⟩ := read_of_mem_mapTransactionInputs records mapped isRow
    obtain ⟨inputs, _⟩ := content_of_id same isReceived idEq otherReceived otherId
    rw [inputs] at reads
    exact reads

theorem readOutputs_eq_some (records : RecordsAll cliArgs)
    (same : SameContentById received.transactions) (honest : received.Honest cliArgs)
    (unindexed : start.Unindexed) (explains : received.Explains cliArgs start db)
    (isReceived : transaction ∈ received.transactions)
    (idEq : transaction.transactionId = some transactionId)
    (stored : Stored cliArgs db transaction transactionId) :
    db.transactionsOutputs.readList transactionId TransactionOutput.read =
      some (transaction.outputs.map RpcTransactionOutput.recorded) := by
  apply Table.readList_eq_some
  · rw [List.length_map]
    exact stored.outputs records.outputs
  · intro row rowMem index rowKey
    cases rowKey
    have found : ∃ other ∈ received.transactions, ∃ rows,
        (VecnoDbMapper.new cliArgs).mapTransactionOutputs other = some rows ∧
          ∃ like ∈ rows, like.apartFromTime = row.apartFromTime := by
      rcases explains (.output row) rowMem with before | imported |
        ⟨other, otherReceived, rows, mapped, isRow⟩
      · simp [Db.Stores, unindexed.outputs] at before
      · exact ⟨transaction, isReceived, honest row imported transaction isReceived idEq⟩
      · exact ⟨other, otherReceived, rows, mapped, row, isRow, rfl⟩
    obtain ⟨other, otherReceived, rows, mapped, like, isRow, sameRow⟩ := found
    obtain ⟨otherId, position, inside, indexEq, readRow⟩ :=
      read_of_mem_mapTransactionOutputs records mapped isRow
    have sameId : like.apartFromTime.transactionId = row.apartFromTime.transactionId := by
      rw [sameRow]
    have sameIndex : like.apartFromTime.index = row.apartFromTime.index := by rw [sameRow]
    have sameRead : like.apartFromTime.read = row.apartFromTime.read := by rw [sameRow]
    obtain ⟨_, outputs⟩ :=
      content_of_id same isReceived idEq otherReceived (otherId.trans (congrArg some sameId))
    refine ⟨position, by rwa [List.length_map, ← outputs], sameIndex.symm.trans indexEq, ?_⟩
    simp only [List.getElem_map, ← outputs]
    exact sameRead.symm.trans readRow

/-- A transaction that is stored is read back. -/
theorem readTransaction_eq_some (records : RecordsAll cliArgs)
    (same : SameContentById received.transactions) (honest : received.Honest cliArgs)
    (unindexed : start.Unindexed) (explains : received.Explains cliArgs start db)
    (numbered : Numbered cliArgs received.transactions db)
    (isReceived : transaction ∈ received.transactions)
    (idEq : transaction.transactionId = some transactionId)
    (stored : Stored cliArgs db transaction transactionId) :
    db.readTransaction transactionId = some transaction.recorded := by
  obtain ⟨row, rowMem, rowKey⟩ := stored.row records.transactions
  cases rowKey
  obtain ⟨other, otherReceived, key, subnetworkMem, mapped⟩ := numbered.mapped row rowMem
  obtain ⟨otherId, _⟩ := columns_of_mapTransaction mapped
  obtain ⟨isKey, payload, hash, isHash, verboseData⟩ :=
    columns_of_mapTransaction_of_records records mapped
  have content := same other otherReceived transaction isReceived (otherId.trans idEq.symm)
  have subnetwork : db.subnetworks.lookup key = some ⟨key, other.subnetworkId⟩ :=
    Table.lookup_eq_some_iff.mpr ⟨subnetworkMem, rfl⟩
  have found : db.transactions.lookup row.transactionId = some row :=
    Table.lookup_eq_some_iff.mpr ⟨rowMem, rfl⟩
  have sameSubnetwork : other.content.subnetworkId = transaction.content.subnetworkId := by
    rw [content]
  have samePayload : other.content.payload = transaction.content.payload := by rw [content]
  simp only [Db.readTransaction, found, isKey, subnetwork, isHash,
    readInputs_eq_some records same unindexed explains isReceived idEq stored,
    readOutputs_eq_some records same honest unindexed explains isReceived idEq stored,
    Option.bind_eq_bind, Option.bind_some]
  change other.subnetworkId = transaction.subnetworkId at sameSubnetwork
  change other.payload = transaction.payload at samePayload
  rw [content] at verboseData
  rw [payload, samePayload, sameSubnetwork, ← verboseData]
  rfl

end Received

end VecnoIndexer
