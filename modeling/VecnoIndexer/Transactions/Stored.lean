import VecnoIndexer.Transactions.Tracking

/-!
# The rows of a transaction

Which keys a mapped transaction has in each table: they depend on its id, on how many
inputs it has and on its outputs.  When nothing is pending, the rows of every popped
transaction are stored under these keys.
-/

namespace VecnoIndexer

open VecnoIndexer.Sql
open VecnoIndexer.Collections

/-- The rows of a transaction with some id are in the enabled tables. -/
structure Stored (cliArgs : CliArgs) (db : Db) (transaction : RpcTransaction)
    (transactionId : Hash) : Prop where
  row : cliArgs.isDisabled .transactionsTable = false →
    db.transactions.HasKey transactionId
  inputs : cliArgs.isDisabled .transactionsInputsTable = false →
    ∀ position, position < transaction.inputs.length →
      db.transactionsInputs.HasKey (transactionId, (position : Int))
  outputs : cliArgs.isDisabled .transactionsOutputsTable = false →
    ∀ position, position < transaction.outputs.length →
      db.transactionsOutputs.HasKey (transactionId, (position : Int))
  addresses : cliArgs.mapsAddresses = true →
    ∀ output ∈ transaction.outputs, ∀ verboseData, output.verboseData = some verboseData →
      db.addressesTransactions.HasKey (verboseData.scriptPublicKeyAddress, transactionId)
  scripts : cliArgs.mapsScripts = true →
    ∀ output ∈ transaction.outputs,
      db.scriptsTransactions.HasKey (output.scriptPublicKey.script, transactionId)

/-- Transactions with as many inputs and the same outputs have the same keys. -/
theorem Stored.congr {cliArgs : CliArgs} {db : Db} {first second : RpcTransaction}
    {transactionId : Hash} (stored : Stored cliArgs db first transactionId)
    (inputs : first.inputs.length = second.inputs.length)
    (outputs : first.outputs = second.outputs) : Stored cliArgs db second transactionId where
  row := stored.row
  inputs enabled position inside := stored.inputs enabled position (inputs.symm ▸ inside)
  outputs enabled position inside := stored.outputs enabled position (outputs.symm ▸ inside)
  addresses mapped output isOutput := stored.addresses mapped output (outputs.symm ▸ isOutput)
  scripts mapped output isOutput := stored.scripts mapped output (outputs.symm ▸ isOutput)

/-! ## The keys of mapped rows -/

theorem eq_of_toI16 {value : ℕ} {result : Int} (converted : toI16 value = some result) :
    result = value := by
  unfold toI16 at converted
  split_ifs at converted
  exact (Option.some.inj converted).symm

section Mapped

variable {cliArgs : CliArgs} {mapper : VecnoDbMapper} {transaction : RpcTransaction}
  {verboseData : RpcTransactionVerboseData} {key : Int}

theorem mapRows_eq_some_iff {rows : TransactionRows} :
    mapRows cliArgs transaction key = some rows ↔
      (VecnoDbMapper.new cliArgs).mapTransaction transaction key = some rows.transaction ∧
      (VecnoDbMapper.new cliArgs).mapTransactionInputs transaction = some rows.inputs ∧
      (VecnoDbMapper.new cliArgs).mapTransactionOutputs transaction = some rows.outputs ∧
      (if cliArgs.mapsAddresses then VecnoDbMapper.mapTransactionOutputsAddress transaction
        else pure []) = some rows.addresses ∧
      (if cliArgs.mapsScripts then VecnoDbMapper.mapTransactionOutputsScript transaction
        else pure []) = some rows.scripts := by
  simp only [mapRows, Option.bind_eq_bind, Option.bind_eq_some_iff]
  constructor
  · rintro ⟨row, rowEq, inputs, inputsEq, outputs, outputsEq, addresses, addressesEq, scripts,
      scriptsEq, eq⟩
    cases eq
    exact ⟨rowEq, inputsEq, outputsEq, addressesEq, scriptsEq⟩
  · rintro ⟨rowEq, inputsEq, outputsEq, addressesEq, scriptsEq⟩
    exact ⟨_, rowEq, _, inputsEq, _, outputsEq, _, addressesEq, _, scriptsEq, rfl⟩

theorem primaryKey_mapTransaction {row : Transaction}
    (mapped : mapper.mapTransaction transaction key = some row)
    (hasVerbose : transaction.verboseData = some verboseData) :
    row.primaryKey = some verboseData.transactionId := by
  simp only [VecnoDbMapper.mapTransaction, hasVerbose, Option.bind_eq_bind,
    Option.bind_eq_some_iff] at mapped
  obtain ⟨_, verboseEq, _, _, _, _, eq⟩ := mapped
  cases verboseEq
  cases eq
  rfl

theorem exists_mapTransactionInputs {rows : List TransactionInput}
    (mapped : mapper.mapTransactionInputs transaction = some rows)
    (hasVerbose : transaction.verboseData = some verboseData) {position : ℕ}
    (inside : position < transaction.inputs.length) :
    ∃ row ∈ rows, row.primaryKey = some (verboseData.transactionId, (position : Int)) := by
  simp only [VecnoDbMapper.mapTransactionInputs, hasVerbose, Option.bind_eq_bind,
    Option.bind_some] at mapped
  have isInput : (transaction.inputs[position], position) ∈ transaction.inputs.zipIdx :=
    List.mem_zipIdx_iff_getElem?.mpr (List.getElem?_eq_getElem inside)
  obtain ⟨row, rowMem, rowEq⟩ := exists_mem_of_mapM_eq_some mapped isInput
  simp only [Option.bind_eq_some_iff] at rowEq
  obtain ⟨index, indexEq, _, _, _, _, eq⟩ := rowEq
  cases eq
  rw [← eq_of_toI16 indexEq]
  exact ⟨_, rowMem, rfl⟩

theorem exists_mapTransactionOutputs {rows : List TransactionOutput}
    (mapped : mapper.mapTransactionOutputs transaction = some rows)
    (hasVerbose : transaction.verboseData = some verboseData) {position : ℕ}
    (inside : position < transaction.outputs.length) :
    ∃ row ∈ rows, row.primaryKey = some (verboseData.transactionId, (position : Int)) := by
  simp only [VecnoDbMapper.mapTransactionOutputs, hasVerbose, Option.bind_eq_bind,
    Option.bind_some] at mapped
  have isOutput : (transaction.outputs[position], position) ∈ transaction.outputs.zipIdx :=
    List.mem_zipIdx_iff_getElem?.mpr (List.getElem?_eq_getElem inside)
  obtain ⟨row, rowMem, rowEq⟩ := exists_mem_of_mapM_eq_some mapped isOutput
  simp only [Option.bind_eq_some_iff] at rowEq
  obtain ⟨_, _, index, indexEq, _, _, _, _, eq⟩ := rowEq
  cases eq
  rw [← eq_of_toI16 indexEq]
  exact ⟨_, rowMem, rfl⟩

theorem exists_mapTransactionOutputsAddress {rows : List AddressTransaction}
    (mapped : VecnoDbMapper.mapTransactionOutputsAddress transaction = some rows)
    (hasVerbose : transaction.verboseData = some verboseData) {output : RpcTransactionOutput}
    (isOutput : output ∈ transaction.outputs) {outputVerboseData : RpcTransactionOutputVerboseData}
    (outputVerbose : output.verboseData = some outputVerboseData) :
    ∃ row ∈ rows, row.primaryKey =
      some (outputVerboseData.scriptPublicKeyAddress, verboseData.transactionId) := by
  simp only [VecnoDbMapper.mapTransactionOutputsAddress, hasVerbose, Option.bind_eq_bind,
    Option.bind_some] at mapped
  obtain ⟨row, rowMem, rowEq⟩ := exists_mem_of_mapM_eq_some mapped isOutput
  simp only [Option.bind_eq_some_iff] at rowEq
  obtain ⟨found, foundEq, _, _, eq⟩ := rowEq
  cases eq
  have sameVerbose := Option.some.inj (foundEq.symm.trans outputVerbose)
  exact ⟨_, rowMem, sameVerbose ▸ rfl⟩

theorem exists_mapTransactionOutputsScript {rows : List ScriptTransaction}
    (mapped : VecnoDbMapper.mapTransactionOutputsScript transaction = some rows)
    (hasVerbose : transaction.verboseData = some verboseData) {output : RpcTransactionOutput}
    (isOutput : output ∈ transaction.outputs) :
    ∃ row ∈ rows, row.primaryKey =
      some (output.scriptPublicKey.script, verboseData.transactionId) := by
  simp only [VecnoDbMapper.mapTransactionOutputsScript, hasVerbose, Option.bind_eq_bind,
    Option.bind_some] at mapped
  obtain ⟨row, rowMem, rowEq⟩ := exists_mem_of_mapM_eq_some mapped isOutput
  simp only [Option.bind_eq_some_iff] at rowEq
  obtain ⟨_, _, eq⟩ := rowEq
  cases eq
  exact ⟨_, rowMem, rfl⟩

/-! Every mapped row has one of these keys. -/

theorem eq_of_mem_mapTransactionInputs {rows : List TransactionInput}
    (mapped : mapper.mapTransactionInputs transaction = some rows)
    (hasVerbose : transaction.verboseData = some verboseData) {row : TransactionInput}
    (rowMem : row ∈ rows) : row.transactionId = verboseData.transactionId ∧
      ∃ position, position < transaction.inputs.length ∧ row.index = (position : Int) := by
  simp only [VecnoDbMapper.mapTransactionInputs, hasVerbose, Option.bind_eq_bind,
    Option.bind_some] at mapped
  obtain ⟨⟨input, position⟩, isInput, rowEq⟩ := exists_of_mem_mapM_eq_some mapped rowMem
  simp only [Option.bind_eq_some_iff] at rowEq
  obtain ⟨index, indexEq, _, _, _, _, eq⟩ := rowEq
  cases eq
  obtain ⟨inside, _⟩ := List.getElem?_eq_some_iff.mp (List.mem_zipIdx_iff_getElem?.mp isInput)
  exact ⟨rfl, position, inside, eq_of_toI16 indexEq⟩

theorem eq_of_mem_mapTransactionOutputs {rows : List TransactionOutput}
    (mapped : mapper.mapTransactionOutputs transaction = some rows)
    (hasVerbose : transaction.verboseData = some verboseData) {row : TransactionOutput}
    (rowMem : row ∈ rows) : row.transactionId = verboseData.transactionId ∧
      ∃ position, position < transaction.outputs.length ∧ row.index = (position : Int) := by
  simp only [VecnoDbMapper.mapTransactionOutputs, hasVerbose, Option.bind_eq_bind,
    Option.bind_some] at mapped
  obtain ⟨⟨output, position⟩, isOutput, rowEq⟩ := exists_of_mem_mapM_eq_some mapped rowMem
  simp only [Option.bind_eq_some_iff] at rowEq
  obtain ⟨_, _, index, indexEq, _, _, _, _, eq⟩ := rowEq
  cases eq
  obtain ⟨inside, _⟩ := List.getElem?_eq_some_iff.mp (List.mem_zipIdx_iff_getElem?.mp isOutput)
  exact ⟨rfl, position, inside, eq_of_toI16 indexEq⟩

theorem eq_of_mem_mapTransactionOutputsAddress {rows : List AddressTransaction}
    (mapped : VecnoDbMapper.mapTransactionOutputsAddress transaction = some rows)
    (hasVerbose : transaction.verboseData = some verboseData) {row : AddressTransaction}
    (rowMem : row ∈ rows) : row.transactionId = verboseData.transactionId ∧
      ∃ output ∈ transaction.outputs, output.verboseData = some ⟨row.address⟩ := by
  simp only [VecnoDbMapper.mapTransactionOutputsAddress, hasVerbose, Option.bind_eq_bind,
    Option.bind_some] at mapped
  obtain ⟨output, isOutput, rowEq⟩ := exists_of_mem_mapM_eq_some mapped rowMem
  simp only [Option.bind_eq_some_iff] at rowEq
  obtain ⟨found, foundEq, _, _, eq⟩ := rowEq
  cases eq
  exact ⟨rfl, output, isOutput, foundEq⟩

theorem eq_of_mem_mapTransactionOutputsScript {rows : List ScriptTransaction}
    (mapped : VecnoDbMapper.mapTransactionOutputsScript transaction = some rows)
    (hasVerbose : transaction.verboseData = some verboseData) {row : ScriptTransaction}
    (rowMem : row ∈ rows) : row.transactionId = verboseData.transactionId ∧
      ∃ output ∈ transaction.outputs, output.scriptPublicKey.script = row.scriptPublicKey := by
  simp only [VecnoDbMapper.mapTransactionOutputsScript, hasVerbose, Option.bind_eq_bind,
    Option.bind_some] at mapped
  obtain ⟨output, isOutput, rowEq⟩ := exists_of_mem_mapM_eq_some mapped rowMem
  simp only [Option.bind_eq_some_iff] at rowEq
  obtain ⟨_, _, eq⟩ := rowEq
  cases eq
  exact ⟨rfl, output, isOutput, rfl⟩

end Mapped

/-- The keys of every row a stored transaction is mapped to are taken. -/
structure KeysTaken (cliArgs : CliArgs) (db : Db) (rows : TransactionRows) : Prop where
  transactions : ∀ row ∈ (IndexedTable.transactions cliArgs).mapped rows,
    ∀ k, row.primaryKey = some k → db.transactions.HasKey k
  inputs : ∀ row ∈ (IndexedTable.inputs cliArgs).mapped rows,
    ∀ k, row.primaryKey = some k → db.transactionsInputs.HasKey k
  outputs : ∀ row ∈ (IndexedTable.outputs cliArgs).mapped rows,
    ∀ k, row.primaryKey = some k → db.transactionsOutputs.HasKey k
  addresses : ∀ row ∈ (IndexedTable.addresses cliArgs).mapped rows,
    ∀ k, row.primaryKey = some k → db.addressesTransactions.HasKey k
  scripts : ∀ row ∈ (IndexedTable.scripts cliArgs).mapped rows,
    ∀ k, row.primaryKey = some k → db.scriptsTransactions.HasKey k

theorem Stored.keysTaken {cliArgs : CliArgs} {db : Db} {transaction : RpcTransaction}
    {transactionId : Hash} (stored : Stored cliArgs db transaction transactionId)
    (idEq : transaction.transactionId = some transactionId) {key : Int} {rows : TransactionRows}
    (mapped : mapRows cliArgs transaction key = some rows) : KeysTaken cliArgs db rows := by
  obtain ⟨verboseData, hasVerbose, rfl⟩ := Option.map_eq_some_iff.mp idEq
  obtain ⟨rowEq, inputsEq, outputsEq, addressesEq, scriptsEq⟩ := mapRows_eq_some_iff.mp mapped
  constructor
  · rintro row rowMem k keyEq
    obtain ⟨enabled, isRow⟩ := IndexedTable.mem_rowsIf.mp rowMem
    rw [List.mem_singleton.mp isRow, primaryKey_mapTransaction rowEq hasVerbose] at keyEq
    cases keyEq
    exact stored.row (by simpa using enabled)
  · rintro row rowMem k ⟨⟩
    obtain ⟨enabled, isRow⟩ := IndexedTable.mem_rowsIf.mp rowMem
    obtain ⟨sameId, position, inside, indexEq⟩ :=
      eq_of_mem_mapTransactionInputs inputsEq hasVerbose isRow
    rw [sameId, indexEq]
    exact stored.inputs (by simpa using enabled) position inside
  · rintro row rowMem k ⟨⟩
    obtain ⟨enabled, isRow⟩ := IndexedTable.mem_rowsIf.mp rowMem
    obtain ⟨sameId, position, inside, indexEq⟩ :=
      eq_of_mem_mapTransactionOutputs outputsEq hasVerbose isRow
    rw [sameId, indexEq]
    exact stored.outputs (by simpa using enabled) position inside
  · rintro row rowMem k ⟨⟩
    obtain ⟨maps, isRow⟩ := IndexedTable.mem_rowsIf.mp rowMem
    rw [if_pos maps] at addressesEq
    obtain ⟨sameId, output, isOutput, verboseEq⟩ :=
      eq_of_mem_mapTransactionOutputsAddress addressesEq hasVerbose isRow
    rw [sameId]
    exact stored.addresses maps output isOutput _ verboseEq
  · rintro row rowMem k ⟨⟩
    obtain ⟨maps, isRow⟩ := IndexedTable.mem_rowsIf.mp rowMem
    rw [if_pos maps] at scriptsEq
    obtain ⟨sameId, output, isOutput, scriptEq⟩ :=
      eq_of_mem_mapTransactionOutputsScript scriptsEq hasVerbose isRow
    rw [sameId, ← scriptEq]
    exact stored.scripts maps output isOutput

/-- A transaction is stored where the keys of its rows are taken. -/
theorem KeysTaken.stored {cliArgs : CliArgs} {db : Db} {rows : TransactionRows}
    (taken : KeysTaken cliArgs db rows) {transaction : RpcTransaction} {transactionId : Hash}
    (idEq : transaction.transactionId = some transactionId) {key : Int}
    (mapped : mapRows cliArgs transaction key = some rows) :
    Stored cliArgs db transaction transactionId := by
  obtain ⟨verboseData, hasVerbose, rfl⟩ := Option.map_eq_some_iff.mp idEq
  obtain ⟨rowEq, inputsEq, outputsEq, addressesEq, scriptsEq⟩ := mapRows_eq_some_iff.mp mapped
  constructor
  · intro enabled
    apply taken.transactions _
      (IndexedTable.mem_rowsIf.mpr ⟨by rw [enabled]; rfl, List.mem_cons_self⟩)
    exact primaryKey_mapTransaction rowEq hasVerbose
  · intro enabled position inside
    obtain ⟨row, rowMem, keyEq⟩ := exists_mapTransactionInputs inputsEq hasVerbose inside
    exact taken.inputs row (IndexedTable.mem_rowsIf.mpr ⟨by rw [enabled]; rfl, rowMem⟩) _ keyEq
  · intro enabled position inside
    obtain ⟨row, rowMem, keyEq⟩ := exists_mapTransactionOutputs outputsEq hasVerbose inside
    exact taken.outputs row (IndexedTable.mem_rowsIf.mpr ⟨by rw [enabled]; rfl, rowMem⟩) _ keyEq
  · intro maps output isOutput outputVerboseData outputVerbose
    rw [if_pos maps] at addressesEq
    obtain ⟨row, rowMem, keyEq⟩ :=
      exists_mapTransactionOutputsAddress addressesEq hasVerbose isOutput outputVerbose
    exact taken.addresses row (IndexedTable.mem_rowsIf.mpr ⟨maps, rowMem⟩) _ keyEq
  · intro maps output isOutput
    rw [if_pos maps] at scriptsEq
    obtain ⟨row, rowMem, keyEq⟩ :=
      exists_mapTransactionOutputsScript scriptsEq hasVerbose isOutput
    exact taken.scripts row (IndexedTable.mem_rowsIf.mpr ⟨maps, rowMem⟩) _ keyEq

/-! ## When nothing is pending -/

namespace TransactionLoop

variable {cliArgs : CliArgs} {start db : Db} {loop : TransactionLoop}
  {popped mapped : List RpcTransaction}

theorem TracksTable.hasKey {α β κ : Type} {rowKey : α → Option κ} {project : α → β}
    {table : IndexedTable cliArgs rowKey project} {given : List α}
    (tracked : TracksTable start db loop mapped table given)
    (nothing : loop.pendingRows = .nothing) {transaction : RpcTransaction}
    (isMapped : transaction ∈ mapped) {rows : TransactionRows}
    (rowsEq : loop.rowsOf cliArgs transaction = some rows) {row : α}
    (rowMem : row ∈ table.mapped rows) {k : κ} (keyEq : rowKey row = some k) :
    (table.place.get db).HasKey k := by
  obtain ⟨other, otherMem, sameKey⟩ := tracked.taken transaction isMapped rows rowsEq row rowMem
  rw [nothing, table.pending_nothing, List.append_nil] at otherMem
  exact tracked.filled.present other otherMem k (sameKey.trans keyEq)

/-- A mapped transaction is stored. -/
theorem Tracks.stored_of_mapped (tracks : Tracks cliArgs start db loop popped mapped)
    (nothing : loop.pendingRows = .nothing) {transaction : RpcTransaction}
    (isMapped : transaction ∈ mapped) {transactionId : Hash}
    (idEq : transaction.transactionId = some transactionId) :
    Stored cliArgs db transaction transactionId := by
  obtain ⟨rows, rowsEq⟩ := tracks.rows_of_mapped transaction isMapped
  have mappedRows := rowsEq
  simp only [rowsOf, Option.bind_eq_bind, Option.bind_eq_some_iff] at mappedRows
  obtain ⟨key, _, mappedRows⟩ := mappedRows
  refine KeysTaken.stored ⟨?_, ?_, ?_, ?_, ?_⟩ idEq mappedRows
  · obtain ⟨given, tracked⟩ := tracks.tables (IndexedTable.transactions cliArgs)
    exact fun row rowMem k => tracked.hasKey nothing isMapped rowsEq rowMem
  · obtain ⟨given, tracked⟩ := tracks.tables (IndexedTable.inputs cliArgs)
    exact fun row rowMem k => tracked.hasKey nothing isMapped rowsEq rowMem
  · obtain ⟨given, tracked⟩ := tracks.tables (IndexedTable.outputs cliArgs)
    exact fun row rowMem k => tracked.hasKey nothing isMapped rowsEq rowMem
  · obtain ⟨given, tracked⟩ := tracks.tables (IndexedTable.addresses cliArgs)
    exact fun row rowMem k => tracked.hasKey nothing isMapped rowsEq rowMem
  · obtain ⟨given, tracked⟩ := tracks.tables (IndexedTable.scripts cliArgs)
    exact fun row rowMem k => tracked.hasKey nothing isMapped rowsEq rowMem

/-- The block relation of a popped transaction is stored. -/
theorem Tracks.relation_stored (tracks : Tracks cliArgs start db loop popped mapped)
    (enabled : cliArgs.isDisabled .blocksTransactionsTable = false) (nothing : loop.blockTx = [])
    {transaction : RpcTransaction} (isPopped : transaction ∈ popped)
    {verboseData : RpcTransactionVerboseData}
    (hasVerbose : transaction.verboseData = some verboseData) :
    db.blocksTransactions.HasKey (verboseData.blockHash, verboseData.transactionId) := by
  obtain ⟨given, tracked⟩ := tracks.relations
  have relationEq : VecnoDbMapper.mapBlockTransaction transaction =
      some ⟨verboseData.blockHash, verboseData.transactionId⟩ := by
    simp [VecnoDbMapper.mapBlockTransaction, hasVerbose]
  have held := (tracked.same _).mpr ⟨enabled, transaction, isPopped, relationEq⟩
  rw [nothing, IndexedTable.rowsIf_nil, List.append_nil] at held
  exact tracked.filled.present _ held _ rfl

end TransactionLoop

end VecnoIndexer
