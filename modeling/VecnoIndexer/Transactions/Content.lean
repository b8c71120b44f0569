import VecnoIndexer.Transactions.Stored

/-!
# The content of a transaction

Occurrences of a transaction in several blocks differ in the hash and the time of the
block only.  The rows they are mapped to are the same apart from the time.
-/

namespace VecnoIndexer

open VecnoIndexer.Sql
open VecnoIndexer.Collections

/-- A transaction apart from the block it was found in. -/
def RpcTransaction.content (transaction : RpcTransaction) : RpcTransaction :=
  { transaction with
    verboseData := transaction.verboseData.map fun verboseData =>
      { verboseData with
        blockHash := 0
        blockTime := 0 } }

/-- What a transaction spends and what it creates. -/
def RpcTransaction.effect (transaction : RpcTransaction) :
    List RpcTransactionOutpoint × List RpcTransactionOutput :=
  (transaction.inputs.map RpcTransactionInput.previousOutpoint, transaction.outputs)

/-- Occurrences of one transaction id spend and create the same. -/
def SameEffectById (transactions : List RpcTransaction) : Prop :=
  ∀ first ∈ transactions, ∀ second ∈ transactions,
    first.transactionId = second.transactionId → first.effect = second.effect

/-- Occurrences of one transaction id carry equal content. -/
def SameContentById (transactions : List RpcTransaction) : Prop :=
  ∀ first ∈ transactions, ∀ second ∈ transactions,
    first.transactionId = second.transactionId → first.content = second.content

theorem toI64_zero : toI64 0 = some 0 := by
  decide

section Mapped

variable {cliArgs : CliArgs} {mapper : VecnoDbMapper} {transaction : RpcTransaction} {key : Int}

theorem mapTransaction_content {row : Transaction}
    (mapped : mapper.mapTransaction transaction key = some row) :
    ∃ like, mapper.mapTransaction transaction.content key = some like ∧
      like.apartFromTime = row.apartFromTime := by
  simp only [VecnoDbMapper.mapTransaction, Option.bind_eq_bind, Option.bind_eq_some_iff] at mapped
  obtain ⟨verboseData, hasVerbose, computeMass, massEq, blockTime, timeEq, eq⟩ := mapped
  cases eq
  simp only [VecnoDbMapper.mapTransaction, RpcTransaction.content, hasVerbose, Option.map_some,
    Option.bind_eq_bind, Option.bind_eq_some_iff]
  exact ⟨_, ⟨_, rfl, computeMass, massEq, 0, toI64_zero, rfl⟩, rfl⟩

theorem mapTransactionInputs_content {rows : List TransactionInput}
    (mapped : mapper.mapTransactionInputs transaction = some rows) :
    ∃ likes, mapper.mapTransactionInputs transaction.content = some likes ∧
      likes.map TransactionInput.apartFromTime = rows.map TransactionInput.apartFromTime := by
  simp only [VecnoDbMapper.mapTransactionInputs, Option.bind_eq_bind, Option.bind_eq_some_iff]
    at mapped
  obtain ⟨verboseData, hasVerbose, mapped⟩ := mapped
  simp only [VecnoDbMapper.mapTransactionInputs, RpcTransaction.content, hasVerbose,
    Option.map_some, Option.bind_eq_bind, Option.bind_some]
  refine exists_mapM_of_project (fun input row rowEq => ?_) mapped
  simp only [Option.bind_eq_some_iff] at rowEq
  obtain ⟨index, indexEq, previousIndex, previousEq, blockTime, timeEq, eq⟩ := rowEq
  cases eq
  simp only [indexEq, previousEq, UInt64.toNat_zero, toI64_zero, Option.bind_some]
  exact ⟨_, rfl, rfl⟩

theorem mapTransactionOutputs_content {rows : List TransactionOutput}
    (mapped : mapper.mapTransactionOutputs transaction = some rows) :
    ∃ likes, mapper.mapTransactionOutputs transaction.content = some likes ∧
      likes.map TransactionOutput.apartFromTime = rows.map TransactionOutput.apartFromTime := by
  simp only [VecnoDbMapper.mapTransactionOutputs, Option.bind_eq_bind, Option.bind_eq_some_iff]
    at mapped
  obtain ⟨verboseData, hasVerbose, mapped⟩ := mapped
  simp only [VecnoDbMapper.mapTransactionOutputs, RpcTransaction.content, hasVerbose,
    Option.map_some, Option.bind_eq_bind, Option.bind_some]
  refine exists_mapM_of_project (fun output row rowEq => ?_) mapped
  simp only [Option.bind_eq_some_iff] at rowEq
  obtain ⟨outputVerbose, verboseEq, index, indexEq, amount, amountEq, blockTime, timeEq, eq⟩ :=
    rowEq
  cases eq
  simp only [verboseEq, indexEq, amountEq, UInt64.toNat_zero, toI64_zero, Option.bind_some]
  exact ⟨_, rfl, rfl⟩

/-- The rows of equal outputs of one transaction id are the same apart from the time. -/
theorem like_outputs_of_effect {other : RpcTransaction} {rows otherRows : List TransactionOutput}
    (sameId : transaction.transactionId = other.transactionId)
    (same : transaction.effect = other.effect)
    (mapped : mapper.mapTransactionOutputs transaction = some rows)
    (otherMapped : mapper.mapTransactionOutputs other = some otherRows) :
    rows.map TransactionOutput.apartFromTime = otherRows.map TransactionOutput.apartFromTime := by
  obtain ⟨likes, likesEq, isLike⟩ := mapTransactionOutputs_content mapped
  obtain ⟨otherLikes, otherLikesEq, isOtherLike⟩ := mapTransactionOutputs_content otherMapped
  simp only [VecnoDbMapper.mapTransactionOutputs, Option.bind_eq_bind,
    Option.bind_eq_some_iff] at mapped otherMapped
  obtain ⟨verboseData, hasVerbose, _⟩ := mapped
  obtain ⟨otherVerbose, hasOther, _⟩ := otherMapped
  have sameOutputs : transaction.outputs = other.outputs := congrArg Prod.snd same
  have sameIds : verboseData.transactionId = otherVerbose.transactionId := by
    simpa [RpcTransaction.transactionId, hasVerbose, hasOther] using sameId
  have sameLikes : likes = otherLikes := by
    simp only [VecnoDbMapper.mapTransactionOutputs, RpcTransaction.content, hasVerbose, hasOther,
      Option.map_some, Option.bind_eq_bind, Option.bind_some, sameOutputs, sameIds]
      at likesEq otherLikesEq
    exact Option.some.inj (likesEq.symm.trans otherLikesEq)
  rw [← isLike, ← isOtherLike, sameLikes]

theorem mapTransactionOutputsAddress_content {rows : List AddressTransaction}
    (mapped : VecnoDbMapper.mapTransactionOutputsAddress transaction = some rows) :
    ∃ likes, VecnoDbMapper.mapTransactionOutputsAddress transaction.content = some likes ∧
      likes.map AddressTransaction.apartFromTime = rows.map AddressTransaction.apartFromTime := by
  simp only [VecnoDbMapper.mapTransactionOutputsAddress, Option.bind_eq_bind,
    Option.bind_eq_some_iff] at mapped
  obtain ⟨verboseData, hasVerbose, mapped⟩ := mapped
  simp only [VecnoDbMapper.mapTransactionOutputsAddress, RpcTransaction.content, hasVerbose,
    Option.map_some, Option.bind_eq_bind, Option.bind_some]
  refine exists_mapM_of_project (fun output row rowEq => ?_) mapped
  simp only [Option.bind_eq_some_iff] at rowEq
  obtain ⟨outputVerbose, verboseEq, blockTime, timeEq, eq⟩ := rowEq
  cases eq
  simp only [verboseEq, UInt64.toNat_zero, toI64_zero, Option.bind_some]
  exact ⟨_, rfl, rfl⟩

theorem mapTransactionOutputsScript_content {rows : List ScriptTransaction}
    (mapped : VecnoDbMapper.mapTransactionOutputsScript transaction = some rows) :
    ∃ likes, VecnoDbMapper.mapTransactionOutputsScript transaction.content = some likes ∧
      likes.map ScriptTransaction.apartFromTime = rows.map ScriptTransaction.apartFromTime := by
  simp only [VecnoDbMapper.mapTransactionOutputsScript, Option.bind_eq_bind,
    Option.bind_eq_some_iff] at mapped
  obtain ⟨verboseData, hasVerbose, mapped⟩ := mapped
  simp only [VecnoDbMapper.mapTransactionOutputsScript, RpcTransaction.content, hasVerbose,
    Option.map_some, Option.bind_eq_bind, Option.bind_some]
  refine exists_mapM_of_project (fun output row rowEq => ?_) mapped
  simp only [Option.bind_eq_some_iff] at rowEq
  obtain ⟨blockTime, timeEq, eq⟩ := rowEq
  cases eq
  simp only [UInt64.toNat_zero, toI64_zero, Option.bind_some]
  exact ⟨_, rfl, rfl⟩

/-- The rows of the content are those of the transaction apart from the time. -/
theorem mapRows_content {rows : TransactionRows}
    (mapped : mapRows cliArgs transaction key = some rows) :
    ∃ like, mapRows cliArgs transaction.content key = some like ∧ like.Like rows := by
  obtain ⟨rowEq, inputsEq, outputsEq, addressesEq, scriptsEq⟩ := mapRows_eq_some_iff.mp mapped
  obtain ⟨row, rowContent, sameRow⟩ := mapTransaction_content rowEq
  obtain ⟨inputs, inputsContent, sameInputs⟩ := mapTransactionInputs_content inputsEq
  obtain ⟨outputs, outputsContent, sameOutputs⟩ := mapTransactionOutputs_content outputsEq
  have addressesContent : ∃ likes, (if cliArgs.mapsAddresses then
        VecnoDbMapper.mapTransactionOutputsAddress transaction.content else pure []) = some likes ∧
      likes.map AddressTransaction.apartFromTime =
        rows.addresses.map AddressTransaction.apartFromTime := by
    split_ifs at addressesEq ⊢
    · exact mapTransactionOutputsAddress_content addressesEq
    · exact ⟨_, addressesEq, rfl⟩
  have scriptsContent : ∃ likes, (if cliArgs.mapsScripts then
        VecnoDbMapper.mapTransactionOutputsScript transaction.content else pure []) = some likes ∧
      likes.map ScriptTransaction.apartFromTime =
        rows.scripts.map ScriptTransaction.apartFromTime := by
    split_ifs at scriptsEq ⊢
    · exact mapTransactionOutputsScript_content scriptsEq
    · exact ⟨_, scriptsEq, rfl⟩
  obtain ⟨addresses, addressesContent, sameAddresses⟩ := addressesContent
  obtain ⟨scripts, scriptsContent, sameScripts⟩ := scriptsContent
  exact ⟨⟨row, inputs, outputs, addresses, scripts⟩,
    mapRows_eq_some_iff.mpr
      ⟨rowContent, inputsContent, outputsContent, addressesContent, scriptsContent⟩,
    ⟨sameRow, sameInputs, sameOutputs, sameAddresses, sameScripts⟩⟩

theorem TransactionRows.Like.symm {first second : TransactionRows} (like : first.Like second) :
    second.Like first :=
  ⟨like.transaction.symm, like.inputs.symm, like.outputs.symm, like.addresses.symm,
    like.scripts.symm⟩

theorem TransactionRows.Like.trans {first second third : TransactionRows}
    (one : first.Like second) (two : second.Like third) : first.Like third :=
  ⟨one.transaction.trans two.transaction, one.inputs.trans two.inputs,
    one.outputs.trans two.outputs, one.addresses.trans two.addresses,
    one.scripts.trans two.scripts⟩

/-- Transactions with the same content have the same rows apart from the time. -/
theorem like_of_content {other : RpcTransaction} {rows otherRows : TransactionRows}
    (same : transaction.content = other.content)
    (mapped : mapRows cliArgs transaction key = some rows)
    (otherMapped : mapRows cliArgs other key = some otherRows) : rows.Like otherRows := by
  obtain ⟨like, likeEq, isLike⟩ := mapRows_content mapped
  obtain ⟨otherLike, otherLikeEq, isOtherLike⟩ := mapRows_content otherMapped
  rw [same, otherLikeEq] at likeEq
  cases likeEq
  exact isLike.symm.trans isOtherLike

end Mapped

/-- Equal contents have equal ids, equally many inputs, the same outputs and the same
subnetwork. -/
theorem identified_of_content {first second : RpcTransaction}
    (same : first.content = second.content) :
    first.inputs = second.inputs ∧ first.outputs = second.outputs ∧
      first.subnetworkId = second.subnetworkId :=
  have sameInputs := congrArg RpcTransaction.inputs same
  have sameOutputs := congrArg RpcTransaction.outputs same
  have sameSubnetwork := congrArg RpcTransaction.subnetworkId same
  ⟨sameInputs, sameOutputs, sameSubnetwork⟩

/-! ## Keys determine rows -/

/-- Rows with one key belong to occurrences of one transaction, and are the same apart from
the columns not compared if they belong to one occurrence. -/
structure IndexedTable.Determined {α β κ : Type} {cliArgs : CliArgs} {rowKey : α → Option κ}
    {project : α → β} (table : IndexedTable cliArgs rowKey project) : Prop where
  sameId : ∀ {transaction other : RpcTransaction} {key otherKey : Int}
    {rows otherRows : TransactionRows}, mapRows cliArgs transaction key = some rows →
    mapRows cliArgs other otherKey = some otherRows →
    ∀ row ∈ table.mapped rows, ∀ otherRow ∈ table.mapped otherRows, rowKey row = rowKey otherRow →
      transaction.transactionId = other.transactionId
  sameRow : ∀ {transaction : RpcTransaction} {key : Int} {rows : TransactionRows},
    mapRows cliArgs transaction key = some rows →
    ∀ row ∈ table.mapped rows, ∀ other ∈ table.mapped rows, rowKey row = rowKey other →
      project row = project other

namespace IndexedTable

variable {cliArgs : CliArgs} {transaction : RpcTransaction} {key : Int} {rows : TransactionRows}

theorem exists_verboseData (mapped : mapRows cliArgs transaction key = some rows) :
    ∃ verboseData, transaction.verboseData = some verboseData ∧
      transaction.transactionId = some verboseData.transactionId := by
  obtain ⟨rowEq, _⟩ := mapRows_eq_some_iff.mp mapped
  simp only [VecnoDbMapper.mapTransaction, Option.bind_eq_bind, Option.bind_eq_some_iff] at rowEq
  obtain ⟨verboseData, hasVerbose, _⟩ := rowEq
  exact ⟨verboseData, hasVerbose, congrArg (Option.map _) hasVerbose⟩

theorem transactionId_of_mem_transactions (mapped : mapRows cliArgs transaction key = some rows)
    {row : Transaction} (rowMem : row ∈ (IndexedTable.transactions cliArgs).mapped rows) :
    transaction.transactionId = some row.transactionId := by
  obtain ⟨verboseData, hasVerbose, idEq⟩ := exists_verboseData mapped
  obtain ⟨rowEq, _⟩ := mapRows_eq_some_iff.mp mapped
  rw [List.mem_singleton.mp (mem_rowsIf.mp rowMem).2, idEq]
  exact (primaryKey_mapTransaction rowEq hasVerbose).symm

theorem transactionId_of_mem_inputs (mapped : mapRows cliArgs transaction key = some rows)
    {row : TransactionInput} (rowMem : row ∈ (IndexedTable.inputs cliArgs).mapped rows) :
    transaction.transactionId = some row.transactionId := by
  obtain ⟨verboseData, hasVerbose, idEq⟩ := exists_verboseData mapped
  obtain ⟨_, inputsEq, _⟩ := mapRows_eq_some_iff.mp mapped
  rw [(eq_of_mem_mapTransactionInputs inputsEq hasVerbose (mem_rowsIf.mp rowMem).2).1, idEq]

theorem transactionId_of_mem_outputs (mapped : mapRows cliArgs transaction key = some rows)
    {row : TransactionOutput} (rowMem : row ∈ (IndexedTable.outputs cliArgs).mapped rows) :
    transaction.transactionId = some row.transactionId := by
  obtain ⟨verboseData, hasVerbose, idEq⟩ := exists_verboseData mapped
  obtain ⟨_, _, outputsEq, _⟩ := mapRows_eq_some_iff.mp mapped
  rw [(eq_of_mem_mapTransactionOutputs outputsEq hasVerbose (mem_rowsIf.mp rowMem).2).1, idEq]

theorem transactionId_of_mem_addresses (mapped : mapRows cliArgs transaction key = some rows)
    {row : AddressTransaction} (rowMem : row ∈ (IndexedTable.addresses cliArgs).mapped rows) :
    transaction.transactionId = some row.transactionId := by
  obtain ⟨verboseData, hasVerbose, idEq⟩ := exists_verboseData mapped
  obtain ⟨_, _, _, addressesEq, _⟩ := mapRows_eq_some_iff.mp mapped
  obtain ⟨maps, isRow⟩ := mem_rowsIf.mp rowMem
  rw [if_pos maps] at addressesEq
  rw [(eq_of_mem_mapTransactionOutputsAddress addressesEq hasVerbose isRow).1, idEq]

theorem transactionId_of_mem_scripts (mapped : mapRows cliArgs transaction key = some rows)
    {row : ScriptTransaction} (rowMem : row ∈ (IndexedTable.scripts cliArgs).mapped rows) :
    transaction.transactionId = some row.transactionId := by
  obtain ⟨verboseData, hasVerbose, idEq⟩ := exists_verboseData mapped
  obtain ⟨_, _, _, _, scriptsEq⟩ := mapRows_eq_some_iff.mp mapped
  obtain ⟨maps, isRow⟩ := mem_rowsIf.mp rowMem
  rw [if_pos maps] at scriptsEq
  rw [(eq_of_mem_mapTransactionOutputsScript scriptsEq hasVerbose isRow).1, idEq]

theorem determined_transactions (cliArgs : CliArgs) : (transactions cliArgs).Determined where
  sameId mapped otherMapped row rowMem otherRow otherMem sameKey := by
    rw [transactionId_of_mem_transactions mapped rowMem,
      transactionId_of_mem_transactions otherMapped otherMem]
    exact sameKey
  sameRow mapped row rowMem other otherMem _ := by
    rw [List.mem_singleton.mp (mem_rowsIf.mp rowMem).2,
      List.mem_singleton.mp (mem_rowsIf.mp otherMem).2]

/-- Inputs of a transaction with one position are the same input. -/
theorem determined_inputs (cliArgs : CliArgs) : (inputs cliArgs).Determined where
  sameId mapped otherMapped row rowMem otherRow otherMem sameKey := by
    have sameIds := congrArg Prod.fst (Option.some.inj sameKey)
    rw [transactionId_of_mem_inputs mapped rowMem,
      transactionId_of_mem_inputs otherMapped otherMem]
    exact congrArg some sameIds
  sameRow mapped row rowMem other otherMem sameKey := by
    obtain ⟨_, inputsEq, _⟩ := mapRows_eq_some_iff.mp mapped
    have sameIndex := congrArg Prod.snd (Option.some.inj sameKey)
    simp only [VecnoDbMapper.mapTransactionInputs, Option.bind_eq_bind,
      Option.bind_eq_some_iff] at inputsEq
    obtain ⟨verboseData, _, mappedRows⟩ := inputsEq
    obtain ⟨⟨input, position⟩, isInput, rowEq⟩ :=
      exists_of_mem_mapM_eq_some mappedRows (mem_rowsIf.mp rowMem).2
    obtain ⟨⟨otherInput, otherPosition⟩, isOther, otherEq⟩ :=
      exists_of_mem_mapM_eq_some mappedRows (mem_rowsIf.mp otherMem).2
    have samePosition : position = otherPosition := by
      simp only [Option.bind_eq_some_iff] at rowEq otherEq
      obtain ⟨index, indexEq, _, _, _, _, eq⟩ := rowEq
      obtain ⟨otherIndex, otherIndexEq, _, _, _, _, otherEq⟩ := otherEq
      cases eq
      cases otherEq
      rw [eq_of_toI16 indexEq, eq_of_toI16 otherIndexEq] at sameIndex
      exact Int.ofNat_inj.mp sameIndex
    subst samePosition
    have atPosition := List.mem_zipIdx_iff_getElem?.mp isInput
    have otherAtPosition := List.mem_zipIdx_iff_getElem?.mp isOther
    have sameInput : input = otherInput := Option.some.inj (atPosition.symm.trans otherAtPosition)
    subst sameInput
    have sameRow := Option.some.inj (rowEq.symm.trans otherEq)
    exact congrArg _ sameRow

theorem determined_outputs (cliArgs : CliArgs) : (outputs cliArgs).Determined where
  sameId mapped otherMapped row rowMem otherRow otherMem sameKey := by
    have sameIds := congrArg Prod.fst (Option.some.inj sameKey)
    rw [transactionId_of_mem_outputs mapped rowMem,
      transactionId_of_mem_outputs otherMapped otherMem]
    exact congrArg some sameIds
  sameRow mapped row rowMem other otherMem sameKey := by
    obtain ⟨_, _, outputsEq, _⟩ := mapRows_eq_some_iff.mp mapped
    have sameIndex := congrArg Prod.snd (Option.some.inj sameKey)
    simp only [VecnoDbMapper.mapTransactionOutputs, Option.bind_eq_bind,
      Option.bind_eq_some_iff] at outputsEq
    obtain ⟨verboseData, _, mappedRows⟩ := outputsEq
    obtain ⟨⟨output, position⟩, isOutput, rowEq⟩ :=
      exists_of_mem_mapM_eq_some mappedRows (mem_rowsIf.mp rowMem).2
    obtain ⟨⟨otherOutput, otherPosition⟩, isOther, otherEq⟩ :=
      exists_of_mem_mapM_eq_some mappedRows (mem_rowsIf.mp otherMem).2
    have samePosition : position = otherPosition := by
      simp only [Option.bind_eq_some_iff] at rowEq otherEq
      obtain ⟨_, _, index, indexEq, _, _, _, _, eq⟩ := rowEq
      obtain ⟨_, _, otherIndex, otherIndexEq, _, _, _, _, otherEq⟩ := otherEq
      cases eq
      cases otherEq
      rw [eq_of_toI16 indexEq, eq_of_toI16 otherIndexEq] at sameIndex
      exact Int.ofNat_inj.mp sameIndex
    subst samePosition
    have atPosition := List.mem_zipIdx_iff_getElem?.mp isOutput
    have otherAtPosition := List.mem_zipIdx_iff_getElem?.mp isOther
    have sameOutput : output = otherOutput :=
      Option.some.inj (atPosition.symm.trans otherAtPosition)
    subst sameOutput
    have sameRow := Option.some.inj (rowEq.symm.trans otherEq)
    exact congrArg _ sameRow

theorem determined_addresses (cliArgs : CliArgs) : (addresses cliArgs).Determined where
  sameId mapped otherMapped row rowMem otherRow otherMem sameKey := by
    have sameIds := congrArg Prod.snd (Option.some.inj sameKey)
    rw [transactionId_of_mem_addresses mapped rowMem,
      transactionId_of_mem_addresses otherMapped otherMem]
    exact congrArg some sameIds
  sameRow _ row _ other _ sameKey := by
    simp only [AddressTransaction.primaryKey, Option.some.injEq, Prod.mk.injEq] at sameKey
    simp [AddressTransaction.apartFromTime, sameKey]

theorem determined_scripts (cliArgs : CliArgs) : (scripts cliArgs).Determined where
  sameId mapped otherMapped row rowMem otherRow otherMem sameKey := by
    have sameIds := congrArg Prod.snd (Option.some.inj sameKey)
    rw [transactionId_of_mem_scripts mapped rowMem,
      transactionId_of_mem_scripts otherMapped otherMem]
    exact congrArg some sameIds
  sameRow _ row _ other _ sameKey := by
    simp only [ScriptTransaction.primaryKey, Option.some.injEq, Prod.mk.injEq] at sameKey
    simp [ScriptTransaction.apartFromTime, sameKey]

end IndexedTable

end VecnoIndexer
