import VecnoIndexer.Transactions.SameIndex

/-!
# Sources of spent outputs

A stored input joins the output it spends.  When the transaction that creates a spent
output is popped no later than its spender, the join of a committed input is settled:
no later commit changes what it spends.  This is what the resolved columns and the
address index of the inputs rest on.
-/

namespace VecnoIndexer

open VecnoIndexer.Sql
open VecnoIndexer.Collections
open VecnoIndexer.Transition

/-! ## The runs of the transaction processor -/

namespace IndexingWorld

/-- What the processor has before its first iteration, and what neither other components,
nor a popped block, nor a commit changes, it always has. -/
theorem of_running {settings : Settings} {start : Db} {now : ℕ}
    {property : Db → TransactionLoop → List TransactionData → Prop}
    (loaded : property start (.loaded now start.subnetworks.rows) [])
    (same : ∀ {db final : Db} {loop : TransactionLoop} {popped : List TransactionData},
      SameTransactions db final → property db loop popped → property final loop popped)
    (receive : ∀ {db final : Db} {loop received : TransactionLoop} {popped : List TransactionData}
      {forgotten : ℕ → Hash → Bool} {data : TransactionData} {script rest : Script},
      Session.run (loop.receive settings.cliArgs forgotten data) db script =
        .done received final rest →
      property db loop popped → property final received (popped ++ [data]))
    (commit : ∀ {db final : Db} {loop after : TransactionLoop} {popped : List TransactionData}
      {input : TransactionsInput} {script rest : Script},
      Session.run (loop.commit settings.cliArgs input) db script = .done after final rest →
      property db loop popped → property final after popped)
    (events : List IndexingEvent) {loop : TransactionLoop}
    (running : (runFrom (step settings) (.start start now) events).transactionLoop = some loop) :
    property (runFrom (step settings) (.start start now) events).db loop
      (runFrom (step settings) (.start start now) events).poppedTransactions := by
  refine @invariant_of_run _ _ (step settings) (fun world => ∀ loop,
    world.transactionLoop = some loop → property world.db loop world.poppedTransactions)
    (fun world event holds => ?_) (.start start now) events ?_ loop running
  · intro next running
    have stepped := world.stepped settings event
    generalize world.step settings event = last at stepped running ⊢
    cases stepped with
    | idle => exact holds next running
    | blocks _ ran => exact same (BlockLoop.sameTransactions_of_iterate ran) (holds next running)
    | blocksDie _ => cases running
    | transactionsDie _ => cases running
    | other change => exact same (sameTransactions_restore world.db _) (holds next running)
    | transactions current ran =>
        cases running
        simp only [afterTransactions]
        rcases TransactionLoop.done_iterate ran with ⟨nothing, unchanged, _, rfl⟩ |
          ⟨data, received, middle, left, isPopped, receiveRan, committed⟩
        · rw [nothing, Option.toList_none, List.append_nil, unchanged]
          exact holds _ current
        · rw [isPopped, Option.toList_some]
          have taken := receive receiveRan (holds _ current)
          rcases committed with ⟨isReceived, _, rfl⟩ | ⟨_, last, commitRan⟩
          · rw [isReceived]
            exact taken
          · exact commit commitRan taken
  · rintro loop ⟨⟩
    exact loaded

end IndexingWorld

/-! ## Inputs and what they spend -/

/-- The outpoint of an input row. -/
def TransactionInput.PointsTo (row : TransactionInput) (transactionId : Hash) (position : ℕ) :
    Prop :=
  row.previousOutpointHash = some transactionId ∧
    row.previousOutpointIndex = some (position : Int)

theorem spentOutput_eq_some_iff {db : Db} {row : TransactionInput} {output : TransactionOutput} :
    db.spentOutput row = some output ↔ output ∈ db.transactionsOutputs ∧
      row.previousOutpointHash = some output.transactionId ∧
      row.previousOutpointIndex = some output.index := by
  simp only [Db.spentOutput, Option.bind_eq_bind, Option.bind_eq_some_iff,
    Table.lookup_eq_some_iff]
  constructor
  · rintro ⟨transactionId, hashEq, index, indexEq, stored, rowKey⟩
    cases rowKey
    exact ⟨stored, hashEq, indexEq⟩
  · rintro ⟨stored, hashEq, indexEq⟩
    exact ⟨output.transactionId, hashEq, output.index, indexEq, stored, rfl⟩

/-- The row is of an input, with its outpoint if that is included. -/
structure IsInputOf (cliArgs : CliArgs) (transaction : RpcTransaction)
    (input : RpcTransactionInput) (row : TransactionInput) : Prop where
  among : input ∈ transaction.inputs
  transactionId : transaction.transactionId = some row.transactionId
  hash : row.previousOutpointHash =
    thenSome (!cliArgs.isExcluded .txInPreviousOutpoint) input.previousOutpoint.transactionId
  index : row.previousOutpointIndex =
    thenSome (!cliArgs.isExcluded .txInPreviousOutpoint)
      (input.previousOutpoint.index.toNat : Int)

theorem IsInputOf.of_apartFromTime {cliArgs : CliArgs} {transaction : RpcTransaction}
    {input : RpcTransactionInput} {row other : TransactionInput}
    (isInput : IsInputOf cliArgs transaction input row)
    (like : row.apartFromTime = other.apartFromTime) :
    IsInputOf cliArgs transaction input other where
  among := isInput.among
  transactionId := by
    rw [isInput.transactionId]
    have same := congrArg TransactionInput.transactionId like
    exact congrArg some same
  hash := by
    have same := congrArg TransactionInput.previousOutpointHash like
    exact (same : row.previousOutpointHash = _).symm.trans isInput.hash
  index := by
    have same := congrArg TransactionInput.previousOutpointIndex like
    exact (same : row.previousOutpointIndex = _).symm.trans isInput.index

/-- The row is of each input that spends the same in an occurrence of the transaction. -/
theorem IsInputOf.of_samePrevious {cliArgs : CliArgs} {transaction other : RpcTransaction}
    {input otherInput : RpcTransactionInput} {row : TransactionInput}
    (isInput : IsInputOf cliArgs transaction input row)
    (sameId : transaction.transactionId = other.transactionId)
    (among : otherInput ∈ other.inputs)
    (same : otherInput.previousOutpoint = input.previousOutpoint) :
    IsInputOf cliArgs other otherInput row where
  among := among
  transactionId := sameId.symm.trans isInput.transactionId
  hash := by
    rw [isInput.hash, same]
  index := by
    rw [isInput.index, same]

/-- Transactions of one effect spend the same at each position. -/
theorem exists_input_of_effect {first second : RpcTransaction} (same : first.effect = second.effect)
    {position : ℕ} {input : RpcTransactionInput}
    (atPosition : first.inputs[position]? = some input) :
    ∃ other, second.inputs[position]? = some other ∧
      other.previousOutpoint = input.previousOutpoint := by
  have sameOutpoints : first.inputs.map RpcTransactionInput.previousOutpoint =
      second.inputs.map RpcTransactionInput.previousOutpoint := congrArg Prod.fst same
  have spent : (second.inputs.map RpcTransactionInput.previousOutpoint)[position]? =
      some input.previousOutpoint := by
    rw [← sameOutpoints, List.getElem?_map, atPosition, Option.map_some]
  rwa [List.getElem?_map, Option.map_eq_some_iff] at spent

/-- An outpoint that is stored is the one of the input. -/
theorem IsInputOf.eq_of_pointsTo {cliArgs : CliArgs} {transaction : RpcTransaction}
    {input : RpcTransactionInput} {row : TransactionInput} {transactionId : Hash} {position : ℕ}
    (isInput : IsInputOf cliArgs transaction input row)
    (points : row.PointsTo transactionId position) :
    input.previousOutpoint.transactionId = transactionId ∧
      input.previousOutpoint.index.toNat = position := by
  obtain ⟨hashEq, indexEq⟩ := points
  rw [isInput.hash] at hashEq
  rw [isInput.index] at indexEq
  unfold thenSome at hashEq indexEq
  split_ifs at hashEq indexEq
  exact ⟨Option.some.inj hashEq, Int.ofNat_inj.mp (Option.some.inj indexEq)⟩

theorem exists_isInputOf {cliArgs : CliArgs} {transaction : RpcTransaction} {key : Int}
    {rows : TransactionRows} (mapped : mapRows cliArgs transaction key = some rows)
    {row : TransactionInput} (rowMem : row ∈ rows.inputs) :
    ∃ (position : ℕ) (input : RpcTransactionInput),
      transaction.inputs[position]? = some input ∧ row.index = (position : Int) ∧
        IsInputOf cliArgs transaction input row := by
  obtain ⟨_, inputsEq, _⟩ := mapRows_eq_some_iff.mp mapped
  simp only [VecnoDbMapper.mapTransactionInputs, Option.bind_eq_bind,
    Option.bind_eq_some_iff] at inputsEq
  obtain ⟨verboseData, hasVerbose, mappedRows⟩ := inputsEq
  obtain ⟨⟨input, position⟩, isInput, rowEq⟩ := exists_of_mem_mapM_eq_some mappedRows rowMem
  simp only [Option.bind_eq_some_iff] at rowEq
  obtain ⟨index, indexEq, previousIndex, previousEq, _, _, eq⟩ := rowEq
  cases eq
  refine ⟨position, input, List.mem_zipIdx_iff_getElem?.mp isInput, eq_of_toI16 indexEq,
    List.fst_mem_of_mem_zipIdx isInput, ?_, rfl, ?_⟩
  · rw [RpcTransaction.transactionId, hasVerbose]
    rfl
  · rw [eq_of_toI16 previousEq]
    rfl

/-- Every input is mapped. -/
theorem exists_row_of_input {cliArgs : CliArgs} {transaction : RpcTransaction} {key : Int}
    {rows : TransactionRows} (mapped : mapRows cliArgs transaction key = some rows)
    {position : ℕ} {input : RpcTransactionInput}
    (atPosition : transaction.inputs[position]? = some input) :
    ∃ row ∈ rows.inputs, row.index = (position : Int) := by
  obtain ⟨_, inputsEq, _⟩ := mapRows_eq_some_iff.mp mapped
  simp only [VecnoDbMapper.mapTransactionInputs, Option.bind_eq_bind,
    Option.bind_eq_some_iff] at inputsEq
  obtain ⟨verboseData, hasVerbose, mappedRows⟩ := inputsEq
  have isInput : (input, position) ∈ transaction.inputs.zipIdx :=
    List.mem_zipIdx_iff_getElem?.mpr atPosition
  obtain ⟨row, rowMem, rowEq⟩ := exists_mem_of_mapM_eq_some mappedRows isInput
  simp only [Option.bind_eq_some_iff] at rowEq
  obtain ⟨index, indexEq, _, _, _, _, eq⟩ := rowEq
  cases eq
  exact ⟨_, rowMem, eq_of_toI16 indexEq⟩

/-! ## Rows of the popped transactions -/

namespace TransactionLoop

variable {cliArgs : CliArgs} {start db final : Db} {loop after received : TransactionLoop}
  {popped mapped : List RpcTransaction}

/-- A row given or held is one of a popped transaction. -/
theorem Tracks.exists_mapped_of_held (tracks : Tracks cliArgs start db loop popped mapped)
    {α β κ : Type} {key : α → Option κ} {project : α → β} {table : IndexedTable cliArgs key project}
    {given : List α} (tracked : TracksTable start db loop mapped table given) {row : α}
    (held : row ∈ given ++ table.pending loop.pendingRows) :
    ∃ transaction ∈ popped, ∃ rows, loop.rowsOf cliArgs transaction = some rows ∧
      row ∈ table.mapped rows := by
  obtain ⟨transaction, isMapped, rows, rowsEq, rowMem⟩ := tracked.only row held
  exact ⟨transaction, tracks.popped_of_mapped transaction isMapped, rows, rowsEq, rowMem⟩

/-- Output rows of popped transactions with one key are the same apart from the time. -/
theorem alike_outputs_of_mapped (effects : SameEffectById popped) {first second : RpcTransaction}
    (isFirst : first ∈ popped) (isSecond : second ∈ popped) {rows otherRows : TransactionRows}
    (rowsEq : loop.rowsOf cliArgs first = some rows)
    (otherEq : loop.rowsOf cliArgs second = some otherRows) {row other : TransactionOutput}
    (rowMem : row ∈ (IndexedTable.outputs cliArgs).mapped rows)
    (otherMem : other ∈ (IndexedTable.outputs cliArgs).mapped otherRows)
    (sameKey : row.primaryKey = other.primaryKey) : row.apartFromTime = other.apartFromTime := by
  obtain ⟨subnetworkKey, mappedRows⟩ := mapRows_of_rowsOf rowsEq
  obtain ⟨otherSubnetworkKey, otherMapped⟩ := mapRows_of_rowsOf otherEq
  have determined := IndexedTable.determined_outputs cliArgs
  have sameId := determined.sameId mappedRows otherMapped row rowMem other otherMem sameKey
  obtain ⟨_, _, outputsEq, _⟩ := mapRows_eq_some_iff.mp mappedRows
  obtain ⟨_, _, otherOutputsEq, _⟩ := mapRows_eq_some_iff.mp otherMapped
  have like := like_outputs_of_effect sameId (effects first isFirst second isSecond sameId)
    outputsEq otherOutputsEq
  obtain ⟨enabled, rowMem⟩ := IndexedTable.mem_rowsIf.mp rowMem
  have projected := List.mem_map_of_mem (f := TransactionOutput.apartFromTime) rowMem
  rw [like] at projected
  obtain ⟨found, foundMem, foundLike⟩ := List.mem_map.mp projected
  have foundKey := ((IndexedTable.outputs cliArgs).keyed found row foundLike).trans sameKey
  exact foundLike.symm.trans (determined.sameRow otherMapped found
    (IndexedTable.mem_rowsIf.mpr ⟨enabled, foundMem⟩) other otherMem foundKey)

/-- A stored input is an old one or one of a popped transaction. -/
theorem Tracks.input_cases (tracks : Tracks cliArgs start db loop popped mapped)
    {row : TransactionInput} (stored : row ∈ db.transactionsInputs) :
    row ∈ start.transactionsInputs ∨
      ∃ transaction ∈ popped, ∃ input, IsInputOf cliArgs transaction input row := by
  obtain ⟨given, tracked⟩ := tracks.tables (IndexedTable.inputs cliArgs)
  rcases tracked.filled.added row stored with old | ⟨⟨other, isGiven, like⟩ | isJoined, _⟩
  · exact Or.inl old
  · obtain ⟨transaction, isPopped, rows, rowsEq, otherMem⟩ :=
      tracks.exists_mapped_of_held tracked (List.mem_append_left _ isGiven)
    obtain ⟨subnetworkKey, mappedRows⟩ := mapRows_of_rowsOf rowsEq
    obtain ⟨_, input, _, _, isInput⟩ :=
      exists_isInputOf mappedRows (IndexedTable.mem_rowsIf.mp otherMem).2
    exact Or.inr ⟨transaction, isPopped, input, isInput.of_apartFromTime like⟩
  · exact isJoined.elim

/-- A stored output is an old one or one of a popped transaction. -/
theorem Tracks.output_cases (tracks : Tracks cliArgs start db loop popped mapped)
    {row : TransactionOutput} (stored : row ∈ db.transactionsOutputs) :
    row ∈ start.transactionsOutputs ∨
      ∃ transaction ∈ popped, transaction.transactionId = some row.transactionId ∧
        ∃ position, position < transaction.outputs.length ∧ row.index = (position : Int) := by
  obtain ⟨given, tracked⟩ := tracks.tables (IndexedTable.outputs cliArgs)
  rcases tracked.filled.added row stored with old | ⟨⟨other, isGiven, like⟩ | isJoined, _⟩
  · exact Or.inl old
  · obtain ⟨transaction, isPopped, rows, rowsEq, otherMem⟩ :=
      tracks.exists_mapped_of_held tracked (List.mem_append_left _ isGiven)
    obtain ⟨subnetworkKey, mappedRows⟩ := mapRows_of_rowsOf rowsEq
    obtain ⟨verboseData, hasVerbose, idEq⟩ := IndexedTable.exists_verboseData mappedRows
    obtain ⟨_, _, outputsEq, _⟩ := mapRows_eq_some_iff.mp mappedRows
    obtain ⟨sameId, position, inside, indexEq⟩ := eq_of_mem_mapTransactionOutputs outputsEq
      hasVerbose (IndexedTable.mem_rowsIf.mp otherMem).2
    have likeId := congrArg TransactionOutput.transactionId like
    have likeIndex := congrArg TransactionOutput.index like
    refine Or.inr ⟨transaction, isPopped, ?_, position, inside, likeIndex.symm.trans indexEq⟩
    rw [idEq, ← sameId]
    exact congrArg some likeId
  · exact isJoined.elim

/-- With nothing pending the inputs of the popped transactions are stored. -/
theorem Tracks.exists_stored_input (tracks : Tracks cliArgs start db loop popped mapped)
    (effects : SameEffectById popped) (nothing : loop.pendingRows = .nothing)
    (enabled : cliArgs.isDisabled .transactionsInputsTable = false)
    (noInputs : start.transactionsInputs = .empty) {transaction : RpcTransaction}
    (isPopped : transaction ∈ popped) {input : RpcTransactionInput}
    (among : input ∈ transaction.inputs) :
    ∃ row ∈ db.transactionsInputs, IsInputOf cliArgs transaction input row := by
  obtain ⟨transactionId, idEq, other, isMapped, sameId⟩ := tracks.known transaction isPopped
  have otherPopped := tracks.popped_of_mapped other isMapped
  obtain ⟨position, atPosition⟩ := List.mem_iff_getElem?.mp among
  obtain ⟨_, otherAt, _⟩ := exists_input_of_effect
    (effects transaction isPopped other otherPopped (idEq.trans sameId.symm)) atPosition
  obtain ⟨rows, rowsEq⟩ := tracks.rows_of_mapped other isMapped
  obtain ⟨_, mappedRows⟩ := mapRows_of_rowsOf rowsEq
  obtain ⟨row, rowMem, rowIndex⟩ := exists_row_of_input mappedRows otherAt
  have isRow : row ∈ (IndexedTable.inputs cliArgs).mapped rows :=
    IndexedTable.mem_rowsIf.mpr ⟨by rw [enabled]; rfl, rowMem⟩
  obtain ⟨given, tracked⟩ := tracks.tables (IndexedTable.inputs cliArgs)
  obtain ⟨held, isHeld, heldKey⟩ := tracked.taken other isMapped rows rowsEq row isRow
  rw [nothing, (IndexedTable.inputs cliArgs).pending_nothing, List.append_nil] at isHeld
  obtain ⟨stored, isStored, storedKey⟩ := tracked.filled.present held isHeld _ rfl
  rcases tracked.filled.added stored isStored with old | ⟨⟨found, isGiven, like⟩ | isJoined, _⟩
  · have inStart : stored ∈ start.transactionsInputs := old
    rw [noInputs] at inStart
    exact absurd inStart (Table.notMem_empty stored)
  · obtain ⟨source, isSource, sourceRows, sourceEq, foundMem⟩ :=
      tracks.exists_mapped_of_held tracked (List.mem_append_left _ isGiven)
    obtain ⟨_, sourceMapped⟩ := mapRows_of_rowsOf sourceEq
    obtain ⟨sourcePosition, sourceInput, sourceAt, foundIndex, isInput⟩ :=
      exists_isInputOf sourceMapped (IndexedTable.mem_rowsIf.mp foundMem).2
    have foundKey := (IndexedTable.inputs cliArgs).keyed found stored like
    have sameKey : row.primaryKey = found.primaryKey :=
      heldKey.symm.trans (storedKey.symm.trans foundKey.symm)
    have sourceId : source.transactionId = transaction.transactionId :=
      ((IndexedTable.determined_inputs cliArgs).sameId mappedRows sourceMapped row isRow found
        foundMem sameKey).symm.trans (sameId.trans idEq.symm)
    have samePosition : sourcePosition = position := by
      have sameIndex : row.index = found.index := congrArg Prod.snd (Option.some.inj sameKey)
      rw [rowIndex, foundIndex] at sameIndex
      exact (Int.ofNat_inj.mp sameIndex).symm
    subst samePosition
    -- The stored row may be of another occurrence, which spends the same there.
    obtain ⟨_, sameAt, samePrevious⟩ := exists_input_of_effect
      (effects source isSource transaction isPopped sourceId) sourceAt
    cases atPosition.symm.trans sameAt
    exact ⟨stored, isStored,
      (isInput.of_apartFromTime like).of_samePrevious sourceId among samePrevious⟩
  · exact isJoined.elim

/-- With nothing pending the outputs of the popped transactions are stored. -/
theorem Tracks.hasKey_output (tracks : Tracks cliArgs start db loop popped mapped)
    (effects : SameEffectById popped) (nothing : loop.pendingRows = .nothing)
    (enabled : cliArgs.isDisabled .transactionsOutputsTable = false) {source : RpcTransaction}
    (isPopped : source ∈ popped) {transactionId : Hash}
    (idEq : source.transactionId = some transactionId) {position : ℕ}
    (inside : position < source.outputs.length) :
    db.transactionsOutputs.HasKey (transactionId, (position : Int)) := by
  obtain ⟨otherId, otherIdEq, other, isMapped, sameId⟩ := tracks.known source isPopped
  cases idEq.symm.trans otherIdEq
  have stored := tracks.stored_of_mapped nothing isMapped sameId
  have sameOutputs : other.outputs = source.outputs := congrArg Prod.snd
    (effects other (tracks.popped_of_mapped other isMapped) source isPopped
      (sameId.trans idEq.symm))
  exact stored.outputs enabled position (sameOutputs ▸ inside)

end TransactionLoop

/-! ## Sources first -/

/-- The transaction that creates a spent output is popped no later than its spender, in the
same block at the latest, unless the output is stored. -/
def SourcesFirst (start : Db) (popped : List TransactionData) : Prop :=
  ∀ index data, popped[index]? = some data →
    ∀ spender ∈ data.transactions, ∀ input ∈ spender.inputs,
    ∀ source ∈ popped.flatMap TransactionData.transactions,
      source.transactionId = some input.previousOutpoint.transactionId →
      input.previousOutpoint.index.toNat < source.outputs.length →
        (∃ first ∈ (popped.take (index + 1)).flatMap TransactionData.transactions,
          first.transactionId = some input.previousOutpoint.transactionId) ∨
        start.transactionsOutputs.HasKey
          (input.previousOutpoint.transactionId, (input.previousOutpoint.index.toNat : Int))

/-- The popped blocks are as a node delivers them: occurrences of a transaction spend and
create the same, and sources come first. -/
structure InOrder (start : Db) (popped : List TransactionData) : Prop where
  effects : SameEffectById (popped.flatMap TransactionData.transactions)
  sources : SourcesFirst start popped

theorem InOrder.of_append {start : Db} {popped more : List TransactionData}
    (inOrder : InOrder start (popped ++ more)) : InOrder start popped where
  effects first isFirst second isSecond := by
    have among : ∀ transaction ∈ popped.flatMap TransactionData.transactions,
        transaction ∈ (popped ++ more).flatMap TransactionData.transactions := by
      intro transaction isPopped
      rw [List.flatMap_append]
      exact List.mem_append_left _ isPopped
    exact inOrder.effects first (among first isFirst) second (among second isSecond)
  sources index data atIndex spender isSpender input isInput source isSource sourceId inside := by
    obtain ⟨indexInside, _⟩ := List.getElem?_eq_some_iff.mp atIndex
    have found := inOrder.sources index data
      (by rw [List.getElem?_append_left indexInside, atIndex]) spender isSpender input isInput
      source
      (by rw [List.flatMap_append]; exact List.mem_append_left _ isSource) sourceId inside
    rwa [List.take_append_of_le_length indexInside] at found

/-- Within one block sources may follow their spenders. -/
theorem sourcesFirst_singleton (start : Db) (data : TransactionData) :
    SourcesFirst start [data] := by
  intro index found atIndex spender _ input _ source isSource sourceId _
  exact Or.inl ⟨source, by simpa using isSource, sourceId⟩

/-! ## Settled joins -/

/-- The stored inputs are tracked, and of what they spend nothing is still to be stored. -/
structure Sourced (cliArgs : CliArgs) (start db : Db) (loop : TransactionLoop)
    (popped : List TransactionData) : Prop where
  tracks : ∃ mapped, TransactionLoop.Tracks cliArgs start db loop
    (popped.flatMap TransactionData.transactions) mapped
  sources : ∀ row ∈ db.transactionsInputs, row ∉ start.transactionsInputs →
    ∀ transactionId position, row.PointsTo transactionId position →
    ∀ source ∈ popped.flatMap TransactionData.transactions,
      source.transactionId = some transactionId → position < source.outputs.length →
        db.transactionsOutputs.HasKey (transactionId, (position : Int))

namespace Sourced

variable {cliArgs : CliArgs} {start db final : Db} {loop after received : TransactionLoop}
  {popped : List TransactionData} {script rest : Script}

theorem loaded (cliArgs : CliArgs) (start : Db) (now : ℕ) :
    Sourced cliArgs start start (.loaded now start.subnetworks.rows) [] where
  tracks := ⟨[], TransactionLoop.tracks_loaded now start.subnetworks.rows start⟩
  sources _ _ _ _ _ _ _ isPopped := absurd isPopped List.not_mem_nil

theorem of_same (sourced : Sourced cliArgs start db loop popped)
    (same : SameTransactions db final) : Sourced cliArgs start final loop popped where
  tracks := by
    obtain ⟨mapped, tracks⟩ := sourced.tracks
    exact ⟨mapped, tracks.of_same same⟩
  sources := by
    rw [same.inputs, same.outputs]
    exact sourced.sources

/-- A popped block cannot bring the source of an input stored before. -/
theorem receive (sourced : Sourced cliArgs start db loop popped) {data : TransactionData}
    (inOrder : InOrder start (popped ++ [data])) {forgotten : ℕ → Hash → Bool}
    (ran : Session.run (loop.receive cliArgs forgotten data) db script =
      .done received final rest) : Sourced cliArgs start final received (popped ++ [data]) where
  tracks := by
    obtain ⟨mapped, tracks⟩ := sourced.tracks
    rw [List.flatMap_append, List.flatMap_singleton]
    exact tracks.receive ran
  sources row stored isNew transactionId position points source isSource sourceId inside := by
    obtain ⟨mapped, tracks⟩ := sourced.tracks
    obtain ⟨numbering, rfl⟩ := TransactionLoop.exists_withNumbering_of_receiveAll ran
    obtain ⟨spender, isPopped, input, isInput⟩ := (tracks.input_cases stored).resolve_left isNew
    obtain ⟨block, blockMem, isSpender⟩ := List.mem_flatMap.mp isPopped
    obtain ⟨index, indexInside, rfl⟩ := List.mem_iff_getElem.mp blockMem
    obtain ⟨rfl, rfl⟩ := isInput.eq_of_pointsTo points
    have found := inOrder.sources index popped[index]
      (by rw [List.getElem?_append_left indexInside, List.getElem?_eq_getElem indexInside])
      spender isSpender input isInput.among source isSource sourceId inside
    rw [List.take_append_of_le_length indexInside] at found
    rcases found with ⟨first, isFirst, firstId⟩ | inStart
    · obtain ⟨block, blockMem, isTransaction⟩ := List.mem_flatMap.mp isFirst
      have firstPopped : first ∈ popped.flatMap TransactionData.transactions :=
        List.mem_flatMap.mpr ⟨block, List.mem_of_mem_take blockMem, isTransaction⟩
      have sameOutputs : first.outputs = source.outputs := congrArg Prod.snd (inOrder.effects first
        (by rw [List.flatMap_append]; exact List.mem_append_left _ firstPopped) source isSource
        (firstId.trans sourceId.symm))
      exact sourced.sources row stored isNew _ _ points first firstPopped firstId
        (sameOutputs ▸ inside)
    · obtain ⟨given, tracked⟩ := tracks.tables (IndexedTable.outputs cliArgs)
      exact tracked.filled.hasKey inStart

/-- A commit stores all sources popped so far. -/
theorem commit (sourced : Sourced cliArgs start db loop popped) (inOrder : InOrder start popped)
    (enabled : cliArgs.isDisabled .transactionsOutputsTable = false) {input : TransactionsInput}
    (ran : Session.run (loop.commit cliArgs input) db script = .done after final rest) :
    Sourced cliArgs start final after popped := by
  obtain ⟨mapped, tracks⟩ := sourced.tracks
  have tracksAfter := tracks.commit ran
  obtain ⟨_, rfl⟩ := TransactionLoop.done_commit ran
  exact ⟨⟨mapped, tracksAfter⟩, fun _ _ _ _ _ _ source isPopped sourceId inside =>
    tracksAfter.hasKey_output inOrder.effects rfl enabled isPopped sourceId inside⟩

/-- A commit does not change what a stored input spends. -/
theorem spentOutput_eq (sourced : Sourced cliArgs start db loop popped) {input : TransactionsInput}
    (ran : Session.run (loop.commit cliArgs input) db script = .done after final rest)
    {row : TransactionInput} (stored : row ∈ db.transactionsInputs)
    (isNew : row ∉ start.transactionsInputs) : final.spentOutput row = db.spentOutput row := by
  obtain ⟨mapped, tracks⟩ := sourced.tracks
  have tracksAfter := tracks.commit ran
  obtain ⟨⟨_, insertRan⟩, _⟩ := TransactionLoop.done_commit ran
  have grows := TransactionLoop.grows_of_insertBatch insertRan
  cases spent : db.spentOutput row with
  | some output => exact spentOutput_of_grows grows spent
  | none =>
      cases spentAfter : final.spentOutput row with
      | none => rfl
      | some output =>
          obtain ⟨outputStored, hashEq, indexEq⟩ := spentOutput_eq_some_iff.mp spentAfter
          obtain ⟨given, tracked⟩ := tracks.tables (IndexedTable.outputs cliArgs)
          have present : db.transactionsOutputs.HasKey (output.transactionId, output.index) := by
            rcases tracksAfter.output_cases outputStored with
              old | ⟨source, isPopped, sourceId, position, inside, positionEq⟩
            · exact ⟨output, tracked.filled.kept output old, rfl⟩
            · rw [positionEq] at indexEq ⊢
              exact sourced.sources row stored isNew output.transactionId position
                ⟨hashEq, indexEq⟩ source isPopped sourceId inside
          obtain ⟨other, otherStored, otherKey⟩ := present
          have sameKey := Option.some.inj otherKey
          have spends : db.spentOutput row = some other :=
            spentOutput_eq_some_iff.mpr ⟨otherStored,
              hashEq.trans (congrArg (fun key => some (Prod.fst key)) sameKey).symm,
              indexEq.trans (congrArg (fun key => some (Prod.snd key)) sameKey).symm⟩
          rw [spent] at spends
          contradiction

end Sourced

/-! ## A block with an output and its spender -/

/-- A transaction that spends the first output of another. -/
def spendingTransaction (blockHash : Hash) : RpcTransaction where
  inputs := [⟨⟨7, 0⟩, [], 1⟩]
  outputs := []
  subnetworkId := "00"
  payload := []
  verboseData := some ⟨8, 8, 0, blockHash, 0⟩

def spentData : TransactionData where
  transactions := [paidTransaction 1, spendingTransaction 1]
  blockHash := 1
  blockTimestamp := 0
  blockDaaScore := 0
  blockBlueScore := 0

/-- A block with an output and its spender is committed. -/
def spentAtOnce : List IndexingEvent :=
  [.transactions
    { popped := some spentData
      forgotten := fun _ _ => false
      now := 10000000000
      commitNow := 10000000000
      timestampValid := true
      firstOrder := .listed
      secondOrder := .listed }
    fun _ => .succeeds]

theorem inOrder_spentData (start : Db) : InOrder start [spentData] where
  effects := by
    intro first isFirst second isSecond sameId
    simp only [List.flatMap_cons, List.flatMap_nil, spentData, List.append_nil, List.mem_cons,
      List.not_mem_nil, or_false] at isFirst isSecond
    rcases isFirst with rfl | rfl <;> rcases isSecond with rfl | rfl <;>
      first | rfl | exact absurd sameId (by decide)
  sources := sourcesFirst_singleton start spentData

end VecnoIndexer
