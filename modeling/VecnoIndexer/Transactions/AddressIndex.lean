import VecnoIndexer.Transactions.Sources

/-!
# The address index is complete

The outputs of a transaction are indexed from memory, its inputs by a join after the
batch is stored.  The time of a pair comes from the input or, if that is excluded, from
the `transactions` table: the join needs that table then.
-/

namespace VecnoIndexer

open VecnoIndexer.Sql
open VecnoIndexer.Collections
open VecnoIndexer.Transition

/-! ## The join of a statement -/

/-- Every stored input of the transactions joins, if a time is found. -/
theorem mem_spentInputs {db : Db} {useTx : Bool} {transactionIds : List Hash}
    {row : TransactionInput} {output : TransactionOutput} {blockTime : Option Int}
    (stored : row ∈ db.transactionsInputs) (spends : db.spentOutput row = some output)
    (timed : (if useTx then (db.transactions.lookup row.transactionId).map Transaction.blockTime
      else some row.blockTime) = some blockTime) (among : row.transactionId ∈ transactionIds) :
    ⟨row.transactionId, output, blockTime⟩ ∈ db.spentInputs useTx transactionIds := by
  refine List.mem_filterMap.mpr ⟨row, stored, ?_⟩
  simp only [Option.bind_eq_bind, Option.bind_eq_some_iff]
  exact ⟨output, spends, blockTime, timed, if_pos among⟩

theorem exists_time {db : Db} {useTx : Bool} {row : TransactionInput}
    (timed : useTx = true → db.transactions.HasKey row.transactionId) :
    ∃ blockTime, (if useTx then (db.transactions.lookup row.transactionId).map Transaction.blockTime
      else some row.blockTime) = some blockTime := by
  cases useTx with
  | false => exact ⟨row.blockTime, rfl⟩
  | true =>
      obtain ⟨transaction, isStored, transactionKey⟩ := timed rfl
      have found := Table.lookup_eq_some_iff.mpr ⟨isStored, transactionKey⟩
      exact ⟨transaction.blockTime, by rw [if_pos rfl, found]; rfl⟩

namespace InsertStatement

/-- What the statement for the inputs of transactions leaves. -/
theorem hasKey_of_leaves {useTx : Bool} {transactionIds : List Hash} {db after : Db}
    (leaves : Leaves db after (.addressesFromInputs useTx transactionIds))
    {row : TransactionInput} {output : TransactionOutput} {address : String}
    (stored : row ∈ db.transactionsInputs) (spends : db.spentOutput row = some output)
    (addressed : output.scriptPublicKeyAddress = some address)
    (timed : useTx = true → db.transactions.HasKey row.transactionId)
    (among : row.transactionId ∈ transactionIds) :
    after.addressesTransactions.HasKey (address, row.transactionId) := by
  obtain ⟨rows, joined, rfl⟩ := leaves
  obtain ⟨blockTime, timeEq⟩ := exists_time timed
  have isSpent := mem_spentInputs stored spends timeEq among
  have converted : SpentInput.addressTransaction ⟨row.transactionId, output, blockTime⟩ =
      .ok ⟨address, row.transactionId, blockTime⟩ := by
    simp only [SpentInput.addressTransaction, addressed]
  have given := (mem_of_mapM_eq_ok joined).mpr ⟨_, isSpent, converted⟩
  exact Table.hasKey_insertAll.mpr (Or.inr ⟨_, given, rfl⟩)

/-- One of several statements indexes the stored inputs of its transactions. -/
theorem hasKey_of_executeAll {inserts : List InsertStatement} {db final : Db}
    {script rest : Script} {total : ℕ}
    (ran : Session.run (executeAll inserts) db script = .done total final rest)
    {useTx : Bool} {transactionIds : List Hash}
    (member : .addressesFromInputs useTx transactionIds ∈ inserts) {row : TransactionInput}
    {output : TransactionOutput} {address : String} (stored : row ∈ db.transactionsInputs)
    (spends : db.spentOutput row = some output)
    (addressed : output.scriptPublicKeyAddress = some address)
    (timed : useTx = true → db.transactions.HasKey row.transactionId)
    (among : row.transactionId ∈ transactionIds) :
    final.addressesTransactions.HasKey (address, row.transactionId) := by
  have indexed := executeAll_induction
    (motive := fun inserts db final =>
      (∀ key, db.addressesTransactions.HasKey key → final.addressesTransactions.HasKey key) ∧
        (.addressesFromInputs useTx transactionIds ∈ inserts → row ∈ db.transactionsInputs →
          db.spentOutput row = some output →
          (useTx = true → db.transactions.HasKey row.transactionId) →
          final.addressesTransactions.HasKey (address, row.transactionId)))
    (fun _ => ⟨fun _ => id, fun nothing => absurd nothing List.not_mem_nil⟩)
    (fun insert later db middle final leaves ⟨grows, indexed⟩ => by
      have kept := FilledTable.addresses.filled_of_leaves leaves
      refine ⟨fun key taken => grows key (kept.hasKey taken),
        fun member stored spends timed => ?_⟩
      rcases List.mem_cons.mp member with rfl | isLater
      · exact grows _ (hasKey_of_leaves leaves stored spends addressed timed among)
      · exact indexed isLater (leaves.grows.inputs row stored)
          (spentOutput_of_grows leaves.grows spends)
          fun usesTx => (FilledTable.transactions.filled_of_leaves leaves).hasKey (timed usesTx))
    ran
  exact indexed.2 member stored spends timed

end InsertStatement

/-! ## A batch -/

namespace TransactionLoop

variable {cliArgs : CliArgs} {loop after received : TransactionLoop} {start db final : Db}
  {popped mapped : List RpcTransaction} {input : TransactionsInput} {script rest : Script}

/-- The statements that need others insert relations only. -/
theorem secondInserts_cases {insert : InsertStatement}
    (member : insert ∈ loop.secondInserts cliArgs) :
    (∃ rows, insert = .blocksTransactions rows) ∨
      (∃ useTx transactionIds, insert = .addressesFromInputs useTx transactionIds) ∨
      ∃ useTx transactionIds, insert = .scriptsFromInputs useTx transactionIds := by
  rcases List.mem_append.mp member with inRelations | inSpent
  · unfold blockTransactionInserts at inRelations
    split_ifs at inRelations
    · contradiction
    · obtain ⟨rows, _, rfl⟩ := List.mem_map.mp inRelations
      exact Or.inl ⟨rows, rfl⟩
  · unfold inputAddressInserts at inSpent
    simp only at inSpent
    split_ifs at inSpent
    · obtain ⟨transactionIds, _, rfl⟩ := List.mem_map.mp inSpent
      exact Or.inr (Or.inl ⟨_, transactionIds, rfl⟩)
    · obtain ⟨transactionIds, _, rfl⟩ := List.mem_map.mp inSpent
      exact Or.inr (Or.inr ⟨_, transactionIds, rfl⟩)
    · contradiction

/-- The statements that need others leave the tables they read. -/
theorem stored_of_secondInserts {α β κ : Type} {key : α → Option κ} {project : α → β}
    (table : FilledTable key project) (noJoin : ∀ db row, ¬ table.joined db row)
    (nothing : ∀ insert ∈ loop.secondInserts cliArgs, table.listed insert = [])
    {seconds : List InsertStatement} {total : ℕ}
    (isSecond : ∀ insert, insert ∈ seconds ↔ insert ∈ loop.secondInserts cliArgs)
    (ran : Session.run (InsertStatement.executeAll seconds) db script = .done total final rest)
    {row : α} (stored : row ∈ table.place.get final) : row ∈ table.place.get db := by
  have filled := table.filled_of_executeAll ran
  rcases filled.added row stored with old | ⟨⟨given, isGiven, _⟩ | ⟨_, isJoined⟩, _⟩
  · exact old
  · obtain ⟨insert, insertMem, listed⟩ := List.mem_flatMap.mp isGiven
    rw [nothing insert ((isSecond insert).mp insertMem)] at listed
    exact absurd listed List.not_mem_nil
  · exact absurd isJoined (noJoin final row)

/-- The inputs held are of transactions held. -/
def Paired (loop : TransactionLoop) : Prop :=
  ∀ row ∈ loop.txInputs, ∃ transaction ∈ loop.transactions,
    transaction.transactionId = row.transactionId

/-- The statements started last are about relations and addresses. -/
theorem listed_of_mem_secondInserts {insert : InsertStatement}
    (member : insert ∈ loop.secondInserts cliArgs) :
    FilledTable.inputs.listed insert = [] ∧ FilledTable.outputs.listed insert = [] ∧
      FilledTable.transactions.listed insert = [] := by
  rcases secondInserts_cases member with ⟨_, rfl⟩ | ⟨_, _, rfl⟩ | ⟨_, _, rfl⟩ <;>
    exact ⟨rfl, rfl, rfl⟩

/-- The transactions held are stored before the last statements are started. -/
theorem hasKey_of_firstInserts (enabled : cliArgs.isDisabled .transactionsTable = false)
    {txInputs : List TransactionInput} {firsts : List InsertStatement}
    (isFirst : ∀ insert, insert ∈ firsts ↔ insert ∈ loop.firstInserts cliArgs txInputs)
    {count : ℕ} {middle : Db} {left : Script}
    (ran : Session.run (InsertStatement.executeAll firsts) db script = .done count middle left)
    {transaction : Transaction} (isPending : transaction ∈ loop.transactions) :
    middle.transactions.HasKey transaction.transactionId := by
  obtain ⟨insert, insertMem, listed⟩ := List.mem_flatMap.mp
    ((@mem_listed_transactions cliArgs loop txInputs _).mpr ⟨enabled, isPending⟩)
  have inFirsts : insert ∈ firsts := by
    rcases List.mem_append.mp insertMem with first | second
    · exact (isFirst insert).mpr first
    · rw [(listed_of_mem_secondInserts second).2.2] at listed
      exact absurd listed List.not_mem_nil
  have filled := FilledTable.transactions.filled_of_executeAll ran
  exact filled.present transaction (List.mem_flatMap.mpr ⟨insert, inFirsts, listed⟩) _ rfl

/-- Each transaction held is among those of a join. -/
theorem exists_addressesFromInputs (mapsAddresses : cliArgs.mapsAddresses = true)
    {transaction : Transaction} (isPending : transaction ∈ loop.transactions) :
    ∃ chunk, .addressesFromInputs (cliArgs.isExcluded .txInBlockTime) chunk ∈
      loop.secondInserts cliArgs ∧ transaction.transactionId ∈ chunk := by
  have isId : transaction.transactionId ∈ loop.transactions.map Transaction.transactionId :=
    List.mem_map_of_mem isPending
  have positive : 0 < min (cliArgs.batchScale.scaled 250) 8000 :=
    lt_min (cliArgs.batchScale.scaled_pos (by decide)) (by decide)
  obtain ⟨chunk, isChunk, among⟩ := (mem_chunks_iff positive).mpr isId
  refine ⟨chunk, List.mem_append_right _ ?_, among⟩
  rw [inputAddressInserts, if_pos mapsAddresses]
  exact List.mem_map_of_mem isChunk

/-- The addresses of the spent outputs are indexed for the new inputs of a batch. -/
theorem hasKey_of_insertBatch (mapsAddresses : cliArgs.mapsAddresses = true)
    (timed : cliArgs.isDisabled .transactionsTable = false ∨
      cliArgs.isExcluded .txInBlockTime = false)
    (paired : loop.Paired)
    (ran : Session.run (loop.insertBatch cliArgs input) db script = .done () final rest)
    {row : TransactionInput} (stored : row ∈ final.transactionsInputs)
    (isNew : row ∉ db.transactionsInputs) {output : TransactionOutput} {address : String}
    (spends : final.spentOutput row = some output)
    (addressed : output.scriptPublicKeyAddress = some address) :
    final.addressesTransactions.HasKey (address, row.transactionId) := by
  obtain ⟨txInputs, middle, _, _, firsts, seconds, _, _, _, isFirst, isSecond, firstRan,
    secondRan⟩ := phases_of_insertBatch ran
  -- What the join reads is there when the second statements start.
  have inputStored : row ∈ middle.transactionsInputs :=
    stored_of_secondInserts FilledTable.inputs (fun _ _ => id)
      (fun _ member => (listed_of_mem_secondInserts member).1) isSecond secondRan stored
  have spentBefore : middle.spentOutput row = some output := by
    rw [spentOutput_eq_some_iff] at spends ⊢
    exact ⟨stored_of_secondInserts FilledTable.outputs (fun _ _ => id)
      (fun _ member => (listed_of_mem_secondInserts member).2.1) isSecond secondRan spends.1,
      spends.2⟩
  obtain ⟨transaction, isPending, sameId⟩ : ∃ transaction ∈ loop.transactions,
      transaction.transactionId = row.transactionId := by
    have filled := filled_of_insertBatch (IndexedTable.inputs cliArgs) ran
    rcases filled.added row stored with old | ⟨⟨given, isGiven, like⟩ | isJoined, _⟩
    · exact absurd old isNew
    · obtain ⟨transaction, isPending, sameId⟩ :=
        paired given (IndexedTable.mem_rowsIf.mp isGiven).2
      have likeId := congrArg TransactionInput.transactionId like
      exact ⟨transaction, isPending, sameId.trans likeId⟩
    · exact isJoined.elim
  have hasTime : cliArgs.isExcluded .txInBlockTime = true →
      middle.transactions.HasKey row.transactionId := by
    intro excluded
    have enabled := timed.resolve_right fun included => by
      rw [excluded] at included
      contradiction
    exact sameId ▸ hasKey_of_firstInserts enabled isFirst firstRan isPending
  obtain ⟨chunk, member, among⟩ := exists_addressesFromInputs mapsAddresses isPending
  rw [sameId] at among
  exact InsertStatement.hasKey_of_executeAll secondRan ((isSecond _).mpr member) inputStored
    spentBefore addressed hasTime among

theorem Paired.receiveTransaction (paired : loop.Paired) {forgotten : Hash → Bool}
    {transaction : RpcTransaction}
    (ran : Session.run (loop.receiveTransaction cliArgs forgotten transaction) db script =
      .done received final rest) : received.Paired := by
  obtain ⟨key, numbering, _, _, collected⟩ := done_receiveTransaction ran
  obtain ⟨_, _, _, _, ⟨_, rfl⟩ | ⟨rows, mappedRows, rfl⟩⟩ := collect_cases collected
  · exact paired
  · intro row held
    rcases List.mem_append.mp held with before | isNew
    · obtain ⟨found, isHeld, sameId⟩ := paired row before
      exact ⟨found, List.mem_append_left _ isHeld, sameId⟩
    · obtain ⟨rowEq, inputsEq, _⟩ := mapRows_eq_some_iff.mp mappedRows
      obtain ⟨verboseData, hasVerbose, _⟩ := IndexedTable.exists_verboseData mappedRows
      have sameKey := Option.some.inj (primaryKey_mapTransaction rowEq hasVerbose)
      have inputId := (eq_of_mem_mapTransactionInputs inputsEq hasVerbose isNew).1
      exact ⟨rows.transaction, List.mem_append_right _ List.mem_cons_self,
        sameKey.trans inputId.symm⟩

theorem Paired.receiveAll (paired : loop.Paired) {forgotten : ℕ → Hash → Bool}
    {transactions : List RpcTransaction}
    (ran : Session.run (loop.receiveAll cliArgs forgotten transactions) db script =
      .done received final rest) : received.Paired := by
  induction transactions generalizing loop forgotten db script with
  | nil =>
      cases ran
      exact paired
  | cons transaction later ih =>
      obtain ⟨next, middle, left, firstRan, ran⟩ := Session.done_of_run_bind ran
      exact ih (paired.receiveTransaction firstRan) ran

end TransactionLoop

/-! ## Whole runs -/

/-- The inputs stored so far are indexed. -/
structure AddressIndexed (cliArgs : CliArgs) (start db : Db) (loop : TransactionLoop)
    (popped : List TransactionData) : Prop extends Sourced cliArgs start db loop popped where
  paired : loop.Paired
  indexed : ∀ row ∈ db.transactionsInputs, row ∉ start.transactionsInputs →
    ∀ output address, db.spentOutput row = some output →
      output.scriptPublicKeyAddress = some address →
        db.addressesTransactions.HasKey (address, row.transactionId)

namespace AddressIndexed

variable {cliArgs : CliArgs} {start db final : Db} {loop after received : TransactionLoop}
  {popped : List TransactionData} {script rest : Script}

theorem loaded (cliArgs : CliArgs) (start : Db) (now : ℕ) :
    AddressIndexed cliArgs start start (.loaded now start.subnetworks.rows) [] where
  toSourced := .loaded cliArgs start now
  paired _ held := absurd held List.not_mem_nil
  indexed _ stored isNew := absurd stored isNew

theorem of_same (indexed : AddressIndexed cliArgs start db loop popped)
    (same : SameTransactions db final) : AddressIndexed cliArgs start final loop popped where
  toSourced := indexed.toSourced.of_same same
  paired := indexed.paired
  indexed := by
    simp only [Db.spentOutput, same.inputs, same.outputs, same.addresses]
    exact indexed.indexed

theorem receive (indexed : AddressIndexed cliArgs start db loop popped) {data : TransactionData}
    (inOrder : InOrder start (popped ++ [data])) {forgotten : ℕ → Hash → Bool}
    (ran : Session.run (loop.receive cliArgs forgotten data) db script =
      .done received final rest) :
    AddressIndexed cliArgs start final received (popped ++ [data]) where
  toSourced := indexed.toSourced.receive inOrder ran
  paired := by
    have paired : TransactionLoop.Paired
      { loop with
        checkpointBlocks := loop.checkpointBlocks ++ [TransactionLoop.notification data] } :=
      indexed.paired
    exact paired.receiveAll ran
  indexed := by
    obtain ⟨numbering, rfl⟩ := TransactionLoop.exists_withNumbering_of_receiveAll ran
    exact indexed.indexed

/-- What an input spends when it is stored it spends ever after. -/
theorem commit (indexed : AddressIndexed cliArgs start db loop popped)
    (inOrder : InOrder start popped) (mapsAddresses : cliArgs.mapsAddresses = true)
    (enabled : cliArgs.isDisabled .transactionsOutputsTable = false)
    (timed : cliArgs.isDisabled .transactionsTable = false ∨
      cliArgs.isExcluded .txInBlockTime = false) {input : TransactionsInput}
    (ran : Session.run (loop.commit cliArgs input) db script = .done after final rest) :
    AddressIndexed cliArgs start final after popped where
  toSourced := indexed.toSourced.commit inOrder enabled ran
  paired := by
    obtain ⟨_, rfl⟩ := TransactionLoop.done_commit ran
    exact fun _ held => absurd held List.not_mem_nil
  indexed row stored isNew output address spends addressed := by
    obtain ⟨⟨_, insertRan⟩, _⟩ := TransactionLoop.done_commit ran
    by_cases before : row ∈ db.transactionsInputs
    · rw [indexed.toSourced.spentOutput_eq ran before isNew] at spends
      have filled :=
        TransactionLoop.filled_of_insertBatch (IndexedTable.addresses cliArgs) insertRan
      exact filled.hasKey (indexed.indexed row before isNew output address spends addressed)
    · exact TransactionLoop.hasKey_of_insertBatch mapsAddresses timed indexed.paired insertRan
        stored before spends addressed

end AddressIndexed

/-- The transaction has an output that pays to the address, or an input that spends a stored
output with it. -/
def Touches (db : Db) (transaction : RpcTransaction) (address : String) : Prop :=
  (∃ output ∈ transaction.outputs, output.verboseData = some ⟨address⟩) ∨
    ∃ input ∈ transaction.inputs, ∃ output ∈ db.transactionsOutputs,
      output.transactionId = input.previousOutpoint.transactionId ∧
      output.index = (input.previousOutpoint.index.toNat : Int) ∧
      output.scriptPublicKeyAddress = some address

namespace TransactionLoop

variable {cliArgs : CliArgs} {start db : Db} {loop : TransactionLoop}
  {popped mapped : List RpcTransaction}

/-- A pair of the index is an old one or one of a popped transaction. -/
theorem Tracks.touches_of_hasKey (tracks : Tracks cliArgs start db loop popped mapped)
    (included : cliArgs.isExcluded .txInPreviousOutpoint = false)
    (noInputs : start.transactionsInputs = .empty) {address : String} {transactionId : Hash}
    (indexed : db.addressesTransactions.HasKey (address, transactionId)) :
    start.addressesTransactions.HasKey (address, transactionId) ∨
      ∃ transaction ∈ popped, transaction.transactionId = some transactionId ∧
        Touches db transaction address := by
  obtain ⟨given, tracked⟩ := tracks.tables (IndexedTable.addresses cliArgs)
  obtain ⟨row, isStored, rowKey⟩ := indexed
  cases rowKey
  rcases tracked.filled.added row isStored with old | ⟨⟨other, isGiven, like⟩ | spent, _⟩
  · exact Or.inl ⟨row, old, rfl⟩
  · obtain ⟨transaction, isPopped, rows, rowsEq, otherMem⟩ :=
      tracks.exists_mapped_of_held tracked (List.mem_append_left _ isGiven)
    obtain ⟨_, mappedRows⟩ := mapRows_of_rowsOf rowsEq
    obtain ⟨verboseData, hasVerbose, idEq⟩ := IndexedTable.exists_verboseData mappedRows
    obtain ⟨_, _, _, addressesEq, _⟩ := mapRows_eq_some_iff.mp mappedRows
    obtain ⟨mapsAddresses, isRow⟩ := IndexedTable.mem_rowsIf.mp otherMem
    rw [if_pos mapsAddresses] at addressesEq
    obtain ⟨sameId, output, isOutput, verboseEq⟩ :=
      eq_of_mem_mapTransactionOutputsAddress addressesEq hasVerbose isRow
    have likeId := congrArg AddressTransaction.transactionId like
    have likeAddress := congrArg AddressTransaction.address like
    refine Or.inr ⟨transaction, isPopped, ?_, Or.inl ⟨output, isOutput, ?_⟩⟩
    · rw [idEq, ← sameId]
      exact congrArg some likeId
    · rw [verboseEq, show other.address = row.address from likeAddress]
  · obtain ⟨inputRow, inputStored, sameId, output, spends, addressed⟩ := spent
    rcases tracks.input_cases inputStored with old | ⟨transaction, isPopped, input, isInput⟩
    · rw [noInputs] at old
      exact absurd old (Table.notMem_empty inputRow)
    · obtain ⟨outputStored, hashEq, indexEq⟩ := spentOutput_eq_some_iff.mp spends
      rw [isInput.hash, included] at hashEq
      rw [isInput.index, included] at indexEq
      refine Or.inr ⟨transaction, isPopped, sameId ▸ isInput.transactionId, Or.inr
        ⟨input, isInput.among, output, outputStored, ?_, ?_, addressed⟩⟩
      · exact (Option.some.inj hashEq).symm
      · exact (Option.some.inj indexEq).symm

end TransactionLoop

/-- Once all is committed, the index holds the pairs of the processed transactions and those
it held before. -/
theorem IndexingWorld.addressIndex_of_run (settings : Settings) (start : Db) (now : ℕ)
    (events : List IndexingEvent)
    (mapsAddresses : settings.cliArgs.mapsAddresses = true)
    (inputsEnabled : settings.cliArgs.isDisabled .transactionsInputsTable = false)
    (outputsEnabled : settings.cliArgs.isDisabled .transactionsOutputsTable = false)
    (included : settings.cliArgs.isExcluded .txInPreviousOutpoint = false)
    (noInputs : start.transactionsInputs = .empty)
    (settled : (runFrom (IndexingWorld.step settings) (.start start now) events).Settled)
    (inOrder : InOrder start
      (runFrom (IndexingWorld.step settings) (.start start now) events).poppedTransactions)
    (timed : settings.cliArgs.isDisabled .transactionsTable = false ∨
      settings.cliArgs.isExcluded .txInBlockTime = false) :
    ∀ address transactionId,
      (runFrom (IndexingWorld.step settings) (.start start now)
          events).db.addressesTransactions.HasKey (address, transactionId) ↔
        start.addressesTransactions.HasKey (address, transactionId) ∨
          ∃ transaction ∈ (runFrom (IndexingWorld.step settings) (.start start now)
              events).transactions,
            transaction.transactionId = some transactionId ∧
              Touches (runFrom (IndexingWorld.step settings) (.start start now) events).db
                transaction address := by
  obtain ⟨loop, running, noRelations⟩ := settled
  have holds := @IndexingWorld.of_running settings start now
    (fun db loop popped => InOrder start popped →
      AddressIndexed settings.cliArgs start db loop popped)
    (fun _ => .loaded settings.cliArgs start now)
    (fun same holds inOrder => (holds inOrder).of_same same)
    (fun ran holds inOrder => (holds inOrder.of_append).receive inOrder ran)
    (fun ran holds inOrder =>
      (holds inOrder).commit inOrder mapsAddresses outputsEnabled timed ran)
    events loop running
  have indexed := holds inOrder
  obtain ⟨mapped, tracks⟩ := indexed.tracks
  have nothing := tracks.settled noRelations
  intro address transactionId
  refine ⟨tracks.touches_of_hasKey included noInputs, ?_⟩
  rintro (old | ⟨transaction, isPopped, idEq, ⟨output, isOutput, verboseEq⟩ |
    ⟨input, among, output, outputStored, sameHash, sameIndex, addressed⟩⟩)
  · obtain ⟨given, tracked⟩ := tracks.tables (IndexedTable.addresses settings.cliArgs)
    exact tracked.filled.hasKey old
  · obtain ⟨otherId, otherIdEq, other, isMapped, sameId⟩ := tracks.known transaction isPopped
    cases idEq.symm.trans otherIdEq
    have sameOutputs : other.outputs = transaction.outputs := congrArg Prod.snd
      (inOrder.effects other (tracks.popped_of_mapped other isMapped) transaction isPopped
        (sameId.trans idEq.symm))
    have stored := tracks.stored_of_mapped nothing isMapped sameId
    exact stored.addresses mapsAddresses output (sameOutputs ▸ isOutput) _ verboseEq
  · obtain ⟨row, isStored, isInput⟩ := tracks.exists_stored_input inOrder.effects nothing
      inputsEnabled noInputs isPopped among
    have isNew : row ∉ start.transactionsInputs := by
      rw [noInputs]
      exact Table.notMem_empty row
    have spends := spentOutput_eq_some_iff.mpr ⟨outputStored,
      isInput.hash.trans (by rw [included, sameHash]; rfl),
      isInput.index.trans (by rw [included, sameIndex]; rfl)⟩
    cases idEq.symm.trans isInput.transactionId
    exact indexed.indexed row isStored isNew output address spends addressed

theorem spentAtOnce_addressIndex :
    (runFrom (IndexingWorld.step indexingSettings) (.start .empty 0)
        spentAtOnce).db.addressesTransactions.rows.length = 2 ∧
      ∀ address transactionId,
        (runFrom (IndexingWorld.step indexingSettings) (.start .empty 0)
            spentAtOnce).db.addressesTransactions.HasKey (address, transactionId) ↔
          Db.empty.addressesTransactions.HasKey (address, transactionId) ∨
            ∃ transaction ∈ (runFrom (IndexingWorld.step indexingSettings) (.start .empty 0)
                spentAtOnce).transactions,
              transaction.transactionId = some transactionId ∧
                Touches (runFrom (IndexingWorld.step indexingSettings) (.start .empty 0)
                  spentAtOnce).db transaction address := by
  have popped : (runFrom (IndexingWorld.step indexingSettings) (.start .empty 0)
      spentAtOnce).poppedTransactions = [spentData] := by
    decide +kernel
  constructor
  · decide +kernel
  · apply IndexingWorld.addressIndex_of_run indexingSettings .empty 0 spentAtOnce
    · rfl
    · rfl
    · rfl
    · rfl
    · rfl
    · decide +kernel
    · rw [popped]
      exact inOrder_spentData .empty
    · exact Or.inl rfl

/-! ## Without the time of inputs and the table of transactions -/

def untimedSettings : Settings where
  cliArgs := { CliArgs.standard with
    disable := some [.transactionsTable]
    excludeFields := some [.txInBlockTime] }
  netBps := 1
  checkpoint := 1
  disableVcpWaitForSync := false

/-- The join with the empty `transactions` table yields nothing. -/
theorem spentAtOnce_not_indexed :
    (untimedSettings.cliArgs.mapsAddresses = true ∧
      untimedSettings.cliArgs.isDisabled .transactionsInputsTable = false ∧
      untimedSettings.cliArgs.isDisabled .transactionsOutputsTable = false ∧
      untimedSettings.cliArgs.isExcluded .txInPreviousOutpoint = false) ∧
    (runFrom (IndexingWorld.step untimedSettings) (.start .empty 0) spentAtOnce).Settled ∧
    InOrder .empty (runFrom (IndexingWorld.step untimedSettings) (.start .empty 0)
      spentAtOnce).poppedTransactions ∧
    (∃ transaction ∈ (runFrom (IndexingWorld.step untimedSettings) (.start .empty 0)
        spentAtOnce).transactions, transaction.transactionId = some 8 ∧
      Touches (runFrom (IndexingWorld.step untimedSettings) (.start .empty 0) spentAtOnce).db
        transaction "a") ∧
    ¬ (runFrom (IndexingWorld.step untimedSettings) (.start .empty 0)
      spentAtOnce).db.addressesTransactions.HasKey ("a", 8) := by
  have popped : (runFrom (IndexingWorld.step untimedSettings) (.start .empty 0)
      spentAtOnce).poppedTransactions = [spentData] := by
    decide +kernel
  refine ⟨⟨rfl, rfl, rfl, rfl⟩, by decide +kernel, ?_, ?_, ?_⟩
  · rw [popped]
    exact inOrder_spentData .empty
  · refine ⟨spendingTransaction 1, ?_, rfl, Or.inr ⟨⟨⟨7, 0⟩, [], 1⟩, List.mem_cons_self,
      ⟨7, 0, some 5, some [1], some "a", some 0⟩, ?_, rfl, rfl, rfl⟩⟩
    · rw [IndexingWorld.transactions, popped]
      exact List.mem_cons_of_mem _ List.mem_cons_self
    · decide +kernel
  · rw [← Table.lookup_eq_none_iff]
    decide +kernel

end VecnoIndexer
