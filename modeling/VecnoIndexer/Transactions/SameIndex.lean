import VecnoIndexer.Transactions.PlainIndexing

/-!
# Batches leave what plain indexing leaves

With nothing pending, each table was filled with rows of the popped transactions, and
with the keys of all of them.  So was it by plain indexing.  Occurrences of a
transaction carry equal content, so both tables have the same rows apart from the
columns not compared.

Blocks delivered again only give keys that are taken.
-/

namespace VecnoIndexer

open VecnoIndexer.Sql
open VecnoIndexer.Collections
open VecnoIndexer.Transition

/-! ## The same rows -/

namespace TransactionLoop

variable {cliArgs : CliArgs} {start db plain : Db} {loop : TransactionLoop}
  {popped mapped : List RpcTransaction}

/-- Occurrences of a transaction have the same rows, apart from the columns not compared. -/
theorem like_of_sameId {transactions : List RpcTransaction} (content : SameContentById transactions)
    {first second : RpcTransaction} (isFirst : first ∈ transactions)
    (isSecond : second ∈ transactions) (sameId : first.transactionId = second.transactionId)
    {rows otherRows : TransactionRows} (rowsEq : loop.rowsOf cliArgs first = some rows)
    (otherEq : loop.rowsOf cliArgs second = some otherRows) : rows.Like otherRows := by
  have same := content first isFirst second isSecond sameId
  obtain ⟨_, _, sameSubnetwork⟩ := identified_of_content same
  simp only [rowsOf, Option.bind_eq_bind, Option.bind_eq_some_iff] at rowsEq otherEq
  obtain ⟨key, keyEq, mappedRows⟩ := rowsEq
  obtain ⟨otherKey, otherKeyEq, otherMapped⟩ := otherEq
  rw [sameSubnetwork, otherKeyEq] at keyEq
  cases keyEq
  exact like_of_content same mappedRows otherMapped

/-- Like transactions have rows for the table with the same keys. -/
theorem exists_mapped_of_like {α β κ : Type} {rowKey : α → Option κ} {project : α → β}
    (table : IndexedTable cliArgs rowKey project) {rows otherRows : TransactionRows}
    (like : rows.Like otherRows) {row : α} (rowMem : row ∈ table.mapped rows) :
    ∃ other ∈ table.mapped otherRows, project other = project row := by
  have projected := List.mem_map_of_mem (f := project) rowMem
  rw [table.mapped_like like] at projected
  exact List.mem_map.mp projected

theorem mapRows_of_rowsOf {transaction : RpcTransaction} {rows : TransactionRows}
    (rowsEq : loop.rowsOf cliArgs transaction = some rows) :
    ∃ key, mapRows cliArgs transaction key = some rows := by
  simp only [rowsOf, Option.bind_eq_bind, Option.bind_eq_some_iff] at rowsEq
  obtain ⟨key, _, mappedRows⟩ := rowsEq
  exact ⟨key, mappedRows⟩

/-- With nothing pending a table has the rows of plain indexing. -/
theorem Tracks.sameRows (tracks : Tracks cliArgs start db loop popped mapped)
    (nothing : loop.pendingRows = .nothing)
    (indexed : IndexedPlainly cliArgs start plain loop.subnetworkMap popped)
    (content : SameContentById popped) {α β κ : Type} {rowKey : α → Option κ} {project : α → β}
    (table : IndexedTable cliArgs rowKey project) (determined : table.Determined) :
    SameRows project (table.joined db) (table.place.get db) (table.place.get plain) := by
  obtain ⟨given, tracked⟩ := tracks.tables table
  obtain ⟨plainGiven, plainFilled, plainGiven_iff⟩ := indexed.tables table
  have only := tracked.only
  have taken := tracked.taken
  rw [nothing, table.pending_nothing, List.append_nil] at only taken
  refine sameRows_of_filled table.keyed table.keyedRows ?_ ?_ ?_ (table.decided db)
    tracked.filled plainFilled
  · intro row isGiven other isPlain sameKey
    obtain ⟨first, isMapped, rows, rowsEq, rowMem⟩ := only row isGiven
    obtain ⟨second, isPopped, otherRows, otherEq, otherMem⟩ := (plainGiven_iff other).mp isPlain
    obtain ⟨key, mappedRows⟩ := mapRows_of_rowsOf rowsEq
    have otherEq : loop.rowsOf cliArgs second = some otherRows := otherEq
    obtain ⟨otherKey, otherMapped⟩ := mapRows_of_rowsOf otherEq
    have sameId := determined.sameId mappedRows otherMapped row rowMem other otherMem sameKey
    have like := like_of_sameId content (tracks.popped_of_mapped first isMapped) isPopped sameId
      rowsEq otherEq
    obtain ⟨found, foundMem, foundLike⟩ := exists_mapped_of_like table like rowMem
    have foundKey := (table.keyed found row foundLike).trans sameKey
    exact foundLike.symm.trans
      (determined.sameRow otherMapped found foundMem other otherMem foundKey)
  · intro row isGiven
    obtain ⟨transaction, isMapped, rows, rowsEq, rowMem⟩ := only row isGiven
    exact ⟨row, (plainGiven_iff row).mpr
      ⟨transaction, tracks.popped_of_mapped transaction isMapped, rows, rowsEq, rowMem⟩, rfl⟩
  · intro row isPlain
    obtain ⟨transaction, isPopped, rows, rowsEq, rowMem⟩ := (plainGiven_iff row).mp isPlain
    obtain ⟨transactionId, idEq, other, isMapped, otherId⟩ := tracks.known transaction isPopped
    obtain ⟨otherRows, otherEq⟩ := tracks.rows_of_mapped other isMapped
    have like := like_of_sameId content isPopped (tracks.popped_of_mapped other isMapped)
      (idEq.trans otherId.symm) rowsEq otherEq
    obtain ⟨found, foundMem, foundLike⟩ := exists_mapped_of_like table like rowMem
    obtain ⟨last, lastMem, lastKey⟩ := taken other isMapped otherRows otherEq found foundMem
    exact ⟨last, lastMem, lastKey.trans (table.keyed found row foundLike)⟩

/-- A block relation is its key. -/
theorem eq_of_primaryKey (first second : BlockTransaction)
    (sameKey : first.primaryKey = second.primaryKey) : first = second := by
  cases first
  cases second
  cases sameKey
  rfl

/-- The block relations are those of plain indexing. -/
theorem Tracks.sameRelations (tracks : Tracks cliArgs start db loop popped mapped)
    (nothing : loop.blockTx = [])
    (indexed : IndexedPlainly cliArgs start plain loop.subnetworkMap popped) :
    ∀ row, row ∈ db.blocksTransactions ↔ row ∈ plain.blocksTransactions := by
  obtain ⟨given, tracked⟩ := tracks.relations
  obtain ⟨plainGiven, plainFilled, plainGiven_iff⟩ := indexed.relations
  have same := tracked.same
  rw [nothing, IndexedTable.rowsIf_nil, List.append_nil] at same
  have rows := sameRows_of_filled FilledTable.blocksTransactions.keyed
    FilledTable.blocksTransactions.keyedRows
    (fun row _ other _ => eq_of_primaryKey row other)
    (fun row isGiven => ⟨row, (plainGiven_iff row).mpr ((same row).mp isGiven), rfl⟩)
    (fun row isPlain => ⟨row, (same row).mpr ((plainGiven_iff row).mp isPlain), rfl⟩)
    (fun _ impossible => impossible.elim) tracked.filled plainFilled
  intro row
  constructor
  · intro stored
    obtain ⟨other, otherMem, rfl⟩ := (rows.only row stored).resolve_right id
    exact otherMem
  · intro stored
    obtain ⟨other, otherMem, rfl⟩ := rows.stored row stored
    exact otherMem

/-! ## Delivered again -/

/-- What is stored may be taken for the database to start from. -/
theorem Tracks.rebase (tracks : Tracks cliArgs start db loop popped mapped) :
    Tracks cliArgs db db loop popped mapped where
  popped_of_mapped := tracks.popped_of_mapped
  rows_of_mapped := tracks.rows_of_mapped
  known := tracks.known
  cached := tracks.cached
  settled := tracks.settled
  relations := by
    obtain ⟨given, tracked⟩ := tracks.relations
    exact ⟨given, ⟨fun _ => id, fun _ => Or.inl, tracked.filled.present⟩, tracked.same⟩
  tables table := by
    obtain ⟨given, tracked⟩ := tracks.tables table
    exact ⟨given, ⟨fun _ => id, fun _ => Or.inl, tracked.filled.present⟩, tracked.only,
      tracked.taken⟩

/-- If all keys of the mapped transactions are taken, a table gets no rows but those of a
join. -/
theorem Tracks.kept (tracks : Tracks cliArgs start db loop popped mapped) {α β κ : Type}
    {rowKey : α → Option κ} {project : α → β} (table : IndexedTable cliArgs rowKey project)
    (taken : ∀ transaction ∈ mapped, ∀ key rows, mapRows cliArgs transaction key = some rows →
      ∀ row ∈ table.mapped rows, ∀ k, rowKey row = some k → (table.place.get start).HasKey k) :
    (∀ row ∈ table.place.get start, row ∈ table.place.get db) ∧
      ∀ row ∈ table.place.get db, row ∈ table.place.get start ∨ table.joined db row := by
  obtain ⟨given, tracked⟩ := tracks.tables table
  refine ⟨tracked.filled.kept, fun row stored => ?_⟩
  refine tracked.filled.mem_or_beside table.keyed table.keyedRows (fun other isGiven k keyEq => ?_)
    stored
  obtain ⟨transaction, isMapped, rows, rowsEq, rowMem⟩ :=
    tracked.only other (List.mem_append_left _ isGiven)
  obtain ⟨key, mappedRows⟩ := mapRows_of_rowsOf rowsEq
  exact taken transaction isMapped key rows mappedRows other rowMem k keyEq

theorem Tracks.relations_kept (tracks : Tracks cliArgs start db loop popped mapped)
    (taken : cliArgs.isDisabled .blocksTransactionsTable = false →
      ∀ transaction ∈ popped, ∀ row, VecnoDbMapper.mapBlockTransaction transaction = some row →
        ∀ k, row.primaryKey = some k → start.blocksTransactions.HasKey k) :
    ∀ row, row ∈ db.blocksTransactions ↔ row ∈ start.blocksTransactions := by
  obtain ⟨given, tracked⟩ := tracks.relations
  refine fun row => ⟨fun stored => ?_, tracked.filled.kept row⟩
  refine (tracked.filled.mem_or_beside FilledTable.blocksTransactions.keyed
    FilledTable.blocksTransactions.keyedRows (fun other isGiven k keyEq => ?_)
      stored).resolve_right id
  obtain ⟨enabled, transaction, isPopped, relationEq⟩ :=
    (tracked.same other).mp (List.mem_append_left _ isGiven)
  exact taken enabled transaction isPopped other relationEq k keyEq

end TransactionLoop

/-- The rows of the transaction processor are the same, but for relations to addresses of
inputs that can be resolved now. -/
structure Unchanged (before after : Db) : Prop where
  transactions : ∀ row, row ∈ after.transactions ↔ row ∈ before.transactions
  inputs : ∀ row, row ∈ after.transactionsInputs ↔ row ∈ before.transactionsInputs
  outputs : ∀ row, row ∈ after.transactionsOutputs ↔ row ∈ before.transactionsOutputs
  blocksTransactions : ∀ row, row ∈ after.blocksTransactions ↔ row ∈ before.blocksTransactions
  addresses : ∀ row ∈ before.addressesTransactions, row ∈ after.addressesTransactions
  newAddresses : ∀ row ∈ after.addressesTransactions,
    row ∈ before.addressesTransactions ∨ after.SpentAddress row
  scripts : ∀ row ∈ before.scriptsTransactions, row ∈ after.scriptsTransactions
  newScripts : ∀ row ∈ after.scriptsTransactions,
    row ∈ before.scriptsTransactions ∨ after.SpentScript row

/-- The rows of plain indexing are stored, apart from the columns not compared, and besides
them only relations to addresses of inputs. -/
structure SameIndex (batched plain : Db) : Prop where
  transactions : SameRows Transaction.apartFromTime (fun _ => False) batched.transactions
    plain.transactions
  inputs : SameRows TransactionInput.apartFromTime (fun _ => False) batched.transactionsInputs
    plain.transactionsInputs
  outputs : SameRows TransactionOutput.apartFromTime (fun _ => False) batched.transactionsOutputs
    plain.transactionsOutputs
  blocksTransactions : ∀ row, row ∈ batched.blocksTransactions ↔ row ∈ plain.blocksTransactions
  addresses : SameRows AddressTransaction.apartFromTime batched.SpentAddress
    batched.addressesTransactions plain.addressesTransactions
  scripts : SameRows ScriptTransaction.apartFromTime batched.SpentScript
    batched.scriptsTransactions plain.scriptsTransactions

namespace IndexingWorld

variable {settings : Settings} {world again : IndexingWorld}

/-- The process is alive and has committed every block popped. -/
def Settled (world : IndexingWorld) : Prop :=
  ∃ loop, world.transactionLoop = some loop ∧ loop.blockTx = []

instance (world : IndexingWorld) : Decidable world.Settled :=
  decidable_of_iff (world.transactionLoop.map TransactionLoop.blockTx = some [])
    Option.map_eq_some_iff

theorem sameIndex_of_settled {start plain : Db} {known : SubnetworkMap}
    (side : world.TransactionsSide settings start) (numbered : world.Numbered start)
    (settled : world.Settled) (content : SameContentById world.transactions)
    (indexed : (indexInOrder settings.cliArgs (loadSubnetworks start.subnetworks.rows)
      world.transactions).Completes start known plain) : SameIndex world.db plain := by
  obtain ⟨loop, running, noRelations⟩ := settled
  obtain ⟨⟨mapped, tracks⟩, _⟩ := side.tracked loop running
  obtain ⟨rest, _, ran⟩ := indexed (fun _ => .succeeds) fun _ => rfl
  have sameNumbering := (numbered loop running).symm.trans (assignAll_of_indexInOrder ran)
  have sameMap := congrArg Numbering.subnetworkMap (Option.some.inj sameNumbering)
  have plainly := (indexedPlainly_nil settings.cliArgs start _).append ran
  rw [List.nil_append, ← show loop.subnetworkMap = known from sameMap] at plainly
  have nothing := tracks.settled noRelations
  constructor
  · exact tracks.sameRows nothing plainly content _ (IndexedTable.determined_transactions _)
  · exact tracks.sameRows nothing plainly content _ (IndexedTable.determined_inputs _)
  · exact tracks.sameRows nothing plainly content _ (IndexedTable.determined_outputs _)
  · exact tracks.sameRelations noRelations plainly
  · exact tracks.sameRows nothing plainly content _ (IndexedTable.determined_addresses _)
  · exact tracks.sameRows nothing plainly content _ (IndexedTable.determined_scripts _)

/-- Committed blocks that are popped again change nothing. -/
theorem unchanged_of_settled {start : Db} (side : world.TransactionsSide settings start)
    (settled : world.Settled) (content : SameContentById world.transactions)
    (sideAgain : again.TransactionsSide settings world.db) (settledAgain : again.Settled)
    (delivered : ∀ data ∈ again.poppedTransactions, data ∈ world.poppedTransactions) :
    Unchanged world.db again.db := by
  obtain ⟨loop, running, noRelations⟩ := settled
  obtain ⟨⟨mapped, tracks⟩, _⟩ := side.tracked loop running
  obtain ⟨loopAgain, runningAgain, _⟩ := settledAgain
  obtain ⟨⟨mappedAgain, tracksAgain⟩, _⟩ := sideAgain.tracked loopAgain runningAgain
  have among : ∀ transaction ∈ again.transactions, transaction ∈ world.transactions := by
    intro transaction isPopped
    obtain ⟨data, dataMem, isTransaction⟩ := List.mem_flatMap.mp isPopped
    exact List.mem_flatMap.mpr ⟨data, delivered data dataMem, isTransaction⟩
  have keysTaken : ∀ transaction ∈ mappedAgain, ∀ key rows,
      mapRows settings.cliArgs transaction key = some rows →
        KeysTaken settings.cliArgs world.db rows := by
    intro transaction isMapped key rows mappedRows
    have isPopped := among transaction (tracksAgain.popped_of_mapped transaction isMapped)
    obtain ⟨transactionId, idEq, other, otherMapped, otherId⟩ := tracks.known transaction isPopped
    have stored := tracks.stored_of_mapped (tracks.settled noRelations) otherMapped otherId
    have same := identified_of_content (content other (tracks.popped_of_mapped other otherMapped)
      transaction isPopped (otherId.trans idEq.symm))
    exact (stored.congr (congrArg List.length same.1) same.2.1).keysTaken idEq mappedRows
  have transactions := tracksAgain.kept (IndexedTable.transactions _)
    fun transaction isMapped key rows mappedRows =>
      (keysTaken transaction isMapped key rows mappedRows).transactions
  have inputs := tracksAgain.kept (IndexedTable.inputs _)
    fun transaction isMapped key rows mappedRows =>
      (keysTaken transaction isMapped key rows mappedRows).inputs
  have outputs := tracksAgain.kept (IndexedTable.outputs _)
    fun transaction isMapped key rows mappedRows =>
      (keysTaken transaction isMapped key rows mappedRows).outputs
  have addresses := tracksAgain.kept (IndexedTable.addresses _)
    fun transaction isMapped key rows mappedRows =>
      (keysTaken transaction isMapped key rows mappedRows).addresses
  have scripts := tracksAgain.kept (IndexedTable.scripts _)
    fun transaction isMapped key rows mappedRows =>
      (keysTaken transaction isMapped key rows mappedRows).scripts
  constructor
  · exact fun row => ⟨fun stored => (transactions.2 row stored).resolve_right id,
      transactions.1 row⟩
  · exact fun row => ⟨fun stored => (inputs.2 row stored).resolve_right id, inputs.1 row⟩
  · exact fun row => ⟨fun stored => (outputs.2 row stored).resolve_right id, outputs.1 row⟩
  · refine tracksAgain.relations_kept fun enabled transaction isPopped row relationEq k keyEq => ?_
    simp only [VecnoDbMapper.mapBlockTransaction, Option.bind_eq_bind, Option.bind_eq_some_iff]
      at relationEq
    obtain ⟨verboseData, hasVerbose, eq⟩ := relationEq
    cases eq
    cases keyEq
    exact tracks.relation_stored enabled noRelations (among transaction isPopped) hasVerbose
  · exact addresses.1
  · exact addresses.2
  · exact scripts.1
  · exact scripts.2

/-- The transactions are tracked from what is stored. -/
theorem TransactionsSide.rebase {start : Db} (side : world.TransactionsSide settings start) :
    world.TransactionsSide settings world.db where
  tracked loop running := by
    obtain ⟨⟨mapped, tracks⟩, inOrder⟩ := side.tracked loop running
    exact ⟨⟨mapped, tracks.rebase⟩, inOrder⟩
  shown := side.shown

/-- After any run that has committed what it popped, the tables are those of plain
indexing, and no run after it that only pops the same blocks, in the same process or a new
one, changes them. -/
theorem sameIndex_of_run (settings : Settings) (db : Db) (now : ℕ) (events : List IndexingEvent)
    (settled : (runFrom (step settings) (start db now) events).Settled)
    (content : SameContentById (runFrom (step settings) (start db now) events).transactions)
    (known : SubnetworkMap) (plain : Db)
    (indexed : (indexInOrder settings.cliArgs (loadSubnetworks db.subnetworks.rows)
      (runFrom (step settings) (start db now) events).transactions).Completes db known plain) :
    SameIndex (runFrom (step settings) (start db now) events).db plain ∧
      ∀ origin, origin = runFrom (step settings) (start db now) events ∨
          (∃ later, origin = start (runFrom (step settings) (start db now) events).db later) →
        ∀ more, (runFrom (step settings) origin more).Settled →
          (∀ data ∈ (runFrom (step settings) origin more).poppedTransactions,
            data ∈ (runFrom (step settings) (start db now) events).poppedTransactions) →
          Unchanged (runFrom (step settings) (start db now) events).db
            (runFrom (step settings) origin more).db := by
  have sides := sides_of_run settings db now events
  have numbered := numbered_of_run settings db now events
  refine ⟨sameIndex_of_settled sides.2 numbered settled content indexed, ?_⟩
  intro origin isOrigin more settledAgain delivered
  refine unchanged_of_settled sides.2 settled content ?_ settledAgain delivered
  rcases isOrigin with rfl | ⟨later, rfl⟩
  · have rebased := And.intro sides.1 sides.2.rebase
    have after := @invariant_of_run _ _ _
      (fun next : IndexingWorld => next.BlocksSide settings ∧ next.TransactionsSide settings
        (runFrom (step settings) (start db now) events).db)
      (fun _ event => sides_step event) _ more rebased
    exact after.2
  · exact (sides_of_run settings _ later more).2

end IndexingWorld

/-- A block that was committed with an earlier one of the same content, and both after a
restart. -/
theorem paidTwice_sameIndex :
    ∃ plain, SameIndex (runFrom (IndexingWorld.step indexingSettings) (.start .empty 0)
        paidTwice).db plain ∧
      Unchanged (runFrom (IndexingWorld.step indexingSettings) (.start .empty 0) paidTwice).db
        (runFrom (IndexingWorld.step indexingSettings)
          (.start (runFrom (IndexingWorld.step indexingSettings) (.start .empty 0) paidTwice).db 0)
          paidTwice).db := by
  have popped : (runFrom (IndexingWorld.step indexingSettings) (.start .empty 0)
      paidTwice).poppedTransactions = [paidData 1, paidData 2] := by
    decide +kernel
  have poppedAgain : (runFrom (IndexingWorld.step indexingSettings)
      (.start (runFrom (IndexingWorld.step indexingSettings) (.start .empty 0) paidTwice).db 0)
      paidTwice).poppedTransactions = [paidData 1, paidData 2] := by
    decide +kernel
  have content : SameContentById (runFrom (IndexingWorld.step indexingSettings) (.start .empty 0)
      paidTwice).transactions := by
    rw [IndexingWorld.transactions, popped]
    rintro first isFirst second isSecond _
    simp only [List.flatMap_cons, List.flatMap_nil, paidData, List.append_nil, List.cons_append,
      List.nil_append, List.mem_cons, List.not_mem_nil, or_false] at isFirst isSecond
    rcases isFirst with rfl | rfl <;> rcases isSecond with rfl | rfl <;> rfl
  have returns : (Session.run (indexInOrder .standard (loadSubnetworks [])
      (runFrom (IndexingWorld.step indexingSettings) (.start .empty 0) paidTwice).transactions)
        .empty (fun _ => .succeeds)).returns = true := by
    decide +kernel
  obtain ⟨known, plain, rest, ran⟩ := Exec.exists_of_returns returns
  have both := IndexingWorld.sameIndex_of_run indexingSettings .empty 0 paidTwice
    (by decide +kernel) content known plain (strict_indexInOrder _ _ _ _ _ _ _ _ ran)
  refine ⟨plain, both.1, both.2 _ (Or.inr ⟨0, rfl⟩) paidTwice (by decide +kernel) ?_⟩
  rw [poppedAgain, popped]
  exact fun _ => id

end VecnoIndexer
