import VecnoIndexer.Transactions.Batches

/-!
# What has become of the popped transactions

The rows of every mapped transaction are in the batch or were given to their tables, and
every popped transaction has the id of a mapped one: the cache only knows ids that were
mapped.  This holds after every transaction taken into a batch and after every commit,
whatever the cache forgets.
-/

namespace VecnoIndexer

open VecnoIndexer.Sql
open VecnoIndexer.Collections

/-! ## Subnetworks -/

/-- What the key of a subnetwork depends on: the map, the table and its sequence. -/
structure Numbering where
  subnetworkMap : SubnetworkMap
  subnetworks : Table Subnetwork.primaryKey
  nextId : Int

namespace Numbering

/-- The key of a subnetwork, with the numbering that knows it, unless an insert fails. -/
def assign (numbering : Numbering) (subnetworkId : String) : Option (Int × Numbering) :=
  match numbering.subnetworkMap.lookup subnetworkId with
  | some key => some (key, numbering)
  | none =>
      let row : Subnetwork := ⟨numbering.nextId, subnetworkId⟩
      if InI32 numbering.nextId ∧ ¬ numbering.subnetworks.Conflicts row then
        some (numbering.nextId, {
          subnetworkMap := (subnetworkId, numbering.nextId) :: numbering.subnetworkMap
          subnetworks := numbering.subnetworks.insertIgnore row
          nextId := numbering.nextId + 1 })
      else
        none

variable {numbering after : Numbering} {subnetworkId : String} {key : Int}

theorem lookup_assign (assigned : numbering.assign subnetworkId = some (key, after)) :
    after.subnetworkMap.lookup subnetworkId = some key := by
  unfold assign at assigned
  cases known : numbering.subnetworkMap.lookup subnetworkId with
  | some found =>
      rw [known] at assigned
      cases assigned
      exact known
  | none =>
      rw [known] at assigned
      simp only at assigned
      split_ifs at assigned
      cases assigned
      exact List.lookup_cons_self

/-- The key of a subnetwork never changes. -/
theorem lookup_of_assign (assigned : numbering.assign subnetworkId = some (key, after))
    {other : String} {otherKey : Int}
    (known : numbering.subnetworkMap.lookup other = some otherKey) :
    after.subnetworkMap.lookup other = some otherKey := by
  unfold assign at assigned
  cases found : numbering.subnetworkMap.lookup subnetworkId with
  | some _ =>
      rw [found] at assigned
      cases assigned
      exact known
  | none =>
      rw [found] at assigned
      simp only at assigned
      split_ifs at assigned
      cases assigned
      have different : other ≠ subnetworkId := by
        rintro rfl
        rw [found] at known
        contradiction
      rw [List.lookup_cons, beq_false_of_ne different]
      exact known

end Numbering

/-- The database with another subnetworks table. -/
def Db.withNumbering (db : Db) (numbering : Numbering) : Db :=
  { db with
    subnetworks := numbering.subnetworks
    subnetworksNextId := numbering.nextId }

/-- A key that was found or inserted was assigned. -/
theorem assign_of_subnetworkKey {known found : SubnetworkMap} {subnetworkId : String} {key : Int}
    {db after : Db} {script rest : Script}
    (ran : Session.run (subnetworkKey known subnetworkId) db script =
      .done (key, found) after rest) :
    ∃ numbering, Numbering.assign ⟨known, db.subnetworks, db.subnetworksNextId⟩ subnetworkId =
      some (key, numbering) ∧ numbering.subnetworkMap = found ∧
        after = db.withNumbering numbering := by
  unfold subnetworkKey at ran
  unfold Numbering.assign
  cases lookup : known.lookup subnetworkId with
  | some present =>
      rw [lookup] at ran
      cases ran
      exact ⟨_, rfl, rfl, rfl⟩
  | none =>
      rw [lookup] at ran
      obtain ⟨inserted, middle, left, insertRan, ran⟩ := Session.done_of_run_bind ran
      cases ran
      have insertRan := Session.done_of_run_unwrap insertRan
      obtain ⟨returned, last, lastRest, statementRan, ran⟩ := Session.done_of_run_bind insertRan
      have executed := Session.executed_of_run_statement statementRan
      simp only at executed
      split_ifs at executed with fits conflict
      · cases executed
        cases ran
      · cases executed
        cases ran
        exact ⟨_, if_pos ⟨fits, conflict⟩, rfl, rfl⟩

/-! ## A batch -/

/-- Only the keys and the rows up to the projection count. -/
theorem FilledTable.filled_congr {α β κ : Type} {key : α → Option κ} {project : α → β}
    (table : FilledTable key project) {rows more : List α} {beside : α → Prop}
    {before after : Table key} (filled : Filled project rows beside before after)
    (same : Matches project rows more) : Filled project more beside before after := by
  refine filled.congr same.onto fun row isMore => ?_
  obtain ⟨other, given, like⟩ := same.back row isMore
  exact ⟨other, given, table.keyed other row like⟩

namespace TransactionLoop

variable {cliArgs : CliArgs} {loop after received : TransactionLoop} {input : TransactionsInput}
  {db final : Db} {script rest : Script}

/-- A batch that returned executed the statements that need others after these. -/
theorem phases_of_insertBatch
    (ran : Session.run (loop.insertBatch cliArgs input) db script = .done () final rest) :
    ∃ txInputs middle firstTotal secondTotal firsts seconds between left,
      loop.resolvedInputs cliArgs = some txInputs ∧
      (∀ insert, insert ∈ firsts ↔ insert ∈ loop.firstInserts cliArgs txInputs) ∧
      (∀ insert, insert ∈ seconds ↔ insert ∈ loop.secondInserts cliArgs) ∧
      Session.run (InsertStatement.executeAll firsts) db script =
        .done firstTotal middle between ∧
      Session.run (InsertStatement.executeAll seconds) middle between =
        .done secondTotal final left := by
  unfold insertBatch at ran
  cases resolved : loop.resolvedInputs cliArgs with
  | none =>
      rw [resolved] at ran
      obtain ⟨_, _, _, _, died⟩ := Session.done_of_run_bind ran
      cases died
  | some txInputs =>
      rw [resolved] at ran
      obtain ⟨first, middle, left, firstRan, ran⟩ := Session.done_of_run_bind ran
      obtain ⟨second, last, lastRest, secondRan, ran⟩ := Session.done_of_run_bind ran
      cases ran
      exact ⟨txInputs, middle, first, second, _, _, left, _, rfl, fun _ => Reordering.mem_order _,
        fun _ => Reordering.mem_order _, firstRan, secondRan⟩

/-- A batch that returned executed all its statements. -/
theorem done_insertBatch
    (ran : Session.run (loop.insertBatch cliArgs input) db script = .done () final rest) :
    ∃ txInputs total inserts left, loop.resolvedInputs cliArgs = some txInputs ∧
      (∀ insert, insert ∈ inserts ↔ insert ∈ loop.batchInserts cliArgs txInputs) ∧
      Session.run (InsertStatement.executeAll inserts) db script = .done total final left := by
  obtain ⟨txInputs, middle, firstTotal, secondTotal, firsts, seconds, between, left, resolved,
    isFirst, isSecond, firstRan, secondRan⟩ := phases_of_insertBatch ran
  obtain ⟨total, both⟩ := InsertStatement.executeAll_append firstRan secondRan
  refine ⟨txInputs, total, _, _, resolved, fun insert => ?_, both⟩
  simp only [batchInserts, List.mem_append, isFirst, isSecond]

theorem done_commit
    (ran : Session.run (loop.commit cliArgs input) db script = .done after final rest) :
    (∃ left, Session.run (loop.insertBatch cliArgs input) db script = .done () final left) ∧
      after = loop.cleared input.commitNow := by
  obtain ⟨_, middle, left, insertRan, ran⟩ := Session.done_of_run_bind ran
  split at ran
  · cases ran
    exact ⟨⟨_, insertRan⟩, rfl⟩
  · cases ran

/-- A batch fills each table with the rows it holds for it. -/
theorem filled_of_insertBatch {α β κ : Type} {key : α → Option κ} {project : α → β}
    (table : IndexedTable cliArgs key project)
    (ran : Session.run (loop.insertBatch cliArgs input) db script = .done () final rest) :
    Filled project (table.pending loop.pendingRows) (table.joined final)
      (table.place.get db) (table.place.get final) := by
  obtain ⟨txInputs, total, inserts, left, resolved, same, executed⟩ := done_insertBatch ran
  have filled := (table.filled_of_executeAll executed).mono fun _ joined => joined.2
  refine table.filled_congr filled (Matches.trans ?_ (table.batch loop txInputs resolved))
  refine Matches.of_mem_iff fun row => ?_
  simp only [List.mem_flatMap, same]

/-- The block relations of a batch. -/
theorem filled_relations_of_insertBatch
    (ran : Session.run (loop.insertBatch cliArgs input) db script = .done () final rest) :
    Filled id (IndexedTable.rowsIf (!cliArgs.isDisabled .blocksTransactionsTable) loop.blockTx)
      (fun _ => False) db.blocksTransactions final.blocksTransactions := by
  obtain ⟨txInputs, total, inserts, left, resolved, same, executed⟩ := done_insertBatch ran
  have filled := (FilledTable.blocksTransactions.filled_of_executeAll executed).mono
    fun _ joined => joined.2
  refine FilledTable.blocksTransactions.filled_congr filled (Matches.of_mem_iff fun row => ?_)
  have listed := @mem_listed_blocksTransactions cliArgs loop txInputs row
  simp only [List.mem_flatMap] at listed ⊢
  simp only [same, listed, IndexedTable.mem_rowsIf, Bool.not_eq_true']

theorem grows_of_insertBatch
    (ran : Session.run (loop.insertBatch cliArgs input) db script = .done () final rest) :
    Grows db final := by
  obtain ⟨_, _, _, _, _, _, executed⟩ := done_insertBatch ran
  exact InsertStatement.grows_of_executeAll executed

theorem sameOthers_of_insertBatch
    (ran : Session.run (loop.insertBatch cliArgs input) db script = .done () final rest) :
    InsertStatement.SameOthers db final := by
  obtain ⟨_, _, _, _, _, _, executed⟩ := done_insertBatch ran
  exact InsertStatement.sameOthers_of_executeAll executed

/-! ## Taking a transaction into the batch -/

/-- The rows a transaction is mapped to with the keys of the map. -/
def rowsOf (cliArgs : CliArgs) (loop : TransactionLoop) (transaction : RpcTransaction) :
    Option TransactionRows := do
  let key ← loop.subnetworkMap.lookup transaction.subnetworkId
  mapRows cliArgs transaction key

/-- A transaction taken into the batch was mapped, or its id was in the cache. -/
theorem collect_cases {forgotten : Hash → Bool} {transaction : RpcTransaction} {key : Int}
    (collected : loop.collect cliArgs forgotten transaction key = some received) :
    ∃ transactionId relation, transaction.transactionId = some transactionId ∧
      VecnoDbMapper.mapBlockTransaction transaction = some relation ∧
      ((transactionId ∈ loop.txIdCache ∧ received = { loop with
          txIdCache := loop.txIdCache.filter fun id => !forgotten id
          blockTx := loop.blockTx ++ [relation] }) ∨
        ∃ rows, mapRows cliArgs transaction key = some rows ∧ received =
          { { loop with txIdCache := loop.txIdCache.filter fun id => !forgotten id }.add
              transactionId rows with
            blockTx := loop.blockTx ++ [relation] }) := by
  simp only [collect, Option.bind_eq_bind, Option.bind_eq_some_iff] at collected
  obtain ⟨transactionId, idEq, middle, middleEq, relation, relationEq, eq⟩ := collected
  refine ⟨transactionId, relation, idEq, relationEq, ?_⟩
  split_ifs at middleEq with known
  · cases middleEq
    cases eq
    exact Or.inl ⟨(List.mem_filter.mp known).1, rfl⟩
  · obtain ⟨rows, mapped, rfl⟩ := Option.map_eq_some_iff.mp middleEq
    cases eq
    exact Or.inr ⟨rows, mapped, rfl⟩

theorem done_receiveTransaction {forgotten : Hash → Bool} {transaction : RpcTransaction}
    (ran : Session.run (loop.receiveTransaction cliArgs forgotten transaction) db script =
      .done received final rest) :
    ∃ key numbering,
      Numbering.assign ⟨loop.subnetworkMap, db.subnetworks, db.subnetworksNextId⟩
        transaction.subnetworkId = some (key, numbering) ∧
      final = db.withNumbering numbering ∧
      collect cliArgs { loop with subnetworkMap := numbering.subnetworkMap } forgotten transaction
        key = some received := by
  obtain ⟨⟨key, subnetworkMap⟩, middle, left, keyRan, ran⟩ := Session.done_of_run_bind ran
  obtain ⟨numbering, assigned, rfl, rfl⟩ := assign_of_subnetworkKey keyRan
  refine ⟨key, numbering, assigned, ?_⟩
  simp only at ran
  cases collected : collect cliArgs { loop with subnetworkMap := numbering.subnetworkMap }
      forgotten transaction key with
  | none =>
      rw [collected] at ran
      cases ran
  | some next =>
      rw [collected] at ran
      cases ran
      exact ⟨rfl, rfl⟩

/-! ## Tracking -/

/-- The rows of the mapped transactions are in the batch or were given to the table. -/
structure TracksTable {α β κ : Type} {key : α → Option κ} {project : α → β} (start db : Db)
    (loop : TransactionLoop) (mapped : List RpcTransaction)
    (table : IndexedTable cliArgs key project) (given : List α) : Prop where
  filled : Filled project given (table.joined db) (table.place.get start) (table.place.get db)
  only : ∀ row ∈ given ++ table.pending loop.pendingRows,
    ∃ transaction ∈ mapped, ∃ rows, loop.rowsOf cliArgs transaction = some rows ∧
      row ∈ table.mapped rows
  taken : ∀ transaction ∈ mapped, ∀ rows, loop.rowsOf cliArgs transaction = some rows →
    ∀ row ∈ table.mapped rows, ∃ other ∈ given ++ table.pending loop.pendingRows,
      key other = key row

/-- The block relations of the popped transactions are in the batch or were given. -/
structure TracksRelations (cliArgs : CliArgs) (start db : Db) (loop : TransactionLoop)
    (popped : List RpcTransaction) (given : List BlockTransaction) : Prop where
  filled : Filled id given (fun _ => False) start.blocksTransactions db.blocksTransactions
  same : ∀ row, row ∈ given ++
      IndexedTable.rowsIf (!cliArgs.isDisabled .blocksTransactionsTable) loop.blockTx ↔
    cliArgs.isDisabled .blocksTransactionsTable = false ∧
      ∃ transaction ∈ popped, VecnoDbMapper.mapBlockTransaction transaction = some row

/-- What has become of the popped transactions, some of which were mapped. -/
structure Tracks (cliArgs : CliArgs) (start db : Db) (loop : TransactionLoop)
    (popped mapped : List RpcTransaction) : Prop where
  popped_of_mapped : ∀ transaction ∈ mapped, transaction ∈ popped
  rows_of_mapped : ∀ transaction ∈ mapped, ∃ rows, loop.rowsOf cliArgs transaction = some rows
  known : ∀ transaction ∈ popped, ∃ transactionId, transaction.transactionId = some transactionId ∧
    ∃ other ∈ mapped, other.transactionId = some transactionId
  cached : ∀ transactionId ∈ loop.txIdCache,
    ∃ transaction ∈ mapped, transaction.transactionId = some transactionId
  settled : loop.blockTx = [] → loop.pendingRows = .nothing
  relations : ∃ given, TracksRelations cliArgs start db loop popped given
  tables : ∀ {α β κ : Type} {key : α → Option κ} {project : α → β}
    (table : IndexedTable cliArgs key project),
    ∃ given, TracksTable start db loop mapped table given

variable {start : Db} {popped mapped : List RpcTransaction}

theorem tracks_loaded (now : ℕ) (results : List Subnetwork) (db : Db) :
    Tracks cliArgs db db (loaded now results) [] [] where
  popped_of_mapped _ isMapped := isMapped
  rows_of_mapped _ isMapped := absurd isMapped List.not_mem_nil
  known _ isPopped := absurd isPopped List.not_mem_nil
  cached _ isCached := absurd isCached List.not_mem_nil
  settled _ := rfl
  relations := by
    refine ⟨[], Filled.refl _, fun row => ?_⟩
    simp [loaded, IndexedTable.rowsIf_nil]
  tables table := by
    have nothing : table.pending (loaded now results).pendingRows = [] := table.pending_nothing
    refine ⟨[], Filled.refl _, fun row held => ?_, fun _ isMapped => ?_⟩
    · rw [nothing] at held
      exact absurd held List.not_mem_nil
    · exact absurd isMapped List.not_mem_nil

theorem TracksTable.of_filled {α β κ : Type} {key : α → Option κ} {project : α → β}
    {table : IndexedTable cliArgs key project} {given more : List α}
    (tracks : TracksTable start db loop mapped table given)
    (filled : Filled project more (table.joined final) (table.place.get db)
      (table.place.get final)) (grows : Grows db final)
    (moved : ∀ row, row ∈ more ++ table.pending after.pendingRows ↔
      row ∈ table.pending loop.pendingRows)
    (sameMap : after.subnetworkMap = loop.subnetworkMap) :
    TracksTable start final after mapped table (given ++ more) := by
  have sameRows : ∀ transaction,
      after.rowsOf cliArgs transaction = loop.rowsOf cliArgs transaction :=
    fun transaction => by rw [rowsOf, sameMap, rowsOf]
  have held : ∀ row, row ∈ (given ++ more) ++ table.pending after.pendingRows ↔
      row ∈ given ++ table.pending loop.pendingRows := by
    intro row
    rw [List.append_assoc, List.mem_append, moved, List.mem_append]
  refine ⟨(tracks.filled.mono (table.joined_mono grows)).trans filled, fun row isHeld => ?_,
    fun transaction isMapped rows rowsEq row rowMem => ?_⟩
  · obtain ⟨transaction, isMapped, rows, rowsEq, rowMem⟩ := tracks.only row ((held row).mp isHeld)
    exact ⟨transaction, isMapped, rows, (sameRows transaction).trans rowsEq, rowMem⟩
  · rw [sameRows] at rowsEq
    obtain ⟨other, otherMem, sameKey⟩ := tracks.taken transaction isMapped rows rowsEq row rowMem
    exact ⟨other, (held other).mpr otherMem, sameKey⟩

/-- Other components leave the tables alone. -/
theorem Tracks.of_same (tracks : Tracks cliArgs start db loop popped mapped)
    (same : SameTransactions db final) : Tracks cliArgs start final loop popped mapped where
  popped_of_mapped := tracks.popped_of_mapped
  rows_of_mapped := tracks.rows_of_mapped
  known := tracks.known
  cached := tracks.cached
  settled := tracks.settled
  relations := by
    obtain ⟨given, tracked⟩ := tracks.relations
    refine ⟨given, ?_, tracked.same⟩
    rw [same.blocksTransactions]
    exact tracked.filled
  tables table := by
    obtain ⟨given, tracked⟩ := tracks.tables table
    refine ⟨given, ?_, tracked.only, tracked.taken⟩
    rw [table.frame same]
    exact tracked.filled.mono (table.joined_mono same.grows)

/-- A batch gives the tables what it holds. -/
theorem Tracks.insertBatch (tracks : Tracks cliArgs start db loop popped mapped)
    (ran : Session.run (loop.insertBatch cliArgs input) db script = .done () final rest)
    (now : ℕ) : Tracks cliArgs start final (loop.cleared now) popped mapped := by
  constructor
  · exact tracks.popped_of_mapped
  · exact tracks.rows_of_mapped
  · exact tracks.known
  · exact tracks.cached
  · exact fun _ => rfl
  · obtain ⟨given, tracked⟩ := tracks.relations
    refine ⟨_, tracked.filled.trans (filled_relations_of_insertBatch ran), fun row => ?_⟩
    rw [← tracked.same row]
    simp [cleared, IndexedTable.rowsIf_nil]
  · intro α β κ key project table
    obtain ⟨given, tracked⟩ := tracks.tables table
    refine ⟨_, tracked.of_filled (filled_of_insertBatch table ran) (grows_of_insertBatch ran)
      (fun row => ?_) rfl⟩
    have nothing : table.pending (loop.cleared now).pendingRows = [] := table.pending_nothing
    rw [nothing, List.append_nil]

theorem Tracks.commit (tracks : Tracks cliArgs start db loop popped mapped)
    (ran : Session.run (loop.commit cliArgs input) db script = .done after final rest) :
    Tracks cliArgs start final after popped mapped := by
  obtain ⟨⟨left, insertRan⟩, rfl⟩ := done_commit ran
  exact tracks.insertBatch insertRan input.commitNow

/-- A larger map does not change the rows of a mapped transaction. -/
theorem rowsOf_of_lookup {transaction : RpcTransaction} {rows : TransactionRows}
    (keeps : ∀ other key, loop.subnetworkMap.lookup other = some key →
      after.subnetworkMap.lookup other = some key)
    (rowsEq : loop.rowsOf cliArgs transaction = some rows) :
    after.rowsOf cliArgs transaction = some rows := by
  simp only [rowsOf, Option.bind_eq_bind, Option.bind_eq_some_iff] at rowsEq ⊢
  obtain ⟨key, keyEq, mappedEq⟩ := rowsEq
  exact ⟨key, keeps _ key keyEq, mappedEq⟩

/-- New subnetworks do not matter to what is tracked. -/
theorem Tracks.of_numbering (tracks : Tracks cliArgs start db loop popped mapped)
    {subnetworkMap : SubnetworkMap}
    (keeps : ∀ other key, loop.subnetworkMap.lookup other = some key →
      subnetworkMap.lookup other = some key) (numbering : Numbering) :
    Tracks cliArgs start (db.withNumbering numbering) { loop with subnetworkMap } popped
      mapped := by
  have stillRows : ∀ transaction ∈ mapped, ∀ rows,
      rowsOf cliArgs { loop with subnetworkMap } transaction = some rows →
        loop.rowsOf cliArgs transaction = some rows := by
    intro transaction isMapped rows rowsEq
    obtain ⟨old, oldEq⟩ := tracks.rows_of_mapped transaction isMapped
    have kept := @rowsOf_of_lookup _ _ { loop with subnetworkMap } _ _ keeps oldEq
    rw [oldEq, ← kept, rowsEq]
  have sameDb : SameTransactions db (db.withNumbering numbering) := ⟨rfl, rfl, rfl, rfl, rfl, rfl⟩
  constructor
  · exact tracks.popped_of_mapped
  · intro transaction isMapped
    obtain ⟨rows, rowsEq⟩ := tracks.rows_of_mapped transaction isMapped
    exact ⟨rows, rowsOf_of_lookup keeps rowsEq⟩
  · exact tracks.known
  · exact tracks.cached
  · exact tracks.settled
  · obtain ⟨given, tracked⟩ := (tracks.of_same sameDb).relations
    exact ⟨given, tracked.filled, tracked.same⟩
  · intro α β κ key project table
    obtain ⟨given, tracked⟩ := (tracks.of_same sameDb).tables table
    refine ⟨given, tracked.filled, fun row held => ?_, fun transaction isMapped rows rowsEq => ?_⟩
    · obtain ⟨transaction, isMapped, rows, rowsEq, rowMem⟩ := tracked.only row held
      exact ⟨transaction, isMapped, rows, rowsOf_of_lookup keeps rowsEq, rowMem⟩
    · exact tracked.taken transaction isMapped rows (stillRows transaction isMapped rows rowsEq)

theorem TracksRelations.concat {given : List BlockTransaction} {transaction : RpcTransaction}
    {relation : BlockTransaction}
    (tracked : TracksRelations cliArgs start db loop popped given)
    (mapped : VecnoDbMapper.mapBlockTransaction transaction = some relation)
    (held : after.blockTx = loop.blockTx ++ [relation]) :
    TracksRelations cliArgs start db after (popped ++ [transaction]) given where
  filled := tracked.filled
  same row := by
    have before := tracked.same row
    rw [List.mem_append, IndexedTable.mem_rowsIf, Bool.not_eq_true'] at before
    rw [List.mem_append, IndexedTable.mem_rowsIf, Bool.not_eq_true', held, List.mem_append,
      List.mem_singleton]
    constructor
    · rintro (isGiven | ⟨enabled, isHeld | rfl⟩)
      · obtain ⟨enabled, other, isPopped, otherEq⟩ := before.mp (Or.inl isGiven)
        exact ⟨enabled, other, List.mem_append_left _ isPopped, otherEq⟩
      · obtain ⟨_, other, isPopped, otherEq⟩ := before.mp (Or.inr ⟨enabled, isHeld⟩)
        exact ⟨enabled, other, List.mem_append_left _ isPopped, otherEq⟩
      · exact ⟨enabled, transaction, List.mem_append_right _ List.mem_cons_self, mapped⟩
    · rintro ⟨enabled, other, isPopped, otherEq⟩
      rcases List.mem_append.mp isPopped with earlier | isLast
      · rcases before.mpr ⟨enabled, other, earlier, otherEq⟩ with isGiven | ⟨_, isHeld⟩
        · exact Or.inl isGiven
        · exact Or.inr ⟨enabled, Or.inl isHeld⟩
      · rw [List.mem_singleton.mp isLast, mapped] at otherEq
        exact Or.inr ⟨enabled, Or.inr (Option.some.inj otherEq).symm⟩

/-- The rows of a transaction that is mapped are collected. -/
theorem TracksTable.concat {α β κ : Type} {key : α → Option κ} {project : α → β}
    {table : IndexedTable cliArgs key project} {given : List α} {transaction : RpcTransaction}
    {rows : TransactionRows} (tracked : TracksTable start db loop mapped table given)
    (rowsEq : loop.rowsOf cliArgs transaction = some rows)
    (sameMap : after.subnetworkMap = loop.subnetworkMap)
    (held : after.pendingRows = loop.pendingRows.add rows) :
    TracksTable start db after (mapped ++ [transaction]) table given := by
  have sameRows : ∀ other, after.rowsOf cliArgs other = loop.rowsOf cliArgs other :=
    fun other => by rw [rowsOf, sameMap, rowsOf]
  have collected := table.collected loop.pendingRows rows
  rw [← held] at collected
  refine ⟨tracked.filled, fun row isHeld => ?_,
    fun other isMapped otherRows otherEq row rowMem => ?_⟩
  · have before : row ∈ given ++ table.pending loop.pendingRows ∨ row ∈ table.mapped rows := by
      rcases List.mem_append.mp isHeld with isGiven | isPending
      · exact Or.inl (List.mem_append_left _ isGiven)
      · exact (collected.only row isPending).imp_left (List.mem_append_right given)
    rcases before with isHeld | isNew
    · obtain ⟨other, isMapped, otherRows, otherEq, rowMem⟩ := tracked.only row isHeld
      exact ⟨other, List.mem_append_left _ isMapped, otherRows, (sameRows other).trans otherEq,
        rowMem⟩
    · exact ⟨transaction, List.mem_append_right _ List.mem_cons_self, rows,
        (sameRows transaction).trans rowsEq, isNew⟩
  · rw [sameRows] at otherEq
    rcases List.mem_append.mp isMapped with earlier | isLast
    · obtain ⟨found, foundMem, sameKey⟩ := tracked.taken other earlier otherRows otherEq row rowMem
      refine ⟨found, ?_, sameKey⟩
      rcases List.mem_append.mp foundMem with isGiven | isPending
      · exact List.mem_append_left _ isGiven
      · exact List.mem_append_right given (collected.kept found isPending)
    · rw [List.mem_singleton.mp isLast, rowsEq] at otherEq
      cases otherEq
      obtain ⟨found, foundMem, sameKey⟩ := collected.taken row rowMem
      exact ⟨found, List.mem_append_right given foundMem, sameKey⟩

/-- A transaction whose id is in the cache only adds its relation. -/
theorem Tracks.remember (tracks : Tracks cliArgs start db loop popped mapped)
    {transaction : RpcTransaction} {transactionId : Hash} {relation : BlockTransaction}
    (idEq : transaction.transactionId = some transactionId)
    (relationEq : VecnoDbMapper.mapBlockTransaction transaction = some relation)
    (isCached : transactionId ∈ loop.txIdCache) (forgotten : Hash → Bool) :
    Tracks cliArgs start db { loop with
      txIdCache := loop.txIdCache.filter fun id => !forgotten id
      blockTx := loop.blockTx ++ [relation] } (popped ++ [transaction]) mapped where
  popped_of_mapped other isMapped := List.mem_append_left _ (tracks.popped_of_mapped other isMapped)
  rows_of_mapped := tracks.rows_of_mapped
  known other isPopped := by
    rcases List.mem_append.mp isPopped with earlier | isLast
    · exact tracks.known other earlier
    · rw [List.mem_singleton.mp isLast]
      exact ⟨transactionId, idEq, tracks.cached transactionId isCached⟩
  cached id inCache := tracks.cached id (List.mem_filter.mp inCache).1
  settled nothing := absurd nothing (List.append_ne_nil_of_right_ne_nil _ (List.cons_ne_nil _ _))
  relations := by
    obtain ⟨given, tracked⟩ := tracks.relations
    exact ⟨given, tracked.concat relationEq rfl⟩
  tables table := by
    obtain ⟨given, tracked⟩ := tracks.tables table
    exact ⟨given, tracked.filled, tracked.only, tracked.taken⟩

theorem Tracks.map (tracks : Tracks cliArgs start db loop popped mapped)
    {transaction : RpcTransaction} {transactionId : Hash} {relation : BlockTransaction}
    {rows : TransactionRows} (idEq : transaction.transactionId = some transactionId)
    (relationEq : VecnoDbMapper.mapBlockTransaction transaction = some relation)
    (rowsEq : loop.rowsOf cliArgs transaction = some rows) (forgotten : Hash → Bool) :
    Tracks cliArgs start db
      { { loop with txIdCache := loop.txIdCache.filter fun id => !forgotten id }.add
          transactionId rows with
        blockTx := loop.blockTx ++ [relation] }
      (popped ++ [transaction]) (mapped ++ [transaction]) where
  popped_of_mapped other isMapped := by
    rcases List.mem_append.mp isMapped with earlier | isLast
    · exact List.mem_append_left _ (tracks.popped_of_mapped other earlier)
    · exact List.mem_append_right _ isLast
  rows_of_mapped other isMapped := by
    rcases List.mem_append.mp isMapped with earlier | isLast
    · exact tracks.rows_of_mapped other earlier
    · rw [List.mem_singleton.mp isLast]
      exact ⟨rows, rowsEq⟩
  known other isPopped := by
    rcases List.mem_append.mp isPopped with earlier | isLast
    · obtain ⟨id, idOf, found, foundMem, foundId⟩ := tracks.known other earlier
      exact ⟨id, idOf, found, List.mem_append_left _ foundMem, foundId⟩
    · rw [List.mem_singleton.mp isLast]
      exact ⟨transactionId, idEq, transaction, List.mem_append_right _ List.mem_cons_self, idEq⟩
  cached id inCache := by
    rcases List.mem_cons.mp inCache with rfl | earlier
    · exact ⟨transaction, List.mem_append_right _ List.mem_cons_self, idEq⟩
    · obtain ⟨found, foundMem, foundId⟩ := tracks.cached id (List.mem_filter.mp earlier).1
      exact ⟨found, List.mem_append_left _ foundMem, foundId⟩
  settled nothing := absurd nothing (List.append_ne_nil_of_right_ne_nil _ (List.cons_ne_nil _ _))
  relations := by
    obtain ⟨given, tracked⟩ := tracks.relations
    exact ⟨given, tracked.concat relationEq rfl⟩
  tables table := by
    obtain ⟨given, tracked⟩ := tracks.tables table
    exact ⟨given, tracked.concat rowsEq rfl rfl⟩

theorem Tracks.receiveTransaction (tracks : Tracks cliArgs start db loop popped mapped)
    {forgotten : Hash → Bool} {transaction : RpcTransaction}
    (ran : Session.run (loop.receiveTransaction cliArgs forgotten transaction) db script =
      .done received final rest) :
    ∃ mapped, Tracks cliArgs start final received (popped ++ [transaction]) mapped := by
  obtain ⟨key, numbering, assigned, rfl, collected⟩ := done_receiveTransaction ran
  have numbered := tracks.of_numbering
    (fun _ _ => Numbering.lookup_of_assign assigned) numbering
  obtain ⟨transactionId, relation, idEq, relationEq, ⟨isCached, rfl⟩ | ⟨rows, mappedEq, rfl⟩⟩ :=
    collect_cases collected
  · exact ⟨mapped, numbered.remember idEq relationEq isCached forgotten⟩
  · refine ⟨mapped ++ [transaction], numbered.map idEq relationEq ?_ forgotten⟩
    simp only [rowsOf, Numbering.lookup_assign assigned]
    exact mappedEq

theorem Tracks.receiveAll (tracks : Tracks cliArgs start db loop popped mapped)
    {forgotten : ℕ → Hash → Bool} {transactions : List RpcTransaction}
    (ran : Session.run (loop.receiveAll cliArgs forgotten transactions) db script =
      .done received final rest) :
    ∃ mapped, Tracks cliArgs start final received (popped ++ transactions) mapped := by
  induction transactions generalizing loop popped mapped forgotten db script with
  | nil =>
      cases ran
      rw [List.append_nil]
      exact ⟨mapped, tracks⟩
  | cons transaction later ih =>
      obtain ⟨next, middle, left, firstRan, ran⟩ := Session.done_of_run_bind ran
      obtain ⟨firstMapped, firstTracks⟩ := tracks.receiveTransaction firstRan
      obtain ⟨allMapped, allTracks⟩ := ih firstTracks ran
      rw [List.append_assoc] at allTracks
      exact ⟨allMapped, allTracks⟩

end TransactionLoop

end VecnoIndexer
