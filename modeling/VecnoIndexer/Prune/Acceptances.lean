import VecnoIndexer.Prune.Chunking
import VecnoIndexer.Prune.Orphans

/-!
# Acceptances of pruned blocks

Without transaction acceptance the acceptances of chain blocks are pruned through a
join with `blocks`.  Their step follows the blocks step and has its cutoff, so the
blocks it looks for are gone and the join is empty.  What is left of the acceptances
is up to the transactions step.
-/

namespace VecnoIndexer

open VecnoIndexer.Sql

/-- No acceptance of a block that was expired at the start is left. -/
def AcceptancesPruned (cutoff : Int) (start final : Db) : Prop :=
  ∀ row ∈ final.transactionsAcceptances, ∀ hash, row.blockHash = some hash →
    ¬ start.blockExpired cutoff hash = true

/-- The transactions that the transactions step of a run takes, chunk by chunk. -/
def takenTransactions (earliest : Int) (config : PruningConfig) (input : PruneInput)
    (transactions : Table Transaction.primaryKey) : List (List Hash) :=
  match config.retentionTransactions.bind (stepPruningPoint earliest input.start) with
  | some cutoff =>
      if pruningPointIsPassed input cutoff then
        expiredChunks cutoff config.pruneBatchSize.toNat (transactions.rows.length + 1)
          input.transactions transactions
      else []
  | none => []

/-- Every acceptance of an expired block is of a transaction that the transactions
step finds fully spent. -/
def ExpiredAcceptancesSpent (earliest : Int) (config : PruningConfig) (input : PruneInput)
    (cutoff : Int) (db : Db) : Prop :=
  ∀ row ∈ db.transactionsAcceptances, ∀ hash, row.blockHash = some hash →
    db.blockExpired cutoff hash = true →
    ∃ transactionId, row.transactionId = some transactionId ∧
      db.FullySpent (db.spendersAfter [] (takenTransactions earliest config input db.transactions))
        transactionId

/-- Only the relations have changed. -/
def OnlyRelations (start after : Db) : Prop :=
  ∃ parents relations,
    after = { start with blockParent := parents, blocksTransactions := relations }

section Steps

variable {earliest : Int} {cliArgs : CliArgs} {config : PruningConfig} {input : PruneInput}

theorem keeps_relationTasksOnly {start : Db} :
    ∀ task ∈ blockParentTasks earliest config input ++
        blocksTransactionsTasks earliest cliArgs config input,
      ∀ cutoff, (task.call cutoff).Keeps (OnlyRelations start) := by
  intro task taskMem
  rcases List.mem_append.mp taskMem with ofParents | ofTransactions
  · refine keeps_blockParentTasks ?_ task ofParents
    rintro _ _ _ ⟨_, relations, rfl⟩ ⟨table, rfl, _⟩
    exact ⟨table, relations, rfl⟩
  · refine keeps_blocksTransactionsTasks ?_ ?_ task ofTransactions
    all_goals
      rintro _ _ _ ⟨parents, _, rfl⟩ ⟨table, rfl, _⟩
      exact ⟨parents, table, rfl⟩

/-- The address steps leave the acceptances alone. -/
theorem keeps_addressesTasks {table : Table TransactionAcceptance.uniqueKey} :
    ∀ task ∈ addressesTransactionsTasks earliest cliArgs config input,
      ∀ cutoff, (task.call cutoff).Keeps fun db => db.transactionsAcceptances = table := by
  apply keeps_addressesTransactionsTasks
  all_goals
    rintro _ _ _ same ⟨table, rfl, _⟩
    exact same

/-- After the blocks step the join finds nothing. -/
theorem all_expiredAcceptances {cutoff : Int} {db : Db} :
    (expiredAcceptances cutoff).all ((expiredBlocks cutoff).all db) =
      (expiredBlocks cutoff).all db := by
  apply Deletion.all_eq_self
  intro row _ matched
  change row.blockHash.any (((expiredBlocks cutoff).all db).blockExpired cutoff) = true at matched
  rw [Option.any_eq_true] at matched
  obtain ⟨hash, _, expired⟩ := matched
  rw [Db.blockExpired, Option.any_eq_true] at expired
  obtain ⟨block, found, old⟩ := expired
  have left := (Table.lookup_eq_some_iff.mp found).1
  exact (Table.mem_deleteWhere.mp left).2 old

/-- The steps up to that of the acceptances leave the acceptances alone, if none fails. -/
theorem exists_of_blocksTasks {cutoff : Int} (batchSize : Int)
    {blocks : ℕ → LimitChoice (Block × ℕ)}
    {acceptances : ℕ → LimitChoice (TransactionAcceptance × ℕ)}
    {db middle after : Db} {blocksScript blocksRest script rest : Script} {total count : ℕ}
    (blocksRan : Session.run (pruneBlocks cutoff batchSize blocks) db blocksScript =
      .done total middle blocksRest)
    (acceptancesRan : Session.run
      (pruneTransactionsAcceptancesUsingBlocks cutoff batchSize acceptances) middle script =
        .done count after rest) :
    ∃ table, after = { db with blocks := table } := by
  rcases Deletion.eq_of_done_deleteLoop blocksRan with ⟨positive, rfl⟩ | ⟨zero, rfl⟩
  · obtain ⟨_, rfl⟩ := (Deletion.eq_of_done_deleteLoop acceptancesRan).resolve_right
      fun none => by omega
    rw [all_expiredAcceptances]
    exact ⟨_, rfl⟩
  · obtain ⟨_, rfl⟩ := (Deletion.eq_of_done_deleteLoop acceptancesRan).resolve_left
      fun some => by omega
    exact ⟨_, rfl⟩

/-- The acceptances left by the transactions step. -/
theorem mem_acceptances_of_transactionsTasks {start db after : Db} (same : Pruned start [] [] db)
    (ran : runTasks 0 (transactionsTasks earliest config input) db = (some 0, after))
    (row : TransactionAcceptance) :
    row ∈ after.transactionsAcceptances ↔
      row ∈ start.transactionsAcceptances ∧
        ∀ transactionId, row.transactionId = some transactionId →
          ¬ start.FullySpent (start.spendersAfter []
            (takenTransactions earliest config input db.transactions)) transactionId := by
  unfold takenTransactions
  unfold transactionsTasks at ran
  cases retained : config.retentionTransactions with
  | none =>
      rw [retained] at ran
      cases ran
      exact same.mem_acceptances row
  | some retention =>
      rw [retained] at ran
      obtain ⟨cutoff, total, middle, left, cutoffEq, stepRan, restRan⟩ := done_of_runTasks ran
      cases restRan
      change stepPruningPoint earliest input.start retention = some cutoff at cutoffEq
      change Session.run (pruneTransactionsStep config input cutoff) db _ = _ at stepRan
      unfold pruneTransactionsStep at stepRan
      simp only [Option.bind_some, cutoffEq]
      by_cases passed : pruningPointIsPassed input cutoff = true
      · simp only [passed, if_true] at stepRan ⊢
        by_cases negative : config.pruneBatchSize < 0
        · rw [if_pos negative] at stepRan
          cases Session.executed_of_run_statement stepRan
        · rw [if_neg negative] at stepRan
          exact (same.of_done_chunks stepRan).mem_acceptances row
      · simp only [passed, Bool.false_eq_true, if_false] at stepRan ⊢
        cases stepRan
        exact same.mem_acceptances row

/-- The acceptances left by a run without errors. -/
theorem mem_acceptances_of_succeeds {cutoff : Int} {db : Db} {retention : Duration}
    (disabled : cliArgs.isDisabled .transactionAcceptance = true)
    (enabled : cliArgs.isDisabled .blocksTable = false)
    (included : cliArgs.isExcluded .blockTimestamp = false)
    (retained : config.retentionBlocks = some retention)
    (cutoffEq : stepPruningPoint earliest input.start retention = some cutoff)
    (succeeds : (prune earliest cliArgs config input db).1 = some 0)
    (row : TransactionAcceptance) :
    row ∈ (prune earliest cliArgs config input db).2.transactionsAcceptances ↔
      row ∈ db.transactionsAcceptances ∧ ∀ transactionId, row.transactionId = some transactionId →
        ¬ db.FullySpent (db.spendersAfter []
          (takenTransactions earliest config input db.transactions)) transactionId := by
  obtain ⟨errors, final, ran⟩ : ∃ errors final,
      prune earliest cliArgs config input db = (errors, final) := ⟨_, _, rfl⟩
  rw [ran] at succeeds ⊢
  cases succeeds
  obtain ⟨fourth, ran, addressesRan⟩ := split_of_runTasks ran
  obtain ⟨third, ran, transactionsRan⟩ := split_of_runTasks ran
  obtain ⟨first, relationsRan, ran⟩ := split_of_runTasks ran
  obtain ⟨parents, transactions, rfl⟩ : OnlyRelations db first :=
    property_of_runTasks relationsRan keeps_relationTasksOnly ⟨_, _, rfl⟩
  have blocksEq : blocksTasks earliest cliArgs config input =
      [input.task earliest .blocks retention fun cutoff =>
        pruneBlocks cutoff config.pruneBatchSize input.blocks,
      input.task earliest .transactionsAcceptances retention fun cutoff =>
        pruneTransactionsAcceptancesUsingBlocks cutoff config.pruneBatchSize
          input.acceptances] := by
    simp [blocksTasks, acceptancesTasks, retained, disabled, enabled, included]
  rw [blocksEq] at ran
  obtain ⟨used, _, middle, _, usedEq, blocksRan, ran⟩ := done_of_runTasks ran
  obtain ⟨again, _, second, _, againEq, acceptancesRan, ran⟩ := done_of_runTasks ran
  cases ran
  cases usedEq.symm.trans cutoffEq
  cases againEq.symm.trans cutoffEq
  obtain ⟨blocks, rfl⟩ := exists_of_blocksTasks config.pruneBatchSize blocksRan acceptancesRan
  rw [property_of_runTasks addressesRan keeps_addressesTasks rfl]
  have same : Pruned db [] [] { db with
      blocks := blocks, blockParent := parents, blocksTransactions := transactions } :=
    ⟨(pruned_nil db).mem_transactions, (pruned_nil db).mem_inputs, (pruned_nil db).mem_outputs,
      (pruned_nil db).mem_acceptances⟩
  exact mem_acceptances_of_transactionsTasks same transactionsRan row

/-- A run without errors leaves no acceptance of a block that was expired at its start,
exactly if its transactions step finds the transactions of them all fully spent. -/
theorem acceptancesPruned_iff_of_succeeds {cutoff : Int} {db : Db} {retention : Duration}
    (disabled : cliArgs.isDisabled .transactionAcceptance = true)
    (enabled : cliArgs.isDisabled .blocksTable = false)
    (included : cliArgs.isExcluded .blockTimestamp = false)
    (retained : config.retentionBlocks = some retention)
    (cutoffEq : stepPruningPoint earliest input.start retention = some cutoff)
    (succeeds : (prune earliest cliArgs config input db).1 = some 0) :
    AcceptancesPruned cutoff db (prune earliest cliArgs config input db).2 ↔
      ExpiredAcceptancesSpent earliest config input cutoff db := by
  have left := mem_acceptances_of_succeeds disabled enabled included retained cutoffEq succeeds
  constructor
  · intro pruned row stored hash rowHash expired
    by_contra unspent
    apply pruned row ((left row).mpr ⟨stored, ?_⟩) hash rowHash expired
    exact fun transactionId rowId spent => unspent ⟨transactionId, rowId, spent⟩
  · intro spent row rowMem hash rowHash expired
    obtain ⟨stored, unspent⟩ := (left row).mp rowMem
    obtain ⟨transactionId, rowId, fullySpent⟩ := spent row stored hash rowHash expired
    exact unspent transactionId rowId fullySpent

end Steps

/-! ## Acceptances are only deleted -/

/-- A run of the pruner adds no acceptance. -/
theorem acceptances_subset_of_prune {earliest : Int} {cliArgs : CliArgs} {config : PruningConfig}
    {input : PruneInput} (start : Db) :
    ∀ row ∈ (prune earliest cliArgs config input start).2.transactionsAcceptances,
      row ∈ start.transactionsAcceptances := by
  refine @property_of_runTasks (fun after => ∀ row ∈ after.transactionsAcceptances,
    row ∈ start.transactionsAcceptances) _ 0 start _ _ rfl ?_ fun row stored => stored
  intro task taskMem
  simp only [pruneTasks, List.mem_append] at taskMem
  rcases taskMem with
    (((ofParents | ofBlocksTransactions) | ofBlocks) | ofTransactions) | ofAddresses
  · refine keeps_blockParentTasks ?_ task ofParents
    rintro _ _ _ subset ⟨table, rfl, _⟩
    exact subset
  · refine keeps_blocksTransactionsTasks ?_ ?_ task ofBlocksTransactions
    all_goals
      rintro _ _ _ subset ⟨table, rfl, _⟩
      exact subset
  · refine keeps_blocksTasks ?_ ?_ task ofBlocks
    · rintro _ _ _ subset ⟨table, rfl, _⟩
      exact subset
    · rintro _ _ _ subset ⟨table, rfl, thinned⟩
      exact fun row stored => subset row (thinned.sublist.subset stored)
  · refine keeps_transactionsTasks ?_ task ofTransactions
    intro _ _ _ _ _ _ subset pruned row stored
    exact subset row (((pruneChunk_effect pruned).1.mem_acceptances row).mp stored).1
  · refine keeps_addressesTransactionsTasks ?_ ?_ task ofAddresses
    all_goals
      rintro _ _ _ subset ⟨table, rfl, _⟩
      exact subset

/-! ## The acceptance of a chain block -/

def withoutAcceptance : CliArgs :=
  { CliArgs.standard with disable := some [.transactionAcceptance] }

/-- An old chain block and its acceptance, which names no transaction. -/
def oldChainBlockDb : Db :=
  { Db.empty with
    blocks := Table.empty.insertAll [{ scoredBlock 2 0 with timestamp := some 1000 }]
    transactionsAcceptances := Table.empty.insertAll [⟨none, some 2⟩] }

/-- The run prunes the block, and leaves the acceptance. -/
theorem oldChainBlock_acceptance_left :
    (prune (-8000000000000000000000) withoutAcceptance weekConfig (pruneAt 610000 allSucceed)
      oldChainBlockDb).1 = some 0 ∧
    ¬ AcceptancesPruned 5200000 oldChainBlockDb
      (prune (-8000000000000000000000) withoutAcceptance weekConfig (pruneAt 610000 allSucceed)
        oldChainBlockDb).2 := by
  constructor
  · decide +kernel
  · intro pruned
    exact pruned ⟨none, some 2⟩ (by decide +kernel) 2 rfl (by decide +kernel)

/-- Transaction 5 was accepted by the old block, and 6, as old, has spent its output. -/
def spentAcceptanceDb : Db :=
  { oldChainBlockDb with
    transactions := Table.empty.insertAll
      [⟨5, none, none, none, none, some 1000⟩, ⟨6, none, none, none, none, some 1000⟩]
    transactionsAcceptances := Table.empty.insertAll [⟨some 5, some 2⟩, ⟨some 6, some 3⟩]
    transactionsInputs := Table.empty.insertAll
      [⟨6, 0, some 5, some 0, none, none, some 1000, none, none⟩]
    transactionsOutputs := Table.empty.insertAll [⟨5, 0, some 7, none, none, some 1000⟩] }

/-- A run after the checkpoint has passed the transactions. -/
def pruneSpent : PruneInput :=
  { pruneAt 610000 allSucceed with checkpointTimestamp := some 6000000 }

theorem spentAcceptance_pruned :
    AcceptancesPruned 5200000 spentAcceptanceDb
      (prune (-8000000000000000000000) withoutAcceptance weekConfig pruneSpent
        spentAcceptanceDb).2 := by
  apply (acceptancesPruned_iff_of_succeeds (by decide) (by decide) (by decide) rfl
    (by decide +kernel) (by decide +kernel)).mpr
  have taken : takenTransactions (-8000000000000000000000) weekConfig pruneSpent
      spentAcceptanceDb.transactions = [[5, 6]] := by
    decide +kernel
  have spenders : spentAcceptanceDb.spendersAfter [] [[5, 6]] = [5, 6] := by decide +kernel
  have spent : spentAcceptanceDb.FullySpent [5, 6] 5 := by decide +kernel
  have onlyFive : ∀ row ∈ spentAcceptanceDb.transactionsAcceptances.rows,
      row.blockHash.any (spentAcceptanceDb.blockExpired 5200000) = true →
      row.transactionId = some 5 := by
    decide +kernel
  intro row stored hash rowHash expired
  rw [taken, spenders]
  have matched : row.blockHash.any (spentAcceptanceDb.blockExpired 5200000) = true :=
    (Option.any_eq_true _ _).mpr ⟨hash, rowHash, expired⟩
  exact ⟨5, onlyFive row stored matched, spent⟩

end VecnoIndexer
