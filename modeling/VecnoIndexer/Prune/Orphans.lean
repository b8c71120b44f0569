import VecnoIndexer.Prune.Run
import VecnoIndexer.Transition.Run

/-!
# Relation rows of pruned blocks

The rows of `block_parent` and `blocks_transactions` are pruned through a join with
`blocks`, before the blocks themselves.  When a relation step fails the blocks step
runs all the same, and what it deletes leaves relation rows that no later run can
find.  So it is where a statement of a relation step fails, with rows of expired blocks
left, that the blocks step must not start.
-/

namespace VecnoIndexer

open VecnoIndexer.Sql
open VecnoIndexer.Transition

/-- No relation row refers to a block that was there at the start and is gone. -/
def NoOrphans (start final : Db) : Prop :=
  ∀ block ∈ start.blocks, block ∉ final.blocks →
    (∀ row ∈ final.blockParent, row.blockHash ≠ block.hash) ∧
      ∀ row ∈ final.blocksTransactions, row.blockHash ≠ block.hash

/-- Nothing is added, and a relation row whose block is not stored stays. -/
structure PrunesRelations (before after : Db) : Prop where
  blocks : ∀ row ∈ after.blocks, row ∈ before.blocks
  parents : ∀ row ∈ after.blockParent, row ∈ before.blockParent
  transactions : ∀ row ∈ after.blocksTransactions, row ∈ before.blocksTransactions
  parents_kept : ∀ row ∈ before.blockParent, before.blocks.lookup row.blockHash = none →
    row ∈ after.blockParent
  transactions_kept : ∀ row ∈ before.blocksTransactions,
    before.blocks.lookup row.blockHash = none → row ∈ after.blocksTransactions

theorem prunesRelations_refl (db : Db) : PrunesRelations db db :=
  ⟨fun _ stored => stored, fun _ stored => stored, fun _ stored => stored,
    fun _ stored _ => stored, fun _ stored _ => stored⟩

section Blocks

variable {start middle final : Db} {cutoff : Int}

theorem lookup_eq_none_of_subset (subset : ∀ row ∈ final.blocks, row ∈ start.blocks) {hash : Hash}
    (absent : start.blocks.lookup hash = none) : final.blocks.lookup hash = none := by
  rw [Table.lookup_eq_none_iff] at absent ⊢
  rintro ⟨row, stored, rowKey⟩
  exact absent ⟨row, subset row stored, rowKey⟩

theorem not_blockExpired {hash : Hash} (absent : start.blocks.lookup hash = none) :
    ¬ start.blockExpired cutoff hash = true := by
  simp [Db.blockExpired, absent]

theorem blockExpired_iff {block : Block} (stored : block ∈ start.blocks) :
    start.blockExpired cutoff block.hash = true ↔ expiredAt cutoff block.timestamp = true := by
  have found : start.blocks.lookup block.hash = some block :=
    Table.lookup_eq_some_iff.mpr ⟨stored, rfl⟩
  rw [Db.blockExpired, found, Option.any_some]

theorem expiredAt_mono {earlier later : Int} (ordered : earlier ≤ later) {time : Option Int}
    (expired : expiredAt earlier time = true) : expiredAt later time = true := by
  simp only [expiredAt, Option.any_eq_true, decide_eq_true_eq] at expired ⊢
  obtain ⟨value, isTime, below⟩ := expired
  exact ⟨value, isTime, by omega⟩

/-- A block deleted since the start has left no other under its hash. -/
theorem lookup_eq_none_of_deleted (subset : ∀ row ∈ final.blocks, row ∈ start.blocks)
    {block : Block} (stored : block ∈ start.blocks) (deleted : block ∉ final.blocks) :
    final.blocks.lookup block.hash = none := by
  rw [Table.lookup_eq_none_iff]
  rintro ⟨row, rowMem, rowKey⟩
  have same : row = block := Table.eq_of_key_eq (subset row rowMem) stored rowKey rfl
  exact deleted (same ▸ rowMem)

theorem PrunesRelations.trans (first : PrunesRelations start middle)
    (second : PrunesRelations middle final) : PrunesRelations start final where
  blocks row stored := first.blocks row (second.blocks row stored)
  parents row stored := first.parents row (second.parents row stored)
  transactions row stored := first.transactions row (second.transactions row stored)
  parents_kept row stored absent :=
    second.parents_kept row (first.parents_kept row stored absent)
      (lookup_eq_none_of_subset first.blocks absent)
  transactions_kept row stored absent :=
    second.transactions_kept row (first.transactions_kept row stored absent)
      (lookup_eq_none_of_subset first.blocks absent)

/-- Orphans are not deleted later, so there are none after two prunings exactly if
neither made any. -/
theorem noOrphans_trans_iff (first : PrunesRelations start middle)
    (second : PrunesRelations middle final) :
    NoOrphans start final ↔ NoOrphans start middle ∧ NoOrphans middle final := by
  constructor
  · intro none
    constructor
    · intro block stored deleted
      have absent := lookup_eq_none_of_deleted first.blocks stored deleted
      have gone : block ∉ final.blocks := fun there => deleted (second.blocks block there)
      obtain ⟨noParent, noTransaction⟩ := none block stored gone
      constructor
      · intro row rowMem same
        exact noParent row (second.parents_kept row rowMem (same ▸ absent)) same
      · intro row rowMem same
        exact noTransaction row (second.transactions_kept row rowMem (same ▸ absent)) same
    · exact fun block stored => none block (first.blocks block stored)
  · rintro ⟨before, after⟩ block stored deleted
    by_cases between : block ∈ middle.blocks
    · exact after block between deleted
    · obtain ⟨noParent, noTransaction⟩ := before block stored between
      exact ⟨fun row rowMem => noParent row (second.parents row rowMem),
        fun row rowMem => noTransaction row (second.transactions row rowMem)⟩

end Blocks

/-! ## What the steps change -/

/-- The blocks and their relations are as before. -/
def SameBlocks (before after : Db) : Prop :=
  after.blocks = before.blocks ∧ after.blockParent = before.blockParent ∧
    after.blocksTransactions = before.blocksTransactions

theorem SameBlocks.refl (db : Db) : SameBlocks db db :=
  ⟨rfl, rfl, rfl⟩

theorem SameBlocks.trans {first second third : Db} (before : SameBlocks first second)
    (after : SameBlocks second third) : SameBlocks first third :=
  ⟨after.1.trans before.1, after.2.1.trans before.2.1, after.2.2.trans before.2.2⟩

theorem SameBlocks.prunesRelations {before after : Db} (same : SameBlocks before after) :
    PrunesRelations before after := by
  obtain ⟨blocks, parents, transactions⟩ := same
  constructor
  · exact fun row stored => blocks ▸ stored
  · exact fun row stored => parents ▸ stored
  · exact fun row stored => transactions ▸ stored
  · exact fun row stored _ => parents.symm ▸ stored
  · exact fun row stored _ => transactions.symm ▸ stored

section Leaves

variable {cutoff : Int} {before after : Db}

theorem prunesRelations_of_blockParents
    (leaves : (expiredBlockParents cutoff).Leaves before after) :
    after.blocks = before.blocks ∧ PrunesRelations before after := by
  obtain ⟨table, rfl, thinned⟩ := leaves
  refine ⟨rfl, fun _ stored => stored, ?_, fun _ stored => stored, ?_, fun _ stored _ => stored⟩
  · exact fun row stored => thinned.sublist.subset stored
  · exact fun row stored absent => thinned.mem_of_not stored (not_blockExpired absent)

theorem prunesRelations_of_blocksTransactions
    (leaves : (expiredBlocksTransactions cutoff).Leaves before after) :
    after.blocks = before.blocks ∧ PrunesRelations before after := by
  obtain ⟨table, rfl, thinned⟩ := leaves
  refine ⟨rfl, fun _ stored => stored, fun _ stored => stored, ?_, fun _ stored _ => stored, ?_⟩
  · exact fun row stored => thinned.sublist.subset stored
  · exact fun row stored absent => thinned.mem_of_not stored (not_blockExpired absent)

theorem prunesRelations_of_blocks (leaves : (expiredBlocks cutoff).Leaves before after) :
    PrunesRelations before after := by
  obtain ⟨table, rfl, thinned⟩ := leaves
  refine ⟨?_, fun _ stored => stored, fun _ stored => stored, fun _ stored _ => stored,
    fun _ stored _ => stored⟩
  exact fun row stored => thinned.sublist.subset stored

theorem sameBlocks_of_pruneChunk {choice : LimitChoice Transaction} {batchSize rowsAffected : ℕ}
    (pruned : pruneChunk choice cutoff batchSize before = .ok (rowsAffected, after)) :
    SameBlocks before after := by
  unfold pruneChunk pruneExpired at pruned
  simp only [bind, Except.bind] at pruned
  split at pruned
  · contradiction
  · rename_i result decoded
    split at decoded
    · contradiction
    · cases decoded
      cases pruned
      exact ⟨rfl, rfl, rfl⟩

end Leaves

section Tasks

variable {earliest : Int} {cliArgs : CliArgs} {config : PruningConfig} {input : PruneInput}

/-- The steps after the blocks step leave blocks and relations alone. -/
theorem keeps_laterTasks {property : Db → Prop}
    (kept : ∀ before after, property before → SameBlocks before after → property after)
    (retention : Duration) :
    ∀ task ∈ acceptancesTasks earliest cliArgs config input retention ++
        transactionsTasks earliest config input ++
        addressesTransactionsTasks earliest cliArgs config input,
      ∀ cutoff, (task.call cutoff).Keeps property := by
  intro task taskMem
  rcases List.mem_append.mp taskMem with earlier | ofAddresses
  · rcases List.mem_append.mp earlier with ofAcceptances | ofTransactions
    · refine keeps_acceptancesTasks ?_ retention task ofAcceptances
      rintro _ before _ holds ⟨table, rfl, _⟩
      exact kept before _ holds ⟨rfl, rfl, rfl⟩
    · refine keeps_transactionsTasks ?_ task ofTransactions
      intro _ _ _ before after _ holds pruned
      exact kept before after holds (sameBlocks_of_pruneChunk pruned)
  · refine keeps_addressesTransactionsTasks ?_ ?_ task ofAddresses
    all_goals
      rintro _ before _ holds ⟨table, rfl, _⟩
      exact kept before _ holds ⟨rfl, rfl, rfl⟩

/-- The retentions of blocks and relations are set, and blocks are stored with their
timestamps. -/
structure PrunesBlocks (cliArgs : CliArgs) (config : PruningConfig)
    (parents transactions blocks : Duration) : Prop where
  parents : config.retentionBlockParent = some parents
  transactions : config.retentionBlocksTransactions = some transactions
  blocks : config.retentionBlocks = some blocks
  enabled : cliArgs.isDisabled .blocksTable = false
  included : cliArgs.isExcluded .blockTimestamp = false

section Steps

variable (earliest : Int) (cliArgs : CliArgs) (config : PruningConfig)
  (parents transactions blocks : Duration) (input : PruneInput)

def parentsStep : PruneTask :=
  input.task earliest .blockParent (min parents blocks) fun cutoff =>
    pruneBlockParent cutoff config.pruneBatchSize input.blockParents

def transactionsOfBlocksStep : PruneTask :=
  input.task earliest .blocksTransactions (min transactions blocks) fun cutoff =>
    pruneBlocksTransactionsUsingBlocks cutoff config.pruneBatchSize input.blocksTransactions

def blocksStep : PruneTask :=
  input.task earliest .blocks blocks fun cutoff =>
    pruneBlocks cutoff config.pruneBatchSize input.blocks

/-- The steps after the blocks step. -/
def laterSteps : List PruneTask :=
  acceptancesTasks earliest cliArgs config input blocks ++
    transactionsTasks earliest config input ++
    addressesTransactionsTasks earliest cliArgs config input

/-- No shutdown comes before the blocks step, it has this cutoff, and its first statement is
executed. -/
structure StartsBlocks (cutoff : Int) : Prop where
  begins : stepPruningPoint earliest input.start blocks = some cutoff
  limited : 0 < config.pruneBatchSize
  executed : input.script .blocks 0 = .succeeds
  up : input.isShutdown .blockParent = false ∧ input.isShutdown .blocksTransactions = false ∧
    input.isShutdown .blocks = false

/-- No statement of a relation step fails before all rows of the block are deleted. -/
structure RelationsGo (db : Db) (hash : Hash) : Prop where
  parents : ∀ cutoff, stepPruningPoint earliest input.start (min parents blocks) = some cutoff →
    ∀ row : BlockParent, row.blockHash = hash →
      ¬ (expiredBlockParents cutoff).FailsBefore config.pruneBatchSize.toNat input.blockParents
        (input.script .blockParent) db row
  transactions : ∀ cutoff,
    stepPruningPoint earliest input.start (min transactions blocks) = some cutoff →
    ∀ row : BlockTransaction, row.blockHash = hash →
      ¬ (expiredBlocksTransactions cutoff).FailsBefore config.pruneBatchSize.toNat
        input.blocksTransactions (input.script .blocksTransactions) db row

end Steps

/-- Where the blocks step of a run starts, no statement of a relation step fails before all rows
of the expired blocks are deleted. -/
def RelationsFirst (earliest : Int) (config : PruningConfig)
    (parents transactions blocks : Duration) (db : Db) (input : PruneInput) : Prop :=
  ∀ cutoff, StartsBlocks earliest config blocks input cutoff →
    ∀ block ∈ db.blocks, expiredAt cutoff block.timestamp = true →
      RelationsGo earliest config parents transactions blocks input db block.hash

/-- The process survives the relation steps, and every statement of the blocks step is
executed. -/
structure PruneInput.BlocksGo (input : PruneInput) : Prop where
  parents : (input.script .blockParent).Surviving
  transactions : (input.script .blocksTransactions).Surviving
  blocks : (input.script .blocks).Up

variable {parents transactions blocks : Duration}

theorem PrunesBlocks.pruneTasks_eq
    (prunes : PrunesBlocks cliArgs config parents transactions blocks) (earliest : Int)
    (input : PruneInput) :
    pruneTasks earliest cliArgs config input =
      parentsStep earliest config parents blocks input ::
        transactionsOfBlocksStep earliest config transactions blocks input ::
          blocksStep earliest config blocks input ::
            laterSteps earliest cliArgs config blocks input := by
  obtain ⟨parentsEq, transactionsEq, blocksEq, enabled, included⟩ := prunes
  simp [pruneTasks, blockParentTasks, blocksTransactionsTasks, blocksTasks, parentsEq,
    transactionsEq, blocksEq, enabled, included, parentsStep, transactionsOfBlocksStep, blocksStep,
    laterSteps]

theorem prunesRelations_prune (prunes : PrunesBlocks cliArgs config parents transactions blocks)
    (db : Db) : PrunesRelations db (prune earliest cliArgs config input db).2 := by
  apply runTasks_keeps _ 0 (prunesRelations_refl db)
  intro task taskMem cutoff _
  rw [prunes.pruneTasks_eq] at taskMem
  simp only [List.mem_cons] at taskMem
  rcases taskMem with rfl | rfl | rfl | later
  · exact keeps_pruneRows (fun _ _ earlier leaves =>
      earlier.trans (prunesRelations_of_blockParents leaves).2) _ _
  · exact keeps_pruneRows (fun _ _ earlier leaves =>
      earlier.trans (prunesRelations_of_blocksTransactions leaves).2) _ _
  · exact keeps_pruneRows (fun _ _ earlier leaves =>
      earlier.trans (prunesRelations_of_blocks leaves)) _ _
  · exact keeps_laterTasks (fun _ _ earlier same => earlier.trans same.prunesRelations) blocks task
      later cutoff

/-! ## Cutoffs -/

/-- A larger retention has an earlier cutoff. -/
theorem stepPruningPoint_le {start shorter longer : Int} {first second : Duration}
    (ordered : first ≤ second) (ofFirst : stepPruningPoint earliest start first = some shorter)
    (ofSecond : stepPruningPoint earliest start second = some longer) : longer ≤ shorter := by
  unfold stepPruningPoint at ofFirst ofSecond
  simp only [Option.ite_none_right_eq_some, Option.some.injEq] at ofFirst ofSecond
  obtain ⟨_, rfl⟩ := ofFirst
  obtain ⟨_, rfl⟩ := ofSecond
  have casts : (first : ℤ) ≤ second := Int.ofNat_le.mpr ordered
  apply Int.ediv_le_ediv (by decide)
  omega

/-- A shorter retention has a cutoff too, and a later one. -/
theorem exists_stepPruningPoint {start cutoff : Int} {shorter longer : Duration}
    (ordered : shorter ≤ longer) (ofLonger : stepPruningPoint earliest start longer = some cutoff) :
    ∃ later, stepPruningPoint earliest start shorter = some later := by
  unfold stepPruningPoint at ofLonger
  simp only [Option.ite_none_right_eq_some] at ofLonger
  have casts : (shorter : ℤ) ≤ longer := Int.ofNat_le.mpr ordered
  exact ⟨_, if_pos (by omega)⟩

/-- What a relation step matches of an expired block. -/
theorem blockExpired_of_expiredAt {db : Db} {start cutoff later : Int} {retention : Duration}
    {block : Block} (stored : block ∈ db.blocks)
    (ofBlocks : stepPruningPoint earliest start blocks = some cutoff)
    (expired : expiredAt cutoff block.timestamp = true)
    (ofRelation : stepPruningPoint earliest start (min retention blocks) = some later) :
    db.blockExpired later block.hash = true := by
  rw [blockExpired_iff stored]
  exact expiredAt_mono (stepPruningPoint_le (min_le_right retention blocks) ofRelation ofBlocks)
    expired

/-! ## A run up to its blocks step -/

section Passes

variable {db afterParents afterRelations : Db} {first second : Int}

theorem kept_of_parentsStep
    (passes : (parentsStep earliest config parents blocks input).Passes first db afterParents) :
    afterParents.blocks = db.blocks ∧
      afterParents.blocksTransactions = db.blocksTransactions := by
  have leaves : (expiredBlockParents first).Leaves db (Session.run (pruneBlockParent first
      config.pruneBatchSize input.blockParents) db (input.script .blockParent)).state :=
    Deletion.leaves_deleteLoop _ _ _ _
  obtain ⟨left, after, _⟩ := leaves
  rw [passes.leaves.symm.trans after]
  exact ⟨rfl, rfl⟩

theorem kept_of_transactionsOfBlocksStep
    (passes : (transactionsOfBlocksStep earliest config transactions blocks input).Passes second
      db afterRelations) :
    afterRelations.blocks = db.blocks ∧ afterRelations.blockParent = db.blockParent := by
  have leaves : (expiredBlocksTransactions second).Leaves db (Session.run
      (pruneBlocksTransactionsUsingBlocks second config.pruneBatchSize input.blocksTransactions) db
        (input.script .blocksTransactions)).state :=
    Deletion.leaves_deleteLoop _ _ _ _
  obtain ⟨left, after, _⟩ := leaves
  rw [passes.leaves.symm.trans after]
  exact ⟨rfl, rfl⟩

/-- The parents of an expired block that are left after their step. -/
theorem mem_parentsStep_iff (limited : 0 < config.pruneBatchSize)
    (passes : (parentsStep earliest config parents blocks input).Passes first db afterParents)
    {row : BlockParent} (matched : db.blockExpired first row.blockHash = true) :
    row ∈ afterParents.blockParent ↔
      (expiredBlockParents first).FailsBefore config.pruneBatchSize.toNat input.blockParents
        (input.script .blockParent) db row := by
  rw [← passes.leaves]
  exact Deletion.mem_deleteLoop_iff limited passes.survives matched

/-- The transactions of an expired block that are left after their step, which nothing but the
step of the parents precedes. -/
theorem mem_transactionsOfBlocksStep_iff (limited : 0 < config.pruneBatchSize)
    (passes : (transactionsOfBlocksStep earliest config transactions blocks input).Passes second
      afterParents afterRelations)
    (sameBlocks : afterParents.blocks = db.blocks)
    (sameTransactions : afterParents.blocksTransactions = db.blocksTransactions)
    {row : BlockTransaction} (matched : db.blockExpired second row.blockHash = true) :
    row ∈ afterRelations.blocksTransactions ↔
      (expiredBlocksTransactions second).FailsBefore config.pruneBatchSize.toNat
        input.blocksTransactions (input.script .blocksTransactions) db row := by
  have sameExpired : afterParents.blockExpired second = db.blockExpired second := by
    funext hash
    rw [Db.blockExpired, Db.blockExpired, sameBlocks]
  have sameCondition : (expiredBlocksTransactions second).condition afterParents =
      (expiredBlocksTransactions second).condition db := by
    funext row
    change (afterParents.blockExpired second row.blockHash = true) = _
    rw [sameExpired]
    rfl
  rw [← passes.leaves, ← Deletion.failsBefore_congr sameTransactions sameCondition]
  apply Deletion.mem_deleteLoop_iff limited passes.survives
  rw [sameCondition]
  exact matched

end Passes

/-- After a task that keeps the blocks, a run that deletes one goes on. -/
theorem passes_of_deleted {task : PruneTask} {rest : List PruneTask} {stepErrors : ℕ} {db : Db}
    (keeps : ∀ cutoff, (task.call cutoff).Keeps fun after => after.blocks = db.blocks)
    {block : Block} (stored : block ∈ db.blocks)
    (deleted : block ∉ (runTasks stepErrors (task :: rest) db).2.blocks) :
    ∃ cutoff after, task.Passes cutoff db after := by
  rcases runTasks_cons_cases stepErrors task rest db with
    ended | ⟨cutoff, _, _, ended | passes⟩
  · rw [ended] at deleted
    exact absurd stored deleted
  · have kept : (Session.run (task.call cutoff) db task.script).state.blocks = db.blocks :=
      keeps cutoff db task.script rfl
    rw [ended] at deleted
    exact absurd (kept.symm ▸ stored) deleted
  · exact ⟨cutoff, _, passes⟩

theorem sameBlocks_of_laterSteps (stepErrors : ℕ) (db : Db) :
    SameBlocks db (runTasks stepErrors (laterSteps earliest cliArgs config blocks input) db).2 :=
  runTasks_keeps (fun task taskMem cutoff _ =>
    keeps_laterTasks (fun _ _ earlier same => earlier.trans same) blocks task taskMem cutoff)
      stepErrors (SameBlocks.refl db)

/-- A run that deletes a block in its blocks step leaves what that step leaves. -/
theorem blocksStep_of_deleted {stepErrors : ℕ} {db : Db} {block : Block}
    (stored : block ∈ db.blocks)
    (deleted : block ∉ (runTasks stepErrors (blocksStep earliest config blocks input ::
      laterSteps earliest cliArgs config blocks input) db).2.blocks) :
    ∃ cutoff, stepPruningPoint earliest input.start blocks = some cutoff ∧
      input.isShutdown .blocks = false ∧
      SameBlocks (Session.run (pruneBlocks cutoff config.pruneBatchSize input.blocks) db
          (input.script .blocks)).state
        (runTasks stepErrors (blocksStep earliest config blocks input ::
          laterSteps earliest cliArgs config blocks input) db).2 := by
  rcases runTasks_cons_cases stepErrors (blocksStep earliest config blocks input)
      (laterSteps earliest cliArgs config blocks input) db with
    ended | ⟨cutoff, cutoffEq, up, ended | passes⟩
  · rw [ended] at deleted
    exact absurd stored deleted
  · refine ⟨cutoff, cutoffEq, up, ?_⟩
    rw [ended]
    exact SameBlocks.refl _
  · refine ⟨cutoff, cutoffEq, up, ?_⟩
    obtain ⟨errors, goesOn⟩ := passes.runTasks_eq stepErrors _
    rw [goesOn]
    exact sameBlocks_of_laterSteps errors _

/-! ## One run -/

/-- Where the relations are gone first, the blocks step makes no orphans. -/
theorem noOrphans_of_relationsFirst
    (prunes : PrunesBlocks cliArgs config parents transactions blocks) {db : Db}
    (relationsFirst : RelationsFirst earliest config parents transactions blocks db input) :
    NoOrphans db (prune earliest cliArgs config input db).2 := by
  intro block stored deleted
  rw [prune, prunes.pruneTasks_eq] at deleted ⊢
  obtain ⟨first, afterParents, parentsPass⟩ :=
    passes_of_deleted (fun cutoff => keeps_pruneRows (fun _ _ kept leaves =>
      (prunesRelations_of_blockParents leaves).1.trans kept) _ _) stored deleted
  obtain ⟨errors, goesOn⟩ := parentsPass.runTasks_eq 0 _
  rw [goesOn] at deleted ⊢
  obtain ⟨blocksKept, transactionsKept⟩ := kept_of_parentsStep parentsPass
  obtain ⟨second, afterRelations, transactionsPass⟩ :=
    passes_of_deleted (fun cutoff => keeps_pruneRows (fun _ _ kept leaves =>
      (prunesRelations_of_blocksTransactions leaves).1.trans kept) _ _)
        (blocksKept.symm ▸ stored) deleted
  obtain ⟨errors, goesOn⟩ := transactionsPass.runTasks_eq errors _
  rw [goesOn] at deleted ⊢
  obtain ⟨blocksStill, parentsKept⟩ := kept_of_transactionsOfBlocksStep transactionsPass
  have storedStill : block ∈ afterRelations.blocks := by rwa [blocksStill, blocksKept]
  obtain ⟨cutoff, cutoffEq, up, sameBlocks, sameParents, sameTransactions⟩ :=
    blocksStep_of_deleted storedStill deleted
  -- The blocks step has deleted the block.
  rw [sameBlocks] at deleted
  have begun : 0 < config.pruneBatchSize ∧ input.script .blocks 0 = .succeeds :=
    @Deletion.executes_of_deleted _ _ _ _ _ (expiredBlocks cutoff) _ _ _ _ _ _ _ block storedStill
      deleted
  obtain ⟨limited, executed⟩ := begun
  have leaves : (expiredBlocks cutoff).Leaves afterRelations (Session.run (pruneBlocks cutoff
      config.pruneBatchSize input.blocks) afterRelations (input.script .blocks)).state :=
    Deletion.leaves_deleteLoop _ _ _ _
  have expired : expiredAt cutoff block.timestamp = true := by
    by_contra fresh
    exact deleted (leaves.mem_of_not storedStill fresh)
  obtain ⟨left, afterBlocks, _⟩ := leaves
  rw [sameParents, sameTransactions, afterBlocks]
  have go := relationsFirst cutoff
    ⟨cutoffEq, limited, executed, parentsPass.up, transactionsPass.up, up⟩ block stored expired
  constructor
  · intro row isLeft same
    have matched : db.blockExpired first row.blockHash = true :=
      same ▸ blockExpired_of_expiredAt stored cutoffEq expired parentsPass.begins
    have stillLeft : row ∈ afterParents.blockParent := parentsKept ▸ isLeft
    exact go.parents first parentsPass.begins row same
      ((mem_parentsStep_iff limited parentsPass matched).mp stillLeft)
  · intro row isLeft same
    have matched : db.blockExpired second row.blockHash = true :=
      same ▸ blockExpired_of_expiredAt stored cutoffEq expired transactionsPass.begins
    exact go.transactions second transactionsPass.begins row same
      ((mem_transactionsOfBlocksStep_iff limited transactionsPass blocksKept transactionsKept
        matched).mp isLeft)

/-- A run without errors deletes no block that a relation row is left of. -/
theorem noOrphans_of_prune
    (prunes : PrunesBlocks cliArgs config parents transactions blocks) {db : Db}
    (succeeds : (prune earliest cliArgs config input db).1 = some 0) :
    NoOrphans db (prune earliest cliArgs config input db).2 := by
  obtain ⟨errors, final, ran⟩ : ∃ errors final,
      prune earliest cliArgs config input db = (errors, final) := ⟨_, _, rfl⟩
  rw [ran] at succeeds ⊢
  cases succeeds
  rw [prune, prunes.pruneTasks_eq] at ran
  obtain ⟨first, _, afterParents, _, firstEq, parentsRan, ran⟩ := done_of_runTasks ran
  obtain ⟨second, _, afterTransactions, _, secondEq, transactionsRan, ran⟩ := done_of_runTasks ran
  obtain ⟨third, _, afterBlocks, _, thirdEq, blocksRan, ran⟩ := done_of_runTasks ran
  have laterBlocks := @sameBlocks_of_laterSteps earliest cliArgs config input blocks 0 afterBlocks
  rw [ran] at laterBlocks
  have firstCutoff : third ≤ first :=
    stepPruningPoint_le (min_le_right parents blocks) firstEq thirdEq
  have secondCutoff : third ≤ second :=
    stepPruningPoint_le (min_le_right transactions blocks) secondEq thirdEq
  intro block stored deleted
  rw [laterBlocks.1] at deleted
  rw [laterBlocks.2.1, laterBlocks.2.2]
  have parentsDone := Deletion.eq_of_done_deleteLoop parentsRan
  have transactionsDone := Deletion.eq_of_done_deleteLoop transactionsRan
  rcases Deletion.eq_of_done_deleteLoop blocksRan with ⟨positive, rfl⟩ | ⟨zero, rfl⟩
  · obtain ⟨_, rfl⟩ := parentsDone.resolve_right fun none => by omega
    obtain ⟨_, rfl⟩ := transactionsDone.resolve_right fun none => by omega
    have expired : expiredAt third block.timestamp = true := by
      by_contra fresh
      exact deleted (Table.mem_deleteWhere.mpr ⟨stored, fresh⟩)
    constructor
    · intro row rowMem same
      apply (Table.mem_deleteWhere.mp rowMem).2
      change db.blockExpired first row.blockHash = true
      rw [same, blockExpired_iff stored]
      exact expiredAt_mono firstCutoff expired
    · intro row rowMem same
      apply (Table.mem_deleteWhere.mp rowMem).2
      change db.blockExpired second row.blockHash = true
      rw [same, blockExpired_iff stored]
      exact expiredAt_mono secondCutoff expired
  · obtain ⟨_, rfl⟩ := transactionsDone.resolve_left fun some => by omega
    obtain ⟨_, rfl⟩ := parentsDone.resolve_left fun some => by omega
    exact absurd stored deleted

/-- A run that goes on passes the relation steps and deletes all expired blocks. -/
theorem exists_passes_of_blocksGo {cutoff : Int} (go : input.BlocksGo)
    (starts : StartsBlocks earliest config blocks input cutoff) (db : Db) :
    ∃ first second afterParents afterRelations,
      (parentsStep earliest config parents blocks input).Passes first db afterParents ∧
      (transactionsOfBlocksStep earliest config transactions blocks input).Passes second
        afterParents afterRelations ∧
      (blocksStep earliest config blocks input).Passes cutoff afterRelations
        ((expiredBlocks cutoff).all afterRelations) := by
  obtain ⟨first, firstEq⟩ := exists_stepPruningPoint (min_le_right parents blocks) starts.begins
  obtain ⟨second, secondEq⟩ :=
    exists_stepPruningPoint (min_le_right transactions blocks) starts.begins
  obtain ⟨afterParents, parentsPass⟩ : ∃ after,
      (parentsStep earliest config parents blocks input).Passes first db after :=
    ⟨_, firstEq, starts.up.1, (Deletion.survives_deleteLoop _ _).ne_killed go.parents db, rfl⟩
  obtain ⟨afterRelations, transactionsPass⟩ : ∃ after,
      (transactionsOfBlocksStep earliest config transactions blocks input).Passes second
        afterParents after :=
    ⟨_, secondEq, starts.up.2.1,
      (Deletion.survives_deleteLoop _ _).ne_killed go.transactions _, rfl⟩
  refine ⟨first, second, afterParents, afterRelations, parentsPass, transactionsPass,
    starts.begins, starts.up.2.2, ?_, ?_⟩
  · exact (Deletion.survives_deleteLoop _ _).ne_killed go.blocks.surviving afterRelations
  · have completes : (pruneBlocks cutoff config.pruneBatchSize input.blocks).Completes
        afterRelations _ ((expiredBlocks cutoff).all afterRelations) :=
      Deletion.completes_deleteLoop starts.limited input.blocks afterRelations
    obtain ⟨rest, _, ran⟩ := completes (input.script .blocks) go.blocks
    change (Session.run (pruneBlocks cutoff config.pruneBatchSize input.blocks) afterRelations
      (input.script .blocks)).state = _
    rw [ran]
    rfl

/-- A run that passes its first three steps leaves of the blocks and their relations what these
leave. -/
theorem sameBlocks_of_passes
    (prunes : PrunesBlocks cliArgs config parents transactions blocks)
    {first second third : Int} {db afterParents afterRelations final : Db}
    (parentsPass : (parentsStep earliest config parents blocks input).Passes first db afterParents)
    (transactionsPass : (transactionsOfBlocksStep earliest config transactions blocks input).Passes
      second afterParents afterRelations)
    (blocksPass : (blocksStep earliest config blocks input).Passes third afterRelations final) :
    SameBlocks final (prune earliest cliArgs config input db).2 := by
  rw [prune, prunes.pruneTasks_eq]
  obtain ⟨errors, afterFirst⟩ := parentsPass.runTasks_eq 0
    (transactionsOfBlocksStep earliest config transactions blocks input ::
      blocksStep earliest config blocks input :: laterSteps earliest cliArgs config blocks input)
  obtain ⟨more, afterSecond⟩ := transactionsPass.runTasks_eq errors
    (blocksStep earliest config blocks input :: laterSteps earliest cliArgs config blocks input)
  obtain ⟨most, afterThird⟩ := blocksPass.runTasks_eq more
    (laterSteps earliest cliArgs config blocks input)
  rw [afterFirst, afterSecond, afterThird]
  exact sameBlocks_of_laterSteps most final

/-- A run that goes on, and makes no orphans in a blocks step that it ends, had the relations
gone. -/
theorem relationsFirst_of_noOrphans
    (prunes : PrunesBlocks cliArgs config parents transactions blocks) {db : Db}
    (go : input.BlocksGo) (none : NoOrphans db (prune earliest cliArgs config input db).2) :
    RelationsFirst earliest config parents transactions blocks db input := by
  intro cutoff starts block stored expired
  obtain ⟨first, second, afterParents, afterRelations, parentsPass, transactionsPass,
    blocksPass⟩ := @exists_passes_of_blocksGo earliest config input parents transactions blocks
      cutoff go starts db
  obtain ⟨blocksKept, transactionsKept⟩ := kept_of_parentsStep parentsPass
  obtain ⟨_, parentsKept⟩ := kept_of_transactionsOfBlocksStep transactionsPass
  obtain ⟨sameBlocks, sameParents, sameTransactions⟩ :=
    sameBlocks_of_passes prunes parentsPass transactionsPass blocksPass
  have gone : block ∉ (prune earliest cliArgs config input db).2.blocks := by
    rw [sameBlocks]
    exact fun left => (Table.mem_deleteWhere.mp left).2 expired
  obtain ⟨noParent, noTransaction⟩ := none block stored gone
  rw [sameParents] at noParent
  rw [sameTransactions] at noTransaction
  constructor
  · intro other otherEq row same fails
    cases parentsPass.begins.symm.trans otherEq
    have matched : db.blockExpired first row.blockHash = true :=
      same ▸ blockExpired_of_expiredAt stored starts.begins expired parentsPass.begins
    have left : row ∈ afterParents.blockParent :=
      (mem_parentsStep_iff starts.limited parentsPass matched).mpr fails
    exact noParent row (parentsKept.symm ▸ left) same
  · intro other otherEq row same fails
    cases transactionsPass.begins.symm.trans otherEq
    have matched : db.blockExpired second row.blockHash = true :=
      same ▸ blockExpired_of_expiredAt stored starts.begins expired transactionsPass.begins
    exact noTransaction row ((mem_transactionsOfBlocksStep_iff starts.limited transactionsPass
      blocksKept transactionsKept matched).mpr fails) same

end Tasks

/-! ## Sequences of runs -/

section Runs

variable {earliest : Int} {cliArgs : CliArgs} {config : PruningConfig}
  {parents transactions blocks : Duration}

/-- The database a run leaves. -/
def afterPrune (earliest : Int) (cliArgs : CliArgs) (config : PruningConfig) (db : Db)
    (input : PruneInput) : Db :=
  (prune earliest cliArgs config input db).2

theorem prunesRelations_run (prunes : PrunesBlocks cliArgs config parents transactions blocks)
    (db : Db) (runs : List PruneInput) :
    PrunesRelations db (runFrom (afterPrune earliest cliArgs config) db runs) := by
  induction runs generalizing db with
  | nil => exact prunesRelations_refl db
  | cons input rest ih => exact (prunesRelations_prune prunes db).trans (ih _)

/-- There are no orphans after some runs exactly if none of them made any. -/
theorem noOrphans_run_iff (prunes : PrunesBlocks cliArgs config parents transactions blocks)
    (db : Db) (runs : List PruneInput) :
    NoOrphans db (runFrom (afterPrune earliest cliArgs config) db runs) ↔
      Along (afterPrune earliest cliArgs config)
        (fun before input => NoOrphans before (afterPrune earliest cliArgs config before input))
        db runs := by
  induction runs generalizing db with
  | nil => exact ⟨fun _ => trivial, fun _ block stored deleted => absurd stored deleted⟩
  | cons input rest ih =>
      have now : PrunesRelations db (afterPrune earliest cliArgs config db input) :=
        prunesRelations_prune prunes db
      rw [runFrom_cons, noOrphans_trans_iff now (prunesRelations_run prunes _ rest), ih]
      rfl

/-- After a run without errors no relation row refers to a block that the runs deleted, if in
every earlier run the relations were gone before the blocks step deleted. Where the process
survives the relation steps of all runs and their blocks steps are ended, they have to be. -/
theorem noOrphans_of_succeeds
    (prunes : PrunesBlocks cliArgs config parents transactions blocks) (db : Db)
    (runs : List PruneInput) (last : PruneInput)
    (succeeds : (prune earliest cliArgs config last
      (runFrom (afterPrune earliest cliArgs config) db runs)).1 = some 0) :
    (Along (afterPrune earliest cliArgs config)
        (RelationsFirst earliest config parents transactions blocks) db runs →
      NoOrphans db (runFrom (afterPrune earliest cliArgs config) db (runs ++ [last]))) ∧
    ((∀ input ∈ runs, input.BlocksGo) →
      NoOrphans db (runFrom (afterPrune earliest cliArgs config) db (runs ++ [last])) →
      Along (afterPrune earliest cliArgs config)
        (RelationsFirst earliest config parents transactions blocks) db runs) := by
  rw [noOrphans_run_iff prunes, along_append]
  constructor
  · intro first
    refine ⟨?_, noOrphans_of_prune prunes succeeds, trivial⟩
    exact first.mono fun _ _ => noOrphans_of_relationsFirst prunes
  · rintro go ⟨none, _⟩
    have steps := none.and (along_of_forall db go)
    exact steps.mono fun _ _ step => relationsFirst_of_noOrphans prunes step.2 step.1

end Runs

/-! ## A failed relation step -/

/-- One retention for all tables. -/
def weekConfig : PruningConfig :=
  PruningConfig.resolved
    { pruneDb := some "0 4 * * *"
      pruneBatchSize := 100000
      retention := some 604800000000000
      retentionBlockParent := none
      retentionBlocksTransactions := none
      retentionBlocks := none
      retentionTransactions := none
      retentionAddressesTransactions := none }

/-- A run that starts at a second, with what happens to the statements of each step. -/
def pruneAt (start : Int) (script : PruneStep → Script) : PruneInput where
  start := start
  isShutdown _ := false
  script := script
  checkpointTimestamp := none
  blockParents _ := .first
  blocksTransactions _ := .first
  blocks _ := .first
  acceptances _ := .first
  transactions _ := .first
  addresses _ := .first
  scripts _ := .first

def allSucceed (_ : PruneStep) : Script :=
  fun _ => .succeeds

def parentsFail (step : PruneStep) : Script :=
  fun _ => if step = .blockParent then .fails else .succeeds

/-- A block of the first second, with its parent. -/
def oldBlockDb : Db :=
  { Db.empty with
    blocks := Table.empty.insertAll [{ scoredBlock 2 0 with timestamp := some 1000 }]
    blockParent := Table.empty.insertAll [⟨2, 1⟩] }

theorem weekConfig_prunesBlocks : PrunesBlocks .standard weekConfig 604800000000000
    604800000000000 604800000000000 :=
  ⟨rfl, rfl, rfl, rfl, rfl⟩

/-- The first run fails to prune the relation and prunes the block; the second succeeds
and leaves the relation. -/
theorem failedParents_orphans :
    (prune (-8000000000000000000000) .standard weekConfig (pruneAt 700000 allSucceed)
      (afterPrune (-8000000000000000000000) .standard weekConfig oldBlockDb
        (pruneAt 610000 parentsFail))).1 = some 0 ∧
    ¬ NoOrphans oldBlockDb (runFrom
      (afterPrune (-8000000000000000000000) .standard weekConfig) oldBlockDb
      [pruneAt 610000 parentsFail, pruneAt 700000 allSucceed]) := by
  refine ⟨by decide +kernel, fun none => ?_⟩
  have orphan := none { scoredBlock 2 0 with timestamp := some 1000 } (by decide +kernel)
    (by decide +kernel)
  exact orphan.1 ⟨2, 1⟩ (by decide +kernel) rfl

/-- Neither the relation nor the blocks are pruned. -/
def bothFail (step : PruneStep) : Script :=
  fun _ => if step = .blockParent ∨ step = .blocks then .fails else .succeeds

/-- With the relation pruned first, in the second run, nothing is left of the block. -/
theorem bothSucceed_noOrphans :
    (runFrom (afterPrune (-8000000000000000000000) .standard weekConfig) oldBlockDb
      [pruneAt 610000 bothFail]).blocks.rows ≠ [] ∧
    (runFrom (afterPrune (-8000000000000000000000) .standard weekConfig) oldBlockDb
      [pruneAt 610000 bothFail, pruneAt 650000 allSucceed]).blocks.rows = [] ∧
    NoOrphans oldBlockDb (runFrom
      (afterPrune (-8000000000000000000000) .standard weekConfig) oldBlockDb
      ([pruneAt 610000 bothFail, pruneAt 650000 allSucceed] ++ [pruneAt 700000 allSucceed])) := by
  refine ⟨by decide +kernel, by decide +kernel, ?_⟩
  apply (noOrphans_of_succeeds weekConfig_prunesBlocks _ _ _ (by decide +kernel)).1
  refine ⟨?_, ?_, trivial⟩
  · rintro _ ⟨_, _, impossible, _⟩
    contradiction
  · intro _ _ _ _ _
    constructor
    · rintro _ _ _ _ ⟨_, _, impossible, _⟩
      contradiction
    · rintro _ _ _ _ ⟨_, _, impossible, _⟩
      contradiction

end VecnoIndexer
