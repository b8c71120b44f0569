import VecnoIndexer.Mapping.Mapper
import VecnoIndexer.VirtualChain.Core

/-!
# The block processor

One iteration of the loop of `process_blocks`: a popped block is mapped and kept
until the batch is large or old enough, then the batch is committed.  Until the
virtual chain processor is started, a commit also deletes the acceptances of its
blocks, and enough commits in a row without any start it.
-/

namespace VecnoIndexer

open VecnoIndexer.Sql
open VecnoIndexer.Collections

/-- An element of `blocks_queue`. -/
structure BlockData where
  block : RpcBlock
  synced : Bool
  deriving DecidableEq, Repr

/-- The local variables of `process_blocks`. -/
structure BlockLoop where
  firstBlock : Bool
  vcpStarted : Bool
  blocks : List Block
  blocksParents : List BlockParent
  checkpointBlocks : List CheckpointBlock
  lastCommitTime : ℕ
  noopDeleteCount : ℕ
  deriving DecidableEq, Repr

/-- What an iteration reads: the popped block, if any, the clock, and whether the
timestamp of the batch's last block is one that can be formatted. -/
structure BlockInput where
  popped : Option BlockData
  now : ℕ
  commitNow : ℕ
  timestampValid : Bool
  deriving DecidableEq, Repr

def noopDeletesBeforeVcp : ℕ := 10

def blocksBatchSize (batchScale : BatchScale) : ℕ :=
  batchScale.scaled 800

/-! ## Statements -/

def insertBlocks (batchScale : BatchScale) (values : List Block) : DbM Nat :=
  forPieces (insertInto blocksTable) (chunks (min (batchScale.scaled 200) 3500) values)

def insertBlockParents (batchScale : BatchScale) (values : List BlockParent) : DbM Nat :=
  forPieces (insertInto blockParentTable) (chunks (min (batchScale.scaled 400) 10000) values)

def clearBatchSize (batchScale : BatchScale) : ℕ :=
  min (batchScale.scaled 100) 50000

/-- `delete_transaction_acceptances` of the block processor. -/
def clearTransactionAcceptances (batchScale : BatchScale) (blockHashes : List Hash) : DbM Nat :=
  forPieces deleteTransactionAcceptances (chunks (clearBatchSize batchScale) blockHashes)

/-! ## One iteration -/

namespace BlockLoop

/-- The variables before the first iteration. -/
def start (now : ℕ) : BlockLoop where
  firstBlock := true
  vcpStarted := false
  blocks := []
  blocksParents := []
  checkpointBlocks := []
  lastCommitTime := now
  noopDeleteCount := 0

/-- The notification of a block. -/
def notification (block : RpcBlock) : CheckpointBlock where
  origin := .blocks
  hash := block.header.hash
  timestamp := block.header.timestamp.toNat
  daaScore := block.header.daaScore.toNat
  blueScore := block.header.blueScore.toNat

/-- Take a popped block into the batch. Mapping it may panic. -/
def receive (cliArgs : CliArgs) (loop : BlockLoop) (block : RpcBlock) : Option BlockLoop := do
  let mapper := VecnoDbMapper.new cliArgs
  let rows ←
    (if cliArgs.isDisabled .blocksTable then pure []
    else (mapper.mapBlock block).map fun row => [row])
  let parents :=
    if cliArgs.isDisabled .blockParentTable then [] else VecnoDbMapper.mapBlockParents block
  pure { loop with
    blocks := loop.blocks ++ rows
    blocksParents := loop.blocksParents ++ parents
    checkpointBlocks := loop.checkpointBlocks ++ [notification block] }

/-- The batch is committed. -/
def IsDue (cliArgs : CliArgs) (loop : BlockLoop) (now : ℕ) : Prop :=
  blocksBatchSize cliArgs.batchScale ≤ loop.checkpointBlocks.length ∨
    (loop.checkpointBlocks ≠ [] ∧ 2 < secondsSince loop.lastCommitTime now)

instance (cliArgs : CliArgs) (loop : BlockLoop) (now : ℕ) : Decidable (loop.IsDue cliArgs now) :=
  inferInstanceAs (Decidable (_ ∨ _))

/-- The hashes whose acceptances a commit deletes. The first block's are not re-added
by the virtual chain processor. -/
def clearedHashes (loop : BlockLoop) : List Hash :=
  (loop.checkpointBlocks.drop (if loop.firstBlock then 1 else 0)).map CheckpointBlock.hash

/-- The counter after a commit that deleted some acceptances. -/
def countNoop (settings : Settings) (loop : BlockLoop) (synced : Bool) (tasDeleted : ℕ) :
    BlockLoop :=
  let noopDeleteCount :=
    if (settings.disableVcpWaitForSync || synced) && tasDeleted = 0 then loop.noopDeleteCount + 1
    else 0
  { loop with
    firstBlock := false
    noopDeleteCount
    vcpStarted := decide (noopDeletesBeforeVcp ≤ noopDeleteCount) }

/-- The part of a commit that precedes the virtual chain processor. -/
def clearAcceptances (settings : Settings) (loop : BlockLoop) (synced : Bool) : DbM BlockLoop :=
  if !loop.vcpStarted && !settings.cliArgs.isDisabled .virtualChainProcessing then do
    let tasDeleted ← clearTransactionAcceptances settings.cliArgs.batchScale loop.clearedHashes
    pure (loop.countNoop settings synced tasDeleted)
  else
    pure loop

/-- The rows of a batch. -/
def insertBatch (cliArgs : CliArgs) (loop : BlockLoop) : DbM Unit := do
  let _blocksInserted ←
    (if cliArgs.isDisabled .blocksTable then pure 0
    else insertBlocks cliArgs.batchScale loop.blocks)
  let _blockParentsInserted ←
    (if cliArgs.isDisabled .blockParentTable then pure 0
    else insertBlockParents cliArgs.batchScale loop.blocksParents)
  pure ()

/-- A commit. Its notifications are pushed at the end, so they are those of the batch. -/
def commit (settings : Settings) (loop : BlockLoop) (synced : Bool) (input : BlockInput) :
    DbM BlockLoop := do
  loop.insertBatch settings.cliArgs
  if input.timestampValid then do
    let counted ← loop.clearAcceptances settings synced
    pure { counted with
      blocks := []
      blocksParents := []
      checkpointBlocks := []
      lastCommitTime := input.commitNow }
  else
    Session.die

/-- One iteration, with the notifications it pushes. -/
def iterate (settings : Settings) (loop : BlockLoop) (input : BlockInput) :
    DbM (BlockLoop × List CheckpointBlock) :=
  match input.popped with
  | none => pure (loop, [])
  | some blockData =>
      match loop.receive settings.cliArgs blockData.block with
      | none => Session.die
      | some received =>
          if received.IsDue settings.cliArgs input.now then do
            let committed ← received.commit settings blockData.synced input
            pure (committed, received.checkpointBlocks)
          else
            pure (received, [])

end BlockLoop

/-! ## What the statements do -/

section Statements

variable {batchScale : BatchScale} {db after : Db} {script rest : Script} {total : ℕ}

theorem clearBatchSize_pos (batchScale : BatchScale) : 0 < clearBatchSize batchScale :=
  lt_min (batchScale.scaled_pos (by decide)) (by decide)

theorem eq_of_done_insertBlocks {values : List Block}
    (ran : Session.run (insertBlocks batchScale values) db script = .done total after rest) :
    after = blocksTable.insert values db := by
  have inserted := eq_of_done_insertPieces ran
  rwa [flatten_chunks (lt_min (batchScale.scaled_pos (by decide)) (by decide))] at inserted

theorem eq_of_done_insertBlockParents {values : List BlockParent}
    (ran : Session.run (insertBlockParents batchScale values) db script =
      .done total after rest) :
    after = blockParentTable.insert values db := by
  have inserted := eq_of_done_insertPieces ran
  rwa [flatten_chunks (lt_min (batchScale.scaled_pos (by decide)) (by decide))] at inserted

/-- The number of rows a series of deletes affects. -/
theorem total_of_done_deletePieces {pieces : List (List Hash)}
    (ran : Session.run (forPieces deleteTransactionAcceptances pieces) db script =
      .done total after rest) :
    total + after.transactionsAcceptances.rows.length =
      db.transactionsAcceptances.rows.length := by
  induction pieces generalizing db script total with
  | nil =>
      cases ran
      exact Nat.zero_add _
  | cons piece later ih =>
      obtain ⟨affected, middle, left, pieceRan, ran⟩ := Session.done_of_run_bind ran
      obtain ⟨remaining, final, last, laterRan, ran⟩ := Session.done_of_run_bind ran
      cases ran
      have executed := Session.done_of_run_unwrap pieceRan
      unfold deleteTransactionAcceptances at executed
      cases Session.executed_of_run_statement executed
      have restCount := ih laterRan
      have pieceCount := Table.countWhere_add_length db.transactionsAcceptances
        (TransactionAcceptance.InBlocks piece)
      simp only at restCount
      omega

end Statements

/-! ## What an iteration does -/

namespace BlockLoop

variable {settings : Settings} {loop after : BlockLoop} {synced : Bool} {input : BlockInput}
  {db final : Db} {script rest : Script} {pushed : List CheckpointBlock}

/-- A block taken into the batch changes only the pending rows. -/
theorem receive_eq {cliArgs : CliArgs} {block : RpcBlock} {received : BlockLoop}
    (taken : loop.receive cliArgs block = some received) :
    ∃ rows parents, received = { loop with
      blocks := rows
      blocksParents := parents
      checkpointBlocks := loop.checkpointBlocks ++ [notification block] } := by
  rw [receive, Option.bind_eq_bind, Option.bind_eq_some_iff] at taken
  obtain ⟨rows, _, eq⟩ := taken
  cases eq
  exact ⟨_, _, rfl⟩

/-- The database with the rows of a batch. -/
def inserted (cliArgs : CliArgs) (loop : BlockLoop) (db : Db) : Db :=
  let withBlocks :=
    if cliArgs.isDisabled .blocksTable then db else blocksTable.insert loop.blocks db
  if cliArgs.isDisabled .blockParentTable then withBlocks
  else blockParentTable.insert loop.blocksParents withBlocks

theorem eq_of_done_insertBatch {cliArgs : CliArgs}
    (ran : Session.run (loop.insertBatch cliArgs) db script = .done () final rest) :
    final = loop.inserted cliArgs db := by
  unfold insertBatch at ran
  obtain ⟨_, middle, left, blocksRan, ran⟩ := Session.done_of_run_bind ran
  obtain ⟨_, last, lastRest, parentsRan, ran⟩ := Session.done_of_run_bind ran
  cases ran
  have withBlocks : middle =
      if cliArgs.isDisabled .blocksTable then db else blocksTable.insert loop.blocks db := by
    split_ifs at blocksRan ⊢
    · cases blocksRan
      rfl
    · exact eq_of_done_insertBlocks blocksRan
  unfold inserted
  rw [← withBlocks]
  split_ifs at parentsRan ⊢
  · cases parentsRan
    rfl
  · exact eq_of_done_insertBlockParents parentsRan

theorem done_commit
    (ran : Session.run (loop.commit settings synced input) db script = .done after final rest) :
    ∃ counted left, Session.run (loop.clearAcceptances settings synced)
        (loop.inserted settings.cliArgs db) left = .done counted final rest ∧
      after = { counted with
        blocks := []
        blocksParents := []
        checkpointBlocks := []
        lastCommitTime := input.commitNow } := by
  obtain ⟨_, middle, left, insertRan, ran⟩ := Session.done_of_run_bind ran
  have insertedEq := eq_of_done_insertBatch insertRan
  split at ran
  · obtain ⟨counted, last, _, clearRan, ran⟩ := Session.done_of_run_bind ran
    cases ran
    exact ⟨counted, left, insertedEq ▸ clearRan, rfl⟩
  · cases ran

/-- An iteration that returns has popped nothing, or taken the block into the batch,
and perhaps committed it. -/
theorem done_iterate
    (ran : Session.run (loop.iterate settings input) db script = .done (after, pushed) final rest) :
    (input.popped = none ∧ after = loop ∧ pushed = [] ∧ final = db) ∨
    ∃ blockData received, input.popped = some blockData ∧
      loop.receive settings.cliArgs blockData.block = some received ∧
      ((after = received ∧ pushed = [] ∧ final = db) ∨
        (pushed = received.checkpointBlocks ∧ ∃ last,
          Session.run (received.commit settings blockData.synced input) db script =
            .done after final last)) := by
  unfold iterate at ran
  cases popped : input.popped with
  | none =>
      rw [popped] at ran
      cases ran
      exact Or.inl ⟨rfl, rfl, rfl, rfl⟩
  | some blockData =>
      rw [popped] at ran
      simp only at ran
      cases taken : loop.receive settings.cliArgs blockData.block with
      | none =>
          rw [taken] at ran
          cases ran
      | some received =>
          rw [taken] at ran
          refine Or.inr ⟨blockData, received, rfl, taken, ?_⟩
          simp only at ran
          split at ran
          · obtain ⟨committed, _, _, commitRan, ran⟩ := Session.done_of_run_bind ran
            cases ran
            exact Or.inr ⟨rfl, rest, commitRan⟩
          · cases ran
            exact Or.inl ⟨rfl, rfl, rfl⟩

end BlockLoop

end VecnoIndexer
