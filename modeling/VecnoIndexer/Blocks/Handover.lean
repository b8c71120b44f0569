import VecnoIndexer.Prune.Acceptances
import VecnoIndexer.VirtualChain.Polls

/-!
# Handing over to the virtual chain processor

Until `start_vcp` is set nothing inserts acceptances: the virtual chain processor
sleeps and the pruner only deletes.  Every commit deletes the acceptances of its
blocks, the first popped block excepted, so none is left of the blocks committed so
far when the flag is set.  The counter of commits without deletions is a suffix of
their history.
-/

namespace VecnoIndexer

open VecnoIndexer.Sql
open VecnoIndexer.Transition

/-- A commit: the acceptance rows it deleted, and whether its last block was synced. -/
structure BlockCommit where
  rowsDeleted : ℕ
  synced : Bool
  deriving DecidableEq, Repr

/-- The database, the processors of blocks and of the virtual chain while they are alive,
the flag between them, and what the former has done so far: the blocks popped and
committed, in order, and the commits, newest first. -/
structure HandoverWorld where
  db : Db
  loop : Option BlockLoop
  vcp : Option VcpState
  startVcp : Bool
  popped : List Hash
  committed : List Hash
  commits : List BlockCommit

/-- A step of some component. -/
inductive HandoverEvent where
  /-- An iteration of the block processor. -/
  | blocks (input : BlockInput) (script : Script)
  /-- An iteration of the virtual chain processor. -/
  | poll (poll : VcpPoll)
  /-- A run of the pruner. -/
  | prune (earliest : Int) (config : PruningConfig) (input : PruneInput)
  /-- A step of a component that does not write acceptances. -/
  | other (change : Db → Db)

namespace HandoverWorld

/-- Nothing is popped and the flag is down. -/
structure Fresh (world : HandoverWorld) : Prop where
  loop : ∀ loop, world.loop = some loop → ∃ now, loop = BlockLoop.start now
  startVcp : world.startVcp = false
  popped : world.popped = []
  committed : world.committed = []
  commits : world.commits = []

/-- The world after an iteration of the block processor that returned. -/
def afterBlocks (world : HandoverWorld) (input : BlockInput) (after : BlockLoop)
    (pushed : List CheckpointBlock) (db : Db) : HandoverWorld :=
  { world with
    db
    loop := some after
    startVcp := world.startVcp || after.vcpStarted
    popped := world.popped ++ input.popped.toList.map fun blockData => blockData.block.header.hash
    committed := world.committed ++ pushed.map CheckpointBlock.hash
    commits :=
      if pushed = [] then world.commits
      else
        { rowsDeleted := world.db.transactionsAcceptances.rows.length -
            db.transactionsAcceptances.rows.length
          synced := input.popped.any BlockData.synced } :: world.commits }

def step (settings : Settings) (world : HandoverWorld) : HandoverEvent → HandoverWorld
  | .blocks input script =>
      match world.loop with
      | none => world
      | some loop =>
          match Session.run (loop.iterate settings input) world.db script with
          | .done (after, pushed) db _ => world.afterBlocks input after pushed db
          | .failed _ db _ => { world with db, loop := none }
          | .killed db => { world with db, loop := none }
  | .poll poll =>
      if world.startVcp then
        let polled := VcpWorld.poll settings.cliArgs ⟨world.db, world.vcp⟩ poll
        { world with db := polled.db, vcp := polled.vcp }
      else
        world
  | .prune earliest config input =>
      { world with db := afterPrune earliest settings.cliArgs config world.db input }
  | .other change =>
      { world with db := (change world.db).withAcceptances world.db.transactionsAcceptances }

/-- The commits deleted nothing and counted as synced. -/
def Quiet (settings : Settings) (commits : List BlockCommit) : Prop :=
  ∀ commit ∈ commits, commit.rowsDeleted = 0 ∧
    (settings.disableVcpWaitForSync = true ∨ commit.synced = true)

/-- The last commit is the last of ten quiet ones in a row, and no acceptance of a
committed block is left but of the first popped. -/
def Clean (settings : Settings) (world next : HandoverWorld) : Prop :=
  (∃ commit, next.commits = commit :: world.commits) ∧
  (∃ last earlier, next.commits = last ++ earlier ∧
    last.length = noopDeletesBeforeVcp ∧ Quiet settings last) ∧
  ∀ row ∈ next.db.transactionsAcceptances, ∀ hash, row.blockHash = some hash →
    hash ∈ next.committed → next.popped.head? = some hash

/-- A step that sets the flag is a clean commit. -/
def HandsOver (settings : Settings) (world : HandoverWorld) (event : HandoverEvent) : Prop :=
  world.startVcp = false → (world.step settings event).startVcp = true →
    Clean settings world (world.step settings event)

/-! ## The state before the hand-over -/

/-- The flag is down: a batch holds the blocks popped since the last commit, the counter
counts the last commits, and no committed block but the first has acceptances. -/
structure Waiting (settings : Settings) (world : HandoverWorld) (loop : BlockLoop) : Prop where
  notStarted : loop.vcpStarted = false
  popped : world.popped =
    world.committed ++ loop.checkpointBlocks.map CheckpointBlock.hash
  first : loop.firstBlock = true ↔ world.committed = []
  few : loop.noopDeleteCount < noopDeletesBeforeVcp
  quiet : ∃ last earlier, world.commits = last ++ earlier ∧
    last.length = loop.noopDeleteCount ∧ Quiet settings last
  cleared : ∀ row ∈ world.db.transactionsAcceptances, ∀ hash, row.blockHash = some hash →
    hash ∉ world.committed.drop 1

/-- As long as the flag is down, a live loop is waiting. -/
def Waits (settings : Settings) (world : HandoverWorld) : Prop :=
  world.startVcp = false → ∀ loop, world.loop = some loop → world.Waiting settings loop

variable {settings : Settings} {world : HandoverWorld} {loop : BlockLoop}

theorem Fresh.waits (fresh : world.Fresh) : world.Waits settings := by
  intro _ loop running
  obtain ⟨now, rfl⟩ := fresh.loop loop running
  constructor
  · rfl
  · rw [fresh.popped, fresh.committed]
    rfl
  · simp [fresh.committed, BlockLoop.start]
  · exact Nat.succ_pos _
  · exact ⟨[], world.commits, rfl, rfl, fun commit commitMem => absurd commitMem List.not_mem_nil⟩
  · intro _ _ _ _
    rw [fresh.committed]
    exact List.not_mem_nil

/-- Fewer acceptances do not matter. -/
theorem Waiting.shrink {db : Db} (waiting : world.Waiting settings loop)
    (subset : ∀ row ∈ db.transactionsAcceptances, row ∈ world.db.transactionsAcceptances) :
    Waiting settings { world with db } loop where
  notStarted := waiting.notStarted
  popped := waiting.popped
  first := waiting.first
  few := waiting.few
  quiet := waiting.quiet
  cleared row rowMem := waiting.cleared row (subset row rowMem)

/-- Only the acceptances and what the block processor has done matter. -/
theorem Waiting.congr {next : HandoverWorld} (waiting : world.Waiting settings loop)
    (acceptances : next.db.transactionsAcceptances = world.db.transactionsAcceptances)
    (popped : next.popped = world.popped) (committed : next.committed = world.committed)
    (commits : next.commits = world.commits) : next.Waiting settings loop where
  notStarted := waiting.notStarted
  popped := by rw [popped, committed, waiting.popped]
  first := committed ▸ waiting.first
  few := waiting.few
  quiet := commits ▸ waiting.quiet
  cleared := acceptances ▸ committed ▸ waiting.cleared

end HandoverWorld

/-! ## What a commit does to the acceptances -/

namespace BlockLoop

variable {settings : Settings} {loop after : BlockLoop} {synced : Bool} {input : BlockInput}
  {db final : Db} {script rest : Script}

/-- Inserting a batch leaves the acceptances alone. -/
theorem inserted_transactionsAcceptances (cliArgs : CliArgs) (loop : BlockLoop) (db : Db) :
    (loop.inserted cliArgs db).transactionsAcceptances = db.transactionsAcceptances := by
  unfold inserted
  split_ifs <;> rfl

/-- A commit before the hand-over deletes the acceptances of its blocks, but of the
first block of all, and counts. -/
theorem done_commit_of_waiting
    (enabled : settings.cliArgs.isDisabled .virtualChainProcessing = false)
    (notStarted : loop.vcpStarted = false)
    (ran : Session.run (loop.commit settings synced input) db script = .done after final rest) :
    ∃ tasDeleted, tasDeleted + final.transactionsAcceptances.rows.length =
        db.transactionsAcceptances.rows.length ∧
      after = { loop.countNoop settings synced tasDeleted with
        blocks := []
        blocksParents := []
        checkpointBlocks := []
        lastCommitTime := input.commitNow } ∧
      ∀ row, row ∈ final.transactionsAcceptances ↔ row ∈ db.transactionsAcceptances ∧
        ∀ hash, row.blockHash = some hash → hash ∉ loop.clearedHashes := by
  obtain ⟨counted, left, ran, afterEq⟩ := done_commit ran
  unfold clearAcceptances at ran
  simp only [notStarted, enabled, Bool.not_false, Bool.and_self, if_true] at ran
  obtain ⟨tasDeleted, middle, last, clearRan, ran⟩ := Session.done_of_run_bind ran
  cases ran
  have total := total_of_done_deletePieces clearRan
  obtain ⟨count, acceptances, completes, mem_iff⟩ :=
    deletesBlocks_clearTransactionAcceptances settings.cliArgs.batchScale loop.clearedHashes
      (loop.inserted settings.cliArgs db)
  obtain ⟨_, rfl⟩ := (strict_clearTransactionAcceptances _ _).eq_of_done completes clearRan
  rw [inserted_transactionsAcceptances] at total mem_iff
  exact ⟨tasDeleted, total, afterEq, mem_iff⟩

end BlockLoop

/-! ## Steps -/

namespace HandoverWorld

variable {settings : Settings} {world : HandoverWorld} {loop after received : BlockLoop}
  {input : BlockInput} {blockData : BlockData} {db : Db} {script rest : Script}

/-- What a commit leaves, whether or not it sets the flag. -/
structure Committed (settings : Settings) (world next : HandoverWorld) (after : BlockLoop) :
    Prop where
  popped : next.popped = next.committed
  nonempty : next.committed ≠ []
  pending : after.checkpointBlocks = []
  notFirst : after.firstBlock = false
  commits : ∃ commit, next.commits = commit :: world.commits
  quiet : ∃ last earlier, next.commits = last ++ earlier ∧
    last.length = after.noopDeleteCount ∧ Quiet settings last
  few : after.noopDeleteCount ≤ noopDeletesBeforeVcp
  started : after.vcpStarted = decide (noopDeletesBeforeVcp ≤ after.noopDeleteCount)
  cleared : ∀ row ∈ next.db.transactionsAcceptances, ∀ hash, row.blockHash = some hash →
    hash ∉ next.committed.drop 1

/-- The counter counts a suffix of the commits. -/
theorem quiet_countNoop {commits : List BlockCommit} {tasDeleted : ℕ}
    (quiet : ∃ last earlier, commits = last ++ earlier ∧
      last.length = loop.noopDeleteCount ∧ Quiet settings last) :
    ∃ last earlier, (⟨tasDeleted, blockData.synced⟩ : BlockCommit) :: commits = last ++ earlier ∧
      last.length = (loop.countNoop settings blockData.synced tasDeleted).noopDeleteCount ∧
      Quiet settings last := by
  obtain ⟨last, earlier, commitsEq, lengthEq, held⟩ := quiet
  by_cases counts : ((settings.disableVcpWaitForSync || blockData.synced) && tasDeleted = 0) = true
  · refine ⟨⟨tasDeleted, blockData.synced⟩ :: last, earlier, ?_, ?_, ?_⟩
    · rw [commitsEq, List.cons_append]
    · simp only [BlockLoop.countNoop, counts, if_true, List.length_cons, lengthEq]
    · intro commit commitMem
      rcases List.mem_cons.mp commitMem with rfl | older
      · rw [Bool.and_eq_true, Bool.or_eq_true, decide_eq_true_eq] at counts
        exact counts.symm
      · exact held commit older
  · refine ⟨[], _, rfl, ?_, fun commit commitMem => absurd commitMem List.not_mem_nil⟩
    simp only [BlockLoop.countNoop, counts, if_false, List.length_nil, Bool.false_eq_true]

theorem Waiting.receive (waiting : world.Waiting settings loop)
    (taken : loop.receive settings.cliArgs blockData.block = some received) :
    Waiting settings { world with popped := world.popped ++ [blockData.block.header.hash] }
      received := by
  obtain ⟨rows, parents, rfl⟩ := BlockLoop.receive_eq taken
  constructor
  · exact waiting.notStarted
  · simp [waiting.popped, BlockLoop.notification]
  · exact waiting.first
  · exact waiting.few
  · exact waiting.quiet
  · exact waiting.cleared

/-- The blocks committed before and those of the batch whose acceptances it deletes are
all but the first. -/
theorem Waiting.drop_committed (waiting : world.Waiting settings loop) :
    (world.committed ++ loop.checkpointBlocks.map CheckpointBlock.hash).drop 1 =
      world.committed.drop 1 ++ loop.clearedHashes := by
  unfold BlockLoop.clearedHashes
  by_cases first : loop.firstBlock = true
  · rw [waiting.first.mp first, if_pos first, List.map_drop]
    rfl
  · have some : world.committed ≠ [] := fun none => first (waiting.first.mpr none)
    rw [if_neg first, List.drop_zero]
    exact List.drop_append_of_le_length (List.length_pos_of_ne_nil some)

/-- A commit of a waiting loop. -/
theorem Waiting.commit (enabled : settings.cliArgs.isDisabled .virtualChainProcessing = false)
    (waiting : Waiting settings { world with
      popped := world.popped ++ [blockData.block.header.hash] } received)
    (nonempty : received.checkpointBlocks ≠ []) (popped : input.popped = some blockData)
    (ran : Session.run (received.commit settings blockData.synced input) world.db script =
      .done after db rest) :
    Committed settings world
      (world.afterBlocks input after received.checkpointBlocks db) after := by
  obtain ⟨tasDeleted, total, rfl, mem_iff⟩ :=
    BlockLoop.done_commit_of_waiting enabled waiting.notStarted ran
  have commitsEq : (world.afterBlocks input
      { received.countNoop settings blockData.synced tasDeleted with
        blocks := []
        blocksParents := []
        checkpointBlocks := []
        lastCommitTime := input.commitNow } received.checkpointBlocks db).commits =
      ⟨tasDeleted, blockData.synced⟩ :: world.commits := by
    simp only [afterBlocks, if_neg nonempty, popped, Option.any_some, ← total,
      Nat.add_sub_cancel]
  constructor
  · rw [afterBlocks]
    simp only [popped, Option.toList_some, List.map_cons, List.map_nil]
    exact waiting.popped
  · intro none
    apply nonempty
    exact List.map_eq_nil_iff.mp (List.append_eq_nil_iff.mp none).2
  · rfl
  · rfl
  · exact ⟨_, commitsEq⟩
  · rw [commitsEq]
    exact quiet_countNoop waiting.quiet
  · have few := waiting.few
    simp only [BlockLoop.countNoop]
    split_ifs <;> omega
  · rfl
  · intro row rowMem hash rowHash
    change hash ∉ (world.committed ++ received.checkpointBlocks.map CheckpointBlock.hash).drop 1
    obtain ⟨stored, outside⟩ := (mem_iff row).mp rowMem
    rw [waiting.drop_committed, List.mem_append, not_or]
    exact ⟨waiting.cleared row stored hash rowHash, outside hash rowHash⟩

/-- A commit that does not set the flag leaves a waiting loop. -/
theorem Committed.waiting {next : HandoverWorld} (committed : Committed settings world next after)
    (notStarted : after.vcpStarted = false) : next.Waiting settings after := by
  constructor
  · exact notStarted
  · rw [committed.pending, committed.popped, List.map_nil, List.append_nil]
  · rw [committed.notFirst]
    simp [committed.nonempty]
  · rw [committed.started, decide_eq_false_iff_not] at notStarted
    omega
  · exact committed.quiet
  · exact committed.cleared

/-- A commit that sets the flag is clean. -/
theorem Committed.clean {next : HandoverWorld} (committed : Committed settings world next after)
    (started : after.vcpStarted = true) : Clean settings world next := by
  refine ⟨committed.commits, ?_, ?_⟩
  · obtain ⟨last, earlier, commitsEq, lengthEq, quiet⟩ := committed.quiet
    rw [committed.started, decide_eq_true_eq] at started
    have few := committed.few
    exact ⟨last, earlier, commitsEq, by omega, quiet⟩
  · intro row rowMem hash rowHash hashMem
    have outside := committed.cleared row rowMem hash rowHash
    rw [committed.popped]
    cases blocks : next.committed with
    | nil => exact absurd blocks committed.nonempty
    | cons first others =>
        rw [blocks] at hashMem outside
        rcases List.mem_cons.mp hashMem with rfl | later
        · rfl
        · exact absurd later outside

/-- An iteration of a waiting loop that returns. -/
theorem Waiting.iterate (enabled : settings.cliArgs.isDisabled .virtualChainProcessing = false)
    (waiting : world.Waiting settings loop) (down : world.startVcp = false)
    {pushed : List CheckpointBlock}
    (ran : Session.run (loop.iterate settings input) world.db script =
      .done (after, pushed) db rest) :
    ((world.afterBlocks input after pushed db).startVcp = true →
        Clean settings world (world.afterBlocks input after pushed db)) ∧
      ((world.afterBlocks input after pushed db).startVcp = false →
        (world.afterBlocks input after pushed db).Waiting settings after) := by
  have flag : (world.afterBlocks input after pushed db).startVcp = after.vcpStarted := by
    rw [afterBlocks, down, Bool.false_or]
  rw [flag]
  rcases BlockLoop.done_iterate ran with ⟨popped, rfl, rfl, rfl⟩ |
    ⟨blockData, received, popped, taken, ⟨rfl, rfl, rfl⟩ | ⟨rfl, _, commitRan⟩⟩
  · have same : world.afterBlocks input after [] world.db = { world with loop := some after } := by
      simp [afterBlocks, popped, waiting.notStarted]
    rw [same]
    constructor
    · exact fun up => absurd (waiting.notStarted.symm.trans up) Bool.false_ne_true
    · exact fun _ => waiting.congr rfl rfl rfl rfl
  · have kept := waiting.receive taken
    have same : world.afterBlocks input after [] world.db =
        { world with
          loop := some after
          popped := world.popped ++ [blockData.block.header.hash] } := by
      simp [afterBlocks, popped, kept.notStarted]
    rw [same]
    constructor
    · exact fun up => absurd (kept.notStarted.symm.trans up) Bool.false_ne_true
    · exact fun _ => kept.congr rfl rfl rfl rfl
  · have nonempty : received.checkpointBlocks ≠ [] := by
      obtain ⟨_, _, rfl⟩ := BlockLoop.receive_eq taken
      simp
    have committed := (waiting.receive taken).commit enabled nonempty popped commitRan
    exact ⟨committed.clean, committed.waiting⟩

/-- A step that leaves the flag down is no hand-over. -/
theorem handsOver_of_startVcp {event : HandoverEvent}
    (same : (world.step settings event).startVcp = world.startVcp) :
    HandsOver settings world event :=
  fun down up => absurd (down.symm.trans (same.symm.trans up)) Bool.false_ne_true

/-- An iteration of the block processor. -/
theorem Waits.step_blocks (enabled : settings.cliArgs.isDisabled .virtualChainProcessing = false)
    (waits : world.Waits settings) (input : BlockInput) (script : Script) :
    HandsOver settings world (.blocks input script) ∧
      (world.step settings (.blocks input script)).Waits settings := by
  cases running : world.loop with
  | none =>
      have same : world.step settings (.blocks input script) = world := by
        simp only [step, running]
      rw [same]
      exact ⟨handsOver_of_startVcp (by rw [same]), waits⟩
  | some loop =>
      cases ran : Session.run (loop.iterate settings input) world.db script with
      | killed after =>
          have same : world.step settings (.blocks input script) =
              { world with db := after, loop := none } := by
            simp only [step, running, ran]
          rw [same]
          exact ⟨handsOver_of_startVcp (by rw [same]), fun _ _ alive => nomatch alive⟩
      | failed _ after _ =>
          have same : world.step settings (.blocks input script) =
              { world with db := after, loop := none } := by
            simp only [step, running, ran]
          rw [same]
          exact ⟨handsOver_of_startVcp (by rw [same]), fun _ _ alive => nomatch alive⟩
      | done result db rest =>
          have same : world.step settings (.blocks input script) =
              world.afterBlocks input result.1 result.2 db := by
            simp only [step, running, ran]
          unfold HandsOver
          rw [same]
          by_cases down : world.startVcp = false
          · obtain ⟨clean, waiting⟩ := (waits down loop running).iterate enabled down ran
            refine ⟨fun _ => clean, ?_⟩
            rintro stillDown _ ⟨⟩
            exact waiting stillDown
          · constructor
            · exact fun wasDown => absurd wasDown down
            · intro stillDown
              rw [afterBlocks, Bool.or_eq_false_iff] at stillDown
              exact absurd stillDown.1 down

/-- A step of another component that adds no acceptance before the flag is set. -/
theorem Waits.step_aside (waits : world.Waits settings) {event : HandoverEvent} {next : Db}
    {vcp : Option VcpState} (stepEq : world.step settings event = { world with db := next, vcp })
    (subset : world.startVcp = false →
      ∀ row ∈ next.transactionsAcceptances, row ∈ world.db.transactionsAcceptances) :
    HandsOver settings world event ∧ (world.step settings event).Waits settings := by
  refine ⟨handsOver_of_startVcp (by rw [stepEq]), ?_⟩
  rw [stepEq]
  intro down loop running
  exact ((waits down loop running).shrink (subset down)).congr rfl rfl rfl rfl

/-- The step lemma. -/
theorem Waits.step (enabled : settings.cliArgs.isDisabled .virtualChainProcessing = false)
    (waits : world.Waits settings) (event : HandoverEvent) :
    HandsOver settings world event ∧ (world.step settings event).Waits settings := by
  cases event with
  | blocks input script => exact waits.step_blocks enabled input script
  | poll poll =>
      by_cases started : world.startVcp = true
      · have polled : world.step settings (.poll poll) =
            { world with
              db := (VcpWorld.poll settings.cliArgs ⟨world.db, world.vcp⟩ poll).db
              vcp := (VcpWorld.poll settings.cliArgs ⟨world.db, world.vcp⟩ poll).vcp } :=
          if_pos started
        apply waits.step_aside polled
        exact fun down => absurd (down.symm.trans started) Bool.false_ne_true
      · have same : world.step settings (.poll poll) = world := if_neg started
        rw [same]
        exact ⟨handsOver_of_startVcp (by rw [same]), waits⟩
  | prune earliest config input =>
      apply waits.step_aside rfl
      exact fun _ => acceptances_subset_of_prune world.db
  | other change =>
      apply waits.step_aside rfl
      exact fun _ row rowMem => rowMem

/-- In every run the flag is set only by the last of ten quiet commits in a row, when no
acceptance of a committed block is left but of the first popped. -/
theorem handsOver_of_run (enabled : settings.cliArgs.isDisabled .virtualChainProcessing = false)
    (fresh : world.Fresh) (events : List HandoverEvent) :
    Along (HandoverWorld.step settings) (HandsOver settings) world events := by
  refine @Along.of_invariant _ _ _ (fun _ _ => True) _ (Waits settings) ?_ _ _ fresh.waits ?_
  · exact fun middle event waits _ => waits.step enabled event
  · exact along_of_forall world fun _ _ => trivial

end HandoverWorld

/-! ## A hand-over -/

/-- The first and the third of the blocks have an acceptance. -/
def handoverWorld : HandoverWorld where
  db := { Db.empty with
    transactionsAcceptances := Table.empty.insertAll [⟨some 9, some 1⟩, ⟨some 10, some 3⟩] }
  loop := some (.start 0)
  vcp := none
  startVcp := false
  popped := []
  committed := []
  commits := []

/-- Every ten seconds a block is popped, and so committed. -/
def handoverEvent (n : ℕ) : HandoverEvent :=
  .blocks
    { popped := some ⟨plainBlock (BitVec.ofNat 256 n) 0 0, true⟩
      now := n * 10000000000
      commitNow := n * 10000000000
      timestampValid := true }
    fun _ => .succeeds

def handoverSettings : Settings where
  cliArgs := .standard
  netBps := 1
  checkpoint := 1
  disableVcpWaitForSync := false

/-- Ten commits after the third block's acceptance is deleted. -/
def handoverEvents : List HandoverEvent :=
  (List.range' 1 13).map handoverEvent

theorem handoverEvents_handsOver :
    Along (HandoverWorld.step handoverSettings) (HandoverWorld.HandsOver handoverSettings)
        handoverWorld handoverEvents ∧
      (runFrom (HandoverWorld.step handoverSettings) handoverWorld handoverEvents).startVcp =
        true := by
  constructor
  · apply HandoverWorld.handsOver_of_run rfl _ handoverEvents
    constructor
    · rintro loop ⟨⟩
      exact ⟨0, rfl⟩
    all_goals rfl
  · decide +kernel

end VecnoIndexer
