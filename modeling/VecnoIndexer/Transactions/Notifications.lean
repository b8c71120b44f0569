import VecnoIndexer.Transactions.Indexing
import VecnoIndexer.VirtualChain.Acceptances

/-!
# Notifications follow commits

The notifications a processor pushes are those of the blocks it popped, in order.  Each
is pushed after a commit that leaves nothing of the popped blocks pending, so the rows of
its block and of every block popped before it are in the database by then.
-/

namespace VecnoIndexer

open VecnoIndexer.Sql
open VecnoIndexer.Collections
open VecnoIndexer.Transition

/-! ## Logs of notifications -/

section Log

variable {α : Type} {notification : α → CheckpointBlock} {holds weaker : Db → α → Prop}
  {popped more : List α} {notified : List PushedNotification}

/-- The notifications are those of the items popped, in order, and when one is pushed
something holds of every item popped up to its own. -/
def Shows (notification : α → CheckpointBlock) (holds : Db → α → Prop) (popped : List α)
    (notified : List PushedNotification) : Prop :=
  ∀ index entry, notified[index]? = some entry → ∃ item, popped[index]? = some item ∧
    entry.notification = notification item ∧
    ∀ earlier ∈ popped.take (index + 1), holds entry.db earlier

theorem shows_nil : Shows notification holds popped [] := by
  intro index entry found
  rw [List.getElem?_nil] at found
  contradiction

theorem Shows.mono (log : Shows notification holds popped notified)
    (implies : ∀ db, ∀ item ∈ popped, holds db item → weaker db item) :
    Shows notification weaker popped notified := by
  intro index entry found
  obtain ⟨item, itemEq, same, shown⟩ := log index entry found
  exact ⟨item, itemEq, same, fun earlier isEarlier =>
    implies entry.db earlier (List.mem_of_mem_take isEarlier) (shown earlier isEarlier)⟩

theorem Shows.pop (log : Shows notification holds popped notified) (more : List α) :
    Shows notification holds (popped ++ more) notified := by
  intro index entry found
  obtain ⟨item, itemEq, same, shown⟩ := log index entry found
  obtain ⟨inside, _⟩ := List.getElem?_eq_some_iff.mp itemEq
  refine ⟨item, ?_, same, ?_⟩
  · rw [List.getElem?_append_left inside]
    exact itemEq
  · rw [List.take_append_of_le_length inside]
    exact shown

/-- What is pushed is shown if all that was popped is. -/
theorem Shows.push (log : Shows notification holds popped notified)
    {pushed : List CheckpointBlock} {db : Db}
    (inOrder : popped.map notification = notified.map PushedNotification.notification ++ pushed)
    (shown : ∀ item ∈ popped, holds db item) :
    Shows notification holds popped (notified ++ pushed.map fun block => ⟨block, db⟩) := by
  intro index entry found
  rcases Nat.lt_or_ge index notified.length with old | new
  · rw [List.getElem?_append_left old] at found
    exact log index entry found
  · rw [List.getElem?_append_right new, List.getElem?_map] at found
    obtain ⟨block, blockEq, rfl⟩ := Option.map_eq_some_iff.mp found
    have atIndex : (popped.map notification)[index]? = some block := by
      rw [inOrder, List.getElem?_append_right (by rwa [List.length_map]), List.length_map]
      exact blockEq
    rw [List.getElem?_map] at atIndex
    obtain ⟨item, itemEq, same⟩ := Option.map_eq_some_iff.mp atIndex
    exact ⟨item, itemEq, same.symm, fun earlier isEarlier =>
      shown earlier (List.mem_of_mem_take isEarlier)⟩

end Log

/-! ## The block processor -/

/-- The rows of a block are in the enabled tables. -/
structure BlockStored (cliArgs : CliArgs) (db : Db) (block : RpcBlock) : Prop where
  row : cliArgs.isDisabled .blocksTable = false → db.blocks.HasKey block.header.hash
  parents : cliArgs.isDisabled .blockParentTable = false →
    ∀ relation ∈ VecnoDbMapper.mapBlockParents block,
      db.blockParent.HasKey (relation.blockHash, relation.parentHash)

namespace BlockLoop

variable {settings : Settings} {loop received after : BlockLoop} {block : RpcBlock}
  {synced : Bool} {input : BlockInput} {db final : Db} {script rest : Script}
  {pushed : List CheckpointBlock}

/-- The rows of a block are in the batch or in the enabled tables. -/
structure Held (cliArgs : CliArgs) (loop : BlockLoop) (db : Db) (block : RpcBlock) : Prop where
  row : cliArgs.isDisabled .blocksTable = false →
    (∃ row ∈ loop.blocks, row.hash = block.header.hash) ∨ db.blocks.HasKey block.header.hash
  parents : cliArgs.isDisabled .blockParentTable = false →
    ∀ relation ∈ VecnoDbMapper.mapBlockParents block, relation ∈ loop.blocksParents ∨
      db.blockParent.HasKey (relation.blockHash, relation.parentHash)

theorem Held.receive {cliArgs : CliArgs} {other : RpcBlock} (held : Held cliArgs loop db other)
    (taken : loop.receive cliArgs block = some received) : Held cliArgs received db other := by
  rw [BlockLoop.receive, Option.bind_eq_bind, Option.bind_eq_some_iff] at taken
  obtain ⟨rows, _, eq⟩ := taken
  cases eq
  constructor
  · intro enabled
    rcases held.row enabled with ⟨row, isHeld, same⟩ | stored
    · exact Or.inl ⟨row, List.mem_append_left rows isHeld, same⟩
    · exact Or.inr stored
  · intro enabled relation isParent
    exact (held.parents enabled relation isParent).imp_left (List.mem_append_left _)

theorem held_of_receive {cliArgs : CliArgs}
    (taken : loop.receive cliArgs block = some received) : Held cliArgs received db block := by
  rw [receive, Option.bind_eq_bind, Option.bind_eq_some_iff] at taken
  obtain ⟨rows, rowsEq, eq⟩ := taken
  cases eq
  constructor
  · intro enabled
    rw [if_neg (Bool.not_eq_true _ ▸ enabled)] at rowsEq
    obtain ⟨row, mapped, rfl⟩ := Option.map_eq_some_iff.mp rowsEq
    exact Or.inl ⟨row, List.mem_append_right _ List.mem_cons_self,
      (VecnoDbMapper.new cliArgs).mapBlock_hash mapped⟩
  · intro enabled relation isParent
    refine Or.inl (List.mem_append_right _ ?_)
    rw [if_neg (Bool.not_eq_true _ ▸ enabled)]
    exact isParent

/-- A batch that was inserted is stored. -/
theorem Held.stored {cliArgs : CliArgs} (held : Held cliArgs loop db block)
    (acceptances : Table TransactionAcceptance.uniqueKey) :
    BlockStored cliArgs ((loop.inserted cliArgs db).withAcceptances acceptances) block := by
  constructor
  · intro enabled
    have table : ((loop.inserted cliArgs db).withAcceptances acceptances).blocks =
        db.blocks.insertAll loop.blocks := by
      simp only [Db.withAcceptances, inserted, enabled, Bool.false_eq_true, if_false]
      split_ifs <;> rfl
    rw [table, Table.hasKey_insertAll]
    rcases held.row enabled with ⟨row, isHeld, same⟩ | stored
    · exact Or.inr ⟨row, isHeld, congrArg some same⟩
    · exact Or.inl stored
  · intro enabled relation isParent
    have table : ((loop.inserted cliArgs db).withAcceptances acceptances).blockParent =
        db.blockParent.insertAll loop.blocksParents := by
      simp only [Db.withAcceptances, inserted, enabled, Bool.false_eq_true, if_false]
      split_ifs <;> rfl
    rw [table, Table.hasKey_insertAll]
    rcases held.parents enabled relation isParent with isHeld | stored
    · exact Or.inr ⟨relation, isHeld, rfl⟩
    · exact Or.inl stored

theorem Held.of_stored {cliArgs : CliArgs} (stored : BlockStored cliArgs db block) :
    Held cliArgs loop db block where
  row enabled := Or.inr (stored.row enabled)
  parents enabled relation isParent := Or.inr (stored.parents enabled relation isParent)

/-- The part of a commit before the hand-over only deletes acceptances. -/
theorem done_clearAcceptances
    (ran : Session.run (loop.clearAcceptances settings synced) db script =
      .done after final rest) :
    ∃ acceptances, final = db.withAcceptances acceptances := by
  unfold clearAcceptances at ran
  split_ifs at ran
  · obtain ⟨tasDeleted, middle, left, clearRan, ran⟩ := Session.done_of_run_bind ran
    cases ran
    obtain ⟨count, acceptances, completes, _⟩ :=
      deletesBlocks_clearTransactionAcceptances settings.cliArgs.batchScale loop.clearedHashes db
    exact ⟨acceptances,
      ((strict_clearTransactionAcceptances _ _).eq_of_done completes clearRan).2⟩
  · cases ran
    exact ⟨db.transactionsAcceptances, rfl⟩

theorem sameTransactions_inserted (cliArgs : CliArgs) (loop : BlockLoop) (db : Db) :
    SameTransactions db (loop.inserted cliArgs db) := by
  unfold inserted
  split_ifs <;> exact ⟨rfl, rfl, rfl, rfl, rfl, rfl⟩

/-- An iteration of the block processor does not touch the tables of transactions. -/
theorem sameTransactions_of_iterate
    (ran : Session.run (loop.iterate settings input) db script = .done (after, pushed) final rest) :
    SameTransactions db final := by
  have unchanged : SameTransactions db db := ⟨rfl, rfl, rfl, rfl, rfl, rfl⟩
  rcases done_iterate ran with ⟨_, _, _, rfl⟩ |
    ⟨blockData, received, _, _, ⟨_, _, rfl⟩ | ⟨_, last, commitRan⟩⟩
  · exact unchanged
  · exact unchanged
  · obtain ⟨counted, left, clearRan, _⟩ := done_commit commitRan
    obtain ⟨acceptances, rfl⟩ := done_clearAcceptances clearRan
    have same := sameTransactions_inserted settings.cliArgs received db
    exact ⟨same.transactions, same.blocksTransactions, same.inputs, same.outputs, same.addresses,
      same.scripts⟩

end BlockLoop

/-! ## The two processors -/

namespace IndexingWorld

variable {settings : Settings} {world : IndexingWorld} {db : Db}

/-- The block processor holds or has stored the blocks popped, and has pushed the
notifications it does not hold. -/
structure BlocksSide (settings : Settings) (world : IndexingWorld) : Prop where
  held : ∀ loop, world.blockLoop = some loop →
    (∀ blockData ∈ world.poppedBlocks,
      BlockLoop.Held settings.cliArgs loop world.db blockData.block) ∧
    world.poppedBlocks.map (fun blockData => BlockLoop.notification blockData.block) =
      world.blocksNotified.map PushedNotification.notification ++ loop.checkpointBlocks
  shown : Shows (fun blockData => BlockLoop.notification blockData.block)
    (fun db blockData => BlockStored settings.cliArgs db blockData.block)
    world.poppedBlocks world.blocksNotified

/-- The relation of a transaction is stored, and so are the rows of a popped transaction
with its id. -/
def ShownAs (cliArgs : CliArgs) (popped : List RpcTransaction) (db : Db)
    (transaction : RpcTransaction) : Prop :=
  ∃ verboseData, transaction.verboseData = some verboseData ∧
    (cliArgs.isDisabled .blocksTransactionsTable = false →
      db.blocksTransactions.HasKey (verboseData.blockHash, verboseData.transactionId)) ∧
    ∃ other ∈ popped, other.transactionId = some verboseData.transactionId ∧
      Stored cliArgs db other verboseData.transactionId

structure TransactionsSide (settings : Settings) (start : Db) (world : IndexingWorld) :
    Prop where
  tracked : ∀ loop, world.transactionLoop = some loop →
    (∃ mapped, TransactionLoop.Tracks settings.cliArgs start world.db loop world.transactions
      mapped) ∧
    world.poppedTransactions.map TransactionLoop.notification =
      world.transactionsNotified.map PushedNotification.notification ++ loop.checkpointBlocks
  shown : Shows TransactionLoop.notification
    (fun db data => ∀ transaction ∈ data.transactions,
      ShownAs settings.cliArgs world.transactions db transaction)
    world.poppedTransactions world.transactionsNotified

/-! ## The block processor takes a step -/

theorem BlocksSide.iterate (side : world.BlocksSide settings) {loop after : BlockLoop}
    (running : world.blockLoop = some loop) {input : BlockInput} {pushed : List CheckpointBlock}
    {script rest : Script}
    (ran : Session.run (loop.iterate settings input) world.db script =
      .done (after, pushed) db rest) :
    (world.afterBlocks input after pushed db).BlocksSide settings := by
  obtain ⟨held, inOrder⟩ := side.held loop running
  rcases BlockLoop.done_iterate ran with ⟨nothing, rfl, rfl, rfl⟩ |
    ⟨blockData, received, isPopped, taken, committed⟩
  · constructor
    · rintro other ⟨⟩
      simp only [afterBlocks, nothing, Option.toList_none, List.map_nil, List.append_nil]
      exact ⟨held, inOrder⟩
    · simp only [afterBlocks, nothing, Option.toList_none, List.map_nil, List.append_nil]
      exact side.shown
  · have allHeld : ∀ other ∈ world.poppedBlocks ++ [blockData],
        BlockLoop.Held settings.cliArgs received world.db other.block := by
      intro other isPopped
      rcases List.mem_append.mp isPopped with earlier | isLast
      · exact (held other earlier).receive taken
      · rw [List.mem_singleton.mp isLast]
        exact BlockLoop.held_of_receive taken
    have allInOrder : (world.poppedBlocks ++ [blockData]).map
          (fun blockData => BlockLoop.notification blockData.block) =
        world.blocksNotified.map PushedNotification.notification ++ received.checkpointBlocks := by
      obtain ⟨_, _, rfl⟩ := BlockLoop.receive_eq taken
      rw [List.map_append, inOrder, List.append_assoc]
      rfl
    rcases committed with ⟨rfl, rfl, rfl⟩ | ⟨rfl, last, commitRan⟩
    · constructor
      · rintro other ⟨⟩
        simp only [afterBlocks, isPopped, Option.toList_some, List.map_nil, List.append_nil]
        exact ⟨allHeld, allInOrder⟩
      · simp only [afterBlocks, isPopped, Option.toList_some, List.map_nil, List.append_nil]
        exact side.shown.pop _
    · obtain ⟨counted, left, clearRan, rfl⟩ := BlockLoop.done_commit commitRan
      obtain ⟨acceptances, rfl⟩ := BlockLoop.done_clearAcceptances clearRan
      have allStored : ∀ other ∈ world.poppedBlocks ++ [blockData],
          BlockStored settings.cliArgs
            ((received.inserted settings.cliArgs world.db).withAcceptances acceptances)
            other.block :=
        fun other isPopped => (allHeld other isPopped).stored acceptances
      constructor
      · rintro other ⟨⟩
        simp only [afterBlocks, isPopped, Option.toList_some, List.map_append, List.map_map,
          Function.comp_def, List.map_id', List.append_nil]
        refine ⟨fun other isPopped => .of_stored (allStored other isPopped), ?_⟩
        rw [← List.map_append]
        exact allInOrder
      · simp only [afterBlocks, isPopped, Option.toList_some]
        exact (side.shown.pop _).push allInOrder allStored

theorem TransactionsSide.of_same {start : Db} (side : world.TransactionsSide settings start)
    {next : IndexingWorld} (same : SameTransactions world.db next.db)
    (sameLoop : next.transactionLoop = world.transactionLoop)
    (samePopped : next.poppedTransactions = world.poppedTransactions)
    (sameNotified : next.transactionsNotified = world.transactionsNotified) :
    next.TransactionsSide settings start := by
  constructor
  · intro loop running
    rw [sameLoop] at running
    obtain ⟨⟨mapped, tracks⟩, inOrder⟩ := side.tracked loop running
    rw [transactions, samePopped, sameNotified]
    exact ⟨⟨mapped, tracks.of_same same⟩, inOrder⟩
  · rw [transactions, samePopped, sameNotified]
    exact side.shown

/-! ## The transaction processor takes a step -/

/-- With nothing pending every popped transaction is shown. -/
theorem shownAs_of_tracks {cliArgs : CliArgs} {start : Db} {loop : TransactionLoop}
    {popped mapped : List RpcTransaction}
    (tracks : TransactionLoop.Tracks cliArgs start db loop popped mapped)
    (noRows : loop.pendingRows = .nothing) (noRelations : loop.blockTx = [])
    {transaction : RpcTransaction} (isPopped : transaction ∈ popped) :
    ShownAs cliArgs popped db transaction := by
  obtain ⟨transactionId, idEq, other, isMapped, otherId⟩ := tracks.known transaction isPopped
  obtain ⟨verboseData, hasVerbose, rfl⟩ := Option.map_eq_some_iff.mp idEq
  refine ⟨verboseData, hasVerbose, ?_, other, tracks.popped_of_mapped other isMapped, otherId, ?_⟩
  · exact fun enabled => tracks.relation_stored enabled noRelations isPopped hasVerbose
  · exact tracks.stored_of_mapped noRows isMapped otherId

theorem ShownAs.mono {cliArgs : CliArgs} {popped : List RpcTransaction}
    {transaction : RpcTransaction} (shown : ShownAs cliArgs popped db transaction)
    (more : List RpcTransaction) : ShownAs cliArgs (popped ++ more) db transaction := by
  obtain ⟨verboseData, hasVerbose, relation, other, isPopped, otherId, stored⟩ := shown
  exact ⟨verboseData, hasVerbose, relation, other, List.mem_append_left more isPopped, otherId,
    stored⟩

theorem transactions_afterTransactions (input : TransactionsInput) (after : TransactionLoop)
    (pushed : List CheckpointBlock) :
    (world.afterTransactions input after pushed db).transactions =
      world.transactions ++ input.popped.toList.flatMap TransactionData.transactions :=
  List.flatMap_append

theorem TransactionsSide.iterate {start : Db} (side : world.TransactionsSide settings start)
    {loop after : TransactionLoop} (running : world.transactionLoop = some loop)
    {input : TransactionsInput} {pushed : List CheckpointBlock} {script rest : Script}
    (ran : Session.run (loop.iterate settings.cliArgs input) world.db script =
      .done (after, pushed) db rest) :
    (world.afterTransactions input after pushed db).TransactionsSide settings start := by
  obtain ⟨⟨mapped, tracks⟩, inOrder⟩ := side.tracked loop running
  have allTracked := tracks.iterate ran
  rw [← @transactions_afterTransactions world db input after pushed] at allTracked
  have shownBefore : Shows TransactionLoop.notification
      (fun db data => ∀ transaction ∈ data.transactions,
        ShownAs settings.cliArgs (world.afterTransactions input after pushed db).transactions db
          transaction)
      world.poppedTransactions world.transactionsNotified := by
    refine side.shown.mono fun db data _ shown transaction isTransaction => ?_
    rw [transactions_afterTransactions]
    exact (shown transaction isTransaction).mono _
  rcases TransactionLoop.done_iterate ran with ⟨nothing, rfl, rfl, rfl⟩ |
    ⟨data, received, middle, left, isPopped, receiveRan, committed⟩
  · constructor
    · rintro other ⟨⟩
      refine ⟨allTracked, ?_⟩
      simp only [afterTransactions, nothing, Option.toList_none, List.map_nil, List.append_nil]
      exact inOrder
    · simp only [afterTransactions, nothing, Option.toList_none, List.map_nil, List.append_nil]
      exact side.shown
  · have allInOrder : (world.poppedTransactions ++ [data]).map TransactionLoop.notification =
        world.transactionsNotified.map PushedNotification.notification ++
          received.checkpointBlocks := by
      rw [TransactionLoop.checkpointBlocks_receive receiveRan, List.map_append, inOrder,
        List.append_assoc, List.map_singleton]
    rcases committed with ⟨rfl, rfl, rfl⟩ | ⟨rfl, last, commitRan⟩
    · constructor
      · rintro other ⟨⟩
        refine ⟨allTracked, ?_⟩
        simp only [afterTransactions, isPopped, Option.toList_some, List.map_nil, List.append_nil]
        exact allInOrder
      · have shown := shownBefore.pop [data]
        simp only [afterTransactions, isPopped, Option.toList_some, List.map_nil, List.append_nil]
          at shown ⊢
        exact shown
    · obtain ⟨_, rfl⟩ := TransactionLoop.done_commit commitRan
      obtain ⟨allMapped, tracksAll⟩ := allTracked
      constructor
      · rintro other ⟨⟩
        refine ⟨⟨allMapped, tracksAll⟩, ?_⟩
        simp only [afterTransactions, isPopped, Option.toList_some, List.map_append, List.map_map,
          Function.comp_def, List.map_id', TransactionLoop.cleared, List.append_nil]
        rw [← List.map_append]
        exact allInOrder
      · have shown := shownBefore.pop [data]
        simp only [afterTransactions, isPopped, Option.toList_some] at shown ⊢
        refine shown.push allInOrder fun item isItem transaction isTransaction => ?_
        have among : (world.afterTransactions input (received.cleared input.commitNow)
            received.checkpointBlocks db).transactions =
              (world.poppedTransactions ++ [data]).flatMap TransactionData.transactions := by
          rw [transactions, afterTransactions, isPopped, Option.toList_some]
        rw [among] at tracksAll
        exact shownAs_of_tracks tracksAll rfl rfl
          (List.mem_flatMap.mpr ⟨item, isItem, isTransaction⟩)

theorem BlocksSide.of_same (side : world.BlocksSide settings) {next : IndexingWorld}
    (sameBlocks : next.db.blocks = world.db.blocks)
    (sameParents : next.db.blockParent = world.db.blockParent)
    (sameLoop : next.blockLoop = world.blockLoop)
    (samePopped : next.poppedBlocks = world.poppedBlocks)
    (sameNotified : next.blocksNotified = world.blocksNotified) : next.BlocksSide settings := by
  constructor
  · intro loop running
    rw [sameLoop] at running
    obtain ⟨held, inOrder⟩ := side.held loop running
    rw [samePopped, sameNotified]
    refine ⟨fun blockData isPopped => ?_, inOrder⟩
    have before := held blockData isPopped
    exact ⟨sameBlocks ▸ before.row, sameParents ▸ before.parents⟩
  · rw [samePopped, sameNotified]
    exact side.shown

/-- A dead processor does not push any more. -/
theorem BlocksSide.dead (side : world.BlocksSide settings) (db : Db) :
    (world.dead db).BlocksSide settings where
  held _ running := by cases running
  shown := side.shown

theorem TransactionsSide.dead {start : Db} (side : world.TransactionsSide settings start)
    (db : Db) : (world.dead db).TransactionsSide settings start where
  tracked _ running := by cases running
  shown := side.shown

theorem sides_of_stepped {start : Db} {next : IndexingWorld}
    (stepped : world.Stepped settings next)
    (sides : world.BlocksSide settings ∧ world.TransactionsSide settings start) :
    next.BlocksSide settings ∧ next.TransactionsSide settings start := by
  obtain ⟨blocks, transactions⟩ := sides
  cases stepped with
  | idle => exact ⟨blocks, transactions⟩
  | blocks running ran =>
      refine ⟨blocks.iterate running ran, ?_⟩
      exact transactions.of_same (BlockLoop.sameTransactions_of_iterate ran) rfl rfl rfl
  | blocksDie _ => exact ⟨blocks.dead _, transactions.dead _⟩
  | transactions running ran =>
      have others := TransactionLoop.sameBlocks_of_iterate ran
      exact ⟨blocks.of_same others.1 others.2 rfl rfl rfl, transactions.iterate running ran⟩
  | transactionsDie _ => exact ⟨blocks.dead _, transactions.dead _⟩
  | other change =>
      exact ⟨blocks.of_same rfl rfl rfl rfl rfl,
        transactions.of_same (sameTransactions_restore world.db _) rfl rfl rfl⟩

/-- The step lemma. -/
theorem sides_step {start : Db} (event : IndexingEvent)
    (sides : world.BlocksSide settings ∧ world.TransactionsSide settings start) :
    (world.step settings event).BlocksSide settings ∧
      (world.step settings event).TransactionsSide settings start :=
  sides_of_stepped (world.stepped settings event) sides

theorem sides_start (db : Db) (now : ℕ) :
    (start db now).BlocksSide settings ∧ (start db now).TransactionsSide settings db := by
  constructor
  · constructor
    · rintro loop ⟨⟩
      exact ⟨fun blockData isPopped => absurd isPopped List.not_mem_nil, rfl⟩
    · exact shows_nil
  · constructor
    · rintro loop ⟨⟩
      exact ⟨⟨[], TransactionLoop.tracks_loaded now db.subnetworks.rows db⟩, rfl⟩
    · exact shows_nil

/-- The run lemma. -/
theorem sides_of_run (settings : Settings) (db : Db) (now : ℕ) (events : List IndexingEvent) :
    (runFrom (step settings) (start db now) events).BlocksSide settings ∧
      (runFrom (step settings) (start db now) events).TransactionsSide settings db :=
  @invariant_of_run _ _ _
    (fun world : IndexingWorld => world.BlocksSide settings ∧ world.TransactionsSide settings db)
    (fun _ event => sides_step event) _ events (sides_start db now)

/-! ## The notifications -/

/-- The id of a transaction commits to how many inputs it has and to its outputs. -/
def Identified (transactions : List RpcTransaction) : Prop :=
  ∀ first ∈ transactions, ∀ second ∈ transactions,
    first.transactionId = second.transactionId →
      first.inputs.length = second.inputs.length ∧ first.outputs = second.outputs

/-- The rows of a transaction and its block relation are stored. -/
def TransactionStored (cliArgs : CliArgs) (db : Db) (transaction : RpcTransaction) : Prop :=
  ∃ verboseData, transaction.verboseData = some verboseData ∧
    (cliArgs.isDisabled .blocksTransactionsTable = false →
      db.blocksTransactions.HasKey (verboseData.blockHash, verboseData.transactionId)) ∧
    Stored cliArgs db transaction verboseData.transactionId

/-- When a notification is pushed, the rows of its block and of all blocks popped before it
are in the enabled tables. -/
structure NotifiesCommitted (cliArgs : CliArgs) (world : IndexingWorld) : Prop where
  transactions : Shows TransactionLoop.notification
    (fun db data => ∀ transaction ∈ data.transactions, TransactionStored cliArgs db transaction)
    world.poppedTransactions world.transactionsNotified
  blocks : Shows (fun blockData => BlockLoop.notification blockData.block)
    (fun db blockData => BlockStored cliArgs db blockData.block)
    world.poppedBlocks world.blocksNotified

theorem notifiesCommitted_of_run (settings : Settings) (db : Db) (now : ℕ)
    (events : List IndexingEvent)
    (identified : Identified (runFrom (step settings) (start db now) events).transactions) :
    NotifiesCommitted settings.cliArgs (runFrom (step settings) (start db now) events) := by
  obtain ⟨blocks, transactions⟩ := sides_of_run settings db now events
  refine ⟨transactions.shown.mono fun pushedDb data isPopped shown transaction among => ?_,
    blocks.shown⟩
  obtain ⟨verboseData, hasVerbose, relation, other, otherPopped, otherId, stored⟩ :=
    shown transaction among
  have idEq : transaction.transactionId = some verboseData.transactionId :=
    congrArg (Option.map RpcTransactionVerboseData.transactionId) hasVerbose
  obtain ⟨sameInputs, sameOutputs⟩ := identified other otherPopped transaction
    (List.mem_flatMap.mpr ⟨data, isPopped, among⟩) (otherId.trans idEq.symm)
  exact ⟨verboseData, hasVerbose, relation, stored.congr sameInputs sameOutputs⟩

end IndexingWorld

/-! ## Two blocks with one transaction -/

/-- A transaction with one output, as a block contains it. -/
def paidTransaction (blockHash : Hash) : RpcTransaction where
  inputs := []
  outputs := [⟨5, ⟨0, [1]⟩, some ⟨"a"⟩⟩]
  subnetworkId := "00"
  payload := []
  verboseData := some ⟨7, 7, 0, blockHash, 0⟩

def paidData (blockHash : Hash) : TransactionData where
  transactions := [paidTransaction blockHash]
  blockHash := blockHash
  blockTimestamp := 0
  blockDaaScore := 0
  blockBlueScore := 0

def indexingSettings : Settings where
  cliArgs := .standard
  netBps := 1
  checkpoint := 1
  disableVcpWaitForSync := false

/-- A block popped at some time. -/
def paidEvent (blockHash : Hash) (now : ℕ) : IndexingEvent :=
  .transactions
    { popped := some (paidData blockHash)
      forgotten := fun _ _ => false
      now
      commitNow := now
      timestampValid := true
      firstOrder := .listed
      secondOrder := .listed }
    fun _ => .succeeds

/-- The second block is committed with the first. -/
def paidTwice : List IndexingEvent :=
  [paidEvent 1 0, paidEvent 2 10000000000]

theorem paidTwice_notifiesCommitted :
    IndexingWorld.NotifiesCommitted .standard
        (runFrom (IndexingWorld.step indexingSettings) (.start .empty 0) paidTwice) ∧
      (runFrom (IndexingWorld.step indexingSettings) (.start .empty 0)
        paidTwice).transactionsNotified.length = 2 := by
  have popped : (runFrom (IndexingWorld.step indexingSettings) (.start .empty 0)
      paidTwice).poppedTransactions = [paidData 1, paidData 2] := by
    decide +kernel
  constructor
  · apply IndexingWorld.notifiesCommitted_of_run indexingSettings .empty 0 paidTwice
    rw [IndexingWorld.transactions, popped]
    rintro first isFirst second isSecond _
    simp only [List.flatMap_cons, List.flatMap_nil, paidData, List.append_nil, List.cons_append,
      List.nil_append, List.mem_cons, List.not_mem_nil, or_false] at isFirst isSecond
    rcases isFirst with rfl | rfl <;> rcases isSecond with rfl | rfl <;> exact ⟨rfl, rfl⟩
  · decide +kernel

end VecnoIndexer
