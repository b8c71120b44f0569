import VecnoIndexer.Blocks.Handover
import VecnoIndexer.System.Channels

/-!
# One writer of acceptances at a time

Until `start_vcp` is set only the block processor writes acceptances: it deletes those of
the blocks that it commits, but of the first one.  From then on only the virtual chain
processor does.  So the table follows the selected chain, whatever the other tasks do in
between.
-/

namespace VecnoIndexer

open VecnoIndexer.Sql
open VecnoIndexer.Collections
open VecnoIndexer.Transition

/-! ## An iteration of the block processor -/

namespace BlockLoop

variable {settings : Settings} {loop after : BlockLoop} {input : BlockInput} {db final : Db}
  {script rest : Script} {pushed : List CheckpointBlock}

/-- What an iteration does to the acceptances. -/
structure Clears (loop after : BlockLoop) (pushed : List CheckpointBlock) (db final : Db) :
    Prop where
  started : loop.vcpStarted = true →
    after.vcpStarted = true ∧ final.transactionsAcceptances = db.transactionsAcceptances
  cleared : loop.vcpStarted = false → ∀ row, row ∈ final.transactionsAcceptances ↔
    row ∈ db.transactionsAcceptances ∧ ∀ hash, row.blockHash = some hash →
      hash ∉ (pushed.map CheckpointBlock.hash).drop (if loop.firstBlock then 1 else 0)
  first : loop.vcpStarted = false → after.firstBlock = (loop.firstBlock && pushed.isEmpty)

/-- An iteration that commits nothing. -/
theorem clears_of_same (started : after.vcpStarted = loop.vcpStarted)
    (first : after.firstBlock = loop.firstBlock) : Clears loop after [] db db where
  started isStarted := ⟨started.trans isStarted, rfl⟩
  cleared _ row := by simp
  first _ := by simp [first]

theorem clears_of_commit {synced : Bool}
    (enabled : settings.cliArgs.isDisabled .virtualChainProcessing = false)
    (nonempty : loop.checkpointBlocks ≠ [])
    (ran : Session.run (loop.commit settings synced input) db script = .done after final rest) :
    loop.Clears after loop.checkpointBlocks db final where
  started isStarted := by
    obtain ⟨counted, left, clearRan, rfl⟩ := done_commit ran
    unfold clearAcceptances at clearRan
    simp only [isStarted, Bool.not_true, Bool.false_and, Bool.false_eq_true, if_false] at clearRan
    cases clearRan
    exact ⟨isStarted, inserted_transactionsAcceptances _ _ _⟩
  cleared notStarted row := by
    obtain ⟨_, _, _, mem_iff⟩ := done_commit_of_waiting enabled notStarted ran
    rw [mem_iff, clearedHashes, List.map_drop]
  first notStarted := by
    obtain ⟨_, _, rfl, _⟩ := done_commit_of_waiting enabled notStarted ran
    simp [countNoop, nonempty]

theorem clears_of_iterate
    (enabled : settings.cliArgs.isDisabled .virtualChainProcessing = false)
    (ran : Session.run (loop.iterate settings input) db script = .done (after, pushed) final rest) :
    loop.Clears after pushed db final := by
  rcases done_iterate ran with ⟨_, rfl, rfl, rfl⟩ | ⟨blockData, received, _, taken, outcome⟩
  · exact clears_of_same rfl rfl
  · obtain ⟨started, first, nonempty⟩ : received.vcpStarted = loop.vcpStarted ∧
        received.firstBlock = loop.firstBlock ∧ received.checkpointBlocks ≠ [] := by
      obtain ⟨rows, parents, rfl⟩ := receive_eq taken
      exact ⟨rfl, rfl, List.append_ne_nil_of_right_ne_nil _ (List.cons_ne_nil _ _)⟩
    rcases outcome with ⟨rfl, rfl, rfl⟩ | ⟨rfl, last, committed⟩
    · exact clears_of_same started first
    · have clears := clears_of_commit enabled nonempty committed
      constructor
      · rw [← started]
        exact clears.started
      · rw [← started, ← first]
        exact clears.cleared
      · rw [← started, ← first]
        exact clears.first

end BlockLoop

/-! ## Before and after the hand-over -/

/-- If the turn is a poll, the node answers it from the start that the processor has. -/
def ChainNode.AnswersTurn (node : ChainNode) (system : System) : SystemEvent → Prop
  | .virtualChain input script =>
      system.tasks.startVcp = true → ∀ vcp, system.tasks.virtualChainProcessor = .looping vcp →
        node.AnswersPoll ⟨system.db, some vcp⟩
          ⟨vcp.tipDistance, { input with shutdown := false }, script⟩
  | .signal | .fetch _ | .blocks _ _ | .transactions _ _ | .checkpoints _ _ _ => True

namespace System

variable {settings : Settings} {start : Db} {system next : System} {event : SystemEvent}
  {node : ChainNode}
  {path : List Hash}

/-- The hashes of the blocks committed, in order. -/
def committed (system : System) : List Hash :=
  system.log.blocksNotified.map fun entry => entry.notification.hash

/-- The first acceptances, but for those of the blocks committed after the first one. -/
def Cleared (start : Db) (system : System) : Prop :=
  ∀ row, row ∈ system.db.transactionsAcceptances ↔ row ∈ start.transactionsAcceptances ∧
    ∀ hash, row.blockHash = some hash → hash ∉ system.committed.drop 1

/-- The block processor and the flag agree, and as long as it is down nothing but the
block processor's deletes has happened. -/
structure Handing (settings : Settings) (start : Db) (system : System) : Prop where
  flag : ∀ loop, system.tasks.blockProcessor.locals = some loop →
    loop.vcpStarted = system.tasks.startVcp
  fresh : system.tasks.blockProcessor = .starting →
    system.tasks.startVcp = false ∧ system.committed = []
  first : system.tasks.startVcp = false → ∀ loop,
    system.tasks.blockProcessor.locals = some loop →
      (loop.firstBlock = true ↔ system.committed = [])
  waits : system.tasks.startVcp = false → ∀ vcp,
    system.tasks.virtualChainProcessor.locals = some vcp → vcp = .start settings
  cleared : system.tasks.startVcp = false → system.Cleared start

/-- The rows with a block are those of a selected chain, which ends where the virtual
chain processor goes on. -/
def FollowsChain (node : ChainNode) (settings : Settings) (system : System) : Prop :=
  ∃ path, node.tree.IsPath path ∧ node.Follows path system.db.transactionsAcceptances ∧
    node.ImportedBelow system.db.transactionsAcceptances ∧
    (system.tasks.virtualChainProcessor = .starting → node.tree.tip path = settings.checkpoint) ∧
    ∀ vcp, system.tasks.virtualChainProcessor.locals = some vcp →
      node.tree.tip path = vcp.startHash

theorem handing_spawn (settings : Settings) (previousCheckpoint : Option String)
    (queueCapacity checkpointCapacity : ℕ) (db : Db) :
    (spawn settings previousCheckpoint queueCapacity checkpointCapacity db).Handing settings
      db where
  flag := by rintro _ ⟨⟩
  fresh _ := ⟨rfl, rfl⟩
  first := by rintro _ _ ⟨⟩
  waits := by
    simp only [spawn, TaskWorld.spawn]
    split_ifs <;> rintro _ _ ⟨⟩
  cleared _ _ := by simp [spawn, committed]

/-! ## Steps -/

theorem startVcp_fetch (world : TaskWorld) (input : FetchInput) :
    (world.fetch input).startVcp = world.startVcp := by
  unfold TaskWorld.fetch
  split
  · rfl
  · split
    · rfl
    · rfl
    · split
      · rfl
      · split <;> rfl
    · split
      · rfl
      · split <;> rfl
    · rfl

theorem committed_afterBlocks (db : Db) (after : Task BlockLoop)
    (left : ArrayQueue CheckpointBlock) :
    (system.afterBlocks db after left).committed =
      system.committed ++ (system.tasks.blockProcessor.issued after).map CheckpointBlock.hash := by
  simp [committed, afterBlocks]

/-- A turn that is no iteration of the block processor. -/
theorem Handing.congr (handing : system.Handing settings start)
    (blocks : next.tasks.blockProcessor = system.tasks.blockProcessor)
    (flag : next.tasks.startVcp = system.tasks.startVcp)
    (committed : next.committed = system.committed)
    (waits : system.tasks.startVcp = false → ∀ vcp,
      next.tasks.virtualChainProcessor.locals = some vcp → vcp = .start settings)
    (acceptances : system.tasks.startVcp = false →
      next.db.transactionsAcceptances = system.db.transactionsAcceptances) :
    next.Handing settings start where
  flag := by
    rw [blocks, flag]
    exact handing.flag
  fresh := by
    rw [blocks, flag, committed]
    exact handing.fresh
  first := by
    rw [blocks, flag, committed]
    exact handing.first
  waits := by
    rw [flag]
    exact waits
  cleared down := by
    rw [flag] at down
    unfold Cleared
    rw [acceptances down, committed]
    exact handing.cleared down

theorem FollowsChain.congr (follows : system.FollowsChain node settings)
    (acceptances : next.db.transactionsAcceptances = system.db.transactionsAcceptances)
    (processor : next.tasks.virtualChainProcessor = system.tasks.virtualChainProcessor) :
    next.FollowsChain node settings := by
  unfold FollowsChain
  rw [acceptances, processor]
  exact follows

/-- The statements of the transaction processor and the checkpoint processor write no
acceptances. -/
theorem acceptances_of_transactions (settings : Settings) (system : System)
    (input : TransactionsInput) (script : Script) :
    (system.dbAfter settings (.transactions input script)).transactionsAcceptances =
      system.db.transactionsAcceptances := by
  simp only [dbAfter]
  cases system.tasks.transactionProcessor with
  | looping loop =>
      simp only [Task.leaves]
      split
      · rfl
      · have keeps : (loop.iterate settings.cliArgs
            { input with popped := system.tasks.txsQueue.pop.1 }).Keeps
              fun db => db.transactionsAcceptances = system.db.transactionsAcceptances :=
          loop.keeps_leaves (fun _ _ _ leaves same => leaves.spares.2.trans same)
            (fun _ _ => id) settings.cliArgs _
        exact keeps system.db script rfl
  | starting => simp only [Task.leaves, state_transactionLoop_start]
  | _ => rfl

theorem acceptances_of_checkpoints (settings : Settings) (system : System)
    (input : CheckpointInput) (hashOrder : Reordering (String × Int)) (script : Script) :
    (system.dbAfter settings (.checkpoints input hashOrder script)).transactionsAcceptances =
      system.db.transactionsAcceptances := by
  simp only [dbAfter]
  cases system.tasks.checkpointProcessor with
  | looping loop =>
      simp only [Task.leaves, checkpointSession]
      split
      · rfl
      · have keeps : (loop.iterate settings.cliArgs hashOrder
            { input with popped := system.tasks.checkpointQueue.pop.1 }).Keeps
              fun db => db.transactionsAcceptances = system.db.transactionsAcceptances :=
          CheckpointLoop.keeps_iterate (fun _ _ => id) (fun _ _ => id) settings.cliArgs hashOrder
            loop _
        exact keeps system.db script rfl
  | _ => rfl

/-- What a turn of the block processor does to the acceptances. -/
structure BlocksTurn (start : Db) (system next : System) : Prop where
  before : system.tasks.startVcp = false → next.Cleared start
  after : system.tasks.startVcp = true → next.tasks.startVcp = true ∧
    next.db.transactionsAcceptances = system.db.transactionsAcceptances

theorem Cleared.congr (cleared : system.Cleared start)
    (acceptances : next.db.transactionsAcceptances = system.db.transactionsAcceptances)
    (committed : next.committed = system.committed) : next.Cleared start := by
  unfold Cleared
  rw [acceptances, committed]
  exact cleared

/-- An iteration that commits deletes the acceptances of its blocks as well. -/
theorem Cleared.iterate (cleared : system.Cleared start) {loop after : BlockLoop}
    {pushed : List CheckpointBlock} (first : loop.firstBlock = true ↔ system.committed = [])
    (notStarted : loop.vcpStarted = false) (clears : loop.Clears after pushed system.db next.db)
    (committed : next.committed = system.committed ++ pushed.map CheckpointBlock.hash) :
    next.Cleared start := by
  have dropped : next.committed.drop 1 = system.committed.drop 1 ++
      (pushed.map CheckpointBlock.hash).drop (if loop.firstBlock then 1 else 0) := by
    rw [committed, List.drop_append]
    cases isFirst : loop.firstBlock with
    | true => simp [first.mp isFirst]
    | false =>
        have nonempty : system.committed ≠ [] := fun empty => by simp [first.mpr empty] at isFirst
        have positive := List.length_pos_of_ne_nil nonempty
        rw [Nat.sub_eq_zero_of_le positive]
        rfl
  intro row
  rw [clears.cleared notStarted, cleared, dropped]
  simp only [List.mem_append, not_or]
  constructor
  · rintro ⟨⟨isStart, before⟩, now⟩
    exact ⟨isStart, fun hash rowBlock => ⟨before hash rowBlock, now hash rowBlock⟩⟩
  · rintro ⟨isStart, outside⟩
    exact ⟨⟨isStart, fun hash rowBlock => (outside hash rowBlock).1⟩,
      fun hash rowBlock => (outside hash rowBlock).2⟩

/-- A turn of the block processor in which it commits nothing. -/
theorem Handing.blocks_idle (handing : system.Handing settings start)
    (acceptances : next.db.transactionsAcceptances = system.db.transactionsAcceptances)
    (flag : next.tasks.startVcp = system.tasks.startVcp)
    (committed : next.committed = system.committed)
    (processor : next.tasks.virtualChainProcessor = system.tasks.virtualChainProcessor)
    (notStarting : next.tasks.blockProcessor ≠ .starting)
    (locals : ∀ loop, next.tasks.blockProcessor.locals = some loop →
      loop.vcpStarted = system.tasks.startVcp ∧
        (system.tasks.startVcp = false → (loop.firstBlock = true ↔ system.committed = []))) :
    next.Handing settings start ∧ system.BlocksTurn start next := by
  have cleared (down : system.tasks.startVcp = false) : next.Cleared start :=
    (handing.cleared down).congr acceptances committed
  refine ⟨⟨fun loop running => ?_, fun starting => absurd starting notStarting, ?_, ?_, ?_⟩,
    cleared, fun started => ⟨flag.trans started, acceptances⟩⟩
  · rw [flag]
    exact (locals loop running).1
  · rw [flag, committed]
    exact fun down loop running => (locals loop running).2 down
  · rw [flag, processor]
    exact handing.waits
  · rw [flag]
    exact cleared

/-- While the flag is down, a turn of the block processor deletes the acceptances of what it
commits, and after that none. -/
theorem Handing.blocks_turn (handing : system.Handing settings start)
    (enabled : settings.cliArgs.isDisabled .virtualChainProcessing = false) {input : BlockInput}
    {script : Script} {after : Task BlockLoop} {left : ArrayQueue CheckpointBlock}
    (turned : system.blockTurn settings input script = some (after, left)) :
    let next := system.afterBlocks (system.dbAfter settings (.blocks input script)) after left
    next.Handing settings start ∧ system.BlocksTurn start next := by
  intro next
  have committedNext : next.committed = system.committed ++
      (system.tasks.blockProcessor.issued after).map CheckpointBlock.hash :=
    committed_afterBlocks _ _ _
  have dbNext : next.db = system.dbAfter settings (.blocks input script) := rfl
  have flagNext : next.tasks.startVcp =
      (system.tasks.startVcp || after.locals.any BlockLoop.vcpStarted) := rfl
  have processor : next.tasks.virtualChainProcessor = system.tasks.virtualChainProcessor := rfl
  have blocksNext : next.tasks.blockProcessor = after := rfl
  clear_value next
  have turn := Task.turned_of_turn turned
  have notStarting : next.tasks.blockProcessor ≠ .starting := blocksNext ▸ turn.ne_starting
  rcases turn.effect with quiet | ⟨starting, loop, started, rfl⟩ | ⟨down, loop, looping, rfl⟩ |
    ⟨up, loop, final, pushed, looping, iterated, rfl⟩
  · have flag : next.tasks.startVcp = system.tasks.startVcp := by
      rw [flagNext, quiet.locals]
      cases locals : system.tasks.blockProcessor.locals with
      | none => simp
      | some loop => simp [handing.flag loop locals]
    rw [quiet.issued, List.map_nil, List.append_nil] at committedNext
    refine handing.blocks_idle ?_ flag committedNext processor notStarting ?_
    · simp only [dbNext, dbAfter, quiet.leaves]
    · intro loop running
      rw [blocksNext, quiet.locals] at running
      exact ⟨handing.flag loop running, fun down => handing.first down loop running⟩
  · cases started
    obtain ⟨down, noneCommitted⟩ := handing.fresh starting
    rw [starting, Task.issued_starting, Task.unsent_looping, List.map_nil, List.append_nil]
      at committedNext
    refine handing.blocks_idle ?_ ?_ committedNext processor notStarting ?_
    · simp only [dbNext, dbAfter, starting, Task.leaves_starting]
    · rw [flagNext]
      exact Bool.or_false _
    · intro loop running
      rw [blocksNext] at running
      cases running
      exact ⟨down.symm, fun _ => ⟨fun _ => noneCommitted, fun _ => rfl⟩⟩
  · rw [looping, Task.issued_looping, Task.unsent_returned, List.map_nil, List.append_nil]
      at committedNext
    refine handing.blocks_idle ?_ ?_ committedNext processor notStarting ?_
    · simp only [dbNext, dbAfter, looping, down, Task.leaves_looping_of_down]
    · rw [flagNext]
      exact Bool.or_false _
    · intro loop running
      rw [blocksNext] at running
      contradiction
  · obtain ⟨db, rest, ran⟩ := exists_of_returnedValue iterated
    have running : system.tasks.blockProcessor.locals = some loop := congrArg Task.locals looping
    have clears : loop.Clears final pushed system.db next.db := by
      have iteration := BlockLoop.clears_of_iterate enabled ran
      have left : next.db = db := by
        simp only [dbNext, dbAfter, looping, up, Task.leaves_looping_of_up, ran, Exec.state]
      rwa [left]
    have flag := handing.flag loop running
    rw [looping, Task.issued_looping, Task.unsent_after] at committedNext
    rw [Task.locals_after, Option.any_some] at flagNext
    have locals : ∀ other, next.tasks.blockProcessor.locals = some other → other = final := by
      intro other isOther
      rw [blocksNext, Task.locals_after] at isOther
      exact (Option.some.inj isOther).symm
    have cleared (down : system.tasks.startVcp = false) : next.Cleared start :=
      (handing.cleared down).iterate (handing.first down loop running) (flag.trans down) clears
        committedNext
    have isDown (down : next.tasks.startVcp = false) : system.tasks.startVcp = false :=
      (Bool.or_eq_false_iff.mp (flagNext.symm.trans down)).1
    refine ⟨⟨fun other isOther => ?_, fun starting => absurd starting notStarting,
      fun down other isOther => ?_, fun down => ?_, fun down => cleared (isDown down)⟩,
      cleared, fun started => ?_⟩
    · rw [locals other isOther, flagNext]
      cases started : system.tasks.startVcp with
      | false => rfl
      | true => exact (clears.started (flag.trans started)).1
    · rw [locals other isOther, clears.first (flag.trans (isDown down)), committedNext,
        Bool.and_eq_true, handing.first (isDown down) loop running, List.isEmpty_iff,
        List.append_eq_nil_iff, List.map_eq_nil_iff]
    · rw [processor]
      exact handing.waits (isDown down)
    · rw [flagNext, started]
      exact ⟨rfl, (clears.started (flag.trans started)).2⟩

/-- A turn of the virtual chain processor while the flag is down. -/
theorem Handing.virtualChain_turn (handing : system.Handing settings start) {input : VcpInput}
    {script : Script} {after : Task VcpState} {left : ArrayQueue CheckpointBlock}
    (turned : system.virtualChainTurn settings input script = some (after, left)) :
    (system.afterVirtualChain (system.dbAfter settings (.virtualChain input script)) after
      left).Handing settings start := by
  refine handing.congr rfl rfl rfl ?_ ?_
  · intro down vcp running
    change after.locals = some vcp at running
    rcases (Task.turned_of_turn turned).effect with quiet | ⟨_, other, started, rfl⟩ |
      ⟨_, other, _, rfl⟩ | ⟨_, other, final, pushed, looping, iterated, rfl⟩
    · exact handing.waits down vcp (quiet.locals.symm.trans running)
    · cases started
      exact (Option.some.inj running).symm
    · contradiction
    · rw [down, if_neg Bool.false_ne_true] at iterated
      cases iterated
      rw [Task.locals_after] at running
      exact handing.waits down vcp ((congrArg Task.locals looping).trans running)
  · intro down
    change (system.dbAfter settings (.virtualChain input script)).transactionsAcceptances = _
    simp only [dbAfter, virtualChainSession, down, Bool.false_eq_true, if_false, Session.run_pure]
    cases system.tasks.virtualChainProcessor with
    | looping vcp =>
        simp only [Task.leaves]
        split <;> rfl
    | _ => rfl

/-- Once the flag is set it moves the table from one chain to another. -/
theorem FollowsChain.virtualChain_turn (follows : system.FollowsChain node settings)
    (enabled : settings.cliArgs.isDisabled .transactionAcceptance = false)
    (started : system.tasks.startVcp = true) {input : VcpInput} {script : Script}
    {after : Task VcpState} {left : ArrayQueue CheckpointBlock}
    (answers : node.AnswersTurn system (.virtualChain input script))
    (turned : system.virtualChainTurn settings input script = some (after, left)) :
    (system.afterVirtualChain (system.dbAfter settings (.virtualChain input script)) after
      left).FollowsChain node settings := by
  obtain ⟨path, isPath, pathFollows, imported, startTip, tip⟩ := follows
  have turn := Task.turned_of_turn turned
  have notStarting := turn.ne_starting
  unfold FollowsChain
  simp only [afterVirtualChain]
  rcases turn.effect with quiet | ⟨starting, vcp, isStart, rfl⟩ | ⟨down, vcp, looping, rfl⟩ |
    ⟨up, vcp, final, pushed, looping, iterated, rfl⟩
  · simp only [dbAfter, quiet.leaves, quiet.locals]
    exact ⟨path, isPath, pathFollows, imported, fun starting => absurd starting notStarting, tip⟩
  · cases isStart
    simp only [dbAfter, starting, Task.leaves_starting]
    refine ⟨path, isPath, pathFollows, imported, fun starting => absurd starting notStarting, ?_⟩
    rintro _ ⟨⟩
    exact startTip starting
  · simp only [dbAfter, looping, down, Task.leaves_looping_of_down]
    refine ⟨path, isPath, pathFollows, imported, fun starting => absurd starting notStarting, ?_⟩
    rintro _ ⟨⟩
  · rw [started, if_pos rfl] at iterated
    obtain ⟨result, returned, eq⟩ := Option.map_eq_some_iff.mp iterated
    cases eq
    obtain ⟨db, rest, ran⟩ := exists_of_returnedValue returned
    have before : VcpWorld.Follows node ⟨system.db, some vcp⟩ :=
      ⟨vcp, path, rfl, isPath, tip vcp (congrArg Task.locals looping), pathFollows, imported⟩
    obtain ⟨_, next, running, nextPath, nextTip, nextFollows, nextImported⟩ :=
      before.of_done enabled (answers started vcp looping) ran
    cases running
    simp only [dbAfter, looping, up, Task.leaves_looping_of_up, virtualChainSession, started,
      if_true, ran, Exec.state]
    refine ⟨next, nextPath, nextFollows, nextImported,
      fun starting => absurd starting notStarting, ?_⟩
    rw [Task.locals_after]
    rintro _ ⟨⟩
    exact nextTip

/-! ## The hand-over -/

/-- When the flag is set, all blocks with acceptances to be deleted are committed, and none
of the chain but the first. -/
structure RereadsRest (path : List Hash) (start : Db) (committed : List Hash) : Prop where
  rest : ∀ row ∈ start.transactionsAcceptances, ∀ hash, row.blockHash = some hash →
    hash ∈ path ∨ hash ∈ committed.drop 1
  spared : ∀ hash ∈ path, hash ∉ committed.drop 1

/-- The rows of the blocks of a chain, which ends at the checkpoint, are its acceptances. -/
structure KnownTo (node : ChainNode) (path : List Hash) (checkpoint : Hash) (start : Db) :
    Prop where
  isPath : node.tree.IsPath path
  tip : node.tree.tip path = checkpoint
  accepted : ∀ row, (∃ hash ∈ path, row.blockHash = some hash) →
    (row ∈ start.transactionsAcceptances ↔ node.AcceptedBy path row)
  imported : node.ImportedBelow start.transactionsAcceptances

/-- What is left of the first acceptances is the chain's. -/
theorem Cleared.followsChain (cleared : system.Cleared start)
    (known : KnownTo node path settings.checkpoint start)
    (rereads : RereadsRest path start system.committed)
    (handing : ∀ vcp, system.tasks.virtualChainProcessor.locals = some vcp →
      vcp = .start settings) : system.FollowsChain node settings := by
  refine ⟨path, known.isPath, fun row => ?_, ?_, fun _ => known.tip, ?_⟩
  · constructor
    · rintro ⟨stored, hasBlock⟩
      obtain ⟨hash, rowBlock⟩ := Option.ne_none_iff_exists'.mp hasBlock
      obtain ⟨inStart, notCommitted⟩ := (cleared row).mp stored
      have onPath := (rereads.rest row inStart hash rowBlock).resolve_right
        (notCommitted hash rowBlock)
      exact (known.accepted row ⟨hash, onPath, rowBlock⟩).mp inStart
    · intro accepted
      obtain ⟨hash, onPath, rowBlock⟩ := accepted.blockHash
      refine ⟨(cleared row).mpr ⟨?_, fun other rowOther => ?_⟩, by simp [rowBlock]⟩
      · exact (known.accepted row ⟨hash, onPath, rowBlock⟩).mpr accepted
      · rw [rowBlock] at rowOther
        exact Option.some.inj rowOther ▸ rereads.spared hash onPath
  · exact known.imported.delete fun row stored => ((cleared row).mp stored).1
  · intro vcp running
    rw [handing vcp running]
    exact known.tip

/-- What a turn relies on. -/
structure HandsOver (node : ChainNode) (path : List Hash) (start : Db) (settings : Settings)
    (system : System) (event : SystemEvent) : Prop where
  answers : node.AnswersTurn system event
  rereads : system.tasks.startVcp = false → (system.step settings event).tasks.startVcp = true →
    RereadsRest path start (system.step settings event).committed

/-- The step lemma up to the hand-over. -/
theorem Handing.step (handing : system.Handing settings start)
    (enabled : settings.cliArgs.isDisabled .virtualChainProcessing = false)
    (lives : (system.step settings event).tasks.ended = false) :
    (system.step settings event).Handing settings start := by
  have stepped := stepped settings system event
  generalize system.step settings event = next at stepped lives ⊢
  cases stepped with
  | idle _ => exact handing
  | dies ended => exact absurd (ended.symm.trans lives) (by decide)
  | signal alive => exact handing.congr rfl rfl rfl handing.waits fun _ => rfl
  | fetch alive input lives =>
      obtain ⟨blocks, _, chain, _⟩ := fetch_processors system.tasks input
      refine handing.congr blocks (startVcp_fetch system.tasks input) rfl ?_ fun _ => rfl
      intro down vcp running
      exact handing.waits down vcp ((congrArg Task.locals chain).symm.trans running)
  | blocks alive turned => exact (handing.blocks_turn enabled turned).1
  | @transactions _ input script _ _ turned =>
      exact handing.congr rfl rfl rfl handing.waits fun _ =>
        acceptances_of_transactions settings system input script
  | virtualChain alive turned => exact handing.virtualChain_turn turned
  | @checkpoints _ input hashOrder script _ _ turned =>
      exact handing.congr rfl rfl rfl handing.waits fun _ =>
        acceptances_of_checkpoints settings system input hashOrder script

/-- The step lemma from the hand-over on. -/
theorem Handing.followsChain_step (handing : system.Handing settings start)
    (follows : system.tasks.startVcp = true → system.FollowsChain node settings)
    (enabled : settings.cliArgs.isDisabled .virtualChainProcessing = false)
    (accepts : settings.cliArgs.isDisabled .transactionAcceptance = false)
    (known : KnownTo node path settings.checkpoint start)
    (handsOver : HandsOver node path start settings system event)
    (lives : (system.step settings event).tasks.ended = false)
    (started : (system.step settings event).tasks.startVcp = true) :
    (system.step settings event).FollowsChain node settings := by
  obtain ⟨answers, rereads⟩ := handsOver
  have stepped := stepped settings system event
  generalize system.step settings event = next at stepped lives started rereads ⊢
  cases stepped with
  | idle _ => exact follows started
  | dies ended => exact absurd (ended.symm.trans lives) (by decide)
  | signal alive => exact (follows started).congr rfl rfl
  | fetch alive input lives =>
      obtain ⟨_, _, chain, _⟩ := fetch_processors system.tasks input
      exact (follows ((startVcp_fetch system.tasks input).symm.trans started)).congr rfl chain
  | blocks alive turned =>
      obtain ⟨_, before, after⟩ := handing.blocks_turn enabled turned
      cases flag : system.tasks.startVcp with
      | false => exact (before flag).followsChain known (rereads flag started) (handing.waits flag)
      | true => exact (follows flag).congr (after flag).2 rfl
  | @transactions _ input script _ _ turned =>
      exact (follows started).congr (acceptances_of_transactions settings system input script) rfl
  | virtualChain alive turned =>
      exact (follows started).virtualChain_turn accepts started answers turned
  | @checkpoints _ input hashOrder script _ _ turned =>
      exact (follows started).congr
        (acceptances_of_checkpoints settings system input hashOrder script) rfl

/-! ## Runs -/

/-- A flag that is set stays so. -/
theorem startVcp_step (started : system.tasks.startVcp = true)
    (lives : (system.step settings event).tasks.ended = false) :
    (system.step settings event).tasks.startVcp = true := by
  have stepped := stepped settings system event
  generalize system.step settings event = next at stepped lives ⊢
  cases stepped with
  | idle _ => exact started
  | dies ended => exact absurd (ended.symm.trans lives) (by decide)
  | signal alive => exact started
  | fetch alive input lives => exact (startVcp_fetch system.tasks input).trans started
  | blocks alive turned => simp only [afterBlocks, started, Bool.true_or]
  | transactions alive turned => exact started
  | virtualChain alive turned => exact started
  | checkpoints alive turned => exact started

/-- The acceptances of a process that was started on a database. -/
structure AcceptancesOfRun (settings : Settings) (db : Db) (spawned : System)
    (events : List SystemEvent) (system : System) : Prop where
  before : system.tasks.startVcp = false → system.Cleared db
  after : settings.cliArgs.isDisabled .transactionAcceptance = false →
    ∀ (node : ChainNode) (path : List Hash), KnownTo node path settings.checkpoint db →
      Along (System.step settings) (HandsOver node path db settings) spawned events →
      system.tasks.startVcp = true → system.FollowsChain node settings

/-- In every run of the tasks the acceptances are deleted up to the hand-over, and from then on they
follow the chain. -/
theorem acceptances_of_run (settings : Settings) (previousCheckpoint : Option String)
    (queueCapacity checkpointCapacity : ℕ) (db : Db) (events : List SystemEvent)
    (enabled : settings.cliArgs.isDisabled .virtualChainProcessing = false)
    (alive : (runFrom (System.step settings)
      (spawn settings previousCheckpoint queueCapacity checkpointCapacity db) events).tasks.ended =
        false) :
    AcceptancesOfRun settings db
      (spawn settings previousCheckpoint queueCapacity checkpointCapacity db) events
      (runFrom (System.step settings)
        (spawn settings previousCheckpoint queueCapacity checkpointCapacity db) events) := by
  have spawned := handing_spawn settings previousCheckpoint queueCapacity checkpointCapacity db
  have handing (system : System) (event : SystemEvent)
      (before : system.tasks.ended = false → system.Handing settings db)
      (lives : (system.step settings event).tasks.ended = false) :
      (system.step settings event).Handing settings db :=
    (before (alive_of_step lives)).step enabled lives
  refine ⟨(invariant_of_run handing events (fun _ => spawned) alive).cleared, ?_⟩
  intro accepts node path known handsOver started
  have follows (system : System) (event : SystemEvent)
      (before : system.tasks.ended = false → system.Handing settings db ∧
        (system.tasks.startVcp = true → system.FollowsChain node settings))
      (handsOver : HandsOver node path db settings system event)
      (lives : (system.step settings event).tasks.ended = false) :
      (system.step settings event).Handing settings db ∧
        ((system.step settings event).tasks.startVcp = true →
          (system.step settings event).FollowsChain node settings) := by
    obtain ⟨handingBefore, followsBefore⟩ := before (alive_of_step lives)
    exact ⟨handingBefore.step enabled lives,
      handingBefore.followsChain_step followsBefore enabled accepts known handsOver lives⟩
  exact (invariant_of_along follows (fun _ => ⟨spawned, nofun⟩) handsOver alive).2 started

/-! ## A hand-over while the chain flips -/

/-- The flag is down in all of a run that ends so. -/
theorem handsOver_of_down {events : List SystemEvent}
    (alive : (runFrom (System.step settings) system events).tasks.ended = false)
    (down : (runFrom (System.step settings) system events).tasks.startVcp = false) :
    system.tasks.ended = false ∧ system.tasks.startVcp = false ∧
      Along (System.step settings) (HandsOver node path start settings) system events := by
  induction events generalizing system with
  | nil => exact ⟨alive, down, trivial⟩
  | cons event rest ih =>
      obtain ⟨lives, stays, along⟩ := ih alive down
      have flag : system.tasks.startVcp = false := by
        cases flag : system.tasks.startVcp with
        | false => rfl
        | true => exact absurd ((startVcp_step flag lives).symm.trans stays) (by decide)
      refine ⟨alive_of_step lives, flag, ⟨?_, fun _ started => ?_⟩, along⟩
      · cases event with
        | virtualChain input script =>
            exact fun started => absurd (flag.symm.trans started) (by decide)
        | _ => trivial
      · exact absurd (stays.symm.trans started) (by decide)

end System

/-- Virtual chain processing does not wait for the sync. -/
def unwaitingSettings : Settings where
  cliArgs := .standard
  netBps := 1
  checkpoint := 3
  disableVcpWaitForSync := true

/-- A turn of the block processor. -/
def committing (now : ℕ) : SystemEvent :=
  .blocks ⟨none, now, now, true⟩ fun _ => .succeeds

/-- A turn of the virtual chain processor. -/
def polled (response : Option VirtualChain) : SystemEvent :=
  .virtualChain ⟨response, fun hash => some ⟨hash, 0, 0, 0⟩, false, .listed⟩ fun _ => .succeeds

/-- The acceptances of blocks 2 and 3, and one of block 4 from a chain that the node had left. -/
def staleRows : List TransactionAcceptance :=
  [⟨some 9, none⟩, ⟨some 10, some 2⟩, ⟨some 11, some 3⟩, ⟨some 12, some 4⟩]

def staleDb : Db :=
  { Db.empty with transactionsAcceptances := Table.empty.insertAll staleRows }

/-- Twelve blocks from block 3 on are fetched, and all but the last one committed. -/
def beforeHandover : List SystemEvent :=
  committing 0 :: polled none ::
    fetched (some ((List.range' 3 12).map fun n => plainBlock (BitVec.ofNat 256 n) 0 0)) ::
    (List.replicate 36 (fetched none) ++ (List.range' 1 11).flatMap fun n =>
      [committing (n * 10000000000), committing (n * 10000000000)])

/-- The last one is committed and the chain polled, which is that of block 4 again. -/
def handoverTurns : List SystemEvent :=
  beforeHandover ++ [committing 120000000000, polled (some ⟨[3, 2], [4], [⟨4, [12]⟩]⟩)]

def handoverSystem : System :=
  .spawn unwaitingSettings none 100 100 staleDb

theorem staleDb_rows : staleDb.transactionsAcceptances.rows = staleRows := by
  decide

theorem staleDb_known : System.KnownTo forkNode [2, 3] unwaitingSettings.checkpoint staleDb where
  isPath := by
    unfold Chain.BlockTree.IsPath
    decide
  tip := by decide
  accepted := by
    rintro row ⟨hash, onPath, rowBlock⟩
    rw [Table.mem_def, staleDb_rows]
    constructor
    · intro rowMem
      simp only [staleRows, List.mem_cons, List.not_mem_nil, or_false] at rowMem
      rcases rowMem with rfl | rfl | rfl | rfl
      · cases rowBlock
      · exact ⟨2, by decide, 10, by decide, rfl⟩
      · exact ⟨3, by decide, 11, by decide, rfl⟩
      · cases rowBlock
        exact absurd onPath (by decide)
    · rintro ⟨block, blockMem, accepted, acceptedMem, rowEq⟩
      cases rowEq
      change accepted ∈ forkAccepts block at acceptedMem
      rw [mem_forkAccepts_iff] at acceptedMem
      rcases acceptedMem with ⟨rfl, rfl⟩ | ⟨rfl, rfl⟩ | ⟨rfl, rfl⟩ | ⟨rfl, rfl⟩
      · decide
      · decide
      · exact absurd blockMem (by decide)
      · exact absurd blockMem (by decide)
  imported := by
    intro row rowMem noBlock transactionId rowId block _ accepted
    change transactionId ∈ forkAccepts block at accepted
    rw [mem_forkAccepts_iff] at accepted
    rw [Table.mem_def, staleDb_rows] at rowMem
    simp only [staleRows, List.mem_cons, List.not_mem_nil, or_false] at rowMem
    rcases rowMem with rfl | rfl | rfl | rfl
    · cases rowId
      revert accepted
      simp
    · contradiction
    · contradiction
    · contradiction

/-- The node answers the poll from block 3 with block 4. -/
theorem polled_answers {system : System}
    (running : system.tasks.virtualChainProcessor = .looping (.start unwaitingSettings)) :
    forkNode.AnswersTurn system (polled (some ⟨[3, 2], [4], [⟨4, [12]⟩]⟩)) := by
  intro _ vcp isVcp
  cases running.symm.trans isVcp
  refine ⟨fun block => ⟨⟨block, 0, 0, 0⟩, rfl, rfl⟩, ?_⟩
  rintro vcp response start ⟨⟩ ⟨⟩ startPath startTip
  have startEq : start = [2, 3] :=
    startPath.eq_of_tip_eq (by unfold Chain.BlockTree.IsPath; decide) startTip
  subst startEq
  refine ⟨[4], by unfold Chain.BlockTree.IsPath; decide, [], [2, 3], [4], ⟨rfl, rfl, ?_⟩, rfl⟩
  rintro block ⟨⟩
  decide

theorem handoverTurns_handsOver :
    Along (System.step unwaitingSettings)
      (System.HandsOver forkNode [2, 3] staleDb unwaitingSettings)
      handoverSystem handoverTurns := by
  rw [handoverTurns, along_append]
  refine ⟨(System.handsOver_of_down (by decide +kernel) (by decide +kernel)).2.2,
    ⟨trivial, fun _ _ => ?_⟩, ⟨polled_answers (by decide +kernel), fun down => ?_⟩, trivial⟩
  · have committed : (System.step unwaitingSettings (runFrom (System.step unwaitingSettings)
        handoverSystem beforeHandover) (committing 120000000000)).committed =
          (List.range' 3 12).map (BitVec.ofNat 256) := by
      decide +kernel
    rw [committed]
    constructor
    · intro row rowMem hash rowBlock
      rw [Table.mem_def, staleDb_rows] at rowMem
      simp only [staleRows, List.mem_cons, List.not_mem_nil, or_false] at rowMem
      rcases rowMem with rfl | rfl | rfl | rfl
      · cases rowBlock
      · cases rowBlock
        exact Or.inl (by decide)
      · cases rowBlock
        exact Or.inl (by decide)
      · cases rowBlock
        exact Or.inr (by decide)
    · intro hash onPath
      simp only [List.mem_cons, List.not_mem_nil, or_false] at onPath
      rcases onPath with rfl | rfl <;> decide
  · have started : (System.step unwaitingSettings (runFrom (System.step unwaitingSettings)
        handoverSystem beforeHandover) (committing 120000000000)).tasks.startVcp = true := by
      decide +kernel
    exact absurd (started.symm.trans down) (by decide)

theorem handoverTurns_followsChain :
    (runFrom (System.step unwaitingSettings) handoverSystem handoverTurns).FollowsChain forkNode
        unwaitingSettings ∧
      (runFrom (System.step unwaitingSettings) handoverSystem
        handoverTurns).db.transactionsAcceptances.rows = [⟨some 9, none⟩, ⟨some 12, some 4⟩] := by
  constructor
  · have acceptances := System.acceptances_of_run unwaitingSettings none 100 100 staleDb
      handoverTurns rfl (by decide +kernel)
    exact acceptances.after rfl forkNode [2, 3] staleDb_known handoverTurns_handsOver
      (by decide +kernel)
  · decide +kernel

end VecnoIndexer
