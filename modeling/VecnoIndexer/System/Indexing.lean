import VecnoIndexer.System.Steps

/-!
# The system indexes

Seen from the tables of the block processor and the transaction processor, a step of the
system is a step of these two side by side, or one of them starts or stops.  So what holds
of every run of the two holds in the system, and a row stored when its block was notified is
stored as long as the system runs.
-/

namespace VecnoIndexer

open VecnoIndexer.Sql
open VecnoIndexer.Collections
open VecnoIndexer.Transition

/-! ## Two processors that start and stop -/

namespace IndexingWorld

variable {settings : Settings} {world next : IndexingWorld} {start : Db}

/-- What happens to the two processors. -/
inductive Moved (settings : Settings) (world : IndexingWorld) : IndexingWorld → Prop where
  | steps {next : IndexingWorld} (stepped : world.Stepped settings next) :
      Moved settings world next
  | blocksStart (idle : world.blockLoop = none) (now : ℕ) :
      Moved settings world { world with blockLoop := some (.start now) }
  | blocksStop : Moved settings world { world with blockLoop := none }
  | transactionsStart (idle : world.transactionLoop = none) (now : ℕ) (results : List Subnetwork) :
      Moved settings world { world with transactionLoop := some (.loaded now results) }
  | transactionsStop : Moved settings world { world with transactionLoop := none }
  | dies (db : Db) : Moved settings world (world.dead db)

/-- A processor that starts has popped nothing, and finds the tables of transactions as they
were. -/
structure StartsFresh (start : Db) (world next : IndexingWorld) : Prop where
  blocks : world.blockLoop = none → next.blockLoop ≠ none →
    world.poppedBlocks = [] ∧ world.blocksNotified = []
  transactions : world.transactionLoop = none → next.transactionLoop ≠ none →
    world.poppedTransactions = [] ∧ world.transactionsNotified = [] ∧
      SameTransactions start world.db

theorem sides_of_moved (moved : world.Moved settings next) (fresh : StartsFresh start world next)
    (sides : world.BlocksSide settings ∧ world.TransactionsSide settings start) :
    next.BlocksSide settings ∧ next.TransactionsSide settings start := by
  obtain ⟨blocks, transactions⟩ := sides
  have same : SameTransactions world.db world.db := ⟨rfl, rfl, rfl, rfl, rfl, rfl⟩
  cases moved with
  | steps stepped => exact sides_of_stepped stepped ⟨blocks, transactions⟩
  | blocksStart idle now =>
      obtain ⟨noBlocks, noneNotified⟩ := fresh.blocks idle (Option.some_ne_none _)
      refine ⟨⟨?_, blocks.shown⟩, transactions.of_same same rfl rfl rfl⟩
      rintro _ ⟨⟩
      simp only [noBlocks, noneNotified]
      exact ⟨fun _ isPopped => absurd isPopped List.not_mem_nil, rfl⟩
  | blocksStop =>
      refine ⟨⟨?_, blocks.shown⟩, transactions.of_same same rfl rfl rfl⟩
      rintro _ ⟨⟩
  | transactionsStart idle now results =>
      obtain ⟨nonePopped, noneNotified, unchanged⟩ :=
        fresh.transactions idle (Option.some_ne_none _)
      refine ⟨blocks.of_same rfl rfl rfl rfl rfl, ⟨?_, transactions.shown⟩⟩
      rintro _ ⟨⟩
      simp only [IndexingWorld.transactions, nonePopped, noneNotified]
      exact ⟨⟨[], (TransactionLoop.tracks_loaded now results start).of_same unchanged⟩, rfl⟩
  | transactionsStop =>
      refine ⟨blocks.of_same rfl rfl rfl rfl rfl, ⟨?_, transactions.shown⟩⟩
      rintro _ ⟨⟩
  | dies db => exact ⟨blocks.dead db, transactions.dead db⟩

end IndexingWorld

/-! ## The system as two processors -/

namespace System

variable {settings : Settings} {system next : System} {event : SystemEvent}

/-- The loop of a processor that runs. -/
def running {Loop : Type} (system : System) (task : Task Loop) : Option Loop :=
  if system.tasks.ended then none else task.locals

/-- The two processors, their database and what they popped and notified. -/
def indexing (system : System) : IndexingWorld where
  db := system.db
  blockLoop := system.running system.tasks.blockProcessor
  transactionLoop := system.running system.tasks.transactionProcessor
  poppedBlocks := system.log.poppedBlocks
  poppedTransactions := system.log.poppedTransactions
  blocksNotified := system.log.blocksNotified
  transactionsNotified := system.log.transactionsNotified

theorem fetch_processors (world : TaskWorld) (input : FetchInput) :
    (world.fetch input).blockProcessor = world.blockProcessor ∧
      (world.fetch input).transactionProcessor = world.transactionProcessor ∧
      (world.fetch input).virtualChainProcessor = world.virtualChainProcessor ∧
      (world.fetch input).checkpointProcessor = world.checkpointProcessor ∧
      (world.fetch input).checkpointQueue = world.checkpointQueue ∧
      (world.fetch input).shutdown = world.shutdown := by
  unfold TaskWorld.fetch
  split
  · exact ⟨rfl, rfl, rfl, rfl, rfl, rfl⟩
  · split
    · exact ⟨rfl, rfl, rfl, rfl, rfl, rfl⟩
    · exact ⟨rfl, rfl, rfl, rfl, rfl, rfl⟩
    · split
      · exact ⟨rfl, rfl, rfl, rfl, rfl, rfl⟩
      · split <;> exact ⟨rfl, rfl, rfl, rfl, rfl, rfl⟩
    · split
      · exact ⟨rfl, rfl, rfl, rfl, rfl, rfl⟩
      · split <;> exact ⟨rfl, rfl, rfl, rfl, rfl, rfl⟩
    · exact ⟨rfl, rfl, rfl, rfl, rfl, rfl⟩

theorem exists_of_returnedValue {α : Type} {result : Exec SqlError Db α} {value : α}
    (returned : returnedValue result = some value) :
    ∃ db rest, result = .done value db rest := by
  cases result with
  | done _ db rest =>
      cases returned
      exact ⟨db, rest, rfl⟩
  | failed _ _ _ => contradiction
  | killed _ => contradiction

/-- A turn of the block processor. -/
theorem moved_blocks (alive : system.tasks.ended = false) {input : BlockInput} {script : Script}
    {after : Task BlockLoop} {left : ArrayQueue CheckpointBlock}
    (turned : system.blockTurn settings input script = some (after, left)) :
    system.indexing.Moved settings
      (system.afterBlocks (system.dbAfter settings (.blocks input script))
        after left).indexing := by
  have turn := Task.turned_of_turn turned
  simp only [indexing, running, afterBlocks, alive, dbAfter, Bool.false_eq_true, if_false]
  rcases turn.effect with quiet | ⟨starting, loop, started, rfl⟩ | ⟨down, loop, looping, rfl⟩ |
    ⟨up, loop, final, pushed, looping, iterated, rfl⟩
  · simp only [quiet.locals, quiet.taken, quiet.issued, quiet.leaves, List.map_nil, List.append_nil]
    exact .steps .idle
  · cases started
    simp only [starting, Task.leaves_starting, Task.taken_starting, Task.issued_starting,
      Task.unsent_looping, List.map_nil, List.append_nil]
    exact .blocksStart rfl input.now
  · simp only [looping, down, Task.leaves_looping_of_down, Task.taken_looping_of_down,
      Task.issued_looping, Task.unsent_returned, List.map_nil, List.append_nil]
    exact .blocksStop
  · obtain ⟨db, rest, ran⟩ := exists_of_returnedValue iterated
    simp only [looping, up, Task.leaves_looping_of_up, Task.taken_looping_of_up,
      Task.issued_looping, Task.unsent_after, Task.locals_after, ran, Exec.state]
    exact .steps (@IndexingWorld.Stepped.blocks settings _ loop final
      { input with popped := system.tasks.blocksQueue.pop.1 } pushed db script rest rfl ran)

/-- A turn of the transaction processor. -/
theorem moved_transactions (alive : system.tasks.ended = false) {input : TransactionsInput}
    {script : Script} {after : Task TransactionLoop} {left : ArrayQueue CheckpointBlock}
    (turned : system.transactionTurn settings input script = some (after, left)) :
    system.indexing.Moved settings
      (system.afterTransactions (system.dbAfter settings (.transactions input script)) after
        left).indexing := by
  have turn := Task.turned_of_turn turned
  simp only [indexing, running, afterTransactions, alive, dbAfter, Bool.false_eq_true, if_false]
  rcases turn.effect with quiet | ⟨starting, loop, started, rfl⟩ | ⟨down, loop, looping, rfl⟩ |
    ⟨up, loop, final, pushed, looping, iterated, rfl⟩
  · simp only [quiet.locals, quiet.taken, quiet.issued, quiet.leaves, List.map_nil, List.append_nil]
    exact .steps .idle
  · obtain ⟨db, rest, ran⟩ := exists_of_returnedValue started
    obtain ⟨results, rfl⟩ := done_transactionLoop_start ran
    simp only [starting, Task.leaves_starting, Task.taken_starting, Task.issued_starting,
      Task.unsent_looping, List.map_nil, List.append_nil, state_transactionLoop_start]
    exact .transactionsStart rfl input.now results
  · simp only [looping, down, Task.leaves_looping_of_down, Task.taken_looping_of_down,
      Task.issued_looping, Task.unsent_returned, List.map_nil, List.append_nil]
    exact .transactionsStop
  · obtain ⟨db, rest, ran⟩ := exists_of_returnedValue iterated
    simp only [looping, up, Task.leaves_looping_of_up, Task.taken_looping_of_up,
      Task.issued_looping, Task.unsent_after, Task.locals_after, ran, Exec.state]
    exact .steps (@IndexingWorld.Stepped.transactions settings _ loop final
      { input with popped := system.tasks.txsQueue.pop.1 } pushed db script rest rfl ran)

/-- A change of the other tables is a step of another component. -/
theorem moved_other (same : SameIndexed system.db next.db)
    (eq : next.indexing = { system.indexing with db := next.db }) :
    system.indexing.Moved settings next.indexing := by
  have other : system.indexing.Stepped settings
      { system.indexing with db := system.db.restore next.db } :=
    .other fun _ => next.db
  rw [same.restore, ← eq] at other
  exact .steps other

/-- For the two processors a step of the system is a step of theirs. -/
theorem moved_of_stepped (stepped : Stepped settings system event next) :
    system.indexing.Moved settings next.indexing := by
  cases stepped with
  | idle _ => exact .steps .idle
  | @dies tasks event ended =>
      simp only [indexing, running, ended, if_true]
      exact .dies _
  | signal alive => exact .steps .idle
  | fetch alive input lives =>
      obtain ⟨blocks, transactions, _⟩ := fetch_processors system.tasks input
      refine moved_other (.refl _) ?_
      simp only [indexing, running, afterFetch, alive, lives, blocks, transactions]
  | blocks alive turned => exact moved_blocks alive turned
  | transactions alive turned => exact moved_transactions alive turned
  | virtualChain alive turned => exact moved_other (sameIndexed_of_virtualChain settings _ _) rfl
  | checkpoints alive turned => exact moved_other (sameIndexed_of_checkpoints settings _ _ _) rfl

/-! ## The invariant -/

/-- A processor that has not started has popped nothing, and what was stored with a
notification still is. -/
structure Indexed (settings : Settings) (start : Db) (system : System) : Prop where
  sides : system.indexing.BlocksSide settings ∧ system.indexing.TransactionsSide settings start
  blocksStart : system.tasks.ended = false → system.tasks.blockProcessor = .starting →
    system.log.poppedBlocks = [] ∧ system.log.blocksNotified = []
  transactionsStart : system.tasks.ended = false →
    system.tasks.transactionProcessor = .starting →
    system.log.poppedTransactions = [] ∧ system.log.transactionsNotified = [] ∧
      SameTransactions start system.db
  blocksRetained : ∀ entry ∈ system.log.blocksNotified, Retains entry.db system.db
  transactionsRetained : ∀ entry ∈ system.log.transactionsNotified, Retains entry.db system.db

theorem indexed_spawn (settings : Settings) (previousCheckpoint : Option String)
    (queueCapacity checkpointCapacity : ℕ) (db : Db) :
    (spawn settings previousCheckpoint queueCapacity checkpointCapacity
      db).Indexed settings db where
  sides := by
    have noTransactions : (spawn settings previousCheckpoint queueCapacity checkpointCapacity
        db).indexing.transactionLoop = none := by
      simp only [indexing, running, spawn, TaskWorld.spawn]
      split_ifs <;> rfl
    refine ⟨⟨?_, shows_nil⟩, ⟨?_, shows_nil⟩⟩
    · rintro _ ⟨⟩
    · intro loop isRunning
      rw [noTransactions] at isRunning
      contradiction
  blocksStart _ _ := ⟨rfl, rfl⟩
  transactionsStart _ _ := ⟨rfl, rfl, ⟨rfl, rfl, rfl, rfl, rfl, rfl⟩⟩
  blocksRetained _ isNotified := absurd isNotified List.not_mem_nil
  transactionsRetained _ isNotified := absurd isNotified List.not_mem_nil

theorem Indexed.startsFresh {start : Db} (indexed : system.Indexed settings start)
    (stepped : Stepped settings system event next) :
    IndexingWorld.StartsFresh start system.indexing next.indexing := by
  have unchanged (sameBlocks : next.indexing.blockLoop = system.indexing.blockLoop)
      (sameTransactions : next.indexing.transactionLoop = system.indexing.transactionLoop) :
      IndexingWorld.StartsFresh start system.indexing next.indexing :=
    ⟨fun idle runs => absurd (sameBlocks.trans idle) runs,
      fun idle runs => absurd (sameTransactions.trans idle) runs⟩
  cases stepped with
  | idle _ => exact unchanged rfl rfl
  | dies ended =>
      constructor
      · intro _ runs
        simp [indexing, running, ended] at runs
      · intro _ runs
        simp [indexing, running, ended] at runs
  | signal alive => exact unchanged rfl rfl
  | fetch alive input lives =>
      obtain ⟨blocks, transactions, _⟩ := fetch_processors system.tasks input
      apply unchanged
      · simp only [indexing, running, afterFetch, alive, lives, blocks]
      · simp only [indexing, running, afterFetch, alive, lives, transactions]
  | blocks alive turned =>
      constructor
      · intro idle runs
        simp only [indexing, running, afterBlocks, alive, Bool.false_eq_true, if_false] at idle runs
        exact indexed.blocksStart alive ((Task.turned_of_turn turned).eq_starting idle runs)
      · exact fun idle runs => absurd idle runs
  | transactions alive turned =>
      constructor
      · exact fun idle runs => absurd idle runs
      · intro idle runs
        simp only [indexing, running, afterTransactions, alive, Bool.false_eq_true, if_false]
          at idle runs
        exact indexed.transactionsStart alive ((Task.turned_of_turn turned).eq_starting idle runs)
  | virtualChain alive turned => exact unchanged rfl rfl
  | checkpoints alive turned => exact unchanged rfl rfl

/-- What is notified with the database of its commit is retained. -/
theorem retained_append {notified : List PushedNotification} {db after : Db}
    (retained : ∀ entry ∈ notified, Retains entry.db db) (retains : Retains db after)
    (issued : List CheckpointBlock) :
    ∀ entry ∈ notified ++ issued.map (⟨·, after⟩), Retains entry.db after := by
  intro entry isNotified
  rcases List.mem_append.mp isNotified with before | now
  · exact (retained entry before).trans retains
  · obtain ⟨block, _, rfl⟩ := List.mem_map.mp now
    exact .refl after

theorem sameTransactions_of_blocks (settings : Settings) (system : System) (input : BlockInput)
    (script : Script) :
    SameTransactions system.db (system.dbAfter settings (.blocks input script)) := by
  have unchanged : SameTransactions system.db system.db := ⟨rfl, rfl, rfl, rfl, rfl, rfl⟩
  simp only [dbAfter]
  cases system.tasks.blockProcessor with
  | looping loop =>
      simp only [Task.leaves]
      split
      · exact unchanged
      · have keeps : (loop.iterate settings
            { input with popped := system.tasks.blocksQueue.pop.1 }).Keeps
              (SameTransactions system.db) :=
          loop.keeps_iterate (fun _ _ same before => before.trans same) settings _
        exact keeps system.db script unchanged
  | _ => exact unchanged

/-- The step lemma. -/
theorem Indexed.step {start : Db} (indexed : system.Indexed settings start)
    (stepped : Stepped settings system event next) : next.Indexed settings start := by
  have retains := stepped.retains
  have blocksRetained := fun issued => retained_append indexed.blocksRetained retains issued
  have transactionsRetained := fun issued =>
    retained_append indexed.transactionsRetained retains issued
  have blocksKept : ∀ entry ∈ system.log.blocksNotified, Retains entry.db next.db :=
    fun entry isNotified => (indexed.blocksRetained entry isNotified).trans retains
  have transactionsKept : ∀ entry ∈ system.log.transactionsNotified, Retains entry.db next.db :=
    fun entry isNotified => (indexed.transactionsRetained entry isNotified).trans retains
  have transactionsStart (same : SameTransactions system.db next.db)
      (alive : system.tasks.ended = false)
      (starting : system.tasks.transactionProcessor = .starting) :
      system.log.poppedTransactions = [] ∧ system.log.transactionsNotified = [] ∧
        SameTransactions start next.db := by
    obtain ⟨nonePopped, noneNotified, unchanged⟩ := indexed.transactionsStart alive starting
    exact ⟨nonePopped, noneNotified, unchanged.trans same⟩
  have sides := IndexingWorld.sides_of_moved (moved_of_stepped stepped)
    (indexed.startsFresh stepped) indexed.sides
  cases stepped with
  | idle _ => exact indexed
  | dies ended =>
      refine ⟨sides, fun alive => ?_, fun alive => ?_, blocksKept, transactionsKept⟩
      · exact absurd (ended.symm.trans alive) (by decide)
      · exact absurd (ended.symm.trans alive) (by decide)
  | signal alive =>
      exact ⟨sides, indexed.blocksStart, indexed.transactionsStart, blocksKept, transactionsKept⟩
  | fetch alive input lives =>
      obtain ⟨blocks, transactions, _⟩ := fetch_processors system.tasks input
      refine ⟨sides, fun _ starting => ?_, fun _ starting => ?_, blocksKept, transactionsKept⟩
      · exact indexed.blocksStart alive (blocks.symm.trans starting)
      · exact indexed.transactionsStart alive (transactions.symm.trans starting)
  | blocks alive turned =>
      refine ⟨sides, fun _ starting => ?_, fun _ => ?_, blocksRetained _, transactionsKept⟩
      · exact absurd starting (Task.turned_of_turn turned).ne_starting
      · exact transactionsStart (sameTransactions_of_blocks settings system _ _) alive
  | transactions alive turned =>
      refine ⟨sides, fun _ => indexed.blocksStart alive, fun _ starting => ?_, blocksKept,
        transactionsRetained _⟩
      exact absurd starting (Task.turned_of_turn turned).ne_starting
  | virtualChain alive turned =>
      refine ⟨sides, fun _ => indexed.blocksStart alive, fun _ => ?_, blocksKept, transactionsKept⟩
      refine transactionsStart (SameIndexed.toSameTransactions ?_) alive
      exact sameIndexed_of_virtualChain settings _ _
  | checkpoints alive turned =>
      refine ⟨sides, fun _ => indexed.blocksStart alive, fun _ => ?_, blocksKept, transactionsKept⟩
      refine transactionsStart (SameIndexed.toSameTransactions ?_) alive
      exact sameIndexed_of_checkpoints settings _ _ _

end System

end VecnoIndexer
