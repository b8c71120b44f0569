import VecnoIndexer.Tasks.Queues
import VecnoIndexer.Transactions.Notifications

/-!
# The tasks on one database

The tasks of `start_processing` with their queues and the one database that all their
statements go to.  A step is a turn of one task, and an iteration with its statements is one
turn: what is left of them if they fail is what the next process finds.  So iterations of two
tasks do not overlap.  A signal counts from the next iterations on, also one that comes while
some are under way, and the end of a process cuts one iteration at most.

Beside the state there is a log of what each task has handed over and taken.
-/

namespace VecnoIndexer

open VecnoIndexer.Sql
open VecnoIndexer.Collections
open VecnoIndexer.Transition

namespace Task

variable {Loop α : Type}

/-- The notifications it has still to push. -/
def unsent : Task Loop → List CheckpointBlock
  | pushing _ next rest => next :: rest
  | absent | starting | looping _ | returned => []

/-- The notifications that a turn has pushed. -/
def sent (before after : Task Loop) : List CheckpointBlock :=
  before.unsent.take (before.unsent.length - after.unsent.length)

/-- The notifications of the iteration that a turn was. -/
def issued (before after : Task Loop) : List CheckpointBlock :=
  if before.isPushing then [] else after.unsent

/-- What its next turn takes from a queue. -/
def taken (shutdown : Bool) (queue : ArrayQueue α) (task : Task Loop) : List α :=
  if task.iterates shutdown then queue.pop.1.toList else []

/-- The state its next turn leaves. -/
def leaves (shutdown : Bool) (db start : Db) (iterate : Loop → Db) : Task Loop → Db
  | starting => start
  | looping loop => if shutdown then db else iterate loop
  | absent | pushing _ _ _ | returned => db

end Task

/-- What the tasks have handed over and taken, in order. -/
structure TaskLog where
  /-- The fetcher before a shutdown. -/
  fetched : VecnoBlocksFetcher
  poppedBlocks : List BlockData
  poppedTransactions : List TransactionData
  /-- The notifications of the iterations, each with the database of its commit. -/
  blocksNotified : List PushedNotification
  transactionsNotified : List PushedNotification
  chainNotified : List CheckpointBlock
  /-- The notifications pushed to `checkpoint_queue`, whoever pushed them. -/
  pushed : List CheckpointBlock
  dequeued : List CheckpointBlock

structure System where
  tasks : TaskWorld
  db : Db
  log : TaskLog

/-- A turn of a task, or a signal. -/
inductive SystemEvent where
  | signal
  | fetch (input : FetchInput)
  | blocks (input : BlockInput) (script : Script)
  | transactions (input : TransactionsInput) (script : Script)
  | virtualChain (input : VcpInput) (script : Script)
  | checkpoints (input : CheckpointInput) (hashOrder : Reordering (String × Int)) (script : Script)

/-- The turn on a database. -/
def SystemEvent.on (db : Db) : SystemEvent → TaskEvent
  | signal => .signal
  | fetch input => .fetch input
  | blocks input script => .blocks input db script
  | transactions input script => .transactions input db script
  | virtualChain input script => .virtualChain input db script
  | checkpoints input hashOrder script => .checkpoints input hashOrder db script

/-- The log after a turn that did not end the process. -/
def TaskLog.record (log : TaskLog) (before after : TaskWorld) (db : Db) : SystemEvent → TaskLog
  | .signal => log
  | .fetch _ =>
      { log with
        fetched := if before.shutdown then log.fetched else after.fetcher.getD log.fetched }
  | .blocks _ _ =>
      { log with
        poppedBlocks :=
          log.poppedBlocks ++ before.blockProcessor.taken before.shutdown before.blocksQueue
        blocksNotified :=
          log.blocksNotified ++ (before.blockProcessor.issued after.blockProcessor).map (⟨·, db⟩)
        pushed := log.pushed ++ before.blockProcessor.sent after.blockProcessor }
  | .transactions _ _ =>
      { log with
        poppedTransactions :=
          log.poppedTransactions ++
            before.transactionProcessor.taken before.shutdown before.txsQueue
        transactionsNotified :=
          log.transactionsNotified ++
            (before.transactionProcessor.issued after.transactionProcessor).map (⟨·, db⟩)
        pushed := log.pushed ++ before.transactionProcessor.sent after.transactionProcessor }
  | .virtualChain _ _ =>
      { log with
        chainNotified :=
          log.chainNotified ++ before.virtualChainProcessor.issued after.virtualChainProcessor
        pushed := log.pushed ++ before.virtualChainProcessor.sent after.virtualChainProcessor }
  | .checkpoints _ _ _ =>
      { log with
        dequeued :=
          log.dequeued ++ before.checkpointProcessor.taken before.shutdown before.checkpointQueue }

namespace System

/-- The processors as they are spawned, on the database that `start_processing` leaves. -/
def spawn (settings : Settings) (previousCheckpoint : Option String)
    (queueCapacity checkpointCapacity : ℕ) (db : Db) : System where
  tasks := .spawn settings previousCheckpoint queueCapacity checkpointCapacity
  db
  log := {
    fetched := .new settings.checkpoint
    poppedBlocks := []
    poppedTransactions := []
    blocksNotified := []
    transactionsNotified := []
    chainNotified := []
    pushed := []
    dequeued := [] }

/-- The statements of the checkpoint processor's next turn. -/
def checkpointSession (settings : Settings) (system : System) (input : CheckpointInput)
    (hashOrder : Reordering (String × Int)) (loop : CheckpointLoop) : DbM CheckpointLoop :=
  loop.iterate settings.cliArgs hashOrder
    { input with popped := system.tasks.checkpointQueue.pop.1 }

/-- The statements of the virtual chain processor's next turn. -/
def virtualChainSession (settings : Settings) (system : System) (input : VcpInput)
    (vcp : VcpState) : DbM (VcpState × Option CheckpointBlock) :=
  if system.tasks.startVcp then
    pollVirtualChain settings.cliArgs vcp { input with shutdown := false }
  else pure (vcp, none)

/-- The database a turn leaves, whether or not it panics. -/
def dbAfter (settings : Settings) (system : System) : SystemEvent → Db
  | .signal | .fetch _ => system.db
  | .blocks input script =>
      system.tasks.blockProcessor.leaves system.tasks.shutdown system.db system.db fun loop =>
        (Session.run (loop.iterate settings
          { input with popped := system.tasks.blocksQueue.pop.1 }) system.db script).state
  | .transactions input script =>
      system.tasks.transactionProcessor.leaves system.tasks.shutdown system.db
        (Session.run (TransactionLoop.start input.now) system.db script).state fun loop =>
          (Session.run (loop.iterate settings.cliArgs
            { input with popped := system.tasks.txsQueue.pop.1 }) system.db script).state
  | .virtualChain input script =>
      system.tasks.virtualChainProcessor.leaves system.tasks.shutdown system.db system.db
        fun vcp => (Session.run (system.virtualChainSession settings input vcp) system.db
          script).state
  | .checkpoints input hashOrder script =>
      system.tasks.checkpointProcessor.leaves system.tasks.shutdown system.db system.db
        fun loop => (Session.run (system.checkpointSession settings input hashOrder loop) system.db
          script).state

/-- A turn of one task, with all statements of its iteration. -/
def step (settings : Settings) (system : System) (event : SystemEvent) : System :=
  if system.tasks.ended then system
  else
    let tasks := system.tasks.step settings (event.on system.db)
    let db := system.dbAfter settings event
    if tasks.ended then { system with tasks, db }
    else { tasks, db, log := system.log.record system.tasks tasks db event }

end System

end VecnoIndexer
