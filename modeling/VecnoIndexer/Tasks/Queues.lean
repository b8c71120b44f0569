import VecnoIndexer.Collections.ArrayQueue
import VecnoIndexer.Transactions.ProcessTransactions

/-!
# The tasks and their queues

The tasks that `start_processing` spawns and the queues between them.  A step is a turn of
one task: the test of its loop with the iteration that follows, or one attempt to push.
The statements of an iteration do not touch the queues; they meet any database and any
outcomes, so whatever the other tasks do meanwhile is covered.  A panic of a task ends the
process.
-/

namespace VecnoIndexer

open VecnoIndexer.Sql
open VecnoIndexer.Collections

/-- Where a processor is, with its local variables. -/
inductive Task (Loop : Type) where
  /-- It is not spawned. -/
  | absent
  | starting
  /-- It is at the test of its loop. -/
  | looping (loop : Loop)
  /-- It is in the push loop on `checkpoint_queue`. -/
  | pushing (loop : Loop) (next : CheckpointBlock) (rest : List CheckpointBlock)
  /-- It has left its loop. -/
  | returned
  deriving DecidableEq

namespace Task

variable {Loop : Type}

/-- After an iteration its notifications are pushed. -/
def after (loop : Loop) : List CheckpointBlock → Task Loop
  | [] => .looping loop
  | next :: rest => .pushing loop next rest

/-- It exists and has not left its loop. -/
def runs : Task Loop → Bool
  | starting | looping _ | pushing _ _ _ => true
  | absent | returned => false

def isPushing : Task Loop → Bool
  | pushing _ _ _ => true
  | absent | starting | looping _ | returned => false

/-- The number of notifications it has still to push. -/
def pending : Task Loop → ℕ
  | pushing _ _ rest => rest.length + 1
  | absent | starting | looping _ | returned => 0

/-- Its next turn is an iteration. -/
def iterates (shutdown : Bool) : Task Loop → Bool
  | looping _ => !shutdown
  | absent | starting | pushing _ _ _ | returned => false

def locals : Task Loop → Option Loop
  | looping loop | pushing loop _ _ => some loop
  | absent | starting | returned => none

/-- One turn, with the queue it pushes to. There is no result if it panics. -/
def turn (shutdown : Bool) (checkpointQueue : ArrayQueue CheckpointBlock) (start : Option Loop)
    (iterate : Loop → Option (Loop × List CheckpointBlock)) :
    Task Loop → Option (Task Loop × ArrayQueue CheckpointBlock)
  | absent => some (.absent, checkpointQueue)
  | returned => some (.returned, checkpointQueue)
  | starting => start.map fun loop => (.looping loop, checkpointQueue)
  | looping loop =>
      if shutdown then some (.returned, checkpointQueue)
      else (iterate loop).map fun result => (.after result.1 result.2, checkpointQueue)
  | pushing loop next rest =>
      match checkpointQueue.push next with
      | some pushed => some (.after loop rest, pushed)
      | none => some (.pushing loop next rest, checkpointQueue)

end Task

/-- The value of a session that returns; in any other case the process is ended. -/
def returnedValue {α : Type} : Exec SqlError Db α → Option α
  | .done value _ _ => some value
  | .failed _ _ _ => none
  | .killed _ => none

/-- The tasks, their queues and what they share. The fetcher is none once it has left its
loop. -/
structure TaskWorld where
  shutdown : Bool
  /-- A panic or a second signal has ended the process. -/
  ended : Bool
  startVcp : Bool
  previousCheckpoint : Option String
  blocksQueue : ArrayQueue BlockData
  txsQueue : ArrayQueue TransactionData
  checkpointQueue : ArrayQueue CheckpointBlock
  fetcher : Option VecnoBlocksFetcher
  blockProcessor : Task BlockLoop
  transactionProcessor : Task TransactionLoop
  virtualChainProcessor : Task VcpState
  checkpointProcessor : Task CheckpointLoop

/-- A turn of a task, or a signal. Notifications and blocks are popped from the queues,
whatever the inputs say. -/
inductive TaskEvent where
  | signal
  | fetch (input : FetchInput)
  | blocks (input : BlockInput) (db : Db) (script : Script)
  | transactions (input : TransactionsInput) (db : Db) (script : Script)
  | virtualChain (input : VcpInput) (db : Db) (script : Script)
  | checkpoints (input : CheckpointInput) (hashOrder : Reordering (String × Int)) (db : Db)
      (script : Script)

/-! ## The fetcher -/

namespace VecnoBlocksFetcher

/-- It leaves the push loop on `blocks_queue` at a shutdown. -/
def leaveBlock (fetcher : VecnoBlocksFetcher) (block : RpcBlock) (rest : List RpcBlock) :
    VecnoBlocksFetcher :=
  { fetcher with task := .pushingTransactions block rest }

/-- It leaves the push loop on `txs_queue` at a shutdown. The block is in the cache all the
same. -/
def leaveTransactions (fetcher : VecnoBlocksFetcher) (input : FetchInput) (block : RpcBlock)
    (rest : List RpcBlock) : VecnoBlocksFetcher :=
  { fetcher.pushTransactions input block rest with txsPushed := fetcher.txsPushed }

end VecnoBlocksFetcher

def FetchTask.isPushingBlock : FetchTask → Bool
  | pushingBlock _ _ => true
  | polling | handling _ _ | pushingTransactions _ _ | dead => false

def FetchTask.isPushingTransactions : FetchTask → Bool
  | pushingTransactions _ _ => true
  | polling | handling _ _ | pushingBlock _ _ | dead => false

namespace TaskWorld

/-- `ArrayQueue::new((cli_args.batch_scale * 1000f64) as usize)` -/
def queueCapacity (batchScale : BatchScale) : ℕ :=
  batchScale.scaled 1000

def checkpointCapacity : ℕ := 30000

/-- What `start_processing` spawns, for queues of any capacities. -/
def spawn (settings : Settings) (previousCheckpoint : Option String)
    (queueCapacity checkpointCapacity : ℕ) : TaskWorld where
  shutdown := false
  ended := false
  startVcp := false
  previousCheckpoint
  blocksQueue := .new queueCapacity
  txsQueue := .new queueCapacity
  checkpointQueue := .new checkpointCapacity
  fetcher := some (.new settings.checkpoint)
  blockProcessor := .starting
  transactionProcessor :=
    if settings.cliArgs.isDisabled .transactionProcessing then .absent else .starting
  virtualChainProcessor :=
    if settings.cliArgs.isDisabled .virtualChainProcessing then .absent else .starting
  checkpointProcessor := .starting

/-- `handle_signal` -/
def signal (world : TaskWorld) : TaskWorld :=
  if world.shutdown then { world with ended := true } else { world with shutdown := true }

/-- A turn of the fetcher. Its push loops end when a shutdown is set, and its outer loop
does. -/
def fetch (world : TaskWorld) (input : FetchInput) : TaskWorld :=
  match world.fetcher with
  | none => world
  | some fetcher =>
      match fetcher.task with
      | .polling =>
          { world with fetcher := if world.shutdown then none else some (fetcher.step input) }
      | .handling _ _ =>
          { world with
            fetcher := some (fetcher.step input)
            ended := decide ((fetcher.step input).task = .dead) }
      | .pushingBlock block rest =>
          if world.shutdown then
            { world with fetcher := some (fetcher.leaveBlock block rest) }
          else
            match world.blocksQueue.push (VecnoBlocksFetcher.blockData fetcher.synced block) with
            | some blocksQueue =>
                { world with
                  blocksQueue
                  fetcher := some (fetcher.step { input with full := false }) }
            | none =>
                { world with fetcher := some (fetcher.step { input with full := true }) }
      | .pushingTransactions block rest =>
          if world.shutdown then
            { world with fetcher := some (fetcher.leaveTransactions input block rest) }
          else
            match world.txsQueue.push (VecnoBlocksFetcher.transactionData block) with
            | some txsQueue =>
                { world with
                  txsQueue
                  fetcher := some (fetcher.step { input with full := false }) }
            | none =>
                { world with fetcher := some (fetcher.step { input with full := true }) }
      | .dead => world

/-! ## The processors -/

def processBlocks (settings : Settings) (world : TaskWorld) (input : BlockInput) (db : Db)
    (script : Script) : TaskWorld :=
  let (popped, blocksQueue) := world.blocksQueue.pop
  match world.blockProcessor.turn world.shutdown world.checkpointQueue
      (some (.start input.now)) (fun loop =>
        returnedValue (Session.run (loop.iterate settings { input with popped }) db script)) with
  | none => { world with ended := true }
  | some (blockProcessor, checkpointQueue) =>
      { world with
        blockProcessor
        checkpointQueue
        blocksQueue :=
          if world.blockProcessor.iterates world.shutdown then blocksQueue else world.blocksQueue
        startVcp := world.startVcp || blockProcessor.locals.any BlockLoop.vcpStarted }

def processTransactions (settings : Settings) (world : TaskWorld) (input : TransactionsInput)
    (db : Db) (script : Script) : TaskWorld :=
  let (popped, txsQueue) := world.txsQueue.pop
  match world.transactionProcessor.turn world.shutdown world.checkpointQueue
      (returnedValue (Session.run (TransactionLoop.start input.now) db script)) (fun loop =>
        returnedValue
          (Session.run (loop.iterate settings.cliArgs { input with popped }) db script)) with
  | none => { world with ended := true }
  | some (transactionProcessor, checkpointQueue) =>
      { world with
        transactionProcessor
        checkpointQueue
        txsQueue :=
          if world.transactionProcessor.iterates world.shutdown then txsQueue else world.txsQueue }

/-- An iteration before the start is notified does nothing. A shutdown during the wait for
the block processor is one before the turn. -/
def processVirtualChain (settings : Settings) (world : TaskWorld) (input : VcpInput) (db : Db)
    (script : Script) : TaskWorld :=
  match world.virtualChainProcessor.turn world.shutdown world.checkpointQueue
      (some (.start settings)) (fun vcp =>
        if world.startVcp then
          (returnedValue (Session.run
            (pollVirtualChain settings.cliArgs vcp { input with shutdown := false }) db
              script)).map fun result => (result.1, result.2.toList)
        else
          some (vcp, [])) with
  | none => { world with ended := true }
  | some (virtualChainProcessor, checkpointQueue) =>
      { world with virtualChainProcessor, checkpointQueue }

/-- The checkpoint processor pushes nothing. -/
def processCheckpoints (settings : Settings) (world : TaskWorld) (input : CheckpointInput)
    (hashOrder : Reordering (String × Int)) (db : Db) (script : Script) : TaskWorld :=
  let (popped, checkpointQueue) := world.checkpointQueue.pop
  match world.checkpointProcessor.turn world.shutdown checkpointQueue
      (some (.start input.adoptNow world.previousCheckpoint)) (fun loop =>
        (returnedValue (Session.run
          (loop.iterate settings.cliArgs hashOrder { input with popped }) db script)).map
            fun after => (after, [])) with
  | none => { world with ended := true }
  | some (checkpointProcessor, _) =>
      { world with
        checkpointProcessor
        checkpointQueue :=
          if world.checkpointProcessor.iterates world.shutdown then checkpointQueue
          else world.checkpointQueue }

def step (settings : Settings) (world : TaskWorld) (event : TaskEvent) : TaskWorld :=
  if world.ended then world
  else
    match event with
    | .signal => world.signal
    | .fetch input => world.fetch input
    | .blocks input db script => world.processBlocks settings input db script
    | .transactions input db script => world.processTransactions settings input db script
    | .virtualChain input db script => world.processVirtualChain settings input db script
    | .checkpoints input hashOrder db script =>
        world.processCheckpoints settings input hashOrder db script

end TaskWorld

end VecnoIndexer
