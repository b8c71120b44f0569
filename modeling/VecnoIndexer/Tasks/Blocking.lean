import VecnoIndexer.Tasks.Queues
import VecnoIndexer.Transition.Run

/-!
# Waiting for room in a queue

A task in a push loop on a full queue waits for the queue's consumer.  The consumer is
there, or a shutdown ends the loop, except in two cases.  The fetcher pushes to `txs_queue`
also if no transaction processor is spawned.  And the push loops on `checkpoint_queue` do
not test for a shutdown, while the checkpoint processor leaves at one.
-/

namespace VecnoIndexer

open VecnoIndexer.Sql
open VecnoIndexer.Collections
open VecnoIndexer.Transition

inductive QueueName where
  | blocks
  | txs
  | checkpoint
  deriving DecidableEq, Repr

inductive TaskName where
  | fetcher
  | blockProcessor
  | transactionProcessor
  | virtualChainProcessor
  | checkpointProcessor
  deriving DecidableEq, Repr

/-- The task whose turn it is. -/
def TaskEvent.task : TaskEvent → Option TaskName
  | signal => none
  | fetch _ => some .fetcher
  | blocks _ _ _ => some .blockProcessor
  | transactions _ _ _ => some .transactionProcessor
  | virtualChain _ _ _ => some .virtualChainProcessor
  | checkpoints _ _ _ _ => some .checkpointProcessor

namespace TaskWorld

/-- The task is in a push loop on the queue. -/
def sitsIn (world : TaskWorld) : QueueName → TaskName → Bool
  | .blocks, .fetcher => world.fetcher.any fun fetcher => fetcher.task.isPushingBlock
  | .txs, .fetcher => world.fetcher.any fun fetcher => fetcher.task.isPushingTransactions
  | .checkpoint, .blockProcessor => world.blockProcessor.isPushing
  | .checkpoint, .transactionProcessor => world.transactionProcessor.isPushing
  | .checkpoint, .virtualChainProcessor => world.virtualChainProcessor.isPushing
  | _, _ => false

def IsFull (world : TaskWorld) : QueueName → Prop
  | .blocks => world.blocksQueue.IsFull
  | .txs => world.txsQueue.IsFull
  | .checkpoint => world.checkpointQueue.IsFull

/-- The queue's consumer exists and has not left its pop loop. -/
def consumerRuns (world : TaskWorld) : QueueName → Bool
  | .blocks => world.blockProcessor.runs
  | .txs => world.transactionProcessor.runs
  | .checkpoint => world.checkpointProcessor.runs

/-- The task is in a push loop on a full queue. -/
structure Blocked (world : TaskWorld) (queue : QueueName) (task : TaskName) : Prop where
  alive : world.ended = false
  sits : world.sitsIn queue task = true
  full : world.IsFull queue

/-- A shutdown is set, and the task's next turn ends its push loop. -/
def LeavesOnShutdown (settings : Settings) (world : TaskWorld) (queue : QueueName)
    (task : TaskName) : Prop :=
  world.shutdown = true ∧
    ∀ event, event.task = some task → (world.step settings event).sitsIn queue task = false

/-- No task is blocked but by a consumer that runs, or until it sees the shutdown. -/
def NoPermanentBlock (settings : Settings) (world : TaskWorld) : Prop :=
  ∀ queue task, world.Blocked queue task →
    world.consumerRuns queue = true ∨ world.LeavesOnShutdown settings queue task

/-- The number of notifications still to be pushed. -/
def pending (world : TaskWorld) : ℕ :=
  world.blockProcessor.pending + world.transactionProcessor.pending +
    world.virtualChainProcessor.pending

/-- Before a shutdown and without a transaction processor, the fetcher hands a block over to
`blocks_queue`, where that has room, only while `txs_queue` has room too; and where the
checkpoint processor leaves its loop, `checkpoint_queue` has room for all that is still to be
pushed. -/
def HasRoom (settings : Settings) (world : TaskWorld) : TaskEvent → Prop
  | .fetch _ => world.shutdown = false →
      settings.cliArgs.isDisabled .transactionProcessing = true →
      world.sitsIn .blocks .fetcher = true → ¬ world.blocksQueue.IsFull →
        ¬ world.txsQueue.IsFull
  | .checkpoints _ _ _ _ => world.shutdown = true →
      (∃ loop, world.checkpointProcessor = .looping loop) →
      world.checkpointQueue.items.length + world.pending ≤ world.checkpointQueue.capacity
  | .signal | .blocks _ _ _ | .transactions _ _ _ | .virtualChain _ _ _ => True

instance {Loop : Type} (task : Task Loop) : Decidable (∃ loop, task = .looping loop) :=
  match task with
  | .looping loop => isTrue ⟨loop, rfl⟩
  | .absent | .starting | .pushing _ _ _ | .returned => isFalse (by simp)

instance (settings : Settings) (world : TaskWorld) (event : TaskEvent) :
    Decidable (world.HasRoom settings event) :=
  match event with
  | .fetch _ => inferInstanceAs (Decidable (_ → _))
  | .checkpoints _ _ _ _ => inferInstanceAs (Decidable (_ → _))
  | .signal | .blocks _ _ _ | .transactions _ _ _ | .virtualChain _ _ _ => isTrue trivial

/-- The invariant. -/
structure Flowing (settings : Settings) (world : TaskWorld) : Prop where
  blocks : world.shutdown = false → world.blockProcessor.runs = true
  transactions : world.shutdown = false →
    settings.cliArgs.isDisabled .transactionProcessing = false →
    world.transactionProcessor.runs = true
  checkpoints : world.shutdown = false → world.checkpointProcessor.runs = true
  txs : world.shutdown = false →
    settings.cliArgs.isDisabled .transactionProcessing = true →
    world.sitsIn .txs .fetcher = true → ¬ world.txsQueue.IsFull
  /-- Without the checkpoint processor there is room for the rest. -/
  room : world.checkpointProcessor.runs = true ∨ (world.shutdown = true ∧
    world.checkpointQueue.items.length + world.pending ≤ world.checkpointQueue.capacity)

end TaskWorld

/-! ## One turn of a processor -/

namespace Task

variable {Loop : Type} {task next : Task Loop} {shutdown : Bool}
  {queue left : ArrayQueue CheckpointBlock} {start : Option Loop}
  {iterate : Loop → Option (Loop × List CheckpointBlock)}

@[simp]
theorem runs_after (loop : Loop) (pushed : List CheckpointBlock) :
    (after loop pushed).runs = true := by
  cases pushed <;> rfl

@[simp]
theorem pending_after (loop : Loop) (pushed : List CheckpointBlock) :
    (after loop pushed).pending = pushed.length := by
  cases pushed <;> rfl

/-- A task stops only at the test of its loop, at a shutdown. -/
theorem stops_of_turn (turned : task.turn shutdown queue start iterate = some (next, left))
    (stopped : next.runs = false) :
    task.runs = false ∨ (shutdown = true ∧ ∃ loop, task = .looping loop) := by
  cases task with
  | absent => exact Or.inl rfl
  | returned => exact Or.inl rfl
  | starting =>
      obtain ⟨loop, _, eq⟩ := Option.map_eq_some_iff.mp turned
      cases eq
      contradiction
  | looping loop =>
      cases shutdown with
      | true => exact Or.inr ⟨rfl, loop, rfl⟩
      | false =>
          simp only [turn, Bool.false_eq_true, if_false] at turned
          obtain ⟨result, _, eq⟩ := Option.map_eq_some_iff.mp turned
          cases eq
          simp at stopped
  | pushing loop item rest =>
      simp only [turn] at turned
      split at turned
      · cases turned
        simp at stopped
      · cases turned
        contradiction

theorem runs_of_turn (turned : task.turn shutdown queue start iterate = some (next, left))
    (up : shutdown = false) (runs : task.runs = true) : next.runs = true := by
  by_contra stopped
  rcases stops_of_turn turned (Bool.eq_false_of_not_eq_true stopped) with before | ⟨down, _⟩
  · rw [runs] at before
    contradiction
  · rw [up] at down
    contradiction

/-- At a shutdown a turn moves at most one notification to the queue. -/
theorem room_of_turn (turned : task.turn true queue start iterate = some (next, left)) :
    left.capacity = queue.capacity ∧
      left.items.length + next.pending = queue.items.length + task.pending := by
  cases task with
  | absent =>
      cases turned
      exact ⟨rfl, rfl⟩
  | returned =>
      cases turned
      exact ⟨rfl, rfl⟩
  | starting =>
      obtain ⟨loop, _, eq⟩ := Option.map_eq_some_iff.mp turned
      cases eq
      exact ⟨rfl, rfl⟩
  | looping loop =>
      cases turned
      exact ⟨rfl, rfl⟩
  | pushing loop item rest =>
      simp only [turn] at turned
      split at turned
      · rename_i pushed pushes
        cases turned
        obtain ⟨capacity, items⟩ := ArrayQueue.push_eq_some pushes
        refine ⟨capacity, ?_⟩
        rw [items, List.length_append, pending_after]
        simp only [List.length_cons, List.length_nil, pending]
        omega
      · cases turned
        exact ⟨rfl, rfl⟩

/-- Nothing can be pushed to a full queue. -/
theorem turn_of_isFull (full : queue.IsFull)
    (turned : task.turn shutdown queue start iterate = some (next, left)) :
    left = queue ∧ (task.isPushing = true → next.isPushing = true) := by
  cases task with
  | absent =>
      cases turned
      exact ⟨rfl, id⟩
  | returned =>
      cases turned
      exact ⟨rfl, id⟩
  | starting =>
      obtain ⟨loop, _, eq⟩ := Option.map_eq_some_iff.mp turned
      cases eq
      exact ⟨rfl, id⟩
  | looping loop =>
      simp only [turn] at turned
      split at turned
      · cases turned
        exact ⟨rfl, id⟩
      · obtain ⟨result, _, eq⟩ := Option.map_eq_some_iff.mp turned
        cases eq
        exact ⟨rfl, fun impossible => nomatch impossible⟩
  | pushing loop item rest =>
      simp only [turn, ArrayQueue.push_eq_none_iff.mpr full] at turned
      cases turned
      exact ⟨rfl, id⟩

/-- A task that does not run stays so. -/
theorem turn_of_stopped (stopped : task.runs = false)
    (turned : task.turn shutdown queue start iterate = some (next, left)) : next = task := by
  cases task with
  | absent =>
      cases turned
      rfl
  | returned =>
      cases turned
      rfl
  | starting => contradiction
  | looping loop => contradiction
  | pushing loop item rest => contradiction

end Task

/-! ## One turn of the fetcher -/

namespace VecnoBlocksFetcher

variable {fetcher : VecnoBlocksFetcher}

/-- Only a push to `blocks_queue` leads to the push loop on `txs_queue`. -/
theorem isPushingTransactions_step (input : FetchInput)
    (enters : (fetcher.step input).task.isPushingTransactions = true) :
    (fetcher.task.isPushingBlock = true ∧ input.full = false) ∨
      (fetcher.task.isPushingTransactions = true ∧ input.full = true) := by
  unfold step at enters
  have task : (fetcher.forget input).task = fetcher.task := rfl
  simp only [task] at enters
  cases fetcherTask : fetcher.task with
  | polling =>
      cases response : input.response with
      | none =>
          simp [fetcherTask, response, task, FetchTask.isPushingTransactions] at enters
      | some blocks =>
          simp only [fetcherTask, response, receive] at enters
          split at enters <;> simp [task, fetcherTask, FetchTask.isPushingTransactions] at enters
  | handling rest blockHash =>
      cases rest with
      | nil =>
          simp only [fetcherTask, finish] at enters
          split_ifs at enters <;> simp [FetchTask.isPushingTransactions] at enters
      | cons block rest =>
          simp only [fetcherTask, examine] at enters
          split_ifs at enters <;> simp [FetchTask.isPushingTransactions] at enters
  | pushingBlock block rest =>
      simp only [fetcherTask] at enters
      cases full : input.full with
      | false => exact Or.inl ⟨rfl, rfl⟩
      | true =>
          simp [full, task, fetcherTask, FetchTask.isPushingTransactions] at enters
  | pushingTransactions block rest =>
      simp only [fetcherTask] at enters
      cases full : input.full with
      | false =>
          simp [full, pushTransactions, FetchTask.isPushingTransactions] at enters
      | true => exact Or.inr ⟨rfl, rfl⟩
  | dead => simp [task, fetcherTask, FetchTask.isPushingTransactions] at enters

end VecnoBlocksFetcher

/-! ## Steps -/

namespace TaskWorld

variable {settings : Settings} {world : TaskWorld}

/-- Only the flags, the fetcher, the processors and two of the queues matter. -/
theorem Flowing.congr {next : TaskWorld} (flowing : world.Flowing settings)
    (shutdown : next.shutdown = world.shutdown)
    (blockProcessor : next.blockProcessor = world.blockProcessor)
    (transactionProcessor : next.transactionProcessor = world.transactionProcessor)
    (virtualChainProcessor : next.virtualChainProcessor = world.virtualChainProcessor)
    (checkpointProcessor : next.checkpointProcessor = world.checkpointProcessor)
    (checkpointQueue : next.checkpointQueue = world.checkpointQueue)
    (txs : next.shutdown = false → settings.cliArgs.isDisabled .transactionProcessing = true →
      next.sitsIn .txs .fetcher = true → ¬ next.txsQueue.IsFull) : next.Flowing settings where
  blocks := by
    rw [shutdown, blockProcessor]
    exact flowing.blocks
  transactions := by
    rw [shutdown, transactionProcessor]
    exact flowing.transactions
  checkpoints := by
    rw [shutdown, checkpointProcessor]
    exact flowing.checkpoints
  txs := txs
  room := by
    unfold pending
    rw [shutdown, blockProcessor, transactionProcessor, virtualChainProcessor,
      checkpointProcessor, checkpointQueue]
    exact flowing.room

theorem Flowing.signal (flowing : world.Flowing settings) : world.signal.Flowing settings := by
  unfold TaskWorld.signal
  split
  · exact flowing.congr rfl rfl rfl rfl rfl rfl flowing.txs
  · rename_i up
    constructor
    · exact fun stillUp => nomatch stillUp
    · exact fun stillUp => nomatch stillUp
    · exact fun stillUp => nomatch stillUp
    · exact fun stillUp => nomatch stillUp
    · exact Or.inl (flowing.checkpoints (Bool.eq_false_of_not_eq_true up))

theorem Flowing.fetch (flowing : world.Flowing settings) (input : FetchInput)
    (hasRoom : world.HasRoom settings (.fetch input)) :
    (world.fetch input).Flowing settings := by
  unfold TaskWorld.fetch
  cases running : world.fetcher with
  | none => exact flowing
  | some fetcher =>
      have enters := @VecnoBlocksFetcher.isPushingTransactions_step fetcher
      simp only
      cases task : fetcher.task with
      | polling =>
          refine flowing.congr rfl rfl rfl rfl rfl rfl fun up _ sits => ?_
          rw [task] at enters
          simp only [sitsIn] at up sits
          rw [up] at sits
          rcases enters input sits with ⟨impossible, _⟩ | ⟨impossible, _⟩
          · contradiction
          · contradiction
      | handling rest blockHash =>
          refine flowing.congr rfl rfl rfl rfl rfl rfl fun _ _ sits => ?_
          rw [task] at enters
          rcases enters input sits with ⟨impossible, _⟩ | ⟨impossible, _⟩
          · contradiction
          · contradiction
      | dead => exact flowing
      | pushingBlock block rest =>
          have sitting : world.sitsIn .blocks .fetcher = true := by
            simp [sitsIn, running, task, FetchTask.isPushingBlock]
          simp only
          split
          · rename_i down
            refine flowing.congr rfl rfl rfl rfl rfl rfl fun up => ?_
            exact absurd (down.symm.trans up) (by decide)
          · cases pushed : world.blocksQueue.push
                (VecnoBlocksFetcher.blockData fetcher.synced block) with
            | some blocksQueue =>
                have hasSpace : ¬ world.blocksQueue.IsFull := fun full => by
                  rw [ArrayQueue.push_eq_none_iff.mpr full] at pushed
                  contradiction
                refine flowing.congr rfl rfl rfl rfl rfl rfl fun up disabled _ => ?_
                exact hasRoom up disabled sitting hasSpace
            | none =>
                refine flowing.congr rfl rfl rfl rfl rfl rfl fun _ _ sits => ?_
                rw [task] at enters
                rcases enters _ sits with ⟨_, impossible⟩ | ⟨impossible, _⟩
                · contradiction
                · contradiction
      | pushingTransactions block rest =>
          have sitting : world.sitsIn .txs .fetcher = true := by
            simp [sitsIn, running, task, FetchTask.isPushingTransactions]
          simp only
          split
          · rename_i down
            refine flowing.congr rfl rfl rfl rfl rfl rfl fun up => ?_
            exact absurd (down.symm.trans up) (by decide)
          · split
            · refine flowing.congr rfl rfl rfl rfl rfl rfl fun _ _ sits => ?_
              rw [task] at enters
              rcases enters _ sits with ⟨impossible, _⟩ | ⟨_, impossible⟩
              · contradiction
              · contradiction
            · refine flowing.congr rfl rfl rfl rfl rfl rfl fun up disabled _ => ?_
              exact flowing.txs up disabled sitting

/-- A turn of a processor that pushes notifications. -/
theorem Flowing.of_turn {next : TaskWorld} (flowing : world.Flowing settings)
    (shutdown : next.shutdown = world.shutdown)
    (blocks : world.shutdown = false → world.blockProcessor.runs = true →
      next.blockProcessor.runs = true)
    (transactions : world.shutdown = false → world.transactionProcessor.runs = true →
      next.transactionProcessor.runs = true)
    (checkpoints : next.checkpointProcessor = world.checkpointProcessor)
    (txs : next.sitsIn .txs .fetcher = true → world.sitsIn .txs .fetcher = true ∧
      (¬ world.txsQueue.IsFull → ¬ next.txsQueue.IsFull))
    (room : world.shutdown = true →
      next.checkpointQueue.capacity = world.checkpointQueue.capacity ∧
        next.checkpointQueue.items.length + next.pending =
          world.checkpointQueue.items.length + world.pending) : next.Flowing settings where
  blocks up := blocks (shutdown ▸ up) (flowing.blocks (shutdown ▸ up))
  transactions up enabled :=
    transactions (shutdown ▸ up) (flowing.transactions (shutdown ▸ up) enabled)
  checkpoints up := by
    rw [checkpoints]
    exact flowing.checkpoints (shutdown ▸ up)
  txs up disabled sits :=
    (txs sits).2 (flowing.txs (shutdown ▸ up) disabled (txs sits).1)
  room := by
    rw [checkpoints]
    rcases flowing.room with runs | ⟨down, enough⟩
    · exact Or.inl runs
    · obtain ⟨capacity, count⟩ := room down
      rw [shutdown, capacity, count]
      exact Or.inr ⟨down, enough⟩

theorem Flowing.processBlocks (flowing : world.Flowing settings) (input : BlockInput) (db : Db)
    (script : Script) : (world.processBlocks settings input db script).Flowing settings := by
  unfold TaskWorld.processBlocks
  simp only
  split
  · exact flowing.congr rfl rfl rfl rfl rfl rfl flowing.txs
  · rename_i blockProcessor checkpointQueue turned
    refine flowing.of_turn rfl (Task.runs_of_turn turned) (fun _ => id) rfl
      (fun sits => ⟨sits, id⟩) fun down => ?_
    rw [down] at turned
    obtain ⟨capacity, count⟩ := Task.room_of_turn turned
    refine ⟨capacity, ?_⟩
    simp only [pending]
    omega

theorem Flowing.processTransactions (flowing : world.Flowing settings) (input : TransactionsInput)
    (db : Db) (script : Script) :
    (world.processTransactions settings input db script).Flowing settings := by
  unfold TaskWorld.processTransactions
  simp only
  split
  · exact flowing.congr rfl rfl rfl rfl rfl rfl flowing.txs
  · rename_i transactionProcessor checkpointQueue turned
    refine flowing.of_turn rfl (fun _ => id) (Task.runs_of_turn turned) rfl
      (fun sits => ⟨sits, fun notFull => ?_⟩) fun down => ?_
    · dsimp only
      split
      · exact ArrayQueue.not_isFull_pop notFull
      · exact notFull
    · rw [down] at turned
      obtain ⟨capacity, count⟩ := Task.room_of_turn turned
      refine ⟨capacity, ?_⟩
      simp only [pending]
      omega

theorem Flowing.processVirtualChain (flowing : world.Flowing settings) (input : VcpInput) (db : Db)
    (script : Script) :
    (world.processVirtualChain settings input db script).Flowing settings := by
  unfold TaskWorld.processVirtualChain
  split
  · exact flowing.congr rfl rfl rfl rfl rfl rfl flowing.txs
  · rename_i virtualChainProcessor checkpointQueue turned
    refine flowing.of_turn rfl (fun _ => id) (fun _ => id) rfl (fun sits => ⟨sits, id⟩)
      fun down => ?_
    rw [down] at turned
    obtain ⟨capacity, count⟩ := Task.room_of_turn turned
    refine ⟨capacity, ?_⟩
    simp only [pending]
    omega

/-- The checkpoint processor leaves only at a shutdown, with room for the rest. -/
theorem Flowing.processCheckpoints (flowing : world.Flowing settings) (input : CheckpointInput)
    (hashOrder : Reordering (String × Int)) (db : Db) (script : Script)
    (hasRoom : world.HasRoom settings (.checkpoints input hashOrder db script)) :
    (world.processCheckpoints settings input hashOrder db script).Flowing settings := by
  unfold TaskWorld.processCheckpoints
  simp only
  split
  · exact flowing.congr rfl rfl rfl rfl rfl rfl flowing.txs
  · rename_i checkpointProcessor _ turned
    constructor
    · exact flowing.blocks
    · exact flowing.transactions
    · exact fun up => Task.runs_of_turn turned up (flowing.checkpoints up)
    · exact flowing.txs
    · cases stopped : checkpointProcessor.runs with
      | true => exact Or.inl rfl
      | false =>
          have left : world.shutdown = true ∧ world.checkpointQueue.items.length +
              world.pending ≤ world.checkpointQueue.capacity := by
            rcases Task.stops_of_turn turned stopped with before | ⟨down, looping⟩
            · rcases flowing.room with runs | room
              · exact absurd (before.symm.trans runs) Bool.false_ne_true
              · exact room
            · exact ⟨down, hasRoom down looping⟩
          have same : world.checkpointProcessor.iterates world.shutdown = false := by
            rw [left.1]
            cases world.checkpointProcessor <;> rfl
          rw [same, if_neg Bool.false_ne_true]
          exact Or.inr left

/-- The step lemma. -/
theorem Flowing.step (flowing : world.Flowing settings) (event : TaskEvent)
    (hasRoom : world.HasRoom settings event) : (world.step settings event).Flowing settings := by
  unfold TaskWorld.step
  split
  · exact flowing
  · cases event with
    | signal => exact flowing.signal
    | fetch input => exact flowing.fetch input hasRoom
    | blocks input db script => exact flowing.processBlocks input db script
    | transactions input db script => exact flowing.processTransactions input db script
    | virtualChain input db script => exact flowing.processVirtualChain input db script
    | checkpoints input hashOrder db script =>
        exact flowing.processCheckpoints input hashOrder db script hasRoom

theorem flowing_spawn (settings : Settings) (previousCheckpoint : Option String)
    (queueCapacity checkpointCapacity : ℕ) :
    (spawn settings previousCheckpoint queueCapacity checkpointCapacity).Flowing settings where
  blocks _ := rfl
  transactions _ enabled := by
    simp [spawn, enabled, Task.runs]
  checkpoints _ := rfl
  txs _ _ sits := nomatch sits
  room := Or.inl rfl

/-! ## Blocked tasks -/

/-- At a shutdown the fetcher leaves its push loops. -/
theorem leavesOnShutdown_fetcher (alive : world.ended = false) (down : world.shutdown = true)
    {queue : QueueName} (sits : world.sitsIn queue .fetcher = true) :
    world.LeavesOnShutdown settings queue .fetcher := by
  refine ⟨down, fun event turn => ?_⟩
  cases event with
  | fetch input =>
      have stepped : world.step settings (.fetch input) = world.fetch input := by
        simp [TaskWorld.step, alive]
      rw [stepped]
      unfold TaskWorld.fetch
      cases running : world.fetcher with
      | none => cases queue <;> simp [sitsIn, running] at sits
      | some fetcher =>
          cases queue with
          | blocks =>
              cases task : fetcher.task <;>
                simp [sitsIn, running, task, FetchTask.isPushingBlock] at sits
              simp [task, down, sitsIn, VecnoBlocksFetcher.leaveBlock, FetchTask.isPushingBlock]
          | txs =>
              cases task : fetcher.task <;>
                simp [sitsIn, running, task, FetchTask.isPushingTransactions] at sits
              simp [task, down, sitsIn, VecnoBlocksFetcher.leaveTransactions,
                VecnoBlocksFetcher.pushTransactions, FetchTask.isPushingTransactions]
          | checkpoint => simp [sitsIn] at sits
  | _ => simp [TaskEvent.task] at turn

/-- A processor that pushes has something to push. -/
theorem pending_pos {task : TaskName} (sits : world.sitsIn .checkpoint task = true) :
    0 < world.pending := by
  have positive : ∀ {Loop : Type} {processor : Task Loop}, processor.isPushing = true →
      0 < processor.pending := by
    intro Loop processor pushes
    cases processor <;> simp [Task.isPushing, Task.pending] at pushes ⊢
  unfold pending
  cases task with
  | fetcher => contradiction
  | checkpointProcessor => contradiction
  | blockProcessor =>
      have := positive sits
      omega
  | transactionProcessor =>
      have := positive sits
      omega
  | virtualChainProcessor =>
      have := positive sits
      omega

/-- The invariant excludes a permanent block. -/
theorem Flowing.noPermanentBlock (flowing : world.Flowing settings) :
    world.NoPermanentBlock settings := by
  rintro queue task ⟨alive, sits, full⟩
  cases queue with
  | blocks =>
      cases task with
      | fetcher =>
          cases down : world.shutdown with
          | true => exact Or.inr (leavesOnShutdown_fetcher alive down sits)
          | false => exact Or.inl (flowing.blocks down)
      | _ => contradiction
  | txs =>
      cases task with
      | fetcher =>
          cases down : world.shutdown with
          | true => exact Or.inr (leavesOnShutdown_fetcher alive down sits)
          | false =>
              cases disabled : settings.cliArgs.isDisabled .transactionProcessing with
              | true => exact absurd full (flowing.txs down disabled sits)
              | false => exact Or.inl (flowing.transactions down disabled)
      | _ => contradiction
  | checkpoint =>
      rcases flowing.room with runs | ⟨_, enough⟩
      · exact Or.inl runs
      · have positive := pending_pos sits
        exact absurd full (ArrayQueue.not_isFull_of_lt (by omega))

/-- In every run of the tasks that finds room where the consumer of a queue is missing or
leaves, no task is blocked for good. -/
theorem noPermanentBlock_of_run (settings : Settings) (previousCheckpoint : Option String)
    (queueCapacity checkpointCapacity : ℕ) {events : List TaskEvent}
    (hasRoom : Along (TaskWorld.step settings) (TaskWorld.HasRoom settings)
      (spawn settings previousCheckpoint queueCapacity checkpointCapacity) events) :
    (runFrom (TaskWorld.step settings)
      (spawn settings previousCheckpoint queueCapacity checkpointCapacity)
        events).NoPermanentBlock settings :=
  (invariant_of_along (fun _ event flowing => flowing.step event)
    (flowing_spawn settings previousCheckpoint queueCapacity checkpointCapacity)
    hasRoom).noPermanentBlock

/-! ## Blocked for good -/

/-- `checkpoint_queue` is full and its consumer is gone, while a task is pushing to it. -/
structure Stuck (world : TaskWorld) (task : TaskName) : Prop where
  gone : world.checkpointProcessor.runs = false
  full : world.checkpointQueue.IsFull
  sits : world.sitsIn .checkpoint task = true

/-- Where the queue and its consumer are the same, only the task matters. -/
theorem Stuck.congr {task : TaskName} {next : TaskWorld} (stuck : world.Stuck task)
    (checkpointProcessor : next.checkpointProcessor = world.checkpointProcessor)
    (checkpointQueue : next.checkpointQueue = world.checkpointQueue)
    (sits : next.sitsIn .checkpoint task = true) : next.Stuck task where
  gone := checkpointProcessor ▸ stuck.gone
  full := checkpointQueue ▸ stuck.full
  sits := sits

/-- Nothing but the fetcher, the flags and other queues changes. -/
theorem Stuck.aside {task : TaskName} {next : TaskWorld} (stuck : world.Stuck task)
    (blockProcessor : next.blockProcessor = world.blockProcessor)
    (transactionProcessor : next.transactionProcessor = world.transactionProcessor)
    (virtualChainProcessor : next.virtualChainProcessor = world.virtualChainProcessor)
    (checkpointProcessor : next.checkpointProcessor = world.checkpointProcessor)
    (checkpointQueue : next.checkpointQueue = world.checkpointQueue) : next.Stuck task := by
  refine stuck.congr checkpointProcessor checkpointQueue ?_
  have sits := stuck.sits
  cases task with
  | fetcher => contradiction
  | checkpointProcessor => contradiction
  | blockProcessor =>
      simp only [sitsIn, blockProcessor] at sits ⊢
      exact sits
  | transactionProcessor =>
      simp only [sitsIn, transactionProcessor] at sits ⊢
      exact sits
  | virtualChainProcessor =>
      simp only [sitsIn, virtualChainProcessor] at sits ⊢
      exact sits

theorem Stuck.signal {task : TaskName} (stuck : world.Stuck task) : world.signal.Stuck task := by
  unfold TaskWorld.signal
  split
  · exact stuck.aside rfl rfl rfl rfl rfl
  · exact stuck.aside rfl rfl rfl rfl rfl

theorem Stuck.fetch {task : TaskName} (stuck : world.Stuck task) (input : FetchInput) :
    (world.fetch input).Stuck task := by
  unfold TaskWorld.fetch
  split
  · exact stuck
  · split
    · exact stuck.aside rfl rfl rfl rfl rfl
    · exact stuck.aside rfl rfl rfl rfl rfl
    · split
      · exact stuck.aside rfl rfl rfl rfl rfl
      · split
        · exact stuck.aside rfl rfl rfl rfl rfl
        · exact stuck.aside rfl rfl rfl rfl rfl
    · split
      · exact stuck.aside rfl rfl rfl rfl rfl
      · split
        · exact stuck.aside rfl rfl rfl rfl rfl
        · exact stuck.aside rfl rfl rfl rfl rfl
    · exact stuck

theorem Stuck.processBlocks {task : TaskName} (stuck : world.Stuck task) (input : BlockInput)
    (db : Db) (script : Script) :
    (world.processBlocks settings input db script).Stuck task := by
  unfold TaskWorld.processBlocks
  simp only
  split
  · exact stuck.aside rfl rfl rfl rfl rfl
  · rename_i turned
    obtain ⟨same, pushes⟩ := Task.turn_of_isFull stuck.full turned
    refine stuck.congr rfl same ?_
    cases task with
    | blockProcessor => exact pushes stuck.sits
    | _ => exact stuck.sits

theorem Stuck.processTransactions {task : TaskName} (stuck : world.Stuck task)
    (input : TransactionsInput) (db : Db) (script : Script) :
    (world.processTransactions settings input db script).Stuck task := by
  unfold TaskWorld.processTransactions
  simp only
  split
  · exact stuck.aside rfl rfl rfl rfl rfl
  · rename_i turned
    obtain ⟨same, pushes⟩ := Task.turn_of_isFull stuck.full turned
    refine stuck.congr rfl same ?_
    cases task with
    | transactionProcessor => exact pushes stuck.sits
    | _ => exact stuck.sits

theorem Stuck.processVirtualChain {task : TaskName} (stuck : world.Stuck task) (input : VcpInput)
    (db : Db) (script : Script) :
    (world.processVirtualChain settings input db script).Stuck task := by
  unfold TaskWorld.processVirtualChain
  split
  · exact stuck.aside rfl rfl rfl rfl rfl
  · rename_i turned
    obtain ⟨same, pushes⟩ := Task.turn_of_isFull stuck.full turned
    refine stuck.congr rfl same ?_
    cases task with
    | virtualChainProcessor => exact pushes stuck.sits
    | _ => exact stuck.sits

theorem Stuck.processCheckpoints {task : TaskName} (stuck : world.Stuck task)
    (input : CheckpointInput) (hashOrder : Reordering (String × Int)) (db : Db) (script : Script) :
    (world.processCheckpoints settings input hashOrder db script).Stuck task := by
  unfold TaskWorld.processCheckpoints
  simp only
  split
  · exact stuck.aside rfl rfl rfl rfl rfl
  · rename_i turned
    have idle : world.checkpointProcessor.iterates world.shutdown = false := by
      have gone := stuck.gone
      cases processor : world.checkpointProcessor with
      | looping loop =>
          rw [processor] at gone
          contradiction
      | _ => rfl
    refine stuck.aside rfl rfl rfl (Task.turn_of_stopped stuck.gone turned) ?_
    simp only [idle, Bool.false_eq_true, if_false]

/-- A push loop on a full `checkpoint_queue` whose consumer has left never ends, whatever
the tasks do and whether or not a shutdown is set. -/
theorem stuck_of_run {task : TaskName} (stuck : world.Stuck task) (events : List TaskEvent) :
    (runFrom (TaskWorld.step settings) world events).Stuck task := by
  have preserved : ∀ (middle : TaskWorld) (event : TaskEvent), middle.Stuck task →
      (middle.step settings event).Stuck task := by
    intro middle event stuck
    unfold TaskWorld.step
    split
    · exact stuck
    · cases event with
      | signal => exact stuck.signal
      | fetch input => exact stuck.fetch input
      | blocks input db script => exact stuck.processBlocks input db script
      | transactions input db script => exact stuck.processTransactions input db script
      | virtualChain input db script => exact stuck.processVirtualChain input db script
      | checkpoints input hashOrder db script =>
          exact stuck.processCheckpoints input hashOrder db script
  exact @invariant_of_run _ _ _ (fun world : TaskWorld => world.Stuck task) preserved _ events stuck

end TaskWorld

/-! ## No transaction processor -/

/-- The smallest scale, and no transaction processing. -/
def unprocessedSettings : Settings where
  cliArgs := { CliArgs.standard with
    batchScale := ⟨1 / 10, le_refl _, by norm_num⟩
    disable := some [.transactionProcessing] }
  netBps := 1
  checkpoint := 0
  disableVcpWaitForSync := false

def fetchTurn (response : Option (List RpcBlock)) : TaskEvent :=
  .fetch {
    response
    tipHashes := none
    timestampValid := true
    forgotten := fun _ => false
    full := false
    refused := false }

def blocksTurn (now : ℕ) : TaskEvent :=
  .blocks ⟨none, now, now, true⟩ .empty fun _ => .succeeds

def checkpointsTurn : TaskEvent :=
  .checkpoints ⟨none, 0, 0, 0, 0⟩ .listed .empty fun _ => .succeeds

/-- Of one more block than the queues have room for, all but the last are handed over. -/
def waitingEvents : List TaskEvent :=
  let blocks := (List.range 101).map fun n => plainBlock (BitVec.ofNat 256 n) 0 0
  fetchTurn (some blocks) :: List.replicate 302 (fetchTurn none)

def unprocessedFrom (events : List TaskEvent) : TaskWorld :=
  runFrom (TaskWorld.step unprocessedSettings)
    (.spawn unprocessedSettings none 100 TaskWorld.checkpointCapacity) events

theorem queueCapacity_unprocessed :
    TaskWorld.queueCapacity unprocessedSettings.cliArgs.batchScale = 100 := by
  norm_num [TaskWorld.queueCapacity, BatchScale.scaled, unprocessedSettings]

/-- The block processor commits the first block, and the checkpoint processor leaves at a
shutdown before the notification is pushed. -/
def leavingEvents : List TaskEvent :=
  [blocksTurn 0, checkpointsTurn, blocksTurn 10000000000, .signal, checkpointsTurn]

theorem leaving_noPermanentBlock :
    ((unprocessedFrom waitingEvents).Blocked .blocks .fetcher ∧
      (unprocessedFrom waitingEvents).NoPermanentBlock unprocessedSettings) ∧
    (unprocessedFrom (waitingEvents ++ leavingEvents)).checkpointProcessor.runs = false ∧
    (unprocessedFrom (waitingEvents ++ leavingEvents)).pending = 1 ∧
    (unprocessedFrom (waitingEvents ++ leavingEvents)).NoPermanentBlock unprocessedSettings := by
  have hasRoom : Along (TaskWorld.step unprocessedSettings)
      (TaskWorld.HasRoom unprocessedSettings)
      (.spawn unprocessedSettings none 100 TaskWorld.checkpointCapacity)
      (waitingEvents ++ leavingEvents) := by
    decide +kernel
  have waiting : (unprocessedFrom waitingEvents).ended = false ∧
      (unprocessedFrom waitingEvents).sitsIn .blocks .fetcher = true ∧
      (unprocessedFrom waitingEvents).blocksQueue.IsFull := by
    decide +kernel
  have leaving : (unprocessedFrom (waitingEvents ++ leavingEvents)).checkpointProcessor.runs =
        false ∧ (unprocessedFrom (waitingEvents ++ leavingEvents)).pending = 1 := by
    decide +kernel
  refine ⟨⟨⟨waiting.1, waiting.2.1, waiting.2.2⟩, ?_⟩, leaving.1, leaving.2, ?_⟩
  · exact TaskWorld.noPermanentBlock_of_run unprocessedSettings none 100 _
      (along_append.mp hasRoom).1
  · exact TaskWorld.noPermanentBlock_of_run unprocessedSettings none 100 _ hasRoom

/-- The block processor pops a block, and the last one is handed over to it. -/
def unprocessedWorld : TaskWorld :=
  unprocessedFrom (waitingEvents ++
    [blocksTurn 0, blocksTurn 0, fetchTurn none])

/-- No shutdown is set, and nothing will be popped. -/
theorem unprocessed_blocked :
    TaskWorld.queueCapacity unprocessedSettings.cliArgs.batchScale = 100 ∧
      ¬ unprocessedWorld.NoPermanentBlock unprocessedSettings := by
  refine ⟨queueCapacity_unprocessed, fun unblocked => ?_⟩
  have state : unprocessedWorld.ended = false ∧
      unprocessedWorld.sitsIn .txs .fetcher = true ∧ unprocessedWorld.txsQueue.IsFull ∧
      unprocessedWorld.transactionProcessor.runs = false ∧ unprocessedWorld.shutdown = false := by
    decide +kernel
  obtain ⟨alive, sits, full, absent, up⟩ := state
  rcases unblocked .txs .fetcher ⟨alive, sits, full⟩ with runs | ⟨down, _⟩
  · exact absurd (absent.symm.trans runs) Bool.false_ne_true
  · exact absurd (up.symm.trans down) Bool.false_ne_true

end VecnoIndexer
