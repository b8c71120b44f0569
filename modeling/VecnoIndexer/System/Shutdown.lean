import VecnoIndexer.System.Channels
import VecnoIndexer.Tasks.Blocking

/-!
# After a shutdown

From a shutdown on the tasks take nothing from their queues and leave the database as it is,
as the flag is tested before each iteration; one that is under way is finished.  They push
what they have issued and leave their loops.  The checkpoint processor leaves its loop with
them, so all of this has to fit in `checkpoint_queue`; if it does not, some task never leaves.
-/

namespace VecnoIndexer

open VecnoIndexer.Sql
open VecnoIndexer.Collections
open VecnoIndexer.Transition

/-! ## The turns left -/

/-- The turns it takes a task to leave its loop after a shutdown, if no push fails. -/
def Task.turnsLeft {Loop : Type} : Task Loop → ℕ
  | absent | returned => 0
  | looping _ => 1
  | starting => 2
  | pushing _ _ rest => rest.length + 2

/-- The fetcher goes through the blocks of its response first. -/
def FetchTask.turnsLeft : FetchTask → ℕ
  | dead => 0
  | polling => 1
  | handling rest _ => 3 * rest.length + 2
  | pushingTransactions _ rest => 3 * rest.length + 3
  | pushingBlock _ rest => 3 * rest.length + 4

/-- The task whose turn it is. -/
def SystemEvent.task : SystemEvent → Option TaskName
  | signal => none
  | fetch _ => some .fetcher
  | blocks _ _ => some .blockProcessor
  | transactions _ _ => some .transactionProcessor
  | virtualChain _ _ => some .virtualChainProcessor
  | checkpoints _ _ _ => some .checkpointProcessor

/-- It is a turn of the task. -/
def SystemEvent.isTurnOf (task : TaskName) (event : SystemEvent) : Bool :=
  event.task = some task

namespace TaskWorld

def turnsLeft (world : TaskWorld) : TaskName → ℕ
  | .fetcher => world.fetcher.elim 0 fun fetcher => fetcher.task.turnsLeft
  | .blockProcessor => world.blockProcessor.turnsLeft
  | .transactionProcessor => world.transactionProcessor.turnsLeft
  | .virtualChainProcessor => world.virtualChainProcessor.turnsLeft
  | .checkpointProcessor => world.checkpointProcessor.turnsLeft

/-- No task is in its loop any more. -/
structure Finished (world : TaskWorld) : Prop where
  fetcher : world.fetcher = none
  blockProcessor : world.blockProcessor.runs = false
  transactionProcessor : world.transactionProcessor.runs = false
  virtualChainProcessor : world.virtualChainProcessor.runs = false
  checkpointProcessor : world.checkpointProcessor.runs = false

/-- `checkpoint_queue` has room for all that is still to be pushed. -/
def Fits (world : TaskWorld) : Prop :=
  world.checkpointQueue.items.length + world.pending ≤ world.checkpointQueue.capacity

instance (world : TaskWorld) : Decidable world.Fits :=
  inferInstanceAs (Decidable (_ ≤ _))

/-- The fetcher has not panicked, and the checkpoint processor pushes nothing. -/
structure Orderly (world : TaskWorld) : Prop where
  fetcher : ∀ fetcher, world.fetcher = some fetcher → fetcher.task ≠ .dead
  checkpoints : world.checkpointProcessor.pending = 0

end TaskWorld

/-! ## One turn of a processor -/

namespace Task

variable {Loop : Type} {task next : Task Loop} {queue left : ArrayQueue CheckpointBlock}
  {start : Option Loop} {iterate : Loop → Option (Loop × List CheckpointBlock)}

theorem turnsLeft_eq_zero_iff : task.turnsLeft = 0 ↔ task.runs = false := by
  cases task <;> simp [turnsLeft, runs]

@[simp]
theorem turnsLeft_after (loop : Loop) (pushed : List CheckpointBlock) :
    (after loop pushed).turnsLeft = pushed.length + 1 := by
  cases pushed <;> rfl

theorem pending_of_stopped (stopped : task.runs = false) : task.pending = 0 := by
  cases task with
  | absent => rfl
  | returned => rfl
  | _ => contradiction

@[simp]
theorem iterates_of_down : task.iterates true = false := by
  cases task <;> rfl

@[simp]
theorem taken_of_down {α : Type} (items : ArrayQueue α) : task.taken true items = [] := by
  simp [taken]

/-- A task whose iterations issue nothing never pushes. -/
theorem Turned.pending_eq_zero {shutdown : Bool}
    (turned : Turned shutdown queue start iterate task next left) (nothing : task.pending = 0)
    (silent : ∀ loop final pushed, iterate loop = some (final, pushed) → pushed = []) :
    next.pending = 0 := by
  cases turned with
  | rests _ => exact nothing
  | starts _ => rfl
  | stops _ => rfl
  | iterates _ iterated =>
      rw [silent _ _ _ iterated]
      rfl
  | pushes _ => contradiction
  | waits _ => contradiction

/-- With room for what it has to push, a task is one turn closer to its end. -/
theorem Turned.turnsLeft_le (turned : Turned true queue start iterate task next left)
    (room : queue.items.length + task.pending ≤ queue.capacity) :
    next.turnsLeft ≤ task.turnsLeft - 1 := by
  cases turned with
  | rests stopped =>
      have noneLeft := turnsLeft_eq_zero_iff.mpr stopped
      omega
  | starts _ => exact Nat.le_refl _
  | stops _ => exact Nat.le_refl _
  | iterates up _ => contradiction
  | pushes _ =>
      rw [turnsLeft_after]
      exact Nat.le_refl _
  | waits full =>
      have isFull : queue.items.length = queue.capacity := ArrayQueue.push_eq_none_iff.mp full
      simp only [pending] at room
      omega

end Task

/-! ## One turn of the fetcher -/

namespace TaskWorld

variable {world : TaskWorld} {input : FetchInput}

/-- A panic of the fetcher ends the process. -/
theorem ne_dead_fetch (orderly : world.Orderly) (lives : (world.fetch input).ended = false)
    {fetcher : VecnoBlocksFetcher} (isNext : (world.fetch input).fetcher = some fetcher) :
    fetcher.task ≠ .dead := by
  unfold TaskWorld.fetch at lives isNext
  cases running : world.fetcher with
  | none =>
      rw [running] at isNext
      exact orderly.fetcher fetcher isNext
  | some before =>
      have task : ∀ input, (before.forget input).task = before.task := fun _ => rfl
      cases fetcherTask : before.task with
      | polling =>
          simp only [running, fetcherTask, VecnoBlocksFetcher.step, task] at isNext
          split at isNext
          · contradiction
          · cases isNext
            cases input.response with
            | none =>
                simp only [task, fetcherTask]
                rintro ⟨⟩
            | some blocks =>
                simp only [VecnoBlocksFetcher.receive]
                split
                · rintro ⟨⟩
                · simp only [task, fetcherTask]
                  rintro ⟨⟩
      | handling rest blockHash =>
          simp only [running, fetcherTask] at lives isNext
          cases isNext
          exact of_decide_eq_false lives
      | pushingBlock block rest =>
          simp only [running, fetcherTask, VecnoBlocksFetcher.step, task] at isNext
          split at isNext
          · cases isNext
            rintro ⟨⟩
          · split at isNext
            · cases isNext
              rintro ⟨⟩
            · cases isNext
              simp only [if_true, task, fetcherTask]
              rintro ⟨⟩
      | pushingTransactions block rest =>
          simp only [running, fetcherTask, VecnoBlocksFetcher.step, task] at isNext
          split at isNext
          · cases isNext
            rintro ⟨⟩
          · split at isNext
            · cases isNext
              rintro ⟨⟩
            · cases isNext
              simp only [if_true, task, fetcherTask]
              rintro ⟨⟩
      | dead => exact absurd fetcherTask (orderly.fetcher before running)

/-- After a shutdown no turn of the fetcher is in vain. -/
theorem turnsLeft_fetch (orderly : world.Orderly) (down : world.shutdown = true) :
    (world.fetch input).turnsLeft .fetcher ≤ world.turnsLeft .fetcher - 1 := by
  unfold TaskWorld.fetch
  cases running : world.fetcher with
  | none => simp [turnsLeft, running]
  | some fetcher =>
      have task : (fetcher.forget input).task = fetcher.task := rfl
      cases fetcherTask : fetcher.task with
      | polling =>
          simp only [turnsLeft, down, fetcherTask, if_true, Option.elim_none, Nat.zero_le]
      | handling rest blockHash =>
          simp only [turnsLeft, running, fetcherTask, Option.elim_some, VecnoBlocksFetcher.step,
            task]
          cases rest with
          | nil =>
              simp only [VecnoBlocksFetcher.finish]
              split <;> simp [FetchTask.turnsLeft]
          | cons block rest =>
              simp only [VecnoBlocksFetcher.examine]
              split <;> simp only [FetchTask.turnsLeft, List.length_cons] <;> omega
      | pushingBlock block rest =>
          simp [turnsLeft, running, down, fetcherTask, VecnoBlocksFetcher.leaveBlock,
            FetchTask.turnsLeft]
      | pushingTransactions block rest =>
          simp [turnsLeft, running, down, fetcherTask, VecnoBlocksFetcher.leaveTransactions,
            VecnoBlocksFetcher.pushTransactions, FetchTask.turnsLeft]
      | dead => exact absurd fetcherTask (orderly.fetcher fetcher running)

/-- The tasks that have no turns left have left their loops. -/
theorem Orderly.finished (orderly : world.Orderly)
    (noneLeft : ∀ task, world.turnsLeft task = 0) : world.Finished where
  fetcher := by
    have left := noneLeft .fetcher
    cases running : world.fetcher with
    | none => rfl
    | some fetcher =>
        simp only [turnsLeft, running, Option.elim_some] at left
        have lives := orderly.fetcher fetcher running
        cases task : fetcher.task <;> simp [task, FetchTask.turnsLeft] at left lives
  blockProcessor := Task.turnsLeft_eq_zero_iff.mp (noneLeft .blockProcessor)
  transactionProcessor := Task.turnsLeft_eq_zero_iff.mp (noneLeft .transactionProcessor)
  virtualChainProcessor := Task.turnsLeft_eq_zero_iff.mp (noneLeft .virtualChainProcessor)
  checkpointProcessor := Task.turnsLeft_eq_zero_iff.mp (noneLeft .checkpointProcessor)

theorem Finished.pending (finished : world.Finished) : world.pending = 0 := by
  unfold TaskWorld.pending
  rw [Task.pending_of_stopped finished.blockProcessor,
    Task.pending_of_stopped finished.transactionProcessor,
    Task.pending_of_stopped finished.virtualChainProcessor]

end TaskWorld

/-! ## Steps -/

namespace System

variable {settings : Settings} {down system next : System} {event : SystemEvent}

theorem dbAfter_of_down (shutdown : system.tasks.shutdown = true) :
    system.dbAfter settings event = system.db := by
  cases event with
  | signal => rfl
  | fetch input => rfl
  | blocks input script =>
      simp only [dbAfter, shutdown]
      cases system.tasks.blockProcessor <;> rfl
  | transactions input script =>
      simp only [dbAfter, shutdown]
      cases system.tasks.transactionProcessor with
      | starting => exact state_transactionLoop_start _ _ _
      | _ => rfl
  | virtualChain input script =>
      simp only [dbAfter, shutdown]
      cases system.tasks.virtualChainProcessor <;> rfl
  | checkpoints input hashOrder script =>
      simp only [dbAfter, shutdown]
      cases system.tasks.checkpointProcessor <;> rfl

/-- What stays as it was at a shutdown. -/
structure WindsDown (down system : System) : Prop where
  db : system.db = down.db
  poppedBlocks : system.log.poppedBlocks = down.log.poppedBlocks
  poppedTransactions : system.log.poppedTransactions = down.log.poppedTransactions
  dequeued : system.log.dequeued = down.log.dequeued
  capacity : system.tasks.checkpointQueue.capacity = down.tasks.checkpointQueue.capacity
  /-- What leaves a task is on `checkpoint_queue`. -/
  notifications : system.tasks.checkpointQueue.items.length + system.tasks.pending =
    down.tasks.checkpointQueue.items.length + down.tasks.pending

/-- The invariant. -/
structure WindingDown (down system : System) : Prop extends WindsDown down system where
  shutdown : system.tasks.shutdown = true
  orderly : system.tasks.Orderly

theorem WindsDown.fits_iff (windsDown : WindsDown down system) :
    system.tasks.Fits ↔ down.tasks.Fits := by
  unfold TaskWorld.Fits
  rw [windsDown.notifications, windsDown.capacity]

theorem orderly_spawn (settings : Settings) (previousCheckpoint : Option String)
    (queueCapacity checkpointCapacity : ℕ) (db : Db) :
    (spawn settings previousCheckpoint queueCapacity checkpointCapacity db).tasks.Orderly where
  fetcher := by
    rintro fetcher ⟨⟩
    exact nofun
  checkpoints := rfl

theorem orderly_step (orderly : system.tasks.Orderly)
    (stepped : Stepped settings system event next) (lives : next.tasks.ended = false) :
    next.tasks.Orderly := by
  cases stepped with
  | idle _ => exact orderly
  | dies ended => exact absurd (ended.symm.trans lives) (by decide)
  | signal _ => exact { orderly with }
  | fetch _ input _ =>
      obtain ⟨_, _, _, checkpointProcessor, _⟩ := fetch_processors system.tasks input
      exact {
        fetcher := fun _ => TaskWorld.ne_dead_fetch orderly lives
        checkpoints := (congrArg Task.pending checkpointProcessor).trans orderly.checkpoints }
  | blocks _ _ => exact { orderly with }
  | transactions _ _ => exact { orderly with }
  | virtualChain _ _ => exact { orderly with }
  | checkpoints _ turned =>
      refine { orderly with checkpoints := ?_ }
      refine (Task.turned_of_turn turned).pending_eq_zero orderly.checkpoints ?_
      intro loop final pushed iterated
      obtain ⟨_, _, eq⟩ := Option.map_eq_some_iff.mp iterated
      exact (congrArg Prod.snd eq).symm

/-- The step lemma. -/
theorem WindingDown.step (winding : WindingDown down system)
    (stepped : Stepped settings system event next) (lives : next.tasks.ended = false) :
    WindingDown down next := by
  have same (event : SystemEvent) : system.dbAfter settings event = down.db :=
    (dbAfter_of_down winding.shutdown).trans winding.db
  have notifications := winding.notifications
  have orderly := orderly_step winding.orderly stepped lives
  cases stepped with
  | idle _ => exact winding
  | dies ended => exact absurd (ended.symm.trans lives) (by decide)
  | signal _ => exact { winding with shutdown := rfl, orderly }
  | fetch _ input _ =>
      obtain ⟨blockProcessor, transactionProcessor, virtualChainProcessor, _, checkpointQueue,
        shutdown⟩ := fetch_processors system.tasks input
      refine { winding with
        capacity := ?_
        notifications := ?_
        shutdown := shutdown.trans winding.shutdown
        orderly }
      · simp only [afterFetch, checkpointQueue]
        exact winding.capacity
      · simp only [afterFetch, TaskWorld.pending, blockProcessor, transactionProcessor,
          virtualChainProcessor, checkpointQueue]
        exact notifications
  | blocks _ turned =>
      simp only [blockTurn, winding.shutdown] at turned
      obtain ⟨capacity, count⟩ := Task.room_of_turn turned
      refine { winding with
        db := same (.blocks _ _)
        poppedBlocks := ?_
        capacity := capacity.trans winding.capacity
        notifications := ?_
        orderly }
      · simp only [afterBlocks, winding.shutdown, Task.taken_of_down, List.append_nil]
        exact winding.poppedBlocks
      · simp only [afterBlocks, TaskWorld.pending] at notifications ⊢
        omega
  | transactions _ turned =>
      simp only [transactionTurn, winding.shutdown] at turned
      obtain ⟨capacity, count⟩ := Task.room_of_turn turned
      refine { winding with
        db := same (.transactions _ _)
        poppedTransactions := ?_
        capacity := capacity.trans winding.capacity
        notifications := ?_
        orderly }
      · simp only [afterTransactions, winding.shutdown, Task.taken_of_down, List.append_nil]
        exact winding.poppedTransactions
      · simp only [afterTransactions, TaskWorld.pending] at notifications ⊢
        omega
  | virtualChain _ turned =>
      simp only [virtualChainTurn, winding.shutdown] at turned
      obtain ⟨capacity, count⟩ := Task.room_of_turn turned
      refine { winding with
        db := same (.virtualChain _ _)
        capacity := capacity.trans winding.capacity
        notifications := ?_
        orderly }
      simp only [afterVirtualChain, TaskWorld.pending] at notifications ⊢
      omega
  | checkpoints _ turned =>
      refine { winding with
        db := same (.checkpoints _ _ _)
        dequeued := ?_
        capacity := ?_
        notifications := ?_
        orderly }
      · simp only [afterCheckpoints, winding.shutdown, Task.taken_of_down, List.append_nil]
        exact winding.dequeued
      · simp only [afterCheckpoints, winding.shutdown, Task.iterates_of_down]
        exact winding.capacity
      · simp only [afterCheckpoints, winding.shutdown, Task.iterates_of_down]
        exact notifications

/-- The rest of a task's turns. -/
theorem WindingDown.turnsLeft_step (winding : WindingDown down system) (fits : down.tasks.Fits)
    (stepped : Stepped settings system event next) (lives : next.tasks.ended = false)
    (alive : system.tasks.ended = false) (task : TaskName) :
    next.tasks.turnsLeft task ≤
      system.tasks.turnsLeft task - if event.isTurnOf task then 1 else 0 := by
  have room : system.tasks.checkpointQueue.items.length + system.tasks.pending ≤
      system.tasks.checkpointQueue.capacity :=
    winding.fits_iff.mpr fits
  unfold TaskWorld.pending at room
  cases stepped with
  | idle ended => exact absurd (ended.symm.trans alive) (by decide)
  | dies ended => exact absurd (ended.symm.trans lives) (by decide)
  | signal _ => exact Nat.le_refl _
  | fetch _ input _ =>
      obtain ⟨blockProcessor, transactionProcessor, virtualChainProcessor,
        checkpointProcessor, _⟩ :=
        fetch_processors system.tasks input
      cases task with
      | fetcher => exact TaskWorld.turnsLeft_fetch winding.orderly winding.shutdown
      | blockProcessor => exact Nat.le_of_eq (congrArg Task.turnsLeft blockProcessor)
      | transactionProcessor => exact Nat.le_of_eq (congrArg Task.turnsLeft transactionProcessor)
      | virtualChainProcessor => exact Nat.le_of_eq (congrArg Task.turnsLeft virtualChainProcessor)
      | checkpointProcessor => exact Nat.le_of_eq (congrArg Task.turnsLeft checkpointProcessor)
  | blocks _ turned =>
      cases task with
      | blockProcessor =>
          simp only [blockTurn, winding.shutdown] at turned
          exact (Task.turned_of_turn turned).turnsLeft_le (by omega)
      | _ => exact Nat.le_refl _
  | transactions _ turned =>
      cases task with
      | transactionProcessor =>
          simp only [transactionTurn, winding.shutdown] at turned
          exact (Task.turned_of_turn turned).turnsLeft_le (by omega)
      | _ => exact Nat.le_refl _
  | virtualChain _ turned =>
      cases task with
      | virtualChainProcessor =>
          simp only [virtualChainTurn, winding.shutdown] at turned
          exact (Task.turned_of_turn turned).turnsLeft_le (by omega)
      | _ => exact Nat.le_refl _
  | checkpoints _ turned =>
      cases task with
      | checkpointProcessor =>
          simp only [checkpointTurn, winding.shutdown] at turned
          refine (Task.turned_of_turn turned).turnsLeft_le ?_
          rw [winding.orderly.checkpoints]
          exact system.tasks.checkpointQueue.pop.2.bounded
      | _ => exact Nat.le_refl _

/-! ## Runs -/

/-- A process that lives at the end of a run lives throughout. -/
theorem along_alive {events : List SystemEvent}
    (alive : (runFrom (System.step settings) system events).tasks.ended = false) :
    system.tasks.ended = false ∧
      Along (System.step settings)
        (fun system event => (system.step settings event).tasks.ended = false) system events :=
  @along_of_final _ _ (System.step settings) (fun system => system.tasks.ended = false)
    (fun _ _ => alive_of_step) _ _ alive

/-- What follows a shutdown. -/
structure ShutsDown (down : System) (events : List SystemEvent) (system : System) : Prop
    extends WindsDown down system where
  /-- The tasks leave their loops once each of them has had its turns. -/
  finished : down.tasks.Fits →
    (∀ task, down.tasks.turnsLeft task ≤ events.countP (SystemEvent.isTurnOf task)) →
      system.tasks.Finished
  /-- Without the room some task is in its loop, however many turns it has. -/
  fits : system.tasks.Finished → down.tasks.Fits

theorem WindingDown.fits_of_finished (winding : WindingDown down system)
    (finished : system.tasks.Finished) : down.tasks.Fits := by
  rw [← winding.fits_iff]
  unfold TaskWorld.Fits
  rw [finished.pending]
  exact system.tasks.checkpointQueue.bounded

/-- In every run of the system that a shutdown is set in, while the process lives, the database
stays as it was then, and the tasks leave their loops if and only if `checkpoint_queue` has
room for what is not yet pushed. -/
theorem shutsDown_of_run (settings : Settings) (previousCheckpoint : Option String)
    (queueCapacity checkpointCapacity : ℕ) (db : Db) (before after : List SystemEvent)
    (shutdown : (runFrom (System.step settings)
      (spawn settings previousCheckpoint queueCapacity checkpointCapacity db)
        before).tasks.shutdown = true)
    (alive : (runFrom (System.step settings)
      (spawn settings previousCheckpoint queueCapacity checkpointCapacity db)
        (before ++ after)).tasks.ended = false) :
    ShutsDown
      (runFrom (System.step settings)
        (spawn settings previousCheckpoint queueCapacity checkpointCapacity db) before)
      after
      (runFrom (System.step settings)
        (spawn settings previousCheckpoint queueCapacity checkpointCapacity db)
          (before ++ after)) := by
  rw [runFrom_append] at alive ⊢
  obtain ⟨aliveThen, later⟩ := along_alive alive
  obtain ⟨_, earlier⟩ := along_alive aliveThen
  have orderly : (runFrom (System.step settings)
      (spawn settings previousCheckpoint queueCapacity checkpointCapacity db)
        before).tasks.Orderly := by
    have preserved (system : System) (event : SystemEvent) (orderly : system.tasks.Orderly)
        (lives : (system.step settings event).tasks.ended = false) :=
      orderly_step orderly (stepped settings system event) lives
    exact @invariant_of_along _ _ _ _ (fun system => system.tasks.Orderly) preserved _ _
      (orderly_spawn settings previousCheckpoint queueCapacity checkpointCapacity db) earlier
  generalize runFrom (System.step settings)
    (spawn settings previousCheckpoint queueCapacity checkpointCapacity db) before = down at *
  have initial : WindingDown down down := ⟨⟨rfl, rfl, rfl, rfl, rfl, rfl⟩, shutdown, orderly⟩
  have winding := invariant_of_along
    (fun _ event winding lives => winding.step (stepped settings _ event) lives) initial later
  refine { winding with finished := ?_, fits := winding.fits_of_finished }
  intro fits enough
  refine winding.orderly.finished fun task => ?_
  have descends (system : System) (event : SystemEvent) (winding : WindingDown down system)
      (lives : (system.step settings event).tasks.ended = false) :=
    And.intro (winding.step (stepped settings system event) lives)
      (winding.turnsLeft_step fits (stepped settings system event) lives (alive_of_step lives) task)
  have left := @variant_of_along _ _ _ _ _ (fun system => system.tasks.turnsLeft task) _ descends
    _ _ initial later
  have := enough task
  omega

end System

/-- A shutdown where both processors have a notification to push. -/
def pushingBoth : List SystemEvent :=
  twoBlocks.take 14 ++ [.signal]

def lastTurns : List SystemEvent :=
  fetched none :: (processed 0 ++ processed 0)

/-- With room for one notification only, a processor stays in its push loop. -/
theorem pushingBoth_finished :
    (runFrom (System.step chainlessSettings) (.spawn chainlessSettings none 100 100 .empty)
        (pushingBoth ++ lastTurns)).tasks.Finished ∧
      ¬ (runFrom (System.step chainlessSettings) (.spawn chainlessSettings none 100 1 .empty)
        (pushingBoth ++ lastTurns)).tasks.Finished := by
  constructor
  · refine (System.shutsDown_of_run chainlessSettings none 100 100 .empty pushingBoth lastTurns
      (by decide +kernel) (by decide +kernel)).finished (by decide +kernel) ?_
    intro task
    cases task <;> decide +kernel
  · intro finished
    have fits := (System.shutsDown_of_run chainlessSettings none 100 1 .empty pushingBoth lastTurns
      (by decide +kernel) (by decide +kernel)).fits finished
    exact absurd fits (by decide +kernel)

end VecnoIndexer
