import VecnoIndexer.System.Indexing

/-!
# What goes through the queues

Every block that the fetcher pushed is on its queue or popped, in order, and every
notification that a processor issued is still to be pushed, on `checkpoint_queue` or
dequeued.  The queues lose, repeat and reorder nothing, whatever the tasks do in between and
however full the queues are.
-/

namespace VecnoIndexer

open VecnoIndexer.Sql
open VecnoIndexer.Collections
open VecnoIndexer.Transition

/-! ## The origins of notifications -/

/-- The notifications of one origin. -/
def ofOrigin (origin : CheckpointOrigin) (notified : List CheckpointBlock) :
    List CheckpointBlock :=
  notified.filter fun block => block.origin = origin

theorem ofOrigin_append (origin : CheckpointOrigin) (first second : List CheckpointBlock) :
    ofOrigin origin (first ++ second) = ofOrigin origin first ++ ofOrigin origin second :=
  List.filter_append _ _

theorem ofOrigin_eq_self {origin : CheckpointOrigin} {notified : List CheckpointBlock}
    (all : ∀ block ∈ notified, block.origin = origin) : ofOrigin origin notified = notified := by
  apply List.filter_eq_self.mpr
  intro block isNotified
  exact decide_eq_true (all block isNotified)

theorem ofOrigin_eq_nil {origin other : CheckpointOrigin} {notified : List CheckpointBlock}
    (all : ∀ block ∈ notified, block.origin = other) (different : other ≠ origin) :
    ofOrigin origin notified = [] := by
  apply List.filter_eq_nil_iff.mpr
  intro block isNotified
  simpa [all block isNotified] using different

/-- A log shows notifications of its own origin. -/
theorem Shows.origin {α : Type} {notification : α → CheckpointBlock} {holds : Db → α → Prop}
    {popped : List α} {notified : List PushedNotification} {origin : CheckpointOrigin}
    (log : Shows notification holds popped notified)
    (origins : ∀ item, (notification item).origin = origin) :
    ∀ block ∈ notified.map PushedNotification.notification, block.origin = origin := by
  intro block isNotified
  obtain ⟨entry, isEntry, rfl⟩ := List.mem_map.mp isNotified
  obtain ⟨index, inside, rfl⟩ := List.mem_iff_getElem.mp isEntry
  obtain ⟨item, _, same, _⟩ := log index notified[index] (List.getElem?_eq_getElem inside)
  rw [same]
  exact origins item

theorem origin_of_pollVirtualChain {cliArgs : CliArgs} {vcp after : VcpState} {input : VcpInput}
    {db final : Db} {script rest : Script} {block : CheckpointBlock}
    (ran : Session.run (pollVirtualChain cliArgs vcp input) db script =
      .done (after, some block) final rest) : block.origin = .vcp := by
  unfold pollVirtualChain at ran
  split at ran
  · cases ran
  · obtain ⟨⟨polled, checkpoint⟩, middle, left, polledRan, ran⟩ := Session.done_of_run_bind ran
    cases ran
    unfold pollResponse at polledRan
    split at polledRan
    · unfold pollBatch at polledRan
      simp only at polledRan
      split at polledRan
      · cases polledRan
      · split_ifs at polledRan
        · cases polledRan
        · obtain ⟨_, _, _, _, polledRan⟩ := Session.done_of_run_bind polledRan
          cases polledRan
        · obtain ⟨_, _, _, _, polledRan⟩ := Session.done_of_run_bind polledRan
          cases polledRan
          rfl
    · cases polledRan

/-! ## One turn of the fetcher -/

/-- Only the push loops push. -/
theorem VecnoBlocksFetcher.pushed_step {fetcher : VecnoBlocksFetcher}
    (notBlock : fetcher.task.isPushingBlock = false)
    (notTransactions : fetcher.task.isPushingTransactions = false) (input : FetchInput) :
    (fetcher.step input).blocksPushed = fetcher.blocksPushed ∧
      (fetcher.step input).txsPushed = fetcher.txsPushed := by
  have task : (fetcher.forget input).task = fetcher.task := rfl
  unfold step
  simp only [task]
  cases fetcherTask : fetcher.task with
  | polling =>
      cases input.response with
      | none => exact ⟨rfl, rfl⟩
      | some blocks =>
          simp only [receive]
          split_ifs <;> exact ⟨rfl, rfl⟩
  | handling rest blockHash => cases rest <;> exact ⟨rfl, rfl⟩
  | pushingBlock block rest =>
      rw [fetcherTask] at notBlock
      contradiction
  | pushingTransactions block rest =>
      rw [fetcherTask] at notTransactions
      contradiction
  | dead => exact ⟨rfl, rfl⟩

theorem VecnoBlocksFetcher.consistent_new (checkpoint : Hash) : (new checkpoint).Consistent := by
  refine ⟨⟨rfl, ?_, rfl, ?_, ?_⟩, rfl⟩
  · exact fun hash hashMem => absurd hashMem List.not_mem_nil
  · rintro response ⟨⟩
  · exact fun response responseMem => absurd responseMem List.not_mem_nil

namespace TaskWorld

variable {world : TaskWorld} {fetcher : VecnoBlocksFetcher}

/-- The fetcher takes a step, and what it pushes is added to the queues. -/
structure Hands (world : TaskWorld) (fetcher : VecnoBlocksFetcher) (input : FetchInput)
    (next : TaskWorld) (after : VecnoBlocksFetcher) : Prop where
  running : next.fetcher = some after
  steps : after = fetcher ∨ ∃ full, after = fetcher.step { input with full }
  blocks : ∃ blocks, after.blocksPushed = fetcher.blocksPushed ++ blocks ∧
    next.blocksQueue.items = world.blocksQueue.items ++ blocks
  txs : ∃ txs, after.txsPushed = fetcher.txsPushed ++ txs ∧
    next.txsQueue.items = world.txsQueue.items ++ txs

variable {input : FetchInput} {next : TaskWorld} {after : VecnoBlocksFetcher}

theorem Hands.consistent (hands : world.Hands fetcher input next after)
    (before : fetcher.Consistent) : after.Consistent := by
  rcases hands.steps with rfl | ⟨full, rfl⟩
  · exact before
  · exact before.step { input with full }

/-- A turn that pushes nothing. -/
theorem hands_of_same (running : next.fetcher = some after)
    (steps : after = fetcher ∨ ∃ full, after = fetcher.step { input with full })
    (pushed : after.blocksPushed = fetcher.blocksPushed ∧ after.txsPushed = fetcher.txsPushed)
    (queues : next.blocksQueue = world.blocksQueue ∧ next.txsQueue = world.txsQueue) :
    world.Hands fetcher input next after where
  running := running
  steps := steps
  blocks := ⟨[], by rw [pushed.1, List.append_nil], by rw [queues.1, List.append_nil]⟩
  txs := ⟨[], by rw [pushed.2, List.append_nil], by rw [queues.2, List.append_nil]⟩

theorem hands_fetch (running : world.fetcher = some fetcher) (up : world.shutdown = false)
    (input : FetchInput) : ∃ after, world.Hands fetcher input (world.fetch input) after := by
  unfold TaskWorld.fetch
  simp only [running, up, Bool.false_eq_true, if_false]
  cases task : fetcher.task with
  | polling =>
      refine ⟨_, hands_of_same rfl (Or.inr ⟨input.full, rfl⟩) ?_ ⟨rfl, rfl⟩⟩
      apply VecnoBlocksFetcher.pushed_step <;> rw [task] <;> rfl
  | handling rest blockHash =>
      refine ⟨_, hands_of_same rfl (Or.inr ⟨input.full, rfl⟩) ?_ ⟨rfl, rfl⟩⟩
      apply VecnoBlocksFetcher.pushed_step <;> rw [task] <;> rfl
  | pushingBlock block rest =>
      simp only
      split
      · rename_i longer pushes
        obtain ⟨_, items⟩ := ArrayQueue.push_eq_some pushes
        have pushed : fetcher.step { input with full := false } =
            (fetcher.forget input).pushBlock block rest := by
          simp only [VecnoBlocksFetcher.step, VecnoBlocksFetcher.forget, task, Bool.false_eq_true,
            if_false]
        refine ⟨_, rfl, Or.inr ⟨false, rfl⟩, ⟨_, ?_, items⟩, ⟨[], ?_, ?_⟩⟩
        · rw [pushed]
          rfl
        · rw [pushed, List.append_nil]
          rfl
        · rw [List.append_nil]
      · have waits : fetcher.step { input with full := true } = fetcher.forget input := by
          simp only [VecnoBlocksFetcher.step, VecnoBlocksFetcher.forget, task, if_true]
        refine ⟨_, hands_of_same rfl (Or.inr ⟨true, rfl⟩) ?_ ⟨rfl, rfl⟩⟩
        rw [waits]
        exact ⟨rfl, rfl⟩
  | pushingTransactions block rest =>
      simp only
      split
      · rename_i longer pushes
        obtain ⟨_, items⟩ := ArrayQueue.push_eq_some pushes
        have pushed : fetcher.step { input with full := false } =
            (fetcher.forget input).pushTransactions input block rest := by
          simp only [VecnoBlocksFetcher.step, VecnoBlocksFetcher.forget, task, Bool.false_eq_true,
            if_false, VecnoBlocksFetcher.pushTransactions]
        refine ⟨_, rfl, Or.inr ⟨false, rfl⟩, ⟨[], ?_, ?_⟩, ⟨_, ?_, items⟩⟩
        · rw [pushed, List.append_nil]
          rfl
        · rw [List.append_nil]
        · rw [pushed]
          rfl
      · have waits : fetcher.step { input with full := true } = fetcher.forget input := by
          simp only [VecnoBlocksFetcher.step, VecnoBlocksFetcher.forget, task, if_true]
        refine ⟨_, hands_of_same rfl (Or.inr ⟨true, rfl⟩) ?_ ⟨rfl, rfl⟩⟩
        rw [waits]
        exact ⟨rfl, rfl⟩
  | dead => exact ⟨fetcher, hands_of_same running (Or.inl rfl) ⟨rfl, rfl⟩ ⟨rfl, rfl⟩⟩

/-- After a shutdown nothing is pushed to the queues. -/
theorem queues_fetch (down : world.shutdown = true) (input : FetchInput) :
    (world.fetch input).blocksQueue = world.blocksQueue ∧
      (world.fetch input).txsQueue = world.txsQueue := by
  unfold TaskWorld.fetch
  simp only [down, if_true]
  split
  · exact ⟨rfl, rfl⟩
  · split <;> exact ⟨rfl, rfl⟩

end TaskWorld

/-! ## Several producers of one queue -/

/-- What one producer issued is pushed, in its order, or still to be pushed. -/
def Sends (origin : CheckpointOrigin) (pushed unsent issued : List CheckpointBlock) : Prop :=
  ofOrigin origin pushed ++ unsent = issued

section Sends

variable {origin producer : CheckpointOrigin}
  {pushed unsent issued sent new left : List CheckpointBlock}

theorem Sends.of_unsent (sends : Sends origin pushed unsent issued) {block : CheckpointBlock}
    (isUnsent : block ∈ unsent) : block ∈ issued :=
  sends ▸ List.mem_append_right _ isUnsent

/-- The producer takes a turn. -/
theorem Sends.turn (sends : Sends origin pushed unsent issued)
    (conserves : unsent ++ new = sent ++ left)
    (origins : ∀ block ∈ sent, block.origin = origin) :
    Sends origin (pushed ++ sent) left (issued ++ new) := by
  unfold Sends at sends ⊢
  calc ofOrigin origin (pushed ++ sent) ++ left
      = ofOrigin origin pushed ++ (sent ++ left) := by
        rw [ofOrigin_append, ofOrigin_eq_self origins, List.append_assoc]
    _ = ofOrigin origin pushed ++ unsent ++ new := by rw [← conserves, List.append_assoc]
    _ = issued ++ new := by rw [sends]

/-- Another producer takes a turn. -/
theorem Sends.other (sends : Sends origin pushed unsent issued)
    (origins : ∀ block ∈ sent, block.origin = producer) (different : producer ≠ origin) :
    Sends origin (pushed ++ sent) unsent issued := by
  unfold Sends at sends ⊢
  rw [ofOrigin_append, ofOrigin_eq_nil origins different, List.append_nil]
  exact sends

end Sends

/-! ## The invariant -/

namespace System

variable {settings : Settings} {start : Db} {system next : System} {event : SystemEvent}

/-- What was pushed to a queue was popped or is on it, and each producer of notifications
has pushed what it issued, or still will. -/
structure Channels (system : System) : Prop where
  blocks : system.log.fetched.blocksPushed =
    system.log.poppedBlocks ++ system.tasks.blocksQueue.items
  txs : system.log.fetched.txsPushed =
    system.log.poppedTransactions ++ system.tasks.txsQueue.items
  checkpoints : system.log.pushed = system.log.dequeued ++ system.tasks.checkpointQueue.items
  fetcher : system.tasks.shutdown = false → system.tasks.fetcher = some system.log.fetched
  consistent : system.log.fetched.Consistent
  fromBlocks : Sends .blocks system.log.pushed system.tasks.blockProcessor.unsent
    (system.log.blocksNotified.map PushedNotification.notification)
  fromTransactions : Sends .transactions system.log.pushed
    system.tasks.transactionProcessor.unsent
    (system.log.transactionsNotified.map PushedNotification.notification)
  fromChain : Sends .vcp system.log.pushed system.tasks.virtualChainProcessor.unsent
    system.log.chainNotified
  chainOrigin : ∀ block ∈ system.log.chainNotified, block.origin = .vcp

theorem channels_spawn (settings : Settings) (previousCheckpoint : Option String)
    (queueCapacity checkpointCapacity : ℕ) (db : Db) :
    (spawn settings previousCheckpoint queueCapacity checkpointCapacity db).Channels where
  blocks := rfl
  txs := rfl
  checkpoints := rfl
  fetcher _ := rfl
  consistent := VecnoBlocksFetcher.consistent_new settings.checkpoint
  fromBlocks := rfl
  fromTransactions := by
    simp only [spawn, TaskWorld.spawn]
    split_ifs <;> rfl
  fromChain := by
    simp only [spawn, TaskWorld.spawn]
    split_ifs <;> rfl
  chainOrigin _ isNotified := absurd isNotified List.not_mem_nil

theorem Indexed.blocksOrigin (indexed : system.Indexed settings start) :
    ∀ block ∈ system.log.blocksNotified.map PushedNotification.notification,
      block.origin = .blocks :=
  indexed.sides.1.shown.origin fun _ => rfl

theorem Indexed.transactionsOrigin (indexed : system.Indexed settings start) :
    ∀ block ∈ system.log.transactionsNotified.map PushedNotification.notification,
      block.origin = .transactions :=
  indexed.sides.2.shown.origin fun _ => rfl

/-- What a task takes from a queue leaves it. -/
theorem taken_append {Loop α : Type} (task : Task Loop) (shutdown : Bool)
    (queue : ArrayQueue α) {produced consumed : List α}
    (split : produced = consumed ++ queue.items) :
    produced = (consumed ++ task.taken shutdown queue) ++
      (if task.iterates shutdown then queue.pop.2 else queue).items := by
  unfold Task.taken
  split_ifs
  · rw [split, List.append_assoc]
    cases items : queue.items <;> simp [ArrayQueue.pop, items]
  · rw [List.append_nil, split]

theorem Channels.afterFetch (channels : system.Channels) (input : FetchInput) :
    (system.afterFetch input).Channels := by
  obtain ⟨blockProcessor, transactionProcessor, virtualChain, _, queue, shutdown⟩ :=
    fetch_processors system.tasks input
  have checkpoints : system.log.pushed =
      system.log.dequeued ++ (system.tasks.fetch input).checkpointQueue.items := by
    rw [queue]
    exact channels.checkpoints
  have fromBlocks := channels.fromBlocks
  have fromTransactions := channels.fromTransactions
  have fromChain := channels.fromChain
  rw [← blockProcessor] at fromBlocks
  rw [← transactionProcessor] at fromTransactions
  rw [← virtualChain] at fromChain
  cases down : system.tasks.shutdown with
  | true =>
      obtain ⟨blocksQueue, txsQueue⟩ := TaskWorld.queues_fetch down input
      have fetched : (system.afterFetch input).log.fetched = system.log.fetched := by
        simp only [System.afterFetch, down, if_true]
      constructor
      · rw [fetched]
        simp only [System.afterFetch, blocksQueue]
        exact channels.blocks
      · rw [fetched]
        simp only [System.afterFetch, txsQueue]
        exact channels.txs
      · exact checkpoints
      · intro up
        exact absurd ((shutdown.trans down).symm.trans up) (by decide)
      · rw [fetched]
        exact channels.consistent
      · exact fromBlocks
      · exact fromTransactions
      · exact fromChain
      · exact channels.chainOrigin
  | false =>
      obtain ⟨after, hands⟩ := TaskWorld.hands_fetch (channels.fetcher down) down input
      have fetched : (system.afterFetch input).log.fetched = after := by
        simp only [System.afterFetch, down, Bool.false_eq_true, if_false, hands.running,
          Option.getD_some]
      obtain ⟨blocks, blocksPushed, blocksItems⟩ := hands.blocks
      obtain ⟨txs, txsPushed, txsItems⟩ := hands.txs
      constructor
      · rw [fetched, blocksPushed, channels.blocks]
        simp only [System.afterFetch, blocksItems, List.append_assoc]
      · rw [fetched, txsPushed, channels.txs]
        simp only [System.afterFetch, txsItems, List.append_assoc]
      · exact checkpoints
      · intro _
        rw [fetched]
        exact hands.running
      · rw [fetched]
        exact hands.consistent channels.consistent
      · exact fromBlocks
      · exact fromTransactions
      · exact fromChain
      · exact channels.chainOrigin

/-- The notifications that a turn pushes were issued. -/
theorem origin_of_sent {Loop : Type} {origin : CheckpointOrigin} {task after : Task Loop}
    {pushed issued : List CheckpointBlock} (sends : Sends origin pushed task.unsent issued)
    (origins : ∀ block ∈ issued, block.origin = origin) :
    ∀ block ∈ task.sent after, block.origin = origin :=
  fun block isSent => origins block (sends.of_unsent (Task.subset_unsent_of_mem_sent isSent))

theorem Channels.blocks_turn (channels : system.Channels) (indexed : system.Indexed settings start)
    {input : BlockInput} {script : Script} {after : Task BlockLoop}
    {left : ArrayQueue CheckpointBlock}
    (turned : system.blockTurn settings input script = some (after, left)) (db : Db) :
    (system.afterBlocks db after left).Channels := by
  obtain ⟨items, conserves⟩ := (Task.turned_of_turn turned).conserves
  have origins := @origin_of_sent _ _ _ after _ _ channels.fromBlocks indexed.blocksOrigin
  constructor
  · exact taken_append system.tasks.blockProcessor system.tasks.shutdown _ channels.blocks
  · exact channels.txs
  · simp only [System.afterBlocks, items, channels.checkpoints, List.append_assoc]
  · exact channels.fetcher
  · exact channels.consistent
  · have turn := channels.fromBlocks.turn conserves origins
    simpa only [System.afterBlocks, List.map_append, List.map_map, Function.comp_def,
      List.map_id'] using turn
  · exact channels.fromTransactions.other origins (by decide)
  · exact channels.fromChain.other origins (by decide)
  · exact channels.chainOrigin

theorem Channels.transactions_turn (channels : system.Channels)
    (indexed : system.Indexed settings start) {input : TransactionsInput} {script : Script}
    {after : Task TransactionLoop} {left : ArrayQueue CheckpointBlock}
    (turned : system.transactionTurn settings input script = some (after, left)) (db : Db) :
    (system.afterTransactions db after left).Channels := by
  obtain ⟨items, conserves⟩ := (Task.turned_of_turn turned).conserves
  have origins := @origin_of_sent _ _ _ after _ _ channels.fromTransactions
    indexed.transactionsOrigin
  constructor
  · exact channels.blocks
  · exact taken_append system.tasks.transactionProcessor system.tasks.shutdown _ channels.txs
  · simp only [System.afterTransactions, items, channels.checkpoints, List.append_assoc]
  · exact channels.fetcher
  · exact channels.consistent
  · exact channels.fromBlocks.other origins (by decide)
  · have turn := channels.fromTransactions.turn conserves origins
    simpa only [System.afterTransactions, List.map_append, List.map_map, Function.comp_def,
      List.map_id'] using turn
  · exact channels.fromChain.other origins (by decide)
  · exact channels.chainOrigin

/-- What an iteration of the virtual chain processor issues. -/
theorem origin_of_virtualChainTurn {input : VcpInput} {script : Script} {after : Task VcpState}
    {left : ArrayQueue CheckpointBlock}
    (turned : system.virtualChainTurn settings input script = some (after, left)) :
    ∀ block ∈ system.tasks.virtualChainProcessor.issued after, block.origin = .vcp := by
  rcases (Task.turned_of_turn turned).effect with quiet | ⟨starting, loop, _, rfl⟩ |
    ⟨_, loop, looping, rfl⟩ | ⟨_, loop, final, pushed, looping, iterated, rfl⟩
  · rw [quiet.issued]
    exact fun _ isIssued => absurd isIssued List.not_mem_nil
  · rw [starting]
    exact fun _ isIssued => absurd isIssued List.not_mem_nil
  · rw [looping]
    exact fun _ isIssued => absurd isIssued List.not_mem_nil
  · rw [looping, Task.issued_looping, Task.unsent_after]
    split at iterated
    · obtain ⟨⟨vcp, checkpoint⟩, returned, eq⟩ := Option.map_eq_some_iff.mp iterated
      cases eq
      obtain ⟨_, _, ran⟩ := exists_of_returnedValue returned
      intro block isIssued
      obtain rfl := Option.mem_toList.mp isIssued
      exact origin_of_pollVirtualChain ran
    · cases iterated
      exact fun _ isIssued => absurd isIssued List.not_mem_nil

theorem Channels.virtualChain_turn (channels : system.Channels) {input : VcpInput}
    {script : Script} {after : Task VcpState} {left : ArrayQueue CheckpointBlock}
    (turned : system.virtualChainTurn settings input script = some (after, left)) (db : Db) :
    (system.afterVirtualChain db after left).Channels := by
  obtain ⟨items, conserves⟩ := (Task.turned_of_turn turned).conserves
  have origins := @origin_of_sent _ _ _ after _ _ channels.fromChain channels.chainOrigin
  constructor
  · exact channels.blocks
  · exact channels.txs
  · simp only [System.afterVirtualChain, items, channels.checkpoints, List.append_assoc]
  · exact channels.fetcher
  · exact channels.consistent
  · exact channels.fromBlocks.other origins (by decide)
  · exact channels.fromTransactions.other origins (by decide)
  · exact channels.fromChain.turn conserves origins
  · intro block isNotified
    rcases List.mem_append.mp isNotified with before | now
    · exact channels.chainOrigin block before
    · exact origin_of_virtualChainTurn turned block now

theorem Channels.checkpoints_turn (channels : system.Channels) (db : Db)
    (after : Task CheckpointLoop) : (system.afterCheckpoints db after).Channels where
  blocks := channels.blocks
  txs := channels.txs
  checkpoints :=
    taken_append system.tasks.checkpointProcessor system.tasks.shutdown _ channels.checkpoints
  fetcher := channels.fetcher
  consistent := channels.consistent
  fromBlocks := channels.fromBlocks
  fromTransactions := channels.fromTransactions
  fromChain := channels.fromChain
  chainOrigin := channels.chainOrigin

/-- The step lemma. -/
theorem Channels.step (channels : system.Channels) (indexed : system.Indexed settings start)
    (stepped : Stepped settings system event next) (lives : next.tasks.ended = false) :
    next.Channels := by
  cases stepped with
  | idle _ => exact channels
  | dies ended => exact absurd (ended.symm.trans lives) (by decide)
  | signal alive =>
      refine { channels with fetcher := ?_ }
      intro up
      contradiction
  | fetch alive input lives => exact channels.afterFetch input
  | blocks alive turned => exact channels.blocks_turn indexed turned _
  | transactions alive turned => exact channels.transactions_turn indexed turned _
  | virtualChain alive turned => exact channels.virtualChain_turn turned _
  | checkpoints alive turned => exact channels.checkpoints_turn _ _

/-! ## Runs -/

/-- What holds of every system that a run reaches. -/
structure Sound (settings : Settings) (start : Db) (system : System) : Prop where
  indexed : system.Indexed settings start
  channels : system.tasks.ended = false → system.Channels

theorem sound_spawn (settings : Settings) (previousCheckpoint : Option String)
    (queueCapacity checkpointCapacity : ℕ) (db : Db) :
    (spawn settings previousCheckpoint queueCapacity checkpointCapacity db).Sound settings db where
  indexed := indexed_spawn settings previousCheckpoint queueCapacity checkpointCapacity db
  channels _ := channels_spawn settings previousCheckpoint queueCapacity checkpointCapacity db

/-- A process that has ended takes no steps. -/
theorem alive_of_step {event : SystemEvent}
    (lives : (system.step settings event).tasks.ended = false) : system.tasks.ended = false := by
  cases ended : system.tasks.ended with
  | false => rfl
  | true =>
      have stays : system.step settings event = system := if_pos ended
      rw [stays] at lives
      exact absurd (ended.symm.trans lives) (by decide)

theorem Sound.step (sound : system.Sound settings start) (event : SystemEvent) :
    (system.step settings event).Sound settings start where
  indexed := sound.indexed.step (stepped settings system event)
  channels lives :=
    (sound.channels (alive_of_step lives)).step sound.indexed (stepped settings system event) lives

theorem sound_of_run (settings : Settings) (previousCheckpoint : Option String)
    (queueCapacity checkpointCapacity : ℕ) (db : Db) (events : List SystemEvent) :
    (runFrom (System.step settings)
      (spawn settings previousCheckpoint queueCapacity checkpointCapacity db) events).Sound
        settings db :=
  invariant_of_run (fun _ event sound => sound.step event) events
    (sound_spawn settings previousCheckpoint queueCapacity checkpointCapacity db)

end System

/-! ## Where every block is -/

/-- The notifications of the blocks that a processor holds in its batch. -/
def Task.batch {Loop : Type} (held : Loop → List CheckpointBlock) (task : Task Loop) :
    List CheckpointBlock :=
  task.locals.elim [] held

theorem Task.batch_of_runs {Loop : Type} {task : Task Loop} (runs : task.runs = true)
    (held : Loop → List CheckpointBlock) :
    (task = .starting ∧ task.batch held = []) ∨
      ∃ loop, task.locals = some loop ∧ task.batch held = held loop := by
  cases task with
  | absent => contradiction
  | returned => contradiction
  | starting => exact Or.inl ⟨rfl, rfl⟩
  | looping loop => exact Or.inr ⟨loop, rfl, rfl⟩
  | pushing loop next rest => exact Or.inr ⟨loop, rfl, rfl⟩

namespace System

variable {settings : Settings} {start : Db} {system : System}

/-- Each block that the fetcher handed over is, in this order, dequeued as a notification, on
`checkpoint_queue`, still to be pushed there, in the batch of its processor, or on its queue.
The batch is dropped when its processor leaves. -/
structure Accounted (system : System) : Prop where
  blocks : system.tasks.blockProcessor.runs = true →
    system.log.fetched.blocksPushed.map (fun blockData => BlockLoop.notification blockData.block) =
      ofOrigin .blocks (system.log.dequeued ++ system.tasks.checkpointQueue.items) ++
        system.tasks.blockProcessor.unsent ++
        system.tasks.blockProcessor.batch BlockLoop.checkpointBlocks ++
        system.tasks.blocksQueue.items.map fun blockData => BlockLoop.notification blockData.block
  transactions : system.tasks.transactionProcessor.runs = true →
    system.log.fetched.txsPushed.map TransactionLoop.notification =
      ofOrigin .transactions (system.log.dequeued ++ system.tasks.checkpointQueue.items) ++
        system.tasks.transactionProcessor.unsent ++
        system.tasks.transactionProcessor.batch TransactionLoop.checkpointBlocks ++
        system.tasks.txsQueue.items.map TransactionLoop.notification
  chain : system.log.chainNotified =
    ofOrigin .vcp (system.log.dequeued ++ system.tasks.checkpointQueue.items) ++
      system.tasks.virtualChainProcessor.unsent
  /-- Also when a processor has left, nothing else is notified. -/
  blocksInOrder : ofOrigin .blocks system.log.dequeued <+:
    system.log.fetched.blocksPushed.map fun blockData => BlockLoop.notification blockData.block
  transactionsInOrder : ofOrigin .transactions system.log.dequeued <+:
    system.log.fetched.txsPushed.map TransactionLoop.notification
  delivered : system.log.fetched.Delivered

/-- Notifications in the order of the items popped are a prefix of theirs. -/
theorem prefix_of_shows {α : Type} {notification : α → CheckpointBlock} {holds : Db → α → Prop}
    {popped : List α} {notified : List PushedNotification}
    (log : Shows notification holds popped notified) :
    notified.map PushedNotification.notification <+: popped.map notification := by
  rw [List.prefix_iff_getElem?]
  intro index inside
  rw [List.length_map] at inside
  obtain ⟨item, itemEq, same, _⟩ := log index notified[index] (List.getElem?_eq_getElem inside)
  rw [List.getElem?_map, itemEq, List.getElem_map, same]
  rfl

/-- What is dequeued of a producer is a prefix of what it issued. -/
theorem Sends.ofOrigin_prefix {origin : CheckpointOrigin}
    {dequeued queued unsent issued : List CheckpointBlock}
    (sends : Sends origin (dequeued ++ queued) unsent issued) :
    ofOrigin origin dequeued <+: issued := by
  unfold Sends at sends
  rw [← sends, ofOrigin_append, List.append_assoc]
  exact List.prefix_append _ _

theorem Sound.accounted (sound : system.Sound settings start) (alive : system.tasks.ended = false) :
    system.Accounted := by
  have channels := sound.channels alive
  obtain ⟨blocks, transactions⟩ := sound.indexed.sides
  have fromBlocks := channels.fromBlocks
  have fromTransactions := channels.fromTransactions
  rw [channels.checkpoints] at fromBlocks fromTransactions
  constructor
  · intro runs
    rw [channels.blocks, List.map_append]
    congr 1
    rcases Task.batch_of_runs runs BlockLoop.checkpointBlocks with
      ⟨starting, empty⟩ | ⟨loop, isLoop, holds⟩
    · obtain ⟨nothing, noneNotified⟩ := sound.indexed.blocksStart alive starting
      rw [empty, nothing, List.append_nil, fromBlocks, noneNotified]
      rfl
    · rw [holds, fromBlocks]
      refine (blocks.held loop ?_).2
      simp only [indexing, running, alive, Bool.false_eq_true, if_false, isLoop]
  · intro runs
    rw [channels.txs, List.map_append]
    congr 1
    rcases Task.batch_of_runs runs TransactionLoop.checkpointBlocks with
      ⟨starting, empty⟩ | ⟨loop, isLoop, holds⟩
    · obtain ⟨nothing, noneNotified, _⟩ := sound.indexed.transactionsStart alive starting
      rw [empty, nothing, List.append_nil, fromTransactions, noneNotified]
      rfl
    · rw [holds, fromTransactions]
      refine (transactions.tracked loop ?_).2
      simp only [indexing, running, alive, Bool.false_eq_true, if_false, isLoop]
  · rw [← channels.checkpoints]
    exact channels.fromChain.symm
  · rw [channels.blocks, List.map_append]
    exact (Sends.ofOrigin_prefix fromBlocks).trans
      ((prefix_of_shows blocks.shown).trans (List.prefix_append _ _))
  · rw [channels.txs, List.map_append]
    exact (Sends.ofOrigin_prefix fromTransactions).trans
      ((prefix_of_shows transactions.shown).trans (List.prefix_append _ _))
  · exact channels.consistent.delivered

/-- In every run of the system, while the process lives, every block handed over is accounted
for and every notification dequeued was issued. -/
theorem accounted_of_run (settings : Settings) (previousCheckpoint : Option String)
    (queueCapacity checkpointCapacity : ℕ) (db : Db) (events : List SystemEvent)
    (alive : (runFrom (System.step settings)
      (spawn settings previousCheckpoint queueCapacity checkpointCapacity db) events).tasks.ended =
        false) :
    (runFrom (System.step settings)
      (spawn settings previousCheckpoint queueCapacity checkpointCapacity db) events).Accounted :=
  (sound_of_run settings previousCheckpoint queueCapacity checkpointCapacity db events).accounted
    alive

end System

/-! ## Two blocks in the queues -/

/-- The defaults, without virtual chain processing. -/
def chainlessSettings : Settings where
  cliArgs := { CliArgs.standard with disable := some [.virtualChainProcessing] }
  netBps := 1
  checkpoint := 1
  disableVcpWaitForSync := false

def paidParents (hash : Hash) : List Hash :=
  if hash = 2 then [1] else []

/-- A block with one transaction. -/
def paidBlock (hash : Hash) : RpcBlock :=
  let block := plainBlock hash 0 0
  { block with
    header := { block.header with parentsByLevel := [paidParents hash] }
    transactions := [paidTransaction hash] }

/-- A turn of the fetcher. -/
def fetched (response : Option (List RpcBlock)) : SystemEvent :=
  .fetch {
    response
    tipHashes := none
    timestampValid := true
    forgotten := fun _ => false
    full := false
    refused := false }

/-- A turn of each processor at some time. -/
def processed (now : ℕ) : List SystemEvent :=
  let succeeds : Script := fun _ => .succeeds
  [.transactions ⟨none, fun _ _ => false, now, now, true, .listed, .listed⟩ succeeds,
    .blocks ⟨none, now, now, true⟩ succeeds,
    .checkpoints ⟨none, now, now, now, now⟩ .listed succeeds]

/-- Two blocks are handed over; the first is committed and notified by both processors, and
the notification of its transactions is dequeued. -/
def twoBlocks : List SystemEvent :=
  processed 0 ++ fetched (some [paidBlock 1, paidBlock 2]) ::
    (List.replicate 7 (fetched none) ++ processed 10000000000 ++ processed 10000000000)

theorem twoBlocks_accounted :
    (runFrom (System.step chainlessSettings) (.spawn chainlessSettings none 100 100 .empty)
        twoBlocks).Accounted ∧
      (runFrom (System.step chainlessSettings) (.spawn chainlessSettings none 100 100 .empty)
        twoBlocks).log.fetched.blocksPushed.length = 2 := by
  constructor
  · apply System.accounted_of_run
    decide +kernel
  · decide +kernel

end VecnoIndexer
