import VecnoIndexer.System.Gaps
import VecnoIndexer.Transactions.Origins

/-!
# No row out of nothing

The processors are handed only blocks that the node sent, and an import is handed only what
peers sent.  So whatever is stored after any number of crashes and restarts, however the
turns of the tasks were interleaved, was stored before the first life or comes from what was
received.
-/

namespace VecnoIndexer

open VecnoIndexer.Sql
open VecnoIndexer.Collections
open VecnoIndexer.Transition

/-! ## What a run receives -/

namespace DeploymentEvent

/-- The blocks that the node sends in a turn. -/
def blocks : DeploymentEvent → List RpcBlock
  | turn (.fetch input) => input.response.getD []
  | turn .signal | turn (.blocks _ _) | turn (.transactions _ _) | turn (.virtualChain _ _)
  | turn (.checkpoints _ _ _) | start _ _ _ => []

/-- The outputs that peers send in a start. -/
def imported (cliArgs : CliArgs) : DeploymentEvent → List TransactionOutput
  | start env input _ => input.utxos.map (Utxo.output cliArgs env)
  | turn _ => []

end DeploymentEvent

def Received.during (cliArgs : CliArgs) (events : List DeploymentEvent) : Received where
  blocks := events.flatMap DeploymentEvent.blocks
  imported := events.flatMap (DeploymentEvent.imported cliArgs)

/-- What an event receives is among what was received. -/
structure Received.Includes (received : Received) (cliArgs : CliArgs) (event : DeploymentEvent) :
    Prop where
  blocks : event.blocks ⊆ received.blocks
  imported : event.imported cliArgs ⊆ received.imported

theorem Received.includes_during (cliArgs : CliArgs) {events : List DeploymentEvent}
    {event : DeploymentEvent} (isEvent : event ∈ events) :
    (during cliArgs events).Includes cliArgs event where
  blocks _ isBlock := List.mem_flatMap.mpr ⟨event, isEvent, isBlock⟩
  imported _ isOutput := List.mem_flatMap.mpr ⟨event, isEvent, isOutput⟩

/-! ## The fetcher -/

namespace VecnoBlocksFetcher

variable {sent : List RpcBlock} {fetcher : VecnoBlocksFetcher} {input : FetchInput}

/-- The fetcher hands over blocks that were sent. -/
structure OfBlocks (sent : List RpcBlock) (fetcher : VecnoBlocksFetcher) : Prop where
  current : fetcher.current ⊆ sent
  blocks : ∀ data ∈ fetcher.blocksPushed, ∃ block ∈ sent, ∃ synced, data = blockData synced block
  txs : ∀ data ∈ fetcher.txsPushed, ∃ block ∈ sent, data = transactionData block

theorem ofBlocks_new (sent : List RpcBlock) (checkpoint : Hash) :
    (new checkpoint).OfBlocks sent where
  current := List.nil_subset sent
  blocks _ isPushed := absurd isPushed List.not_mem_nil
  txs _ isPushed := absurd isPushed List.not_mem_nil

/-- The step lemma. -/
theorem OfBlocks.step (ofBlocks : fetcher.OfBlocks sent) (consistent : fetcher.Consistent)
    (answered : ∀ blocks, input.response = some blocks → blocks ⊆ sent) :
    (fetcher.step input).OfBlocks sent := by
  have forgotten : (fetcher.forget input).OfBlocks sent := { ofBlocks with }
  apply holds_step consistent forgotten
  · intro _ _ blocks response
    by_cases long : 1 < blocks.length
    · simp only [receive, long, if_true]
      exact ⟨answered blocks response, ofBlocks.blocks, ofBlocks.txs⟩
    · simp only [receive, long, if_false]
      exact { forgotten with }
  · exact fun _ _ => { forgotten with current := List.nil_subset sent }
  · exact fun _ _ => { forgotten with }
  · intro block isCurrent rest
    refine { forgotten with blocks := ?_ }
    intro data isPushed
    rcases List.mem_append.mp isPushed with before | now
    · exact ofBlocks.blocks data before
    · exact ⟨block, ofBlocks.current isCurrent, _, List.mem_singleton.mp now⟩
  · intro block isCurrent rest
    refine { forgotten with txs := ?_ }
    intro data isPushed
    rcases List.mem_append.mp isPushed with before | now
    · exact ofBlocks.txs data before
    · exact ⟨block, ofBlocks.current isCurrent, List.mem_singleton.mp now⟩

end VecnoBlocksFetcher

/-! ## One life -/

namespace System

variable {settings : Settings} {start : Db} {received : Received} {system : System}

/-- What the tasks hold comes from what was received. -/
structure Explained (cliArgs : CliArgs) (start : Db) (received : Received) (system : System) :
    Prop where
  fetched : system.log.fetched.OfBlocks received.blocks
  blocks : ∀ loop, system.tasks.blockProcessor.locals = some loop →
    loop.Explained cliArgs start received
  transactions : ∀ loop, system.tasks.transactionProcessor.locals = some loop →
    loop.Explained cliArgs start received

theorem explained_spawn (settings : Settings) (previousCheckpoint : Option String)
    (queueCapacity checkpointCapacity : ℕ) (db : Db) (cliArgs : CliArgs) (start : Db)
    (received : Received) :
    (spawn settings previousCheckpoint queueCapacity checkpointCapacity db).Explained cliArgs start
      received where
  fetched := VecnoBlocksFetcher.ofBlocks_new received.blocks settings.checkpoint
  blocks := by rintro _ ⟨⟩
  transactions := by
    simp only [spawn, TaskWorld.spawn]
    split_ifs <;> rintro _ ⟨⟩

/-- What is popped was sent. -/
theorem Explained.pops_blocks (explained : system.Explained settings.cliArgs start received)
    (channels : system.Channels) (input : BlockInput) :
    BlockLoop.Pops received { input with popped := system.tasks.blocksQueue.pop.1 } := by
  intro data popped
  have queued : data ∈ system.tasks.blocksQueue.items := ArrayQueue.mem_of_pop popped
  obtain ⟨block, isReceived, synced, rfl⟩ := explained.fetched.blocks data
    (channels.blocks ▸ List.mem_append_right _ queued)
  exact ⟨block, isReceived, rfl⟩

theorem Explained.pops_transactions (explained : system.Explained settings.cliArgs start received)
    (channels : system.Channels) {data : TransactionData}
    (popped : system.tasks.txsQueue.pop.1 = some data) :
    ∀ transaction ∈ data.transactions, transaction ∈ received.transactions := by
  have queued : data ∈ system.tasks.txsQueue.items := ArrayQueue.mem_of_pop popped
  obtain ⟨block, isReceived, rfl⟩ := explained.fetched.txs data
    (channels.txs ▸ List.mem_append_right _ queued)
  exact fun transaction among => List.mem_flatMap.mpr ⟨block, isReceived, among⟩

theorem explains_of_sameIndexed {cliArgs : CliArgs} {db after : Db} (same : SameIndexed db after)
    (explains : received.Explains cliArgs start db) : received.Explains cliArgs start after := by
  obtain ⟨⟨transactions, blocksTransactions, inputs, outputs, addresses, scripts⟩, blocks,
    blockParent, _⟩ := same
  refine explains.of_stores fun row stored => Or.inl ?_
  cases row <;>
    simp only [Db.Stores, transactions, blocksTransactions, inputs, outputs, addresses, scripts,
      blocks, blockParent] at stored ⊢ <;> exact stored

/-- The statements of a turn store rows that come from what was received. -/
theorem Explained.explains_dbAfter (explained : system.Explained settings.cliArgs start received)
    (channels : system.Channels) (explains : received.Explains settings.cliArgs start system.db)
    (event : SystemEvent) :
    received.Explains settings.cliArgs start (system.dbAfter settings event) := by
  cases event with
  | signal => exact explains
  | fetch input => exact explains
  | blocks input script =>
      simp only [dbAfter]
      cases processor : system.tasks.blockProcessor with
      | looping loop =>
          have held := explained.blocks loop (congrArg Task.locals processor)
          simp only [Task.leaves]
          split
          · exact explains
          · exact held.keeps_iterate (explained.pops_blocks channels input) system.db script
              explains
      | _ => exact explains
  | transactions input script =>
      simp only [dbAfter]
      cases processor : system.tasks.transactionProcessor with
      | looping loop =>
          have held := explained.transactions loop (congrArg Task.locals processor)
          simp only [Task.leaves]
          split
          · exact explains
          · exact ((TransactionLoop.explains_invariant settings.cliArgs start received).iterate loop
              { input with popped := system.tasks.txsQueue.pop.1 }
              (fun _ => explained.pops_transactions channels) system.db script ⟨explains, held⟩).1
      | starting =>
          simp only [Task.leaves, state_transactionLoop_start]
          exact explains
      | _ => exact explains
  | virtualChain input script =>
      exact explains_of_sameIndexed (sameIndexed_of_virtualChain settings input script) explains
  | checkpoints input hashOrder script =>
      exact explains_of_sameIndexed (sameIndexed_of_checkpoints settings input hashOrder script)
        explains

/-- A turn of the block processor leaves it with what it popped. -/
theorem Explained.blocks_turn (explained : system.Explained settings.cliArgs start received)
    (channels : system.Channels) {input : BlockInput} {script : Script} {after : Task BlockLoop}
    {left : ArrayQueue CheckpointBlock}
    (turned : system.blockTurn settings input script = some (after, left)) :
    ∀ loop, after.locals = some loop → loop.Explained settings.cliArgs start received := by
  rcases (Task.turned_of_turn turned).effect with quiet | ⟨_, loop, started, rfl⟩ |
    ⟨_, loop, _, rfl⟩ | ⟨_, loop, final, pushed, looping, iterated, rfl⟩
  · exact fun loop running => explained.blocks loop (quiet.locals.symm.trans running)
  · cases started
    rintro _ ⟨⟩
    exact BlockLoop.explained_start _ _ _ _
  · rintro _ ⟨⟩
  · obtain ⟨db, rest, ran⟩ := exists_of_returnedValue iterated
    rw [Task.locals_after]
    rintro _ ⟨⟩
    exact (explained.blocks loop (congrArg Task.locals looping)).iterate
      (explained.pops_blocks channels input) ran

theorem Explained.transactions_turn (explained : system.Explained settings.cliArgs start received)
    (channels : system.Channels) (explains : received.Explains settings.cliArgs start system.db)
    {input : TransactionsInput} {script : Script} {after : Task TransactionLoop}
    {left : ArrayQueue CheckpointBlock}
    (turned : system.transactionTurn settings input script = some (after, left)) :
    ∀ loop, after.locals = some loop → loop.Explained settings.cliArgs start received := by
  rcases (Task.turned_of_turn turned).effect with quiet | ⟨_, loop, started, rfl⟩ |
    ⟨_, loop, _, rfl⟩ | ⟨_, loop, final, pushed, looping, iterated, rfl⟩
  · exact fun loop running => explained.transactions loop (quiet.locals.symm.trans running)
  · obtain ⟨db, rest, ran⟩ := exists_of_returnedValue started
    obtain ⟨results, rfl⟩ := done_transactionLoop_start ran
    rintro _ ⟨⟩
    exact TransactionLoop.explained_loaded _ _
  · rintro _ ⟨⟩
  · obtain ⟨db, rest, ran⟩ := exists_of_returnedValue iterated
    have held := explained.transactions loop (congrArg Task.locals looping)
    rw [Task.locals_after]
    rintro _ ⟨⟩
    exact (((TransactionLoop.explains_invariant settings.cliArgs start received).iterate loop
      { input with popped := system.tasks.txsQueue.pop.1 }
      (fun _ => explained.pops_transactions channels) system.db script ⟨explains, held⟩).2
        _ _ _ ran).2

/-- The step lemma. -/
theorem Explained.step (explained : system.Explained settings.cliArgs start received)
    (channels : system.Channels) (explains : received.Explains settings.cliArgs start system.db)
    {event : SystemEvent}
    (includes : received.Includes settings.cliArgs (.turn event))
    (lives : (system.step settings event).tasks.ended = false) :
    (system.step settings event).Explained settings.cliArgs start received := by
  have fetched : (system.step settings event).log.fetched.OfBlocks received.blocks := by
    rcases fetched_step channels lives with same | ⟨input, full, rfl, _, stepped⟩
    · rw [same]
      exact explained.fetched
    · rw [stepped]
      refine explained.fetched.step channels.consistent fun blocks response => ?_
      have answered := includes.blocks
      simp only [DeploymentEvent.blocks] at answered response
      rwa [response, Option.getD_some] at answered
  have stepped := stepped settings system event
  generalize system.step settings event = next at stepped lives fetched ⊢
  cases stepped with
  | idle _ => exact explained
  | dies ended => exact absurd (ended.symm.trans lives) (by decide)
  | signal alive => exact ⟨fetched, explained.blocks, explained.transactions⟩
  | fetch alive input lives =>
      obtain ⟨blocks, transactions, _⟩ := fetch_processors system.tasks input
      refine ⟨fetched, fun loop running => ?_, fun loop running => ?_⟩
      · exact explained.blocks loop ((congrArg Task.locals blocks).symm.trans running)
      · exact explained.transactions loop ((congrArg Task.locals transactions).symm.trans running)
  | blocks alive turned =>
      exact ⟨fetched, explained.blocks_turn channels turned, explained.transactions⟩
  | transactions alive turned =>
      exact ⟨fetched, explained.blocks, explained.transactions_turn channels explains turned⟩
  | virtualChain alive turned => exact ⟨fetched, explained.blocks, explained.transactions⟩
  | checkpoints alive turned => exact ⟨fetched, explained.blocks, explained.transactions⟩

end System

/-! ## Any number of lives -/

namespace Deployment

variable {cliArgs : CliArgs} {origin : Db} {received : Received} {deployment : Deployment}

/-- What is stored comes from what was received, and so does what a running process holds. -/
structure Explained (cliArgs : CliArgs) (origin : Db) (received : Received)
    (deployment : Deployment) : Prop where
  args : deployment.settings.cliArgs = cliArgs
  db : received.Explains cliArgs origin deployment.system.db
  live : deployment.system.tasks.ended = false →
    (∃ initial, deployment.system.Sound deployment.settings initial) ∧
      deployment.system.Explained cliArgs origin received

theorem explained_spawned {settings : Settings} (startup : Startup) {db : Db}
    (explains : received.Explains settings.cliArgs origin db) :
    (spawned settings startup db).Explained settings.cliArgs origin received where
  args := rfl
  db := explains
  live _ :=
    ⟨⟨db, System.sound_spawn _ _ _ _ db⟩, System.explained_spawn _ _ _ _ db _ origin received⟩

theorem Explained.turn (explained : deployment.Explained cliArgs origin received)
    {event : SystemEvent} (includes : received.Includes cliArgs (.turn event)) :
    (deployment.step (.turn event)).Explained cliArgs origin received := by
  obtain ⟨rfl, explains, live⟩ := explained
  cases ended : deployment.system.tasks.ended with
  | true =>
      have same : deployment.step (.turn event) = deployment := by
        simp only [step, System.step_of_ended ended]
      rw [same]
      exact ⟨rfl, explains, live⟩
  | false =>
      obtain ⟨⟨initial, sound⟩, held⟩ := live ended
      have channels := sound.channels ended
      refine ⟨rfl, ?_, fun lives => ⟨⟨initial, sound.step event⟩, ?_⟩⟩
      · have explainsAfter := held.explains_dbAfter channels explains event
        rw [← System.db_step ended event] at explainsAfter
        exact explainsAfter
      · exact held.step channels explains includes lives

theorem Explained.start (explained : deployment.Explained cliArgs origin received)
    {env : ImportEnv} {input : StartupInput} {script : Script}
    (includes : received.Includes cliArgs (.start env input script)) :
    (deployment.step (.start env input script)).Explained cliArgs origin received := by
  obtain ⟨rfl, explains, live⟩ := explained
  have frame : ImportFrame deployment.settings.cliArgs env input.utxos
      (received.Explains deployment.settings.cliArgs origin) := by
    refine ⟨fun db balances explains => ?_, fun db acceptances explains => ?_,
      fun db pairs isSent explains => ?_⟩
    · exact System.explains_of_sameIndexed { SameIndexed.refl db with } explains
    · exact System.explains_of_sameIndexed { SameIndexed.refl db with } explains
    · refine explains.of_stores fun row stored => ?_
      cases row with
      | output row =>
          refine (Table.mem_or_mem_of_mem_insertAll stored).imp_right fun isNew => Or.inl ?_
          obtain ⟨utxo, isPair, rfl⟩ := List.mem_map.mp isNew
          exact includes.imported (List.mem_map_of_mem (isSent isPair))
      | _ => exact Or.inl stored
  have explainsAfter : received.Explains deployment.settings.cliArgs origin
      (deployment.startup env input script).state :=
    frame.startProcessing (fun blockHash db explains =>
      System.explains_of_sameIndexed { SameIndexed.refl db with } explains) _ _ explains
  rcases step_start_cases deployment env input script with ⟨startup, db, rest, started, eq⟩ | eq
  · rw [started] at explainsAfter
    rw [eq]
    exact explained_spawned startup explainsAfter
  · rw [eq]
    refine ⟨rfl, explainsAfter, fun lives => ?_⟩
    contradiction

/-- The step lemma. -/
theorem Explained.step (explained : deployment.Explained cliArgs origin received)
    {event : DeploymentEvent} (includes : received.Includes cliArgs event) :
    (deployment.step event).Explained cliArgs origin received := by
  cases event with
  | turn event => exact explained.turn includes
  | start env input script => exact explained.start includes

/-- Over any number of crashes and restarts, every row stored was there before the first life or
comes from what was received. -/
theorem explains_of_run (settings : Settings) (startup : Startup) (db : Db)
    (events : List DeploymentEvent) :
    (Received.during settings.cliArgs events).Explains settings.cliArgs db
      (runFrom step (spawned settings startup db) events).system.db := by
  exact (invariant_of_along (fun _ _ explained includes => explained.step includes)
    (explained_spawned startup Received.explains_self)
    (along_of_forall _ fun _ => Received.includes_during settings.cliArgs)).db

end Deployment

end VecnoIndexer
