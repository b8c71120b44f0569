import VecnoIndexer.Checkpoint.Safety
import VecnoIndexer.System.Channels

/-!
# What the database holds when a checkpoint is saved

The flags of a candidate only say which notifications were dequeued.  Since a notification
is issued after the commit of its block and of every block handed over before it, and since
nothing is deleted again, the rows themselves are in the database when the checkpoint is
written, whatever the other tasks are doing.
-/

namespace VecnoIndexer

open VecnoIndexer.Sql
open VecnoIndexer.Collections
open VecnoIndexer.Transition

namespace System

variable {settings : Settings} {start : Db} {system next : System} {event : SystemEvent}

/-- What the checkpoint processor would read in its next turn. -/
def reads (system : System) (input : CheckpointInput) : CheckpointInput :=
  { input with popped := system.tasks.checkpointQueue.pop.1 }

/-- The checkpoint that the next turn of the checkpoint processor saves, and whether by
force. -/
def saves (settings : Settings) (system : System) (input : CheckpointInput) :
    Option (CheckpointBlock × Bool) :=
  if system.tasks.ended || system.tasks.shutdown then none
  else
    match system.tasks.checkpointProcessor with
    | .looping loop =>
        match (loop.receive settings.cliArgs (system.reads input)).evaluate settings.cliArgs
            (system.reads input) with
        | .save checkpoint force _ => some (checkpoint, force)
        | .idle | .wait _ => none
    | .absent | .starting | .pushing _ _ _ | .returned => none

theorem saves_eq_some {input : CheckpointInput} {checkpoint : CheckpointBlock} {force : Bool}
    (saves : system.saves settings input = some (checkpoint, force)) :
    system.tasks.ended = false ∧ system.tasks.shutdown = false ∧
      ∃ loop ready, system.tasks.checkpointProcessor = .looping loop ∧
        (loop.receive settings.cliArgs (system.reads input)).evaluate settings.cliArgs
          (system.reads input) = .save checkpoint force ready := by
  unfold System.saves at saves
  split at saves
  · contradiction
  · rename_i up
    rw [Bool.not_eq_true, Bool.or_eq_false_iff] at up
    refine ⟨up.1, up.2, ?_⟩
    split at saves
    · rename_i loop looping
      split at saves
      · rename_i evaluated
        cases saves
        exact ⟨loop, _, looping, evaluated⟩
      · contradiction
      · contradiction
    all_goals contradiction

/-! ## The checkpoint processor in the system -/

/-- What a turn of the checkpoint processor does to its loop. -/
theorem checkpointTurn_cases {input : CheckpointInput} {hashOrder : Reordering (String × Int)}
    {script : Script} {after : Task CheckpointLoop} {left : ArrayQueue CheckpointBlock}
    (turned : system.checkpointTurn settings input hashOrder script = some (after, left))
    {final : CheckpointLoop} (isFinal : after.locals = some final) :
    (system.tasks.checkpointProcessor.locals = some final ∧
      system.tasks.checkpointProcessor.taken system.tasks.shutdown system.tasks.checkpointQueue =
        []) ∨
    (∃ now previous, final = .start now previous) ∨
    ∃ loop, system.tasks.checkpointProcessor.locals = some loop ∧
      system.tasks.checkpointProcessor.taken system.tasks.shutdown system.tasks.checkpointQueue =
        (system.reads input).popped.toList ∧
      (CheckpointWorld.step settings.cliArgs ⟨system.db, some loop⟩
        (.iteration (system.reads input) hashOrder script)).loop = some final := by
  rcases (Task.turned_of_turn turned).effect with quiet | ⟨starting, loop, started, rfl⟩ |
    ⟨_, loop, looping, rfl⟩ | ⟨up, loop, final, pushed, looping, iterated, rfl⟩
  · exact Or.inl ⟨quiet.locals.symm.trans isFinal, quiet.taken _⟩
  · cases started
    cases isFinal
    exact Or.inr (Or.inl ⟨_, _, rfl⟩)
  · contradiction
  · refine Or.inr (Or.inr ⟨loop, ?_, ?_, ?_⟩)
    · rw [looping]
      rfl
    · rw [looping, up]
      rfl
    · rw [Task.locals_after] at isFinal
      cases isFinal
      obtain ⟨result, returned, eq⟩ := Option.map_eq_some_iff.mp iterated
      cases eq
      obtain ⟨_, _, ran⟩ := exists_of_returnedValue returned
      simp only [checkpointSession] at ran
      simp only [CheckpointWorld.step, reads, ran]
      rfl

/-- An invariant of the checkpoint processor's loop and of what it has dequeued. -/
theorem checkpoints_step {holds : CheckpointLoop → List CheckpointBlock → Prop}
    (starts : ∀ now previous dequeued, holds (.start now previous) dequeued)
    (iterates : ∀ (db : Db) (loop final : CheckpointLoop) (dequeued : List CheckpointBlock)
      (input : CheckpointInput) (hashOrder : Reordering (String × Int)) (script : Script),
      holds loop dequeued →
      (CheckpointWorld.step settings.cliArgs ⟨db, some loop⟩
        (.iteration input hashOrder script)).loop = some final →
      holds final (dequeued ++ input.popped.toList))
    (stepped : Stepped settings system event next)
    (before : ∀ loop, system.tasks.checkpointProcessor.locals = some loop →
      holds loop system.log.dequeued) :
    next.tasks.ended = false → ∀ loop, next.tasks.checkpointProcessor.locals = some loop →
      holds loop next.log.dequeued := by
  intro lives
  cases stepped with
  | idle _ => exact before
  | dies ended => exact absurd (ended.symm.trans lives) (by decide)
  | signal alive => exact before
  | fetch alive input lives =>
      obtain ⟨_, _, _, checkpoints, _⟩ := fetch_processors system.tasks input
      intro loop isLoop
      exact before loop (checkpoints.symm ▸ isLoop)
  | blocks alive turned => exact before
  | transactions alive turned => exact before
  | virtualChain alive turned => exact before
  | checkpoints alive turned =>
      intro final isFinal
      simp only [System.afterCheckpoints]
      rcases checkpointTurn_cases turned isFinal with ⟨isLoop, nothing⟩ | ⟨now, previous, rfl⟩ |
        ⟨loop, isLoop, taken, survives⟩
      · rw [nothing, List.append_nil]
        exact before final isLoop
      · exact starts now previous _
      · rw [taken]
        exact iterates system.db loop final _ _ _ _ (before loop isLoop) survives

/-- A candidate was dequeued, and proposed to be one. -/
def Proposed (cliArgs : CliArgs) (loop : CheckpointLoop) (dequeued : List CheckpointBlock) :
    Prop :=
  ∀ block, loop.checkpointCandidate = some block → block ∈ dequeued ∧ block.Proposes cliArgs

theorem Proposed.receive {cliArgs : CliArgs} {loop : CheckpointLoop}
    {dequeued : List CheckpointBlock} (proposed : Proposed cliArgs loop dequeued)
    (input : CheckpointInput) :
    Proposed cliArgs (loop.receive cliArgs input) (dequeued ++ input.popped.toList) := by
  intro block candidate
  rcases (CheckpointLoop.receive_candidate_cases cliArgs loop input).2 with
    same | ⟨taken, popped, proposes, _, taking⟩
  · obtain ⟨isDequeued, proposes⟩ := proposed block (same.symm.trans candidate)
    exact ⟨List.mem_append_left _ isDequeued, proposes⟩
  · cases taking.symm.trans candidate
    rw [popped]
    exact ⟨List.mem_append_right _ List.mem_cons_self, proposes⟩

theorem Proposed.iterate {cliArgs : CliArgs} {loop final : CheckpointLoop}
    {dequeued : List CheckpointBlock} (proposed : Proposed cliArgs loop dequeued) {db : Db}
    {input : CheckpointInput} {hashOrder : Reordering (String × Int)} {script : Script}
    (survives : (CheckpointWorld.step cliArgs ⟨db, some loop⟩
      (.iteration input hashOrder script)).loop = some final) :
    Proposed cliArgs final (dequeued ++ input.popped.toList) := by
  have received := proposed.receive input
  rcases CheckpointLoop.survivor_cases rfl survives with
    ⟨_, rfl⟩ | ⟨checkpoint, candidate, _, _, dropped | ⟨waits, _⟩⟩
  · exact received
  · intro block isCandidate
    rw [dropped] at isCandidate
    contradiction
  · intro block isCandidate
    exact received block (candidate.trans (waits.symm.trans isCandidate))

/-- Without virtual chain processing nobody notifies of chain blocks. -/
def Unchained (system : System) : Prop :=
  system.tasks.virtualChainProcessor = .absent ∧ system.log.chainNotified = []

theorem Unchained.step (unchained : system.Unchained)
    (stepped : Stepped settings system event next) :
    next.tasks.ended = false → next.Unchained := by
  obtain ⟨isAbsent, nothing⟩ := unchained
  intro lives
  cases stepped with
  | idle _ => exact ⟨isAbsent, nothing⟩
  | dies ended => exact absurd (ended.symm.trans lives) (by decide)
  | signal alive => exact ⟨isAbsent, nothing⟩
  | fetch alive input lives =>
      obtain ⟨_, _, virtualChain, _⟩ := fetch_processors system.tasks input
      exact ⟨virtualChain.trans isAbsent, nothing⟩
  | blocks alive turned => exact ⟨isAbsent, nothing⟩
  | transactions alive turned => exact ⟨isAbsent, nothing⟩
  | virtualChain alive turned =>
      rw [virtualChainTurn, isAbsent] at turned
      cases turned
      refine ⟨rfl, ?_⟩
      simp only [System.afterVirtualChain, isAbsent, nothing]
      rfl
  | checkpoints alive turned => exact ⟨isAbsent, nothing⟩

/-- What the checkpoint processor's loop has to do with the notifications. -/
structure Checked (settings : Settings) (system : System) : Prop where
  vouched : settings.cliArgs.isDisabled .transactionProcessing = false →
    ∀ loop, system.tasks.checkpointProcessor.locals = some loop →
      loop.TxsVouched system.log.dequeued
  proposed : ∀ loop, system.tasks.checkpointProcessor.locals = some loop →
    Proposed settings.cliArgs loop system.log.dequeued
  unchained : settings.cliArgs.isDisabled .virtualChainProcessing = true → system.Unchained

theorem checked_spawn (settings : Settings) (previousCheckpoint : Option String)
    (queueCapacity checkpointCapacity : ℕ) (db : Db) :
    (spawn settings previousCheckpoint queueCapacity checkpointCapacity db).Checked settings where
  vouched _ _ running := nomatch running
  proposed _ running := nomatch running
  unchained disabled := by
    refine ⟨?_, rfl⟩
    simp only [spawn, TaskWorld.spawn, disabled, if_true]

theorem Checked.step (checked : system.Checked settings)
    (stepped : Stepped settings system event next)
    (lives : next.tasks.ended = false) : next.Checked settings where
  vouched enabled := by
    refine checkpoints_step (fun _ _ _ => Vouched.empty _ _ _) ?_ stepped (checked.vouched enabled)
      lives
    intro db loop final dequeued input hashOrder script vouched survives
    have watched : (WatchedWorld.mk ⟨db, some loop⟩ dequeued).TxsVouched := by
      rintro _ ⟨⟩
      exact vouched
    exact watched.step enabled (.iteration input hashOrder script) final survives
  proposed := by
    refine checkpoints_step ?_ ?_ stepped checked.proposed lives
    · intro now previous dequeued block candidate
      contradiction
    · intro db loop final dequeued input hashOrder script proposed survives
      exact proposed.iterate survives
  unchained disabled := (checked.unchained disabled).step stepped lives

/-! ## What is stored -/

/-- The transactions of a block, and of every block handed over before it, are stored. -/
def TransactionsUpTo (cliArgs : CliArgs) (system : System) (hash : Hash) : Prop :=
  ∃ n data, system.log.fetched.txsPushed[n]? = some data ∧ data.blockHash = hash ∧
    ∀ earlier ∈ system.log.fetched.txsPushed.take (n + 1), ∀ transaction ∈ earlier.transactions,
      IndexingWorld.TransactionStored cliArgs system.db transaction

/-- A block, and every block handed over before it, is stored. -/
def BlocksUpTo (cliArgs : CliArgs) (system : System) (hash : Hash) : Prop :=
  ∃ n blockData, system.log.fetched.blocksPushed[n]? = some blockData ∧
    blockData.block.header.hash = hash ∧
    ∀ earlier ∈ system.log.fetched.blocksPushed.take (n + 1),
      BlockStored cliArgs system.db earlier.block

/-- What a log shows of the items popped holds of the items handed over. -/
theorem handedOver_of_shows {α : Type} {notification : α → CheckpointBlock} {holds : Db → α → Prop}
    {popped handed : List α} {notified : List PushedNotification}
    (log : Shows notification holds popped notified) (isPrefix : popped <+: handed)
    {block : CheckpointBlock} (isNotified : block ∈ notified.map PushedNotification.notification) :
    ∃ entry ∈ notified, ∃ n item, handed[n]? = some item ∧ block = notification item ∧
      ∀ earlier ∈ handed.take (n + 1), earlier ∈ popped ∧ holds entry.db earlier := by
  obtain ⟨entry, isEntry, rfl⟩ := List.mem_map.mp isNotified
  obtain ⟨index, inside, rfl⟩ := List.mem_iff_getElem.mp isEntry
  obtain ⟨item, itemEq, same, shown⟩ :=
    log index notified[index] (List.getElem?_eq_getElem inside)
  obtain ⟨short, _⟩ := List.getElem?_eq_some_iff.mp itemEq
  obtain ⟨queued, rfl⟩ := isPrefix
  refine ⟨notified[index], isEntry, index, item, ?_, same, ?_⟩
  · rw [List.getElem?_append_left short]
    exact itemEq
  · rw [List.take_append_of_le_length short]
    exact fun earlier isEarlier => ⟨List.mem_of_mem_take isEarlier, shown earlier isEarlier⟩

/-- A transaction that is shown is stored if its id commits to its content. -/
theorem transactionStored_of_shownAs {cliArgs : CliArgs} {popped : List RpcTransaction} {db : Db}
    {transaction : RpcTransaction}
    (shown : IndexingWorld.ShownAs cliArgs popped db transaction)
    (isPopped : transaction ∈ popped) (identified : IndexingWorld.Identified popped) :
    IndexingWorld.TransactionStored cliArgs db transaction := by
  obtain ⟨verboseData, hasVerbose, relation, other, otherPopped, otherId, stored⟩ := shown
  have sameId : other.transactionId = transaction.transactionId :=
    otherId.trans (congrArg (Option.map RpcTransactionVerboseData.transactionId) hasVerbose).symm
  obtain ⟨sameInputs, sameOutputs⟩ :=
    identified other otherPopped transaction isPopped sameId
  exact ⟨verboseData, hasVerbose, relation, stored.congr sameInputs sameOutputs⟩

/-- Once the transaction processor's notification of a block was pushed. -/
theorem Sound.transactionsUpTo (sound : system.Sound settings start)
    (alive : system.tasks.ended = false)
    (identified : IndexingWorld.Identified
      (system.log.fetched.txsPushed.flatMap TransactionData.transactions))
    {hash : Hash} (notified : Notified system.log.pushed .transactions hash) :
    system.TransactionsUpTo settings.cliArgs hash := by
  have channels := sound.channels alive
  have isPrefix : system.log.poppedTransactions <+: system.log.fetched.txsPushed :=
    ⟨_, channels.txs.symm⟩
  have identifiedPopped : IndexingWorld.Identified system.indexing.transactions := by
    intro first isFirst second isSecond
    exact identified first ((isPrefix.flatMap _).subset isFirst) second
      ((isPrefix.flatMap _).subset isSecond)
  obtain ⟨block, isPushed, origin, rfl⟩ := notified
  have isIssued : block ∈ system.log.transactionsNotified.map PushedNotification.notification := by
    rw [← channels.fromTransactions]
    exact List.mem_append_left _ (List.mem_filter.mpr ⟨isPushed, decide_eq_true origin⟩)
  obtain ⟨entry, isEntry, n, data, dataEq, rfl, shown⟩ :=
    handedOver_of_shows sound.indexed.sides.2.shown isPrefix isIssued
  refine ⟨n, data, dataEq, rfl, fun earlier isEarlier transaction among => ?_⟩
  obtain ⟨isPopped, shownAs⟩ := shown earlier isEarlier
  have among : transaction ∈ system.indexing.transactions :=
    List.mem_flatMap.mpr ⟨earlier, isPopped, among⟩
  exact (sound.indexed.transactionsRetained entry isEntry).transactionStored
    (transactionStored_of_shownAs (shownAs transaction ‹_›) among identifiedPopped)

/-- Once the block processor's notification of a block was pushed. -/
theorem Sound.blocksUpTo (sound : system.Sound settings start)
    (alive : system.tasks.ended = false)
    {hash : Hash} (notified : Notified system.log.pushed .blocks hash) :
    system.BlocksUpTo settings.cliArgs hash := by
  have channels := sound.channels alive
  have isPrefix : system.log.poppedBlocks <+: system.log.fetched.blocksPushed :=
    ⟨_, channels.blocks.symm⟩
  obtain ⟨block, isPushed, origin, rfl⟩ := notified
  have isIssued : block ∈ system.log.blocksNotified.map PushedNotification.notification := by
    rw [← channels.fromBlocks]
    exact List.mem_append_left _ (List.mem_filter.mpr ⟨isPushed, decide_eq_true origin⟩)
  obtain ⟨entry, isEntry, n, blockData, dataEq, rfl, shown⟩ :=
    handedOver_of_shows sound.indexed.sides.1.shown isPrefix isIssued
  refine ⟨n, blockData, dataEq, rfl, fun earlier isEarlier => ?_⟩
  exact (sound.indexed.blocksRetained entry isEntry).blockStored (shown earlier isEarlier).2

/-! ## A save -/

/-- What the database holds when a checkpoint is saved. A save by force says nothing of the
transactions. With virtual chain processing the candidate's own block is taken on trust. -/
structure Covers (cliArgs : CliArgs) (system : System) (checkpoint : CheckpointBlock)
    (force : Bool) : Prop where
  transactions : cliArgs.isDisabled .transactionProcessing = false → force = false →
    IndexingWorld.Identified
      (system.log.fetched.txsPushed.flatMap TransactionData.transactions) →
    system.TransactionsUpTo cliArgs checkpoint.hash
  blocks : cliArgs.isDisabled .virtualChainProcessing = true ∨
      Notified system.log.pushed .blocks checkpoint.hash →
    system.BlocksUpTo cliArgs checkpoint.hash

/-- What the next turn dequeues was pushed. -/
theorem Channels.mem_pushed (channels : system.Channels) {input : CheckpointInput}
    {block : CheckpointBlock}
    (isDequeued : block ∈ system.log.dequeued ++ (system.reads input).popped.toList) :
    block ∈ system.log.pushed := by
  rw [channels.checkpoints]
  rcases List.mem_append.mp isDequeued with before | now
  · exact List.mem_append_left _ before
  · refine List.mem_append_right _ ?_
    cases items : system.tasks.checkpointQueue.items with
    | nil => simp [reads, ArrayQueue.pop, items] at now
    | cons head rest =>
        simp only [reads, ArrayQueue.pop, items, List.head?_cons, Option.mem_toList] at now
        cases now
        exact List.mem_cons_self

/-- Without virtual chain processing only the block processor proposes candidates. -/
theorem notified_of_unchained (channels : system.Channels) (unchained : system.Unchained)
    {cliArgs : CliArgs} {checkpoint : CheckpointBlock} (isPushed : checkpoint ∈ system.log.pushed)
    (proposes : checkpoint.Proposes cliArgs) :
    Notified system.log.pushed .blocks checkpoint.hash := by
  rcases proposes with origin | ⟨origin, _⟩
  · have issued : checkpoint ∈ system.log.chainNotified := by
      rw [← channels.fromChain]
      exact List.mem_append_left _ (List.mem_filter.mpr ⟨isPushed, decide_eq_true origin⟩)
    rw [unchained.2] at issued
    exact absurd issued List.not_mem_nil
  · exact ⟨checkpoint, isPushed, origin, rfl⟩

/-- The transaction processor notified of a block that is saved without force. -/
theorem Checked.notified_transactions (checked : system.Checked settings)
    (enabled : settings.cliArgs.isDisabled .transactionProcessing = false)
    {loop ready : CheckpointLoop} {input : CheckpointInput} {checkpoint : CheckpointBlock}
    (isLoop : system.tasks.checkpointProcessor.locals = some loop)
    (evaluated : (loop.receive settings.cliArgs input).evaluate settings.cliArgs input =
      .save checkpoint false ready) :
    Notified (system.log.dequeued ++ input.popped.toList) .transactions checkpoint.hash := by
  obtain ⟨candidate, _, txs⟩ := CheckpointLoop.flags_of_evaluate_eq_save evaluated
  have received := (checked.vouched enabled loop isLoop).receive settings.cliArgs input
  unfold CheckpointLoop.TxsVouched at received
  rw [candidate] at received
  refine received.check.candidate checkpoint rfl ?_
  simpa only [CheckpointLoop.checkReadiness, enabled, Bool.or_false] using txs

theorem Checked.covers (checked : system.Checked settings) (sound : system.Sound settings start)
    {input : CheckpointInput} {checkpoint : CheckpointBlock} {force : Bool}
    (saves : system.saves settings input = some (checkpoint, force)) :
    system.Covers settings.cliArgs checkpoint force := by
  obtain ⟨alive, _, loop, ready, looping, evaluated⟩ := saves_eq_some saves
  have channels := sound.channels alive
  have isLoop : system.tasks.checkpointProcessor.locals = some loop := by
    rw [looping]
    rfl
  constructor
  · rintro enabled rfl identified
    obtain ⟨block, isDequeued, notified⟩ := checked.notified_transactions enabled isLoop evaluated
    exact sound.transactionsUpTo alive identified ⟨block, channels.mem_pushed isDequeued, notified⟩
  · intro vouched
    refine sound.blocksUpTo alive ?_
    rcases vouched with disabled | notified
    · have received := (checked.proposed loop isLoop).receive (system.reads input)
      obtain ⟨isDequeued, proposes⟩ :=
        received checkpoint (CheckpointLoop.candidate_of_evaluate_eq_save evaluated)
      exact notified_of_unchained channels (checked.unchained disabled)
        (channels.mem_pushed isDequeued) proposes
    · exact notified

/-! ## Runs -/

theorem checked_of_run (settings : Settings) (previousCheckpoint : Option String)
    (queueCapacity checkpointCapacity : ℕ) (db : Db) (events : List SystemEvent)
    (alive : (runFrom (System.step settings)
      (spawn settings previousCheckpoint queueCapacity checkpointCapacity db) events).tasks.ended =
        false) :
    (runFrom (System.step settings)
      (spawn settings previousCheckpoint queueCapacity checkpointCapacity db) events).Checked
        settings := by
  have preserved (system : System) (event : SystemEvent)
      (checked : system.tasks.ended = false → system.Checked settings)
      (lives : (system.step settings event).tasks.ended = false) :
      (system.step settings event).Checked settings :=
    (checked (alive_of_step lives)).step (stepped settings system event) lives
  have spawned :=
    checked_spawn settings previousCheckpoint queueCapacity checkpointCapacity db
  exact invariant_of_run preserved events (fun _ => spawned) alive

/-- In every run of the system a save finds in the database all that the checkpoint vouches
for. -/
theorem covers_of_run (settings : Settings) (previousCheckpoint : Option String)
    (queueCapacity checkpointCapacity : ℕ) (db : Db) (events : List SystemEvent)
    (input : CheckpointInput) (checkpoint : CheckpointBlock) (force : Bool)
    (saves : (runFrom (System.step settings)
      (spawn settings previousCheckpoint queueCapacity checkpointCapacity db) events).saves settings
        input = some (checkpoint, force)) :
    (runFrom (System.step settings)
      (spawn settings previousCheckpoint queueCapacity checkpointCapacity db) events).Covers
        settings.cliArgs checkpoint force :=
  (checked_of_run settings previousCheckpoint queueCapacity checkpointCapacity db events
    (saves_eq_some saves).1).covers
      (sound_of_run settings previousCheckpoint queueCapacity checkpointCapacity db events) saves

end System

/-- The first of two blocks is the candidate when its notification is dequeued. -/
theorem twoBlocks_covers :
    (runFrom (System.step chainlessSettings) (.spawn chainlessSettings none 100 100 .empty)
      twoBlocks).Covers chainlessSettings.cliArgs (BlockLoop.notification (paidBlock 1)) false := by
  apply System.covers_of_run chainlessSettings none 100 100 .empty twoBlocks
    ⟨none, 31000000000, 31000000000, 31000000000, 31000000000⟩
  decide +kernel

end VecnoIndexer
