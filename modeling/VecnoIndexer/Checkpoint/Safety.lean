import VecnoIndexer.Checkpoint.Core
import VecnoIndexer.Transition.Run

/-!
# What a saved checkpoint vouches for

A checkpoint saved without force should have been notified by the block
processor and by the transaction processor.  The transaction half holds in every
run: the flag is lowered when a candidate is adopted and raised only by a
notification of its hash.  The block half is taken on trust: adopting a
candidate raises the flag without a notification.  It holds in runs where the
notification came first.
-/

namespace VecnoIndexer

open VecnoIndexer.Sql
open VecnoIndexer.Collections
open VecnoIndexer.Transition

/-- A notification of a block by one origin is among those dequeued. -/
def Notified (dequeued : List CheckpointBlock) (origin : CheckpointOrigin) (hash : Hash) :
    Prop :=
  ∃ block ∈ dequeued, block.origin = origin ∧ block.hash = hash

instance (dequeued : List CheckpointBlock) (origin : CheckpointOrigin) (hash : Hash) :
    Decidable (Notified dequeued origin hash) :=
  inferInstanceAs (Decidable (∃ block ∈ dequeued, _))

theorem Notified.append {dequeued : List CheckpointBlock} {origin : CheckpointOrigin}
    {hash : Hash} (notified : Notified dequeued origin hash) (later : List CheckpointBlock) :
    Notified (dequeued ++ later) origin hash := by
  obtain ⟨block, blockMem, facts⟩ := notified
  exact ⟨block, List.mem_append_left later blockMem, facts⟩

theorem notified_append_self (dequeued : List CheckpointBlock) (block : CheckpointBlock) :
    Notified (dequeued ++ [block]) block.origin block.hash :=
  ⟨block, List.mem_append_right dequeued List.mem_cons_self, rfl, rfl⟩

/-- The processor together with what the running process has dequeued. -/
structure WatchedWorld where
  world : CheckpointWorld
  dequeued : List CheckpointBlock

/-- What the running process has dequeued after an event; a new process starts
with nothing. -/
def dequeuedAfter (dequeued : List CheckpointBlock) : CheckpointEvent → List CheckpointBlock
  | .iteration input _ _ => dequeued ++ input.popped.toList
  | .restart _ _ => []

def WatchedWorld.step (cliArgs : CliArgs) (watched : WatchedWorld) (event : CheckpointEvent) :
    WatchedWorld where
  world := watched.world.step cliArgs event
  dequeued := dequeuedAfter watched.dequeued event

/-- The next iteration, on this input, saves a checkpoint without force. -/
def SavesUnforced (cliArgs : CliArgs) (world : CheckpointWorld) (input : CheckpointInput)
    (checkpoint : CheckpointBlock) : Prop :=
  ∃ loop ready, world.loop = some loop ∧
    (loop.receive cliArgs input).evaluate cliArgs input = .save checkpoint false ready

/-- What carries a run for one origin: a hash remembered as processed was
notified, and so was a candidate whose flag is up. -/
structure Vouched (dequeued : List CheckpointBlock) (origin : CheckpointOrigin)
    (processed : Finset Hash) (candidate : Option CheckpointBlock) (flag : Bool) : Prop where
  processed : ∀ hash ∈ processed, Notified dequeued origin hash
  candidate : ∀ block, candidate = some block → flag = true →
    Notified dequeued origin block.hash

namespace Vouched

variable {dequeued : List CheckpointBlock} {origin : CheckpointOrigin}
  {processed : Finset Hash} {candidate : Option CheckpointBlock} {flag : Bool}

theorem append (vouched : Vouched dequeued origin processed candidate flag)
    (later : List CheckpointBlock) :
    Vouched (dequeued ++ later) origin processed candidate flag where
  processed hash member := (vouched.processed hash member).append later
  candidate block equal up := (vouched.candidate block equal up).append later

theorem insert (vouched : Vouched dequeued origin processed candidate flag) {hash : Hash}
    (notified : Notified dequeued origin hash) :
    Vouched dequeued origin (insert hash processed) candidate flag where
  processed other member := by
    rcases Finset.mem_insert.mp member with rfl | old
    · exact notified
    · exact vouched.processed other old
  candidate := vouched.candidate

/-- A new candidate with its flag down, or notified already. -/
theorem adopt (vouched : Vouched dequeued origin processed candidate flag)
    {block : CheckpointBlock} {raised : Bool}
    (notified : raised = true → Notified dequeued origin block.hash) :
    Vouched dequeued origin processed (some block) raised where
  processed := vouched.processed
  candidate := by
    rintro _ ⟨⟩
    exact notified

/-- The test of readiness: the flag goes up for a hash remembered as processed,
and the memory is cleared. -/
theorem check {block : CheckpointBlock}
    (vouched : Vouched dequeued origin processed (some block) flag) :
    Vouched dequeued origin ∅ (some block) (flag || decide (block.hash ∈ processed)) where
  processed hash member := absurd member (Finset.notMem_empty hash)
  candidate := by
    rintro _ ⟨⟩ up
    rcases Bool.or_eq_true_iff.mp up with flagUp | remembered
    · exact vouched.candidate block rfl flagUp
    · exact vouched.processed block.hash (of_decide_eq_true remembered)

/-- Nothing is remembered and nothing waits. -/
theorem empty (dequeued : List CheckpointBlock) (origin : CheckpointOrigin) (flag : Bool) :
    Vouched dequeued origin ∅ none flag where
  processed hash member := absurd member (Finset.notMem_empty hash)
  candidate _ absent := nomatch absent

end Vouched

/-- Both halves for a loop. -/
def CheckpointLoop.TxsVouched (loop : CheckpointLoop) (dequeued : List CheckpointBlock) :
    Prop :=
  Vouched dequeued .transactions loop.txsProcessed loop.checkpointCandidate loop.cpOkTxs

def CheckpointLoop.BlocksVouched (loop : CheckpointLoop) (dequeued : List CheckpointBlock) :
    Prop :=
  Vouched dequeued .blocks loop.blocksProcessed loop.checkpointCandidate loop.cpOkBlocks

namespace CheckpointLoop

variable {cliArgs : CliArgs} {loop : CheckpointLoop} {dequeued : List CheckpointBlock}
  {input : CheckpointInput}

/-- Receiving keeps the transaction half, whatever is popped. -/
theorem TxsVouched.receive (vouched : loop.TxsVouched dequeued) (cliArgs : CliArgs)
    (input : CheckpointInput) :
    (loop.receive cliArgs input).TxsVouched (dequeued ++ input.popped.toList) := by
  have adopted (block : CheckpointBlock) :
      (loop.adopt input.adoptNow block).TxsVouched (dequeued ++ [block]) := by
    unfold CheckpointLoop.adopt
    split
    · exact (Vouched.append vouched [block]).adopt fun raised => nomatch raised
    · exact Vouched.append vouched [block]
  unfold CheckpointLoop.receive
  cases popped : input.popped with
  | none => simpa using vouched
  | some block =>
      have notified := notified_append_self dequeued block
      simp only [Option.toList_some, dequeue]
      cases origin : block.origin with
      | blocks =>
          simp only
          split
          · exact adopted block
          · exact Vouched.append vouched [block]
      | transactions =>
          rw [origin] at notified
          exact (Vouched.append vouched [block]).insert notified
      | vcp => exact adopted block
      | initial => exact Vouched.append vouched [block]

/-- Receiving keeps the block half if a candidate that is adopted has been
notified. -/
theorem BlocksVouched.receive (vouched : loop.BlocksVouched dequeued)
    (enabled : cliArgs.isDisabled .virtualChainProcessing = false)
    (adoptsNotified : ∀ block, input.popped = some block → block.origin = .vcp →
      loop.Adopts input.adoptNow → Notified dequeued .blocks block.hash) :
    (loop.receive cliArgs input).BlocksVouched (dequeued ++ input.popped.toList) := by
  unfold CheckpointLoop.receive
  cases popped : input.popped with
  | none => simpa using vouched
  | some block =>
      have notified := notified_append_self dequeued block
      simp only [Option.toList_some, dequeue]
      cases origin : block.origin with
      | blocks =>
          rw [origin] at notified
          simp only [enabled, Bool.false_eq_true, if_false]
          exact (Vouched.append vouched [block]).insert notified
      | transactions => exact Vouched.append vouched [block]
      | vcp =>
          simp only [CheckpointLoop.adopt]
          split
          · rename_i adopts
            exact (Vouched.append vouched [block]).adopt fun _ =>
              (adoptsNotified block popped origin adopts).append [block]
          · exact Vouched.append vouched [block]
      | initial => exact Vouched.append vouched [block]

/-- A candidate is saved without force only with both flags up. -/
theorem flags_of_evaluate_eq_save {checkpoint : CheckpointBlock} {ready : CheckpointLoop}
    (saves : loop.evaluate cliArgs input = .save checkpoint false ready) :
    loop.checkpointCandidate = some checkpoint ∧
      (loop.checkReadiness cliArgs checkpoint.hash).cpOkBlocks = true ∧
      (loop.checkReadiness cliArgs checkpoint.hash).cpOkTxs = true := by
  unfold evaluate at saves
  cases candidate : loop.checkpointCandidate with
  | none => simp [candidate] at saves
  | some block =>
      simp only [candidate] at saves
      split_ifs at saves with forced flags
      · simp at saves
      · obtain ⟨rfl, _, _⟩ := Decision.save.inj saves
        exact ⟨rfl, Bool.and_eq_true_iff.mp flags⟩

/-- The loop that survives an iteration: without a candidate it is the one that
received; otherwise the memories are empty, and the candidate is gone or waits
with the flags the test gave it. -/
theorem survivor_cases {world : CheckpointWorld} {after : CheckpointLoop}
    {hashOrder : Reordering (String × Int)} {script : Script} (running : world.loop = some loop)
    (survives : (world.step cliArgs (.iteration input hashOrder script)).loop = some after) :
    ((loop.receive cliArgs input).checkpointCandidate = none ∧
        after = loop.receive cliArgs input) ∨
      ∃ checkpoint, (loop.receive cliArgs input).checkpointCandidate = some checkpoint ∧
        after.blocksProcessed = ∅ ∧ after.txsProcessed = ∅ ∧
        (after.checkpointCandidate = none ∨
          (after.checkpointCandidate = some checkpoint ∧
            after.cpOkBlocks = ((loop.receive cliArgs input).checkReadiness cliArgs
              checkpoint.hash).cpOkBlocks ∧
            after.cpOkTxs = ((loop.receive cliArgs input).checkReadiness cliArgs
              checkpoint.hash).cpOkTxs)) := by
  simp only [CheckpointWorld.step, running, iterate] at survives
  generalize loop.receive cliArgs input = received at survives ⊢
  cases candidate : received.checkpointCandidate with
  | none =>
      simp only [evaluate, candidate] at survives
      exact Or.inl ⟨rfl, (Option.some.inj survives).symm⟩
  | some checkpoint =>
      refine Or.inr ⟨checkpoint, rfl, ?_⟩
      simp only [evaluate, candidate] at survives
      split_ifs at survives
      · obtain ⟨previous, rfl⟩ := loop_ofExec_save survives
        exact ⟨rfl, rfl, Or.inl rfl⟩
      · obtain ⟨previous, rfl⟩ := loop_ofExec_save survives
        exact ⟨rfl, rfl, Or.inl rfl⟩
      · cases survives
        exact ⟨rfl, rfl, Or.inr ⟨candidate, rfl, rfl⟩⟩
      · cases survives
        exact ⟨rfl, rfl, Or.inr ⟨candidate, rfl, rfl⟩⟩

end CheckpointLoop

/-! ## Runs -/

section Runs

variable {cliArgs : CliArgs} {watched : WatchedWorld}

/-- The transaction half holds of the loop that is alive. -/
def WatchedWorld.TxsVouched (watched : WatchedWorld) : Prop :=
  ∀ loop, watched.world.loop = some loop → loop.TxsVouched watched.dequeued

def WatchedWorld.BlocksVouched (watched : WatchedWorld) : Prop :=
  ∀ loop, watched.world.loop = some loop → loop.BlocksVouched watched.dequeued

/-- If the event adopts a notification of the virtual chain processor as the
candidate, the block processor's notification of the block was dequeued before. -/
def AdoptsNotified (watched : WatchedWorld) : CheckpointEvent → Prop
  | .iteration input _ _ =>
      ∀ loop block, watched.world.loop = some loop → input.popped = some block →
        block.origin = .vcp → loop.Adopts input.adoptNow →
        Notified watched.dequeued .blocks block.hash
  | .restart _ _ => True

/-- The loop a restart leaves is a fresh one. -/
theorem loop_step_restart (cliArgs : CliArgs) {world : CheckpointWorld} {now : ℕ}
    {script : Script} {after : CheckpointLoop}
    (survives : (world.step cliArgs (.restart now script)).loop = some after) :
    ∃ previous, after = CheckpointLoop.start now previous := by
  simp only [CheckpointWorld.step] at survives
  cases stored : world.db.persistedCheckpoint with
  | none =>
      rw [stored] at survives
      contradiction
  | some saved =>
      simp only [stored, resume, Session.run_bind, Session.run_attempt, Session.run_pure]
        at survives
      cases ran : Session.run (saveCheckpoint saved) world.db script with
      | done value db rest =>
          rw [ran] at survives
          exact ⟨_, (Option.some.inj survives).symm⟩
      | failed error db rest =>
          rw [ran] at survives
          exact ⟨_, (Option.some.inj survives).symm⟩
      | killed db =>
          rw [ran] at survives
          contradiction

/-- The step lemma for the transaction half. -/
theorem WatchedWorld.TxsVouched.step
    (enabled : cliArgs.isDisabled .transactionProcessing = false)
    (vouched : watched.TxsVouched) (event : CheckpointEvent) :
    (watched.step cliArgs event).TxsVouched := by
  intro after survives
  cases event with
  | restart now script =>
      obtain ⟨previous, rfl⟩ := loop_step_restart cliArgs survives
      exact Vouched.empty _ _ _
  | iteration input hashOrder script =>
      cases running : watched.world.loop with
      | none => simp [WatchedWorld.step, CheckpointWorld.step, running] at survives
      | some loop =>
          have received := (vouched loop running).receive cliArgs input
          rcases CheckpointLoop.survivor_cases running survives with
            ⟨_, rfl⟩ | ⟨checkpoint, candidate, _, noTxs, dropped | ⟨waiting, _, flag⟩⟩
          · exact received
          · unfold CheckpointLoop.TxsVouched
            rw [noTxs, dropped]
            exact Vouched.empty _ _ _
          · unfold CheckpointLoop.TxsVouched at received ⊢
            rw [candidate] at received
            rw [noTxs, waiting, flag]
            change Vouched (watched.dequeued ++ input.popped.toList) _ _ _ _
            simpa only [CheckpointLoop.checkReadiness, enabled, Bool.or_false] using
              received.check

/-- The step lemma for the block half, under the condition on what is adopted. -/
theorem WatchedWorld.BlocksVouched.step
    (enabled : cliArgs.isDisabled .virtualChainProcessing = false)
    (vouched : watched.BlocksVouched) {event : CheckpointEvent}
    (adopts : AdoptsNotified watched event) :
    (watched.step cliArgs event).BlocksVouched := by
  intro after survives
  cases event with
  | restart now script =>
      obtain ⟨previous, rfl⟩ := loop_step_restart cliArgs survives
      exact Vouched.empty _ _ _
  | iteration input hashOrder script =>
      cases running : watched.world.loop with
      | none => simp [WatchedWorld.step, CheckpointWorld.step, running] at survives
      | some loop =>
          have received := (vouched loop running).receive enabled
            fun block => adopts loop block running
          rcases CheckpointLoop.survivor_cases running survives with
            ⟨_, rfl⟩ | ⟨checkpoint, candidate, noBlocks, _, dropped | ⟨waiting, flag, _⟩⟩
          · exact received
          · unfold CheckpointLoop.BlocksVouched
            rw [noBlocks, dropped]
            exact Vouched.empty _ _ _
          · unfold CheckpointLoop.BlocksVouched at received ⊢
            rw [candidate] at received
            rw [noBlocks, waiting, flag]
            exact received.check

/-- A run begins with a fresh loop, or none, and nothing dequeued. -/
def WatchedWorld.Fresh (watched : WatchedWorld) : Prop :=
  watched.dequeued = [] ∧ ∀ loop, watched.world.loop = some loop →
    ∃ now previous, loop = CheckpointLoop.start now previous

/-- Whenever a checkpoint is saved without force, the transaction processor's
notification of it has been dequeued. -/
theorem notified_transactions_of_run
    (enabled : cliArgs.isDisabled .transactionProcessing = false)
    (fresh : watched.Fresh) (events : List CheckpointEvent) {input : CheckpointInput}
    {checkpoint : CheckpointBlock}
    (saves : SavesUnforced cliArgs (runFrom (WatchedWorld.step cliArgs) watched events).world
      input checkpoint) :
    Notified ((runFrom (WatchedWorld.step cliArgs) watched events).dequeued ++
      input.popped.toList) .transactions checkpoint.hash := by
  have initial : watched.TxsVouched := by
    intro loop running
    obtain ⟨now, previous, rfl⟩ := fresh.2 loop running
    exact Vouched.empty _ _ _
  have vouched : (runFrom (WatchedWorld.step cliArgs) watched events).TxsVouched :=
    invariant_of_run (fun _ event held => held.step enabled event) events initial
  obtain ⟨loop, ready, running, decision⟩ := saves
  obtain ⟨candidate, _, flag⟩ := CheckpointLoop.flags_of_evaluate_eq_save decision
  have received := (vouched loop running).receive cliArgs input
  unfold CheckpointLoop.TxsVouched at received
  rw [candidate] at received
  simp only [CheckpointLoop.checkReadiness, enabled, Bool.or_false] at flag
  exact received.check.candidate checkpoint rfl flag

/-- And so has the block processor's, if no candidate was adopted before its
block was notified. -/
theorem notified_blocks_of_run
    (enabled : cliArgs.isDisabled .virtualChainProcessing = false)
    (fresh : watched.Fresh) {events : List CheckpointEvent} {input : CheckpointInput}
    {hashOrder : Reordering (String × Int)} {script : Script} {checkpoint : CheckpointBlock}
    (adopts : Along (WatchedWorld.step cliArgs) AdoptsNotified watched
      (events ++ [.iteration input hashOrder script]))
    (saves : SavesUnforced cliArgs (runFrom (WatchedWorld.step cliArgs) watched events).world
      input checkpoint) :
    Notified ((runFrom (WatchedWorld.step cliArgs) watched events).dequeued ++
      input.popped.toList) .blocks checkpoint.hash := by
  obtain ⟨adoptsBefore, adoptsNow, _⟩ := along_append.mp adopts
  have initial : watched.BlocksVouched := by
    intro loop running
    obtain ⟨now, previous, rfl⟩ := fresh.2 loop running
    exact Vouched.empty _ _ _
  have vouched : (runFrom (WatchedWorld.step cliArgs) watched events).BlocksVouched :=
    invariant_of_along (fun _ _ held adopted => held.step enabled adopted) initial adoptsBefore
  obtain ⟨loop, ready, running, decision⟩ := saves
  obtain ⟨candidate, flag, _⟩ := CheckpointLoop.flags_of_evaluate_eq_save decision
  have received := (vouched loop running).receive enabled fun block => adoptsNow loop block running
  unfold CheckpointLoop.BlocksVouched at received
  rw [candidate] at received
  exact received.check.candidate checkpoint rfl flag

/-- The notifications of one origin come in the order in which the blocks were
delivered to it. -/
def Fifo (delivered : List Hash) (dequeued : List CheckpointBlock) (origin : CheckpointOrigin) :
    Prop :=
  (dequeued.filter fun block => block.origin = origin).map CheckpointBlock.hash <+: delivered

/-- A processor that notified a block has notified all that were delivered
before it. -/
theorem notified_before_of_fifo {delivered before after : List Hash}
    {dequeued : List CheckpointBlock} {origin : CheckpointOrigin} {hash : Hash}
    (fifo : Fifo delivered dequeued origin) (notified : Notified dequeued origin hash)
    (split : delivered = before ++ hash :: after) (first : hash ∉ before) :
    ∀ earlier ∈ before, Notified dequeued origin earlier := by
  have mem_iff (other : Hash) :
      other ∈ (dequeued.filter fun block => block.origin = origin).map CheckpointBlock.hash ↔
        Notified dequeued origin other := by
    simp [Notified, and_assoc]
  intro earlier earlierMem
  unfold Fifo at fifo
  rw [← mem_iff] at notified ⊢
  generalize (dequeued.filter fun block => block.origin = origin).map CheckpointBlock.hash =
    popped at fifo notified ⊢
  obtain ⟨rest, rfl⟩ := fifo
  rcases List.append_eq_append_iff.mp split with ⟨middle, beforeEq, _⟩ | ⟨middle, poppedEq, _⟩
  · rw [beforeEq] at first
    exact absurd (List.mem_append_left middle notified) first
  · rw [poppedEq]
    exact List.mem_append_left middle earlierMem

/-- A checkpoint saved without force has been notified by both processors, and
so has every block delivered before it, if no candidate was adopted before its
block was notified. -/
theorem saved_checkpoint_notified
    (vcpEnabled : cliArgs.isDisabled .virtualChainProcessing = false)
    (txsEnabled : cliArgs.isDisabled .transactionProcessing = false)
    (fresh : watched.Fresh) {events : List CheckpointEvent} {input : CheckpointInput}
    {hashOrder : Reordering (String × Int)} {script : Script} {checkpoint : CheckpointBlock}
    (adopts : Along (WatchedWorld.step cliArgs) AdoptsNotified watched
      (events ++ [.iteration input hashOrder script]))
    (saves : SavesUnforced cliArgs (runFrom (WatchedWorld.step cliArgs) watched events).world
      input checkpoint) :
    let dequeued := (runFrom (WatchedWorld.step cliArgs) watched events).dequeued ++
      input.popped.toList
    Notified dequeued .blocks checkpoint.hash ∧
      Notified dequeued .transactions checkpoint.hash ∧
      ∀ delivered before after, delivered = before ++ checkpoint.hash :: after →
        checkpoint.hash ∉ before → Fifo delivered dequeued .blocks →
        Fifo delivered dequeued .transactions → ∀ earlier ∈ before,
          Notified dequeued .blocks earlier ∧ Notified dequeued .transactions earlier := by
  have blocks := notified_blocks_of_run vcpEnabled fresh adopts saves
  have transactions := notified_transactions_of_run txsEnabled fresh events saves
  refine ⟨blocks, transactions, ?_⟩
  intro delivered before after split first blocksFifo txsFifo earlier earlierMem
  exact ⟨notified_before_of_fifo blocksFifo blocks split first earlier earlierMem,
    notified_before_of_fifo txsFifo transactions split first earlier earlierMem⟩

end Runs

/-! ## A checkpoint the block processor has not reached -/

/-- A process started on an empty database. -/
def freshWorld : WatchedWorld where
  world := ⟨Db.empty, some (CheckpointLoop.start 0 none)⟩
  dequeued := []

/-- An iteration at the 31st second that pops a notification for block 2. -/
def popAtSecond31 (origin : CheckpointOrigin) : CheckpointInput where
  popped := some ⟨origin, 2, 0, 0, 1⟩
  adoptNow := 31000000000
  evaluateNow := 31000000000
  warnNow := 31000000000
  recordNow := 31000000000

theorem freshWorld_fresh : freshWorld.Fresh :=
  ⟨rfl, by rintro _ ⟨⟩; exact ⟨0, none, rfl⟩⟩

def chainFirstEvents : List CheckpointEvent :=
  [.iteration (popAtSecond31 .vcp) .listed fun _ => .succeeds]

/-- The virtual chain processor is first, the transaction processor second: the
checkpoint is saved, and the block processor has said nothing. -/
theorem saved_without_blocks_notification :
    freshWorld.Fresh ∧
      SavesUnforced .standard
        (runFrom (WatchedWorld.step .standard) freshWorld chainFirstEvents).world
        (popAtSecond31 .transactions) ⟨.vcp, 2, 0, 0, 1⟩ ∧
      ¬ Notified ((runFrom (WatchedWorld.step .standard) freshWorld chainFirstEvents).dequeued ++
        (popAtSecond31 .transactions).popped.toList) .blocks 2 :=
  ⟨freshWorld_fresh, ⟨_, _, rfl, rfl⟩, by decide⟩

def blocksFirstEvents : List CheckpointEvent :=
  [.iteration (popAtSecond31 .blocks) .listed fun _ => .succeeds,
    .iteration (popAtSecond31 .vcp) .listed fun _ => .succeeds]

/-- With the block processor first, the checkpoint is saved after both. -/
theorem saved_after_blocks_notification :
    Notified ((runFrom (WatchedWorld.step .standard) freshWorld blocksFirstEvents).dequeued ++
      (popAtSecond31 .transactions).popped.toList) .blocks 2 := by
  have adopts : Along (WatchedWorld.step .standard) AdoptsNotified freshWorld
      (blocksFirstEvents ++
        [.iteration (popAtSecond31 .transactions) .listed fun _ => .succeeds]) := by
    refine ⟨?_, ?_, ?_, trivial⟩
    · rintro loop block ⟨⟩ ⟨⟩ ⟨⟩
    · rintro loop block ⟨⟩ ⟨⟩ _ _
      decide
    · rintro loop block ⟨⟩ ⟨⟩ ⟨⟩
  have saves : SavesUnforced .standard
      (runFrom (WatchedWorld.step .standard) freshWorld blocksFirstEvents).world
      (popAtSecond31 .transactions) ⟨.vcp, 2, 0, 0, 1⟩ := ⟨_, _, rfl, rfl⟩
  exact (saved_checkpoint_notified rfl rfl freshWorld_fresh adopts saves).1

end VecnoIndexer
