import VecnoIndexer.Transactions.Notifications

/-!
# The wait for the block processor

Before the virtual chain processor deletes or inserts acceptances, it waits until the
metrics show that the block processor is close enough.  The metric is written after a
commit, for the last block of the batch, and only if its DAA score is greater.  All
components take their steps in any order here, and the block processor's write of the
metric is a step of its own.
-/

namespace VecnoIndexer

open VecnoIndexer.Sql
open VecnoIndexer.Transition

/-! ## The metric -/

/-- `MetricsBlock`, without its time as a text. -/
structure MetricsBlock where
  hash : Hash
  timestamp : ℕ
  daaScore : ℕ
  blueScore : ℕ
  deriving DecidableEq, Repr

def MetricsBlock.of (checkpointBlock : CheckpointBlock) : MetricsBlock where
  hash := checkpointBlock.hash
  timestamp := checkpointBlock.timestamp
  daaScore := checkpointBlock.daaScore
  blueScore := checkpointBlock.blueScore

/-- `MetricsComponentBlockProcessor::update_last_block` -/
def updateLastBlock (current : Option MetricsBlock) (lastBlock : MetricsBlock) :
    Option MetricsBlock :=
  match current with
  | none => some lastBlock
  | some block => if block.daaScore < lastBlock.daaScore then some lastBlock else some block

/-- The metric never decreases, and takes no score but the one offered. -/
theorem daaScore_updateLastBlock (current : Option MetricsBlock) (lastBlock : MetricsBlock) :
    ∃ updated, updateLastBlock current lastBlock = some updated ∧
      (updated = lastBlock ∨ current = some updated) ∧
      ∀ block, current = some block → block.daaScore ≤ updated.daaScore := by
  cases current with
  | none => exact ⟨lastBlock, rfl, Or.inl rfl, fun _ impossible => by contradiction⟩
  | some block =>
      by_cases greater : block.daaScore < lastBlock.daaScore
      · refine ⟨lastBlock, if_pos greater, Or.inl rfl, ?_⟩
        rintro _ ⟨⟩
        exact greater.le
      · refine ⟨block, if_neg greater, Or.inr rfl, ?_⟩
        rintro _ ⟨⟩
        exact le_rfl

/-- The block processor is close enough to the last accepting block. -/
def CaughtUp (settings : Settings) (lastBlock : Option MetricsBlock) (header : BlockHeader) :
    Prop :=
  match lastBlock with
  | none => False
  | some block => header.daaScore - block.daaScore < 60 * settings.netBps

instance (settings : Settings) (lastBlock : Option MetricsBlock) (header : BlockHeader) :
    Decidable (CaughtUp settings lastBlock header) :=
  match lastBlock with
  | none => inferInstanceAs (Decidable False)
  | some _ => inferInstanceAs (Decidable (_ < _))

/-! ## The components -/

/-- The last accepting block of the batch a poll answers with, if there is one. -/
def VcpState.awaited (vcp : VcpState) (input : VcpInput) : Option BlockHeader := do
  let response ← input.response
  if vcp.tipDistance < response.addedChainBlockHashes.length then
    let count := response.addedChainBlockHashes.length - vcp.tipDistance
    (response.addedChainBlockHashes.take count).getLast?.bind input.getBlock
  else
    none

/-- Where the virtual chain processor is. -/
inductive VcpPhase where
  /-- At the head of the loop. -/
  | polling (vcp : VcpState)
  /-- In the loop that waits for the block processor. -/
  | waiting (vcp : VcpState) (input : VcpInput) (header : BlockHeader)
  /-- Past that loop, before the first statement. -/
  | ready (vcp : VcpState) (input : VcpInput) (header : BlockHeader)
  /-- Returned or panicked. -/
  | ended

/-- A batch with the notifications of the blocks committed when its first statement is
executed. -/
structure BegunBatch where
  vcp : VcpState
  input : VcpInput
  committed : List PushedNotification

/-- The two processors, the metric with the value still to be written to it, and the
virtual chain processor with the batches it has begun. -/
structure GatedWorld where
  indexing : IndexingWorld
  publishing : Option CheckpointBlock
  lastBlock : Option MetricsBlock
  startVcp : Bool
  phase : VcpPhase
  begun : List BegunBatch

/-- A step of some component. -/
inductive GatedEvent where
  /-- An iteration of a processor up to its metric, or a step of another component. -/
  | indexing (event : IndexingEvent)
  /-- The block processor writes the metric. -/
  | publish
  /-- The virtual chain processor polls the node. -/
  | poll (input : VcpInput) (script : Script)
  /-- It reads the metric, and whether a shutdown was requested. -/
  | look (shutdown : Bool)
  /-- It commits a batch. -/
  | commit (script : Script)

namespace GatedWorld

def start (settings : Settings) (db : Db) (now : ℕ) : GatedWorld where
  indexing := .start db now
  publishing := none
  lastBlock := none
  startVcp := false
  phase := .polling (.start settings)
  begun := []

/-- The notifications of the blocks committed. A batch is recorded with its commit. -/
def committed (world : GatedWorld) : List PushedNotification :=
  world.indexing.blocksNotified

/-- A panic of a processor ends the process. -/
def withIndexing (world : GatedWorld) (indexing : IndexingWorld) : GatedWorld :=
  match indexing.transactionLoop with
  | some _ => { world with indexing }
  | none => { world with indexing, publishing := none, phase := .ended }

/-- The last block of a batch that was just committed is to be written to the metric. -/
def afterBlocks (world : GatedWorld) (indexing : IndexingWorld) : GatedWorld :=
  { world with
    publishing := ((indexing.blocksNotified.drop world.committed.length).getLast?).map
      PushedNotification.notification
    startVcp := world.startVcp || indexing.blockLoop.any BlockLoop.vcpStarted }.withIndexing
      indexing

/-- What the statements of the virtual chain processor leave. They write none of the
processors' tables. -/
def afterPoll (settings : Settings) (world : GatedWorld) :
    Exec SqlError Db (VcpState × Option CheckpointBlock) → GatedWorld
  | .done (vcp, _) db _ =>
      { world with phase := .polling vcp }.withIndexing
        (world.indexing.step settings (.other fun _ => db))
  | .failed _ db _ => world.withIndexing (world.indexing.dead db)
  | .killed db => world.withIndexing (world.indexing.dead db)

/-- The first statement of a batch. -/
def begin (world : GatedWorld) (vcp : VcpState) (input : VcpInput) : GatedWorld :=
  { world with begun := world.begun ++ [⟨vcp, input, world.committed⟩] }

def step (settings : Settings) (world : GatedWorld) : GatedEvent → GatedWorld
  | .indexing (.blocks input script) =>
      match world.publishing with
      | some _ => world
      | none => world.afterBlocks (world.indexing.step settings (.blocks input script))
  | .indexing event => world.withIndexing (world.indexing.step settings event)
  | .publish =>
      match world.publishing with
      | some block =>
          { world with
            publishing := none
            lastBlock := updateLastBlock world.lastBlock (.of block) }
      | none => world
  | .poll input script =>
      match world.phase, world.startVcp with
      | .polling vcp, true =>
          match vcp.awaited input with
          | some header => { world with phase := .waiting vcp input header }
          | none =>
              world.afterPoll settings
                (Session.run (pollVirtualChain settings.cliArgs vcp input) world.indexing.db script)
      | _, _ => world
  | .look shutdown =>
      match world.phase with
      | .waiting vcp input header =>
          if CaughtUp settings world.lastBlock header then
            { world with phase := .ready vcp input header }
          else if shutdown then
            { world with phase := .ended }
          else
            world
      | _ => world
  | .commit script =>
      match world.phase with
      | .ready vcp input _ =>
          (world.begin vcp input).afterPoll settings
            (Session.run (pollVirtualChain settings.cliArgs vcp { input with shutdown := false })
              world.indexing.db script)
      | _ => world

end GatedWorld

namespace IndexingWorld

/-- The notifications pushed only grow. -/
theorem exists_blocksNotified_step (settings : Settings) (world : IndexingWorld)
    (event : IndexingEvent) :
    ∃ pushed, (world.step settings event).blocksNotified = world.blocksNotified ++ pushed := by
  have unchanged : ∃ pushed, world.blocksNotified = world.blocksNotified ++ pushed :=
    ⟨[], (List.append_nil _).symm⟩
  cases event with
  | blocks input script =>
      simp only [step]
      cases world.blockLoop with
      | none => exact unchanged
      | some loop =>
          simp only
          cases Session.run (loop.iterate settings input) world.db script with
          | done result db rest => exact ⟨_, rfl⟩
          | failed error db rest => exact unchanged
          | killed db => exact unchanged
  | transactions input script =>
      simp only [step]
      cases world.transactionLoop with
      | none => exact unchanged
      | some loop =>
          simp only
          cases Session.run (loop.iterate settings.cliArgs input) world.db script with
          | done result db rest => exact unchanged
          | failed error db rest => exact unchanged
          | killed db => exact unchanged
  | other change => exact unchanged

end IndexingWorld

namespace GatedWorld

variable {settings : Settings} {start : Db} {world : GatedWorld}

/-- The block processor has committed a block close enough to the header. -/
def Near (settings : Settings) (committed : List PushedNotification) (header : BlockHeader) :
    Prop :=
  ∃ block ∈ committed,
    header.daaScore - block.notification.daaScore < 60 * settings.netBps

/-- What the metric says was committed, and so what the processor waits for. -/
structure Gated (settings : Settings) (start : Db) (world : GatedWorld) : Prop where
  sides : world.indexing.BlocksSide settings ∧ world.indexing.TransactionsSide settings start
  publishing : ∀ block, world.publishing = some block →
    ∃ pushed ∈ world.committed, pushed.notification = block
  lastBlock : ∀ block, world.lastBlock = some block →
    ∃ pushed ∈ world.committed, pushed.notification.daaScore = block.daaScore
  waiting : ∀ vcp input header, world.phase = .waiting vcp input header →
    vcp.awaited input = some header
  ready : ∀ vcp input header, world.phase = .ready vcp input header →
    vcp.awaited input = some header ∧ Near settings world.committed header
  begun : ∀ batch ∈ world.begun, ∃ header, batch.vcp.awaited batch.input = some header ∧
    Near settings batch.committed header

theorem Near.mono {committed more : List PushedNotification} {header : BlockHeader}
    (near : Near settings committed header) : Near settings (committed ++ more) header := by
  obtain ⟨block, isCommitted, close⟩ := near
  exact ⟨block, List.mem_append_left more isCommitted, close⟩

/-- A gate that opens has seen a committed block. -/
theorem Gated.near (gated : world.Gated settings start) {header : BlockHeader}
    (caughtUp : CaughtUp settings world.lastBlock header) :
    Near settings world.committed header := by
  unfold CaughtUp at caughtUp
  cases lastBlock : world.lastBlock with
  | none =>
      rw [lastBlock] at caughtUp
      exact caughtUp.elim
  | some block =>
      rw [lastBlock] at caughtUp
      obtain ⟨pushed, isCommitted, sameScore⟩ := gated.lastBlock block lastBlock
      exact ⟨pushed, isCommitted, sameScore ▸ caughtUp⟩

/-- More commits, or the end of the process, keep what was said. -/
theorem Gated.withIndexing (gated : world.Gated settings start) {indexing : IndexingWorld}
    (sides : indexing.BlocksSide settings ∧ indexing.TransactionsSide settings start)
    {pushed : List PushedNotification}
    (grows : indexing.blocksNotified = world.committed ++ pushed) :
    (world.withIndexing indexing).Gated settings start := by
  have keeps : ∀ {property : PushedNotification → Prop},
      (∃ block ∈ world.committed, property block) →
        ∃ block ∈ indexing.blocksNotified, property block := by
    rintro property ⟨block, isCommitted, holds⟩
    rw [grows]
    exact ⟨block, List.mem_append_left pushed isCommitted, holds⟩
  unfold GatedWorld.withIndexing
  cases indexing.transactionLoop with
  | some loop =>
      exact ⟨sides, fun block isPublishing => keeps (gated.publishing block isPublishing),
        fun block isLast => keeps (gated.lastBlock block isLast), gated.waiting,
        fun vcp input header isReady => (gated.ready vcp input header isReady).imp_right keeps,
        gated.begun⟩
  | none =>
      exact ⟨sides, fun _ impossible => by contradiction,
        fun block isLast => keeps (gated.lastBlock block isLast),
        fun _ _ _ impossible => by contradiction, fun _ _ _ impossible => by contradiction,
        gated.begun⟩

theorem Gated.afterBlocks (gated : world.Gated settings start) {indexing : IndexingWorld}
    (sides : indexing.BlocksSide settings ∧ indexing.TransactionsSide settings start)
    {pushed : List PushedNotification}
    (grows : indexing.blocksNotified = world.committed ++ pushed) :
    (world.afterBlocks indexing).Gated settings start := by
  have committed : world.committed ++ pushed = indexing.blocksNotified := grows.symm
  unfold GatedWorld.afterBlocks
  rw [grows, List.drop_left]
  -- the value to be written is that of a block in the new list, not in the old one
  unfold GatedWorld.withIndexing
  have keeps := gated.withIndexing sides grows
  unfold GatedWorld.withIndexing at keeps
  cases running : indexing.transactionLoop with
  | some loop =>
      rw [running] at keeps
      refine ⟨sides, fun block isPublishing => ?_, keeps.lastBlock, keeps.waiting, keeps.ready,
        keeps.begun⟩
      obtain ⟨last, lastEq, rfl⟩ := Option.map_eq_some_iff.mp isPublishing
      refine ⟨last, ?_, rfl⟩
      rw [GatedWorld.committed, grows]
      exact List.mem_append_right _ (List.mem_of_getLast? lastEq)
  | none =>
      rw [running] at keeps
      exact ⟨sides, keeps.publishing, keeps.lastBlock, keeps.waiting, keeps.ready, keeps.begun⟩

theorem Gated.afterPoll (gated : world.Gated settings start)
    (result : Exec SqlError Db (VcpState × Option CheckpointBlock)) :
    (world.afterPoll settings result).Gated settings start := by
  have unchanged : ∀ {indexing : IndexingWorld},
      indexing.blocksNotified = world.indexing.blocksNotified →
        indexing.blocksNotified = world.committed ++ [] :=
    fun same => same.trans (List.append_nil _).symm
  have dies : ∀ db, (world.withIndexing (world.indexing.dead db)).Gated settings start :=
    fun db => gated.withIndexing ⟨gated.sides.1.dead db, gated.sides.2.dead db⟩ (unchanged rfl)
  cases result with
  | done value db rest =>
      have polling : GatedWorld.Gated settings start { world with phase := .polling value.1 } :=
        ⟨gated.sides, gated.publishing, gated.lastBlock, fun _ _ _ impossible => by contradiction,
          fun _ _ _ impossible => by contradiction, gated.begun⟩
      exact polling.withIndexing (IndexingWorld.sides_step _ gated.sides) (unchanged rfl)
  | failed error db rest => exact dies db
  | killed db => exact dies db

/-- The step lemma. -/
theorem Gated.step (gated : world.Gated settings start) (event : GatedEvent) :
    (world.step settings event).Gated settings start := by
  cases event with
  | indexing event =>
      have sides := IndexingWorld.sides_step event gated.sides
      obtain ⟨pushed, grows⟩ :=
        IndexingWorld.exists_blocksNotified_step settings world.indexing event
      cases event with
      | blocks input script =>
          simp only [GatedWorld.step]
          cases world.publishing with
          | some block => exact gated
          | none => exact gated.afterBlocks sides grows
      | transactions input script => exact gated.withIndexing sides grows
      | other change => exact gated.withIndexing sides grows
  | publish =>
      simp only [GatedWorld.step]
      cases publishing : world.publishing with
      | none => exact gated
      | some block =>
          refine ⟨gated.sides, fun _ impossible => by contradiction, fun last isLast => ?_,
            gated.waiting, gated.ready, gated.begun⟩
          obtain ⟨updated, updatedEq, offered | current, _⟩ :=
            daaScore_updateLastBlock world.lastBlock (.of block)
          · obtain ⟨pushed, isCommitted, same⟩ := gated.publishing block publishing
            cases updatedEq.symm.trans isLast
            exact ⟨pushed, isCommitted, same ▸ offered ▸ rfl⟩
          · cases updatedEq.symm.trans isLast
            exact gated.lastBlock last current
  | poll input script =>
      simp only [GatedWorld.step]
      split
      · rename_i vcp polling started
        cases awaited : vcp.awaited input with
        | none => exact gated.afterPoll _
        | some header =>
            refine ⟨gated.sides, gated.publishing, gated.lastBlock, ?_,
              fun _ _ _ impossible => by contradiction, gated.begun⟩
            rintro _ _ _ ⟨⟩
            exact awaited
      · exact gated
  | look shutdown =>
      simp only [GatedWorld.step]
      split
      · rename_i vcp input header isWaiting
        split_ifs with caughtUp
        · refine ⟨gated.sides, gated.publishing, gated.lastBlock,
            fun _ _ _ impossible => by contradiction, ?_, gated.begun⟩
          rintro _ _ _ ⟨⟩
          exact ⟨gated.waiting vcp input header isWaiting, gated.near caughtUp⟩
        · exact ⟨gated.sides, gated.publishing, gated.lastBlock,
            fun _ _ _ impossible => by contradiction, fun _ _ _ impossible => by contradiction,
            gated.begun⟩
        · exact gated
      · exact gated
  | commit script =>
      simp only [GatedWorld.step]
      split
      · rename_i vcp input header isReady
        have began : (world.begin vcp input).Gated settings start := by
          refine ⟨gated.sides, gated.publishing, gated.lastBlock, gated.waiting, gated.ready,
            fun batch isBegun => ?_⟩
          rcases List.mem_append.mp isBegun with earlier | isLast
          · exact gated.begun batch earlier
          · rw [List.mem_singleton.mp isLast]
            exact ⟨header, gated.ready vcp input header isReady⟩
        exact began.afterPoll _
      · exact gated

theorem gated_start (settings : Settings) (db : Db) (now : ℕ) :
    (GatedWorld.start settings db now).Gated settings db where
  sides := IndexingWorld.sides_start db now
  publishing _ impossible := by contradiction
  lastBlock _ impossible := by contradiction
  waiting _ _ _ impossible := by contradiction
  ready _ _ _ impossible := by contradiction
  begun _ impossible := absurd impossible List.not_mem_nil

/-! ## The metric only grows -/

/-- The metric shows a block with at least this score. -/
def ShowsScore (daaScore : ℕ) (world : GatedWorld) : Prop :=
  ∃ block, world.lastBlock = some block ∧ daaScore ≤ block.daaScore

theorem lastBlock_withIndexing (indexing : IndexingWorld) :
    (world.withIndexing indexing).lastBlock = world.lastBlock := by
  unfold withIndexing
  cases indexing.transactionLoop <;> rfl

theorem lastBlock_afterPoll (result : Exec SqlError Db (VcpState × Option CheckpointBlock)) :
    (world.afterPoll settings result).lastBlock = world.lastBlock := by
  cases result <;> exact lastBlock_withIndexing _

theorem ShowsScore.step {daaScore : ℕ} (shows : world.ShowsScore daaScore) (event : GatedEvent) :
    (world.step settings event).ShowsScore daaScore := by
  have of_same : ∀ {next : GatedWorld}, next.lastBlock = world.lastBlock →
      next.ShowsScore daaScore := by
    intro next same
    obtain ⟨block, lastBlock, enough⟩ := shows
    exact ⟨block, same.trans lastBlock, enough⟩
  cases event with
  | indexing event =>
      cases event with
      | blocks input script =>
          simp only [GatedWorld.step]
          cases world.publishing with
          | some block => exact shows
          | none => exact of_same (lastBlock_withIndexing _)
      | transactions input script => exact of_same (lastBlock_withIndexing _)
      | other change => exact of_same (lastBlock_withIndexing _)
  | publish =>
      simp only [GatedWorld.step]
      cases world.publishing with
      | none => exact shows
      | some block =>
          obtain ⟨last, lastBlock, enough⟩ := shows
          obtain ⟨updated, updatedEq, _, greater⟩ :=
            daaScore_updateLastBlock world.lastBlock (.of block)
          exact ⟨updated, updatedEq, enough.trans (greater last lastBlock)⟩
  | poll input script =>
      simp only [GatedWorld.step]
      split
      · split
        · exact shows
        · exact of_same (lastBlock_afterPoll _)
      · exact shows
  | look shutdown =>
      simp only [GatedWorld.step]
      split
      · split_ifs <;> exact shows
      · exact shows
  | commit script =>
      simp only [GatedWorld.step]
      split
      · exact of_same (lastBlock_afterPoll _)
      · exact shows

/-! ## Every run -/

/-- What was committed is stored at its commit. -/
theorem stored_of_shows {cliArgs : CliArgs} {popped : List BlockData}
    {notified : List PushedNotification}
    (shown : Shows (fun blockData => BlockLoop.notification blockData.block)
      (fun db blockData => BlockStored cliArgs db blockData.block) popped notified) :
    ∀ pushed ∈ notified, ∃ blockData ∈ popped,
      pushed.notification = BlockLoop.notification blockData.block ∧
        BlockStored cliArgs pushed.db blockData.block := by
  intro pushed isPushed
  obtain ⟨index, atIndex⟩ := List.mem_iff_getElem?.mp isPushed
  obtain ⟨blockData, blockEq, same, stored⟩ := shown index pushed atIndex
  have isPopped := List.mem_of_getElem? blockEq
  refine ⟨blockData, isPopped, same, stored blockData ?_⟩
  exact List.mem_of_getElem? ((List.getElem?_take_of_lt (Nat.lt_succ_self index)).trans blockEq)

/-- A batch is begun only after a block close to its last accepting block was committed,
and the metric never decreases and shows the score of a committed block. -/
theorem gated_of_run (settings : Settings) (db : Db) (now : ℕ) (events : List GatedEvent) :
    (∀ batch ∈ (runFrom (step settings) (.start settings db now) events).begun,
      ∃ header, batch.vcp.awaited batch.input = some header ∧
        ∃ block ∈ batch.committed,
          header.daaScore - block.notification.daaScore < 60 * settings.netBps) ∧
    (∀ block ∈ (runFrom (step settings) (.start settings db now) events).committed,
      ∃ blockData ∈ (runFrom (step settings) (.start settings db now) events).indexing.poppedBlocks,
        block.notification = BlockLoop.notification blockData.block ∧
          BlockStored settings.cliArgs block.db blockData.block) ∧
    (∀ last, (runFrom (step settings) (.start settings db now) events).lastBlock = some last →
      ∃ block ∈ (runFrom (step settings) (.start settings db now) events).committed,
        last.daaScore ≤ block.notification.daaScore) ∧
    ∀ last, (runFrom (step settings) (.start settings db now) events).lastBlock = some last →
      ∀ more, ∃ later,
        (runFrom (step settings) (.start settings db now) (events ++ more)).lastBlock = some later ∧
          last.daaScore ≤ later.daaScore := by
  have gated := @invariant_of_run _ _ _ (Gated settings db) (fun _ event held => held.step event) _
    events (gated_start settings db now)
  refine ⟨gated.begun, stored_of_shows gated.sides.1.shown, fun last isLast => ?_,
    fun last isLast more => ?_⟩
  · obtain ⟨block, isCommitted, same⟩ := gated.lastBlock last isLast
    exact ⟨block, isCommitted, same.ge⟩
  · rw [runFrom_append]
    exact @invariant_of_run _ _ _ (ShowsScore last.daaScore) (fun _ event shows => shows.step event)
      _ more ⟨last, isLast, le_rfl⟩

/-- Ten commits start the virtual chain processor; the metric is close enough to its batch. -/
def gateEvents : List GatedEvent :=
  ((List.range' 1 10).flatMap fun n =>
    [.indexing (.blocks
      { popped := some ⟨plainBlock (BitVec.ofNat 256 n) 0 (UInt64.ofNat n), true⟩
        now := n * 10000000000
        commitNow := n * 10000000000
        timestampValid := true } fun _ => .succeeds), .publish]) ++
  [.poll
      { response := some ⟨[], [2], [⟨2, [10]⟩]⟩
        getBlock := fun hash => some ⟨hash, 0, 60, 0⟩
        shutdown := false
        completion := .listed } fun _ => .succeeds,
    .look false, .commit fun _ => .succeeds]

example : (runFrom (step indexingSettings) (.start indexingSettings .empty 0)
    gateEvents).begun.length = 1 := by
  decide +kernel

end GatedWorld

end VecnoIndexer
