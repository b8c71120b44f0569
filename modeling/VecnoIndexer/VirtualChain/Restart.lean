import VecnoIndexer.Blocks.ProcessBlocks
import VecnoIndexer.Checkpoint.Vars
import VecnoIndexer.VirtualChain.Recovery

/-!
# Recovery of the acceptances after a crash

The restarted process resumes from the persisted checkpoint: the block processor
deletes the acceptances of every block it re-reads but the first, then the
virtual chain processor polls from the checkpoint.  The deletes leave the rows of
the checkpoint and of its past, so the table recovers if it was anchored at the
checkpoint.  It was unless a batch has deleted rows of the checkpoint after the
batch that ended at it.
-/

namespace VecnoIndexer

open VecnoIndexer.Sql
open VecnoIndexer.Collections
open VecnoIndexer.Chain
open VecnoIndexer.Transition

/-! ## Deletes of the block processor -/

/-- The deletes of the batches committed before the virtual chain processor is
notified. The first block of the first batch is skipped. -/
def clearReread (batchScale : BatchScale) : List (List Hash) → DbM Nat
  | [] => pure 0
  | first :: later =>
      forPieces (clearTransactionAcceptances batchScale) (first.drop 1 :: later)

/-! ## The process and its database -/

/-- The database, the virtual chain processor while the process is alive, and the
checkpoints it has notified. -/
structure RecoveryWorld where
  db : Db
  vcp : Option VcpState
  notified : List Hash

/-- What happens to the process. -/
inductive RecoveryEvent where
  | poll (poll : VcpPoll)
  /-- The checkpoint processor writes a notified checkpoint. -/
  | save (checkpoint : Hash)
  /-- The process, alive or not, is replaced by one that resumes from the
  persisted checkpoint and re-reads blocks in batches. -/
  | restart (batches : List (List Hash)) (script : Script)

/-- The statements of a resuming process on the checkpoint and the acceptances,
up to its first poll. -/
def resumeVirtualChain (settings : Settings) (saved : String) (batches : List (List Hash)) :
    DbM VcpState := do
  let _logged ← (saveCheckpoint saved).attempt
  let _cleared ← clearReread settings.cliArgs.batchScale batches
  pure (VcpState.start settings)

namespace RecoveryWorld

/-- The processor and its database alone. -/
def chain (world : RecoveryWorld) : VcpWorld :=
  ⟨world.db, world.vcp⟩

def step (settings : Settings) (world : RecoveryWorld) : RecoveryEvent → RecoveryWorld
  | .poll poll =>
      match world.vcp with
      | none => world
      | some vcp =>
          match Session.run (pollVirtualChain settings.cliArgs
            { vcp with tipDistance := poll.tipDistance } poll.input) world.db poll.script with
          | .done (after, checkpoint) db _ =>
              ⟨db, some after, world.notified ++ checkpoint.toList.map CheckpointBlock.hash⟩
          | .failed _ db _ => ⟨db, none, []⟩
          | .killed db => ⟨db, none, []⟩
  | .save checkpoint =>
      if checkpoint ∈ world.notified then
        { world with db := world.db.withCheckpoint checkpoint.encode }
      else
        world
  | .restart batches script =>
      match world.db.persistedCheckpoint, world.db.persistedCheckpoint.bind Hash.fromStr with
      | some saved, some checkpoint =>
          match Session.run (resumeVirtualChain { settings with checkpoint } saved batches)
            world.db script with
          | .done vcp db _ => ⟨db, some vcp, []⟩
          | .failed _ db _ => ⟨db, none, []⟩
          | .killed db => ⟨db, none, []⟩
      | _, _ => ⟨world.db, none, []⟩

end RecoveryWorld

/-! ## Assumptions and condition -/

/-- The batches of re-read blocks: the checkpoint first, then every block outside
its past. -/
def ChainNode.Rereads (node : ChainNode) (past : node.tree.Past) (checkpoint : Hash)
    (batches : List (List Hash)) : Prop :=
  ∃ rest later, batches = (checkpoint :: rest) :: later ∧
    (∀ block ∈ rest ++ later.flatten, block ≠ checkpoint ∧ ¬ past.inPast checkpoint block) ∧
    ∀ block, node.tree.OnChain block → block ≠ checkpoint → ¬ past.inPast checkpoint block →
      block ∈ rest ++ later.flatten

/-- What the node answers to the process. -/
def ChainNode.AnswersEvent (node : ChainNode) (past : node.tree.Past) (world : RecoveryWorld) :
    RecoveryEvent → Prop
  | .poll poll => node.AnswersPoll world.chain poll
  | .save _ => True
  | .restart batches _ => ∀ checkpoint,
      world.db.persistedCheckpoint = some (Hash.encode checkpoint) →
      node.Rereads past checkpoint batches

/-- The persisted checkpoint lies on the selected chain that ends at the start of
the next poll. -/
def ChainNode.OnCurrentChain (node : ChainNode) (world : RecoveryWorld) : Prop :=
  ∀ vcp checkpoint, world.vcp = some vcp →
    world.db.persistedCheckpoint = some (Hash.encode checkpoint) →
    node.ChainThrough vcp.startHash checkpoint

/-- A process that is replaced, or whose poll may be cut, leaves the rows of the
persisted checkpoint alone: it is on the chain of the last batch, and no executed
delete of the cut poll names it. -/
def ChainNode.SparesCheckpoint (node : ChainNode) (cliArgs : CliArgs) (world : RecoveryWorld) :
    RecoveryEvent → Prop
  | .poll poll => poll.script.Up ∨ (node.OnCurrentChain world ∧
      ∀ response checkpoint, poll.input.response = some response →
        world.db.persistedCheckpoint = some (Hash.encode checkpoint) → checkpoint ∉
          deletedBlocks cliArgs.batchScale poll.script response.removedChainBlockHashes)
  | .save _ => True
  | .restart _ _ => node.OnCurrentChain world

/-! ## Recovery -/

/-- While the process is alive the table follows the chain of its start; while it
is dead nothing is notified and the table is anchored at the persisted
checkpoint. -/
structure Recoverable (node : ChainNode) (past : node.tree.Past) (world : RecoveryWorld)
    (checkpoint : Hash) : Prop where
  persisted : world.db.persistedCheckpoint = some (Hash.encode checkpoint)
  alive : world.vcp ≠ none → world.chain.Follows node
  quiet : world.vcp = none → world.notified = []
  dead : world.vcp = none → node.Anchored past checkpoint world.db.transactionsAcceptances

section Recovery

variable {node : ChainNode} {past : node.tree.Past} {settings : Settings}
  {world : RecoveryWorld} {checkpoint : Hash} {db : Db}

/-- Polls touch acceptances only. -/
theorem keeps_pollVirtualChain {property : Db → Prop}
    (frame : ∀ db acceptances, property db → property (Db.withAcceptances db acceptances))
    (cliArgs : CliArgs) (vcp : VcpState) (input : VcpInput) :
    (pollVirtualChain cliArgs vcp input).Keeps property := by
  have deletes : ∀ blockHashes, (deleteTransactionAcceptances blockHashes).Keeps property :=
    fun _ => keeps_deleteTransactionAcceptances fun db => frame db _
  have inserts : ∀ rows, (insertTransactionAcceptances rows).Keeps property :=
    fun _ => keeps_insertTransactionAcceptances fun db => frame db _
  unfold pollVirtualChain
  split
  · exact Session.keeps_pure _ _
  · refine Session.Keeps.bind ?_ fun _ => Session.keeps_pure _ _
    unfold pollResponse
    split
    · unfold pollBatch
      simp only
      split
      · exact Session.keeps_die _
      · split_ifs
        · exact Session.keeps_pure _ _
        · exact (keeps_forPieces fun piece _ => deletes piece).bind fun _ => Session.keeps_die _
        · refine Session.Keeps.bind ?_ fun _ => Session.keeps_pure _ _
          refine (keeps_forPieces fun piece _ => deletes piece).bind fun _ => ?_
          split
          · exact (keeps_forPieces fun piece _ => inserts piece).bind fun _ =>
              Session.keeps_pure _ _
          · exact (keeps_forPieces fun piece _ => inserts piece).bind fun _ =>
              Session.keeps_pure _ _
    · exact Session.keeps_pure _ _

/-- Polls do not touch the persisted checkpoint. -/
theorem keeps_vars_pollVirtualChain (cliArgs : CliArgs) (vcp : VcpState) (input : VcpInput)
    (vars : Table Var.primaryKey) :
    (pollVirtualChain cliArgs vcp input).Keeps fun state => state.vars = vars :=
  keeps_pollVirtualChain (fun _ _ => id) cliArgs vcp input

/-- A live process whose checkpoint is on its chain leaves an anchored table. -/
theorem Recoverable.anchored (recoverable : Recoverable node past world checkpoint)
    (onChain : node.OnCurrentChain world) :
    node.Anchored past checkpoint world.db.transactionsAcceptances := by
  cases running : world.vcp with
  | none => exact recoverable.dead running
  | some vcp =>
      obtain ⟨other, path, otherRunning, isPath, tipEq, follows, imported⟩ :=
        recoverable.alive (by simp [running])
      change world.vcp = some other at otherRunning
      rw [running] at otherRunning
      cases otherRunning
      obtain ⟨earlier, later, throughPath, throughTip, rfl⟩ :=
        onChain vcp checkpoint running recoverable.persisted
      have pathEq : path = earlier ++ later :=
        isPath.eq_of_tip_eq throughPath (tipEq.trans throughTip.symm)
      subst pathEq
      exact follows.anchored isPath imported

/-- The step lemma for polls. -/
theorem Recoverable.poll (recoverable : Recoverable node past world checkpoint)
    (enabled : settings.cliArgs.isDisabled .transactionAcceptance = false) {poll : VcpPoll}
    (answers : node.AnswersPoll world.chain poll)
    (spares : node.SparesCheckpoint settings.cliArgs world (.poll poll)) :
    Recoverable node past (world.step settings (.poll poll)) checkpoint := by
  cases running : world.vcp with
  | none =>
      simp only [RecoveryWorld.step, running]
      exact recoverable
  | some vcp =>
      have follows : VcpWorld.Follows node ⟨world.db, some vcp⟩ := by
        have alive := recoverable.alive (by simp [running])
        rwa [RecoveryWorld.chain, running] at alive
      rw [RecoveryWorld.chain, running] at answers
      have vars := keeps_vars_pollVirtualChain settings.cliArgs
        { vcp with tipDistance := poll.tipDistance } poll.input world.db.vars world.db
        poll.script rfl
      have persisted := (persistedCheckpoint_congr vars).trans recoverable.persisted
      -- A poll that is cut did not find a database that is up.
      have anchored : (¬ ∃ value final rest, Session.run (pollVirtualChain settings.cliArgs
          { vcp with tipDistance := poll.tipDistance } poll.input) world.db poll.script =
            .done value final rest) →
          node.Anchored past checkpoint (Session.run (pollVirtualChain settings.cliArgs
            { vcp with tipDistance := poll.tipDistance } poll.input)
            world.db poll.script).state.transactionsAcceptances := by
        intro cut
        have notUp : ¬ poll.script.Up := by
          intro up
          obtain ⟨after, _, survives, _⟩ := follows.poll enabled up answers
          simp only [VcpWorld.poll] at survives
          cases ran : Session.run (pollVirtualChain settings.cliArgs
              { vcp with tipDistance := poll.tipDistance } poll.input) world.db poll.script with
          | done value final rest => exact cut ⟨value, final, rest, ran⟩
          | failed _ _ _ => simp [ran, VcpWorld.ofExec] at survives
          | killed _ => simp [ran, VcpWorld.ofExec] at survives
        obtain ⟨onChain, spared⟩ := spares.resolve_left notUp
        exact anchored_state_poll enabled follows answers
          (onChain vcp checkpoint running recoverable.persisted)
          fun response responseEq => spared response checkpoint responseEq recoverable.persisted
      simp only [RecoveryWorld.step, running]
      cases ran : Session.run (pollVirtualChain settings.cliArgs
          { vcp with tipDistance := poll.tipDistance } poll.input) world.db poll.script with
      | done value final rest =>
          rw [ran] at persisted
          exact ⟨persisted, fun _ => follows.of_done enabled answers ran,
            fun absent => (nomatch absent), fun absent => nomatch absent⟩
      | failed error final rest =>
          rw [ran] at persisted anchored
          exact ⟨persisted, fun alive => absurd rfl alive, fun _ => rfl,
            fun _ => anchored (by simp)⟩
      | killed final =>
          rw [ran] at persisted anchored
          exact ⟨persisted, fun alive => absurd rfl alive, fun _ => rfl,
            fun _ => anchored (by simp)⟩

/-- The statements of a resuming process keep an anchored table anchored. -/
theorem keeps_anchored_clearReread {batches : List (List Hash)} (batchScale : BatchScale)
    (rereads : node.Rereads past checkpoint batches) (stored : Option String) :
    (clearReread batchScale batches).Keeps fun state =>
      state.persistedCheckpoint = stored ∧
        node.Anchored past checkpoint state.transactionsAcceptances := by
  obtain ⟨rest, later, rfl, outside, _⟩ := rereads
  apply keeps_forPieces
  intro batch batchMem
  apply keeps_forPieces
  intro piece pieceMem
  have pieceOutside : ∀ block ∈ piece, block ≠ checkpoint ∧ ¬ past.inPast checkpoint block := by
    intro block blockMem
    have inBatch : block ∈ batch :=
      (mem_chunks_iff (clearBatchSize_pos batchScale)).mp ⟨piece, pieceMem, blockMem⟩
    have inAll : block ∈ (rest :: later).flatten := List.mem_flatten.mpr ⟨batch, batchMem, inBatch⟩
    exact outside block (by simpa using inAll)
  apply keeps_deleteTransactionAcceptances
  rintro state ⟨persisted, anchored⟩
  exact ⟨persisted, anchored.delete pieceOutside fun row => mem_deleteAcceptances⟩

theorem strict_clearReread (batchScale : BatchScale) (batches : List (List Hash)) :
    (clearReread batchScale batches).Strict := by
  unfold clearReread
  split
  · exact Session.strict_pure 0
  · exact strict_forPieces
      (fun _ => strict_forPieces strict_deleteTransactionAcceptances _) _

/-- Once the re-read blocks are cleared, the table follows the chain of the
checkpoint. -/
theorem follows_of_clearReread_done {batches : List (List Hash)} {batchScale : BatchScale}
    (rereads : node.Rereads past checkpoint batches)
    (anchored : node.Anchored past checkpoint db.transactionsAcceptances) {count : Nat}
    {final : Db} {script left : Script}
    (ran : Session.run (clearReread batchScale batches) db script = .done count final left) :
    ∃ path, node.tree.IsPath path ∧ node.tree.tip path = checkpoint ∧
      node.Follows path final.transactionsAcceptances ∧
      node.ImportedBelow final.transactionsAcceptances := by
  obtain ⟨rest, later, rfl, outside, complete⟩ := rereads
  obtain ⟨total, acceptances, completes, mem_iff⟩ :=
    (deletesBlocks_clearTransactionAcceptances batchScale).forPieces (rest :: later) db
  have strict := strict_clearReread batchScale ((checkpoint :: rest) :: later)
  obtain ⟨_, rfl⟩ := strict.eq_of_done completes ran
  rw [List.flatten_cons] at mem_iff
  exact anchored.follows outside complete mem_iff

/-- The step lemma for restarts, of a live process or a dead one. -/
theorem Recoverable.restart (recoverable : Recoverable node past world checkpoint)
    {batches : List (List Hash)} {script : Script}
    (rereads : node.Rereads past checkpoint batches)
    (onChain : node.OnCurrentChain world) :
    Recoverable node past (world.step settings (.restart batches script)) checkpoint := by
  have anchored := recoverable.anchored onChain
  have persisted := recoverable.persisted
  simp only [RecoveryWorld.step, persisted, Option.bind_some, Hash.fromStr_encode]
  -- Writing the loaded checkpoint back changes neither it nor the table.
  have resumed : ∀ middle rest, middle.persistedCheckpoint = some (Hash.encode checkpoint) →
      middle.transactionsAcceptances = world.db.transactionsAcceptances →
      Recoverable node past
        (match Session.run (do
            let _cleared ← clearReread settings.cliArgs.batchScale batches
            pure (VcpState.start { settings with checkpoint })) middle rest with
          | .done vcp db _ => ⟨db, some vcp, []⟩
          | .failed _ db _ => ⟨db, none, []⟩
          | .killed db => ⟨db, none, []⟩) checkpoint := by
    intro middle rest middlePersisted sameTable
    rw [← sameTable] at anchored
    have kept := keeps_anchored_clearReread settings.cliArgs.batchScale rereads
      (some (Hash.encode checkpoint)) middle rest ⟨middlePersisted, anchored⟩
    rw [Session.run_bind]
    cases ran : Session.run (clearReread settings.cliArgs.batchScale batches) middle rest with
    | done count final left =>
        rw [ran] at kept
        obtain ⟨path, isPath, tipEq, follows, imported⟩ :=
          follows_of_clearReread_done rereads anchored ran
        exact ⟨kept.1, fun _ => ⟨_, path, rfl, isPath, tipEq, follows, imported⟩,
          fun absent => (nomatch absent), fun absent => nomatch absent⟩
    | failed error final left =>
        rw [ran] at kept
        exact ⟨kept.1, fun alive => absurd rfl alive, fun _ => rfl, fun _ => kept.2⟩
    | killed final =>
        rw [ran] at kept
        exact ⟨kept.1, fun alive => absurd rfl alive, fun _ => rfl, fun _ => kept.2⟩
  unfold resumeVirtualChain
  rw [Session.run_bind, Session.run_attempt]
  cases outcome : script 0 with
  | succeeds =>
      rw [run_saveCheckpoint_of_succeeds outcome]
      exact resumed _ _ (persistedCheckpoint_withCheckpoint _ _) rfl
  | fails =>
      simp only [saveCheckpoint, upsertVar, statement, Session.run_statement, outcome]
      exact resumed _ _ persisted rfl
  | killed =>
      simp only [saveCheckpoint, upsertVar, statement, Session.run_statement, outcome]
      exact ⟨persisted, fun alive => absurd rfl alive, fun _ => rfl, fun _ => anchored⟩

/-- Writing a notified checkpoint touches no acceptance. -/
theorem Recoverable.save (recoverable : Recoverable node past world checkpoint) (next : Hash) :
    ∃ persisted, Recoverable node past (world.step settings (.save next)) persisted := by
  simp only [RecoveryWorld.step]
  split
  · rename_i notified
    refine ⟨next, persistedCheckpoint_withCheckpoint _ _, recoverable.alive, recoverable.quiet, ?_⟩
    intro dead
    rw [recoverable.quiet dead] at notified
    contradiction
  · exact ⟨checkpoint, recoverable⟩

/-- A run begins with a live process, a stored checkpoint and a table that
follows the chain of its start. -/
def RecoveryWorld.Started (world : RecoveryWorld) (node : ChainNode) : Prop :=
  world.chain.Follows node ∧
    ∃ checkpoint, world.db.persistedCheckpoint = some (Hash.encode checkpoint)

/-- While the process is alive, the rows with a block are those of the
transactions accepted on the selected chain that ends at the start of the next
poll. -/
def RecoveryWorld.Recovered (world : RecoveryWorld) (node : ChainNode) : Prop :=
  world.vcp ≠ none → world.chain.Follows node

/-- In every run, with any number of crashes and restarts, a live process finds
the table following its chain, if no crash comes after rows of the persisted
checkpoint were deleted. -/
theorem recovered_of_run {events : List RecoveryEvent}
    (enabled : settings.cliArgs.isDisabled .transactionAcceptance = false)
    (started : world.Started node)
    (spares : Along (RecoveryWorld.step settings)
      (fun middle event => node.AnswersEvent past middle event ∧
        node.SparesCheckpoint settings.cliArgs middle event) world events) :
    (runFrom (RecoveryWorld.step settings) world events).Recovered node := by
  have preserved : ∀ middle event, (∃ persisted, Recoverable node past middle persisted) →
      node.AnswersEvent past middle event ∧
        node.SparesCheckpoint settings.cliArgs middle event →
      ∃ persisted, Recoverable node past (middle.step settings event) persisted := by
    rintro middle event ⟨persisted, recoverable⟩ ⟨answers, sparesHere⟩
    cases event with
    | poll poll => exact ⟨persisted, recoverable.poll enabled answers sparesHere⟩
    | save next => exact recoverable.save next
    | restart batches script =>
        exact ⟨persisted,
          recoverable.restart (answers persisted recoverable.persisted) sparesHere⟩
  obtain ⟨follows, checkpoint, persisted⟩ := started
  have alive : world.vcp ≠ none := by
    obtain ⟨vcp, _, running, _⟩ := follows
    change world.vcp = some vcp at running
    simp [running]
  have initial : Recoverable node past world checkpoint :=
    ⟨persisted, fun _ => follows, fun dead => absurd dead alive, fun dead => absurd dead alive⟩
  obtain ⟨_, recoverable⟩ := invariant_of_along preserved ⟨checkpoint, initial⟩ spares
  exact recoverable.alive

end Recovery

/-! ## A chain that flips back while the process is down -/

/-- The pasts of the fork: each block's chain. -/
def forkPastPairs : List (Hash × Hash) :=
  [(2, 1), (3, 1), (3, 2), (4, 1), (5, 1), (5, 2), (5, 3)]

def forkPast : forkNode.tree.Past where
  inPast block earlier := (block, earlier) ∈ forkPastPairs
  trans := by
    have all : (forkPastPairs.all fun first => forkPastPairs.all fun second =>
        first.2 = second.1 → (first.1, second.2) ∈ forkPastPairs) = true := by decide +kernel
    intro block middle earlier first second
    have continues := List.all_eq_true.mp (List.all_eq_true.mp all _ first) _ second
    exact of_decide_eq_true continues rfl
  irrefl := by
    have all : (forkPastPairs.all fun pair => pair.1 ≠ pair.2) = true := by decide +kernel
    exact fun block member => of_decide_eq_true (List.all_eq_true.mp all _ member) rfl
  ofParent := by
    intro block parent parentEq
    have all : ([(2, 1), (4, 1), (3, 2), (5, 3)] : List (Hash × Hash)).all
        (fun pair => pair ∈ forkPastPairs) = true := by decide +kernel
    exact of_decide_eq_true (List.all_eq_true.mp all _ (forkTree_parent parentEq))

instance (block earlier : Hash) : Decidable (forkPast.inPast block earlier) :=
  inferInstanceAs (Decidable (_ ∈ forkPastPairs))

/-- Blocks 4 and 5 are outside the past of block 3. -/
theorem fork_rereads : forkNode.Rereads forkPast 3 [[3, 4, 5]] := by
  refine ⟨[4, 5], [], rfl, ?_, ?_⟩
  · intro block blockMem
    have cases : block = 4 ∨ block = 5 := by simpa using blockMem
    rcases cases with rfl | rfl <;> exact ⟨by decide, by decide⟩
  intro block onChain different notPast
  obtain ⟨parent, parentEq⟩ := onChain.exists_parent
  change forkTree.parent block = some parent at parentEq
  unfold forkTree at parentEq
  simp only at parentEq
  split_ifs at parentEq with first last
  · rcases first with rfl | rfl
    · exact absurd (by decide) notPast
    · decide
  · subst last
    decide

def forkSettings : Settings where
  cliArgs := .standard
  netBps := 1
  checkpoint := 3
  disableVcpWaitForSync := false

/-- Block 3 is the start of the next poll and the persisted checkpoint. -/
def forkRecoveryWorld : RecoveryWorld where
  db := { forkWorld.db with
    vars := Table.empty.insertAll [⟨varKeyBlockCheckpoint, Hash.encode 3⟩] }
  vcp := forkWorld.vcp
  notified := []

theorem forkRecoveryWorld_persisted :
    forkRecoveryWorld.db.persistedCheckpoint = some (Hash.encode 3) := by decide +kernel

theorem forkRecoveryWorld_started : forkRecoveryWorld.Started forkNode :=
  ⟨forkWorld_follows, 3, forkRecoveryWorld_persisted⟩

/-- A poll from block 3 while the chain continues it. -/
def continuePoll (script : Script) : VcpPoll where
  tipDistance := 0
  input := {
    response := some ⟨[], [5], [⟨5, [13]⟩]⟩
    getBlock := fun hash => some ⟨hash, 0, 0, 0⟩
    shutdown := false
    completion := .listed }
  script := script

theorem continuePoll_answers {world : RecoveryWorld} (script : Script)
    (atThree : world.vcp.map VcpState.startHash = some 3) :
    forkNode.AnswersPoll world.chain (continuePoll script) := by
  refine ⟨fun block => ⟨⟨block, 0, 0, 0⟩, rfl, rfl⟩, ?_⟩
  rintro vcp response start running ⟨⟩ startPath startTip
  change world.vcp = some vcp at running
  rw [running] at atThree
  rw [Option.some.inj atThree] at startTip
  have startEq : start = [2, 3] :=
    startPath.eq_of_tip_eq (by unfold BlockTree.IsPath; decide) startTip
  subst startEq
  refine ⟨[2, 3, 5], by unfold BlockTree.IsPath; decide, [2, 3], [], [5], ⟨rfl, rfl, ?_⟩, rfl⟩
  rintro block ⟨⟩

/-- The chain moves to block 4, the process crashes before the new checkpoint is
saved, and the chain moves back. -/
def flipEvents : List RecoveryEvent :=
  [.poll forkPoll, .restart [[3, 4, 5]] fun _ => .succeeds, .poll (continuePoll fun _ => .succeeds)]

def flipFinal : RecoveryWorld :=
  runFrom (RecoveryWorld.step forkSettings) forkRecoveryWorld flipEvents

/-- The rows of blocks 2 and 3 are never added again. -/
theorem flipFinal_not_recovered :
    forkRecoveryWorld.Started forkNode ∧
      Along (RecoveryWorld.step forkSettings) (forkNode.AnswersEvent forkPast) forkRecoveryWorld
        flipEvents ∧
      ¬ flipFinal.Recovered forkNode := by
  refine ⟨forkRecoveryWorld_started, ⟨forkPoll_answers, ?_, ?_, trivial⟩, ?_⟩
  · intro checkpoint persisted
    have stored : (RecoveryWorld.step forkSettings forkRecoveryWorld
        (.poll forkPoll)).db.persistedCheckpoint = some (Hash.encode 3) := by decide +kernel
    rw [stored] at persisted
    rw [← Hash.encode_injective (Option.some.inj persisted)]
    exact fork_rereads
  · exact continuePoll_answers _ (by decide +kernel)
  · intro recovered
    obtain ⟨vcp, path, running, isPath, tipEq, follows, _⟩ := recovered (by decide +kernel)
    have atFive : flipFinal.vcp.map VcpState.startHash = some 5 := by decide +kernel
    change flipFinal.vcp = some vcp at running
    rw [running] at atFive
    rw [Option.some.inj atFive] at tipEq
    have pathEq : path = [2, 3, 5] :=
      isPath.eq_of_tip_eq (by unfold BlockTree.IsPath; decide) tipEq
    subst pathEq
    have stored := ((follows ⟨some 10, some 2⟩).mpr ⟨2, by decide, 10, by decide, rfl⟩).1
    have missing : (⟨some 10, some 2⟩ : TransactionAcceptance) ∉
        flipFinal.db.transactionsAcceptances := by decide +kernel
    exact missing stored

/-- A poll cut before its insert, a restart, and the same poll again. -/
def cutEvents : List RecoveryEvent :=
  [.poll (continuePoll fun _ => .killed), .restart [[3, 4, 5]] fun _ => .succeeds,
    .poll (continuePoll fun _ => .succeeds)]

theorem cutEvents_recovered :
    (runFrom (RecoveryWorld.step forkSettings) forkRecoveryWorld cutEvents).Recovered forkNode := by
  have spares : Along (RecoveryWorld.step forkSettings)
      (fun middle event => forkNode.AnswersEvent forkPast middle event ∧
        forkNode.SparesCheckpoint .standard middle event) forkRecoveryWorld cutEvents := by
    refine ⟨⟨continuePoll_answers _ (by decide +kernel), Or.inr ⟨?_, ?_⟩⟩, ⟨?_, ?_⟩,
      ⟨continuePoll_answers _ (by decide +kernel), Or.inl fun _ => rfl⟩, trivial⟩
    · rintro vcp checkpoint ⟨⟩ persisted
      rw [forkRecoveryWorld_persisted] at persisted
      rw [← Hash.encode_injective (Option.some.inj persisted)]
      exact ⟨[2, 3], [], by unfold BlockTree.IsPath; decide, rfl, rfl⟩
    · rintro response checkpoint ⟨⟩ _
      exact List.not_mem_nil
    · intro checkpoint persisted
      have stored : (RecoveryWorld.step forkSettings forkRecoveryWorld
          (.poll (continuePoll fun _ => .killed))).db.persistedCheckpoint =
            some (Hash.encode 3) := by decide +kernel
      rw [stored] at persisted
      rw [← Hash.encode_injective (Option.some.inj persisted)]
      exact fork_rereads
    · intro vcp _ running
      have dead : (RecoveryWorld.step forkSettings forkRecoveryWorld
          (.poll (continuePoll fun _ => .killed))).vcp = none := by decide +kernel
      rw [dead] at running
      contradiction
  exact recovered_of_run rfl forkRecoveryWorld_started spares

end VecnoIndexer
