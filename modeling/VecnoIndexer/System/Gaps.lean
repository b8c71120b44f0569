import VecnoIndexer.Startup.Baseline
import VecnoIndexer.System.Lives

/-!
# No gaps between lives

The fetcher of each life hands over blocks after their parents, and what is saved as the
checkpoint was handed over and stored with all that came before it.  So while every start
resumes from the saved checkpoint, everything between the first checkpoint and the one in
`vars` is in the database, in whatever state the processes were cut off.
-/

namespace VecnoIndexer

open VecnoIndexer.Sql
open VecnoIndexer.Collections
open VecnoIndexer.Transition

/-! ## Every life -/

namespace System

variable {node : NodeBlocks} {settings : Settings} {start : Db} {system : System}

/-- In a turn of another task, and after a shutdown, the fetcher stays as it is. -/
theorem fetched_step {event : SystemEvent} (channels : system.Channels)
    (lives : (system.step settings event).tasks.ended = false) :
    (system.step settings event).log.fetched = system.log.fetched ∨
      ∃ input full, event = .fetch input ∧ system.tasks.fetcher = some system.log.fetched ∧
        (system.step settings event).log.fetched =
          system.log.fetched.step { input with full } := by
  have alive := alive_of_step lives
  unfold step at lives ⊢
  simp only [alive, Bool.false_eq_true, if_false] at lives ⊢
  split at lives
  · rename_i ended
    exact absurd (ended.symm.trans lives) (by decide)
  · rename_i survives
    rw [if_neg survives]
    cases event with
    | fetch input =>
        simp only [TaskLog.record]
        split
        · exact Or.inl rfl
        · rename_i up
          have up := Bool.eq_false_of_not_eq_true up
          have running := channels.fetcher up
          obtain ⟨after, hands⟩ := TaskWorld.hands_fetch running up input
          have executed : system.tasks.step settings (SystemEvent.on system.db (.fetch input)) =
              system.tasks.fetch input := by
            simp only [TaskWorld.step, alive, Bool.false_eq_true, if_false, SystemEvent.on]
          rw [executed, hands.running, Option.getD_some]
          rcases hands.steps with rfl | ⟨full, rfl⟩
          · exact Or.inl rfl
          · exact Or.inr ⟨input, full, rfl, running, rfl⟩
    | _ => exact Or.inl rfl

/-- The fetcher's blocks come after their parents in every state of a life. -/
theorem ancestral_step {event : SystemEvent} (channels : system.Channels)
    (ancestral : system.log.fetched.Ancestral node settings.checkpoint)
    (answers : node.AnswersEvent system event)
    (lives : (system.step settings event).tasks.ended = false) :
    (system.step settings event).log.fetched.Ancestral node settings.checkpoint := by
  rcases fetched_step channels lives with same | ⟨input, full, rfl, running, stepped⟩
  · rw [same]
    exact ancestral
  · rw [stepped]
    exact ancestral.step channels.consistent fun polling blocks response =>
      answers system.log.fetched running polling blocks response

/-- What is handed over up to a block contains its past, back to the checkpoint the process was
started with. -/
theorem recorded_of_upTo {stored : Hash → Prop} {checkpoint hash : Hash} {handed : List Hash}
    (parentsFirst : node.ParentsFirst (node.past checkpoint) handed) {n : ℕ}
    (found : handed[n]? = some hash) (upTo : ∀ earlier ∈ handed.take (n + 1), stored earlier) :
    ∀ block ∈ node.past hash, block ∈ node.past checkpoint ∨ stored block := by
  intro block inPast
  have closed := Chain.BlockDag.closed_past node.toBlockDag checkpoint
  rcases parentsFirst.past_subset closed found inPast with before | handedOver
  · exact Or.inl before
  · exact Or.inr (upTo block handedOver)

end System

namespace NodeBlocks

variable (node : NodeBlocks) (cliArgs : CliArgs) (db : Db)

/-- The rows of a block and its parents are in the enabled tables. -/
structure BlockRecorded (hash : Hash) : Prop where
  row : cliArgs.isDisabled .blocksTable = false → db.blocks.HasKey hash
  parents : cliArgs.isDisabled .blockParentTable = false →
    ∀ parent ∈ node.parents hash, db.blockParent.HasKey (hash, parent)

/-- The rows of a block's transactions are. -/
def TransactionsRecorded (hash : Hash) : Prop :=
  ∀ transaction ∈ node.transactions hash,
    IndexingWorld.TransactionStored cliArgs db transaction

/-- Every block of a past is in an earlier past, or something holds of it. -/
def Gapless (stored : Hash → Prop) (origin hash : Hash) : Prop :=
  ∀ block ∈ node.past hash, block ∈ node.past origin ∨ stored block

variable {node cliArgs db}

theorem Gapless.trans {stored : Hash → Prop} {origin middle hash : Hash}
    (first : node.Gapless stored origin middle) (second : node.Gapless stored middle hash) :
    node.Gapless stored origin hash :=
  fun block inPast => (second block inPast).elim (first block) Or.inr

theorem Gapless.mono {stored weaker : Hash → Prop} {origin hash : Hash}
    (gapless : node.Gapless stored origin hash) (implies : ∀ block, stored block → weaker block) :
    node.Gapless weaker origin hash :=
  fun block inPast => (gapless block inPast).imp_right (implies block)

theorem BlockRecorded.mono {after : Db} {hash : Hash}
    (recorded : node.BlockRecorded cliArgs db hash)
    (retains : Retains db after) : node.BlockRecorded cliArgs after hash where
  row enabled := retains.blocks _ (recorded.row enabled)
  parents enabled parent isParent :=
    retains.blockParent _ (recorded.parents enabled parent isParent)

theorem BlockRecorded.of_stored {block : RpcBlock} (stored : BlockStored cliArgs db block)
    (parents : parentsOf block = node.parents block.header.hash) :
    node.BlockRecorded cliArgs db block.header.hash where
  row := stored.row
  parents enabled parent isParent := by
    rw [← parents] at isParent
    obtain ⟨relation, isRelation, rfl⟩ := List.mem_map.mp isParent
    have child : relation.blockHash = block.header.hash := by
      unfold VecnoDbMapper.mapBlockParents at isRelation
      split at isRelation
      · contradiction
      · obtain ⟨_, _, rfl⟩ := List.mem_map.mp isRelation
        rfl
    exact child ▸ stored.parents enabled relation isRelation

end NodeBlocks

namespace System

variable {node : NodeBlocks} {settings : Settings} {system : System}

theorem TransactionsUpTo.gapless {hash : Hash}
    (upTo : system.TransactionsUpTo settings.cliArgs hash)
    (ancestral : system.log.fetched.Ancestral node settings.checkpoint)
    (delivered : system.log.fetched.Delivered) :
    node.Gapless (node.TransactionsRecorded settings.cliArgs system.db) settings.checkpoint
      hash := by
  obtain ⟨n, data, found, rfl, stored⟩ := upTo
  refine recorded_of_upTo (ancestral.parentsFirst_pushed delivered).2
    (by rw [VecnoBlocksFetcher.txHashes, List.getElem?_map, found]; rfl) ?_
  intro hash isTaken
  rw [VecnoBlocksFetcher.txHashes, ← List.map_take] at isTaken
  obtain ⟨earlier, isEarlier, rfl⟩ := List.mem_map.mp isTaken
  intro transaction among
  rw [← ancestral.txs earlier (List.mem_of_mem_take isEarlier)] at among
  exact stored earlier isEarlier transaction among

theorem BlocksUpTo.gapless {hash : Hash} (upTo : system.BlocksUpTo settings.cliArgs hash)
    (ancestral : system.log.fetched.Ancestral node settings.checkpoint)
    (delivered : system.log.fetched.Delivered) :
    node.Gapless (node.BlockRecorded settings.cliArgs system.db) settings.checkpoint hash := by
  obtain ⟨n, blockData, found, rfl, stored⟩ := upTo
  refine recorded_of_upTo (ancestral.parentsFirst_pushed delivered).1
    (by rw [VecnoBlocksFetcher.blockHashes, List.getElem?_map, found]; rfl) ?_
  intro hash isTaken
  rw [VecnoBlocksFetcher.blockHashes, ← List.map_take] at isTaken
  obtain ⟨earlier, isEarlier, rfl⟩ := List.mem_map.mp isTaken
  exact .of_stored (stored earlier isEarlier)
    (ancestral.blocks earlier (List.mem_of_mem_take isEarlier))

end System

/-! ## The invariant of a run -/

namespace Deployment

variable {node : NodeBlocks} {cliArgs : CliArgs} {origin : Hash} {deployment : Deployment}

/-- What holds of the process that runs, whatever is stored. -/
structure Healthy (node : NodeBlocks) (deployment : Deployment) : Prop where
  sound : ∃ start, deployment.system.Sound deployment.settings start
  checked : deployment.system.Checked deployment.settings
  ancestral : deployment.system.log.fetched.Ancestral node deployment.settings.checkpoint

theorem healthy_spawned (node : NodeBlocks) (settings : Settings) (startup : Startup) (db : Db) :
    (spawned settings startup db).Healthy node where
  sound := ⟨db, System.sound_spawn _ _ _ _ db⟩
  checked := System.checked_spawn _ _ _ _ db
  ancestral := VecnoBlocksFetcher.ancestral_new node startup.checkpoint

theorem Healthy.turn (healthy : deployment.Healthy node) {event : SystemEvent}
    (answers : node.AnswersEvent deployment.system event)
    (lives : (deployment.step (.turn event)).system.tasks.ended = false) :
    (deployment.step (.turn event)).Healthy node := by
  obtain ⟨start, sound⟩ := healthy.sound
  have alive := System.alive_of_step lives
  exact ⟨⟨start, sound.step event⟩,
    healthy.checked.step (System.stepped _ _ event) lives,
    System.ancestral_step (sound.channels alive) healthy.ancestral answers lives⟩

/-- A start spawns the processors, or ends. -/
theorem step_start_cases (deployment : Deployment) (env : ImportEnv) (input : StartupInput)
    (script : Script) :
    (∃ startup db rest, deployment.startup env input script = .done startup db rest ∧
      deployment.step (.start env input script) = spawned deployment.settings startup db) ∨
    deployment.step (.start env input script) =
      deployment.ended (deployment.startup env input script).state := by
  simp only [step]
  cases started : deployment.startup env input script with
  | done startup db rest => exact Or.inl ⟨startup, db, rest, rfl, rfl⟩
  | failed error db rest => exact Or.inr rfl
  | killed db => exact Or.inr rfl

/-- Whatever happens, no row that was indexed is gone. -/
theorem retains_step (deployment : Deployment) (event : DeploymentEvent) :
    Retains deployment.system.db (deployment.step event).system.db := by
  cases event with
  | turn event => exact (System.stepped deployment.settings deployment.system event).retains
  | start env input script =>
      have retains : Retains deployment.system.db (deployment.startup env input script).state :=
        keeps_retains_startProcessing _ _ _ _ _ _ (.refl _)
      rcases step_start_cases deployment env input script with ⟨startup, db, rest, started, eq⟩ | eq
      · rw [started] at retains
        rw [eq]
        exact retains
      · rw [eq]
        exact retains

/-- The saved checkpoint and the one the process was started with leave no gap after the first
one. -/
structure Continues (node : NodeBlocks) (stored : Db → Hash → Prop) (origin : Hash)
    (deployment : Deployment) : Prop where
  healthy : deployment.system.tasks.ended = false → deployment.Healthy node
  started : deployment.system.tasks.ended = false →
    node.Gapless (stored deployment.system.db) origin deployment.settings.checkpoint
  saved : ∃ hash, deployment.system.db.savedHash = some hash ∧
    node.Gapless (stored deployment.system.db) origin hash

/-- What is saved leaves no gap after the checkpoint that the process was started with. -/
def Vouched (node : NodeBlocks) (stored : Db → Hash → Prop) (deployment : Deployment)
    (checkpoint : CheckpointBlock) (_ : Bool) : Prop :=
  node.Gapless (stored deployment.system.db) deployment.settings.checkpoint checkpoint.hash

section Step

variable {stored : Db → Hash → Prop}

theorem Continues.turn (continues : deployment.Continues node stored origin)
    (retained : ∀ db after, Retains db after → ∀ hash, stored db hash → stored after hash)
    {event : SystemEvent} (answers : node.AnswersEvent deployment.system event)
    (vouched : deployment.Saving (Vouched node stored) (.turn event)) :
    (deployment.step (.turn event)).Continues node stored origin := by
  have kept := retained _ _ (retains_step deployment (.turn event))
  obtain ⟨hash, savedHash, saved⟩ := continues.saved
  cases ended : deployment.system.tasks.ended with
  | true =>
      have same : deployment.step (.turn event) = deployment := by
        simp only [step, System.step_of_ended ended]
      rw [same]
      exact continues
  | false =>
      have started := (continues.started ended).mono kept
      refine ⟨(continues.healthy ended).turn answers, fun _ => started, ?_⟩
      have db : (deployment.step (.turn event)).system.db =
          deployment.system.dbAfter deployment.settings event :=
        System.db_step ended event
      rcases System.savedHash_dbAfter ended event with same |
        ⟨input, hashOrder, script, checkpoint, force, rfl, saves, written⟩
      · refine ⟨hash, ?_, saved.mono kept⟩
        rw [db, same, savedHash]
      · refine ⟨checkpoint.hash, ?_, started.trans ?_⟩
        · rw [db, written]
        · exact NodeBlocks.Gapless.mono (vouched checkpoint force saves) kept

theorem Continues.start (continues : deployment.Continues node stored origin)
    (retained : ∀ db after, Retains db after → ∀ hash, stored db hash → stored after hash)
    {env : ImportEnv} {input : StartupInput} {script : Script}
    (resumes : deployment.Resumes env input script) :
    (deployment.step (.start env input script)).Continues node stored origin := by
  have kept := retained _ _ (retains_step deployment (.start env input script))
  obtain ⟨hash, savedHash, saved⟩ := continues.saved
  have saved := saved.mono kept
  have savedAfter := resumes.kept.trans savedHash
  rcases step_start_cases deployment env input script with ⟨startup, db, rest, started, eq⟩ | eq
  · obtain rfl : hash = startup.checkpoint :=
      Option.some.inj (savedHash.symm.trans (resumes.from_saved startup db rest started))
    rw [started] at savedAfter
    rw [eq] at saved ⊢
    exact ⟨fun _ => healthy_spawned node _ startup db, fun _ => saved,
      startup.checkpoint, savedAfter, saved⟩
  · rw [eq] at saved ⊢
    refine ⟨?_, ?_, hash, savedAfter, saved⟩
    · intro lives
      contradiction
    · intro lives
      contradiction

end Step

/-! ## Runs -/

/-- A save vouches for the transactions unless it is forced. -/
def Unforced (_ : Deployment) (_ : CheckpointBlock) (force : Bool) : Prop :=
  force = false

/-- With virtual chain processing, the block processor notified of what is saved. -/
def BlockNotified (deployment : Deployment) (checkpoint : CheckpointBlock) (_ : Bool) : Prop :=
  deployment.settings.cliArgs.isDisabled .virtualChainProcessing = true ∨
    Notified deployment.system.log.pushed .blocks checkpoint.hash

/-- What is in the database behind the checkpoint in `vars`. -/
structure NoGaps (node : NodeBlocks) (start : Deployment) (events : List DeploymentEvent)
    (deployment : Deployment) (hash : Hash) : Prop where
  saved : deployment.system.db.savedHash = some hash
  transactions : start.settings.cliArgs.isDisabled .transactionProcessing = false →
    node.Identified → Along step (Saving Unforced) start events →
    node.Gapless (node.TransactionsRecorded start.settings.cliArgs deployment.system.db)
      start.settings.checkpoint hash
  blocks : Along step (Saving BlockNotified) start events →
    node.Gapless (node.BlockRecorded start.settings.cliArgs deployment.system.db)
      start.settings.checkpoint hash

/-- The options of the command line do not change. -/
theorem cliArgs_step (deployment : Deployment) (event : DeploymentEvent) :
    (deployment.step event).settings.cliArgs = deployment.settings.cliArgs := by
  cases event with
  | turn event => rfl
  | start env input script =>
      rcases step_start_cases deployment env input script with ⟨startup, db, rest, _, eq⟩ | eq
      · rw [eq]
        rfl
      · rw [eq]
        rfl

/-- Where all that is saved is vouched for, the run continues. -/
theorem continues_of_run {stored : Db → Hash → Prop}
    (retained : ∀ db after, Retains db after → ∀ hash, stored db hash → stored after hash)
    {condition : Deployment → CheckpointBlock → Bool → Prop}
    (vouches : ∀ deployment input checkpoint force, deployment.Healthy node →
      deployment.settings.cliArgs = cliArgs →
      deployment.system.saves deployment.settings input = some (checkpoint, force) →
      condition deployment checkpoint force → Vouched node stored deployment checkpoint force)
    {start : Deployment} (initial : start.Continues node stored origin)
    (args : start.settings.cliArgs = cliArgs) {events : List DeploymentEvent}
    (regular : Along step (Regular node) start events)
    (saving : Along step (Saving condition) start events) :
    (runFrom step start events).Continues node stored origin := by
  have preserved (deployment : Deployment) (event : DeploymentEvent)
      (continues : deployment.Continues node stored origin ∧
        deployment.settings.cliArgs = cliArgs)
      (met : deployment.Regular node event ∧ deployment.Saving condition event) :
      (deployment.step event).Continues node stored origin ∧
        (deployment.step event).settings.cliArgs = cliArgs := by
    obtain ⟨continues, args⟩ := continues
    obtain ⟨regular, saving⟩ := met
    refine ⟨?_, (cliArgs_step deployment event).trans args⟩
    cases event with
    | start env input script => exact continues.start retained regular
    | turn event =>
        refine continues.turn retained regular ?_
        cases event with
        | checkpoints input hashOrder script =>
            intro checkpoint force saves
            exact vouches deployment input checkpoint force
              (continues.healthy (System.saves_eq_some saves).1) args saves
              (saving checkpoint force saves)
        | _ => trivial
  exact (invariant_of_along preserved ⟨initial, args⟩ (regular.and saving)).1

/-- A process that was spawned with the saved checkpoint. -/
theorem continues_spawned (node : NodeBlocks) (stored : Db → Hash → Prop) (settings : Settings)
    {startup : Startup} {db : Db} (saved : db.savedHash = some startup.checkpoint) :
    (spawned settings startup db).Continues node stored startup.checkpoint where
  healthy _ := healthy_spawned node settings startup db
  started _ _ := Or.inl
  saved := ⟨startup.checkpoint, saved, fun _ => Or.inl⟩

theorem Healthy.vouches_transactions (healthy : deployment.Healthy node)
    (args : deployment.settings.cliArgs = cliArgs)
    (enabled : cliArgs.isDisabled .transactionProcessing = false) (identified : node.Identified)
    {input : CheckpointInput} {checkpoint : CheckpointBlock}
    (saves : deployment.system.saves deployment.settings input = some (checkpoint, false)) :
    Vouched node (node.TransactionsRecorded cliArgs) deployment checkpoint false := by
  subst args
  obtain ⟨start, sound⟩ := healthy.sound
  have channels := sound.channels (System.saves_eq_some saves).1
  refine ((healthy.checked.covers sound saves).transactions enabled rfl ?_).gapless
    healthy.ancestral channels.consistent.delivered
  intro first isFirst second isSecond sameId
  obtain ⟨firstData, firstPushed, isFirst⟩ := List.mem_flatMap.mp isFirst
  obtain ⟨secondData, secondPushed, isSecond⟩ := List.mem_flatMap.mp isSecond
  rw [healthy.ancestral.txs firstData firstPushed] at isFirst
  rw [healthy.ancestral.txs secondData secondPushed] at isSecond
  exact identified _ _ first isFirst second isSecond sameId

theorem Healthy.vouches_blocks (healthy : deployment.Healthy node)
    (args : deployment.settings.cliArgs = cliArgs) {input : CheckpointInput}
    {checkpoint : CheckpointBlock} {force : Bool}
    (saves : deployment.system.saves deployment.settings input = some (checkpoint, force))
    (notified : BlockNotified deployment checkpoint force) :
    Vouched node (node.BlockRecorded cliArgs) deployment checkpoint force := by
  subst args
  obtain ⟨start, sound⟩ := healthy.sound
  have channels := sound.channels (System.saves_eq_some saves).1
  exact ((healthy.checked.covers sound saves).blocks notified).gapless healthy.ancestral
    channels.consistent.delivered

/-- Over any number of crashes and restarts, all between the first checkpoint and the saved one is
stored. -/
theorem noGaps_of_run (node : NodeBlocks) (settings : Settings) (startup : Startup) (db : Db)
    (events : List DeploymentEvent) (saved : db.savedHash = some startup.checkpoint)
    (regular : Along step (Regular node) (spawned settings startup db) events) :
    ∃ hash, NoGaps node (spawned settings startup db) events
      (runFrom step (spawned settings startup db) events) hash := by
  -- Whatever is saved, some checkpoint is.
  have saves (deployment : Deployment) (event : DeploymentEvent) (_ : True)
      (_ : deployment.Regular node event) : deployment.Saving (fun _ _ _ => True) event ∧ True := by
    refine ⟨?_, trivial⟩
    cases event with
    | start env input script => trivial
    | turn event => cases event <;> first | trivial | exact fun _ _ _ => trivial
  have anything :=
    continues_of_run (fun _ _ _ _ => id) (fun _ _ _ _ _ _ _ _ _ _ => Or.inr trivial)
      (continues_spawned node (fun _ _ => True) settings saved) rfl regular
      (Along.of_invariant saves trivial regular)
  obtain ⟨hash, savedHash, _⟩ := anything.saved
  refine ⟨hash, savedHash, fun enabled identified unforced => ?_, fun notified => ?_⟩
  · have continues := continues_of_run
      (fun _ _ retains _ recorded transaction among =>
        retains.transactionStored (recorded transaction among))
      (fun deployment input checkpoint force healthy args saves unforced => by
        cases unforced
        exact healthy.vouches_transactions args enabled identified saves)
      (continues_spawned node (node.TransactionsRecorded settings.cliArgs) settings saved) rfl
      regular unforced
    obtain ⟨other, savedOther, gapless⟩ := continues.saved
    cases savedHash.symm.trans savedOther
    exact gapless
  · have continues := continues_of_run
      (fun _ _ retains _ recorded => recorded.mono retains)
      (fun _ _ _ _ healthy args saves notified => healthy.vouches_blocks args saves notified)
      (continues_spawned node (node.BlockRecorded settings.cliArgs) settings saved) rfl regular
      notified
    obtain ⟨other, savedOther, gapless⟩ := continues.saved
    cases savedHash.symm.trans savedOther
    exact gapless

end Deployment

/-! ## A restart after two blocks -/

/-- A node with the two blocks. -/
def paidNode : NodeBlocks where
  parents := paidParents
  transactions hash := [paidTransaction hash]

theorem paidNode_answers : paidNode.Answers 1 [paidBlock 1, paidBlock 2] where
  serves := by
    intro block isSent
    simp only [List.mem_cons, List.not_mem_nil, or_false] at isSent
    rcases isSent with rfl | rfl <;> exact ⟨rfl, rfl⟩
  parentsFirst := by
    refine ⟨fun parent isParent => ?_, fun parent isParent => ?_, trivial⟩
    · contradiction
    · exact Or.inl (List.mem_singleton.mp isParent)

/-- Nothing is answered in the turn. -/
def SystemEvent.unanswered : SystemEvent → Bool
  | fetch input => input.response.isNone
  | signal | blocks _ _ | transactions _ _ | virtualChain _ _ | checkpoints _ _ _ => true

theorem Deployment.regular_of_unanswered (node : NodeBlocks) (start : Deployment)
    {events : List SystemEvent} (unanswered : ∀ event ∈ events, event.unanswered = true) :
    Along step (Regular node) start (events.map .turn) := by
  induction events generalizing start with
  | nil => trivial
  | cons event rest ih =>
      refine ⟨?_, ih _ fun other among => unanswered other (List.mem_cons_of_mem event among)⟩
      have quiet := unanswered event List.mem_cons_self
      cases event with
      | fetch input =>
          intro fetcher running polling blocks response
          simp [SystemEvent.unanswered, response] at quiet
      | _ => trivial

def paidStart : Deployment :=
  .spawned chainlessSettings ⟨Hash.encode 1, 1, false⟩ (Db.empty.withCheckpoint (Hash.encode 1))

/-- Two blocks are handed over, committed and notified, the second one is saved as the checkpoint,
and the process is replaced. -/
def replacedAfterTwo : List DeploymentEvent :=
  (processed 0).map .turn ++ .turn (fetched (some [paidBlock 1, paidBlock 2])) ::
    ((List.replicate 7 (fetched none) ++ processed 10000000000 ++ processed 10000000000 ++
      processed 20000000000 ++ processed 20000000000 ++ processed 31000000000).map .turn ++
        [.start payeeEnv (firstStart []) fun _ => .succeeds])

theorem replacedAfterTwo_noGaps :
    (∃ hash, Deployment.NoGaps paidNode paidStart replacedAfterTwo
      (runFrom Deployment.step paidStart replacedAfterTwo) hash) ∧
    (runFrom Deployment.step paidStart replacedAfterTwo).system.db.savedHash = some 2 := by
  constructor
  · apply Deployment.noGaps_of_run
    · decide +kernel
    · unfold replacedAfterTwo
      rw [along_append]
      refine ⟨Deployment.regular_of_unanswered _ _ (by decide), ?_, ?_⟩
      · intro fetcher running polling blocks response
        have low : (runFrom Deployment.step paidStart
            ((processed 0).map .turn)).system.tasks.fetcher.map VecnoBlocksFetcher.lowHash =
              some 1 := by
          decide +kernel
        cases response
        change (runFrom Deployment.step paidStart _).system.tasks.fetcher = some fetcher at running
        rw [running, Option.map_some, Option.some.injEq] at low
        rw [low]
        exact paidNode_answers
      · rw [along_append]
        refine ⟨Deployment.regular_of_unanswered _ _ (by decide), ?_, trivial⟩
        apply @Deployment.resumes_of_unfailing (firstStart []) 2
        · decide +kernel
        · decide +kernel
        · decide +kernel
        · exact fun _ => by decide
  · decide +kernel

end VecnoIndexer
