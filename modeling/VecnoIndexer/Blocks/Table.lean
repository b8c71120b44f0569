import VecnoIndexer.Balances.Delta
import VecnoIndexer.Blocks.ProcessBlocks
import VecnoIndexer.Checkpoint.Core
import VecnoIndexer.Prune.Run
import VecnoIndexer.Transition.Run

/-!
# The blocks table between its users

The block processor inserts into `blocks`, the pruner deletes from it, and the
checkpoint processor reads it twice while it updates the balances.  Each statement
of the former two is a step here, and a save that updates balances is cut between
its two reads, so that their statements may come in between.
-/

namespace VecnoIndexer

open VecnoIndexer.Sql
open VecnoIndexer.Collections
open VecnoIndexer.Transition

/-- The options the users of the table share. -/
structure BlocksSettings where
  earliest : Int
  cliArgs : CliArgs
  config : PruningConfig

/-- A statement on `blocks` that is executed, or one that leaves `blocks` alone. -/
inductive BlocksChange where
  /-- An `INSERT` of the block processor. -/
  | insert (blocks : List RpcBlock)
  /-- A `DELETE` of a run of the pruner that started at some time. -/
  | prune (start : Int) (choice : LimitChoice (Block × ℕ))
  | other (change : Db → Db)

theorem not_expiredAt {cutoff : Int} {time : Option Int}
    (behind : ∀ value, time = some value → cutoff ≤ value) : ¬ expiredAt cutoff time = true := by
  unfold expiredAt
  rw [Option.any_eq_true]
  rintro ⟨value, timeEq, expired⟩
  rw [decide_eq_true_eq] at expired
  exact absurd (behind value timeEq) (not_le_of_gt expired)

namespace BlocksSettings

variable (settings : BlocksSettings)

/-- The rows of a statement of the block processor. A block that cannot be mapped is
never part of one. -/
def blockRows (blocks : List RpcBlock) : List Block :=
  if settings.cliArgs.isDisabled .blocksTable then []
  else blocks.filterMap (VecnoDbMapper.new settings.cliArgs).mapBlock

/-- The cutoff of the blocks step of a run of the pruner. -/
def blocksCutoff (start : Int) : Option Int :=
  settings.config.retentionBlocks.bind (stepPruningPoint settings.earliest start)

/-- What a statement does. A negative `LIMIT` is an error. -/
def change (db : Db) : BlocksChange → Db
  | .insert blocks => blocksTable.insert (settings.blockRows blocks) db
  | .prune start choice =>
      match settings.blocksCutoff start with
      | some cutoff =>
          ((expiredBlocks cutoff).chunk choice settings.config.pruneBatchSize.toNat db).2
      | none => db
  | .other change => { change db with blocks := db.blocks }

/-! ## A statement of the pruner -/

theorem change_prune {start cutoff : Int} (cutoffEq : settings.blocksCutoff start = some cutoff)
    (choice : LimitChoice (Block × ℕ)) (db : Db) :
    settings.change db (.prune start choice) =
      ((expiredBlocks cutoff).chunk choice settings.config.pruneBatchSize.toNat db).2 := by
  rw [change, cutoffEq]

/-- It leaves every row it does not match. -/
theorem mem_change_prune {start : Int} {choice : LimitChoice (Block × ℕ)} {db : Db} {row : Block}
    (rowMem : row ∈ db.blocks)
    (unmatched : ∀ cutoff, settings.blocksCutoff start = some cutoff →
      ¬ expiredAt cutoff row.timestamp = true) :
    row ∈ (settings.change db (.prune start choice)).blocks := by
  cases cutoffEq : settings.blocksCutoff start with
  | none =>
      simp only [change, cutoffEq]
      exact rowMem
  | some cutoff =>
      obtain ⟨table, after, thinned⟩ := (expiredBlocks cutoff).leaves_chunk choice
        settings.config.pruneBatchSize.toNat db
      rw [settings.change_prune cutoffEq, after]
      exact thinned.mem_of_not rowMem (unmatched cutoff cutoffEq)

/-- It only deletes. -/
theorem mem_of_mem_change_prune {start : Int} {choice : LimitChoice (Block × ℕ)} {db : Db}
    {row : Block} (left : row ∈ (settings.change db (.prune start choice)).blocks) :
    row ∈ db.blocks := by
  cases cutoffEq : settings.blocksCutoff start with
  | none =>
      simp only [change, cutoffEq] at left
      exact left
  | some cutoff =>
      obtain ⟨table, after, thinned⟩ := (expiredBlocks cutoff).leaves_chunk choice
        settings.config.pruneBatchSize.toNat db
      rw [settings.change_prune cutoffEq, after] at left
      exact thinned.sublist.subset left

/-! ## The statements are those of the components -/

/-- However a batch of the block processor ends, its statements were executed in order. -/
theorem done_insertBlocks {batchScale : BatchScale} {blocks : List RpcBlock} {db after : Db}
    {script rest : Script} {total : ℕ}
    (enabled : settings.cliArgs.isDisabled .blocksTable = false)
    (ran : Session.run (insertBlocks batchScale
      (blocks.filterMap (VecnoDbMapper.new settings.cliArgs).mapBlock)) db script =
        .done total after rest) :
    after = settings.change db (.insert blocks) := by
  rw [eq_of_done_insertBlocks ran, change, blockRows, if_neg (by simp [enabled])]

/-- A deletion of the pruner leaves what some of its statements leave. -/
theorem exists_of_deleteChunks {start cutoff : Int}
    (cutoffEq : settings.blocksCutoff start = some cutoff) (fuel : ℕ)
    (choices : ℕ → LimitChoice (Block × ℕ)) (db : Db) (script : Script) :
    ∃ taken : List (LimitChoice (Block × ℕ)),
      (Session.run ((expiredBlocks cutoff).deleteChunks SqlError.unavailable
        SqlError.negativeLimit settings.config.pruneBatchSize fuel choices) db script).state =
      runFrom settings.change db (taken.map (BlocksChange.prune start)) := by
  induction fuel generalizing choices db script with
  | zero => exact ⟨[], rfl⟩
  | succ fuel ih =>
      rw [Deletion.deleteChunks, Session.run_bind, Deletion.deleteChunk, Session.run_statement]
      cases outcome : script 0 with
      | fails => exact ⟨[], rfl⟩
      | killed => exact ⟨[], rfl⟩
      | succeeds =>
          by_cases negative : settings.config.pruneBatchSize < 0
          · rw [if_pos negative]
            exact ⟨[], rfl⟩
          · rw [if_neg negative]
            have first : settings.change db (.prune start (choices 0)) =
                ((expiredBlocks cutoff).chunk (choices 0)
                  settings.config.pruneBatchSize.toNat db).2 := by
              rw [change, cutoffEq]
            simp only
            split
            · exact ⟨[choices 0], first.symm⟩
            · obtain ⟨taken, later⟩ := ih (fun n => choices (n + 1)) _ script.tail
              refine ⟨choices 0 :: taken, ?_⟩
              rw [List.map_cons, runFrom_cons, first, ← later]
              apply Session.state_bind
              exact fun _ _ _ => rfl

theorem exists_of_pruneBlocks {start cutoff : Int}
    (cutoffEq : settings.blocksCutoff start = some cutoff)
    (choices : ℕ → LimitChoice (Block × ℕ)) (db : Db) (script : Script) :
    ∃ taken : List (LimitChoice (Block × ℕ)),
      (Session.run (pruneBlocks cutoff settings.config.pruneBatchSize choices) db script).state =
      runFrom settings.change db (taken.map (BlocksChange.prune start)) :=
  settings.exists_of_deleteChunks cutoffEq _ choices db script

end BlocksSettings

/-! ## A save in two halves -/

/-- A save between the two reads of its balance update: what the first one read, and
the database it read from. -/
structure PendingUpdate where
  previous : String
  checkpoint : CheckpointBlock
  ready : CheckpointLoop
  created : List DeltaRow
  first : Db

namespace CheckpointLoop

/-- The end of a save. -/
def finishSave (loop : CheckpointLoop) (checkpoint : CheckpointBlock) (recordNow : ℕ) :
    DbM CheckpointLoop := do
  let saved ← (saveCheckpoint checkpoint.hash.encode).attempt
  let previousCheckpoint :=
    match saved with
    | .ok _ => some checkpoint.hash.encode
    | .error _ => loop.previousCheckpoint
  pure (loop.afterSave previousCheckpoint recordNow)

/-- An iteration up to the first read of a balance update, if it comes to one. -/
def beginIterate (cliArgs : CliArgs) (loop : CheckpointLoop) (input : CheckpointInput) (db : Db) :
    DbM (CheckpointLoop ⊕ PendingUpdate) :=
  let received := loop.receive cliArgs input
  match received.evaluate cliArgs input with
  | .idle => pure (.inl received)
  | .save checkpoint _ ready =>
      match ready.previousCheckpoint with
      | none => do
          let saved ← ready.finishSave checkpoint input.recordNow
          pure (.inl saved)
      | some previous => do
          let created ← (selectDeltas createdSources previous checkpoint.hash.encode).attempt
          match created with
          | .ok created => pure (.inr ⟨previous, checkpoint, ready, created, db⟩)
          | .error _ => do
              let saved ← ready.finishSave checkpoint input.recordNow
              pure (.inl saved)
  | .wait waiting => pure (.inl waiting)

end CheckpointLoop

namespace PendingUpdate

/-- The balance update from its second read on. -/
def finishUpdate (hashOrder : Reordering (String × Int)) (pending : PendingUpdate) : DbM Unit := do
  let spent ← selectDeltas spentSources pending.previous pending.checkpoint.hash.encode
  applyDeltas hashOrder pending.created spent

/-- The rest of the iteration. -/
def finishIterate (hashOrder : Reordering (String × Int)) (pending : PendingUpdate)
    (recordNow : ℕ) : DbM CheckpointLoop := do
  let _logged ← (pending.finishUpdate hashOrder).attempt
  pending.ready.finishSave pending.checkpoint recordNow

end PendingUpdate

/-- Without a statement in between, the halves are the iteration. -/
theorem CheckpointLoop.run_iterate (cliArgs : CliArgs) (hashOrder : Reordering (String × Int))
    (loop : CheckpointLoop) (input : CheckpointInput) (db : Db) (script : Script) :
    Session.run (loop.iterate cliArgs hashOrder input) db script =
      Session.run (do
        let half ← loop.beginIterate cliArgs input db
        match half with
        | .inl whole => pure whole
        | .inr pending => pending.finishIterate hashOrder input.recordNow) db script := by
  apply congrArg fun session : DbM CheckpointLoop => Session.run session db script
  cases decided : (loop.receive cliArgs input).evaluate cliArgs input with
  | idle =>
      simp only [iterate, beginIterate, decided]
      rfl
  | wait waiting =>
      simp only [iterate, beginIterate, decided]
      rfl
  | save checkpoint force ready =>
      have saves : ready.save hashOrder checkpoint input.recordNow =
          updateBalances hashOrder ready.previousCheckpoint checkpoint.hash.encode >>= fun _ =>
            ready.finishSave checkpoint input.recordNow :=
        rfl
      simp only [iterate, beginIterate, decided, saves]
      cases ready.previousCheckpoint with
      | none =>
          simp only [updateBalances, Session.bind_assoc, Session.pure_bind, Session.bind_pure]
      | some previous =>
          simp only [updateBalances, updateBalancesFromUtxoChanges, Session.attempt_bind,
            Session.bind_assoc]
          congr 1
          funext created
          cases created with
          | error error => simp only [Session.pure_bind, Session.bind_assoc, Session.bind_pure]
          | ok created =>
              simp only [Session.pure_bind, PendingUpdate.finishIterate,
                PendingUpdate.finishUpdate, Session.attempt_bind, Session.bind_assoc]

/-! ## The world -/

/-- What the checkpoint processor is doing. -/
inductive CheckpointTask where
  | looping (loop : CheckpointLoop)
  | updating (pending : PendingUpdate)

/-- The checkpoint remembered while a task runs. -/
def CheckpointTask.previousCheckpoint : CheckpointTask → Option String
  | .looping loop => loop.previousCheckpoint
  | .updating pending => pending.ready.previousCheckpoint

/-- The database and, while the process is alive, the checkpoint processor. -/
structure BlocksWorld where
  db : Db
  task : Option CheckpointTask

/-- A step of some component. -/
inductive BlocksEvent where
  | change (change : BlocksChange)
  /-- An iteration of the checkpoint processor, up to the first read of an update. -/
  | start (input : CheckpointInput) (script : Script)
  /-- The rest of an iteration that came to a read. -/
  | finish (hashOrder : Reordering (String × Int)) (recordNow : ℕ) (script : Script)
  /-- The process is replaced by one that resumes from `vars`. -/
  | restart (now : ℕ) (script : Script)

namespace BlocksWorld

def previousCheckpoint (world : BlocksWorld) : Option String :=
  world.task.bind CheckpointTask.previousCheckpoint

/-- The world a session leaves: a process that does not end it is dead. -/
def ofExec {α : Type} (next : α → CheckpointTask) : Exec SqlError Db α → BlocksWorld
  | .done value db _ => ⟨db, some (next value)⟩
  | .failed _ db _ => ⟨db, none⟩
  | .killed db => ⟨db, none⟩

def step (settings : BlocksSettings) (world : BlocksWorld) : BlocksEvent → BlocksWorld
  | .change change => { world with db := settings.change world.db change }
  | .start input script =>
      match world.task with
      | some (.looping loop) =>
          ofExec (Sum.elim .looping .updating) (Session.run
            (loop.beginIterate settings.cliArgs input world.db) world.db script)
      | _ => world
  | .finish hashOrder recordNow script =>
      match world.task with
      | some (.updating pending) =>
          ofExec .looping (Session.run (pending.finishIterate hashOrder recordNow) world.db script)
      | _ => world
  | .restart now script =>
      match world.db.persistedCheckpoint with
      | some saved => ofExec .looping (Session.run (resume now saved) world.db script)
      | none => ⟨world.db, none⟩

theorem ofExec_db {α : Type} (next : α → CheckpointTask) (result : Exec SqlError Db α) :
    (ofExec next result).db = result.state := by
  cases result <;> rfl

end BlocksWorld

/-! ## What leaves the table alone -/

section Frame

variable {table : Table Block.primaryKey}

theorem keeps_blocks_saveCheckpoint (blockHash : String) :
    (saveCheckpoint blockHash).Keeps fun db => db.blocks = table := by
  unfold saveCheckpoint upsertVar
  apply Session.keeps_statement
  intro db count next same executed
  cases executed
  exact same

theorem keeps_blocks_finishSave (loop : CheckpointLoop) (checkpoint : CheckpointBlock)
    (recordNow : ℕ) :
    (loop.finishSave checkpoint recordNow).Keeps fun db => db.blocks = table :=
  (keeps_blocks_saveCheckpoint _).attempt.bind fun _ => Session.keeps_pure _ _

theorem keeps_blocks_beginIterate (cliArgs : CliArgs) (loop : CheckpointLoop)
    (input : CheckpointInput) (first : Db) :
    (loop.beginIterate cliArgs input first).Keeps fun db => db.blocks = table := by
  cases decided : (loop.receive cliArgs input).evaluate cliArgs input with
  | idle =>
      simp only [CheckpointLoop.beginIterate, decided]
      exact Session.keeps_pure _ _
  | wait waiting =>
      simp only [CheckpointLoop.beginIterate, decided]
      exact Session.keeps_pure _ _
  | save checkpoint force ready =>
      simp only [CheckpointLoop.beginIterate, decided]
      have saves := @keeps_blocks_finishSave table ready checkpoint input.recordNow
      cases ready.previousCheckpoint with
      | none => exact saves.bind fun _ => Session.keeps_pure _ _
      | some previous =>
          refine Session.Keeps.bind (keeps_selectDeltas _ _ _ _).attempt fun created => ?_
          cases created with
          | ok created => exact Session.keeps_pure _ _
          | error _ => exact saves.bind fun _ => Session.keeps_pure _ _

theorem keeps_blocks_finishIterate (hashOrder : Reordering (String × Int))
    (pending : PendingUpdate) (recordNow : ℕ) :
    (pending.finishIterate hashOrder recordNow).Keeps fun db => db.blocks = table := by
  have updates : (pending.finishUpdate hashOrder).Keeps fun db => db.blocks = table := by
    refine Session.Keeps.bind (keeps_selectDeltas _ _ _ _) fun spent => ?_
    exact keeps_applyDeltas (fun _ _ => id) hashOrder pending.created spent
  exact updates.attempt.bind fun _ => keeps_blocks_finishSave _ _ _

/-- Only a statement of another component changes the table. -/
theorem BlocksWorld.blocks_step (settings : BlocksSettings) (world : BlocksWorld)
    {event : BlocksEvent} (own : ∀ change, event ≠ .change change) :
    (world.step settings event).db.blocks = world.db.blocks := by
  cases event with
  | change change => exact absurd rfl (own change)
  | start input script =>
      rcases task : world.task with _ | ⟨loop⟩ | ⟨pending⟩
      · simp only [step, task]
      · simp only [step, task, ofExec_db]
        exact keeps_blocks_beginIterate settings.cliArgs loop input world.db _ script rfl
      · simp only [step, task]
  | finish hashOrder recordNow script =>
      rcases task : world.task with _ | ⟨loop⟩ | ⟨pending⟩
      · simp only [step, task]
      · simp only [step, task]
      · simp only [step, task, ofExec_db]
        exact keeps_blocks_finishIterate hashOrder pending recordNow _ script rfl
  | restart now script =>
      cases persisted : world.db.persistedCheckpoint with
      | none => simp only [step, persisted]
      | some saved =>
          simp only [step, persisted, ofExec_db]
          exact (keeps_blocks_saveCheckpoint saved).attempt.bind
            (fun _ => Session.keeps_pure _ _) _ script rfl

end Frame

end VecnoIndexer
