import VecnoIndexer.Prune.Orphans
import VecnoIndexer.Prune.Retention
import VecnoIndexer.System.Gaps

/-!
# The pruner beside the other tasks

A cron job starts runs of the pruner next to the other tasks, and one may start before the last
is over.  However their steps are interleaved with the turns of the tasks, over any number of
lives of the process, no row is gone but those that a step of the pruner found behind its
cutoff: no other statement deletes one.
-/

namespace VecnoIndexer

open VecnoIndexer.Sql
open VecnoIndexer.Transition

/-! ## Rows that stay -/

theorem InsertStatement.Leaves.keeps_stores {insert : InsertStatement} {db after : Db}
    (leaves : InsertStatement.Leaves db after insert) {row : IndexedRow} (stored : db.Stores row) :
    after.Stores row := by
  cases insert with
  | transactions rows =>
      cases leaves
      cases row with
      | transaction row => exact Table.mem_insertAll_of_mem stored
      | _ => exact stored
  | inputs resolve rows =>
      cases leaves
      cases row with
      | input row => exact Table.mem_insertAll_of_mem stored
      | _ => exact stored
  | outputs rows =>
      cases leaves
      cases row with
      | output row => exact Table.mem_insertAll_of_mem stored
      | _ => exact stored
  | addresses rows =>
      cases leaves
      cases row with
      | address row => exact Table.mem_insertAll_of_mem stored
      | _ => exact stored
  | scripts rows =>
      cases leaves
      cases row with
      | script row => exact Table.mem_insertAll_of_mem stored
      | _ => exact stored
  | blocksTransactions rows =>
      cases leaves
      cases row with
      | relation row => exact Table.mem_insertAll_of_mem stored
      | _ => exact stored
  | addressesFromInputs useTx transactionIds =>
      obtain ⟨rows, _, rfl⟩ := leaves
      cases row with
      | address row => exact Table.mem_insertAll_of_mem stored
      | _ => exact stored
  | scriptsFromInputs useTx transactionIds =>
      obtain ⟨rows, _, rfl⟩ := leaves
      cases row with
      | script row => exact Table.mem_insertAll_of_mem stored
      | _ => exact stored

theorem writeFrame_stores (row : IndexedRow) : WriteFrame fun db => db.Stores row where
  blocks db rows stored := by
    cases row with
    | block row => exact Table.mem_insertAll_of_mem stored
    | _ => exact stored
  blockParent db rows stored := by
    cases row with
    | parent row => exact Table.mem_insertAll_of_mem stored
    | _ => exact stored
  acceptances _ _ stored := by cases row <;> exact stored
  leaves _ _ _ leaves stored := leaves.keeps_stores stored
  numbering _ _ stored := by cases row <;> exact stored
  balances _ _ stored := by cases row <;> exact stored
  checkpoint _ _ stored := by cases row <;> exact stored

namespace Deployment

/-- Without the pruner every row stays. -/
theorem stores_step (deployment : Deployment) (event : DeploymentEvent) {row : IndexedRow}
    (stored : deployment.system.db.Stores row) :
    (deployment.step event).system.db.Stores row := by
  have frame := writeFrame_stores row
  cases event with
  | turn event =>
      cases ended : deployment.system.tasks.ended with
      | true =>
          simp only [step, System.step_of_ended ended]
          exact stored
      | false =>
          have kept := System.property_dbAfter deployment.settings frame stored event
          rw [← System.db_step ended event] at kept
          exact kept
  | start env input script =>
      have imports : ImportFrame deployment.settings.cliArgs env input.utxos
          fun db => db.Stores row := by
        refine ⟨frame.balances, frame.acceptances, fun db pairs _ stored => ?_⟩
        cases row with
        | output row => exact Table.mem_insertAll_of_mem stored
        | _ => exact stored
      have kept : (deployment.startup env input script).state.Stores row :=
        imports.startProcessing frame.checkpoint _ _ stored
      rcases step_start_cases deployment env input script with ⟨startup, db, rest, started, eq⟩ | eq
      · rw [started] at kept
        rw [eq]
        exact kept
      · rw [eq]
        exact kept

end Deployment

/-! ## The pruner -/

/-- A deployment with the block in the metrics of its checkpoints. -/
structure PrunedDeployment where
  deployment : Deployment
  checkpoint : Option CheckpointBlock

inductive PrunedEvent where
  | turn (event : SystemEvent)
  /-- The node answers with the block of the checkpoint or with an error. -/
  | start (env : ImportEnv) (input : StartupInput) (script : Script)
      (checkpoint : Option CheckpointBlock)
  /-- A step of a run of the pruner; one that an error has cut short may be taken up again. -/
  | prune (input : PruneInput) (position : ℕ)

namespace PrunedDeployment

variable (earliest : Int) (config : PruningConfig) (pruned : PrunedDeployment)

def db : Db :=
  pruned.deployment.system.db

/-- What a step of the pruner reads in the process. -/
def reads (input : PruneInput) : PruneInput :=
  { input with
    isShutdown := fun _ => pruned.deployment.system.tasks.shutdown
    checkpointTimestamp := pruned.checkpoint.map CheckpointBlock.timestamp }

/-- The database after some statements. -/
def withDb (db : Db) : PrunedDeployment :=
  { pruned with deployment := { pruned.deployment with
      system := { pruned.deployment.system with db } } }

/-- A step of the pruner.  A cutoff out of range is a panic, which ends the process; only
`blocks_transactions` tests for a shutdown before it computes its cutoff. -/
def pruneStep (task : PruneTask) : PrunedDeployment :=
  match task.cutoff with
  | none =>
      if task.isShutdown && decide (task.step = .blocksTransactions) then pruned
      else { pruned with deployment := pruned.deployment.ended pruned.db }
  | some cutoff =>
      if task.isShutdown then pruned
      else
        match Session.run (task.call cutoff) pruned.db task.script with
        | .done _ db _ | .failed _ db _ => pruned.withDb db
        | .killed db => { pruned with deployment := pruned.deployment.ended db }

/-- `metrics.checkpoint.block` after a turn. -/
def checkpointAfter : SystemEvent → Option CheckpointBlock
  | .checkpoints input _ _ =>
      ((pruned.deployment.system.saves pruned.deployment.settings input).map Prod.fst).or
        pruned.checkpoint
  | .signal | .fetch _ | .blocks _ _ | .transactions _ _ | .virtualChain _ _ => pruned.checkpoint

/-- `start_processing` with its pruner, whose options are resolved once. -/
def step : PrunedEvent → PrunedDeployment
  | .turn event => ⟨pruned.deployment.step (.turn event), pruned.checkpointAfter event⟩
  | .start env input script checkpoint =>
      ⟨pruned.deployment.step (.start env input script), checkpoint⟩
  | .prune input position =>
      if pruned.deployment.system.tasks.ended || config.pruneDb.isNone then pruned
      else
        match (pruneTasks earliest pruned.deployment.settings.cliArgs config.resolved
            (pruned.reads input))[position]? with
        | some task => pruned.pruneStep task
        | none => pruned

/-- A step of the pruner would find the row behind its cutoff. -/
def Expires (input : PruneInput) (row : IndexedRow) : Prop :=
  row.Expired earliest pruned.deployment.settings.cliArgs config.resolved (pruned.reads input)
    pruned.db

variable {earliest config pruned}

theorem db_pruneStep {task : PruneTask} {cutoff : Int} (isCutoff : task.cutoff = some cutoff)
    (up : task.isShutdown = false) :
    (pruned.pruneStep task).db = (Session.run (task.call cutoff) pruned.db task.script).state := by
  unfold pruneStep
  rw [isCutoff, up]
  simp only [Bool.false_eq_true, if_false]
  cases Session.run (task.call cutoff) pruned.db task.script <;> rfl

theorem stores_pruneStep {task : PruneTask} {expired : Db → IndexedRow → Prop}
    (deletes : task.DeletesOnly expired) {row : IndexedRow} (stored : pruned.db.Stores row) :
    (pruned.pruneStep task).db.Stores row ∨ expired pruned.db row := by
  cases isCutoff : task.cutoff with
  | none =>
      left
      have same : (pruned.pruneStep task).db = pruned.db := by
        simp only [pruneStep, isCutoff]
        split <;> rfl
      rwa [same]
  | some cutoff =>
      cases down : task.isShutdown with
      | true =>
          left
          rw [pruneStep, isCutoff, down]
          exact stored
      | false =>
          rw [db_pruneStep isCutoff down]
          exact deletes cutoff isCutoff pruned.db task.script row stored

/-- The step lemma: a row is lost only at a step of the pruner that finds it expired. -/
theorem expires_of_lost {event : PrunedEvent} {row : IndexedRow} (stored : pruned.db.Stores row)
    (lost : ¬ (pruned.step earliest config event).db.Stores row) :
    ∃ input position, event = .prune input position ∧
      pruned.Expires earliest config input row := by
  cases event with
  | turn event => exact absurd (pruned.deployment.stores_step (.turn event) stored) lost
  | start env input script checkpoint =>
      exact absurd (pruned.deployment.stores_step (.start env input script) stored) lost
  | prune input position =>
      refine ⟨input, position, rfl, ?_⟩
      rw [step] at lost
      split at lost
      · exact absurd stored lost
      · split at lost
        · rename_i task isTask
          exact (stores_pruneStep (deletesOnly_pruneTasks task (List.mem_of_getElem? isTask))
            stored).resolve_left lost
        · exact absurd stored lost

/-- In every run, a row that was stored still is, or at one of the steps the pruner found it
behind the cutoff of its table. -/
theorem stored_or_expired_of_run (earliest : Int) (config : PruningConfig)
    (pruned : PrunedDeployment) (events : List PrunedEvent) (row : IndexedRow)
    (stored : pruned.db.Stores row) :
    (runFrom (step earliest config) pruned events).db.Stores row ∨
      ∃ earlier input position later, events = earlier ++ .prune input position :: later ∧
        (runFrom (step earliest config) pruned earlier).Expires earliest config input row := by
  by_contra neither
  obtain ⟨lost, never⟩ := not_or.mp neither
  obtain ⟨earlier, event, later, eq, before, after⟩ :=
    @exists_of_lost _ _ (step earliest config) (fun pruned => pruned.db.Stores row) _ _ stored lost
  obtain ⟨input, position, rfl, expired⟩ := expires_of_lost before after
  exact never ⟨earlier, input, position, later, eq, expired⟩

end PrunedDeployment

/-! ## An old block -/

/-- A process that finds a block of the first second. -/
def oldBlockStart : PrunedDeployment where
  deployment := .spawned chainlessSettings ⟨Hash.encode 1, 1, false⟩ oldBlockDb
  checkpoint := none

/-- The step on parents fails, a request is answered, and then comes the step on blocks. -/
def pruneAroundFetch : List PrunedEvent :=
  [.prune (pruneAt 610000 parentsFail) 0, .turn (fetched (some [paidBlock 1, paidBlock 2])),
    .prune (pruneAt 610000 allSucceed) 2]

theorem pruneAroundFetch_expires :
    ∃ earlier input position later, pruneAroundFetch = earlier ++ .prune input position :: later ∧
      (runFrom (PrunedDeployment.step (-8000000000000000000000) weekConfig) oldBlockStart
        earlier).Expires (-8000000000000000000000) weekConfig input
          (.block { scoredBlock 2 0 with timestamp := some 1000 }) := by
  have stored : oldBlockStart.db.Stores
      (.block { scoredBlock 2 0 with timestamp := some 1000 }) := by
    change { scoredBlock 2 0 with timestamp := some 1000 } ∈ oldBlockStart.db.blocks
    decide +kernel
  refine (PrunedDeployment.stored_or_expired_of_run _ _ _ pruneAroundFetch _ stored).resolve_left ?_
  change { scoredBlock 2 0 with timestamp := some 1000 } ∉ (runFrom (PrunedDeployment.step
    (-8000000000000000000000) weekConfig) oldBlockStart pruneAroundFetch).db.blocks
  decide +kernel

end VecnoIndexer
