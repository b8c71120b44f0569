import VecnoIndexer.Startup.Choices
import VecnoIndexer.System.Ancestry

/-!
# Crashes and restarts

A process may end between any two statements of a turn, and another one may be started on
the database it leaves.  As long as the starts resume from the saved checkpoint, the lives join
without a gap: the past of the checkpoint, back to the past of the first one, is stored.
-/

namespace VecnoIndexer

open VecnoIndexer.Sql
open VecnoIndexer.Collections
open VecnoIndexer.Transition

/-- The block of the checkpoint in `vars`. -/
def Db.savedHash (db : Db) : Option Hash :=
  db.persistedCheckpoint.bind Hash.fromStr

theorem savedHash_congr {first second : Db} (vars : first.vars = second.vars) :
    first.savedHash = second.savedHash := by
  rw [Db.savedHash, Db.savedHash, persistedCheckpoint_congr vars]

/-- A process with its database, or what the last one left. -/
structure Deployment where
  settings : Settings
  system : System

inductive DeploymentEvent where
  | turn (event : SystemEvent)
  /-- The process, alive or not, is replaced. -/
  | start (env : ImportEnv) (input : StartupInput) (script : Script)

namespace Deployment

/-- The processors are spawned. -/
def spawned (settings : Settings) (startup : Startup) (db : Db) : Deployment :=
  let settings := { settings with
    checkpoint := startup.checkpoint
    disableVcpWaitForSync := startup.disableVcpWaitForSync }
  { settings
    system := .spawn settings (some startup.previousCheckpoint)
      (TaskWorld.queueCapacity settings.cliArgs.batchScale) TaskWorld.checkpointCapacity db }

/-- `start_processing` on the database that the last process left. -/
def startup (deployment : Deployment) (env : ImportEnv) (input : StartupInput) (script : Script) :
    Exec SqlError Db Startup :=
  Session.run (startProcessing deployment.settings.cliArgs env input) deployment.system.db script

/-- A start that panics leaves its database. -/
def ended (deployment : Deployment) (db : Db) : Deployment :=
  { deployment with
    system := { deployment.system with
      db
      tasks := { deployment.system.tasks with ended := true } } }

def step (deployment : Deployment) : DeploymentEvent → Deployment
  | .turn event =>
      { deployment with system := deployment.system.step deployment.settings event }
  | .start env input script =>
      match deployment.startup env input script with
      | .done startup db _ => spawned deployment.settings startup db
      | .failed _ db _ | .killed db => deployment.ended db

end Deployment

/-! ## The checkpoint in the database -/

namespace System

variable {settings : Settings} {system : System}

/-- A turn of another task leaves `vars`. -/
theorem vars_dbAfter_cases (settings : Settings) (system : System) (event : SystemEvent) :
    (system.dbAfter settings event).vars = system.db.vars ∨
      ∃ input hashOrder script, event = .checkpoints input hashOrder script := by
  cases event with
  | signal => exact Or.inl rfl
  | fetch input => exact Or.inl rfl
  | blocks input script =>
      refine Or.inl ?_
      simp only [dbAfter]
      cases system.tasks.blockProcessor with
      | looping loop =>
          simp only [Task.leaves]
          split
          · rfl
          · have keeps : (loop.iterate settings
                { input with popped := system.tasks.blocksQueue.pop.1 }).Keeps
                  fun state => state.vars = system.db.vars :=
              loop.keeps_tables (fun _ _ => id) (fun _ _ => id) (fun _ _ => id) settings _
            exact keeps system.db script rfl
      | _ => rfl
  | transactions input script =>
      refine Or.inl ?_
      simp only [dbAfter]
      cases system.tasks.transactionProcessor with
      | looping loop =>
          simp only [Task.leaves]
          split
          · rfl
          · have keeps : (loop.iterate settings.cliArgs
                { input with popped := system.tasks.txsQueue.pop.1 }).Keeps
                  fun state => state.vars = system.db.vars := by
              refine loop.keeps_leaves ?_ (fun _ _ => id) settings.cliArgs _
              intro insert db after leaves same
              exact leaves.spares.1.trans same
            exact keeps system.db script rfl
      | starting => simp only [Task.leaves, state_transactionLoop_start]
      | _ => rfl
  | virtualChain input script =>
      refine Or.inl ?_
      simp only [dbAfter]
      cases system.tasks.virtualChainProcessor with
      | looping vcp =>
          simp only [Task.leaves, virtualChainSession]
          split
          · rfl
          · split
            · exact keeps_vars_pollVirtualChain settings.cliArgs vcp _ _ _ _ rfl
            · rfl
      | _ => rfl
  | checkpoints input hashOrder script => exact Or.inr ⟨input, hashOrder, script, rfl⟩

/-- A turn leaves the checkpoint in `vars`, or writes the one that it saves. -/
theorem savedHash_dbAfter (alive : system.tasks.ended = false) (event : SystemEvent) :
    (system.dbAfter settings event).savedHash = system.db.savedHash ∨
      ∃ input hashOrder script checkpoint force, event = .checkpoints input hashOrder script ∧
        system.saves settings input = some (checkpoint, force) ∧
        (system.dbAfter settings event).savedHash = some checkpoint.hash := by
  rcases vars_dbAfter_cases settings system event with same | ⟨input, hashOrder, script, rfl⟩
  · exact Or.inl (savedHash_congr same)
  · cases processor : system.tasks.checkpointProcessor with
    | looping loop =>
        cases up : system.tasks.shutdown with
        | true =>
            refine Or.inl ?_
            simp only [dbAfter, processor, up, Task.leaves_looping_of_down]
        | false =>
            have left : system.dbAfter settings (.checkpoints input hashOrder script) =
                (Session.run (loop.iterate settings.cliArgs hashOrder (system.reads input))
                  system.db script).state := by
              simp only [dbAfter, processor, up, Task.leaves_looping_of_up]
              rfl
            rw [left]
            unfold CheckpointLoop.iterate
            simp only
            split
            · exact Or.inl rfl
            · rename_i checkpoint force ready evaluated
              have persisted := CheckpointLoop.persisted_save hashOrder ready checkpoint
                (system.reads input).recordNow system.db script
              rw [CheckpointWorld.ofExec_db] at persisted
              unfold Db.savedHash
              rw [persisted]
              split_ifs
              · refine Or.inr ⟨input, hashOrder, script, checkpoint, force, rfl, ?_, ?_⟩
                · simp only [saves, alive, up, processor, evaluated, Bool.or_self,
                    Bool.false_eq_true, if_false]
                · rw [Option.bind_some, Hash.fromStr_encode]
              · exact Or.inl rfl
            · exact Or.inl rfl
    | _ =>
        refine Or.inl ?_
        simp only [dbAfter, processor, Task.leaves]

theorem db_step (alive : system.tasks.ended = false) (event : SystemEvent) :
    (system.step settings event).db = system.dbAfter settings event := by
  unfold step
  rw [alive, if_neg Bool.false_ne_true]
  simp only
  split <;> rfl

theorem step_of_ended (ended : system.tasks.ended = true) (event : SystemEvent) :
    system.step settings event = system :=
  if_pos ended

end System

/-! ## What a run relies on -/

/-- The fetcher's requests are answered with the node's blocks. -/
def NodeBlocks.AnswersEvent (node : NodeBlocks) (system : System) : SystemEvent → Prop
  | .fetch input =>
      ∀ fetcher, system.tasks.fetcher = some fetcher → fetcher.task = .polling →
        ∀ blocks, input.response = some blocks → node.Answers fetcher.lowHash blocks
  | .signal | .blocks _ _ | .transactions _ _ | .virtualChain _ _ | .checkpoints _ _ _ => True

namespace Deployment

/-- A start leaves the saved checkpoint, and the processors are spawned with it. -/
structure Resumes (deployment : Deployment) (env : ImportEnv) (input : StartupInput)
    (script : Script) : Prop where
  kept : (deployment.startup env input script).state.savedHash = deployment.system.db.savedHash
  from_saved : ∀ startup db rest, deployment.startup env input script = .done startup db rest →
    deployment.system.db.savedHash = some startup.checkpoint

/-- What a run relies on. -/
def Regular (node : NodeBlocks) (deployment : Deployment) : DeploymentEvent → Prop
  | .turn event => node.AnswersEvent deployment.system event
  | .start env input script => deployment.Resumes env input script

/-- What is saved in a turn meets a condition. -/
def Saving (condition : Deployment → CheckpointBlock → Bool → Prop) (deployment : Deployment) :
    DeploymentEvent → Prop
  | .turn (.checkpoints input _ _) =>
      ∀ checkpoint force,
        deployment.system.saves deployment.settings input = some (checkpoint, force) →
          condition deployment checkpoint force
  | .turn .signal | .turn (.fetch _) | .turn (.blocks _ _) | .turn (.transactions _ _)
  | .turn (.virtualChain _ _) | .start _ _ _ => True

end Deployment

/-! ## Starts that resume -/

section Resumes

variable {cliArgs : CliArgs} {input : StartupInput} {db : Db} {saved : String} {hash : Hash}

theorem done_startFrom {env : ImportEnv} {utxoSetImport : Bool} {script rest : Script}
    {startup : Startup} {final : Db}
    (ran : Session.run (startFrom cliArgs env input saved hash utxoSetImport) db script =
      .done startup final rest) : startup.checkpoint = hash := by
  obtain ⟨_, _, _, _, ran⟩ := Session.done_of_run_bind ran
  split at ran
  · obtain ⟨_, _, _, _, ran⟩ := Session.done_of_run_bind ran
    cases ran
    rfl
  · contradiction

/-- A start resumes unless a checkpoint is given, the balances are rebuilt, or the database
answers with an error. -/
theorem Deployment.resumes_of_unfailing (deployment : Deployment) (env : ImportEnv)
    (notIgnored : deployment.settings.cliArgs.ignoreCheckpoint = none)
    (noRebuild : rebuilds deployment.settings.cliArgs input deployment.system.db = false)
    (saved : deployment.system.db.savedHash = some hash) {script : Script}
    (unfailing : script.Unfailing) : deployment.Resumes env input script := by
  obtain ⟨text, persisted, parsed⟩ := Option.bind_eq_some_iff.mp saved
  have frame : ImportFrame deployment.settings.cliArgs env input.utxos
      fun db => db.savedHash = some hash :=
    ⟨fun _ _ => id, fun _ _ => id, fun _ _ _ => id⟩
  have written (db : Db) (_ : db.savedHash = some hash) :
      (db.withCheckpoint text).savedHash = some hash := by
    rw [Db.savedHash, persistedCheckpoint_withCheckpoint, Option.bind_some, parsed]
  rcases startProcessing_resumes env notIgnored noRebuild persisted parsed unfailing with
    killed | ⟨rest, started⟩
  · constructor
    · rw [startup, killed]
      rfl
    · intro startup db left ran
      exact absurd (killed.symm.trans ran) (by simp)
  · constructor
    · rw [startup, started, saved]
      exact frame.startFrom written hash _ _ rest saved
    · intro startup db left ran
      rw [saved, done_startFrom (started.symm.trans ran)]

end Resumes

end VecnoIndexer
