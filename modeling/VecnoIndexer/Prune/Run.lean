import VecnoIndexer.Cli.CliArgs
import VecnoIndexer.Prune.Chunk
import VecnoIndexer.Sql.ChunkedDelete

/-!
# A run of the pruner

`prune` runs its steps in a fixed order, each with a cutoff that is the start of
the run less a retention.  An error of a step is counted and the next step runs;
a shutdown, a cutoff out of range or the death of the process ends the run.
-/

namespace VecnoIndexer

open VecnoIndexer.Sql

/-! ## Retentions -/

/-- `std::time::Duration`, in nanoseconds. -/
abbrev Duration := ℕ

/-- `Duration::MAX` -/
def durationMax : Duration := 2 ^ 64 * 1000000000 - 1

/-- The pruning options of the command line. -/
structure PruningConfig where
  pruneDb : Option String
  pruneBatchSize : Int
  retention : Option Duration
  retentionBlockParent : Option Duration
  retentionBlocksTransactions : Option Duration
  retentionBlocks : Option Duration
  retentionTransactions : Option Duration
  retentionAddressesTransactions : Option Duration
  deriving DecidableEq, Repr

namespace PruningConfig

def resolve (config : PruningConfig) (specific : Option Duration) : Option Duration :=
  specific.or config.retention

def resolved (config : PruningConfig) : PruningConfig where
  pruneDb := config.pruneDb
  pruneBatchSize := config.pruneBatchSize
  retention := config.retention
  retentionBlockParent := config.resolve config.retentionBlockParent
  retentionBlocksTransactions := config.resolve config.retentionBlocksTransactions
  retentionBlocks := config.resolve config.retentionBlocks
  retentionTransactions := config.resolve config.retentionTransactions
  retentionAddressesTransactions := config.resolve config.retentionAddressesTransactions

end PruningConfig

/-- `start.sub(retention)` in milliseconds, for a start in seconds. Subtracting
below the earliest time there is panics. -/
def stepPruningPoint (earliest start : Int) (retention : Duration) : Option Int :=
  let instant := start * 1000000000 - retention
  if earliest ≤ instant then some (instant / 1000000) else none

/-! ## The deletions -/

/-- `time < $1`, which NULL does not satisfy. -/
def expiredAt (cutoff : Int) (time : Option Int) : Bool :=
  time.any fun value => decide (value < cutoff)

/-- `JOIN blocks b ON hash = b.hash WHERE b.timestamp < $1` -/
def Db.blockExpired (db : Db) (cutoff : Int) (hash : Hash) : Bool :=
  (db.blocks.lookup hash).any fun block => expiredAt cutoff block.timestamp

/-- `JOIN transactions t ON id = t.transaction_id WHERE t.block_time < $1` -/
def Db.transactionExpired (db : Db) (cutoff : Int) (transactionId : Hash) : Bool :=
  (db.transactions.lookup transactionId).any fun row => expiredAt cutoff row.blockTime

section Deletions

variable (cutoff : Int)

def expiredBlockParents : Deletion Db BlockParent.primaryKey where
  place := blockParentTable
  condition db row := db.blockExpired cutoff row.blockHash = true
  decidable _ := fun _ => inferInstance
  frame _ _ := rfl

def expiredBlocksTransactions : Deletion Db BlockTransaction.primaryKey where
  place := blocksTransactionsTable
  condition db row := db.blockExpired cutoff row.blockHash = true
  decidable _ := fun _ => inferInstance
  frame _ _ := rfl

def blocksTransactionsOfExpired : Deletion Db BlockTransaction.primaryKey where
  place := blocksTransactionsTable
  condition db row := db.transactionExpired cutoff row.transactionId = true
  decidable _ := fun _ => inferInstance
  frame _ _ := rfl

def expiredBlocks : Deletion Db Block.primaryKey where
  place := blocksTable
  condition _ row := expiredAt cutoff row.timestamp = true
  decidable _ := fun _ => inferInstance
  frame _ _ := rfl

def expiredAcceptances : Deletion Db TransactionAcceptance.uniqueKey where
  place := acceptancesTable
  condition db row := row.blockHash.any (db.blockExpired cutoff) = true
  decidable _ := fun _ => inferInstance
  frame _ _ := rfl

def expiredAddresses : Deletion Db AddressTransaction.primaryKey where
  place := addressesTable
  condition _ row := expiredAt cutoff row.blockTime = true
  decidable _ := fun _ => inferInstance
  frame _ _ := rfl

def expiredScripts : Deletion Db ScriptTransaction.primaryKey where
  place := scriptsTable
  condition _ row := expiredAt cutoff row.blockTime = true
  decidable _ := fun _ => inferInstance
  frame _ _ := rfl

/-- The chunk loop shared by the functions below. -/
def pruneRows {α κ : Type} [DecidableEq α] {key : α → Option κ} (deletion : Deletion Db key)
    (batchSize : Int) (choices : ℕ → LimitChoice (α × ℕ)) : DbM ℕ :=
  deletion.deleteLoop .unavailable .negativeLimit batchSize choices

def pruneBlockParent (batchSize : Int) (choices : ℕ → LimitChoice (BlockParent × ℕ)) : DbM ℕ :=
  pruneRows (expiredBlockParents cutoff) batchSize choices

def pruneBlocksTransactionsUsingBlocks (batchSize : Int)
    (choices : ℕ → LimitChoice (BlockTransaction × ℕ)) : DbM ℕ :=
  pruneRows (expiredBlocksTransactions cutoff) batchSize choices

def pruneBlocksTransactionsUsingTransactions (batchSize : Int)
    (choices : ℕ → LimitChoice (BlockTransaction × ℕ)) : DbM ℕ :=
  pruneRows (blocksTransactionsOfExpired cutoff) batchSize choices

def pruneBlocks (batchSize : Int) (choices : ℕ → LimitChoice (Block × ℕ)) : DbM ℕ :=
  pruneRows (expiredBlocks cutoff) batchSize choices

def pruneTransactionsAcceptancesUsingBlocks (batchSize : Int)
    (choices : ℕ → LimitChoice (TransactionAcceptance × ℕ)) : DbM ℕ :=
  pruneRows (expiredAcceptances cutoff) batchSize choices

def pruneAddressesTransactions (batchSize : Int)
    (choices : ℕ → LimitChoice (AddressTransaction × ℕ)) : DbM ℕ :=
  pruneRows (expiredAddresses cutoff) batchSize choices

def pruneScriptsTransactions (batchSize : Int)
    (choices : ℕ → LimitChoice (ScriptTransaction × ℕ)) : DbM ℕ :=
  pruneRows (expiredScripts cutoff) batchSize choices

end Deletions

/-! ## The steps of a run -/

inductive PruneStep where
  | blockParent
  | blocksTransactions
  | blocks
  | transactionsAcceptances
  | transactions
  | addressesTransactions
  deriving DecidableEq, Repr

/-- What a run meets: the time of its start in seconds, the shutdown flag where a step
reads it, the outcomes of each step's statements, the checkpoint of the metrics, and
the rows that each `LIMIT` takes. -/
structure PruneInput where
  start : Int
  isShutdown : PruneStep → Bool
  script : PruneStep → Script
  checkpointTimestamp : Option ℕ
  blockParents : ℕ → LimitChoice (BlockParent × ℕ)
  blocksTransactions : ℕ → LimitChoice (BlockTransaction × ℕ)
  blocks : ℕ → LimitChoice (Block × ℕ)
  acceptances : ℕ → LimitChoice (TransactionAcceptance × ℕ)
  transactions : ℕ → LimitChoice Transaction
  addresses : ℕ → LimitChoice (AddressTransaction × ℕ)
  scripts : ℕ → LimitChoice (ScriptTransaction × ℕ)

/-- One step of a run: its cutoff, if there is one, and its statements. -/
structure PruneTask where
  step : PruneStep
  cutoff : Option Int
  isShutdown : Bool
  script : Script
  call : Int → DbM ℕ

/-- The steps in turn, after some errors: the errors at the end of the run, if it gets
there, and the database. -/
def runTasks : ℕ → List PruneTask → Db → Option ℕ × Db
  | stepErrors, [], db => (some stepErrors, db)
  | stepErrors, task :: rest, db =>
      match task.cutoff with
      | none => (none, db)
      | some cutoff =>
          if task.isShutdown then (none, db)
          else
            match Session.run (task.call cutoff) db task.script with
            | .done _ after _ => runTasks stepErrors rest after
            | .failed _ after _ => runTasks (stepErrors + 1) rest after
            | .killed after => (none, after)

section Run

variable (earliest : Int) (cliArgs : CliArgs) (config : PruningConfig) (input : PruneInput)

/-- A step with a retention, at most as long as another one. -/
def PruneInput.task (step : PruneStep) (retention : Duration) (call : Int → DbM ℕ) : PruneTask where
  step := step
  cutoff := stepPruningPoint earliest input.start retention
  isShutdown := input.isShutdown step
  script := input.script step
  call := call

def blockParentTasks : List PruneTask :=
  match config.retentionBlockParent with
  | some retention =>
      [input.task earliest .blockParent (min retention (config.retentionBlocks.getD durationMax))
        fun cutoff => pruneBlockParent cutoff config.pruneBatchSize input.blockParents]
  | none => []

def blocksTransactionsTasks : List PruneTask :=
  match config.retentionBlocksTransactions with
  | some retention =>
      if !cliArgs.isDisabled .blocksTable && !cliArgs.isExcluded .blockTimestamp then
        [input.task earliest .blocksTransactions
          (min retention (config.retentionBlocks.getD durationMax)) fun cutoff =>
            pruneBlocksTransactionsUsingBlocks cutoff config.pruneBatchSize
              input.blocksTransactions]
      else
        [input.task earliest .blocksTransactions
          (min retention (config.retentionTransactions.getD durationMax)) fun cutoff =>
            pruneBlocksTransactionsUsingTransactions cutoff config.pruneBatchSize
              input.blocksTransactions]
  | none => []

/-- The acceptances of expired blocks, pruned after the blocks and with their cutoff. -/
def acceptancesTasks (retention : Duration) : List PruneTask :=
  if cliArgs.isDisabled .transactionAcceptance && !cliArgs.isDisabled .blocksTable &&
      !cliArgs.isExcluded .blockTimestamp then
    [input.task earliest .transactionsAcceptances retention fun cutoff =>
      pruneTransactionsAcceptancesUsingBlocks cutoff config.pruneBatchSize input.acceptances]
  else
    []

def blocksTasks : List PruneTask :=
  match config.retentionBlocks with
  | some retention =>
      input.task earliest .blocks retention (fun cutoff =>
          pruneBlocks cutoff config.pruneBatchSize input.blocks) ::
        acceptancesTasks earliest cliArgs config input retention
  | none => []

/-- `b.timestamp > step_pruning_point.timestamp_millis() as u64` -/
def pruningPointIsPassed (cutoff : Int) : Bool :=
  input.checkpointTimestamp.any fun timestamp => decide (cutoff % 2 ^ 64 < timestamp)

/-- The transactions step, skipped while the checkpoint has not passed its cutoff. -/
def pruneTransactionsStep (cutoff : Int) : DbM ℕ :=
  if pruningPointIsPassed input cutoff then
    if config.pruneBatchSize < 0 then statement fun _ => .error .negativeLimit
    else pruneTransactions cutoff config.pruneBatchSize.toNat input.transactions
  else
    pure 0

def transactionsTasks : List PruneTask :=
  match config.retentionTransactions with
  | some retention =>
      [input.task earliest .transactions retention (pruneTransactionsStep config input)]
  | none => []

def addressesTransactionsTasks : List PruneTask :=
  match config.retentionAddressesTransactions with
  | some retention =>
      if !cliArgs.isExcluded .txOutScriptPublicKeyAddress then
        [input.task earliest .addressesTransactions retention fun cutoff =>
          pruneAddressesTransactions cutoff config.pruneBatchSize input.addresses]
      else
        [input.task earliest .addressesTransactions retention fun cutoff =>
          pruneScriptsTransactions cutoff config.pruneBatchSize input.scripts]
  | none => []

def pruneTasks : List PruneTask :=
  blockParentTasks earliest config input ++ blocksTransactionsTasks earliest cliArgs config input ++
    blocksTasks earliest cliArgs config input ++ transactionsTasks earliest config input ++
    addressesTransactionsTasks earliest cliArgs config input

/-- `prune` with a resolved configuration. -/
def prune (db : Db) : Option ℕ × Db :=
  runTasks 0 (pruneTasks earliest cliArgs config input) db

end Run

theorem keeps_pruneRows {α κ : Type} [DecidableEq α] {key : α → Option κ}
    {deletion : Deletion Db key} {property : Db → Prop}
    (keeps : ∀ before after, property before → deletion.Leaves before after → property after)
    (batchSize : Int) (choices : ℕ → LimitChoice (α × ℕ)) :
    (pruneRows deletion batchSize choices).Keeps property :=
  fun state script holds =>
    keeps state _ holds (Deletion.leaves_deleteLoop batchSize choices state script)

/-! ## What the tasks keep -/

section Keeps

variable {earliest : Int} {cliArgs : CliArgs} {config : PruningConfig} {input : PruneInput}
  {property : Db → Prop}

/-- A property survives whatever a deletion leaves. -/
def KeptBy {α κ : Type} {key : α → Option κ} (property : Db → Prop)
    (deletion : Int → Deletion Db key) : Prop :=
  ∀ cutoff before after, property before → (deletion cutoff).Leaves before after → property after

theorem keeps_blockParentTasks (parents : KeptBy property expiredBlockParents) :
    ∀ task ∈ blockParentTasks earliest config input, ∀ cutoff,
      (task.call cutoff).Keeps property := by
  intro task taskMem cutoff
  unfold blockParentTasks at taskMem
  split at taskMem
  · cases List.mem_singleton.mp taskMem
    exact keeps_pruneRows (parents cutoff) _ _
  · contradiction

theorem keeps_blocksTransactionsTasks (ofBlocks : KeptBy property expiredBlocksTransactions)
    (ofTransactions : KeptBy property blocksTransactionsOfExpired) :
    ∀ task ∈ blocksTransactionsTasks earliest cliArgs config input, ∀ cutoff,
      (task.call cutoff).Keeps property := by
  intro task taskMem cutoff
  unfold blocksTransactionsTasks at taskMem
  split at taskMem
  · split at taskMem
    · cases List.mem_singleton.mp taskMem
      exact keeps_pruneRows (ofBlocks cutoff) _ _
    · cases List.mem_singleton.mp taskMem
      exact keeps_pruneRows (ofTransactions cutoff) _ _
  · contradiction

theorem keeps_acceptancesTasks (acceptances : KeptBy property expiredAcceptances)
    (retention : Duration) :
    ∀ task ∈ acceptancesTasks earliest cliArgs config input retention, ∀ cutoff,
      (task.call cutoff).Keeps property := by
  intro task taskMem cutoff
  unfold acceptancesTasks at taskMem
  split at taskMem
  · cases List.mem_singleton.mp taskMem
    exact keeps_pruneRows (acceptances cutoff) _ _
  · contradiction

theorem keeps_blocksTasks (blocks : KeptBy property expiredBlocks)
    (acceptances : KeptBy property expiredAcceptances) :
    ∀ task ∈ blocksTasks earliest cliArgs config input, ∀ cutoff,
      (task.call cutoff).Keeps property := by
  intro task taskMem cutoff
  unfold blocksTasks at taskMem
  split at taskMem
  · rcases List.mem_cons.mp taskMem with rfl | later
    · exact keeps_pruneRows (blocks cutoff) _ _
    · exact keeps_acceptancesTasks acceptances _ task later cutoff
  · contradiction

theorem keeps_pruneTransactions
    (chunk : ∀ choice cutoff batchSize before after rowsAffected, property before →
      pruneChunk choice cutoff batchSize before = .ok (rowsAffected, after) → property after)
    (cutoff : Int) (batchSize : ℕ) (choices : ℕ → LimitChoice Transaction) :
    (pruneTransactions cutoff batchSize choices).Keeps property := by
  have chunks (fuel : ℕ) (choices : ℕ → LimitChoice Transaction) :
      (pruneChunks cutoff batchSize fuel choices).Keeps property := by
    induction fuel generalizing choices with
    | zero => exact Session.keeps_pure 0 _
    | succ fuel ih =>
        have first : (pruneTransactionsChunk (choices 0) cutoff batchSize).Keeps property :=
          Session.keeps_statement fun before rowsAffected after holds pruned =>
            chunk (choices 0) cutoff batchSize before after rowsAffected holds pruned
        apply first.bind
        intro rowsAffected
        split
        · exact Session.keeps_pure 0 _
        · exact (ih _).bind fun total => Session.keeps_pure _ _
  exact fun state script holds => chunks _ choices state script holds

theorem keeps_transactionsTasks
    (chunk : ∀ choice cutoff batchSize before after rowsAffected, property before →
      pruneChunk choice cutoff batchSize before = .ok (rowsAffected, after) → property after) :
    ∀ task ∈ transactionsTasks earliest config input, ∀ cutoff,
      (task.call cutoff).Keeps property := by
  intro task taskMem cutoff
  unfold transactionsTasks at taskMem
  split at taskMem
  · cases List.mem_singleton.mp taskMem
    simp only [PruneInput.task, pruneTransactionsStep]
    split
    · split
      · apply Session.keeps_statement
        intro state value next _ executed
        cases executed
      · exact keeps_pruneTransactions chunk _ _ _
    · exact Session.keeps_pure 0 _
  · contradiction

theorem keeps_addressesTransactionsTasks (addresses : KeptBy property expiredAddresses)
    (scripts : KeptBy property expiredScripts) :
    ∀ task ∈ addressesTransactionsTasks earliest cliArgs config input, ∀ cutoff,
      (task.call cutoff).Keeps property := by
  intro task taskMem cutoff
  unfold addressesTransactionsTasks at taskMem
  split at taskMem
  · split at taskMem
    · cases List.mem_singleton.mp taskMem
      exact keeps_pruneRows (addresses cutoff) _ _
    · cases List.mem_singleton.mp taskMem
      exact keeps_pruneRows (scripts cutoff) _ _
  · contradiction

end Keeps

/-! ## Runs of tasks -/

/-- A task that is not run ends the run; after one that is, the next follows. -/
theorem runTasks_cons (stepErrors : ℕ) (task : PruneTask) (rest : List PruneTask) (db : Db) :
    runTasks stepErrors (task :: rest) db =
      match task.cutoff with
      | none => (none, db)
      | some cutoff =>
          if task.isShutdown then (none, db)
          else
            match Session.run (task.call cutoff) db task.script with
            | .done _ after _ => runTasks stepErrors rest after
            | .failed _ after _ => runTasks (stepErrors + 1) rest after
            | .killed after => (none, after) :=
  rfl

/-- The task is begun with this cutoff, and the run goes on with what it leaves. -/
structure PruneTask.Passes (task : PruneTask) (cutoff : Int) (before after : Db) : Prop where
  begins : task.cutoff = some cutoff
  up : task.isShutdown = false
  survives : ∀ dead, Session.run (task.call cutoff) before task.script ≠ .killed dead
  leaves : (Session.run (task.call cutoff) before task.script).state = after

theorem PruneTask.Passes.runTasks_eq {task : PruneTask} {cutoff : Int} {before after : Db}
    (passes : task.Passes cutoff before after) (stepErrors : ℕ) (rest : List PruneTask) :
    ∃ errors, runTasks stepErrors (task :: rest) before = runTasks errors rest after := by
  obtain ⟨cutoffEq, up, survives, rfl⟩ := passes
  simp only [runTasks_cons, cutoffEq, up, Bool.false_eq_true, if_false]
  cases ended : Session.run (task.call cutoff) before task.script with
  | done total after left => exact ⟨_, rfl⟩
  | failed error after left => exact ⟨_, rfl⟩
  | killed dead => exact absurd ended (survives dead)

/-- A task that is not begun or dies ends the run, and any other passes. -/
theorem runTasks_cons_cases (stepErrors : ℕ) (task : PruneTask) (rest : List PruneTask) (db : Db) :
    runTasks stepErrors (task :: rest) db = (none, db) ∨
      ∃ cutoff, task.cutoff = some cutoff ∧ task.isShutdown = false ∧
        (runTasks stepErrors (task :: rest) db =
            (none, (Session.run (task.call cutoff) db task.script).state) ∨
          task.Passes cutoff db (Session.run (task.call cutoff) db task.script).state) := by
  rw [runTasks_cons]
  cases cutoffEq : task.cutoff with
  | none => exact Or.inl rfl
  | some cutoff =>
      cases shutdown : task.isShutdown with
      | true => exact Or.inl rfl
      | false =>
          refine Or.inr ⟨cutoff, rfl, rfl, ?_⟩
          simp only [Bool.false_eq_true, if_false]
          cases ended : Session.run (task.call cutoff) db task.script with
          | done total after left =>
              exact Or.inr ⟨cutoffEq, shutdown, by simp [ended], by rw [ended]⟩
          | failed error after left =>
              exact Or.inr ⟨cutoffEq, shutdown, by simp [ended], by rw [ended]⟩
          | killed dead => exact Or.inl rfl

theorem runTasks_append (stepErrors : ℕ) (first second : List PruneTask) (db : Db) :
    runTasks stepErrors (first ++ second) db =
      match runTasks stepErrors first db with
      | (some errors, after) => runTasks errors second after
      | (none, after) => (none, after) := by
  induction first generalizing stepErrors db with
  | nil => rfl
  | cons task rest ih =>
      rw [List.cons_append, runTasks_cons, runTasks_cons]
      cases task.cutoff with
      | none => rfl
      | some cutoff =>
          cases task.isShutdown with
          | true => rfl
          | false =>
              simp only [Bool.false_eq_true, if_false]
              cases Session.run (task.call cutoff) db task.script with
              | done _ after _ => exact ih stepErrors after
              | failed _ after _ => exact ih (stepErrors + 1) after
              | killed after => rfl

/-- What every task of a run keeps, the run keeps. -/
theorem runTasks_keeps {property : Db → Prop} {tasks : List PruneTask}
    (keeps : ∀ task ∈ tasks, ∀ cutoff, task.cutoff = some cutoff →
      (task.call cutoff).Keeps property)
    (stepErrors : ℕ) {db : Db} (holds : property db) :
    property (runTasks stepErrors tasks db).2 := by
  induction tasks generalizing stepErrors db with
  | nil => exact holds
  | cons task rest ih =>
      have restKeeps := fun other otherMem => keeps other (List.mem_cons_of_mem task otherMem)
      rw [runTasks_cons]
      cases cutoffEq : task.cutoff with
      | none => exact holds
      | some cutoff =>
          have kept := keeps task List.mem_cons_self cutoff cutoffEq db task.script holds
          cases task.isShutdown with
          | true => exact holds
          | false =>
              simp only [Bool.false_eq_true, if_false]
              cases ran : Session.run (task.call cutoff) db task.script with
              | done _ after _ =>
                  rw [ran] at kept
                  exact ih restKeeps stepErrors kept
              | failed _ after _ =>
                  rw [ran] at kept
                  exact ih restKeeps (stepErrors + 1) kept
              | killed after =>
                  rw [ran] at kept
                  exact kept

theorem property_of_runTasks {property : Db → Prop} {tasks : List PruneTask} {stepErrors : ℕ}
    {db after : Db} {errors : Option ℕ} (ran : runTasks stepErrors tasks db = (errors, after))
    (keeps : ∀ task ∈ tasks, ∀ cutoff, (task.call cutoff).Keeps property) (holds : property db) :
    property after := by
  have kept := runTasks_keeps (fun task taskMem cutoff _ => keeps task taskMem cutoff) stepErrors
    holds
  rw [ran] at kept
  exact kept

theorem le_of_runTasks {tasks : List PruneTask} {stepErrors errors : ℕ} {db after : Db}
    (ran : runTasks stepErrors tasks db = (some errors, after)) : stepErrors ≤ errors := by
  induction tasks generalizing stepErrors db with
  | nil =>
      cases ran
      exact le_refl _
  | cons task rest ih =>
      rw [runTasks_cons] at ran
      split at ran
      · cases ran
      · split at ran
        · cases ran
        · split at ran
          · exact ih ran
          · have later := ih ran
            omega
          · cases ran

/-- In a run without errors every task returns. -/
theorem done_of_runTasks {task : PruneTask} {rest : List PruneTask} {db after : Db}
    (ran : runTasks 0 (task :: rest) db = (some 0, after)) :
    ∃ cutoff total middle left, task.cutoff = some cutoff ∧
      Session.run (task.call cutoff) db task.script = .done total middle left ∧
      runTasks 0 rest middle = (some 0, after) := by
  rw [runTasks_cons] at ran
  split at ran
  · cases ran
  · rename_i cutoff cutoffEq
    split at ran
    · cases ran
    · split at ran
      · rename_i total middle left executed
        exact ⟨cutoff, total, middle, left, cutoffEq, executed, ran⟩
      · have later := le_of_runTasks ran
        omega
      · cases ran

/-- A run without errors, as two of them. -/
theorem split_of_runTasks {first second : List PruneTask} {db after : Db}
    (ran : runTasks 0 (first ++ second) db = (some 0, after)) :
    ∃ middle, runTasks 0 first db = (some 0, middle) ∧
      runTasks 0 second middle = (some 0, after) := by
  rw [runTasks_append] at ran
  split at ran
  · rename_i errors middle firstRan
    have none : errors = 0 := Nat.le_zero.mp (le_of_runTasks ran)
    subst errors
    exact ⟨middle, firstRan, ran⟩
  · cases ran

end VecnoIndexer
