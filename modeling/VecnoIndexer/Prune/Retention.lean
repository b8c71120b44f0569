import VecnoIndexer.Prune.LiveOutputs
import VecnoIndexer.Prune.Run
import VecnoIndexer.Transactions.Origins

/-!
# What a run of the pruner may delete

Each step has a cutoff of its own.  It deletes a block, a transaction or an address relation
that is behind it, the relations of a block that is, and the inputs and outputs of a transaction
that is; an output also if an accepted transaction behind the cutoff has spent it.  Whatever
becomes of the statements of a step, every other row stays.
-/

namespace VecnoIndexer

open VecnoIndexer.Sql

/-! ## Rows behind a cutoff -/

/-- The start of the run less the retention is a cutoff at which something is expired. -/
def PruneInput.Reaches (input : PruneInput) (earliest : Int) (retention : Option Duration)
    (expired : Int → Prop) : Prop :=
  ∃ duration cutoff, retention = some duration ∧
    stepPruningPoint earliest input.start duration = some cutoff ∧ expired cutoff

/-- The output is of an expired transaction that was not accepted, or spent by an expired one
that was. -/
def Db.OutputExpired (db : Db) (cutoff : Int) (output : TransactionOutput) : Prop :=
  (db.transactionExpired cutoff output.transactionId = true ∧
    db.accepted output.transactionId = false) ∨
  ∃ input ∈ db.transactionsInputs, input.References output ∧
    db.accepted input.transactionId = true ∧
    db.transactionExpired cutoff input.transactionId = true

section Expired

variable (earliest : Int) (cliArgs : CliArgs) (config : PruningConfig) (input : PruneInput)

/-- The row is behind the cutoff of the step that prunes its table. -/
def IndexedRow.Expired (db : Db) : IndexedRow → Prop
  | .block row =>
      input.Reaches earliest config.retentionBlocks fun cutoff =>
        expiredAt cutoff row.timestamp = true
  | .parent row =>
      input.Reaches earliest (config.retentionBlockParent.map fun retention =>
          min retention (config.retentionBlocks.getD durationMax)) fun cutoff =>
        db.blockExpired cutoff row.blockHash = true
  | .relation row =>
      if !cliArgs.isDisabled .blocksTable && !cliArgs.isExcluded .blockTimestamp then
        input.Reaches earliest (config.retentionBlocksTransactions.map fun retention =>
            min retention (config.retentionBlocks.getD durationMax)) fun cutoff =>
          db.blockExpired cutoff row.blockHash = true
      else
        input.Reaches earliest (config.retentionBlocksTransactions.map fun retention =>
            min retention (config.retentionTransactions.getD durationMax)) fun cutoff =>
          db.transactionExpired cutoff row.transactionId = true
  | .transaction row =>
      input.Reaches earliest config.retentionTransactions fun cutoff =>
        pruningPointIsPassed input cutoff = true ∧ expiredAt cutoff row.blockTime = true
  | .input row =>
      input.Reaches earliest config.retentionTransactions fun cutoff =>
        pruningPointIsPassed input cutoff = true ∧
          db.transactionExpired cutoff row.transactionId = true
  | .output row =>
      input.Reaches earliest config.retentionTransactions fun cutoff =>
        pruningPointIsPassed input cutoff = true ∧ db.OutputExpired cutoff row
  | .address row =>
      cliArgs.isExcluded .txOutScriptPublicKeyAddress = false ∧
        input.Reaches earliest config.retentionAddressesTransactions fun cutoff =>
          expiredAt cutoff row.blockTime = true
  | .script row =>
      cliArgs.isExcluded .txOutScriptPublicKeyAddress = true ∧
        input.Reaches earliest config.retentionAddressesTransactions fun cutoff =>
          expiredAt cutoff row.blockTime = true

end Expired

/-- Whatever becomes of the statements of the task, a row that is gone was expired. -/
def PruneTask.DeletesOnly (task : PruneTask) (expired : Db → IndexedRow → Prop) : Prop :=
  ∀ cutoff, task.cutoff = some cutoff → ∀ db script row, db.Stores row →
    (Session.run (task.call cutoff) db script).state.Stores row ∨ expired db row

/-! ## Chunks of transactions -/

theorem expired_iff {cutoff : Int} {row : Transaction} :
    row.Expired cutoff ↔ expiredAt cutoff row.blockTime = true := by
  unfold Transaction.Expired expiredAt
  cases row.blockTime <;> simp

theorem transactionExpired_of_mem {db : Db} {cutoff : Int} {row : Transaction}
    (stored : row ∈ db.transactions) (expired : row.Expired cutoff) :
    db.transactionExpired cutoff row.transactionId = true := by
  have found : db.transactions.lookup row.transactionId = some row :=
    Table.lookup_eq_some_iff.mpr ⟨stored, rfl⟩
  rw [Db.transactionExpired, found, Option.any_some]
  exact expired_iff.mp expired

/-- The databases differ in the tables of transactions only. -/
def SameButTransactions (start db : Db) : Prop :=
  ∃ transactions transactionsInputs transactionsOutputs transactionsAcceptances,
    db = { start with
      transactions, transactionsInputs, transactionsOutputs, transactionsAcceptances }

theorem sameButTransactions_of_pruneChunk {choice : LimitChoice Transaction} {cutoff : Int}
    {batchSize rowsAffected : ℕ} {db after : Db}
    (pruned : pruneChunk choice cutoff batchSize db = .ok (rowsAffected, after)) :
    SameButTransactions db after := by
  unfold pruneChunk pruneExpired at pruned
  simp only [bind, Except.bind] at pruned
  split at pruned
  · contradiction
  · rename_i result decoded
    split at decoded
    · contradiction
    · cases decoded
      cases pruned
      exact ⟨_, _, _, _, rfl⟩

/-- What is gone since the start of the step. -/
structure ShedsExpired (start : Db) (cutoff : Int) (db : Db) : Prop where
  live : KeepsLive start [cutoff] db
  others : SameButTransactions start db
  transactions : ∀ row ∈ db.transactions, row ∈ start.transactions
  inputs : ∀ row ∈ start.transactionsInputs, row ∈ db.transactionsInputs ∨
    start.transactionExpired cutoff row.transactionId = true
  outputs : ∀ row ∈ start.transactionsOutputs, row ∈ db.transactionsOutputs ∨
    start.OutputExpired cutoff row

theorem shedsExpired_refl (db : Db) (cutoff : Int) : ShedsExpired db cutoff db where
  live := keepsLive_refl db [cutoff]
  others := ⟨_, _, _, _, rfl⟩
  transactions _ stored := stored
  inputs _ := Or.inl
  outputs _ := Or.inl

section Sheds

variable {start db after : Db} {cutoff : Int}

/-- The step lemma: one chunk. -/
theorem ShedsExpired.chunk (sheds : ShedsExpired start cutoff db) {choice : LimitChoice Transaction}
    {batchSize rowsAffected : ℕ}
    (pruned : pruneChunk choice cutoff batchSize db = .ok (rowsAffected, after)) :
    ShedsExpired start cutoff after := by
  have effect := (pruneChunk_effect pruned).1
  have taken : ∀ row ∈ choice.pick batchSize (expiredRows cutoff db.transactions),
      row ∈ db.transactions ∧ row.Expired cutoff :=
    fun row picked => mem_expiredRows.mp (choice.mem_of_mem_pick picked)
  generalize choice.pick batchSize (expiredRows cutoff db.transactions) = expired at effect taken
  have expiredId : ∀ transactionId ∈ expired.map Transaction.transactionId,
      start.transactionExpired cutoff transactionId = true := by
    intro transactionId listed
    obtain ⟨row, isTaken, rfl⟩ := List.mem_map.mp listed
    obtain ⟨stored, isExpired⟩ := taken row isTaken
    exact transactionExpired_of_mem (sheds.transactions row stored) isExpired
  constructor
  · exact sheds.live.chunk List.mem_cons_self (fun row isTaken => (taken row isTaken).2) effect
  · obtain ⟨_, _, _, _, rfl⟩ := sheds.others
    obtain ⟨_, _, _, _, rfl⟩ := sameButTransactions_of_pruneChunk pruned
    exact ⟨_, _, _, _, rfl⟩
  · exact fun row stored => sheds.transactions row (effect.mem_transactions.mp stored).1
  · intro row stored
    rcases sheds.inputs row stored with before | gone
    · by_cases listed : row.transactionId ∈ expired.map Transaction.transactionId
      · exact Or.inr (expiredId _ listed)
      · exact Or.inl ((effect.mem_inputs row).mpr ⟨before, listed⟩)
    · exact Or.inr gone
  · intro row stored
    rcases sheds.outputs row stored with before | gone
    · by_contra lost
      obtain ⟨lost, kept⟩ := not_or.mp lost
      refine lost ((effect.mem_outputs row).mpr ⟨before, ?_, ?_⟩)
      · rintro ⟨listed, rejected⟩
        refine kept (Or.inl ⟨expiredId _ listed, ?_⟩)
        by_contra accepted
        rw [Bool.not_eq_false] at accepted
        exact absurd (rejected.symm.trans (sheds.live.accepted_of_output before accepted))
          (by decide)
      · rintro input ⟨inputMem, listed, accepted⟩ references
        exact kept (Or.inr ⟨input, sheds.live.inputs input inputMem, references,
          sheds.live.accepted_of_accepted accepted, expiredId _ listed⟩)
    · exact Or.inr gone

theorem shedsExpired_pruneTransactions (start : Db) (cutoff : Int) (batchSize : ℕ)
    (choices : ℕ → LimitChoice Transaction) (script : Script) :
    ShedsExpired start cutoff
      (Session.run (pruneTransactions cutoff batchSize choices) start script).state := by
  have chunks (fuel : ℕ) (choices : ℕ → LimitChoice Transaction) :
      (pruneChunks cutoff batchSize fuel choices).Keeps (ShedsExpired start cutoff) := by
    induction fuel generalizing choices with
    | zero => exact Session.keeps_pure 0 _
    | succ fuel ih =>
        have first : (pruneTransactionsChunk (choices 0) cutoff batchSize).Keeps
            (ShedsExpired start cutoff) :=
          Session.keeps_statement fun _ _ _ sheds pruned => sheds.chunk pruned
        apply first.bind
        intro rowsAffected
        split
        · exact Session.keeps_pure 0 _
        · exact (ih _).bind fun total => Session.keeps_pure _ _
  exact chunks _ choices start script (shedsExpired_refl start cutoff)

end Sheds

/-! ## The steps -/

section Tasks

variable {earliest : Int} {cliArgs : CliArgs} {config : PruningConfig} {input : PruneInput}

/-- A chunked deletion leaves the rows that do not meet its condition. -/
theorem mem_or_condition_of_thinned {α κ : Type} {key : α → Option κ} {deletion : Deletion Db key}
    {db : Db} {table : Table key}
    (thinned : Thinned (deletion.condition db) (deletion.place.get db).rows table.rows) {row : α}
    (stored : row ∈ deletion.place.get db) : row ∈ table ∨ deletion.condition db row := by
  by_cases matched : deletion.condition db row
  · exact Or.inr matched
  · exact Or.inl (thinned.mem_of_not stored matched)

/-- A step that deletes from one table. -/
theorem deletesOnly_of_deletion {α κ : Type} [DecidableEq α] {key : α → Option κ}
    {deletion : Int → Deletion Db key} {expired : Db → IndexedRow → Prop} (step : PruneStep)
    (retention : Duration) (batchSize : Int) (choices : ℕ → LimitChoice (α × ℕ))
    (kept : ∀ cutoff db table row, stepPruningPoint earliest input.start retention = some cutoff →
      Thinned ((deletion cutoff).condition db) ((deletion cutoff).place.get db).rows
        (Table.rows table) → db.Stores row →
      ((deletion cutoff).place.set table db).Stores row ∨ expired db row) :
    (input.task earliest step retention fun cutoff =>
      pruneRows (deletion cutoff) batchSize choices).DeletesOnly expired := by
  intro cutoff isCutoff db script row stored
  obtain ⟨table, left, thinned⟩ : (deletion cutoff).Leaves db
      (Session.run (pruneRows (deletion cutoff) batchSize choices) db script).state :=
    Deletion.leaves_deleteLoop batchSize choices db script
  have either := kept cutoff db table row isCutoff thinned stored
  rw [← left] at either
  exact either

theorem deletesOnly_blockParentTasks : ∀ task ∈ blockParentTasks earliest config input,
    task.DeletesOnly (IndexedRow.Expired earliest cliArgs config input) := by
  intro task taskMem
  unfold blockParentTasks at taskMem
  split at taskMem
  · rename_i retention isRetention
    cases List.mem_singleton.mp taskMem
    apply deletesOnly_of_deletion
    intro cutoff db table row isCutoff thinned stored
    cases row with
    | parent row =>
        refine (mem_or_condition_of_thinned thinned stored).imp_right fun matched => ?_
        exact ⟨_, cutoff, congrArg (Option.map _) isRetention, isCutoff, matched⟩
    | _ => exact Or.inl stored
  · contradiction

theorem deletesOnly_blocksTransactionsTasks :
    ∀ task ∈ blocksTransactionsTasks earliest cliArgs config input,
      task.DeletesOnly (IndexedRow.Expired earliest cliArgs config input) := by
  intro task taskMem
  unfold blocksTransactionsTasks at taskMem
  split at taskMem
  · rename_i retention isRetention
    split at taskMem
    · rename_i byBlocks
      cases List.mem_singleton.mp taskMem
      apply deletesOnly_of_deletion
      intro cutoff db table row isCutoff thinned stored
      cases row with
      | relation row =>
          refine (mem_or_condition_of_thinned thinned stored).imp_right fun matched => ?_
          rw [IndexedRow.Expired, if_pos byBlocks]
          exact ⟨_, cutoff, congrArg (Option.map _) isRetention, isCutoff, matched⟩
      | _ => exact Or.inl stored
    · rename_i byTransactions
      cases List.mem_singleton.mp taskMem
      apply deletesOnly_of_deletion
      intro cutoff db table row isCutoff thinned stored
      cases row with
      | relation row =>
          refine (mem_or_condition_of_thinned thinned stored).imp_right fun matched => ?_
          rw [IndexedRow.Expired, if_neg byTransactions]
          exact ⟨_, cutoff, congrArg (Option.map _) isRetention, isCutoff, matched⟩
      | _ => exact Or.inl stored
  · contradiction

/-- The step on acceptances deletes no other rows. -/
theorem deletesOnly_blocksTasks : ∀ task ∈ blocksTasks earliest cliArgs config input,
    task.DeletesOnly (IndexedRow.Expired earliest cliArgs config input) := by
  intro task taskMem
  unfold blocksTasks at taskMem
  split at taskMem
  · rename_i retention isRetention
    rcases List.mem_cons.mp taskMem with rfl | later
    · apply deletesOnly_of_deletion
      intro cutoff db table row isCutoff thinned stored
      cases row with
      | block row =>
          refine (mem_or_condition_of_thinned thinned stored).imp_right fun matched => ?_
          exact ⟨_, cutoff, isRetention, isCutoff, matched⟩
      | _ => exact Or.inl stored
    · unfold acceptancesTasks at later
      split at later
      · cases List.mem_singleton.mp later
        apply deletesOnly_of_deletion
        intro cutoff db table row _ _ stored
        cases row <;> exact Or.inl stored
      · contradiction
  · contradiction

theorem ShedsExpired.stores_or_expired {db after : Db} {cutoff : Int} {retention : Duration}
    (sheds : ShedsExpired db cutoff after)
    (isRetention : config.retentionTransactions = some retention)
    (isCutoff : stepPruningPoint earliest input.start retention = some cutoff)
    (passed : pruningPointIsPassed input cutoff = true) {row : IndexedRow}
    (stored : db.Stores row) :
    after.Stores row ∨ row.Expired earliest cliArgs config input db := by
  obtain ⟨_, _, _, _, others⟩ := sheds.others
  cases row with
  | transaction row =>
      by_cases expired : row.Expired cutoff
      · exact Or.inr ⟨retention, cutoff, isRetention, isCutoff, passed, expired_iff.mp expired⟩
      · refine Or.inl (sheds.live.unexpired row stored fun other isOther => ?_)
        rwa [List.mem_singleton.mp isOther]
  | input row =>
      exact (sheds.inputs row stored).imp_right fun expired =>
        ⟨retention, cutoff, isRetention, isCutoff, passed, expired⟩
  | output row =>
      exact (sheds.outputs row stored).imp_right fun expired =>
        ⟨retention, cutoff, isRetention, isCutoff, passed, expired⟩
  | _ =>
      rw [others]
      exact Or.inl stored

theorem deletesOnly_transactionsTasks : ∀ task ∈ transactionsTasks earliest config input,
    task.DeletesOnly (IndexedRow.Expired earliest cliArgs config input) := by
  intro task taskMem
  unfold transactionsTasks at taskMem
  split at taskMem
  · rename_i retention isRetention
    cases List.mem_singleton.mp taskMem
    intro cutoff isCutoff db script row stored
    simp only [PruneInput.task, pruneTransactionsStep]
    split
    · rename_i passed
      split
      · refine Or.inl ?_
        have keeps : (statement fun _ => .error .negativeLimit : DbM ℕ).Keeps
            fun state => state.Stores row := by
          apply Session.keeps_statement
          rintro _ _ _ _ ⟨⟩
        exact keeps db script stored
      · have sheds := shedsExpired_pruneTransactions db cutoff config.pruneBatchSize.toNat
          input.transactions script
        exact sheds.stores_or_expired isRetention isCutoff passed stored
    · exact Or.inl stored
  · contradiction

theorem deletesOnly_addressesTransactionsTasks :
    ∀ task ∈ addressesTransactionsTasks earliest cliArgs config input,
      task.DeletesOnly (IndexedRow.Expired earliest cliArgs config input) := by
  intro task taskMem
  unfold addressesTransactionsTasks at taskMem
  split at taskMem
  · rename_i retention isRetention
    split at taskMem
    · rename_i included
      cases List.mem_singleton.mp taskMem
      apply deletesOnly_of_deletion
      intro cutoff db table row isCutoff thinned stored
      cases row with
      | address row =>
          refine (mem_or_condition_of_thinned thinned stored).imp_right fun matched => ?_
          exact ⟨by simpa using included, _, cutoff, isRetention, isCutoff, matched⟩
      | _ => exact Or.inl stored
    · rename_i excluded
      cases List.mem_singleton.mp taskMem
      apply deletesOnly_of_deletion
      intro cutoff db table row isCutoff thinned stored
      cases row with
      | script row =>
          refine (mem_or_condition_of_thinned thinned stored).imp_right fun matched => ?_
          exact ⟨by simpa using excluded, _, cutoff, isRetention, isCutoff, matched⟩
      | _ => exact Or.inl stored
  · contradiction

/-- A step of a run deletes rows behind its cutoff only. -/
theorem deletesOnly_pruneTasks : ∀ task ∈ pruneTasks earliest cliArgs config input,
    task.DeletesOnly (IndexedRow.Expired earliest cliArgs config input) := by
  intro task taskMem
  simp only [pruneTasks, List.mem_append] at taskMem
  rcases taskMem with (((ofParents | ofRelations) | ofBlocks) | ofTransactions) | ofAddresses
  · exact deletesOnly_blockParentTasks task ofParents
  · exact deletesOnly_blocksTransactionsTasks task ofRelations
  · exact deletesOnly_blocksTasks task ofBlocks
  · exact deletesOnly_transactionsTasks task ofTransactions
  · exact deletesOnly_addressesTransactionsTasks task ofAddresses

end Tasks

end VecnoIndexer
