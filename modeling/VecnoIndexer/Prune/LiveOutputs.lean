import VecnoIndexer.Prune.Chunk
import VecnoIndexer.Transition.Run

/-!
# Pruning keeps unspent outputs

Whatever rows the chunks take, in whatever order, and wherever a run is cut off:
an output that was unspent is still there, a transaction that lost its
acceptance has no output left, and no transaction is deleted before its time.
A transaction that still has an output keeps its acceptance, so a later chunk
does not take it for a rejected one.
-/

namespace VecnoIndexer

open VecnoIndexer.Sql
open VecnoIndexer.Transition

/-- The output's transaction is accepted and no input of an accepted transaction
references it. -/
structure Db.UnspentOutput (db : Db) (output : TransactionOutput) : Prop where
  stored : output ∈ db.transactionsOutputs
  accepted : db.accepted output.transactionId = true
  unreferenced : ∀ input ∈ db.transactionsInputs, db.accepted input.transactionId = true →
    ¬ input.References output

theorem accepted_iff {db : Db} {transactionId : Hash} :
    db.accepted transactionId = true ↔
      ∃ row ∈ db.transactionsAcceptances, row.transactionId = some transactionId := by
  rw [Db.accepted, Option.isSome_iff_exists]
  simp only [Table.lookup_eq_some_iff, TransactionAcceptance.uniqueKey]

/-- What pruning since `start` with certain cutoffs keeps. -/
structure KeepsLive (start : Db) (cutoffs : List Int) (db : Db) : Prop where
  inputs : ∀ row ∈ db.transactionsInputs, row ∈ start.transactionsInputs
  outputs : ∀ row ∈ db.transactionsOutputs, row ∈ start.transactionsOutputs
  acceptances : ∀ row ∈ db.transactionsAcceptances, row ∈ start.transactionsAcceptances
  live : ∀ output, start.UnspentOutput output → output ∈ db.transactionsOutputs
  settled : ∀ row ∈ start.transactionsAcceptances, row ∉ db.transactionsAcceptances →
    ∃ transactionId, row.transactionId = some transactionId ∧
      ∀ output ∈ db.transactionsOutputs, output.transactionId ≠ transactionId
  unexpired : ∀ row ∈ start.transactions, (∀ cutoff ∈ cutoffs, ¬ row.Expired cutoff) →
    row ∈ db.transactions

theorem keepsLive_refl (db : Db) (cutoffs : List Int) : KeepsLive db cutoffs db where
  inputs _ stored := stored
  outputs _ stored := stored
  acceptances _ stored := stored
  live _ unspent := unspent.stored
  settled _ stored notStored := absurd stored notStored
  unexpired _ stored _ := stored

section Keeps

variable {start db after : Db} {cutoffs : List Int}

theorem KeepsLive.accepted_of_accepted (keeps : KeepsLive start cutoffs db) {transactionId : Hash}
    (accepted : db.accepted transactionId = true) : start.accepted transactionId = true := by
  obtain ⟨row, stored, rowId⟩ := accepted_iff.mp accepted
  exact accepted_iff.mpr ⟨row, keeps.acceptances row stored, rowId⟩

/-- A transaction with an output left is still accepted. -/
theorem KeepsLive.accepted_of_output (keeps : KeepsLive start cutoffs db)
    {output : TransactionOutput} (stored : output ∈ db.transactionsOutputs)
    (accepted : start.accepted output.transactionId = true) :
    db.accepted output.transactionId = true := by
  obtain ⟨row, rowMem, rowId⟩ := accepted_iff.mp accepted
  apply accepted_iff.mpr
  refine ⟨row, ?_, rowId⟩
  by_contra lost
  obtain ⟨transactionId, otherId, noOutput⟩ := keeps.settled row rowMem lost
  exact noOutput output stored (Option.some.inj (rowId.symm.trans otherId))

/-- The step lemma: one chunk. -/
theorem KeepsLive.chunk (keeps : KeepsLive start cutoffs db) {expired : List Transaction}
    {cutoff : Int} (used : cutoff ∈ cutoffs) (taken : ∀ row ∈ expired, row.Expired cutoff)
    (effect : ChunkEffect db expired after) : KeepsLive start cutoffs after where
  inputs row stored := keeps.inputs row ((effect.mem_inputs row).mp stored).1
  outputs row stored := keeps.outputs row ((effect.mem_outputs row).mp stored).1
  acceptances row stored := keeps.acceptances row ((effect.mem_acceptances row).mp stored).1
  live output unspent := by
    have stored := keeps.live output unspent
    apply (effect.mem_outputs output).mpr
    refine ⟨stored, ?_, ?_⟩
    · rintro ⟨_, rejected⟩
      rw [keeps.accepted_of_output stored unspent.accepted] at rejected
      contradiction
    · rintro input ⟨inputMem, _, accepted⟩
      exact unspent.unreferenced input (keeps.inputs input inputMem)
        (keeps.accepted_of_accepted accepted)
  settled row stored lost := by
    by_cases before : row ∈ db.transactionsAcceptances
    · have deleted := mt (effect.mem_acceptances row).mpr lost
      push Not at deleted
      obtain ⟨transactionId, rowId, _, noOutput⟩ := deleted before
      exact ⟨transactionId, rowId, noOutput⟩
    · obtain ⟨transactionId, rowId, noOutput⟩ := keeps.settled row stored before
      refine ⟨transactionId, rowId, fun output outputMem => ?_⟩
      exact noOutput output ((effect.mem_outputs output).mp outputMem).1
  unexpired row stored notExpired := by
    apply effect.mem_transactions.mpr
    exact ⟨keeps.unexpired row stored notExpired,
      fun inChunk => notExpired cutoff used (taken row inChunk)⟩

theorem keeps_pruneTransactionsChunk {cutoff : Int} (used : cutoff ∈ cutoffs)
    (choice : LimitChoice Transaction) (batchSize : ℕ) :
    (pruneTransactionsChunk choice cutoff batchSize).Keeps (KeepsLive start cutoffs) := by
  apply Session.keeps_statement
  intro state rowsAffected next keeps pruned
  apply keeps.chunk used _ (pruneChunk_effect pruned).1
  exact fun row picked => (mem_expiredRows.mp (choice.mem_of_mem_pick picked)).2

/-- The induction over the chunks of a run. -/
theorem keeps_pruneChunks {cutoff : Int} (used : cutoff ∈ cutoffs) (batchSize fuel : ℕ)
    (choices : ℕ → LimitChoice Transaction) :
    (pruneChunks cutoff batchSize fuel choices).Keeps (KeepsLive start cutoffs) := by
  induction fuel generalizing choices with
  | zero => exact Session.keeps_pure 0 _
  | succ fuel ih =>
      apply (keeps_pruneTransactionsChunk used (choices 0) batchSize).bind
      intro rowsAffected
      split
      · exact Session.keeps_pure 0 _
      · exact (ih _).bind fun total => Session.keeps_pure _ _

end Keeps

/-- One call of `prune_transactions` and what happens to its chunks. -/
structure PruneRun where
  cutoff : Int
  batchSize : ℕ
  choices : ℕ → LimitChoice Transaction
  script : Script

/-- The database a call leaves, however it ends. -/
def PruneRun.apply (db : Db) (run : PruneRun) : Db :=
  (Session.run (pruneTransactions run.cutoff run.batchSize run.choices) db run.script).state

/-- No run of prunings loses a live output, an acceptance that is still needed, or
a transaction before its time. -/
theorem liveOutputs_of_run (db : Db) (runs : List PruneRun) :
    (∀ output, db.UnspentOutput output →
      output ∈ (runFrom PruneRun.apply db runs).transactionsOutputs) ∧
    (∀ row ∈ db.transactionsAcceptances,
      row ∉ (runFrom PruneRun.apply db runs).transactionsAcceptances →
      ∃ transactionId, row.transactionId = some transactionId ∧
        ∀ output ∈ (runFrom PruneRun.apply db runs).transactionsOutputs,
          output.transactionId ≠ transactionId) ∧
    (∀ row ∈ db.transactions, (∀ run ∈ runs, ¬ row.Expired run.cutoff) →
      row ∈ (runFrom PruneRun.apply db runs).transactions) := by
  let cutoffs := runs.map PruneRun.cutoff
  have preserved : ∀ (middle : Db) (run : PruneRun), KeepsLive db cutoffs middle →
      run.cutoff ∈ cutoffs → KeepsLive db cutoffs (PruneRun.apply middle run) :=
    fun middle run keeps used => keeps_pruneChunks used _ _ _ middle run.script keeps
  have keeps : KeepsLive db cutoffs (runFrom PruneRun.apply db runs) := by
    apply invariant_of_along preserved (keepsLive_refl db cutoffs)
    apply along_of_forall db
    exact fun run runMem => List.mem_map.mpr ⟨run, runMem, rfl⟩
  refine ⟨keeps.live, keeps.settled, fun row stored notExpired => ?_⟩
  apply keeps.unexpired row stored
  intro cutoff used
  obtain ⟨run, runMem, rfl⟩ := List.mem_map.mp used
  exact notExpired run runMem

end VecnoIndexer
