import VecnoIndexer.Balances.Unspent
import VecnoIndexer.Collections.Fallible

/-!
# Pruning transactions in chunks

`prune_transactions` deletes expired transactions chunk by chunk until a chunk
affects no row.  A chunk is one database transaction, so it takes effect in full
or not at all; an outpoint column that is NULL is a decode error and rolls it
back.  What a chunk does is stated as one effect on the four tables.
-/

namespace VecnoIndexer

open VecnoIndexer.Sql
open VecnoIndexer.Collections

/-- `t.block_time < $1`, which a NULL time does not satisfy. -/
def Transaction.Expired (cutoff : Int) (row : Transaction) : Prop :=
  match row.blockTime with
  | some blockTime => blockTime < cutoff
  | none => False

instance (cutoff : Int) : DecidablePred (Transaction.Expired cutoff) := fun row =>
  match rowTime : row.blockTime with
  | some blockTime => decidable_of_iff (blockTime < cutoff) (by simp [Transaction.Expired, rowTime])
  | none => isFalse (by simp [Transaction.Expired, rowTime])

/-- The rows `SELECT t.ctid FROM transactions t WHERE t.block_time < $1` matches. -/
def expiredRows (cutoff : Int) (transactions : Table Transaction.primaryKey) :
    List Transaction :=
  transactions.rows.filter fun row => Transaction.Expired cutoff row

/-- The outpoint of an input, decoded into columns without NULL. -/
def TransactionInput.outpoint (input : TransactionInput) : Except SqlError (Hash × Int) :=
  match input.previousOutpointHash, input.previousOutpointIndex with
  | some hash, some index => .ok (hash, index)
  | _, _ => .error .unexpectedNull

/-- `transaction_id = ANY($1)` on the acceptances. A NULL id equals none. -/
def TransactionAcceptance.InTransactions (transactionIds : List Hash)
    (row : TransactionAcceptance) : Prop :=
  ∃ transactionId ∈ transactionIds, row.transactionId = some transactionId

instance (transactionIds : List Hash) :
    DecidablePred (TransactionAcceptance.InTransactions transactionIds) :=
  fun row => List.decidableBEx (fun id => row.transactionId = some id) transactionIds

/-- What a chunk does after the expired transactions are deleted: rejected ones
lose inputs and outputs, accepted ones lose inputs and the outputs these spent,
and a transaction without outputs left loses its acceptance. -/
def pruneExpired (expiredTxids : List Hash) (db : Db) : Except SqlError (Nat × Db) := do
  -- Find rejected transactions
  let acceptedTxids := expiredTxids.filter fun id => db.accepted id
  let rejectedTxids := expiredTxids.filter fun id => !db.accepted id
  -- Delete rejected transaction inputs and outputs
  let ofRejected := fun (input : TransactionInput) => input.transactionId ∈ rejectedTxids
  let paidByRejected := fun (output : TransactionOutput) => output.transactionId ∈ rejectedTxids
  let inputs := db.transactionsInputs.deleteWhere ofRejected
  let outputs := db.transactionsOutputs.deleteWhere paidByRejected
  -- Find spent transaction outputs while deleting transaction inputs
  let ofAccepted := fun (input : TransactionInput) => input.transactionId ∈ acceptedTxids
  let spentTxOutputs ← (inputs.rows.filter ofAccepted).mapM TransactionInput.outpoint
  -- Delete spent transaction outputs
  let spent := fun (output : TransactionOutput) =>
    (output.transactionId, output.index) ∈ spentTxOutputs
  let unspentOutputs := outputs.deleteWhere spent
  -- Find fully spent transactions and delete their acceptances
  let possiblySpentTxids := (spentTxOutputs.map Prod.fst).dedup
  let unspentTxids := unspentOutputs.rows.map TransactionOutput.transactionId
  let fullySpentTxids := possiblySpentTxids.filter fun id => id ∉ unspentTxids
  let fullySpent := TransactionAcceptance.InTransactions fullySpentTxids
  let rowsAffected := db.transactionsInputs.countWhere ofRejected +
    db.transactionsOutputs.countWhere paidByRejected + spentTxOutputs.length +
    outputs.countWhere spent + db.transactionsAcceptances.countWhere fullySpent
  pure (rowsAffected,
    { db with
      transactionsInputs := inputs.deleteWhere ofAccepted
      transactionsOutputs := unspentOutputs
      transactionsAcceptances := db.transactionsAcceptances.deleteWhere fullySpent })

/-- The database transaction of one chunk; it returns the number of rows affected. -/
def pruneChunk (choice : LimitChoice Transaction) (cutoff : Int) (batchSize : ℕ) (db : Db) :
    Except SqlError (Nat × Db) := do
  -- Find & delete old transactions
  let expired := choice.pick batchSize (expiredRows cutoff db.transactions)
  let remaining := db.transactions.deleteWhere fun row => row ∈ expired
  let (rowsAffected, pruned) ← pruneExpired (expired.map Transaction.transactionId)
    { db with transactions := remaining }
  pure (expired.length + rowsAffected, pruned)

def pruneTransactionsChunk (choice : LimitChoice Transaction) (cutoff : Int) (batchSize : ℕ) :
    DbM Nat :=
  statement (pruneChunk choice cutoff batchSize)

/-- The loop, for at most `fuel` chunks, with the rows each of them takes. -/
def pruneChunks (cutoff : Int) (batchSize : ℕ) : ℕ → (ℕ → LimitChoice Transaction) → DbM Nat
  | 0, _ => pure 0
  | fuel + 1, choices => do
      let rowsAffected ← pruneTransactionsChunk (choices 0) cutoff batchSize
      if rowsAffected = 0 then
        pure 0
      else do
        let total ← pruneChunks cutoff batchSize fuel fun n => choices (n + 1)
        pure (rowsAffected + total)

/-- `prune_transactions`. Every chunk but the last deletes a transaction, so the
loop ends within the number of them. -/
def pruneTransactions (cutoff : Int) (batchSize : ℕ) (choices : ℕ → LimitChoice Transaction) :
    DbM Nat :=
  fun db script =>
    Session.run (pruneChunks cutoff batchSize (db.transactions.rows.length + 1) choices) db script

/-! ## The effect of a chunk -/

theorem outpoint_eq_ok_iff {input : TransactionInput} {hash : Hash} {index : Int} :
    input.outpoint = .ok (hash, index) ↔
      input.previousOutpointHash = some hash ∧ input.previousOutpointIndex = some index := by
  unfold TransactionInput.outpoint
  cases input.previousOutpointHash <;> cases input.previousOutpointIndex <;> simp

/-- An input of a transaction that is among the expired ones and accepted. -/
def Db.Spending (db : Db) (expiredTxids : List Hash) (input : TransactionInput) : Prop :=
  input ∈ db.transactionsInputs ∧ input.transactionId ∈ expiredTxids ∧
    db.accepted input.transactionId = true

/-- What deleting expired transactions does to the other three tables. -/
structure PruneEffect (db : Db) (expiredTxids : List Hash) (after : Db) : Prop where
  mem_inputs : ∀ row, row ∈ after.transactionsInputs ↔
    row ∈ db.transactionsInputs ∧ row.transactionId ∉ expiredTxids
  mem_outputs : ∀ row, row ∈ after.transactionsOutputs ↔
    row ∈ db.transactionsOutputs ∧
      ¬ (row.transactionId ∈ expiredTxids ∧ db.accepted row.transactionId = false) ∧
      ∀ input, db.Spending expiredTxids input → ¬ input.References row
  mem_acceptances : ∀ row, row ∈ after.transactionsAcceptances ↔
    row ∈ db.transactionsAcceptances ∧
      ∀ transactionId, row.transactionId = some transactionId →
        (∃ input, db.Spending expiredTxids input ∧
          input.previousOutpointHash = some transactionId) →
        ∃ output ∈ after.transactionsOutputs, output.transactionId = transactionId

theorem mem_spendingInputs {db : Db} {expiredTxids : List Hash} {input : TransactionInput} :
    (input ∈ (db.transactionsInputs.deleteWhere fun input =>
        input.transactionId ∈ expiredTxids.filter fun id => !db.accepted id).rows.filter
          fun input => input.transactionId ∈ expiredTxids.filter fun id => db.accepted id) ↔
      db.Spending expiredTxids input := by
  rw [List.mem_filter, ← Table.mem_def, Table.mem_deleteWhere]
  simp only [List.mem_filter, decide_eq_true_eq, Bool.not_eq_true']
  constructor
  · rintro ⟨⟨stored, _⟩, expired, accepted⟩
    exact ⟨stored, expired, accepted⟩
  · rintro ⟨stored, expired, accepted⟩
    exact ⟨⟨stored, by simp [accepted]⟩, expired, accepted⟩

theorem pruneExpired_effect {expiredTxids : List Hash} {db after : Db} {rowsAffected : Nat}
    (pruned : pruneExpired expiredTxids db = .ok (rowsAffected, after)) :
    PruneEffect db expiredTxids after := by
  unfold pruneExpired at pruned
  simp only [bind, Except.bind] at pruned
  split at pruned
  · contradiction
  · rename_i spentTxOutputs decoded
    have mem_spent : ∀ hash index, (hash, index) ∈ spentTxOutputs ↔
        ∃ input, db.Spending expiredTxids input ∧ input.previousOutpointHash = some hash ∧
          input.previousOutpointIndex = some index := by
      intro hash index
      rw [mem_of_mapM_eq_ok decoded]
      simp only [mem_spendingInputs, outpoint_eq_ok_iff]
    have decodes : ∀ input, db.Spending expiredTxids input →
        ∃ index, input.previousOutpointIndex = some index := by
      intro input spending
      obtain ⟨⟨hash, index⟩, _, outpoint⟩ :=
        exists_mem_of_mapM_eq_ok decoded (mem_spendingInputs.mpr spending)
      exact ⟨index, (outpoint_eq_ok_iff.mp outpoint).2⟩
    cases pruned
    constructor
    · intro row
      simp only [Table.mem_deleteWhere, List.mem_filter, Bool.not_eq_true']
      constructor
      · rintro ⟨⟨stored, notRejected⟩, notAccepted⟩
        refine ⟨stored, fun expired => ?_⟩
        cases accepted : db.accepted row.transactionId with
        | false => exact notRejected ⟨expired, accepted⟩
        | true => exact notAccepted ⟨expired, accepted⟩
      · rintro ⟨stored, notExpired⟩
        exact ⟨⟨stored, fun rejected => notExpired rejected.1⟩, fun held => notExpired held.1⟩
    · intro row
      simp only [Table.mem_deleteWhere, List.mem_filter, Bool.not_eq_true', mem_spent, and_assoc]
      constructor
      · rintro ⟨stored, notRejected, notSpent⟩
        exact ⟨stored, notRejected, fun input spending references =>
          notSpent ⟨input, spending, references⟩⟩
      · rintro ⟨stored, notRejected, notSpent⟩
        refine ⟨stored, notRejected, ?_⟩
        rintro ⟨input, spending, references⟩
        exact notSpent input spending references
    · intro row
      simp only [Table.mem_deleteWhere, TransactionAcceptance.InTransactions, List.mem_filter,
        List.mem_dedup, List.mem_map, decide_eq_true_eq, ← Table.mem_def]
      constructor
      · rintro ⟨stored, notFullySpent⟩
        refine ⟨stored, fun transactionId rowId spent => ?_⟩
        obtain ⟨input, spending, hashEq⟩ := spent
        obtain ⟨index, indexEq⟩ := decodes input spending
        have listed := (mem_spent transactionId index).mpr ⟨input, spending, hashEq, indexEq⟩
        by_contra noOutput
        exact notFullySpent ⟨transactionId, ⟨⟨_, listed, rfl⟩, noOutput⟩, rowId⟩
      · rintro ⟨stored, outputLeft⟩
        refine ⟨stored, ?_⟩
        rintro ⟨_, ⟨⟨⟨transactionId, index⟩, listed, rfl⟩, noOutput⟩, rowId⟩
        obtain ⟨input, spending, hashEq, _⟩ := (mem_spent transactionId index).mp listed
        exact noOutput (outputLeft transactionId rowId ⟨input, spending, hashEq⟩)

/-- Without a NULL outpoint the deletion succeeds. -/
theorem exists_pruneExpired {expiredTxids : List Hash} {db : Db}
    (decodes : ∀ input, db.Spending expiredTxids input →
      ∃ outpoint, input.outpoint = .ok outpoint) :
    ∃ rowsAffected after, pruneExpired expiredTxids db = .ok (rowsAffected, after) := by
  obtain ⟨spent, decoded⟩ := exists_mapM_eq_ok fun input inputMem =>
    decodes input (mem_spendingInputs.mp inputMem)
  unfold pruneExpired
  simp only [decoded]
  exact ⟨_, _, rfl⟩

theorem outpoint_eq_error_iff {input : TransactionInput} {error : SqlError} :
    input.outpoint = .error error ↔ error = .unexpectedNull ∧
      (input.previousOutpointHash = none ∨ input.previousOutpointIndex = none) := by
  unfold TransactionInput.outpoint
  cases input.previousOutpointHash <;> cases input.previousOutpointIndex <;> simp [eq_comm]

theorem outpoint_of_pruneExpired {expiredTxids : List Hash} {db : Db} {result : Nat × Db}
    (pruned : pruneExpired expiredTxids db = .ok result) {input : TransactionInput}
    (spending : db.Spending expiredTxids input) : ∃ outpoint, input.outpoint = .ok outpoint := by
  unfold pruneExpired at pruned
  simp only [bind, Except.bind] at pruned
  split at pruned
  · contradiction
  · rename_i spent decoded
    obtain ⟨outpoint, _, outpointEq⟩ :=
      exists_mem_of_mapM_eq_ok decoded (mem_spendingInputs.mpr spending)
    exact ⟨outpoint, outpointEq⟩

theorem null_of_pruneExpired {expiredTxids : List Hash} {db : Db} {error : SqlError}
    (failed : pruneExpired expiredTxids db = .error error) :
    ∃ input, db.Spending expiredTxids input ∧ input.outpoint = .error error := by
  unfold pruneExpired at failed
  simp only [bind, Except.bind] at failed
  split at failed
  · rename_i other decoded
    cases failed
    obtain ⟨input, isSpending, outpointEq⟩ := exists_of_mapM_eq_error decoded
    exact ⟨input, mem_spendingInputs.mp isSpending, outpointEq⟩
  · contradiction

/-- The deletion fails exactly at a NULL outpoint. -/
theorem pruneExpired_eq_error_iff {expiredTxids : List Hash} {db : Db} {error : SqlError} :
    pruneExpired expiredTxids db = .error error ↔
      ∃ input, db.Spending expiredTxids input ∧ input.outpoint = .error error := by
  refine ⟨null_of_pruneExpired, ?_⟩
  rintro ⟨input, spending, outpointEq⟩
  cases pruned : pruneExpired expiredTxids db with
  | ok result =>
      obtain ⟨outpoint, decoded⟩ := outpoint_of_pruneExpired pruned spending
      rw [decoded] at outpointEq
      contradiction
  | error other =>
      obtain ⟨_, _, otherEq⟩ := null_of_pruneExpired pruned
      rw [(outpoint_eq_error_iff.mp otherEq).1, (outpoint_eq_error_iff.mp outpointEq).1]

theorem pruneExpired_transactions {expiredTxids : List Hash} {db after : Db} {rowsAffected : Nat}
    (pruned : pruneExpired expiredTxids db = .ok (rowsAffected, after)) :
    after.transactions = db.transactions := by
  unfold pruneExpired at pruned
  simp only [bind, Except.bind] at pruned
  split at pruned
  · contradiction
  · cases pruned
    rfl

theorem pruneExpired_nil (db : Db) : ∃ after, pruneExpired [] db = .ok (0, after) := by
  simp [pruneExpired, Table.countWhere, TransactionAcceptance.InTransactions, bind, Except.bind,
    pure, Except.pure]

/-- What a chunk does to all four tables. -/
structure ChunkEffect (db : Db) (expired : List Transaction) (after : Db) : Prop extends
    PruneEffect db (expired.map Transaction.transactionId) after where
  transactions_eq : after.transactions = db.transactions.deleteWhere fun row => row ∈ expired

theorem ChunkEffect.mem_transactions {db after : Db} {expired : List Transaction}
    (effect : ChunkEffect db expired after) {row : Transaction} :
    row ∈ after.transactions ↔ row ∈ db.transactions ∧ row ∉ expired := by
  rw [effect.transactions_eq, Table.mem_deleteWhere]

section Chunk

variable {choice : LimitChoice Transaction} {cutoff : Int} {batchSize : ℕ} {db after : Db}
  {rowsAffected : Nat}

theorem mem_expiredRows {transactions : Table Transaction.primaryKey} {row : Transaction} :
    row ∈ expiredRows cutoff transactions ↔ row ∈ transactions ∧ row.Expired cutoff := by
  rw [expiredRows, List.mem_filter, decide_eq_true_eq, Table.mem_def]

/-- A chunk that succeeds prunes what it took, and affects no row only if it took
none. -/
theorem pruneChunk_effect
    (pruned : pruneChunk choice cutoff batchSize db = .ok (rowsAffected, after)) :
    ChunkEffect db (choice.pick batchSize (expiredRows cutoff db.transactions)) after ∧
      (rowsAffected = 0 ↔
        choice.pick batchSize (expiredRows cutoff db.transactions) = []) := by
  unfold pruneChunk at pruned
  simp only [bind, Except.bind] at pruned
  split at pruned
  · contradiction
  · rename_i result ranExpired
    obtain ⟨affected, final⟩ := result
    cases pruned
    have effect := pruneExpired_effect ranExpired
    have transactions := pruneExpired_transactions ranExpired
    constructor
    · exact {
        mem_inputs := effect.mem_inputs
        mem_outputs := effect.mem_outputs
        mem_acceptances := effect.mem_acceptances
        transactions_eq := transactions }
    · constructor
      · intro zero
        apply List.length_eq_zero_iff.mp
        exact Nat.eq_zero_of_add_eq_zero_right zero
      · intro noRow
        obtain ⟨_, ranNil⟩ := pruneExpired_nil
          { db with transactions := db.transactions.deleteWhere fun row =>
              row ∈ ([] : List Transaction) }
        rw [noRow, List.map_nil, ranNil] at ranExpired
        cases ranExpired
        rw [noRow]
        rfl

theorem exists_pruneChunk
    (decodes : ∀ input ∈ db.transactionsInputs, db.accepted input.transactionId = true →
      ∃ outpoint, input.outpoint = .ok outpoint) :
    ∃ rowsAffected after, pruneChunk choice cutoff batchSize db = .ok (rowsAffected, after) := by
  let expired := choice.pick batchSize (expiredRows cutoff db.transactions)
  let remaining := db.transactions.deleteWhere fun row => row ∈ expired
  obtain ⟨rowsAffected, after, pruned⟩ : ∃ rowsAffected after,
      pruneExpired (expired.map Transaction.transactionId)
        { db with transactions := remaining } = .ok (rowsAffected, after) :=
    exists_pruneExpired fun input spending => decodes input spending.1 spending.2.2
  refine ⟨expired.length + rowsAffected, after, ?_⟩
  unfold pruneChunk
  simp only [expired, remaining] at pruned
  simp only [pruned]
  rfl

/-- A chunk fails exactly if it deletes a NULL outpoint of an accepted transaction it took. -/
theorem pruneChunk_eq_error_iff {error : SqlError} :
    pruneChunk choice cutoff batchSize db = .error error ↔
      ∃ input ∈ db.transactionsInputs, db.accepted input.transactionId = true ∧
        input.outpoint = .error error ∧
        ∃ row ∈ choice.pick batchSize (expiredRows cutoff db.transactions),
          row.transactionId = input.transactionId := by
  let expired := choice.pick batchSize (expiredRows cutoff db.transactions)
  let remaining := db.transactions.deleteWhere fun row => row ∈ expired
  have sameError : pruneChunk choice cutoff batchSize db = .error error ↔
      pruneExpired (expired.map Transaction.transactionId) { db with transactions := remaining } =
        .error error := by
    unfold pruneChunk
    simp only [expired, remaining]
    cases pruneExpired _ _ with
    | ok result => exact iff_of_false nofun nofun
    | error other => exact Iff.rfl
  rw [sameError, pruneExpired_eq_error_iff]
  constructor
  · rintro ⟨input, ⟨stored, isExpired, accepted⟩, outpointEq⟩
    obtain ⟨row, picked, sameId⟩ := List.mem_map.mp isExpired
    exact ⟨input, stored, accepted, outpointEq, row, picked, sameId⟩
  · rintro ⟨input, stored, accepted, outpointEq, row, picked, sameId⟩
    exact ⟨input, ⟨stored, List.mem_map.mpr ⟨row, picked, sameId⟩, accepted⟩, outpointEq⟩

/-- A chunk that affects rows deletes a transaction. -/
theorem pruneChunk_length_lt
    (pruned : pruneChunk choice cutoff batchSize db = .ok (rowsAffected, after))
    (affects : rowsAffected ≠ 0) :
    after.transactions.rows.length < db.transactions.rows.length := by
  obtain ⟨effect, nothing⟩ := pruneChunk_effect pruned
  obtain ⟨row, picked⟩ := List.exists_mem_of_ne_nil _ (mt nothing.mpr affects)
  rw [effect.transactions_eq]
  apply List.length_filter_lt_length_iff_exists.mpr
  refine ⟨row, (mem_expiredRows.mp (choice.mem_of_mem_pick picked)).1, ?_⟩
  simp [picked]

end Chunk

/-! ## The end of the loop -/

theorem pruneChunks_succ (cutoff : Int) (batchSize fuel : ℕ)
    (choices : ℕ → LimitChoice Transaction) :
    pruneChunks cutoff batchSize (fuel + 1) choices = (do
      let rowsAffected ← pruneTransactionsChunk (choices 0) cutoff batchSize
      if rowsAffected = 0 then
        pure 0
      else do
        let total ← pruneChunks cutoff batchSize fuel fun n => choices (n + 1)
        pure (rowsAffected + total)) :=
  rfl

/-- The bound on the number of chunks is never reached. -/
theorem run_pruneChunks_succ {cutoff : Int} {batchSize fuel : ℕ}
    {choices : ℕ → LimitChoice Transaction} {db : Db} (script : Script)
    (enough : db.transactions.rows.length < fuel) :
    Session.run (pruneChunks cutoff batchSize (fuel + 1) choices) db script =
      Session.run (pruneChunks cutoff batchSize fuel choices) db script := by
  induction fuel generalizing choices db script with
  | zero => omega
  | succ fuel ih =>
      rw [pruneChunks_succ cutoff batchSize (fuel + 1) choices,
        pruneChunks_succ cutoff batchSize fuel choices, Session.run_bind, Session.run_bind]
      cases ran : Session.run (pruneTransactionsChunk (choices 0) cutoff batchSize) db script with
      | failed error state rest => rfl
      | killed state => rfl
      | done rowsAffected after rest =>
          by_cases nothing : rowsAffected = 0
          · simp only [nothing, if_true]
          · have pruned := Session.executed_of_run_statement ran
            have fewer := pruneChunk_length_lt pruned nothing
            simp only [nothing, if_false]
            rw [Session.run_bind, Session.run_bind, ih rest (by omega)]

/-- Every larger bound gives the same run. -/
theorem run_pruneTransactions {cutoff : Int} {batchSize fuel : ℕ}
    {choices : ℕ → LimitChoice Transaction} {db : Db} (script : Script)
    (enough : db.transactions.rows.length < fuel) :
    Session.run (pruneTransactions cutoff batchSize choices) db script =
      Session.run (pruneChunks cutoff batchSize fuel choices) db script := by
  induction fuel, enough using Nat.le_induction with
  | base => rfl
  | succ fuel enough ih => rw [ih, run_pruneChunks_succ script enough]

end VecnoIndexer
