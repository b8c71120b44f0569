import VecnoIndexer.Prune.LiveOutputs

/-!
# How pruning depends on its chunks

A chunk takes a transaction for rejected when it has no acceptance, and it may
have lost it to an earlier chunk that found all its outputs spent.  Such a late
transaction no longer counts as a spender.  The tables after the whole pruning
are determined by the transactions that were not late, and they are those of one
chunk for all exactly if the late ones spent nothing on their own.
-/

namespace VecnoIndexer

open VecnoIndexer.Sql

/-! ## Spenders -/

/-- An input of one of the transactions references the output. -/
def Db.SpendsOutput (db : Db) (spenders : List Hash) (output : TransactionOutput) : Prop :=
  ∃ input ∈ db.transactionsInputs, input.transactionId ∈ spenders ∧ input.References output

/-- An input of one of the transactions references the transaction. -/
def Db.SpendsFrom (db : Db) (spenders : List Hash) (transactionId : Hash) : Prop :=
  ∃ input ∈ db.transactionsInputs, input.transactionId ∈ spenders ∧
    input.previousOutpointHash = some transactionId

/-- The transactions spend all outputs of a transaction, and at least reference
it. -/
def Db.FullySpent (db : Db) (spenders : List Hash) (transactionId : Hash) : Prop :=
  db.SpendsFrom spenders transactionId ∧
    ∀ output ∈ db.transactionsOutputs, output.transactionId = transactionId →
      db.SpendsOutput spenders output

instance (db : Db) (spenders : List Hash) (output : TransactionOutput) :
    Decidable (db.SpendsOutput spenders output) :=
  inferInstanceAs (Decidable (∃ input ∈ db.transactionsInputs.rows, _))

instance (db : Db) (spenders : List Hash) (transactionId : Hash) :
    Decidable (db.SpendsFrom spenders transactionId) :=
  inferInstanceAs (Decidable (∃ input ∈ db.transactionsInputs.rows, _))

instance (db : Db) (spenders : List Hash) (transactionId : Hash) :
    Decidable (db.FullySpent spenders transactionId) :=
  inferInstanceAs (Decidable (_ ∧ ∀ output ∈ db.transactionsOutputs.rows, _))

/-- The accepted transactions of a chunk that earlier spenders did not spend in
full. -/
def Db.timely (db : Db) (spenders chunk : List Hash) : List Hash :=
  chunk.filter fun id => db.accepted id && !decide (db.FullySpent spenders id)

/-- The spenders after some chunks: in each of them the accepted transactions that
are not late. -/
def Db.spendersAfter (db : Db) : List Hash → List (List Hash) → List Hash
  | spenders, [] => spenders
  | spenders, chunk :: rest => db.spendersAfter (spenders ++ db.timely spenders chunk) rest

/-- The transactions each chunk takes. -/
def expiredChunks (cutoff : Int) (batchSize : ℕ) :
    ℕ → (ℕ → LimitChoice Transaction) → Table Transaction.primaryKey → List (List Hash)
  | 0, _, _ => []
  | fuel + 1, choices, transactions =>
      let expired := (choices 0).pick batchSize (expiredRows cutoff transactions)
      if expired = [] then
        []
      else
        expired.map Transaction.transactionId ::
          expiredChunks cutoff batchSize fuel (fun n => choices (n + 1))
            (transactions.deleteWhere fun row => row ∈ expired)

section Spenders

variable {db : Db} {spenders more : List Hash} {transactionId : Hash} {output : TransactionOutput}

theorem spendsOutput_append : db.SpendsOutput (spenders ++ more) output ↔
    db.SpendsOutput spenders output ∨ db.SpendsOutput more output := by
  simp only [Db.SpendsOutput, List.mem_append, or_and_right, and_or_left, exists_or]

theorem spendsFrom_append : db.SpendsFrom (spenders ++ more) transactionId ↔
    db.SpendsFrom spenders transactionId ∨ db.SpendsFrom more transactionId := by
  simp only [Db.SpendsFrom, List.mem_append, or_and_right, and_or_left, exists_or]

theorem Db.SpendsOutput.spendsFrom (spends : db.SpendsOutput spenders output) :
    db.SpendsFrom spenders output.transactionId := by
  obtain ⟨input, stored, isSpender, references⟩ := spends
  exact ⟨input, stored, isSpender, references.1⟩

theorem Db.FullySpent.append (spent : db.FullySpent spenders transactionId) (more : List Hash) :
    db.FullySpent (spenders ++ more) transactionId :=
  ⟨spendsFrom_append.mpr (Or.inl spent.1), fun output stored outputId =>
    spendsOutput_append.mpr (Or.inl (spent.2 output stored outputId))⟩

/-- A transaction becomes fully spent when a further spender references it. -/
theorem fullySpent_append_iff : db.FullySpent (spenders ++ more) transactionId ↔
    db.FullySpent spenders transactionId ∨
      (db.SpendsFrom more transactionId ∧
        ∀ output ∈ db.transactionsOutputs, output.transactionId = transactionId →
          db.SpendsOutput (spenders ++ more) output) := by
  constructor
  · rintro ⟨spendsFrom, allSpent⟩
    by_cases further : db.SpendsFrom more transactionId
    · exact Or.inr ⟨further, allSpent⟩
    · refine Or.inl ⟨(spendsFrom_append.mp spendsFrom).resolve_right further, ?_⟩
      intro output stored outputId
      rcases spendsOutput_append.mp (allSpent output stored outputId) with earlier | later
      · exact earlier
      · exact absurd (outputId ▸ later.spendsFrom) further
  · rintro (earlier | ⟨further, allSpent⟩)
    · exact earlier.append more
    · exact ⟨spendsFrom_append.mpr (Or.inr further), allSpent⟩

end Spenders

/-! ## The tables after some chunks -/

/-- The tables of `db` after transactions `taken` were pruned from `start`, of which
`spenders` counted as accepted. -/
structure Pruned (start : Db) (taken spenders : List Hash) (db : Db) : Prop where
  mem_transactions : ∀ row, row ∈ db.transactions ↔
    row ∈ start.transactions ∧ row.transactionId ∉ taken
  mem_inputs : ∀ row, row ∈ db.transactionsInputs ↔
    row ∈ start.transactionsInputs ∧ row.transactionId ∉ taken
  mem_outputs : ∀ row, row ∈ db.transactionsOutputs ↔
    row ∈ start.transactionsOutputs ∧
      ¬ (row.transactionId ∈ taken ∧ start.accepted row.transactionId = false) ∧
      ¬ start.SpendsOutput spenders row
  mem_acceptances : ∀ row, row ∈ db.transactionsAcceptances ↔
    row ∈ start.transactionsAcceptances ∧
      ∀ transactionId, row.transactionId = some transactionId →
        ¬ start.FullySpent spenders transactionId

theorem pruned_nil (db : Db) : Pruned db [] [] db := by
  constructor <;> intro row <;> simp [Db.SpendsOutput, Db.FullySpent, Db.SpendsFrom]

section Step

variable {start db after : Db} {taken spenders : List Hash}

/-- What is still accepted. -/
theorem Pruned.accepted_eq (pruned : Pruned start taken spenders db) (transactionId : Hash) :
    db.accepted transactionId =
      (start.accepted transactionId && !decide (start.FullySpent spenders transactionId)) := by
  rw [Bool.eq_iff_iff, Bool.and_eq_true, Bool.not_eq_true', decide_eq_false_iff_not]
  simp only [accepted_iff, pruned.mem_acceptances]
  constructor
  · rintro ⟨row, ⟨stored, notSpent⟩, rowId⟩
    exact ⟨⟨row, stored, rowId⟩, notSpent transactionId rowId⟩
  · rintro ⟨⟨row, stored, rowId⟩, notSpent⟩
    refine ⟨row, ⟨stored, ?_⟩, rowId⟩
    intro other otherId
    cases rowId.symm.trans otherId
    exact notSpent

/-- The accepted transactions of the next chunk are the timely ones. -/
theorem Pruned.mem_timely (pruned : Pruned start taken spenders db) {chunk : List Hash}
    {transactionId : Hash} :
    transactionId ∈ start.timely spenders chunk ↔
      transactionId ∈ chunk ∧ db.accepted transactionId = true := by
  rw [Db.timely, List.mem_filter, pruned.accepted_eq]

/-- While an output is not spent, its transaction's acceptance is not pruned. -/
theorem Pruned.accepted_eq_of_output (pruned : Pruned start taken spenders db)
    {output : TransactionOutput} (stored : output ∈ start.transactionsOutputs)
    (unspent : ¬ start.SpendsOutput spenders output) :
    db.accepted output.transactionId = start.accepted output.transactionId := by
  have notFully : ¬ start.FullySpent spenders output.transactionId :=
    fun fully => unspent (fully.2 output stored rfl)
  simp [pruned.accepted_eq, notFully]

theorem Pruned.spending_iff (pruned : Pruned start taken spenders db) {chunk : List Hash}
    (fresh : ∀ id ∈ chunk, id ∉ taken) {input : TransactionInput} :
    db.Spending chunk input ↔
      input ∈ start.transactionsInputs ∧
        input.transactionId ∈ start.timely spenders chunk := by
  rw [Db.Spending, pruned.mem_inputs, pruned.mem_timely]
  constructor
  · rintro ⟨⟨stored, _⟩, inChunk, accepted⟩
    exact ⟨stored, inChunk, accepted⟩
  · rintro ⟨stored, inChunk, accepted⟩
    exact ⟨⟨stored, fresh _ inChunk⟩, inChunk, accepted⟩

/-- An expired transaction of the next chunk was not in an earlier one. -/
theorem Pruned.fresh (pruned : Pruned start taken spenders db) {expired : List Transaction}
    (inTable : ∀ row ∈ expired, row ∈ db.transactions) :
    ∀ id ∈ expired.map Transaction.transactionId, id ∉ taken := by
  intro id idMem
  obtain ⟨row, rowMem, rfl⟩ := List.mem_map.mp idMem
  exact ((pruned.mem_transactions row).mp (inTable row rowMem)).2

theorem Pruned.mem_transactions_chunk (pruned : Pruned start taken spenders db)
    {expired : List Transaction} (inTable : ∀ row ∈ expired, row ∈ db.transactions)
    (effect : ChunkEffect db expired after) (row : Transaction) :
    row ∈ after.transactions ↔ row ∈ start.transactions ∧
      row.transactionId ∉ taken ++ expired.map Transaction.transactionId := by
  rw [effect.mem_transactions, pruned.mem_transactions, List.mem_append, not_or]
  constructor
  · rintro ⟨⟨stored, notTaken⟩, notExpired⟩
    refine ⟨stored, notTaken, fun sameId => notExpired ?_⟩
    obtain ⟨other, otherMem, otherId⟩ := List.mem_map.mp sameId
    have rowMem := (pruned.mem_transactions row).mpr ⟨stored, notTaken⟩
    have equal : other = row := Table.eq_of_key_eq (inTable other otherMem) rowMem
      (congrArg some otherId) rfl
    exact equal ▸ otherMem
  · rintro ⟨stored, notTaken, notExpired⟩
    exact ⟨⟨stored, notTaken⟩, fun inExpired => notExpired (List.mem_map_of_mem inExpired)⟩

theorem Pruned.mem_outputs_chunk (pruned : Pruned start taken spenders db)
    {expired : List Transaction} (inTable : ∀ row ∈ expired, row ∈ db.transactions)
    (effect : ChunkEffect db expired after) (row : TransactionOutput) :
    row ∈ after.transactionsOutputs ↔ row ∈ start.transactionsOutputs ∧
      ¬ (row.transactionId ∈ taken ++ expired.map Transaction.transactionId ∧
        start.accepted row.transactionId = false) ∧
      ¬ start.SpendsOutput
        (spenders ++ start.timely spenders (expired.map Transaction.transactionId)) row := by
  have spendsOutput : (∀ input, db.Spending (expired.map Transaction.transactionId) input →
        ¬ input.References row) ↔
      ¬ start.SpendsOutput (start.timely spenders (expired.map Transaction.transactionId)) row := by
    simp only [pruned.spending_iff (pruned.fresh inTable), Db.SpendsOutput, not_exists, not_and,
      and_imp]
  rw [effect.mem_outputs, pruned.mem_outputs, spendsOutput, spendsOutput_append, List.mem_append]
  constructor
  · rintro ⟨⟨stored, notTaken, unspent⟩, notRejected, stillUnspent⟩
    rw [pruned.accepted_eq_of_output stored unspent] at notRejected
    refine ⟨stored, ?_, not_or.mpr ⟨unspent, stillUnspent⟩⟩
    rintro ⟨earlier | now, rejected⟩
    · exact notTaken ⟨earlier, rejected⟩
    · exact notRejected ⟨now, rejected⟩
  · rintro ⟨stored, notRejected, unspent⟩
    obtain ⟨unspent, stillUnspent⟩ := not_or.mp unspent
    rw [pruned.accepted_eq_of_output stored unspent]
    exact ⟨⟨stored, fun held => notRejected ⟨Or.inl held.1, held.2⟩, unspent⟩,
      fun held => notRejected ⟨Or.inr held.1, held.2⟩, stillUnspent⟩

theorem Pruned.mem_acceptances_chunk (pruned : Pruned start taken spenders db)
    {expired : List Transaction} (inTable : ∀ row ∈ expired, row ∈ db.transactions)
    (effect : ChunkEffect db expired after) (row : TransactionAcceptance) :
    row ∈ after.transactionsAcceptances ↔ row ∈ start.transactionsAcceptances ∧
      ∀ transactionId, row.transactionId = some transactionId → ¬ start.FullySpent
        (spenders ++ start.timely spenders (expired.map Transaction.transactionId))
          transactionId := by
  rw [effect.mem_acceptances, pruned.mem_acceptances, and_assoc]
  apply and_congr_right
  intro stored
  rw [← forall_and]
  apply forall_congr'
  intro transactionId
  rw [← imp_and]
  apply imp_congr_right
  intro rowId
  have accepted : start.accepted transactionId = true := accepted_iff.mpr ⟨row, stored, rowId⟩
  have spendsFrom : (∃ input, db.Spending (expired.map Transaction.transactionId) input ∧
      input.previousOutpointHash = some transactionId) ↔
      start.SpendsFrom (start.timely spenders (expired.map Transaction.transactionId))
        transactionId := by
    simp only [pruned.spending_iff (pruned.fresh inTable), Db.SpendsFrom, and_assoc]
  rw [spendsFrom, fullySpent_append_iff, not_or, not_and]
  apply and_congr_right
  intro _
  apply imp_congr_right
  intro _
  constructor
  · rintro ⟨output, outputMem, outputId⟩ allSpent
    obtain ⟨outputStored, _, unspent⟩ :=
      (pruned.mem_outputs_chunk inTable effect output).mp outputMem
    exact unspent (allSpent output outputStored outputId)
  · intro someUnspent
    push Not at someUnspent
    obtain ⟨output, outputStored, outputId, unspent⟩ := someUnspent
    refine ⟨output, (pruned.mem_outputs_chunk inTable effect output).mpr
      ⟨outputStored, ?_, unspent⟩, outputId⟩
    rintro ⟨_, rejected⟩
    rw [outputId, accepted] at rejected
    contradiction

/-- The step lemma: one chunk adds its timely transactions to the spenders. -/
theorem Pruned.chunk (pruned : Pruned start taken spenders db) {expired : List Transaction}
    (inTable : ∀ row ∈ expired, row ∈ db.transactions)
    (effect : ChunkEffect db expired after) :
    Pruned start (taken ++ expired.map Transaction.transactionId)
      (spenders ++ start.timely spenders (expired.map Transaction.transactionId)) after where
  mem_transactions := pruned.mem_transactions_chunk inTable effect
  mem_inputs row := by
    rw [effect.mem_inputs, pruned.mem_inputs, List.mem_append, not_or, and_assoc]
  mem_outputs := pruned.mem_outputs_chunk inTable effect
  mem_acceptances := pruned.mem_acceptances_chunk inTable effect

end Step

/-! ## Whole prunings -/

/-- No outpoint of an accepted input is NULL. -/
def Db.AcceptedInputsDecode (db : Db) : Prop :=
  ∀ input ∈ db.transactionsInputs, db.accepted input.transactionId = true →
    ∃ outpoint, input.outpoint = .ok outpoint

theorem expiredChunks_succ (cutoff : Int) (batchSize fuel : ℕ)
    (choices : ℕ → LimitChoice Transaction) (transactions : Table Transaction.primaryKey) :
    expiredChunks cutoff batchSize (fuel + 1) choices transactions =
      if (choices 0).pick batchSize (expiredRows cutoff transactions) = [] then []
      else ((choices 0).pick batchSize (expiredRows cutoff transactions)).map
          Transaction.transactionId ::
        expiredChunks cutoff batchSize fuel (fun n => choices (n + 1))
          (transactions.deleteWhere fun row =>
            row ∈ (choices 0).pick batchSize (expiredRows cutoff transactions)) :=
  rfl

section Whole

variable {start db : Db} {taken spenders : List Hash} {cutoff : Int} {batchSize : ℕ}

/-- A chunk succeeds when the accepted inputs decode. -/
theorem Pruned.completes_chunk (pruned : Pruned start taken spenders db)
    (decodes : start.AcceptedInputsDecode) (choice : LimitChoice Transaction) :
    ∃ rowsAffected after,
      (pruneTransactionsChunk choice cutoff batchSize).Completes db rowsAffected after ∧
      pruneChunk choice cutoff batchSize db = .ok (rowsAffected, after) := by
  have decodesHere : ∀ input ∈ db.transactionsInputs, db.accepted input.transactionId = true →
      ∃ outpoint, input.outpoint = .ok outpoint := by
    intro input stored accepted
    rw [pruned.accepted_eq, Bool.and_eq_true] at accepted
    exact decodes input ((pruned.mem_inputs input).mp stored).1 accepted.1
  obtain ⟨rowsAffected, after, executed⟩ : ∃ rowsAffected after,
      pruneChunk choice cutoff batchSize db = .ok (rowsAffected, after) :=
    exists_pruneChunk decodesHere
  exact ⟨rowsAffected, after, completes_of_executed executed, executed⟩

/-- The run lemma: the chunks take all expired transactions, and the tables are
those of the spenders that were not late. -/
theorem Pruned.completes_chunks (decodes : start.AcceptedInputsDecode) (positive : 0 < batchSize)
    {fuel : ℕ} (choices : ℕ → LimitChoice Transaction)
    (pruned : Pruned start taken spenders db) (enough : db.transactions.rows.length < fuel) :
    ∃ total after, (pruneChunks cutoff batchSize fuel choices).Completes db total after ∧
      Pruned start
        (taken ++ (expiredChunks cutoff batchSize fuel choices db.transactions).flatten)
        (start.spendersAfter spenders
          (expiredChunks cutoff batchSize fuel choices db.transactions)) after ∧
      ∀ row ∈ after.transactions, ¬ row.Expired cutoff := by
  induction fuel generalizing choices db taken spenders with
  | zero => omega
  | succ fuel ih =>
      obtain ⟨rowsAffected, middle, completes, executed⟩ :=
        pruned.completes_chunk decodes (choices 0)
      obtain ⟨effect, nothing⟩ := pruneChunk_effect executed
      have next := pruned.chunk
        (fun row picked => (mem_expiredRows.mp ((choices 0).mem_of_mem_pick picked)).1) effect
      rw [pruneChunks_succ, expiredChunks_succ]
      by_cases noRow : (choices 0).pick batchSize (expiredRows cutoff db.transactions) = []
      · rw [if_pos noRow]
        rw [noRow] at next
        refine ⟨0, middle, completes.bind ?_, ?_, ?_⟩
        · rw [if_pos (nothing.mpr noRow)]
          exact Session.completes_pure 0 middle
        · simpa [Db.timely, Db.spendersAfter] using next
        · intro row stored expired
          have stillThere := effect.mem_transactions.mp stored
          have listed := mem_expiredRows.mpr ⟨stillThere.1, expired⟩
          rw [((choices 0).pick_eq_nil_iff positive).mp noRow] at listed
          contradiction
      · have affects := mt nothing.mp noRow
        have fewer := pruneChunk_length_lt executed affects
        obtain ⟨total, after, rest, restPruned, noneLeft⟩ :=
          ih (fun n => choices (n + 1)) next (by omega)
        rw [effect.transactions_eq] at restPruned
        rw [if_neg noRow, List.flatten_cons, ← List.append_assoc]
        refine ⟨rowsAffected + total, after, completes.bind ?_, restPruned, noneLeft⟩
        rw [if_neg affects]
        exact rest.bind (Session.completes_pure _ after)

/-- The same of any run of chunks that returns. -/
theorem Pruned.of_done_chunks {fuel total : ℕ} {choices : ℕ → LimitChoice Transaction}
    {script rest : Script} {after : Db} (pruned : Pruned start taken spenders db)
    (ran : Session.run (pruneChunks cutoff batchSize fuel choices) db script =
      .done total after rest) :
    Pruned start (taken ++ (expiredChunks cutoff batchSize fuel choices db.transactions).flatten)
      (start.spendersAfter spenders
        (expiredChunks cutoff batchSize fuel choices db.transactions)) after := by
  induction fuel generalizing choices db taken spenders script total with
  | zero =>
      cases ran
      simpa [expiredChunks, Db.spendersAfter] using pruned
  | succ fuel ih =>
      rw [pruneChunks_succ] at ran
      obtain ⟨rowsAffected, middle, left, chunkRan, ran⟩ := Session.done_of_run_bind ran
      obtain ⟨effect, nothing⟩ := pruneChunk_effect (Session.executed_of_run_statement chunkRan)
      have next := pruned.chunk
        (fun row picked => (mem_expiredRows.mp ((choices 0).mem_of_mem_pick picked)).1) effect
      rw [expiredChunks_succ]
      by_cases noRow : (choices 0).pick batchSize (expiredRows cutoff db.transactions) = []
      · simp only [nothing.mpr noRow, if_true] at ran
        cases ran
        rw [noRow] at next
        rw [if_pos noRow]
        simpa [Db.timely, Db.spendersAfter] using next
      · simp only [mt nothing.mp noRow, if_false] at ran
        obtain ⟨restTotal, last, lastRest, restRan, ran⟩ := Session.done_of_run_bind ran
        cases ran
        have later := ih next restRan
        rw [effect.transactions_eq] at later
        rw [if_neg noRow, List.flatten_cons, ← List.append_assoc]
        exact later

end Whole

/-! ## Chunks against one chunk -/

/-- The four tables hold the same rows. -/
structure SamePruned (first second : Db) : Prop where
  transactions : ∀ row, row ∈ first.transactions ↔ row ∈ second.transactions
  inputs : ∀ row, row ∈ first.transactionsInputs ↔ row ∈ second.transactionsInputs
  outputs : ∀ row, row ∈ first.transactionsOutputs ↔ row ∈ second.transactionsOutputs
  acceptances : ∀ row, row ∈ first.transactionsAcceptances ↔ row ∈ second.transactionsAcceptances

/-- The expired accepted transactions. -/
def Db.expiredAccepted (db : Db) (cutoff : Int) : List Hash :=
  ((expiredRows cutoff db.transactions).map Transaction.transactionId).filter
    fun id => db.accepted id

/-- What the expired accepted transactions spend, those of them that are not late
spend as well: every output that is not of an expired rejected transaction, and
every accepted transaction without output rows. -/
structure Db.LateSpendsCovered (db : Db) (cutoff : Int) (chunks : List (List Hash)) : Prop where
  outputs : ∀ output ∈ db.transactionsOutputs,
    ¬ (output.transactionId ∈ chunks.flatten ∧ db.accepted output.transactionId = false) →
    db.SpendsOutput (db.expiredAccepted cutoff) output →
    db.SpendsOutput (db.spendersAfter [] chunks) output
  transactions : ∀ transactionId, db.accepted transactionId = true →
    (∀ output ∈ db.transactionsOutputs, output.transactionId ≠ transactionId) →
    db.SpendsFrom (db.expiredAccepted cutoff) transactionId →
    db.SpendsFrom (db.spendersAfter [] chunks) transactionId

section Compare

variable {start first second : Db} {spenders all : List Hash} {taken others : List Hash}

theorem Db.SpendsOutput.mono {output : TransactionOutput}
    (spends : start.SpendsOutput spenders output) (subset : ∀ id ∈ spenders, id ∈ all) :
    start.SpendsOutput all output := by
  obtain ⟨input, stored, isSpender, references⟩ := spends
  exact ⟨input, stored, subset _ isSpender, references⟩

theorem Db.SpendsFrom.mono {transactionId : Hash}
    (spends : start.SpendsFrom spenders transactionId) (subset : ∀ id ∈ spenders, id ∈ all) :
    start.SpendsFrom all transactionId := by
  obtain ⟨input, stored, isSpender, spendsId⟩ := spends
  exact ⟨input, stored, subset _ isSpender, spendsId⟩

/-- Where the fewer spenders spend what the more do, they fully spend the same accepted
transactions. -/
theorem fullySpent_iff_of_covered (subset : ∀ id ∈ spenders, id ∈ all)
    (outputsCovered : ∀ output ∈ start.transactionsOutputs,
      ¬ (output.transactionId ∈ taken ∧ start.accepted output.transactionId = false) →
      start.SpendsOutput all output → start.SpendsOutput spenders output)
    (transactionsCovered : ∀ transactionId, start.accepted transactionId = true →
      (∀ output ∈ start.transactionsOutputs, output.transactionId ≠ transactionId) →
      start.SpendsFrom all transactionId → start.SpendsFrom spenders transactionId)
    {transactionId : Hash} (accepted : start.accepted transactionId = true) :
    start.FullySpent spenders transactionId ↔ start.FullySpent all transactionId := by
  constructor
  · rintro ⟨spends, allSpent⟩
    exact ⟨spends.mono subset, fun output outputMem outputId =>
      (allSpent output outputMem outputId).mono subset⟩
  · rintro ⟨spends, allSpent⟩
    have covered : ∀ output ∈ start.transactionsOutputs,
        output.transactionId = transactionId → start.SpendsOutput spenders output := by
      intro output outputMem outputId
      apply outputsCovered output outputMem _ (allSpent output outputMem outputId)
      rintro ⟨_, rejected⟩
      rw [outputId, accepted] at rejected
      contradiction
    refine ⟨?_, covered⟩
    by_cases noOutput : ∀ output ∈ start.transactionsOutputs,
        output.transactionId ≠ transactionId
    · exact transactionsCovered transactionId accepted noOutput spends
    · push Not at noOutput
      obtain ⟨output, outputMem, outputId⟩ := noOutput
      exact outputId ▸ (covered output outputMem outputId).spendsFrom

/-- Two prunings of the same transactions agree exactly if the fewer spenders
spend what the more do. -/
theorem samePruned_iff (firstPruned : Pruned start taken spenders first)
    (secondPruned : Pruned start others all second) (sameTaken : ∀ id, id ∈ taken ↔ id ∈ others)
    (subset : ∀ id ∈ spenders, id ∈ all) :
    SamePruned first second ↔
      (∀ output ∈ start.transactionsOutputs,
        ¬ (output.transactionId ∈ taken ∧ start.accepted output.transactionId = false) →
        start.SpendsOutput all output → start.SpendsOutput spenders output) ∧
      (∀ transactionId, start.accepted transactionId = true →
        (∀ output ∈ start.transactionsOutputs, output.transactionId ≠ transactionId) →
        start.SpendsFrom all transactionId → start.SpendsFrom spenders transactionId) := by
  constructor
  · intro same
    constructor
    · intro output stored notRejected spent
      by_contra unspent
      have kept := (firstPruned.mem_outputs output).mpr ⟨stored, notRejected, unspent⟩
      exact ((secondPruned.mem_outputs output).mp ((same.outputs output).mp kept)).2.2 spent
    · intro transactionId accepted noOutput spends
      obtain ⟨row, stored, rowId⟩ := accepted_iff.mp accepted
      have fully : start.FullySpent all transactionId :=
        ⟨spends, fun output outputMem outputId => absurd outputId (noOutput output outputMem)⟩
      have gone : row ∉ first.transactionsAcceptances := by
        rw [same.acceptances]
        exact fun kept => ((secondPruned.mem_acceptances row).mp kept).2 _ rowId fully
      by_contra notSpent
      apply gone
      apply (firstPruned.mem_acceptances row).mpr
      refine ⟨stored, fun other otherId spent => notSpent ?_⟩
      cases rowId.symm.trans otherId
      exact spent.1
  · rintro ⟨outputsCovered, transactionsCovered⟩
    constructor
    · intro row
      rw [firstPruned.mem_transactions, secondPruned.mem_transactions, sameTaken]
    · intro row
      rw [firstPruned.mem_inputs, secondPruned.mem_inputs, sameTaken]
    · intro row
      rw [firstPruned.mem_outputs, secondPruned.mem_outputs, sameTaken]
      constructor
      · rintro ⟨stored, notRejected, unspent⟩
        rw [← sameTaken] at notRejected
        refine ⟨stored, ?_, fun spent => unspent (outputsCovered row stored notRejected spent)⟩
        rwa [← sameTaken]
      · rintro ⟨stored, notRejected, unspent⟩
        exact ⟨stored, notRejected, fun spent => unspent (spent.mono subset)⟩
    · intro row
      rw [firstPruned.mem_acceptances, secondPruned.mem_acceptances]
      apply and_congr_right
      intro stored
      apply forall_congr'
      intro transactionId
      apply imp_congr_right
      intro rowId
      have accepted : start.accepted transactionId = true := accepted_iff.mpr ⟨row, stored, rowId⟩
      exact not_congr (fullySpent_iff_of_covered subset outputsCovered transactionsCovered accepted)

theorem mem_spendersAfter {transactionId : Hash} {chunks : List (List Hash)}
    (member : transactionId ∈ start.spendersAfter spenders chunks) :
    transactionId ∈ spenders ∨
      (transactionId ∈ chunks.flatten ∧ start.accepted transactionId = true) := by
  induction chunks generalizing spenders with
  | nil => exact Or.inl member
  | cons chunk rest ih =>
      rw [List.flatten_cons, List.mem_append]
      rcases ih member with earlier | ⟨later, accepted⟩
      · rcases List.mem_append.mp earlier with before | timely
        · exact Or.inl before
        · obtain ⟨inChunk, accepted⟩ := List.mem_filter.mp timely
          rw [Bool.and_eq_true] at accepted
          exact Or.inr ⟨Or.inl inChunk, accepted.1⟩
      · exact Or.inr ⟨Or.inr later, accepted⟩

end Compare

/-- Chunks take expired transactions only. -/
theorem exists_of_mem_expiredChunks {cutoff : Int} {batchSize fuel : ℕ}
    {choices : ℕ → LimitChoice Transaction} {transactions : Table Transaction.primaryKey}
    {transactionId : Hash}
    (member : transactionId ∈ (expiredChunks cutoff batchSize fuel choices transactions).flatten) :
    ∃ row ∈ expiredRows cutoff transactions, row.transactionId = transactionId := by
  induction fuel generalizing choices transactions with
  | zero => contradiction
  | succ fuel ih =>
      rw [expiredChunks_succ] at member
      split at member
      · contradiction
      · rw [List.flatten_cons, List.mem_append] at member
        rcases member with now | later
        · obtain ⟨row, picked, rowId⟩ := List.mem_map.mp now
          exact ⟨row, (choices 0).mem_of_mem_pick picked, rowId⟩
        · obtain ⟨row, rowMem, rowId⟩ := ih later
          obtain ⟨remaining, expired⟩ := mem_expiredRows.mp rowMem
          have stored := (Table.mem_deleteWhere.mp remaining).1
          exact ⟨row, mem_expiredRows.mpr ⟨stored, expired⟩, rowId⟩

theorem timely_nil_expired (db : Db) (cutoff : Int) :
    db.timely [] ((expiredRows cutoff db.transactions).map Transaction.transactionId) =
      db.expiredAccepted cutoff := by
  unfold Db.timely Db.expiredAccepted
  apply List.filter_congr
  intro id _
  have notSpent : ¬ db.FullySpent [] id := by simp [Db.FullySpent, Db.SpendsFrom]
  simp [notSpent]

/-- Pruning in chunks ends, and leaves the tables one chunk for all leaves exactly
if the late transactions spend nothing of their own. -/
theorem pruneTransactions_eq_chunk_iff {start : Db} {cutoff : Int} {batchSize limit : ℕ}
    (decodes : start.AcceptedInputsDecode) (positive : 0 < batchSize)
    (choices : ℕ → LimitChoice Transaction) (whole : LimitChoice Transaction)
    (covers : (expiredRows cutoff start.transactions).length ≤ limit) :
    ∃ total after count single,
      (pruneTransactions cutoff batchSize choices).Completes start total after ∧
      (pruneTransactionsChunk whole cutoff limit).Completes start count single ∧
      ((SamePruned after single ∧ ∀ output ∈ after.transactionsOutputs,
          ¬ start.SpendsOutput (start.expiredAccepted cutoff) output) ↔
        start.LateSpendsCovered cutoff (expiredChunks cutoff batchSize
          (start.transactions.rows.length + 1) choices start.transactions)) := by
  obtain ⟨total, after, completes, chunked, noneLeft⟩ :=
    (pruned_nil start).completes_chunks decodes positive choices
      (Nat.lt_succ_self start.transactions.rows.length)
  obtain ⟨count, single, wholeCompletes, executed⟩ :=
    (pruned_nil start).completes_chunk decodes whole
  have effect := (pruneChunk_effect executed).1
  rw [whole.pick_eq_self covers] at effect
  have atOnce := (pruned_nil start).chunk (fun row expired => (mem_expiredRows.mp expired).1) effect
  rw [timely_nil_expired] at atOnce
  simp only [List.nil_append] at chunked atOnce
  let chunks := expiredChunks cutoff batchSize (start.transactions.rows.length + 1) choices
    start.transactions
  have sameTaken : ∀ id, id ∈ chunks.flatten ↔
      id ∈ (expiredRows cutoff start.transactions).map Transaction.transactionId := by
    intro id
    rw [List.mem_map]
    constructor
    · exact exists_of_mem_expiredChunks
    · rintro ⟨row, rowMem, rfl⟩
      obtain ⟨stored, expired⟩ := mem_expiredRows.mp rowMem
      by_contra notTaken
      exact noneLeft row ((chunked.mem_transactions row).mpr ⟨stored, notTaken⟩) expired
  have subset : ∀ id ∈ start.spendersAfter [] chunks, id ∈ start.expiredAccepted cutoff := by
    intro id isSpender
    rcases mem_spendersAfter isSpender with absent | ⟨taken, accepted⟩
    · contradiction
    · exact List.mem_filter.mpr ⟨(sameTaken id).mp taken, accepted⟩
  have compared := samePruned_iff chunked atOnce sameTaken subset
  refine ⟨total, after, count, single, completes, wholeCompletes, ?_⟩
  constructor
  · rintro ⟨same, _⟩
    obtain ⟨outputs, transactions⟩ := compared.mp same
    exact ⟨outputs, transactions⟩
  · rintro ⟨outputs, transactions⟩
    have same := compared.mpr ⟨outputs, transactions⟩
    refine ⟨same, fun output kept => ?_⟩
    exact ((atOnce.mem_outputs output).mp ((same.outputs output).mp kept)).2.2

/-! ## A chain of three transactions, the last one first -/

/-- Transaction 20 spends the output of 19, and 21 that of 20; all are accepted. -/
def spendingChainDb : Db :=
  { Db.empty with
    transactions := Table.empty.insertAll
      [⟨19, none, none, none, none, some 0⟩, ⟨20, none, none, none, none, some 1⟩,
        ⟨21, none, none, none, none, some 2⟩]
    transactionsAcceptances := Table.empty.insertAll
      [⟨some 19, some 1⟩, ⟨some 20, some 2⟩, ⟨some 21, some 3⟩]
    transactionsInputs := Table.empty.insertAll
      [⟨20, 0, some 19, some 0, none, none, some 1, none, none⟩,
        ⟨21, 0, some 20, some 0, none, none, some 2, none, none⟩]
    transactionsOutputs := Table.empty.insertAll
      [⟨19, 0, some 5, none, none, some 0⟩, ⟨20, 0, some 5, none, none, some 1⟩,
        ⟨21, 0, some 5, none, none, some 2⟩] }

/-- A spender's block time is not smaller than that of the transaction it spends. -/
def Db.SpendsForward (db : Db) : Prop :=
  ∀ input ∈ db.transactionsInputs.rows, ∀ spender ∈ db.transactions.rows,
    ∀ spent ∈ db.transactions.rows, spender.transactionId = input.transactionId →
    input.previousOutpointHash = some spent.transactionId →
    spent.blockTime.getD 0 ≤ spender.blockTime.getD 0

theorem spendingChainDb_decodes : spendingChainDb.AcceptedInputsDecode := by
  have all : ∀ input ∈ spendingChainDb.transactionsInputs.rows,
      input.previousOutpointHash ≠ none ∧ input.previousOutpointIndex ≠ none := by decide
  intro input stored _
  obtain ⟨hasHash, hasIndex⟩ := all input stored
  obtain ⟨hash, hashEq⟩ := Option.ne_none_iff_exists'.mp hasHash
  obtain ⟨index, indexEq⟩ := Option.ne_none_iff_exists'.mp hasIndex
  exact ⟨(hash, index), outpoint_eq_ok_iff.mpr ⟨hashEq, indexEq⟩⟩

/-- One transaction a chunk, and each chunk takes the row listed last. -/
def lastFirst : DbM Nat := pruneTransactions 10 1 fun _ => .last

def allAtOnce : DbM Nat := pruneTransactionsChunk .first 10 3

/-- The output of transaction 19, which 20 spent, stays behind. -/
theorem lastFirst_ne_allAtOnce :
    spendingChainDb.AcceptedInputsDecode ∧ spendingChainDb.SpendsForward ∧
      ¬ SamePruned (Session.run lastFirst spendingChainDb fun _ => .succeeds).state
        (Session.run allAtOnce spendingChainDb fun _ => .succeeds).state := by
  refine ⟨spendingChainDb_decodes, by unfold Db.SpendsForward; decide, fun same => ?_⟩
  have left : (⟨19, 0, some 5, none, none, some 0⟩ : TransactionOutput) ∈
      (Session.run lastFirst spendingChainDb fun _ => .succeeds).state.transactionsOutputs := by
    decide +kernel
  have gone : (⟨19, 0, some 5, none, none, some 0⟩ : TransactionOutput) ∉
      (Session.run allAtOnce spendingChainDb fun _ => .succeeds).state.transactionsOutputs := by
    decide +kernel
  exact gone ((same.outputs _).mp left)

theorem firstFirst_covered : spendingChainDb.LateSpendsCovered 10
    (expiredChunks 10 1 4 (fun _ => .first) spendingChainDb.transactions) := by
  constructor
  · have all : ∀ output ∈ spendingChainDb.transactionsOutputs.rows,
        spendingChainDb.SpendsOutput (spendingChainDb.expiredAccepted 10) output →
        spendingChainDb.SpendsOutput (spendingChainDb.spendersAfter []
          (expiredChunks 10 1 4 (fun _ => .first) spendingChainDb.transactions)) output := by
      decide +kernel
    exact fun output stored _ => all output stored
  · intro transactionId accepted noOutput
    have paid : ∀ row ∈ spendingChainDb.transactionsAcceptances.rows,
        ∃ output ∈ spendingChainDb.transactionsOutputs.rows,
          row.transactionId = some output.transactionId := by decide
    obtain ⟨row, stored, rowId⟩ := accepted_iff.mp accepted
    obtain ⟨output, outputMem, outputId⟩ := paid row stored
    exact absurd (Option.some.inj (outputId.symm.trans rowId)) (noOutput output outputMem)

theorem firstFirst_samePruned : ∃ total after count single,
    (pruneTransactions 10 1 fun _ => .first).Completes spendingChainDb total after ∧
    (pruneTransactionsChunk .first 10 3).Completes spendingChainDb count single ∧
    SamePruned after single := by
  obtain ⟨total, after, count, single, completes, whole, same⟩ :=
    pruneTransactions_eq_chunk_iff spendingChainDb_decodes (by decide : 0 < 1)
      (fun _ => .first) .first
      (by decide : (expiredRows 10 spendingChainDb.transactions).length ≤ 3)
  exact ⟨total, after, count, single, completes, whole, (same.mpr firstFirst_covered).1⟩

end VecnoIndexer
