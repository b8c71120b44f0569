import VecnoIndexer.Checkpoint.Order
import VecnoIndexer.Startup.StartProcessing
import VecnoIndexer.UtxoImport.Unaddressed
import VecnoIndexer.VirtualChain.Restart

/-!
# What the statements of each task leave alone

Without pruning, no statement of any task deletes a row of the tables that the block
processor and the transaction processor fill.  The other tasks and the start of the process
do not touch them at all, but for the outputs an import adds.
-/

namespace VecnoIndexer

open VecnoIndexer.Sql
open VecnoIndexer.Collections

/-- No key of the tables that the two processors fill is gone. -/
structure Retains (db after : Db) : Prop where
  blocks : ∀ key, db.blocks.HasKey key → after.blocks.HasKey key
  blockParent : ∀ key, db.blockParent.HasKey key → after.blockParent.HasKey key
  transactions : ∀ key, db.transactions.HasKey key → after.transactions.HasKey key
  blocksTransactions : ∀ key, db.blocksTransactions.HasKey key →
    after.blocksTransactions.HasKey key
  inputs : ∀ key, db.transactionsInputs.HasKey key → after.transactionsInputs.HasKey key
  outputs : ∀ key, db.transactionsOutputs.HasKey key → after.transactionsOutputs.HasKey key
  addresses : ∀ key, db.addressesTransactions.HasKey key →
    after.addressesTransactions.HasKey key
  scripts : ∀ key, db.scriptsTransactions.HasKey key → after.scriptsTransactions.HasKey key

theorem SameTransactions.trans {db middle after : Db} (first : SameTransactions db middle)
    (second : SameTransactions middle after) : SameTransactions db after where
  transactions := second.transactions.trans first.transactions
  blocksTransactions := second.blocksTransactions.trans first.blocksTransactions
  inputs := second.inputs.trans first.inputs
  outputs := second.outputs.trans first.outputs
  addresses := second.addresses.trans first.addresses
  scripts := second.scripts.trans first.scripts

/-- The tables of the two processors are the same. -/
structure SameIndexed (db after : Db) : Prop extends SameTransactions db after where
  blocks : after.blocks = db.blocks
  blockParent : after.blockParent = db.blockParent
  subnetworks : after.subnetworks = db.subnetworks
  subnetworksNextId : after.subnetworksNextId = db.subnetworksNextId

theorem SameIndexed.refl (db : Db) : SameIndexed db db :=
  ⟨⟨rfl, rfl, rfl, rfl, rfl, rfl⟩, rfl, rfl, rfl, rfl⟩

/-- Nothing is to be restored. -/
theorem SameIndexed.restore {db after : Db} (same : SameIndexed db after) :
    db.restore after = after := by
  obtain ⟨⟨transactions, blocksTransactions, inputs, outputs, addresses, scripts⟩, blocks,
    blockParent, subnetworks, subnetworksNextId⟩ := same
  simp only [Db.restore, ← transactions, ← blocksTransactions, ← inputs, ← outputs, ← addresses,
    ← scripts, ← blocks, ← blockParent, ← subnetworks, ← subnetworksNextId]

namespace Retains

variable {db middle after : Db}

theorem refl (db : Db) : Retains db db :=
  ⟨fun _ => id, fun _ => id, fun _ => id, fun _ => id, fun _ => id, fun _ => id, fun _ => id,
    fun _ => id⟩

theorem trans (first : Retains db middle) (second : Retains middle after) : Retains db after where
  blocks key stored := second.blocks key (first.blocks key stored)
  blockParent key stored := second.blockParent key (first.blockParent key stored)
  transactions key stored := second.transactions key (first.transactions key stored)
  blocksTransactions key stored :=
    second.blocksTransactions key (first.blocksTransactions key stored)
  inputs key stored := second.inputs key (first.inputs key stored)
  outputs key stored := second.outputs key (first.outputs key stored)
  addresses key stored := second.addresses key (first.addresses key stored)
  scripts key stored := second.scripts key (first.scripts key stored)

theorem of_same (same : SameIndexed db after) : Retains db after where
  blocks _ := same.blocks ▸ id
  blockParent _ := same.blockParent ▸ id
  transactions _ := same.transactions ▸ id
  blocksTransactions _ := same.blocksTransactions ▸ id
  inputs _ := same.inputs ▸ id
  outputs _ := same.outputs ▸ id
  addresses _ := same.addresses ▸ id
  scripts _ := same.scripts ▸ id

/-- A transaction that is stored stays so. -/
theorem stored (retains : Retains db after) {cliArgs : CliArgs} {transaction : RpcTransaction}
    {transactionId : Hash} (stored : Stored cliArgs db transaction transactionId) :
    Stored cliArgs after transaction transactionId where
  row enabled := retains.transactions _ (stored.row enabled)
  inputs enabled position inside := retains.inputs _ (stored.inputs enabled position inside)
  outputs enabled position inside := retains.outputs _ (stored.outputs enabled position inside)
  addresses maps output isOutput verboseData hasVerbose :=
    retains.addresses _ (stored.addresses maps output isOutput verboseData hasVerbose)
  scripts maps output isOutput := retains.scripts _ (stored.scripts maps output isOutput)

theorem transactionStored (retains : Retains db after) {cliArgs : CliArgs}
    {transaction : RpcTransaction}
    (stored : IndexingWorld.TransactionStored cliArgs db transaction) :
    IndexingWorld.TransactionStored cliArgs after transaction := by
  obtain ⟨verboseData, hasVerbose, relation, rows⟩ := stored
  exact ⟨verboseData, hasVerbose, fun enabled => retains.blocksTransactions _ (relation enabled),
    retains.stored rows⟩

theorem blockStored (retains : Retains db after) {cliArgs : CliArgs} {block : RpcBlock}
    (stored : BlockStored cliArgs db block) : BlockStored cliArgs after block where
  row enabled := retains.blocks _ (stored.row enabled)
  parents enabled relation isParent :=
    retains.blockParent _ (stored.parents enabled relation isParent)

end Retains

/-! ## The block processor -/

theorem hasKey_insertAll_of_hasKey {α κ : Type} [DecidableEq κ] {key : α → Option κ}
    {table : Table key} (rows : List α) {k : κ} (stored : table.HasKey k) :
    (table.insertAll rows).HasKey k :=
  Table.hasKey_insertAll.mpr (Or.inl stored)

/-- The block processor inserts blocks and parents and deletes acceptances. -/
theorem BlockLoop.keeps_tables {property : Db → Prop}
    (blocks : ∀ db rows, property db → property { db with blocks := db.blocks.insertAll rows })
    (blockParent : ∀ db rows, property db →
      property { db with blockParent := db.blockParent.insertAll rows })
    (acceptances : ∀ db transactionsAcceptances, property db →
      property { db with transactionsAcceptances })
    (settings : Settings) (loop : BlockLoop) (input : BlockInput) :
    (loop.iterate settings input).Keeps property :=
  keeps_iterate_of_commit fun _ _ _ _ =>
    keeps_commit (fun db rows _ => blocks db rows) (fun db rows _ => blockParent db rows)
      acceptances settings _ input

/-! ## The transaction processor -/

theorem InsertStatement.Leaves.retains {insert : InsertStatement} {db after : Db}
    (leaves : InsertStatement.Leaves db after insert) : Retains db after := by
  have unchanged := Retains.refl db
  cases insert with
  | transactions rows =>
      cases leaves
      exact { unchanged with transactions := fun _ => hasKey_insertAll_of_hasKey _ }
  | inputs resolvePreviousOutpoints rows =>
      cases leaves
      exact { unchanged with inputs := fun _ => hasKey_insertAll_of_hasKey _ }
  | outputs rows =>
      cases leaves
      exact { unchanged with outputs := fun _ => hasKey_insertAll_of_hasKey _ }
  | addresses rows =>
      cases leaves
      exact { unchanged with addresses := fun _ => hasKey_insertAll_of_hasKey _ }
  | scripts rows =>
      cases leaves
      exact { unchanged with scripts := fun _ => hasKey_insertAll_of_hasKey _ }
  | blocksTransactions rows =>
      cases leaves
      exact { unchanged with blocksTransactions := fun _ => hasKey_insertAll_of_hasKey _ }
  | addressesFromInputs useTx transactionIds =>
      obtain ⟨rows, _, rfl⟩ := leaves
      exact { unchanged with addresses := fun _ => hasKey_insertAll_of_hasKey _ }
  | scriptsFromInputs useTx transactionIds =>
      obtain ⟨rows, _, rfl⟩ := leaves
      exact { unchanged with scripts := fun _ => hasKey_insertAll_of_hasKey _ }

/-- No insert statement writes `vars` or acceptances. -/
theorem InsertStatement.Leaves.spares {insert : InsertStatement} {db after : Db}
    (leaves : InsertStatement.Leaves db after insert) :
    after.vars = db.vars ∧ after.transactionsAcceptances = db.transactionsAcceptances := by
  cases insert with
  | addressesFromInputs useTx transactionIds =>
      obtain ⟨_, _, rfl⟩ := leaves
      exact ⟨rfl, rfl⟩
  | scriptsFromInputs useTx transactionIds =>
      obtain ⟨_, _, rfl⟩ := leaves
      exact ⟨rfl, rfl⟩
  | _ =>
      cases leaves
      exact ⟨rfl, rfl⟩

/-- The transaction processor executes its insert statements and numbers subnetworks. -/
theorem TransactionLoop.keeps_leaves {property : Db → Prop}
    (leaves : ∀ insert db after, InsertStatement.Leaves db after insert → property db →
      property after)
    (numbering : ∀ db numbering, property db → property (Db.withNumbering db numbering))
    (cliArgs : CliArgs) (loop : TransactionLoop) (input : TransactionsInput) :
    (loop.iterate cliArgs input).Keeps property := by
  have invariant : TransactionLoop.IterationInvariant cliArgs (fun _ => True)
      (fun _ => property) property := by
    constructor
    · exact fun _ _ => id
    · exact fun _ _ _ => id
    · intro loop forgotten transaction _
      exact Session.Keeps.ensures_self
        (TransactionLoop.keeps_receiveTransaction numbering cliArgs loop forgotten transaction)
    · intro loop input
      exact Session.Keeps.ensures_self
        (loop.keeps_insertBatch_of_leaves cliArgs input fun insert _ => leaves insert)
  exact fun db script holds =>
    (invariant.iterate loop input (fun _ _ _ _ => trivial) db script holds).1

/-- Loading the subnetworks changes nothing. -/
theorem state_transactionLoop_start (now : ℕ) (db : Db) (script : Script) :
    (Session.run (TransactionLoop.start now) db script).state = db := by
  have keeps : (TransactionLoop.start now).Keeps fun state => state = db := by
    refine Session.Keeps.bind (Session.Keeps.unwrap ?_) fun _ => Session.keeps_pure _ _
    unfold selectSubnetworks
    apply Session.keeps_statement
    rintro state _ _ same ⟨⟩
    exact same
  exact keeps db script rfl

theorem done_transactionLoop_start {now : ℕ} {db final : Db} {script rest : Script}
    {loop : TransactionLoop}
    (ran : Session.run (TransactionLoop.start now) db script = .done loop final rest) :
    ∃ results, loop = .loaded now results := by
  obtain ⟨results, _, _, _, ran⟩ := Session.done_of_run_bind ran
  cases ran
  exact ⟨results, rfl⟩

/-! ## The other tasks -/

/-- The checkpoint processor writes balances and the checkpoint only. -/
theorem CheckpointLoop.keeps_iterate {property : Db → Prop}
    (balances : ∀ db balances, property db → property { db with balances })
    (written : ∀ blockHash db, property db → property (Db.withCheckpoint db blockHash))
    (cliArgs : CliArgs) (hashOrder : Reordering (String × Int)) (loop : CheckpointLoop)
    (input : CheckpointInput) : (loop.iterate cliArgs hashOrder input).Keeps property := by
  unfold iterate
  simp only
  split
  · exact Session.keeps_pure _ _
  · exact (keeps_updateBalances balances _ _ _).bind fun _ =>
      (keeps_saveCheckpoint (written _)).attempt.bind fun _ => Session.keeps_pure _ _
  · exact Session.keeps_pure _ _

theorem sameIndexed_checkpoints (cliArgs : CliArgs) (hashOrder : Reordering (String × Int))
    (loop : CheckpointLoop) (input : CheckpointInput) (db : Db) (script : Script) :
    SameIndexed db (Session.run (loop.iterate cliArgs hashOrder input) db script).state := by
  have keeps : (loop.iterate cliArgs hashOrder input).Keeps (SameIndexed db) :=
    CheckpointLoop.keeps_iterate (fun _ _ same => { same with }) (fun _ _ same => { same with })
      cliArgs hashOrder loop input
  exact keeps db script (.refl db)

theorem sameIndexed_virtualChain (cliArgs : CliArgs) (vcp : VcpState) (input : VcpInput) (db : Db)
    (script : Script) :
    SameIndexed db (Session.run (pollVirtualChain cliArgs vcp input) db script).state := by
  have keeps : (pollVirtualChain cliArgs vcp input).Keeps (SameIndexed db) :=
    keeps_pollVirtualChain (fun _ _ same => { same with }) cliArgs vcp input
  exact keeps db script (.refl db)

/-- What the statements of the tasks write. -/
structure WriteFrame (property : Db → Prop) : Prop where
  blocks : ∀ db rows, property db → property { db with blocks := db.blocks.insertAll rows }
  blockParent : ∀ db rows, property db →
    property { db with blockParent := db.blockParent.insertAll rows }
  acceptances : ∀ db transactionsAcceptances, property db →
    property { db with transactionsAcceptances }
  leaves : ∀ insert db after, InsertStatement.Leaves db after insert → property db →
    property after
  numbering : ∀ db numbering, property db → property (Db.withNumbering db numbering)
  balances : ∀ db balances, property db → property { db with balances }
  checkpoint : ∀ blockHash db, property db → property (Db.withCheckpoint db blockHash)

theorem writeFrame_retains (start : Db) : WriteFrame (Retains start) where
  blocks _ _ holds := { holds with
    blocks := fun key stored => hasKey_insertAll_of_hasKey _ (holds.blocks key stored) }
  blockParent _ _ holds := { holds with
    blockParent := fun key stored => hasKey_insertAll_of_hasKey _ (holds.blockParent key stored) }
  acceptances _ _ holds := { holds with }
  leaves _ _ _ leaves holds := holds.trans leaves.retains
  numbering _ _ holds := { holds with }
  balances _ _ holds := { holds with }
  checkpoint _ _ holds := { holds with }

/-! ## The start of the process -/

section Start

variable {property : Db → Prop} (cliArgs : CliArgs) (env : ImportEnv)

theorem keeps_loadBlockCheckpoint (property : Db → Prop) : loadBlockCheckpoint.Keeps property := by
  have selects : ∀ key, (selectVar key).Keeps property := by
    intro key
    unfold selectVar
    apply Session.keeps_statement
    intro db value next holds executed
    split at executed
    · cases executed
      exact holds
    · contradiction
  refine (selects _).attempt.bind fun first => ?_
  cases first with
  | ok blockHash => exact Session.keeps_pure _ _
  | error _ =>
      refine (selects _).attempt.bind fun second => ?_
      cases second with
      | ok blockHash => exact Session.keeps_pure _ _
      | error _ => exact Session.keeps_pure _ _

theorem keeps_decideRebuild (property : Db → Prop) (input : StartupInput) :
    (decideRebuild cliArgs input).Keeps property := by
  unfold decideRebuild
  split
  · exact Session.keeps_pure _ _
  · refine (keeps_loadBlockCheckpoint _).bind fun saved => ?_
    cases saved with
    | none => exact Session.keeps_pure _ _
    | some lastCpStr =>
        simp only
        split <;> exact Session.keeps_pure _ _

theorem keeps_chooseCheckpoint (property : Db → Prop) (input : StartupInput)
    (utxoSetImport : Bool) :
    (chooseCheckpoint cliArgs input utxoSetImport).Keeps property := by
  unfold chooseCheckpoint
  split
  · split
    · exact Session.keeps_pure _ _
    · exact Session.keeps_die _
  · refine (keeps_loadBlockCheckpoint _).bind fun saved => ?_
    cases saved with
    | none => exact Session.keeps_pure _ _
    | some lastCpStr =>
        simp only
        split
        · exact Session.keeps_pure _ _
        · exact Session.keeps_die _

theorem sentUtxos_append (first second : List ImportRound) :
    sentUtxos (first ++ second) = sentUtxos first ++ sentUtxos second :=
  List.flatMap_append

/-- The entries that peers send during a start. -/
def StartupInput.utxos (input : StartupInput) : List Utxo :=
  sentUtxos (input.rebuildRounds ++ input.importRounds)

/-- What an import of some entries writes. -/
structure ImportFrame (cliArgs : CliArgs) (env : ImportEnv) (sent : List Utxo)
    (property : Db → Prop) : Prop where
  balances : ∀ db balances, property db → property { db with balances }
  acceptances : ∀ db transactionsAcceptances, property db →
    property { db with transactionsAcceptances }
  outputs : ∀ db pairs, pairs ⊆ sent → property db →
    property { db with
      transactionsOutputs :=
        db.transactionsOutputs.insertAll (pairs.map (Utxo.output cliArgs env)) }

namespace ImportFrame

variable {cliArgs env} {sent : List Utxo}

theorem insertUtxos (frame : ImportFrame cliArgs env sent property) {pairs : List Utxo}
    (among : pairs ⊆ sent) : (insertUtxos cliArgs env pairs).Keeps property := by
  refine (Session.Keeps.attempt ?_).bind fun _ => (Session.Keeps.attempt ?_).bind fun _ =>
    Session.keeps_pure _ _
  · apply Session.keeps_statement
    rintro db _ _ holds ⟨⟩
    exact frame.acceptances db _ holds
  · apply Session.keeps_statement
    rintro db _ _ holds ⟨⟩
    exact frame.outputs db _ among holds

theorem persistUtxosChunk (frame : ImportFrame cliArgs env sent property) {pairs : List Utxo}
    (among : pairs ⊆ sent) (allBalances : List (String × Int)) :
    (persistUtxosChunk cliArgs env pairs allBalances).Keeps property :=
  (Session.keeps_orDie _ _).bind fun _ => (frame.insertUtxos among).bind fun _ =>
    Session.keeps_pure _ _

theorem setBalanceChunks (frame : ImportFrame cliArgs env sent property)
    (pieces : List (List (String × Int))) :
    (setBalanceChunks pieces).Keeps property := by
  induction pieces with
  | nil => exact Session.keeps_pure _ _
  | cons piece rest ih =>
      refine Session.Keeps.bind (Session.keeps_statement ?_) fun _ =>
        ih.bind fun _ => Session.keeps_pure _ _
      rintro db _ _ holds ⟨⟩
      exact frame.balances db _ holds

theorem receiveAndHandle (frame : ImportFrame cliArgs env sent property) (chunkCount : ℕ)
    (deltas : List (String × Int)) {events : List P2pEvent}
    (among : events.flatMap P2pEvent.pairs ⊆ sent) :
    (receiveAndHandle cliArgs env chunkCount deltas events).Keeps property := by
  induction events generalizing chunkCount deltas with
  | nil => exact Session.keeps_pure _ _
  | cons event rest ih =>
      rw [List.flatMap_cons] at among
      have first : event.pairs ⊆ sent := fun utxo isSent => among (List.mem_append_left _ isSent)
      have ih chunkCount deltas :=
        ih chunkCount deltas fun utxo isSent => among (List.mem_append_right _ isSent)
      cases event with
      | closed => exact Session.keeps_pure _ _
      | timedOut => exact Session.keeps_pure _ _
      | message payload sendFails =>
          unfold VecnoIndexer.receiveAndHandle
          cases payload with
          | version => exact ih chunkCount deltas
          | other => exact ih chunkCount deltas
          | unexpectedPruningPoint => exact Session.keeps_pure _ _
          | requestAddresses =>
              simp only
              split
              · exact Session.keeps_pure _ _
              · exact ih chunkCount deltas
          | ping =>
              simp only
              split
              · exact Session.keeps_pure _ _
              · exact ih chunkCount deltas
          | pruningPointUtxoSetChunk pairs =>
              refine (frame.persistUtxosChunk first deltas).bind fun _ => ?_
              split
              · exact Session.keeps_pure _ _
              · exact ih _ _
          | donePruningPointUtxoSetChunks =>
              refine Session.Keeps.bind ?_ fun _ => Session.keeps_pure _ _
              unfold writeFinalBalances
              split
              · exact (frame.setBalanceChunks _).attempt.bind fun _ => Session.keeps_pure _ _
              · exact Session.keeps_pure _ _

theorem truncateBalances (frame : ImportFrame cliArgs env sent property) :
    truncateBalances.Keeps property := by
  unfold VecnoIndexer.truncateBalances
  apply Session.keeps_statement
  rintro db _ _ holds ⟨⟩
  exact frame.balances db _ holds

theorem importUtxoSet (frame : ImportFrame cliArgs env sent property) {rounds : List ImportRound}
    (among : sentUtxos rounds ⊆ sent) :
    (importUtxoSet cliArgs env rounds).Keeps property := by
  induction rounds with
  | nil => exact Session.keeps_pure _ _
  | cons round rest ih =>
      rw [sentUtxos, List.flatMap_cons] at among
      have first : round.events.flatMap P2pEvent.pairs ⊆ sent :=
        fun utxo isSent => among (List.mem_append_left _ isSent)
      have ih := ih fun utxo isSent => among (List.mem_append_right _ isSent)
      unfold VecnoIndexer.importUtxoSet
      split
      · exact Session.keeps_pure _ _
      · have truncates : (truncateForImport cliArgs).Keeps property := by
          unfold truncateForImport
          split
          · exact frame.truncateBalances.attempt.bind fun _ => Session.keeps_pure _ _
          · exact Session.keeps_pure _ _
        refine truncates.bind fun _ => ?_
        split
        · refine (frame.receiveAndHandle _ _ first).bind fun completed => ?_
          split
          · exact Session.keeps_pure _ _
          · exact ih
        · exact ih

/-- The end of a start, from a checkpoint that may be written. -/
theorem startFrom {input : StartupInput} (frame : ImportFrame cliArgs env input.utxos property)
    {previousCheckpoint : String}
    (written : ∀ db, property db → property (Db.withCheckpoint db previousCheckpoint))
    (checkpoint : Hash) (utxoSetImport : Bool) :
    (startFrom cliArgs env input previousCheckpoint checkpoint utxoSetImport).Keeps property := by
  refine (keeps_saveCheckpoint written).attempt.bind fun _ => ?_
  split
  · refine Session.Keeps.bind ?_ fun _ => Session.keeps_pure _ _
    unfold importIf
    split
    · refine frame.importUtxoSet ?_
      rw [StartupInput.utxos, sentUtxos_append]
      exact List.subset_append_right _ _
    · exact Session.keeps_pure _ _
  · exact Session.keeps_die _

/-- A start imports and writes the checkpoint, wherever it ends. -/
theorem startProcessing {input : StartupInput}
    (frame : ImportFrame cliArgs env input.utxos property)
    (written : ∀ blockHash db, property db → property (Db.withCheckpoint db blockHash)) :
    (startProcessing cliArgs env input).Keeps property := by
  refine (keeps_decideRebuild cliArgs property input).bind fun force => Session.Keeps.bind ?_
    fun utxoSetImport => (keeps_chooseCheckpoint cliArgs property input utxoSetImport).bind
      fun chosen => frame.startFrom (written _) _ _
  unfold rebuildIf
  split
  · have among : sentUtxos input.rebuildRounds ⊆ input.utxos := by
      rw [StartupInput.utxos, sentUtxos_append]
      exact List.subset_append_left _ _
    exact (frame.truncateBalances.unwrap.bind fun _ =>
      (frame.importUtxoSet among).bind fun _ =>
        (keeps_saveCheckpoint (written _)).attempt.bind fun _ => Session.keeps_pure _ _).bind
          fun _ => Session.keeps_pure _ _
  · exact Session.keeps_pure _ _

end ImportFrame

theorem importFrame_retains (sent : List Utxo) (start : Db) :
    ImportFrame cliArgs env sent (Retains start) where
  balances _ _ holds := { holds with }
  acceptances _ _ holds := { holds with }
  outputs _ _ _ holds := { holds with
    outputs := fun key stored => hasKey_insertAll_of_hasKey _ (holds.outputs key stored) }

/-- A start retains what is indexed, wherever it ends. -/
theorem keeps_retains_startProcessing (start : Db) (input : StartupInput) :
    (startProcessing cliArgs env input).Keeps (Retains start) :=
  (importFrame_retains cliArgs env _ start).startProcessing fun _ _ holds => { holds with }

end Start

end VecnoIndexer
