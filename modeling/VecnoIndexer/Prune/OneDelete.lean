import VecnoIndexer.Prune.Run

/-!
# Pruning in chunks as one deletion

Six of the pruning functions delete in chunks the rows that a subselect returns.  A row
joins at most one block or transaction, so the subselect lists it once; a chunk does not
change which of the others are listed.  In chunks of any size the rows that match at the
start are deleted and counted.
-/

namespace VecnoIndexer

open VecnoIndexer.Sql

/-! ## The subselects -/

section Subselects

variable (cutoff : Int)

/-- `FROM block_parent bp JOIN blocks b ON bp.block_hash = b.hash WHERE b.timestamp < $1` -/
def selectExpiredBlockParents (db : Db) : List (BlockParent × ℕ) :=
  db.blockParent.joined db.blocks (fun parent block => parent.blockHash == block.hash)
    fun block => expiredAt cutoff block.timestamp

/-- `FROM blocks_transactions bt JOIN blocks b ON bt.block_hash = b.hash WHERE b.timestamp < $1` -/
def selectBlocksTransactionsOfBlocks (db : Db) : List (BlockTransaction × ℕ) :=
  db.blocksTransactions.joined db.blocks (fun row block => row.blockHash == block.hash)
    fun block => expiredAt cutoff block.timestamp

/-- `FROM blocks_transactions bt JOIN transactions t ON bt.transaction_id = t.transaction_id
WHERE t.block_time < $1` -/
def selectBlocksTransactionsOfTransactions (db : Db) : List (BlockTransaction × ℕ) :=
  db.blocksTransactions.joined db.transactions
    (fun row transaction => row.transactionId == transaction.transactionId)
    fun transaction => expiredAt cutoff transaction.blockTime

/-- `FROM blocks b WHERE b.timestamp < $1` -/
def selectExpiredBlocks (db : Db) : List (Block × ℕ) :=
  db.blocks.located.filter fun block => expiredAt cutoff block.1.timestamp

/-- `FROM addresses_transactions a WHERE a.block_time < $1` -/
def selectExpiredAddresses (db : Db) : List (AddressTransaction × ℕ) :=
  db.addressesTransactions.located.filter fun row => expiredAt cutoff row.1.blockTime

/-- `FROM scripts_transactions s WHERE s.block_time < $1` -/
def selectExpiredScripts (db : Db) : List (ScriptTransaction × ℕ) :=
  db.scriptsTransactions.located.filter fun row => expiredAt cutoff row.1.blockTime

end Subselects

section Matching

variable {cutoff : Int}

theorem beq_block_iff (hash : Hash) (block : Block) :
    (hash == block.hash) = decide (Block.primaryKey block = some hash) := by
  rw [beq_eq_decide]
  exact decide_eq_decide.mpr (by rw [Block.primaryKey, Option.some.injEq, eq_comm])

theorem beq_transaction_iff (transactionId : Hash) (transaction : Transaction) :
    (transactionId == transaction.transactionId) =
      decide (Transaction.primaryKey transaction = some transactionId) := by
  rw [beq_eq_decide]
  exact decide_eq_decide.mpr (by rw [Transaction.primaryKey, Option.some.injEq, eq_comm])

theorem matching_eq_filter {α κ : Type} {key : α → Option κ} (deletion : Deletion Db key)
    (db : Db) (condition : α → Bool)
    (same : ∀ row, deletion.condition db row ↔ condition row = true) :
    deletion.matching db =
      (deletion.place.get db).located.filter fun row => condition row.1 := by
  rw [Deletion.matching]
  apply List.filter_congr
  intro row _
  rw [Bool.decide_congr (same row.1), Bool.decide_eq_true]

theorem matching_expiredBlockParents (db : Db) :
    (expiredBlockParents cutoff).matching db = selectExpiredBlockParents cutoff db := by
  rw [selectExpiredBlockParents, Table.joined_eq_filter db.blockParent db.blocks
    BlockParent.blockHash fun parent => beq_block_iff parent.blockHash]
  exact matching_eq_filter (expiredBlockParents cutoff) db
    (fun parent => db.blockExpired cutoff parent.blockHash) fun _ => Iff.rfl

theorem matching_expiredBlocksTransactions (db : Db) :
    (expiredBlocksTransactions cutoff).matching db =
      selectBlocksTransactionsOfBlocks cutoff db := by
  rw [selectBlocksTransactionsOfBlocks, Table.joined_eq_filter db.blocksTransactions db.blocks
    BlockTransaction.blockHash fun row => beq_block_iff row.blockHash]
  exact matching_eq_filter (expiredBlocksTransactions cutoff) db
    (fun row => db.blockExpired cutoff row.blockHash) fun _ => Iff.rfl

theorem matching_blocksTransactionsOfExpired (db : Db) :
    (blocksTransactionsOfExpired cutoff).matching db =
      selectBlocksTransactionsOfTransactions cutoff db := by
  rw [selectBlocksTransactionsOfTransactions,
    Table.joined_eq_filter db.blocksTransactions db.transactions
      BlockTransaction.transactionId fun row => beq_transaction_iff row.transactionId]
  exact matching_eq_filter (blocksTransactionsOfExpired cutoff) db
    (fun row => db.transactionExpired cutoff row.transactionId) fun _ => Iff.rfl

theorem matching_expiredBlocks (db : Db) :
    (expiredBlocks cutoff).matching db = selectExpiredBlocks cutoff db :=
  matching_eq_filter (expiredBlocks cutoff) db (fun block => expiredAt cutoff block.timestamp)
    fun _ => Iff.rfl

theorem matching_expiredAddresses (db : Db) :
    (expiredAddresses cutoff).matching db = selectExpiredAddresses cutoff db :=
  matching_eq_filter (expiredAddresses cutoff) db (fun row => expiredAt cutoff row.blockTime)
    fun _ => Iff.rfl

theorem matching_expiredScripts (db : Db) :
    (expiredScripts cutoff).matching db = selectExpiredScripts cutoff db :=
  matching_eq_filter (expiredScripts cutoff) db (fun row => expiredAt cutoff row.blockTime)
    fun _ => Iff.rfl

end Matching

/-! ## The rows that match -/

def Db.HasExpiredBlock (db : Db) (cutoff : Int) (hash : Hash) : Prop :=
  ∃ block ∈ db.blocks.rows, block.hash = hash ∧ expiredAt cutoff block.timestamp = true

def Db.HasExpiredTransaction (db : Db) (cutoff : Int) (transactionId : Hash) : Prop :=
  ∃ row ∈ db.transactions.rows, row.transactionId = transactionId ∧
    expiredAt cutoff row.blockTime = true

instance (db : Db) (cutoff : Int) (hash : Hash) : Decidable (db.HasExpiredBlock cutoff hash) :=
  inferInstanceAs (Decidable (∃ block ∈ db.blocks.rows, _))

instance (db : Db) (cutoff : Int) (transactionId : Hash) :
    Decidable (db.HasExpiredTransaction cutoff transactionId) :=
  inferInstanceAs (Decidable (∃ row ∈ db.transactions.rows, _))

theorem any_lookup_iff {α κ : Type} [DecidableEq κ] {key : α → Option κ} {table : Table key} {k : κ}
    {condition : α → Bool} :
    (table.lookup k).any condition = true ↔
      ∃ row ∈ table.rows, key row = some k ∧ condition row = true := by
  rw [Option.any_eq_true]
  constructor
  · rintro ⟨row, found, matched⟩
    obtain ⟨stored, rowKey⟩ := Table.lookup_eq_some_iff.mp found
    exact ⟨row, stored, rowKey, matched⟩
  · rintro ⟨row, stored, rowKey, matched⟩
    exact ⟨row, Table.lookup_eq_some_iff.mpr ⟨stored, rowKey⟩, matched⟩

theorem hasExpiredBlock_iff {db : Db} {cutoff : Int} {hash : Hash} :
    db.blockExpired cutoff hash = true ↔ db.HasExpiredBlock cutoff hash := by
  rw [Db.blockExpired, any_lookup_iff]
  simp only [Block.primaryKey, Option.some.injEq]
  rfl

theorem hasExpiredTransaction_iff {db : Db} {cutoff : Int} {transactionId : Hash} :
    db.transactionExpired cutoff transactionId = true ↔
      db.HasExpiredTransaction cutoff transactionId := by
  rw [Db.transactionExpired, any_lookup_iff]
  simp only [Transaction.primaryKey, Option.some.injEq]
  rfl

/-! ## The loops -/

/-- The loop deletes, like one statement without a limit, exactly the rows that match. -/
structure DeletesAtOnce {α κ : Type} [DecidableEq α] {key : α → Option κ}
    (deletion : Deletion Db key) (batchSize : Int) (selected : Db → List (α × ℕ))
    (matched : Db → α → Prop) [∀ db, DecidablePred (matched db)]
    (loop : (ℕ → LimitChoice (α × ℕ)) → DbM ℕ) : Prop where
  /-- A statement picks from the rows of the subselect, listed once each. -/
  selects : ∀ db, deletion.matching db = selected db
  /-- The loop ends with the first statement that affects no row, and for no other reason. -/
  unrolls : ∀ choices, loop choices = do
    let rowsAffected ← deletion.deleteChunk .unavailable .negativeLimit batchSize (choices 0)
    if rowsAffected = 0 then
      pure 0
    else do
      let total ← loop fun n => choices (n + 1)
      pure (rowsAffected + total)
  completes : ∀ choices db, (loop choices).Completes db
    ((deletion.place.get db).countWhere (matched db))
    (deletion.place.set ((deletion.place.get db).deleteWhere (matched db)) db)

theorem deletesAtOnce_pruneRows {α κ : Type} [DecidableEq α] {key : α → Option κ}
    {deletion : Deletion Db key} {batchSize : Int} (positive : 0 < batchSize)
    {selected : Db → List (α × ℕ)} {matched : Db → α → Prop} [∀ db, DecidablePred (matched db)]
    (selects : ∀ db, deletion.matching db = selected db)
    (same : ∀ db row, deletion.condition db row ↔ matched db row) :
    DeletesAtOnce deletion batchSize selected matched (pruneRows deletion batchSize) where
  selects := selects
  unrolls := deletion.deleteLoop_eq batchSize
  completes choices db := by
    have completes : (pruneRows deletion batchSize choices).Completes db (deletion.affected db)
        (deletion.all db) := deletion.completes_deleteLoop positive choices db
    have condition : deletion.condition db = matched db := funext fun row => propext (same db row)
    have counted : deletion.affected db = (deletion.place.get db).countWhere (matched db) := by
      rw [Deletion.affected]
      congr
    have deleted : deletion.all db =
        deletion.place.set ((deletion.place.get db).deleteWhere (matched db)) db := by
      rw [Deletion.all]
      congr
    rwa [counted, deleted] at completes

/-- Each of the functions, in chunks of any size, is one deletion. -/
theorem pruning_deletesAtOnce (cutoff : Int) {batchSize : Int} (positive : 0 < batchSize) :
    DeletesAtOnce (expiredBlockParents cutoff) batchSize (selectExpiredBlockParents cutoff)
      (fun db row => db.HasExpiredBlock cutoff row.blockHash) (pruneBlockParent cutoff batchSize) ∧
    DeletesAtOnce (expiredBlocksTransactions cutoff) batchSize
      (selectBlocksTransactionsOfBlocks cutoff)
      (fun db row => db.HasExpiredBlock cutoff row.blockHash)
      (pruneBlocksTransactionsUsingBlocks cutoff batchSize) ∧
    DeletesAtOnce (blocksTransactionsOfExpired cutoff) batchSize
      (selectBlocksTransactionsOfTransactions cutoff)
      (fun db row => db.HasExpiredTransaction cutoff row.transactionId)
      (pruneBlocksTransactionsUsingTransactions cutoff batchSize) ∧
    DeletesAtOnce (expiredBlocks cutoff) batchSize (selectExpiredBlocks cutoff)
      (fun _ row => expiredAt cutoff row.timestamp = true) (pruneBlocks cutoff batchSize) ∧
    DeletesAtOnce (expiredAddresses cutoff) batchSize (selectExpiredAddresses cutoff)
      (fun _ row => expiredAt cutoff row.blockTime = true)
      (pruneAddressesTransactions cutoff batchSize) ∧
    DeletesAtOnce (expiredScripts cutoff) batchSize (selectExpiredScripts cutoff)
      (fun _ row => expiredAt cutoff row.blockTime = true)
      (pruneScriptsTransactions cutoff batchSize) := by
  exact ⟨
    deletesAtOnce_pruneRows positive matching_expiredBlockParents fun _ _ => hasExpiredBlock_iff,
    deletesAtOnce_pruneRows positive matching_expiredBlocksTransactions
      fun _ _ => hasExpiredBlock_iff,
    deletesAtOnce_pruneRows positive matching_blocksTransactionsOfExpired
      fun _ _ => hasExpiredTransaction_iff,
    deletesAtOnce_pruneRows positive matching_expiredBlocks fun _ _ => Iff.rfl,
    deletesAtOnce_pruneRows positive matching_expiredAddresses fun _ _ => Iff.rfl,
    deletesAtOnce_pruneRows positive matching_expiredScripts fun _ _ => Iff.rfl⟩

/-- Three transactions of an address, the last without a time. -/
def payeeAddressesDb : Db :=
  { Db.empty with
    addressesTransactions := Table.empty.insertAll
      [⟨"payee", 19, some 5⟩, ⟨"payee", 20, some 6⟩, ⟨"payee", 21, none⟩] }

/-- One row a statement, and each takes the row listed last. -/
theorem pruneAddresses_one_by_one :
    (pruneAddressesTransactions 10 1 fun _ => .last).Completes payeeAddressesDb 2
      { payeeAddressesDb with
        addressesTransactions := payeeAddressesDb.addressesTransactions.deleteWhere fun row =>
          expiredAt 10 row.blockTime = true } :=
  (pruning_deletesAtOnce 10 Int.one_pos).2.2.2.2.1.completes (fun _ => .last) payeeAddressesDb

end VecnoIndexer
