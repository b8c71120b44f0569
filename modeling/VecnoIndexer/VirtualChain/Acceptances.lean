import VecnoIndexer.Blocks.ProcessBlocks
import VecnoIndexer.Chain.SelectedChain
import VecnoIndexer.Transition.Run

/-!
# The acceptance table follows the virtual chain

What a batch does to the table, whatever its statements' sizes and order, and
the invariant of the polls: the rows with a block are those of the transactions
accepted on the selected chain that ends at the start of the next poll.
-/

namespace VecnoIndexer

open VecnoIndexer.Sql
open VecnoIndexer.Collections
open VecnoIndexer.Chain
open VecnoIndexer.Transition

/-! ## Batches of statements -/

/-- The database with another acceptance table. -/
def Db.withAcceptances (db : Db) (acceptances : Table TransactionAcceptance.uniqueKey) : Db :=
  { db with transactionsAcceptances := acceptances }

@[simp]
theorem withAcceptances_transactionsAcceptances (db : Db)
    (acceptances : Table TransactionAcceptance.uniqueKey) :
    (db.withAcceptances acceptances).transactionsAcceptances = acceptances :=
  rfl

/-- Executed in full, a session on block hashes deletes the rows of these blocks and
changes nothing else. -/
def DeletesBlocks (execute : List Hash → DbM Nat) : Prop :=
  ∀ blockHashes db, ∃ count acceptances,
    (execute blockHashes).Completes db count (db.withAcceptances acceptances) ∧
    ∀ row, row ∈ acceptances ↔ row ∈ db.transactionsAcceptances ∧
      ∀ hash, row.blockHash = some hash → hash ∉ blockHashes

theorem deletesBlocks_deleteTransactionAcceptances :
    DeletesBlocks deleteTransactionAcceptances := by
  intro blockHashes db
  refine ⟨(deleteAcceptances blockHashes db).1,
    (deleteAcceptances blockHashes db).2.transactionsAcceptances, ?_, ?_⟩
  · unfold deleteTransactionAcceptances
    exact completes_of_executed rfl
  · exact fun row => mem_deleteAcceptances

theorem strict_deleteTransactionAcceptances (blockHashes : List Hash) :
    (deleteTransactionAcceptances blockHashes).Strict := by
  unfold deleteTransactionAcceptances
  exact strict_of_statement _

theorem keeps_deleteTransactionAcceptances {blockHashes : List Hash} {property : Db → Prop}
    (frame : ∀ db, property db → property (deleteAcceptances blockHashes db).2) :
    (deleteTransactionAcceptances blockHashes).Keeps property := by
  unfold deleteTransactionAcceptances
  apply Session.keeps_statement
  rintro db _ _ holds ⟨⟩
  exact frame db holds

theorem keeps_insertTransactionAcceptances {rows : List TransactionAcceptance}
    {property : Db → Prop} (frame : ∀ db, property db → property (insertAcceptances rows db).2) :
    (insertTransactionAcceptances rows).Keeps property := by
  unfold insertTransactionAcceptances
  apply Session.keeps_statement
  rintro db _ _ holds ⟨⟩
  exact frame db holds

/-- Whatever the pieces, the rows of all their blocks are deleted. -/
theorem DeletesBlocks.forPieces {execute : List Hash → DbM Nat} (deletes : DeletesBlocks execute)
    (pieces : List (List Hash)) (db : Db) :
    ∃ count acceptances,
      (VecnoIndexer.forPieces execute pieces).Completes db count
        (db.withAcceptances acceptances) ∧
      ∀ row, row ∈ acceptances ↔ row ∈ db.transactionsAcceptances ∧
        ∀ hash, row.blockHash = some hash → hash ∉ pieces.flatten := by
  induction pieces generalizing db with
  | nil => exact ⟨0, db.transactionsAcceptances, Session.completes_pure 0 db, by simp⟩
  | cons piece rest ih =>
      obtain ⟨firstCount, middle, first, mem_middle⟩ := deletes piece db
      obtain ⟨count, acceptances, completes, mem_iff⟩ := ih (db.withAcceptances middle)
      refine ⟨_, acceptances, first.unwrap.bind (completes.bind (Session.completes_pure _ _)), ?_⟩
      intro row
      rw [mem_iff, withAcceptances_transactionsAcceptances, mem_middle, List.flatten_cons]
      simp only [List.mem_append, not_or]
      constructor
      · rintro ⟨⟨rowMem, notFirst⟩, notRest⟩
        exact ⟨rowMem, fun hash rowBlock => ⟨notFirst hash rowBlock, notRest hash rowBlock⟩⟩
      · rintro ⟨rowMem, outside⟩
        exact ⟨⟨rowMem, fun hash rowBlock => (outside hash rowBlock).1⟩,
          fun hash rowBlock => (outside hash rowBlock).2⟩

theorem completes_insertTransactionAcceptances (rows : List TransactionAcceptance) (db : Db) :
    (insertTransactionAcceptances rows).Completes db
      (insertAcceptances rows db).1 (insertAcceptances rows db).2 := by
  unfold insertTransactionAcceptances
  exact completes_of_executed rfl

/-- Whatever the pieces, all their rows are given to one table. -/
theorem completes_forPieces_insert (pieces : List (List TransactionAcceptance)) (db : Db) :
    ∃ count, (forPieces insertTransactionAcceptances pieces).Completes db count
      (db.withAcceptances (db.transactionsAcceptances.insertAll pieces.flatten)) := by
  induction pieces generalizing db with
  | nil => exact ⟨0, Session.completes_pure 0 db⟩
  | cons piece rest ih =>
      obtain ⟨count, completes⟩ := ih (insertAcceptances piece db).2
      have first := completes_insertTransactionAcceptances piece db
      rw [List.flatten_cons, Table.insertAll_append]
      exact ⟨_, first.unwrap.bind (completes.bind (Session.completes_pure _ _))⟩

theorem removeBatchSize_pos (batchScale : BatchScale) : 0 < removeBatchSize batchScale :=
  lt_min (batchScale.scaled_pos (by decide)) (by decide)

theorem acceptBatchSize_pos (batchScale : BatchScale) : 0 < acceptBatchSize batchScale :=
  lt_min (batchScale.scaled_pos (by decide)) (by decide)

theorem deletesBlocks_removeChainBlocks (batchScale : BatchScale) :
    DeletesBlocks (removeChainBlocks batchScale) := by
  intro removed db
  have pieces := deletesBlocks_deleteTransactionAcceptances.forPieces
    (chunks (removeBatchSize batchScale) removed) db
  rwa [flatten_chunks (removeBatchSize_pos batchScale)] at pieces

theorem deletesBlocks_clearTransactionAcceptances (batchScale : BatchScale) :
    DeletesBlocks (clearTransactionAcceptances batchScale) := by
  intro blockHashes db
  have pieces := deletesBlocks_deleteTransactionAcceptances.forPieces
    (chunks (clearBatchSize batchScale) blockHashes) db
  rwa [flatten_chunks (clearBatchSize_pos batchScale)] at pieces

theorem strict_clearTransactionAcceptances (batchScale : BatchScale) (blockHashes : List Hash) :
    (clearTransactionAcceptances batchScale blockHashes).Strict :=
  strict_forPieces strict_deleteTransactionAcceptances _

/-- The concurrent statements insert a rearrangement of the accepted rows. -/
theorem flatten_acceptancePieces_perm (batchScale : BatchScale)
    (completion : Reordering (List TransactionAcceptance))
    (accepted : List AcceptedTransactionIds) :
    (acceptancePieces batchScale completion accepted).flatten.Perm (acceptanceRows accepted) := by
  have rearranged := (completion.perm (chunks (acceptBatchSize batchScale)
    (sortByTransactionId (acceptanceRows accepted)))).flatten
  rw [flatten_chunks (acceptBatchSize_pos batchScale)] at rearranged
  exact rearranged.trans (List.perm_insertionSort _ _)

/-! ## Acceptances of a selected chain -/

/-- The block tree of the node and what each chain block accepts. Along one chain
a transaction is accepted at most once. -/
structure ChainNode where
  tree : BlockTree Hash
  accepts : Hash → List Hash
  acceptedOnce : ∀ path, tree.IsPath path → ∀ transactionId first second,
    first ∈ path → second ∈ path → transactionId ∈ accepts first →
    transactionId ∈ accepts second → first = second

namespace ChainNode

variable (node : ChainNode)

/-- The rows of the transactions accepted by some blocks. -/
def AcceptedBy (path : List Hash) (row : TransactionAcceptance) : Prop :=
  ∃ block ∈ path, ∃ transactionId ∈ node.accepts block,
    row = ⟨some transactionId, some block⟩

/-- What the node sends for added blocks. -/
def acceptedIds (added : List Hash) : List AcceptedTransactionIds :=
  added.map fun block => ⟨block, node.accepts block⟩

theorem mem_acceptanceRows_acceptedIds {added : List Hash} {row : TransactionAcceptance} :
    row ∈ acceptanceRows (node.acceptedIds added) ↔ node.AcceptedBy added row := by
  simp [acceptanceRows, acceptedIds, AcceptedBy, eq_comm]

/-- The answer to a poll from the end of `start` when the node's chain is
`current`: removed blocks from the start back to the fork, added blocks from
there on. -/
def Answers (start current : List Hash) (response : VirtualChain) : Prop :=
  ∃ common removed added, Forks start current common removed added ∧
    response = ⟨removed.reverse, added, node.acceptedIds added⟩

/-- The rows with a block are those of the transactions accepted on a chain. -/
def Follows (path : List Hash) (acceptances : Table TransactionAcceptance.uniqueKey) : Prop :=
  ∀ row, row ∈ acceptances ∧ row.blockHash ≠ none ↔ node.AcceptedBy path row

/-- The rows without a block are of transactions no block after the base accepts. -/
def ImportedBelow (acceptances : Table TransactionAcceptance.uniqueKey) : Prop :=
  ∀ row ∈ acceptances, row.blockHash = none → ∀ transactionId,
    row.transactionId = some transactionId → ∀ block, node.tree.OnChain block →
    transactionId ∉ node.accepts block

variable {node} {path : List Hash} {acceptances : Table TransactionAcceptance.uniqueKey}

theorem AcceptedBy.blockHash {row : TransactionAcceptance} (accepted : node.AcceptedBy path row) :
    ∃ block ∈ path, row.blockHash = some block := by
  obtain ⟨block, blockMem, _, _, rfl⟩ := accepted
  exact ⟨block, blockMem, rfl⟩

/-- Deleting the removed blocks leaves the acceptances of the common chain. -/
theorem Follows.delete {common removed : List Hash} (isPath : node.tree.IsPath path)
    (follows : node.Follows path acceptances) (split : path = common ++ removed)
    {remaining : Table TransactionAcceptance.uniqueKey}
    (mem_remaining : ∀ row, row ∈ remaining ↔ row ∈ acceptances ∧
      ∀ hash, row.blockHash = some hash → hash ∉ removed) :
    node.Follows common remaining := by
  have nodup := isPath.nodup
  intro row
  rw [mem_remaining]
  constructor
  · rintro ⟨⟨rowMem, outside⟩, hasBlock⟩
    obtain ⟨block, blockMem, transactionId, accepted, rfl⟩ := (follows row).mp ⟨rowMem, hasBlock⟩
    rw [split, List.mem_append] at blockMem
    rcases blockMem with inCommon | inRemoved
    · exact ⟨block, inCommon, transactionId, accepted, rfl⟩
    · exact absurd inRemoved (outside block rfl)
  · rintro ⟨block, blockMem, transactionId, accepted, rfl⟩
    have onPath : block ∈ path := split ▸ List.mem_append_left removed blockMem
    have stored := (follows _).mpr ⟨block, onPath, transactionId, accepted, rfl⟩
    refine ⟨⟨stored.1, ?_⟩, stored.2⟩
    rintro hash ⟨⟩ inRemoved
    rw [split] at nodup
    exact List.disjoint_of_nodup_append nodup blockMem inRemoved

/-- Inserting the acceptances of blocks that continue a chain. -/
theorem Follows.insert {common added : List Hash} (isPath : node.tree.IsPath (common ++ added))
    (follows : node.Follows common acceptances) (imported : node.ImportedBelow acceptances)
    {rows : List TransactionAcceptance}
    (mem_rows : ∀ row, row ∈ rows ↔ node.AcceptedBy added row) :
    node.Follows (common ++ added) (acceptances.insertAll rows) ∧
      node.ImportedBelow (acceptances.insertAll rows) := by
  have mem_insert (row : TransactionAcceptance) :
      row ∈ acceptances.insertAll rows ↔ row ∈ acceptances ∨ row ∈ rows := by
    apply Table.mem_insertAll_iff
    -- A row given shares its transaction with no other row of the chain, nor with
    -- an imported one.
    intro given givenMem other otherMem transactionId givenKey otherKey
    obtain ⟨block, blockMem, accepted, acceptedMem, rfl⟩ := (mem_rows given).mp givenMem
    cases givenKey
    have blockOn : block ∈ common ++ added := List.mem_append_right common blockMem
    have otherAccepted : node.AcceptedBy (common ++ added) other := by
      rcases otherMem with stored | alsoGiven
      · by_cases noBlock : other.blockHash = none
        · exact absurd acceptedMem
            (imported other stored noBlock transactionId otherKey block ⟨_, isPath, blockOn⟩)
        · obtain ⟨otherBlock, otherBlockMem, rest⟩ := (follows other).mp ⟨stored, noBlock⟩
          exact ⟨otherBlock, List.mem_append_left added otherBlockMem, rest⟩
      · obtain ⟨otherBlock, otherBlockMem, rest⟩ := (mem_rows other).mp alsoGiven
        exact ⟨otherBlock, List.mem_append_right common otherBlockMem, rest⟩
    obtain ⟨otherBlock, otherOn, otherId, otherIdMem, rfl⟩ := otherAccepted
    cases otherKey
    rw [node.acceptedOnce _ isPath transactionId block otherBlock blockOn otherOn acceptedMem
      otherIdMem]
  constructor
  · intro row
    rw [mem_insert]
    constructor
    · rintro ⟨stored | given, hasBlock⟩
      · obtain ⟨block, blockMem, rest⟩ := (follows row).mp ⟨stored, hasBlock⟩
        exact ⟨block, List.mem_append_left added blockMem, rest⟩
      · obtain ⟨block, blockMem, rest⟩ := (mem_rows row).mp given
        exact ⟨block, List.mem_append_right common blockMem, rest⟩
    · rintro ⟨block, blockMem, transactionId, accepted, rfl⟩
      rcases List.mem_append.mp blockMem with inCommon | inAdded
      · have stored := (follows _).mpr ⟨block, inCommon, transactionId, accepted, rfl⟩
        exact ⟨Or.inl stored.1, stored.2⟩
      · exact ⟨Or.inr ((mem_rows _).mpr ⟨block, inAdded, transactionId, accepted, rfl⟩), by simp⟩
  · intro row rowMem noBlock
    rcases (mem_insert row).mp rowMem with stored | given
    · exact imported row stored noBlock
    · obtain ⟨block, _, blockEq⟩ := ((mem_rows row).mp given).blockHash
      rw [noBlock] at blockEq
      contradiction

theorem ImportedBelow.delete (imported : node.ImportedBelow acceptances)
    {remaining : Table TransactionAcceptance.uniqueKey}
    (subset : ∀ row, row ∈ remaining → row ∈ acceptances) : node.ImportedBelow remaining :=
  fun row rowMem => imported row (subset row rowMem)

end ChainNode

end VecnoIndexer
