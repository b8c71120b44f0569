import VecnoIndexer.Database.Query
import VecnoIndexer.Transactions.Batches
import VecnoIndexer.UtxoImport.Writers
import VecnoIndexer.VirtualChain.Core

/-!
# The inserts of all components

The processors cut what they insert into chunks whose size depends on the batch scale.  A
chunk is not empty, and its binds stay below what a statement may have.  The UTXO importer
inserts what a peer sends at once: the database refuses an empty chunk and one of more than
10922 entries.
-/

namespace VecnoIndexer

open VecnoIndexer.Sql
open VecnoIndexer.Collections

/-! ## Statements that are accepted -/

section Accepted

open ValuesInsert

theorem accepted_insertBlocksQuery (blocks : List Block) :
    (insertBlocksQuery blocks).Accepted ↔
      0 < blocks.length ∧ blocks.length * 15 ≤ maxBinds :=
  accepted_direct (by decide) fun _ => rfl

theorem accepted_insertBlockParentsQuery (blockParents : List BlockParent) :
    (insertBlockParentsQuery blockParents).Accepted ↔
      0 < blockParents.length ∧ blockParents.length * 2 ≤ maxBinds :=
  accepted_direct (by decide) fun _ => rfl

theorem accepted_insertTransactionsQuery (transactions : List Transaction) :
    (insertTransactionsQuery transactions).Accepted ↔
      0 < transactions.length ∧ transactions.length * 6 ≤ maxBinds :=
  accepted_direct (by decide) fun _ => rfl

theorem accepted_insertTransactionInputsQuery (resolvePreviousOutpoints : Bool)
    (transactionInputs : List TransactionInput) :
    (insertTransactionInputsQuery resolvePreviousOutpoints transactionInputs).Accepted ↔
      0 < transactionInputs.length ∧ transactionInputs.length * 9 ≤ maxBinds := by
  have accepted : (insertTransactionInputsQuery false transactionInputs).Accepted ↔
      0 < transactionInputs.length ∧ transactionInputs.length * 9 ≤ maxBinds :=
    accepted_direct (by decide) fun _ => rfl
  cases resolvePreviousOutpoints with
  | false => exact accepted
  | true => exact accepted

theorem accepted_insertTransactionOutputsQuery (transactionOutputs : List TransactionOutput) :
    (insertTransactionOutputsQuery transactionOutputs).Accepted ↔
      0 < transactionOutputs.length ∧ transactionOutputs.length * 6 ≤ maxBinds :=
  accepted_direct (by decide) fun _ => rfl

theorem accepted_insertAddressTransactionsQuery (addressTransactions : List AddressTransaction) :
    (insertAddressTransactionsQuery addressTransactions).Accepted ↔
      0 < addressTransactions.length ∧ addressTransactions.length * 3 ≤ maxBinds :=
  accepted_direct (by decide) fun _ => rfl

theorem accepted_insertScriptTransactionsQuery (scriptTransactions : List ScriptTransaction) :
    (insertScriptTransactionsQuery scriptTransactions).Accepted ↔
      0 < scriptTransactions.length ∧ scriptTransactions.length * 3 ≤ maxBinds :=
  accepted_direct (by decide) fun _ => rfl

theorem accepted_insertBlockTransactionsQuery (blockTransactions : List BlockTransaction) :
    (insertBlockTransactionsQuery blockTransactions).Accepted ↔
      0 < blockTransactions.length ∧ blockTransactions.length * 2 ≤ maxBinds :=
  accepted_direct (by decide) fun _ => rfl

theorem accepted_insertTransactionAcceptancesQuery (txAcceptances : List TransactionAcceptance) :
    (insertTransactionAcceptancesQuery txAcceptances).Accepted ↔
      0 < txAcceptances.length ∧ txAcceptances.length * 2 ≤ maxBinds :=
  accepted_direct (by decide) fun _ => rfl

/-- The insert of a piece is accepted if pieces are not too large. -/
theorem accepted_of_piece {α : Type} {query : List α → Insert} {width size : ℕ}
    (accepted : ∀ rows, (query rows).Accepted ↔
      0 < rows.length ∧ rows.length * width ≤ maxBinds)
    (fits : size * width ≤ maxBinds) {values rows : List α} (piece : Piece size values rows) :
    (query rows).Accepted := by
  have some := List.length_pos_of_ne_nil piece.ne_nil
  have atMost := Nat.mul_le_mul_right width piece.length_le
  exact (accepted rows).mpr ⟨some, atMost.trans fits⟩

/-- Of what a query inserts in chunks, each is accepted. -/
theorem accepted_of_mem_chunks {α : Type} {query : List α → Insert} {width size : ℕ}
    (accepted : ∀ rows, (query rows).Accepted ↔
      0 < rows.length ∧ rows.length * width ≤ maxBinds)
    (positive : 0 < size) (fits : size * width ≤ maxBinds) {values chunk : List α}
    (isChunk : chunk ∈ chunks size values) : (query chunk).Accepted :=
  accepted_of_piece accepted fits (piece_of_mem_chunks positive isChunk)

end Accepted

/-! ## What an accepted insert does -/

section Execute

variable (refused : SqlError)

theorem forPieces_congr {α : Type} {execute other : List α → DbM Nat} {pieces : List (List α)}
    (same : ∀ piece ∈ pieces, execute piece = other piece) :
    forPieces execute pieces = forPieces other pieces := by
  induction pieces with
  | nil => rfl
  | cons piece rest ih =>
      rw [forPieces, forPieces, same piece List.mem_cons_self,
        ih fun later isLater => same later (List.mem_cons_of_mem piece isLater)]

/-- The statements of the block processor are its inserts, executed. -/
theorem insertBlocks_eq_execute (batchScale : BatchScale) (values : List Block) :
    insertBlocks batchScale values =
      forPieces (fun piece =>
          (insertBlocksQuery piece).execute .unavailable refused blocksTable Block.ofColumns)
        (chunks (min (batchScale.scaled 200) 3500) values) := by
  apply forPieces_congr
  intro piece isChunk
  have accepted := accepted_of_mem_chunks accepted_insertBlocksQuery
    (lt_min (batchScale.scaled_pos (by decide)) (by decide))
    ((Nat.mul_le_mul_right 15 (min_le_right _ 3500)).trans (by decide)) isChunk
  exact (ValuesInsert.execute_eq_insertRows .unavailable refused blocksTable accepted
    (stored_insertBlocksQuery piece)).symm

theorem insertBlockParents_eq_execute (batchScale : BatchScale) (values : List BlockParent) :
    insertBlockParents batchScale values =
      forPieces (fun piece => (insertBlockParentsQuery piece).execute .unavailable refused
          blockParentTable BlockParent.ofColumns)
        (chunks (min (batchScale.scaled 400) 10000) values) := by
  apply forPieces_congr
  intro piece isChunk
  have accepted := accepted_of_mem_chunks accepted_insertBlockParentsQuery
    (lt_min (batchScale.scaled_pos (by decide)) (by decide))
    ((Nat.mul_le_mul_right 2 (min_le_right _ 10000)).trans (by decide)) isChunk
  exact (ValuesInsert.execute_eq_insertRows .unavailable refused blockParentTable accepted
    (stored_insertBlockParentsQuery piece)).symm

theorem acceptTransactions_eq_execute (batchScale : BatchScale)
    (completion : Reordering (List TransactionAcceptance))
    (acceptedTransactionIds : List AcceptedTransactionIds) :
    acceptTransactions batchScale completion acceptedTransactionIds =
      forPieces (fun piece => (insertTransactionAcceptancesQuery piece).execute .unavailable refused
          acceptancesTable TransactionAcceptance.ofColumns)
        (acceptancePieces batchScale completion acceptedTransactionIds) := by
  apply forPieces_congr
  intro piece isPiece
  have accepted := accepted_of_mem_chunks accepted_insertTransactionAcceptancesQuery
    (lt_min (batchScale.scaled_pos (by decide)) (by decide))
    ((Nat.mul_le_mul_right 2 (min_le_right _ 7500)).trans (by decide))
    ((completion.perm _).mem_iff.mp isPiece)
  exact (ValuesInsert.execute_eq_insertRows .unavailable refused acceptancesTable accepted
    (stored_insertTransactionAcceptancesQuery piece)).symm

end Execute

/-! ## What the components issue -/

/-- The insert of a statement of a commit, where it binds its rows. -/
def InsertStatement.query : InsertStatement → Option Insert
  | .transactions rows => some (insertTransactionsQuery rows)
  | .inputs resolvePreviousOutpoints rows =>
      some (insertTransactionInputsQuery resolvePreviousOutpoints rows)
  | .outputs rows => some (insertTransactionOutputsQuery rows)
  | .addresses rows => some (insertAddressTransactionsQuery rows)
  | .scripts rows => some (insertScriptTransactionsQuery rows)
  | .blocksTransactions rows => some (insertBlockTransactionsQuery rows)
  | .addressesFromInputs _ _ => none
  | .scriptsFromInputs _ _ => none

/-- Where inserts are issued, and what they are given. -/
inductive InsertSource where
  | commit (loop : TransactionLoop) (txInputs : List TransactionInput)
  | insertBlocks (values : List Block)
  | insertBlockParents (values : List BlockParent)
  | acceptTransactions (completion : Reordering (List TransactionAcceptance))
      (acceptedTransactionIds : List AcceptedTransactionIds)
  | addChainBlocks (addedHashes : List Hash)
  | persistUtxosChunk (pairs : List Utxo)

namespace InsertSource

variable (cliArgs : CliArgs) (env : ImportEnv)

def inserts : InsertSource → List Insert
  | commit loop txInputs => (loop.batchInserts cliArgs txInputs).filterMap InsertStatement.query
  | insertBlocks values =>
      (chunks (min (cliArgs.batchScale.scaled 200) 3500) values).map insertBlocksQuery
  | insertBlockParents values =>
      (chunks (min (cliArgs.batchScale.scaled 400) 10000) values).map insertBlockParentsQuery
  | acceptTransactions completion acceptedTransactionIds =>
      (acceptancePieces cliArgs.batchScale completion acceptedTransactionIds).map
        insertTransactionAcceptancesQuery
  | addChainBlocks addedHashes =>
      (chunks (removeBatchSize cliArgs.batchScale) addedHashes).map fun chunk =>
        insertTransactionAcceptancesQuery (chunk.map fun hash => ⟨none, some hash⟩)
  | persistUtxosChunk pairs =>
      [insertTransactionAcceptancesQuery (importedAcceptances pairs),
        insertTransactionOutputsQuery (pairs.map (Utxo.output cliArgs env))]

/-- The sizes given to `chunks`. -/
def chunkSizes (batchScale : BatchScale) : InsertSource → List ℕ
  | commit _ _ => [min (batchScale.scaled 250) 8000, min (batchScale.scaled 250) 10000,
      min (batchScale.scaled 250) 20000, min (batchScale.scaled 500) 30000]
  | insertBlocks _ => [min (batchScale.scaled 200) 3500]
  | insertBlockParents _ => [min (batchScale.scaled 400) 10000]
  | acceptTransactions _ _ => [acceptBatchSize batchScale]
  | addChainBlocks _ => [removeBatchSize batchScale]
  | persistUtxosChunk _ => []

variable {cliArgs env}

theorem chunkSizes_pos (batchScale : BatchScale) (source : InsertSource) :
    ∀ size ∈ source.chunkSizes batchScale, 0 < size := by
  have scaled (factor cap : ℕ) (large : 10 ≤ factor) (positive : 0 < cap) :
      0 < min (batchScale.scaled factor) cap :=
    lt_min (batchScale.scaled_pos large) positive
  cases source <;> simp [chunkSizes, acceptBatchSize, removeBatchSize, scaled]

theorem accepted_commit (loop : TransactionLoop) (txInputs : List TransactionInput) :
    ∀ insert ∈ (commit loop txInputs).inserts cliArgs env, insert.Accepted := by
  intro insert issued
  obtain ⟨statement, listed, isInsert⟩ := List.mem_filterMap.mp issued
  have capped (factor cap width : ℕ) (fits : cap * width ≤ ValuesInsert.maxBinds) :
      min (cliArgs.batchScale.scaled factor) cap * width ≤ ValuesInsert.maxBinds :=
    (Nat.mul_le_mul_right width (min_le_right _ cap)).trans fits
  cases TransactionLoop.batchPiece_of_mem listed with
  | transactions _ piece =>
      cases isInsert
      exact accepted_of_piece accepted_insertTransactionsQuery (capped 250 8000 6 (by decide)) piece
  | addresses _ piece =>
      cases isInsert
      exact accepted_of_piece accepted_insertAddressTransactionsQuery
        (capped 250 20000 3 (by decide)) piece
  | scripts _ piece =>
      cases isInsert
      exact accepted_of_piece accepted_insertScriptTransactionsQuery
        (capped 250 20000 3 (by decide)) piece
  | inputs _ piece =>
      cases isInsert
      -- The cap of 8000 rows would allow 72000 binds; the scale does not reach it.
      have fits : min (cliArgs.batchScale.scaled 250) 8000 * 9 ≤ ValuesInsert.maxBinds := by
        have atMost := (min_le_left _ 8000).trans (cliArgs.batchScale.scaled_le 250)
        exact (Nat.mul_le_mul_right 9 atMost).trans (by decide)
      exact accepted_of_piece (accepted_insertTransactionInputsQuery _) fits piece
  | outputs _ piece =>
      cases isInsert
      exact accepted_of_piece accepted_insertTransactionOutputsQuery
        (capped 250 10000 6 (by decide)) piece
  | blocksTransactions _ piece =>
      cases isInsert
      exact accepted_of_piece accepted_insertBlockTransactionsQuery
        (capped 500 30000 2 (by decide)) piece
  -- These statements bind one array.
  | addressesFromInputs _ transactionIds => cases isInsert
  | scriptsFromInputs _ transactionIds => cases isInsert

/-- What the processors issue is accepted. -/
theorem accepted_of_ne_persistUtxosChunk {source : InsertSource}
    (chunked : ∀ pairs, source ≠ persistUtxosChunk pairs) :
    ∀ insert ∈ source.inserts cliArgs env, insert.Accepted := by
  have capped (factor cap width : ℕ) (fits : cap * width ≤ ValuesInsert.maxBinds) :
      min (cliArgs.batchScale.scaled factor) cap * width ≤ ValuesInsert.maxBinds :=
    (Nat.mul_le_mul_right width (min_le_right _ cap)).trans fits
  have positive := source.chunkSizes_pos cliArgs.batchScale
  intro insert issued
  cases source with
  | commit loop txInputs => exact accepted_commit loop txInputs insert issued
  | insertBlocks values =>
      obtain ⟨rows, isChunk, rfl⟩ := List.mem_map.mp issued
      exact accepted_of_mem_chunks accepted_insertBlocksQuery
        (positive _ (List.mem_singleton_self _)) (capped 200 3500 15 (by decide)) isChunk
  | insertBlockParents values =>
      obtain ⟨rows, isChunk, rfl⟩ := List.mem_map.mp issued
      exact accepted_of_mem_chunks accepted_insertBlockParentsQuery
        (positive _ (List.mem_singleton_self _)) (capped 400 10000 2 (by decide)) isChunk
  | acceptTransactions completion acceptedTransactionIds =>
      obtain ⟨rows, isPiece, rfl⟩ := List.mem_map.mp issued
      have isChunk := (completion.perm _).mem_iff.mp isPiece
      exact accepted_of_mem_chunks accepted_insertTransactionAcceptancesQuery
        (positive _ (List.mem_singleton_self _)) (capped 1000 7500 2 (by decide)) isChunk
  | addChainBlocks addedHashes =>
      obtain ⟨chunk, isChunk, rfl⟩ := List.mem_map.mp issued
      have accepted (hashes : List Hash) : (insertTransactionAcceptancesQuery
          (hashes.map fun hash => ⟨none, some hash⟩)).Accepted ↔
            0 < hashes.length ∧ hashes.length * 2 ≤ ValuesInsert.maxBinds := by
        rw [accepted_insertTransactionAcceptancesQuery, List.length_map]
      exact accepted_of_mem_chunks accepted
        (positive _ (List.mem_singleton_self _)) (capped 500 7500 2 (by decide)) isChunk
  | persistUtxosChunk pairs => exact absurd rfl (chunked pairs)

theorem length_importedAcceptances (pairs : List Utxo) :
    (importedAcceptances pairs).length ≤ pairs.length ∧
      (0 < pairs.length → 0 < (importedAcceptances pairs).length) := by
  rw [importedAcceptances, List.length_map]
  constructor
  · exact (List.dedup_sublist _).length_le.trans_eq (List.length_map _)
  · intro positive
    apply List.length_pos_of_ne_nil
    rw [Ne, List.dedup_eq_nil, List.map_eq_nil_iff]
    exact List.ne_nil_of_length_pos positive

/-- A chunk of the UTXO set is accepted if it has entries, and not too many. -/
theorem accepted_persistUtxosChunk (pairs : List Utxo) :
    (∀ insert ∈ (persistUtxosChunk pairs).inserts cliArgs env, insert.Accepted) ↔
      0 < pairs.length ∧ pairs.length ≤ 10922 := by
  obtain ⟨fewer, some⟩ := length_importedAcceptances pairs
  rw [inserts, List.forall_mem_cons, List.forall_mem_singleton,
    accepted_insertTransactionAcceptancesQuery, accepted_insertTransactionOutputsQuery,
    List.length_map, ValuesInsert.maxBinds]
  constructor
  · rintro ⟨_, positive, fits⟩
    exact ⟨positive, by omega⟩
  · rintro ⟨positive, fits⟩
    have isSome := some positive
    exact ⟨⟨isSome, by omega⟩, positive, by omega⟩

/-- What the importer does with a chunk that is accepted. -/
theorem insertUtxos_eq_execute (refused : SqlError) {pairs : List Utxo}
    (bounded : 0 < pairs.length ∧ pairs.length ≤ 10922) :
    insertUtxos cliArgs env pairs = (do
      let _acceptancesCount ←
        ((insertTransactionAcceptancesQuery
            (importedAcceptances pairs)).execute .unavailable refused
          acceptancesTable TransactionAcceptance.ofColumns).attempt
      let _outputsCount ←
        ((insertTransactionOutputsQuery (pairs.map (Utxo.output cliArgs env))).execute .unavailable
          refused outputsTable TransactionOutput.ofColumns).attempt
      pure ()) := by
  have accepted : ∀ insert ∈ (persistUtxosChunk pairs).inserts cliArgs env, insert.Accepted :=
    (accepted_persistUtxosChunk pairs).mpr bounded
  have acceptances := accepted _ List.mem_cons_self
  have outputs := accepted _ (List.mem_cons_of_mem _ (List.mem_singleton_self _))
  rw [ValuesInsert.execute_eq_insertRows .unavailable refused acceptancesTable acceptances
      (stored_insertTransactionAcceptancesQuery _),
    ValuesInsert.execute_eq_insertRows .unavailable refused outputsTable outputs
      (stored_insertTransactionOutputsQuery _)]
  let rows := pairs.map (Utxo.output cliArgs env)
  let storeOutputs : DbM Unit := (statement fun db => .ok ((),
    { db with transactionsOutputs := db.transactionsOutputs.insertAll rows })).attempt >>=
      fun _ => pure ()
  have second : storeOutputs =
      (insertRows .unavailable outputsTable rows).attempt >>= fun _ => pure () := by
    apply Session.attempt_statement_bind
    exact fun _ => rfl
  have first : insertUtxos cliArgs env pairs =
      (insertRows .unavailable acceptancesTable (importedAcceptances pairs)).attempt >>=
        fun _ => storeOutputs := by
    apply Session.attempt_statement_bind
    exact fun _ => rfl
  rw [first, second]

end InsertSource

/-- Every insert is accepted, and no chunk size is zero, but for what a peer sends. -/
theorem inserts_accepted_iff (cliArgs : CliArgs) (env : ImportEnv) (source : InsertSource) :
    ((∀ insert ∈ source.inserts cliArgs env, insert.Accepted) ∧
        ∀ size ∈ source.chunkSizes cliArgs.batchScale, 0 < size) ↔
      ∀ pairs, source = .persistUtxosChunk pairs → 0 < pairs.length ∧ pairs.length ≤ 10922 := by
  rw [and_iff_left (source.chunkSizes_pos cliArgs.batchScale)]
  constructor
  · rintro accepted pairs rfl
    exact (InsertSource.accepted_persistUtxosChunk pairs).mp accepted
  · intro bounded
    cases source with
    | persistUtxosChunk pairs =>
        exact (InsertSource.accepted_persistUtxosChunk pairs).mpr (bounded pairs rfl)
    | _ => exact InsertSource.accepted_of_ne_persistUtxosChunk nofun

/-- The database refuses what the importer issues for an empty chunk, and for 10923 entries. -/
theorem chunks_of_peers_refused :
    (¬ ∀ insert ∈ (InsertSource.persistUtxosChunk []).inserts .standard scriptEnv,
      insert.Accepted) ∧
    ¬ ∀ insert ∈ (InsertSource.persistUtxosChunk (List.replicate 10923 ⟨7, 0, 5, ⟨0, [1]⟩⟩)).inserts
      .standard scriptEnv, insert.Accepted := by
  rw [InsertSource.accepted_persistUtxosChunk, InsertSource.accepted_persistUtxosChunk,
    List.length_replicate]
  exact ⟨by decide, by decide⟩

end VecnoIndexer
