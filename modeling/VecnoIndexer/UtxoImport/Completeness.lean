import Mathlib.Data.List.Flatten
import VecnoIndexer.UtxoImport.Totals

/-!
# Whether a completed import is complete

The importer passes over the error of every statement it issues, so an attempt that
receives the final message completes the import whatever was stored.  What it leaves is
the effect of the statements executed: of all attempts for the outputs and acceptances,
and up to the first refused chunk for the totals.  The import is complete exactly if these
cover the set.
-/

namespace VecnoIndexer

open VecnoIndexer.Sql
open VecnoIndexer.Collections

section Executed

variable (cliArgs : CliArgs) (env : ImportEnv)

/-- The statements before the final message that are executed. -/
def storedStatements (rounds : List ImportRound) (script : Script) : List ImportStatement :=
  executed (importStatements cliArgs env rounds) script

/-- The totals in the chunks that are executed. -/
def writtenTotals (rounds : List ImportRound) (pairs : List Utxo) (script : Script) :
    List (String × Int) :=
  (executedFirst (chunks incrementalChunkSize (drainedTotals cliArgs env pairs))
    (script.after (importStatements cliArgs env rounds).length)).flatten

end Executed

section Runs

variable {cliArgs : CliArgs} {env : ImportEnv}

/-- The state after the statements executed before the final message. -/
def storedDb (cliArgs : CliArgs) (env : ImportEnv) (rounds : List ImportRound) (script : Script)
    (db : Db) : Db :=
  (storedStatements cliArgs env rounds script).foldl
    (fun db statement => statement.effect cliArgs env db) db

/-- A completed import has added up the set, and leaves the effect of the statements executed. -/
theorem done_importUtxoSet {rounds : List ImportRound} {pairs : List Utxo} {db final : Db}
    {script rest : Script} (received : importedSet cliArgs env rounds = some pairs)
    (finished : Session.run (importUtxoSet cliArgs env rounds) db script = .done () final rest) :
    (∃ allBalances, addAmounts [] (balanceDeltas cliArgs env pairs) = some allBalances) ∧
      final = withTotals (storedDb cliArgs env rounds script db)
        (writtenTotals cliArgs env rounds pairs script) := by
  rw [importUtxoSet_eq] at finished
  obtain ⟨_, stored, left, storedRan, writtenRan⟩ := Session.done_of_run_bind finished
  obtain ⟨storedEq, leftEq⟩ := done_attemptEach storedRan
  -- An overflow would have ended the process.
  have noOverflow : importEnd cliArgs env rounds ≠ .overflow := by
    intro overflow
    rw [overflow] at writtenRan
    contradiction
  obtain ⟨allBalances, ended, added⟩ := importEnd_of_importedSet noOverflow received
  have written := @state_writeFinalBalances cliArgs env pairs allBalances added stored left
  rw [ended, AttemptEnd.complete] at writtenRan
  rw [writtenRan, leftEq, storedEq] at written
  exact ⟨⟨allBalances, added⟩, written⟩

end Runs

/-! ## Completeness -/

section Completeness

variable (cliArgs : CliArgs) (env : ImportEnv)

/-- Some entry of the set has the address. -/
def IsPaid (pairs : List Utxo) (address : String) : Prop :=
  ∃ utxo ∈ pairs, utxo.address cliArgs env = some address

instance (pairs : List Utxo) (address : String) : Decidable (IsPaid cliArgs env pairs address) :=
  inferInstanceAs (Decidable (∃ utxo ∈ pairs, _))

/-- Each outpoint of the set has its output, each transaction its acceptance, and the
balances are exactly the sums of the set. -/
structure ImportComplete (pairs : List Utxo) (db : Db) : Prop where
  outputs : ∀ utxo ∈ pairs, ∃ row ∈ db.transactionsOutputs,
    row.transactionId = utxo.transactionId ∧ row.index = utxo.index
  acceptances : ∀ utxo ∈ pairs, ∃ row ∈ db.transactionsAcceptances,
    row.transactionId = some utxo.transactionId
  balances : includeAddress cliArgs = true → ∀ row, row ∈ db.balances ↔
    IsPaid cliArgs env pairs row.scriptPublicKeyAddress ∧
      row.balance = utxoBalance cliArgs env pairs row.scriptPublicKeyAddress

/-- The statements executed cover the set: each outpoint was stored before or is in an
executed statement, where its index survives the cast, and likewise each transaction.
Each total is in an executed chunk and its amounts survive the cast, or its row happened to be
right, and no other row is left from before. -/
structure ImportCovered (rounds : List ImportRound) (pairs : List Utxo) (db : Db)
    (script : Script) : Prop where
  outputs : ∀ utxo ∈ pairs,
    (∃ row ∈ db.transactionsOutputs,
      row.transactionId = utxo.transactionId ∧ row.index = utxo.index) ∨
    ∃ chunk, .outputs chunk ∈ storedStatements cliArgs env rounds script ∧
      ∃ given ∈ chunk, given.transactionId = utxo.transactionId ∧
        wrapI16 given.index = utxo.index
  acceptances : ∀ utxo ∈ pairs,
    (∃ row ∈ db.transactionsAcceptances, row.transactionId = some utxo.transactionId) ∨
    ∃ chunk, .acceptances chunk ∈ storedStatements cliArgs env rounds script ∧
      ∃ given ∈ chunk, given.transactionId = utxo.transactionId
  written : includeAddress cliArgs = true →
    ∀ address ∈ (writtenTotals cliArgs env rounds pairs script).map Prod.fst,
      ∀ utxo ∈ pairs, utxo.address cliArgs env = some address → InI64 utxo.amount
  unwritten : includeAddress cliArgs = true →
    ∀ address ∉ (writtenTotals cliArgs env rounds pairs script).map Prod.fst,
      (if .truncate ∈ storedStatements cliArgs env rounds script then none
        else db.balances.lookup address) =
      if IsPaid cliArgs env pairs address then
        some ⟨address, utxoBalance cliArgs env pairs address⟩
      else none

end Completeness

section Exactness

variable {cliArgs : CliArgs} {env : ImportEnv} {rounds : List ImportRound} {pairs : List Utxo}
  {db : Db} {script : Script}

theorem hasKey_outputs_iff {outputs : Table TransactionOutput.primaryKey} {transactionId : Hash}
    {index : Int} : outputs.HasKey (transactionId, index) ↔
      ∃ row ∈ outputs, row.transactionId = transactionId ∧ row.index = index := by
  simp [Table.HasKey, TransactionOutput.primaryKey]

theorem primaryKey_output (utxo : Utxo) :
    TransactionOutput.primaryKey (utxo.output cliArgs env) =
      some (utxo.transactionId, wrapI16 utxo.index) := by
  simp only [TransactionOutput.primaryKey, Utxo.output]

theorem hasOutput_storedDb_iff (transactionId : Hash) (index : Int) :
    (∃ row ∈ (storedDb cliArgs env rounds script db).transactionsOutputs,
        row.transactionId = transactionId ∧ row.index = index) ↔
      (∃ row ∈ db.transactionsOutputs, row.transactionId = transactionId ∧ row.index = index) ∨
      ∃ chunk, .outputs chunk ∈ storedStatements cliArgs env rounds script ∧
        ∃ given ∈ chunk, given.transactionId = transactionId ∧ wrapI16 given.index = index := by
  rw [← hasKey_outputs_iff, ← hasKey_outputs_iff]
  unfold storedDb
  rw [hasKey_foldl_inserts fun db statement => outputs_effect statement db]
  apply or_congr_right
  constructor
  · rintro ⟨statement, isStored, row, isRow, rowKey⟩
    cases statement with
    | truncate => simp [ImportStatement.outputRows] at isRow
    | acceptances chunk => simp [ImportStatement.outputRows] at isRow
    | outputs chunk =>
        obtain ⟨given, isGiven, rfl⟩ := List.mem_map.mp isRow
        rw [primaryKey_output] at rowKey
        obtain ⟨idEq, indexEq⟩ := Prod.mk.inj (Option.some.inj rowKey)
        exact ⟨chunk, isStored, given, isGiven, idEq, indexEq⟩
  · rintro ⟨chunk, isStored, given, isGiven, idEq, indexEq⟩
    refine ⟨_, isStored, _, List.mem_map.mpr ⟨given, isGiven, rfl⟩, ?_⟩
    rw [primaryKey_output, idEq, indexEq]

theorem hasAcceptance_storedDb_iff (transactionId : Hash) :
    (∃ row ∈ (storedDb cliArgs env rounds script db).transactionsAcceptances,
        row.transactionId = some transactionId) ↔
      (∃ row ∈ db.transactionsAcceptances, row.transactionId = some transactionId) ∨
      ∃ chunk, .acceptances chunk ∈ storedStatements cliArgs env rounds script ∧
        ∃ given ∈ chunk, given.transactionId = transactionId := by
  have keyed := hasKey_foldl_inserts
    (fun db (statement : ImportStatement) => @acceptances_effect cliArgs env statement db)
    (storedStatements cliArgs env rounds script) db transactionId
  refine keyed.trans (or_congr_right ?_)
  constructor
  · rintro ⟨statement, isStored, row, isRow, rowKey⟩
    cases statement with
    | truncate => simp [ImportStatement.acceptanceRows] at isRow
    | outputs chunk => simp [ImportStatement.acceptanceRows] at isRow
    | acceptances chunk =>
        obtain ⟨given, isGiven, rfl⟩ := List.mem_map.mp isRow
        obtain ⟨utxo, isEntry, rfl⟩ := List.mem_map.mp (List.mem_dedup.mp isGiven)
        exact ⟨chunk, isStored, utxo, isEntry, Option.some.inj rowKey⟩
  · rintro ⟨chunk, isStored, given, isGiven, rfl⟩
    refine ⟨_, isStored, ⟨some given.transactionId, none⟩, ?_, rfl⟩
    exact List.mem_map.mpr
      ⟨_, List.mem_dedup.mpr (List.mem_map.mpr ⟨given, isGiven, rfl⟩), rfl⟩

/-- The executed chunks are the first of the drained totals. -/
theorem writtenTotals_sublist :
    (writtenTotals cliArgs env rounds pairs script).Sublist (drainedTotals cliArgs env pairs) := by
  have flattened := (executedFirst_isPrefixOf
    (chunks incrementalChunkSize (drainedTotals cliArgs env pairs))
    (script.after (importStatements cliArgs env rounds).length)).sublist.flatten
  rwa [flatten_chunks (by decide)] at flattened

theorem mem_keys_balanceDeltas_iff {address : String} :
    address ∈ (balanceDeltas cliArgs env pairs).map Prod.fst ↔
      IsPaid cliArgs env pairs address := by
  simp [balanceDeltas, IsPaid, List.mem_filterMap]

section Added

variable {allBalances : List (String × Int)}
  (added : addAmounts [] (balanceDeltas cliArgs env pairs) = some allBalances)

include added

theorem nodup_writtenTotals :
    ((writtenTotals cliArgs env rounds pairs script).map Prod.fst).Nodup :=
  (writtenTotals_sublist.map Prod.fst).nodup (sumsOf_drainedTotals added).nodup

/-- A written total is the sum of a paid address. -/
theorem of_mem_writtenTotals {address : String}
    (written : address ∈ (writtenTotals cliArgs env rounds pairs script).map Prod.fst) :
    IsPaid cliArgs env pairs address ∧
      entrySum (writtenTotals cliArgs env rounds pairs script) address =
        entrySum (balanceDeltas cliArgs env pairs) address := by
  obtain ⟨⟨_, total⟩, entryMem, rfl⟩ := List.mem_map.mp written
  obtain ⟨isKey, totalEq⟩ := (sumsOf_drainedTotals added).mem_iff.mp
    (writtenTotals_sublist.subset entryMem)
  exact ⟨mem_keys_balanceDeltas_iff.mp isKey,
    (entrySum_eq_of_mem (nodup_writtenTotals added) entryMem).trans totalEq⟩

end Added

/-- A table of balances by its rows and by its keys. -/
theorem balances_iff_lookup {balances : Table Balance.primaryKey} {paid : String → Prop}
    [DecidablePred paid] {sum : String → Int} :
    (∀ row, row ∈ balances ↔
      paid row.scriptPublicKeyAddress ∧ row.balance = sum row.scriptPublicKeyAddress) ↔
      ∀ address, balances.lookup address =
        if paid address then some ⟨address, sum address⟩ else none := by
  constructor
  · intro rows address
    by_cases isPaid : paid address
    · rw [if_pos isPaid]
      exact Table.lookup_eq_some_iff.mpr ⟨(rows _).mpr ⟨isPaid, rfl⟩, rfl⟩
    · rw [if_neg isPaid, Table.lookup_eq_none_iff]
      rintro ⟨row, stored, rowKey⟩
      have sameAddress : row.scriptPublicKeyAddress = address := Option.some.inj rowKey
      exact isPaid (sameAddress ▸ ((rows row).mp stored).1)
  · rintro lookups ⟨address, balance⟩
    have stored : (⟨address, balance⟩ : Balance) ∈ balances ↔
        balances.lookup address = some ⟨address, balance⟩ := by
      rw [Table.lookup_eq_some_iff]
      exact (and_iff_left rfl).symm
    rw [stored, lookups]
    by_cases isPaid : paid address
    · simp [isPaid, eq_comm]
    · simp [isPaid]

theorem lookup_storedDb (address : String) :
    (storedDb cliArgs env rounds script db).balances.lookup address =
      if .truncate ∈ storedStatements cliArgs env rounds script then none
      else db.balances.lookup address := by
  rw [storedDb, balances_effects]
  split <;> rfl

/-- A total written is right if no amount was changed, and a row not written if it was. -/
theorem totals_iff {allBalances : List (String × Int)}
    (added : addAmounts [] (balanceDeltas cliArgs env pairs) = some allBalances) :
    (∀ address, ((balanceRows (writtenTotals cliArgs env rounds pairs script)).foldl Table.upsert
        (storedDb cliArgs env rounds script db).balances).lookup address =
      if IsPaid cliArgs env pairs address then
        some ⟨address, utxoBalance cliArgs env pairs address⟩
      else none) ↔
    (∀ address ∈ (writtenTotals cliArgs env rounds pairs script).map Prod.fst,
      ∀ utxo ∈ pairs, utxo.address cliArgs env = some address → InI64 utxo.amount) ∧
    ∀ address ∉ (writtenTotals cliArgs env rounds pairs script).map Prod.fst,
      (if .truncate ∈ storedStatements cliArgs env rounds script then none
        else db.balances.lookup address) =
      if IsPaid cliArgs env pairs address then
        some ⟨address, utxoBalance cliArgs env pairs address⟩
      else none := by
  have nodup : ((writtenTotals cliArgs env rounds pairs script).map Prod.fst).Nodup :=
    nodup_writtenTotals added
  have lookups := lookup_upsert_balanceRows nodup (storedDb cliArgs env rounds script db).balances
  constructor
  · intro right
    refine ⟨fun address written => ?_, fun address unwritten => ?_⟩
    · obtain ⟨isPaid, total⟩ := of_mem_writtenTotals added written
      have row := right address
      rw [lookups, if_pos written, if_pos isPaid, total] at row
      exact (entrySum_balanceDeltas_eq_iff pairs address).mp
        (congrArg Balance.balance (Option.some.inj row))
    · rw [← lookup_storedDb, ← right address, lookups, if_neg unwritten]
  · rintro ⟨fits, unwritten⟩ address
    rw [lookups]
    by_cases written : address ∈ (writtenTotals cliArgs env rounds pairs script).map Prod.fst
    · obtain ⟨isPaid, total⟩ := of_mem_writtenTotals added written
      rw [if_pos written, if_pos isPaid, total,
        (entrySum_balanceDeltas_eq_iff pairs address).mpr (fits address written)]
    · rw [if_neg written, lookup_storedDb]
      exact unwritten address written

/-- An import that receives a set and returns is complete exactly if the statements
executed cover the set. -/
theorem importComplete_iff {final : Db} {rest : Script}
    (received : importedSet cliArgs env rounds = some pairs)
    (finished : Session.run (importUtxoSet cliArgs env rounds) db script = .done () final rest) :
    ImportComplete cliArgs env pairs final ↔
      ImportCovered cliArgs env rounds pairs db script := by
  obtain ⟨⟨allBalances, added⟩, finalEq⟩ := done_importUtxoSet received finished
  have outputs : final.transactionsOutputs =
      (storedDb cliArgs env rounds script db).transactionsOutputs := by
    rw [finalEq, withTotals]
  have acceptances : final.transactionsAcceptances =
      (storedDb cliArgs env rounds script db).transactionsAcceptances := by
    rw [finalEq, withTotals]
  have balances : final.balances = (balanceRows (writtenTotals cliArgs env rounds pairs
      script)).foldl Table.upsert (storedDb cliArgs env rounds script db).balances := by
    rw [finalEq, withTotals]
  constructor
  · intro complete
    have rows : includeAddress cliArgs = true → _ := fun included =>
      (totals_iff added).mp (balances ▸ balances_iff_lookup.mp (complete.balances included))
    refine ⟨fun utxo isEntry => ?_, fun utxo isEntry => ?_, fun included => (rows included).1,
      fun included => (rows included).2⟩
    · exact (hasOutput_storedDb_iff _ _).mp (outputs ▸ complete.outputs utxo isEntry)
    · exact (hasAcceptance_storedDb_iff _).mp (acceptances ▸ complete.acceptances utxo isEntry)
  · intro covered
    refine ⟨fun utxo isEntry => ?_, fun utxo isEntry => ?_, fun included => ?_⟩
    · rw [outputs]
      exact (hasOutput_storedDb_iff _ _).mpr (covered.outputs utxo isEntry)
    · rw [acceptances]
      exact (hasAcceptance_storedDb_iff _).mpr (covered.acceptances utxo isEntry)
    · rw [balances]
      exact balances_iff_lookup.mpr
        ((totals_iff added).mpr ⟨covered.written included, covered.unwritten included⟩)

end Exactness

/-! ## Totals that are refused -/

/-- Every script has the same address. -/
def soleEnv : ImportEnv where
  extractAddress _ := some "payee"
  hostOf _ := none
  defaultP2pPort _ := 0
  hashOrder := .listed

/-- A set of one entry, sent to its end. -/
def soleRound : ImportRound where
  peer := some "peer"
  connected := true
  events := [.message (.pruningPointUtxoSetChunk [⟨7, 0, 5, ⟨0, [1]⟩⟩]) false,
    .message .donePruningPointUtxoSetChunks false]

/-- The truncation and the statements of the chunk are executed, the totals are not. -/
def totalsRefused : Script :=
  fun n => if n = 3 then .fails else .succeeds

theorem soleImport_iff : ∃ final rest,
    Session.run (importUtxoSet .standard soleEnv [soleRound]) .empty totalsRefused =
        .done () final rest ∧
      (ImportComplete .standard soleEnv [⟨7, 0, 5, ⟨0, [1]⟩⟩] final ↔
        ImportCovered .standard soleEnv [soleRound] [⟨7, 0, 5, ⟨0, [1]⟩⟩] .empty totalsRefused) :=
  ⟨_, _, rfl, importComplete_iff rfl rfl⟩

/-- The import is completed, and the balances are empty. -/
theorem soleImport_incomplete :
    importedSet .standard soleEnv [soleRound] = some [⟨7, 0, 5, ⟨0, [1]⟩⟩] ∧
      ∃ final rest,
        Session.run (importUtxoSet .standard soleEnv [soleRound]) .empty totalsRefused =
            .done () final rest ∧
          ¬ ImportComplete .standard soleEnv [⟨7, 0, 5, ⟨0, [1]⟩⟩] final := by
  refine ⟨rfl, _, _, rfl, fun complete => ?_⟩
  have paid : IsPaid .standard soleEnv [⟨7, 0, 5, ⟨0, [1]⟩⟩] "payee" := by decide
  have stored := (complete.balances rfl ⟨"payee", 5⟩).mpr ⟨paid, by decide⟩
  exact Table.notMem_empty _ stored

end VecnoIndexer
