import VecnoIndexer.Transactions.FilledTables

/-!
# What a batch leaves in a table

A batch holds rows for each table, which come from mapped transactions and are given to
the table by the statements of a commit.  In which statement, and in which order they are
executed, makes no difference to what is said here.
-/

namespace VecnoIndexer

open VecnoIndexer.Sql
open VecnoIndexer.Collections

/-! ## The statements of a batch -/

/-- The rows a batch holds. -/
structure PendingRows where
  transactions : List Transaction
  inputs : List TransactionInput
  outputs : List TransactionOutput
  addresses : List AddressTransaction
  scripts : List ScriptTransaction

def PendingRows.nothing : PendingRows :=
  ⟨[], [], [], [], []⟩

def PendingRows.add (pending : PendingRows) (rows : TransactionRows) : PendingRows where
  transactions := pending.transactions ++ [rows.transaction]
  inputs := pending.inputs ++ rows.inputs
  outputs := pending.outputs ++ rows.outputs
  addresses := extendSet AddressTransaction.primaryKey pending.addresses rows.addresses
  scripts := extendSet ScriptTransaction.primaryKey pending.scripts rows.scripts

namespace TransactionLoop

def pendingRows (loop : TransactionLoop) : PendingRows where
  transactions := loop.transactions
  inputs := loop.txInputs
  outputs := loop.txOutputs
  addresses := loop.txAddressTransactions
  scripts := loop.txScriptTransactions

variable {cliArgs : CliArgs} {loop : TransactionLoop} {txInputs : List TransactionInput}

/-- The statements of a commit by the rows they insert. -/
inductive BatchInsert (cliArgs : CliArgs) (loop : TransactionLoop)
    (txInputs : List TransactionInput) : InsertStatement → Prop where
  | transactions (enabled : cliArgs.isDisabled .transactionsTable = false)
      (rows : List Transaction) (pending : ∀ row ∈ rows, row ∈ loop.transactions) :
      BatchInsert cliArgs loop txInputs (.transactions rows)
  | inputs (enabled : cliArgs.isDisabled .transactionsInputsTable = false) (resolve : Bool)
      (rows : List TransactionInput) (pending : ∀ row ∈ rows, row ∈ txInputs) :
      BatchInsert cliArgs loop txInputs (.inputs resolve rows)
  | outputs (enabled : cliArgs.isDisabled .transactionsOutputsTable = false)
      (rows : List TransactionOutput) (pending : ∀ row ∈ rows, row ∈ loop.txOutputs) :
      BatchInsert cliArgs loop txInputs (.outputs rows)
  | addresses (mapped : cliArgs.mapsAddresses = true)
      (rows : List AddressTransaction) (pending : ∀ row ∈ rows, row ∈ loop.txAddressTransactions) :
      BatchInsert cliArgs loop txInputs (.addresses rows)
  | scripts (mapped : cliArgs.mapsScripts = true)
      (rows : List ScriptTransaction) (pending : ∀ row ∈ rows, row ∈ loop.txScriptTransactions) :
      BatchInsert cliArgs loop txInputs (.scripts rows)
  | blocksTransactions (enabled : cliArgs.isDisabled .blocksTransactionsTable = false)
      (rows : List BlockTransaction) (pending : ∀ row ∈ rows, row ∈ loop.blockTx) :
      BatchInsert cliArgs loop txInputs (.blocksTransactions rows)
  | addressesFromInputs (useTx : Bool) (transactionIds : List Hash) :
      BatchInsert cliArgs loop txInputs (.addressesFromInputs useTx transactionIds)
  | scriptsFromInputs (useTx : Bool) (transactionIds : List Hash) :
      BatchInsert cliArgs loop txInputs (.scriptsFromInputs useTx transactionIds)

/-- The statements of a commit, in the order in which they are listed. -/
def batchInserts (cliArgs : CliArgs) (loop : TransactionLoop) (txInputs : List TransactionInput) :
    List InsertStatement :=
  loop.firstInserts cliArgs txInputs ++ loop.secondInserts cliArgs

/-- The statements of a commit by the piece of the batch each is about. -/
inductive BatchPiece (cliArgs : CliArgs) (loop : TransactionLoop)
    (txInputs : List TransactionInput) : InsertStatement → Prop where
  | transactions (enabled : cliArgs.isDisabled .transactionsTable = false)
      {rows : List Transaction}
      (piece : Piece (min (cliArgs.batchScale.scaled 250) 8000) loop.transactions rows) :
      BatchPiece cliArgs loop txInputs (.transactions rows)
  | addresses (mapped : cliArgs.mapsAddresses = true) {rows : List AddressTransaction}
      (piece : Piece (min (cliArgs.batchScale.scaled 250) 20000) loop.txAddressTransactions rows) :
      BatchPiece cliArgs loop txInputs (.addresses rows)
  | scripts (mapped : cliArgs.mapsScripts = true) {rows : List ScriptTransaction}
      (piece : Piece (min (cliArgs.batchScale.scaled 250) 20000) loop.txScriptTransactions rows) :
      BatchPiece cliArgs loop txInputs (.scripts rows)
  | inputs (enabled : cliArgs.isDisabled .transactionsInputsTable = false)
      {rows : List TransactionInput}
      (piece : Piece (min (cliArgs.batchScale.scaled 250) 8000) txInputs rows) :
      BatchPiece cliArgs loop txInputs (.inputs (cliArgs.isEnabled .transactionsInputsResolve) rows)
  | outputs (enabled : cliArgs.isDisabled .transactionsOutputsTable = false)
      {rows : List TransactionOutput}
      (piece : Piece (min (cliArgs.batchScale.scaled 250) 10000) loop.txOutputs rows) :
      BatchPiece cliArgs loop txInputs (.outputs rows)
  | blocksTransactions (enabled : cliArgs.isDisabled .blocksTransactionsTable = false)
      {rows : List BlockTransaction}
      (piece : Piece (min (cliArgs.batchScale.scaled 500) 30000) loop.blockTx rows) :
      BatchPiece cliArgs loop txInputs (.blocksTransactions rows)
  | addressesFromInputs (mapped : cliArgs.mapsAddresses = true) (transactionIds : List Hash) :
      BatchPiece cliArgs loop txInputs
        (.addressesFromInputs (cliArgs.isExcluded .txInBlockTime) transactionIds)
  | scriptsFromInputs (mapped : cliArgs.mapsScripts = true) (transactionIds : List Hash) :
      BatchPiece cliArgs loop txInputs
        (.scriptsFromInputs (cliArgs.isExcluded .txInBlockTime) transactionIds)

theorem batchPiece_of_mem {insert : InsertStatement}
    (member : insert ∈ batchInserts cliArgs loop txInputs) :
    BatchPiece cliArgs loop txInputs insert := by
  have positive (factor cap : ℕ) (large : 10 ≤ factor) (capPositive : 0 < cap) :
      0 < min (cliArgs.batchScale.scaled factor) cap :=
    lt_min (cliArgs.batchScale.scaled_pos large) capPositive
  simp only [batchInserts, firstInserts, secondInserts, List.mem_append] at member
  rcases member with (((inTransactions | inAddresses) | inInputs) | inOutputs) |
    inRelations | inSpent
  · unfold transactionInserts at inTransactions
    split_ifs at inTransactions with disabled
    · contradiction
    · obtain ⟨rows, piece, rfl⟩ :=
        piece_of_mem_sortedChunks (positive 250 8000 (by decide) (by decide)) inTransactions
      exact .transactions (Bool.eq_false_of_not_eq_true disabled) piece
  · unfold outputAddressInserts at inAddresses
    split_ifs at inAddresses with mapsAddresses mapsScripts
    · obtain ⟨rows, piece, rfl⟩ :=
        piece_of_mem_sortedChunks (positive 250 20000 (by decide) (by decide)) inAddresses
      exact .addresses mapsAddresses piece
    · obtain ⟨rows, piece, rfl⟩ :=
        piece_of_mem_sortedChunks (positive 250 20000 (by decide) (by decide)) inAddresses
      exact .scripts mapsScripts piece
    · contradiction
  · unfold inputInserts at inInputs
    split_ifs at inInputs with disabled
    · contradiction
    · obtain ⟨rows, piece, rfl⟩ :=
        piece_of_mem_sortedChunks (positive 250 8000 (by decide) (by decide)) inInputs
      exact .inputs (Bool.eq_false_of_not_eq_true disabled) piece
  · unfold outputInserts at inOutputs
    split_ifs at inOutputs with disabled
    · contradiction
    · obtain ⟨rows, piece, rfl⟩ :=
        piece_of_mem_sortedChunks (positive 250 10000 (by decide) (by decide)) inOutputs
      exact .outputs (Bool.eq_false_of_not_eq_true disabled) piece
  · unfold blockTransactionInserts at inRelations
    split_ifs at inRelations with disabled
    · contradiction
    · obtain ⟨rows, piece, rfl⟩ :=
        piece_of_mem_sortedChunks (positive 500 30000 (by decide) (by decide)) inRelations
      exact .blocksTransactions (Bool.eq_false_of_not_eq_true disabled) piece
  · unfold inputAddressInserts at inSpent
    simp only at inSpent
    split_ifs at inSpent with mapsAddresses mapsScripts
    · obtain ⟨transactionIds, _, rfl⟩ := List.mem_map.mp inSpent
      exact .addressesFromInputs mapsAddresses transactionIds
    · obtain ⟨transactionIds, _, rfl⟩ := List.mem_map.mp inSpent
      exact .scriptsFromInputs mapsScripts transactionIds
    · contradiction

theorem batchInsert_of_mem {insert : InsertStatement}
    (member : insert ∈ batchInserts cliArgs loop txInputs) :
    BatchInsert cliArgs loop txInputs insert := by
  cases batchPiece_of_mem member with
  | transactions enabled piece => exact .transactions enabled _ piece.among
  | addresses mapped piece => exact .addresses mapped _ piece.among
  | scripts mapped piece => exact .scripts mapped _ piece.among
  | inputs enabled piece => exact .inputs enabled _ _ piece.among
  | outputs enabled piece => exact .outputs enabled _ piece.among
  | blocksTransactions enabled piece => exact .blocksTransactions enabled _ piece.among
  | addressesFromInputs _ transactionIds => exact .addressesFromInputs _ transactionIds
  | scriptsFromInputs _ transactionIds => exact .scriptsFromInputs _ transactionIds

end TransactionLoop

/-! ## What the statements of a batch list -/

section Listed

variable {cliArgs : CliArgs} {loop : TransactionLoop} {txInputs : List TransactionInput}

open TransactionLoop

/-- Rows given in pieces by some of the statements are listed. -/
theorem mem_listed_of_sortedChunks {α κ : Type} [LinearOrder κ] {factor cap : ℕ} {key : α → κ}
    {make : List α → InsertStatement} {held : List α}
    (part : ∀ insert ∈ sortedChunks (min (cliArgs.batchScale.scaled factor) cap) key make held,
      insert ∈ loop.batchInserts cliArgs txInputs)
    (large : 10 ≤ factor) (positive : 0 < cap) {listed : InsertStatement → List α}
    (made : ∀ rows, listed (make rows) = rows) {row : α} (isHeld : row ∈ held) :
    ∃ insert ∈ loop.batchInserts cliArgs txInputs, row ∈ listed insert := by
  have sizePositive := lt_min (cliArgs.batchScale.scaled_pos large) positive
  have pieces : (∃ insert ∈ sortedChunks _ key make held, row ∈ listed insert) ↔ row ∈ held :=
    exists_sortedChunks_iff sizePositive made
  obtain ⟨insert, isPart, isListed⟩ := pieces.mpr isHeld
  exact ⟨insert, part insert isPart, isListed⟩

theorem mem_listed_transactions {row : Transaction} :
    row ∈ (loop.batchInserts cliArgs txInputs).flatMap FilledTable.transactions.listed ↔
      cliArgs.isDisabled .transactionsTable = false ∧ row ∈ loop.transactions := by
  rw [List.mem_flatMap]
  constructor
  · rintro ⟨insert, insertMem, listed⟩
    cases batchInsert_of_mem insertMem with
    | transactions enabled rows pending => exact ⟨enabled, pending row listed⟩
    | _ => exact absurd listed List.not_mem_nil
  · rintro ⟨enabled, isPending⟩
    have part : ∀ insert ∈ loop.transactionInserts cliArgs,
        insert ∈ loop.batchInserts cliArgs txInputs := by
      intro insert isPart
      simp [batchInserts, firstInserts, isPart]
    rw [transactionInserts, if_neg (Bool.not_eq_true _ ▸ enabled)] at part
    exact mem_listed_of_sortedChunks part (by decide) (by decide) (fun _ => rfl) isPending

theorem mem_listed_inputs {row : TransactionInput} :
    row ∈ (loop.batchInserts cliArgs txInputs).flatMap FilledTable.inputs.listed ↔
      cliArgs.isDisabled .transactionsInputsTable = false ∧ row ∈ txInputs := by
  rw [List.mem_flatMap]
  constructor
  · rintro ⟨insert, insertMem, listed⟩
    cases batchInsert_of_mem insertMem with
    | inputs enabled resolve rows pending => exact ⟨enabled, pending row listed⟩
    | _ => exact absurd listed List.not_mem_nil
  · rintro ⟨enabled, isPending⟩
    have part : ∀ insert ∈ inputInserts cliArgs txInputs,
        insert ∈ loop.batchInserts cliArgs txInputs := by
      intro insert isPart
      simp [batchInserts, firstInserts, isPart]
    rw [inputInserts, if_neg (Bool.not_eq_true _ ▸ enabled)] at part
    exact mem_listed_of_sortedChunks part (by decide) (by decide) (fun _ => rfl) isPending

theorem mem_listed_outputs {row : TransactionOutput} :
    row ∈ (loop.batchInserts cliArgs txInputs).flatMap FilledTable.outputs.listed ↔
      cliArgs.isDisabled .transactionsOutputsTable = false ∧ row ∈ loop.txOutputs := by
  rw [List.mem_flatMap]
  constructor
  · rintro ⟨insert, insertMem, listed⟩
    cases batchInsert_of_mem insertMem with
    | outputs enabled rows pending => exact ⟨enabled, pending row listed⟩
    | _ => exact absurd listed List.not_mem_nil
  · rintro ⟨enabled, isPending⟩
    have part : ∀ insert ∈ loop.outputInserts cliArgs,
        insert ∈ loop.batchInserts cliArgs txInputs := by
      intro insert isPart
      simp [batchInserts, firstInserts, isPart]
    rw [outputInserts, if_neg (Bool.not_eq_true _ ▸ enabled)] at part
    exact mem_listed_of_sortedChunks part (by decide) (by decide) (fun _ => rfl) isPending

theorem mem_listed_blocksTransactions {row : BlockTransaction} :
    row ∈ (loop.batchInserts cliArgs txInputs).flatMap FilledTable.blocksTransactions.listed ↔
      cliArgs.isDisabled .blocksTransactionsTable = false ∧ row ∈ loop.blockTx := by
  rw [List.mem_flatMap]
  constructor
  · rintro ⟨insert, insertMem, listed⟩
    cases batchInsert_of_mem insertMem with
    | blocksTransactions enabled rows pending => exact ⟨enabled, pending row listed⟩
    | _ => exact absurd listed List.not_mem_nil
  · rintro ⟨enabled, isPending⟩
    have part : ∀ insert ∈ loop.blockTransactionInserts cliArgs,
        insert ∈ loop.batchInserts cliArgs txInputs := by
      intro insert isPart
      simp [batchInserts, secondInserts, isPart]
    rw [blockTransactionInserts, if_neg (Bool.not_eq_true _ ▸ enabled)] at part
    exact mem_listed_of_sortedChunks part (by decide) (by decide) (fun _ => rfl) isPending

theorem mem_listed_addresses {row : AddressTransaction} :
    row ∈ (loop.batchInserts cliArgs txInputs).flatMap FilledTable.addresses.listed ↔
      cliArgs.mapsAddresses = true ∧ row ∈ loop.txAddressTransactions := by
  rw [List.mem_flatMap]
  constructor
  · rintro ⟨insert, insertMem, listed⟩
    cases batchInsert_of_mem insertMem with
    | addresses mapped rows pending => exact ⟨mapped, pending row listed⟩
    | _ => exact absurd listed List.not_mem_nil
  · rintro ⟨mapped, isPending⟩
    have part : ∀ insert ∈ loop.outputAddressInserts cliArgs,
        insert ∈ loop.batchInserts cliArgs txInputs := by
      intro insert isPart
      simp [batchInserts, firstInserts, isPart]
    rw [outputAddressInserts, if_pos mapped] at part
    exact mem_listed_of_sortedChunks part (by decide) (by decide) (fun _ => rfl) isPending

/-- Addresses are not mapped where scripts are. -/
theorem mapsAddresses_of_mapsScripts (mapped : cliArgs.mapsScripts = true) :
    cliArgs.mapsAddresses = false := by
  simp only [CliArgs.mapsScripts, Bool.and_eq_true] at mapped
  simp [CliArgs.mapsAddresses, mapped.2.1]

theorem mem_listed_scripts {row : ScriptTransaction} :
    row ∈ (loop.batchInserts cliArgs txInputs).flatMap FilledTable.scripts.listed ↔
      cliArgs.mapsScripts = true ∧ row ∈ loop.txScriptTransactions := by
  rw [List.mem_flatMap]
  constructor
  · rintro ⟨insert, insertMem, listed⟩
    cases batchInsert_of_mem insertMem with
    | scripts mapped rows pending => exact ⟨mapped, pending row listed⟩
    | _ => exact absurd listed List.not_mem_nil
  · rintro ⟨mapped, isPending⟩
    have part : ∀ insert ∈ loop.outputAddressInserts cliArgs,
        insert ∈ loop.batchInserts cliArgs txInputs := by
      intro insert isPart
      simp [batchInserts, firstInserts, isPart]
    rw [outputAddressInserts, if_neg (Bool.not_eq_true _ ▸ mapsAddresses_of_mapsScripts mapped),
      if_pos mapped] at part
    exact mem_listed_of_sortedChunks part (by decide) (by decide) (fun _ => rfl) isPending

end Listed

/-! ## Tables under batches -/

/-- A batch that took rows holds what it held, and only rows it took for new keys. -/
structure Collected {α κ : Type} (key : α → Option κ) (held rows after : List α) : Prop where
  kept : ∀ row ∈ held, row ∈ after
  only : ∀ row ∈ after, row ∈ held ∨ row ∈ rows
  taken : ∀ row ∈ rows, ∃ other ∈ after, key other = key row

theorem collected_append {α κ : Type} (key : α → Option κ) (held rows : List α) :
    Collected key held rows (held ++ rows) where
  kept _ isHeld := List.mem_append_left rows isHeld
  only _ := List.mem_append.mp
  taken row given := ⟨row, List.mem_append_right held given, rfl⟩

theorem collected_nil {α κ : Type} (key : α → Option κ) (held : List α) :
    Collected key held [] held where
  kept _ := id
  only _ := Or.inl
  taken _ given := absurd given List.not_mem_nil

theorem collected_extendSet {α κ : Type} [DecidableEq κ] (key : α → Option κ)
    (held rows : List α) : Collected key held rows (extendSet key held rows) := by
  induction rows generalizing held with
  | nil => exact collected_nil key held
  | cons first rest ih =>
      unfold extendSet
      rw [List.foldl_cons]
      split_ifs with taken
      · have later := ih held
        refine ⟨later.kept, fun row stored => ?_, fun row given => ?_⟩
        · exact (later.only row stored).imp_right (List.mem_cons_of_mem first)
        · rcases List.mem_cons.mp given with rfl | inRest
          · obtain ⟨other, otherMem, sameKey⟩ := List.mem_map.mp taken
            exact ⟨other, later.kept other otherMem, sameKey⟩
          · exact later.taken row inRest
      · have later := ih (held ++ [first])
        refine ⟨fun row isHeld => later.kept row (List.mem_append_left _ isHeld),
          fun row stored => ?_, fun row given => ?_⟩
        · rcases later.only row stored with earlier | inRest
          · rcases List.mem_append.mp earlier with isHeld | isFirst
            · exact Or.inl isHeld
            · exact Or.inr (List.mem_singleton.mp isFirst ▸ List.mem_cons_self)
          · exact Or.inr (List.mem_cons_of_mem first inRest)
        · rcases List.mem_cons.mp given with rfl | inRest
          · exact ⟨row, later.kept row (List.mem_append_right _ List.mem_cons_self), rfl⟩
          · exact later.taken row inRest

/-- Two lists have the same rows up to a projection. -/
structure Matches {α β : Type} (project : α → β) (first second : List α) : Prop where
  onto : ∀ row ∈ first, ∃ other ∈ second, project other = project row
  back : ∀ row ∈ second, ∃ other ∈ first, project other = project row

theorem Matches.of_mem_iff {α β : Type} {project : α → β} {first second : List α}
    (same : ∀ row, row ∈ first ↔ row ∈ second) : Matches project first second where
  onto row inFirst := ⟨row, (same row).mp inFirst, rfl⟩
  back row inSecond := ⟨row, (same row).mpr inSecond, rfl⟩

theorem Matches.trans {α β : Type} {project : α → β} {first second third : List α}
    (one : Matches project first second) (two : Matches project second third) :
    Matches project first third where
  onto row inFirst := by
    obtain ⟨middle, inSecond, same⟩ := one.onto row inFirst
    obtain ⟨other, inThird, sameAgain⟩ := two.onto middle inSecond
    exact ⟨other, inThird, sameAgain.trans same⟩
  back row inThird := by
    obtain ⟨middle, inSecond, same⟩ := two.back row inThird
    obtain ⟨other, inFirst, sameAgain⟩ := one.back middle inSecond
    exact ⟨other, inFirst, sameAgain.trans same⟩

theorem matches_of_mapM {α β : Type} {project : α → β} {convert : α → Option α}
    (same : ∀ row converted, convert row = some converted → project converted = project row)
    {rows converted : List α} (mapped : rows.mapM convert = some converted) :
    Matches project converted rows := by
  induction rows generalizing converted with
  | nil =>
      cases mapped
      exact Matches.of_mem_iff fun _ => Iff.rfl
  | cons row rest ih =>
      simp only [List.mapM_cons, Option.bind_eq_bind, Option.bind_eq_some_iff] at mapped
      obtain ⟨first, firstEq, others, othersEq, eq⟩ := mapped
      cases eq
      have later := ih othersEq
      refine ⟨fun other otherMem => ?_, fun other otherMem => ?_⟩
      · rcases List.mem_cons.mp otherMem with rfl | inRest
        · exact ⟨row, List.mem_cons_self, (same row other firstEq).symm⟩
        · obtain ⟨found, foundMem, like⟩ := later.onto other inRest
          exact ⟨found, List.mem_cons_of_mem row foundMem, like⟩
      · rcases List.mem_cons.mp otherMem with rfl | inRest
        · exact ⟨first, List.mem_cons_self, same other first firstEq⟩
        · obtain ⟨found, foundMem, like⟩ := later.back other inRest
          exact ⟨found, List.mem_cons_of_mem first foundMem, like⟩

/-- Resolving inputs from the batch writes columns that are not compared. -/
theorem matches_resolvedInputs {cliArgs : CliArgs} {loop : TransactionLoop}
    {txInputs : List TransactionInput} (resolved : loop.resolvedInputs cliArgs = some txInputs) :
    Matches TransactionInput.apartFromTime txInputs loop.txInputs := by
  unfold TransactionLoop.resolvedInputs at resolved
  split_ifs at resolved
  · refine matches_of_mapM (fun row converted preResolved => ?_) resolved
    simp only [TransactionLoop.preResolve, Option.bind_eq_bind, Option.bind_eq_some_iff]
      at preResolved
    obtain ⟨transactionId, _, index, _, found⟩ := preResolved
    split at found
    · cases found
      rfl
    · cases found
      rfl
  · cases resolved
    exact Matches.of_mem_iff fun _ => Iff.rfl

/-- Two transactions have the same rows apart from the columns not compared. -/
structure TransactionRows.Like (first second : TransactionRows) : Prop where
  transaction : first.transaction.apartFromTime = second.transaction.apartFromTime
  inputs : first.inputs.map TransactionInput.apartFromTime =
    second.inputs.map TransactionInput.apartFromTime
  outputs : first.outputs.map TransactionOutput.apartFromTime =
    second.outputs.map TransactionOutput.apartFromTime
  addresses : first.addresses.map AddressTransaction.apartFromTime =
    second.addresses.map AddressTransaction.apartFromTime
  scripts : first.scripts.map ScriptTransaction.apartFromTime =
    second.scripts.map ScriptTransaction.apartFromTime

namespace IndexedTable

variable {α : Type}

/-- The rows of an enabled table. -/
def rowsIf (enabled : Bool) (rows : List α) : List α :=
  if enabled then rows else []

theorem mem_rowsIf {enabled : Bool} {rows : List α} {row : α} :
    row ∈ rowsIf enabled rows ↔ enabled = true ∧ row ∈ rows := by
  unfold rowsIf
  split_ifs with isEnabled
  · simp [isEnabled]
  · simp [isEnabled]

theorem collected_rowsIf {κ : Type} {key : α → Option κ} {enabled : Bool}
    {held rows after : List α} (collected : Collected key held rows after) :
    Collected key (rowsIf enabled held) (rowsIf enabled rows) (rowsIf enabled after) := by
  cases enabled with
  | true => exact collected
  | false => exact collected_nil key []

theorem matches_rowsIf {β : Type} {project : α → β} {enabled : Bool} {first second : List α}
    (same : Matches project first second) :
    Matches project (rowsIf enabled first) (rowsIf enabled second) := by
  cases enabled with
  | true => exact same
  | false => exact Matches.of_mem_iff fun _ => Iff.rfl

theorem map_rowsIf {β : Type} {project : α → β} {enabled : Bool} {first second : List α}
    (same : first.map project = second.map project) :
    (rowsIf enabled first).map project = (rowsIf enabled second).map project := by
  cases enabled with
  | true => exact same
  | false => rfl

theorem rowsIf_nil (enabled : Bool) : rowsIf enabled ([] : List α) = [] :=
  ite_self []

end IndexedTable

/-- A statement for an enabled table. -/
def insertIf (enabled : Bool) (insert : InsertStatement) : List InsertStatement :=
  if enabled then [insert] else []

theorem flatMap_insertIf {α : Type} (listed : InsertStatement → List α) (enabled : Bool)
    (insert : InsertStatement) :
    (insertIf enabled insert).flatMap listed = IndexedTable.rowsIf enabled (listed insert) := by
  cases enabled with
  | true => exact List.flatMap_singleton listed insert
  | false => rfl

/-- The statements that store the rows of one transaction alone. -/
def aloneInserts (cliArgs : CliArgs) (rows : TransactionRows) (relation : BlockTransaction) :
    List InsertStatement :=
  insertIf (!cliArgs.isDisabled .transactionsTable) (.transactions [rows.transaction]) ++
  insertIf (!cliArgs.isDisabled .transactionsInputsTable) (.inputs false rows.inputs) ++
  insertIf (!cliArgs.isDisabled .transactionsOutputsTable) (.outputs rows.outputs) ++
  insertIf cliArgs.mapsAddresses (.addresses rows.addresses) ++
  insertIf cliArgs.mapsScripts (.scripts rows.scripts) ++
  insertIf (!cliArgs.isDisabled .blocksTransactionsTable) (.blocksTransactions [relation])

theorem flatMap_aloneInserts_blocksTransactions (cliArgs : CliArgs) (rows : TransactionRows)
    (relation : BlockTransaction) :
    (aloneInserts cliArgs rows relation).flatMap FilledTable.blocksTransactions.listed =
      IndexedTable.rowsIf (!cliArgs.isDisabled .blocksTransactionsTable) [relation] := by
  simp only [aloneInserts, List.flatMap_append, flatMap_insertIf, FilledTable.blocksTransactions,
    IndexedTable.rowsIf_nil, List.nil_append]

/-- A table with the rows a mapped transaction has for it, those a batch holds, and the
proof that a commit gives it the latter. -/
structure IndexedTable {α β κ : Type} (cliArgs : CliArgs) (key : α → Option κ) (project : α → β)
    extends FilledTable key project where
  mapped : TransactionRows → List α
  pending : PendingRows → List α
  pending_nothing : pending .nothing = []
  collected : ∀ held rows,
    Collected key (pending held) (mapped rows) (pending (held.add rows))
  mapped_like : ∀ {first second}, TransactionRows.Like first second →
    (mapped first).map project = (mapped second).map project
  alone : ∀ rows relation, (aloneInserts cliArgs rows relation).flatMap listed = mapped rows
  batch : ∀ loop txInputs, TransactionLoop.resolvedInputs cliArgs loop = some txInputs →
    Matches project ((loop.batchInserts cliArgs txInputs).flatMap listed)
      (pending loop.pendingRows)

namespace IndexedTable

variable (cliArgs : CliArgs)

def transactions : IndexedTable cliArgs Transaction.primaryKey Transaction.apartFromTime where
  toFilledTable := .transactions
  mapped rows := rowsIf (!cliArgs.isDisabled .transactionsTable) [rows.transaction]
  pending held := rowsIf (!cliArgs.isDisabled .transactionsTable) held.transactions
  pending_nothing := rowsIf_nil _
  collected _ _ := collected_rowsIf (collected_append _ _ _)
  mapped_like like := map_rowsIf (congrArg (fun row => [row]) like.transaction)
  alone rows relation := by
    simp only [aloneInserts, List.flatMap_append, flatMap_insertIf, FilledTable.transactions,
      rowsIf_nil, List.append_nil]
  batch _ _ _ := by
    refine Matches.of_mem_iff fun row => ?_
    rw [mem_listed_transactions, mem_rowsIf, Bool.not_eq_true']
    rfl

def inputs : IndexedTable cliArgs TransactionInput.primaryKey TransactionInput.apartFromTime where
  toFilledTable := .inputs
  mapped rows := rowsIf (!cliArgs.isDisabled .transactionsInputsTable) rows.inputs
  pending held := rowsIf (!cliArgs.isDisabled .transactionsInputsTable) held.inputs
  pending_nothing := rowsIf_nil _
  collected _ _ := collected_rowsIf (collected_append _ _ _)
  mapped_like like := map_rowsIf like.inputs
  alone rows relation := by
    simp only [aloneInserts, List.flatMap_append, flatMap_insertIf, FilledTable.inputs, rowsIf_nil,
      List.append_nil, List.nil_append]
  batch loop txInputs resolved := by
    have listed : Matches TransactionInput.apartFromTime
        ((loop.batchInserts cliArgs txInputs).flatMap FilledTable.inputs.listed)
        (rowsIf (!cliArgs.isDisabled .transactionsInputsTable) txInputs) := by
      refine Matches.of_mem_iff fun row => ?_
      rw [mem_listed_inputs, mem_rowsIf, Bool.not_eq_true']
    exact listed.trans (matches_rowsIf (matches_resolvedInputs resolved))

def outputs :
    IndexedTable cliArgs TransactionOutput.primaryKey TransactionOutput.apartFromTime where
  toFilledTable := .outputs
  mapped rows := rowsIf (!cliArgs.isDisabled .transactionsOutputsTable) rows.outputs
  pending held := rowsIf (!cliArgs.isDisabled .transactionsOutputsTable) held.outputs
  pending_nothing := rowsIf_nil _
  collected _ _ := collected_rowsIf (collected_append _ _ _)
  mapped_like like := map_rowsIf like.outputs
  alone rows relation := by
    simp only [aloneInserts, List.flatMap_append, flatMap_insertIf, FilledTable.outputs, rowsIf_nil,
      List.append_nil, List.nil_append]
  batch _ _ _ := by
    refine Matches.of_mem_iff fun row => ?_
    rw [mem_listed_outputs, mem_rowsIf, Bool.not_eq_true']
    rfl

def addresses :
    IndexedTable cliArgs AddressTransaction.primaryKey AddressTransaction.apartFromTime where
  toFilledTable := .addresses
  mapped rows := rowsIf cliArgs.mapsAddresses rows.addresses
  pending held := rowsIf cliArgs.mapsAddresses held.addresses
  pending_nothing := rowsIf_nil _
  collected _ _ := collected_rowsIf (collected_extendSet _ _ _)
  mapped_like like := map_rowsIf like.addresses
  alone rows relation := by
    simp only [aloneInserts, List.flatMap_append, flatMap_insertIf, FilledTable.addresses,
      rowsIf_nil, List.append_nil, List.nil_append]
  batch _ _ _ := by
    refine Matches.of_mem_iff fun row => ?_
    rw [mem_listed_addresses, mem_rowsIf]
    rfl

def scripts :
    IndexedTable cliArgs ScriptTransaction.primaryKey ScriptTransaction.apartFromTime where
  toFilledTable := .scripts
  mapped rows := rowsIf cliArgs.mapsScripts rows.scripts
  pending held := rowsIf cliArgs.mapsScripts held.scripts
  pending_nothing := rowsIf_nil _
  collected _ _ := collected_rowsIf (collected_extendSet _ _ _)
  mapped_like like := map_rowsIf like.scripts
  alone rows relation := by
    simp only [aloneInserts, List.flatMap_append, flatMap_insertIf, FilledTable.scripts, rowsIf_nil,
      List.append_nil, List.nil_append]
  batch _ _ _ := by
    refine Matches.of_mem_iff fun row => ?_
    rw [mem_listed_scripts, mem_rowsIf]
    rfl

end IndexedTable

end VecnoIndexer
