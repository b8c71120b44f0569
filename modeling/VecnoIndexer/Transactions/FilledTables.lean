import VecnoIndexer.Collections.Fallible
import VecnoIndexer.Transactions.ProcessTransactions

/-!
# What the inserts leave in a table

Each table the transaction processor fills is described by the rows a statement lists
for it, up to the columns in which occurrences of one transaction may differ.  What a
list of statements leaves is then said once for all of them.
-/

namespace VecnoIndexer

open VecnoIndexer.Sql
open VecnoIndexer.Collections

/-! ## Rows apart from the columns not compared -/

def Transaction.apartFromTime (row : Transaction) : Transaction :=
  { row with blockTime := none }

/-- The resolved columns depend on the order of the statements as well. -/
def TransactionInput.apartFromTime (row : TransactionInput) : TransactionInput :=
  { row with blockTime := none, previousOutpointScript := none, previousOutpointAmount := none }

def TransactionOutput.apartFromTime (row : TransactionOutput) : TransactionOutput :=
  { row with blockTime := none }

def AddressTransaction.apartFromTime (row : AddressTransaction) : AddressTransaction :=
  { row with blockTime := none }

def ScriptTransaction.apartFromTime (row : ScriptTransaction) : ScriptTransaction :=
  { row with blockTime := none }

/-! ## Tables under statements -/

/-- No row a join reads is gone. -/
structure Grows (db after : Db) : Prop where
  inputs : ∀ row ∈ db.transactionsInputs, row ∈ after.transactionsInputs
  outputs : ∀ row ∈ db.transactionsOutputs, row ∈ after.transactionsOutputs

theorem Grows.of_eq {db after : Db} (inputs : after.transactionsInputs = db.transactionsInputs)
    (outputs : after.transactionsOutputs = db.transactionsOutputs) : Grows db after where
  inputs _ stored := inputs ▸ stored
  outputs _ stored := outputs ▸ stored

theorem Grows.refl (db : Db) : Grows db db :=
  .of_eq rfl rfl

theorem Grows.trans {db middle after : Db} (first : Grows db middle) (second : Grows middle after) :
    Grows db after :=
  ⟨fun row stored => second.inputs row (first.inputs row stored),
    fun row stored => second.outputs row (first.outputs row stored)⟩

/-- The tables the transaction processor fills are the same. -/
structure SameTransactions (db after : Db) : Prop where
  transactions : after.transactions = db.transactions
  blocksTransactions : after.blocksTransactions = db.blocksTransactions
  inputs : after.transactionsInputs = db.transactionsInputs
  outputs : after.transactionsOutputs = db.transactionsOutputs
  addresses : after.addressesTransactions = db.addressesTransactions
  scripts : after.scriptsTransactions = db.scriptsTransactions

theorem SameTransactions.grows {db after : Db} (same : SameTransactions db after) :
    Grows db after :=
  .of_eq same.inputs same.outputs

namespace InsertStatement

theorem Leaves.grows {insert : InsertStatement} {db after : Db} (leaves : Leaves db after insert) :
    Grows db after := by
  cases insert with
  | addressesFromInputs useTx transactionIds =>
      obtain ⟨rows, _, rfl⟩ := leaves
      exact Grows.of_eq rfl rfl
  | scriptsFromInputs useTx transactionIds =>
      obtain ⟨rows, _, rfl⟩ := leaves
      exact Grows.of_eq rfl rfl
  | inputs resolvePreviousOutpoints rows =>
      cases leaves
      exact ⟨fun _ => Table.mem_insertAll_of_mem, fun _ stored => stored⟩
  | outputs rows =>
      cases leaves
      exact ⟨fun _ stored => stored, fun _ => Table.mem_insertAll_of_mem⟩
  | _ =>
      cases leaves
      exact Grows.of_eq rfl rfl

theorem grows_of_executeAll {inserts : List InsertStatement} {db final : Db}
    {script rest : Script} {total : ℕ}
    (ran : Session.run (executeAll inserts) db script = .done total final rest) :
    Grows db final :=
  executeAll_induction (motive := fun _ db final => Grows db final) Grows.refl
    (fun _ _ _ _ _ leaves later => leaves.grows.trans later) ran

end InsertStatement

/-- The rows a statement inserts are those of a join. -/
def InsertStatement.Joins : InsertStatement → Prop
  | addressesFromInputs _ _ => True
  | scriptsFromInputs _ _ => True
  | _ => False

/-- A table filled by statements: the rows each of them lists for it, and the rows that a
join may yield besides. -/
structure FilledTable {α β κ : Type} (key : α → Option κ) (project : α → β) where
  place : TableOf Db key
  listed : InsertStatement → List α
  joined : Db → α → Prop
  keyed : ∀ row other, project row = project other → key row = key other
  keyedRows : ∀ row, ∃ k, key row = some k
  decided : ∀ db row, joined db row → ∀ given, key given = key row → project row = project given
  joined_mono : ∀ {db after}, Grows db after → ∀ row, joined db row → joined after row
  frame : ∀ {db after}, SameTransactions db after → place.get after = place.get db
  filled_of_leaves : ∀ {insert : InsertStatement} {db after},
    InsertStatement.Leaves db after insert →
    Filled project (listed insert) (fun row => insert.Joins ∧ joined after row)
      (place.get db) (place.get after)

namespace FilledTable

variable {α β κ : Type} {key : α → Option κ} {project : α → β} (table : FilledTable key project)

/-- Statements that returned have filled the table with the rows they list. -/
theorem filled_of_executeAll {inserts : List InsertStatement} {db final : Db}
    {script rest : Script} {total : ℕ}
    (ran : Session.run (InsertStatement.executeAll inserts) db script = .done total final rest) :
    Filled project (inserts.flatMap table.listed)
      (fun row => (∃ insert ∈ inserts, insert.Joins) ∧ table.joined final row)
      (table.place.get db) (table.place.get final) := by
  have grown := InsertStatement.executeAll_induction
    (motive := fun inserts db final => Grows db final ∧
      Filled project (inserts.flatMap table.listed)
        (fun row => (∃ insert ∈ inserts, insert.Joins) ∧ table.joined final row)
        (table.place.get db) (table.place.get final))
    (fun db => ⟨Grows.refl db, Filled.refl _⟩)
    (fun insert later db middle final leaves ⟨grows, filled⟩ => by
      have first : Filled project (table.listed insert)
          (fun row => (∃ other ∈ insert :: later, other.Joins) ∧ table.joined final row)
          (table.place.get db) (table.place.get middle) :=
        (table.filled_of_leaves leaves).mono fun row ⟨joins, joined⟩ =>
          ⟨⟨insert, List.mem_cons_self, joins⟩, table.joined_mono grows row joined⟩
      have others : Filled project (later.flatMap table.listed)
          (fun row => (∃ other ∈ insert :: later, other.Joins) ∧ table.joined final row)
          (table.place.get middle) (table.place.get final) :=
        filled.mono fun row ⟨⟨other, otherMem, joins⟩, joined⟩ =>
          ⟨⟨other, List.mem_cons_of_mem insert otherMem, joins⟩, joined⟩
      exact ⟨leaves.grows.trans grows, first.trans others⟩)
    ran
  exact grown.2

end FilledTable

/-! ## The rows of spent outputs -/

theorem spentOutput_of_grows {db after : Db} (grows : Grows db after) {input : TransactionInput}
    {output : TransactionOutput} (spent : db.spentOutput input = some output) :
    after.spentOutput input = some output := by
  simp only [Db.spentOutput, Option.bind_eq_bind, Option.bind_eq_some_iff] at spent ⊢
  obtain ⟨transactionId, hashEq, index, indexEq, found⟩ := spent
  obtain ⟨outputMem, outputKey⟩ := Table.lookup_eq_some_iff.mp found
  exact ⟨transactionId, hashEq, index, indexEq,
    Table.lookup_eq_some_iff.mpr ⟨grows.outputs output outputMem, outputKey⟩⟩

/-- A stored input of the transaction spends a stored output with some property. -/
def Db.Spends (db : Db) (transactionId : Hash) (property : TransactionOutput → Prop) : Prop :=
  ∃ input ∈ db.transactionsInputs, input.transactionId = transactionId ∧
    ∃ output, db.spentOutput input = some output ∧ property output

theorem Db.Spends.of_grows {db after : Db} (grows : Grows db after) {transactionId : Hash}
    {property : TransactionOutput → Prop} (spends : db.Spends transactionId property) :
    after.Spends transactionId property := by
  obtain ⟨input, inputMem, isInput, output, spent, holds⟩ := spends
  exact ⟨input, grows.inputs input inputMem, isInput, output, spentOutput_of_grows grows spent,
    holds⟩

/-- The row relates a transaction to an address of its inputs. -/
def Db.SpentAddress (db : Db) (row : AddressTransaction) : Prop :=
  db.Spends row.transactionId fun output => output.scriptPublicKeyAddress = some row.address

def Db.SpentScript (db : Db) (row : ScriptTransaction) : Prop :=
  db.Spends row.transactionId fun output => output.scriptPublicKey = some row.scriptPublicKey

theorem spentAddress_of_mapM {db : Db} {useTx : Bool} {transactionIds : List Hash}
    {rows : List AddressTransaction}
    (joined : (db.spentInputs useTx transactionIds).mapM SpentInput.addressTransaction = .ok rows)
    {row : AddressTransaction} (rowMem : row ∈ rows) : db.SpentAddress row := by
  obtain ⟨spent, spentMem, converted⟩ := (mem_of_mapM_eq_ok joined).mp rowMem
  obtain ⟨input, inputMem, sameId, _, _, outputEq⟩ := exists_of_mem_spentInputs spentMem
  unfold SpentInput.addressTransaction at converted
  cases addressEq : spent.output.scriptPublicKeyAddress with
  | none =>
      rw [addressEq] at converted
      contradiction
  | some address =>
      rw [addressEq] at converted
      cases converted
      exact ⟨input, inputMem, sameId, spent.output, outputEq, addressEq⟩

theorem spentScript_of_mapM {db : Db} {useTx : Bool} {transactionIds : List Hash}
    {rows : List ScriptTransaction}
    (joined : (db.spentInputs useTx transactionIds).mapM SpentInput.scriptTransaction = .ok rows)
    {row : ScriptTransaction} (rowMem : row ∈ rows) : db.SpentScript row := by
  obtain ⟨spent, spentMem, converted⟩ := (mem_of_mapM_eq_ok joined).mp rowMem
  obtain ⟨input, inputMem, sameId, _, _, outputEq⟩ := exists_of_mem_spentInputs spentMem
  unfold SpentInput.scriptTransaction at converted
  cases scriptEq : spent.output.scriptPublicKey with
  | none =>
      rw [scriptEq] at converted
      contradiction
  | some script =>
      rw [scriptEq] at converted
      cases converted
      exact ⟨input, inputMem, sameId, spent.output, outputEq, scriptEq⟩

/-! ## The tables -/

namespace FilledTable

def transactions : FilledTable Transaction.primaryKey Transaction.apartFromTime where
  place := transactionsTable
  listed
    | .transactions rows => rows
    | _ => []
  joined _ _ := False
  keyed _ _ same := by
    have keys := congrArg Transaction.primaryKey same
    exact keys
  keyedRows _ := ⟨_, rfl⟩
  decided _ _ impossible := impossible.elim
  joined_mono _ _ := id
  frame same := same.transactions
  filled_of_leaves := by
    intro insert db after leaves
    cases insert with
    | transactions rows =>
        cases leaves
        exact filled_insertAll _ _ _ _
    | addressesFromInputs useTx transactionIds =>
        obtain ⟨_, _, rfl⟩ := leaves
        exact Filled.refl _
    | scriptsFromInputs useTx transactionIds =>
        obtain ⟨_, _, rfl⟩ := leaves
        exact Filled.refl _
    | _ =>
        cases leaves
        exact Filled.refl _

/-- An input is resolved in columns that are not compared. -/
theorem apartFromTime_resolveInput (db : Db) (row : TransactionInput) :
    (db.resolveInput row).apartFromTime = row.apartFromTime :=
  rfl

def inputs : FilledTable TransactionInput.primaryKey TransactionInput.apartFromTime where
  place := inputsTable
  listed
    | .inputs _ rows => rows
    | _ => []
  joined _ _ := False
  keyed _ _ same := by
    have keys := congrArg TransactionInput.primaryKey same
    exact keys
  keyedRows _ := ⟨_, rfl⟩
  decided _ _ impossible := impossible.elim
  joined_mono _ _ := id
  frame same := same.inputs
  filled_of_leaves := by
    intro insert db after leaves
    cases insert with
    | inputs resolvePreviousOutpoints rows =>
        cases leaves
        cases resolvePreviousOutpoints with
        | false => exact filled_insertAll _ _ _ _
        | true =>
            refine (filled_insertAll _ _ db.transactionsInputs (rows.map db.resolveInput)).congr
              ?_ fun row given => ⟨db.resolveInput row, List.mem_map_of_mem given, rfl⟩
            intro resolved isResolved
            obtain ⟨row, given, rfl⟩ := List.mem_map.mp isResolved
            exact ⟨row, given, (apartFromTime_resolveInput db row).symm⟩
    | addressesFromInputs useTx transactionIds =>
        obtain ⟨_, _, rfl⟩ := leaves
        exact Filled.refl _
    | scriptsFromInputs useTx transactionIds =>
        obtain ⟨_, _, rfl⟩ := leaves
        exact Filled.refl _
    | _ =>
        cases leaves
        exact Filled.refl _

def outputs : FilledTable TransactionOutput.primaryKey TransactionOutput.apartFromTime where
  place := outputsTable
  listed
    | .outputs rows => rows
    | _ => []
  joined _ _ := False
  keyed _ _ same := by
    have keys := congrArg TransactionOutput.primaryKey same
    exact keys
  keyedRows _ := ⟨_, rfl⟩
  decided _ _ impossible := impossible.elim
  joined_mono _ _ := id
  frame same := same.outputs
  filled_of_leaves := by
    intro insert db after leaves
    cases insert with
    | outputs rows =>
        cases leaves
        exact filled_insertAll _ _ _ _
    | addressesFromInputs useTx transactionIds =>
        obtain ⟨_, _, rfl⟩ := leaves
        exact Filled.refl _
    | scriptsFromInputs useTx transactionIds =>
        obtain ⟨_, _, rfl⟩ := leaves
        exact Filled.refl _
    | _ =>
        cases leaves
        exact Filled.refl _

def addresses : FilledTable AddressTransaction.primaryKey AddressTransaction.apartFromTime where
  place := addressesTable
  listed
    | .addresses rows => rows
    | _ => []
  joined := Db.SpentAddress
  keyed _ _ same := by
    have keys := congrArg AddressTransaction.primaryKey same
    exact keys
  keyedRows _ := ⟨_, rfl⟩
  decided _ row _ given sameKey := by
    simp only [AddressTransaction.primaryKey, Option.some.injEq, Prod.mk.injEq] at sameKey
    simp [AddressTransaction.apartFromTime, sameKey]
  joined_mono grows _ := Db.Spends.of_grows grows
  frame same := same.addresses
  filled_of_leaves := by
    intro insert db after leaves
    cases insert with
    | addresses rows =>
        cases leaves
        exact filled_insertAll _ _ _ _
    | addressesFromInputs useTx transactionIds =>
        obtain ⟨rows, joined, rfl⟩ := leaves
        apply filled_insertAll_beside
        exact fun row given =>
          ⟨trivial, (spentAddress_of_mapM joined given).of_grows (.of_eq rfl rfl)⟩
    | scriptsFromInputs useTx transactionIds =>
        obtain ⟨_, _, rfl⟩ := leaves
        exact Filled.refl _
    | _ =>
        cases leaves
        exact Filled.refl _

def scripts : FilledTable ScriptTransaction.primaryKey ScriptTransaction.apartFromTime where
  place := scriptsTable
  listed
    | .scripts rows => rows
    | _ => []
  joined := Db.SpentScript
  keyed _ _ same := by
    have keys := congrArg ScriptTransaction.primaryKey same
    exact keys
  keyedRows _ := ⟨_, rfl⟩
  decided _ row _ given sameKey := by
    simp only [ScriptTransaction.primaryKey, Option.some.injEq, Prod.mk.injEq] at sameKey
    simp [ScriptTransaction.apartFromTime, sameKey]
  joined_mono grows _ := Db.Spends.of_grows grows
  frame same := same.scripts
  filled_of_leaves := by
    intro insert db after leaves
    cases insert with
    | scripts rows =>
        cases leaves
        exact filled_insertAll _ _ _ _
    | scriptsFromInputs useTx transactionIds =>
        obtain ⟨rows, joined, rfl⟩ := leaves
        apply filled_insertAll_beside
        exact fun row given =>
          ⟨trivial, (spentScript_of_mapM joined given).of_grows (.of_eq rfl rfl)⟩
    | addressesFromInputs useTx transactionIds =>
        obtain ⟨_, _, rfl⟩ := leaves
        exact Filled.refl _
    | _ =>
        cases leaves
        exact Filled.refl _

def blocksTransactions : FilledTable BlockTransaction.primaryKey id where
  place := blocksTransactionsTable
  listed
    | .blocksTransactions rows => rows
    | _ => []
  joined _ _ := False
  keyed _ _ same := by
    have keys := congrArg BlockTransaction.primaryKey same
    exact keys
  keyedRows _ := ⟨_, rfl⟩
  decided _ _ impossible := impossible.elim
  joined_mono _ _ := id
  frame same := same.blocksTransactions
  filled_of_leaves := by
    intro insert db after leaves
    cases insert with
    | blocksTransactions rows =>
        cases leaves
        exact filled_insertAll _ _ _ _
    | addressesFromInputs useTx transactionIds =>
        obtain ⟨_, _, rfl⟩ := leaves
        exact Filled.refl _
    | scriptsFromInputs useTx transactionIds =>
        obtain ⟨_, _, rfl⟩ := leaves
        exact Filled.refl _
    | _ =>
        cases leaves
        exact Filled.refl _

end FilledTable

end VecnoIndexer
