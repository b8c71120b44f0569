import VecnoIndexer.Transactions.Iterations

/-!
# Where the rows come from

A row of the tables that the two processors fill is that of a block or a transaction that was
received, or of an imported entry.  An input may carry the script and the amount of an output
that it spends, and a transaction may be related to the address of such an output; these come
from rows too.  No statement stores anything else.
-/

namespace VecnoIndexer

open VecnoIndexer.Sql
open VecnoIndexer.Collections

/-! ## Rows -/

/-- A row of one of the tables that the two processors fill. -/
inductive IndexedRow where
  | block (row : Block)
  | parent (row : BlockParent)
  | transaction (row : Transaction)
  | relation (row : BlockTransaction)
  | input (row : TransactionInput)
  | output (row : TransactionOutput)
  | address (row : AddressTransaction)
  | script (row : ScriptTransaction)

def Db.Stores (db : Db) : IndexedRow → Prop
  | .block row => row ∈ db.blocks
  | .parent row => row ∈ db.blockParent
  | .transaction row => row ∈ db.transactions
  | .relation row => row ∈ db.blocksTransactions
  | .input row => row ∈ db.transactionsInputs
  | .output row => row ∈ db.transactionsOutputs
  | .address row => row ∈ db.addressesTransactions
  | .script row => row ∈ db.scriptsTransactions

/-- The rows that a batch of the block processor holds. -/
def BlockLoop.Holds (loop : BlockLoop) : IndexedRow → Prop
  | .block row => row ∈ loop.blocks
  | .parent row => row ∈ loop.blocksParents
  | .transaction _ | .relation _ | .input _ | .output _ | .address _ | .script _ => False

/-- The rows that a batch of the transaction processor holds. -/
def TransactionLoop.Holds (loop : TransactionLoop) : IndexedRow → Prop
  | .transaction row => row ∈ loop.transactions
  | .relation row => row ∈ loop.blockTx
  | .input row => row ∈ loop.txInputs
  | .output row => row ∈ loop.txOutputs
  | .address row => row ∈ loop.txAddressTransactions
  | .script row => row ∈ loop.txScriptTransactions
  | .block _ | .parent _ => False

/-- The rows that a statement inserts. -/
def InsertStatement.Inserts (db : Db) : InsertStatement → IndexedRow → Prop
  | .transactions rows, .transaction row => row ∈ rows
  | .inputs resolve rows, .input row =>
      row ∈ if resolve then rows.map db.resolveInput else rows
  | .outputs rows, .output row => row ∈ rows
  | .addresses rows, .address row => row ∈ rows
  | .scripts rows, .script row => row ∈ rows
  | .blocksTransactions rows, .relation row => row ∈ rows
  | .addressesFromInputs _ _, .address row => db.SpentAddress row
  | .scriptsFromInputs _ _, .script row => db.SpentScript row
  | _, _ => False

/-- What is stored after a statement was stored before, or it inserts it. -/
theorem InsertStatement.Leaves.stores {insert : InsertStatement} {db after : Db}
    (leaves : InsertStatement.Leaves db after insert) {row : IndexedRow}
    (stored : after.Stores row) : db.Stores row ∨ insert.Inserts db row := by
  cases insert with
  | transactions rows =>
      cases leaves
      cases row with
      | transaction row => exact Table.mem_or_mem_of_mem_insertAll stored
      | _ => exact Or.inl stored
  | inputs resolve rows =>
      cases leaves
      cases row with
      | input row => exact Table.mem_or_mem_of_mem_insertAll stored
      | _ => exact Or.inl stored
  | outputs rows =>
      cases leaves
      cases row with
      | output row => exact Table.mem_or_mem_of_mem_insertAll stored
      | _ => exact Or.inl stored
  | addresses rows =>
      cases leaves
      cases row with
      | address row => exact Table.mem_or_mem_of_mem_insertAll stored
      | _ => exact Or.inl stored
  | scripts rows =>
      cases leaves
      cases row with
      | script row => exact Table.mem_or_mem_of_mem_insertAll stored
      | _ => exact Or.inl stored
  | blocksTransactions rows =>
      cases leaves
      cases row with
      | relation row => exact Table.mem_or_mem_of_mem_insertAll stored
      | _ => exact Or.inl stored
  | addressesFromInputs useTx transactionIds =>
      obtain ⟨rows, joined, rfl⟩ := leaves
      cases row with
      | address row =>
          exact (Table.mem_or_mem_of_mem_insertAll stored).imp_right (spentAddress_of_mapM joined)
      | _ => exact Or.inl stored
  | scriptsFromInputs useTx transactionIds =>
      obtain ⟨rows, joined, rfl⟩ := leaves
      cases row with
      | script row =>
          exact (Table.mem_or_mem_of_mem_insertAll stored).imp_right (spentScript_of_mapM joined)
      | _ => exact Or.inl stored

/-! ## What was received -/

/-- The blocks that the node sent and the output rows of the entries that peers sent. -/
structure Received where
  blocks : List RpcBlock
  imported : List TransactionOutput

def TransactionInput.Spends (input : TransactionInput) (output : TransactionOutput) : Prop :=
  input.previousOutpointHash = some output.transactionId ∧
    input.previousOutpointIndex = some output.index

theorem spends_of_spentOutput {db : Db} {input : TransactionInput} {output : TransactionOutput}
    (spent : db.spentOutput input = some output) :
    output ∈ db.transactionsOutputs ∧ input.Spends output := by
  simp only [Db.spentOutput, Option.bind_eq_bind, Option.bind_eq_some_iff] at spent
  obtain ⟨transactionId, hashEq, index, indexEq, found⟩ := spent
  obtain ⟨stored, outputKey⟩ := Table.lookup_eq_some_iff.mp found
  cases outputKey
  exact ⟨stored, hashEq, indexEq⟩

/-- The columns of an input that tell the output it spends are those of such an output. -/
structure ResolvedFrom (outputs : TransactionOutput → Prop) (input : TransactionInput) : Prop where
  script : ∀ script, input.previousOutpointScript = some script →
    ∃ output, outputs output ∧ input.Spends output ∧ output.scriptPublicKey = some script
  amount : ∀ amount, input.previousOutpointAmount = some amount →
    ∃ output, outputs output ∧ input.Spends output ∧ output.amount = some amount

def TransactionInput.unresolved (input : TransactionInput) : TransactionInput :=
  { input with
    previousOutpointScript := none
    previousOutpointAmount := none }

namespace Received

variable (cliArgs : CliArgs) (start : Db) (received : Received)

def transactions : List RpcTransaction :=
  received.blocks.flatMap RpcBlock.transactions

/-- An output of a transaction, or an imported one. -/
def YieldsOutput (row : TransactionOutput) : Prop :=
  row ∈ received.imported ∨ ∃ transaction ∈ received.transactions, ∃ rows,
    (VecnoDbMapper.new cliArgs).mapTransactionOutputs transaction = some rows ∧ row ∈ rows

/-- An input of a transaction, which may be resolved. -/
def YieldsInput (row : TransactionInput) : Prop :=
  ∃ transaction ∈ received.transactions, ∃ rows,
    (VecnoDbMapper.new cliArgs).mapTransactionInputs transaction = some rows ∧
      row.unresolved ∈ rows ∧
      ResolvedFrom
        (fun output =>
          output ∈ start.transactionsOutputs ∨ received.YieldsOutput cliArgs output) row

/-- An input of the transaction spends an output with some property. -/
def Spends (transactionId : Hash) (property : TransactionOutput → Prop) : Prop :=
  ∃ input output,
    (input ∈ start.transactionsInputs ∨ received.YieldsInput cliArgs start input) ∧
    (output ∈ start.transactionsOutputs ∨ received.YieldsOutput cliArgs output) ∧
    input.transactionId = transactionId ∧ input.Spends output ∧ property output

/-- The rows that what was received is mapped to. -/
def Yields : IndexedRow → Prop
  | .block row => ∃ block ∈ received.blocks, (VecnoDbMapper.new cliArgs).mapBlock block = some row
  | .parent row => ∃ block ∈ received.blocks, row ∈ VecnoDbMapper.mapBlockParents block
  | .transaction row => ∃ transaction ∈ received.transactions, ∃ key,
      (VecnoDbMapper.new cliArgs).mapTransaction transaction key = some row
  | .relation row => ∃ transaction ∈ received.transactions,
      VecnoDbMapper.mapBlockTransaction transaction = some row
  | .input row => received.YieldsInput cliArgs start row
  | .output row => received.YieldsOutput cliArgs row
  | .address row =>
      (∃ transaction ∈ received.transactions, ∃ rows,
        VecnoDbMapper.mapTransactionOutputsAddress transaction = some rows ∧ row ∈ rows) ∨
      received.Spends cliArgs start row.transactionId fun output =>
        output.scriptPublicKeyAddress = some row.address
  | .script row =>
      (∃ transaction ∈ received.transactions, ∃ rows,
        VecnoDbMapper.mapTransactionOutputsScript transaction = some rows ∧ row ∈ rows) ∨
      received.Spends cliArgs start row.transactionId fun output =>
        output.scriptPublicKey = some row.scriptPublicKey

/-- Every row was stored at the start, or comes from what was received. -/
def Explains (db : Db) : Prop :=
  ∀ row, db.Stores row → start.Stores row ∨ received.Yields cliArgs start row

variable {cliArgs start received} {db after : Db}

theorem explains_self : received.Explains cliArgs start start :=
  fun _ => Or.inl

theorem Explains.of_stores (explains : received.Explains cliArgs start db)
    (stores : ∀ row, after.Stores row → db.Stores row ∨ received.Yields cliArgs start row) :
    received.Explains cliArgs start after :=
  fun row stored => (stores row stored).elim (explains row) Or.inr

/-! ## Resolving inputs -/

theorem YieldsInput.of_mapped {transaction : RpcTransaction}
    (isReceived : transaction ∈ received.transactions) {rows : List TransactionInput}
    (mapped : (VecnoDbMapper.new cliArgs).mapTransactionInputs transaction = some rows)
    {row : TransactionInput} (rowMem : row ∈ rows) : received.YieldsInput cliArgs start row := by
  obtain ⟨same, noScript, noAmount⟩ : row.unresolved = row ∧ row.previousOutpointScript = none ∧
      row.previousOutpointAmount = none := by
    have mappedRows := mapped
    simp only [VecnoDbMapper.mapTransactionInputs, Option.bind_eq_bind, Option.bind_eq_some_iff]
      at mappedRows
    obtain ⟨verboseData, _, mappedRows⟩ := mappedRows
    obtain ⟨input, _, rowEq⟩ := exists_of_mem_mapM_eq_some mappedRows rowMem
    simp only [Option.bind_eq_some_iff] at rowEq
    obtain ⟨_, _, _, _, _, _, eq⟩ := rowEq
    cases eq
    exact ⟨rfl, rfl, rfl⟩
  refine ⟨transaction, isReceived, rows, mapped, same.symm ▸ rowMem, ?_, ?_⟩
  · intro script isScript
    rw [noScript] at isScript
    contradiction
  · intro amount isAmount
    rw [noAmount] at isAmount
    contradiction

/-- An input may be resolved from the outputs of its batch. -/
theorem YieldsInput.preResolve {row resolved : TransactionInput}
    (yields : received.YieldsInput cliArgs start row) {loop : TransactionLoop}
    (outputs : ∀ output ∈ loop.txOutputs, received.YieldsOutput cliArgs output)
    (preResolved : loop.preResolve row = some resolved) :
    received.YieldsInput cliArgs start resolved := by
  obtain ⟨transactionId, index, hashEq, indexEq, ⟨output, pending, rfl⟩ | ⟨_, rfl⟩⟩ :=
    TransactionLoop.preResolve_cases preResolved
  · obtain ⟨transaction, isReceived, rows, mapped, isRow, _⟩ := yields
    obtain ⟨held, rfl, rfl⟩ := TransactionLoop.mem_of_pendingOutput pending
    refine ⟨transaction, isReceived, rows, mapped, isRow, ?_, ?_⟩
    · exact fun script isScript =>
        ⟨output, Or.inr (outputs output held), ⟨hashEq, indexEq⟩, isScript⟩
    · exact fun amount isAmount =>
        ⟨output, Or.inr (outputs output held), ⟨hashEq, indexEq⟩, isAmount⟩
  · exact yields

/-- It may be resolved from a stored output as well. -/
theorem YieldsInput.resolveInput {row : TransactionInput}
    (yields : received.YieldsInput cliArgs start row)
    (explains : received.Explains cliArgs start db) :
    received.YieldsInput cliArgs start (db.resolveInput row) := by
  obtain ⟨transaction, isReceived, rows, mapped, isRow, resolved⟩ := yields
  refine ⟨transaction, isReceived, rows, mapped, isRow, ?_, ?_⟩
  · intro script isScript
    simp only [Db.resolveInput, Option.orElse_eq_orElse, Option.orElse_eq_or] at isScript
    rcases Option.or_eq_some_iff.mp isScript with own | ⟨_, joined⟩
    · exact resolved.script script own
    · obtain ⟨output, spent, scriptEq⟩ := Option.bind_eq_some_iff.mp joined
      obtain ⟨stored, spends⟩ := spends_of_spentOutput spent
      exact ⟨output, explains (.output output) stored, spends, scriptEq⟩
  · intro amount isAmount
    simp only [Db.resolveInput, Option.orElse_eq_orElse, Option.orElse_eq_or] at isAmount
    rcases Option.or_eq_some_iff.mp isAmount with own | ⟨_, joined⟩
    · exact resolved.amount amount own
    · obtain ⟨output, spent, amountEq⟩ := Option.bind_eq_some_iff.mp joined
      obtain ⟨stored, spends⟩ := spends_of_spentOutput spent
      exact ⟨output, explains (.output output) stored, spends, amountEq⟩

/-- What a join finds is explained by the rows it reads. -/
theorem Explains.spends (explains : received.Explains cliArgs start db) {transactionId : Hash}
    {property : TransactionOutput → Prop} (spends : db.Spends transactionId property) :
    received.Spends cliArgs start transactionId property := by
  obtain ⟨input, inputMem, isInput, output, spent, holds⟩ := spends
  obtain ⟨outputMem, isSpent⟩ := spends_of_spentOutput spent
  exact ⟨input, output, explains (.input input) inputMem, explains (.output output) outputMem,
    isInput, isSpent, holds⟩

end Received

/-! ## A batch of the transaction processor -/

namespace TransactionLoop

variable {cliArgs : CliArgs} {start : Db} {received : Received} {loop : TransactionLoop}

/-- The rows that a batch holds come from what was received. -/
def Explained (cliArgs : CliArgs) (start : Db) (received : Received) (loop : TransactionLoop) :
    Prop :=
  ∀ row, loop.Holds row → received.Yields cliArgs start row

theorem explained_loaded (now : ℕ) (results : List Subnetwork) :
    (loaded now results).Explained cliArgs start received := by
  intro row held
  cases row <;> exact absurd held (by first | exact List.not_mem_nil | exact id)

theorem Explained.resolvedInputs (explained : loop.Explained cliArgs start received) :
    ∀ row ∈ (loop.resolvedInputs cliArgs).getD [], received.YieldsInput cliArgs start row := by
  intro row isInput
  cases resolved : loop.resolvedInputs cliArgs with
  | none =>
      rw [resolved] at isInput
      contradiction
  | some txInputs =>
      rw [resolved, Option.getD_some] at isInput
      unfold TransactionLoop.resolvedInputs at resolved
      split_ifs at resolved
      · obtain ⟨held, heldMem, preResolved⟩ := exists_of_mem_mapM_eq_some resolved isInput
        exact (explained (.input held) heldMem).preResolve
          (fun output isOutput => explained (.output output) isOutput) preResolved
      · cases resolved
        exact explained (.input row) isInput

/-- The statements of a batch insert rows that come from what was received. -/
theorem Explained.inserts (explained : loop.Explained cliArgs start received) {db : Db}
    (explains : received.Explains cliArgs start db) {insert : InsertStatement}
    (ofBatch : BatchInsert cliArgs loop ((loop.resolvedInputs cliArgs).getD []) insert)
    {row : IndexedRow} (inserted : insert.Inserts db row) : received.Yields cliArgs start row := by
  cases ofBatch with
  | transactions enabled rows pending =>
      cases row with
      | transaction row => exact explained (.transaction row) (pending row inserted)
      | _ => contradiction
  | inputs enabled resolve rows pending =>
      cases row with
      | input row =>
          cases resolve with
          | false => exact explained.resolvedInputs row (pending row inserted)
          | true =>
              obtain ⟨given, isGiven, rfl⟩ := List.mem_map.mp inserted
              exact (explained.resolvedInputs given (pending given isGiven)).resolveInput explains
      | _ => contradiction
  | outputs enabled rows pending =>
      cases row with
      | output row => exact explained (.output row) (pending row inserted)
      | _ => contradiction
  | addresses maps rows pending =>
      cases row with
      | address row => exact explained (.address row) (pending row inserted)
      | _ => contradiction
  | scripts maps rows pending =>
      cases row with
      | script row => exact explained (.script row) (pending row inserted)
      | _ => contradiction
  | blocksTransactions enabled rows pending =>
      cases row with
      | relation row => exact explained (.relation row) (pending row inserted)
      | _ => contradiction
  | addressesFromInputs useTx transactionIds =>
      cases row with
      | address row => exact Or.inr (explains.spends inserted)
      | _ => contradiction
  | scriptsFromInputs useTx transactionIds =>
      cases row with
      | script row => exact Or.inr (explains.spends inserted)
      | _ => contradiction

/-- A transaction that was received adds its rows. -/
theorem Explained.collect (explained : loop.Explained cliArgs start received)
    {forgotten : Hash → Bool} {transaction : RpcTransaction} {key : Int} {after : TransactionLoop}
    (isReceived : transaction ∈ received.transactions)
    (collected : loop.collect cliArgs forgotten transaction key = some after) :
    after.Explained cliArgs start received := by
  obtain ⟨_, relation, _, relationEq, outcome⟩ := collect_cases collected
  have related : ∀ row ∈ loop.blockTx ++ [relation],
      received.Yields cliArgs start (.relation row) := by
    intro row isRow
    rcases List.mem_append.mp isRow with before | isNew
    · exact explained (.relation row) before
    · rw [List.mem_singleton.mp isNew]
      exact ⟨transaction, isReceived, relationEq⟩
  rcases outcome with ⟨_, rfl⟩ | ⟨rows, mapped, rfl⟩
  · intro row held
    cases row with
    | relation row => exact related row held
    | _ => exact explained _ held
  · obtain ⟨rowEq, inputsEq, outputsEq, addressesEq, scriptsEq⟩ := mapRows_eq_some_iff.mp mapped
    intro row held
    cases row with
    | relation row => exact related row held
    | transaction row =>
        rcases List.mem_append.mp held with before | isNew
        · exact explained (.transaction row) before
        · rw [List.mem_singleton.mp isNew]
          exact ⟨transaction, isReceived, key, rowEq⟩
    | input row =>
        rcases List.mem_append.mp held with before | isNew
        · exact explained (.input row) before
        · exact .of_mapped isReceived inputsEq isNew
    | output row =>
        rcases List.mem_append.mp held with before | isNew
        · exact explained (.output row) before
        · exact Or.inr ⟨transaction, isReceived, _, outputsEq, isNew⟩
    | address row =>
        rcases (collected_extendSet _ _ _).only row held with before | isNew
        · exact explained (.address row) before
        · split_ifs at addressesEq
          · exact Or.inl ⟨transaction, isReceived, _, addressesEq, isNew⟩
          · rw [← Option.some.inj addressesEq] at isNew
            contradiction
    | script row =>
        rcases (collected_extendSet _ _ _).only row held with before | isNew
        · exact explained (.script row) before
        · split_ifs at scriptsEq
          · exact Or.inl ⟨transaction, isReceived, _, scriptsEq, isNew⟩
          · rw [← Option.some.inj scriptsEq] at isNew
            contradiction
    | block row => contradiction
    | parent row => contradiction

theorem stores_withNumbering {db : Db} {numbering : Numbering} {row : IndexedRow} :
    (db.withNumbering numbering).Stores row ↔ db.Stores row := by
  cases row <;> rfl

/-- Iterations over received transactions store nothing else, however they end. -/
theorem explains_invariant (cliArgs : CliArgs) (start : Db) (received : Received) :
    IterationInvariant cliArgs (· ∈ received.transactions)
      (fun loop db => received.Explains cliArgs start db ∧ loop.Explained cliArgs start received)
      (received.Explains cliArgs start) := by
  apply iterationInvariant_of_batches
  · exact fun db numbering explains =>
      explains.of_stores fun row stored => Or.inl (stores_withNumbering.mp stored)
  · exact fun _ _ => id
  · intro loop known forgotten transaction key after isReceived explained collected
    have known : { loop with subnetworkMap := known }.Explained cliArgs start received := by
      intro row held
      cases row <;> exact explained _ held
    exact known.collect isReceived collected
  · intro loop input explained
    refine loop.keeps_insertBatch_of_leaves cliArgs input
      fun insert ofBatch db after leaves explains => ?_
    exact explains.of_stores fun row stored =>
      (leaves.stores stored).imp_right (explained.inserts explains ofBatch)
  · exact fun loop now => explained_loaded now []

end TransactionLoop

/-! ## A batch of the block processor -/

namespace BlockLoop

variable {settings : Settings} {start db final : Db} {received : Received}
  {loop after : BlockLoop}

def Explained (cliArgs : CliArgs) (start : Db) (received : Received) (loop : BlockLoop) : Prop :=
  ∀ row, loop.Holds row → received.Yields cliArgs start row

theorem explained_start (cliArgs : CliArgs) (db : Db) (received : Received) (now : ℕ) :
    (BlockLoop.start now).Explained cliArgs db received := by
  intro row held
  cases row <;> exact absurd held (by first | exact List.not_mem_nil | exact id)

/-- The queue holds blocks without their transactions, which the mapper of blocks does not
read. -/
theorem Explained.receive {cliArgs : CliArgs} (explained : loop.Explained cliArgs start received)
    {block : RpcBlock} (isReceived : block ∈ received.blocks)
    (taken : loop.receive cliArgs { block with transactions := [] } = some after) :
    after.Explained cliArgs start received := by
  rw [BlockLoop.receive, Option.bind_eq_bind, Option.bind_eq_some_iff] at taken
  obtain ⟨rows, mapped, eq⟩ := taken
  cases eq
  intro row held
  cases row with
  | block row =>
      rcases List.mem_append.mp held with before | isNew
      · exact explained (.block row) before
      · split_ifs at mapped
        · cases mapped
          contradiction
        · obtain ⟨mappedRow, rowEq, rfl⟩ := Option.map_eq_some_iff.mp mapped
          rw [List.mem_singleton.mp isNew]
          exact ⟨block, isReceived, rowEq⟩
  | parent row =>
      rcases List.mem_append.mp held with before | isNew
      · exact explained (.parent row) before
      · split_ifs at isNew
        · contradiction
        · exact ⟨block, isReceived, isNew⟩
  | _ => contradiction

/-- A commit stores rows of its batch only. -/
theorem Explained.keeps_commit (explained : loop.Explained settings.cliArgs start received)
    (synced : Bool) (input : BlockInput) :
    (loop.commit settings synced input).Keeps (received.Explains settings.cliArgs start) := by
  refine BlockLoop.keeps_commit ?_ ?_ ?_ settings synced input
  · intro db rows listed explains
    refine explains.of_stores fun row stored => ?_
    cases row with
    | block row =>
        exact (Table.mem_or_mem_of_mem_insertAll stored).imp_right
          fun isNew => explained (.block row) (listed isNew)
    | _ => exact Or.inl stored
  · intro db rows listed explains
    refine explains.of_stores fun row stored => ?_
    cases row with
    | parent row =>
        exact (Table.mem_or_mem_of_mem_insertAll stored).imp_right
          fun isNew => explained (.parent row) (listed isNew)
    | _ => exact Or.inl stored
  · intro db acceptances explains
    refine explains.of_stores fun row stored => Or.inl ?_
    cases row <;> exact stored

/-- The blocks on the queue are blocks received. -/
def Pops (received : Received) (input : BlockInput) : Prop :=
  ∀ blockData, input.popped = some blockData →
    ∃ block ∈ received.blocks, blockData.block = { block with transactions := [] }

theorem Explained.keeps_iterate (explained : loop.Explained settings.cliArgs start received)
    {input : BlockInput} (pops : Pops received input) :
    (loop.iterate settings input).Keeps (received.Explains settings.cliArgs start) := by
  refine keeps_iterate_of_commit fun blockData taken popped isTaken => ?_
  obtain ⟨block, isReceived, isBlock⟩ := pops blockData popped
  rw [isBlock] at isTaken
  exact (explained.receive isReceived isTaken).keeps_commit _ _

theorem Explained.iterate (explained : loop.Explained settings.cliArgs start received)
    {input : BlockInput} (pops : Pops received input) {script rest : Script}
    {pushed : List CheckpointBlock}
    (ran : Session.run (loop.iterate settings input) db script = .done (after, pushed) final rest) :
    after.Explained settings.cliArgs start received := by
  rcases done_iterate ran with ⟨_, rfl, _⟩ | ⟨blockData, taken, popped, isTaken, outcome⟩
  · exact explained
  · obtain ⟨block, isReceived, isBlock⟩ := pops blockData popped
    rw [isBlock] at isTaken
    rcases outcome with ⟨rfl, _⟩ | ⟨_, _, committed⟩
    · exact explained.receive isReceived isTaken
    · obtain ⟨counted, _, _, rfl⟩ := done_commit committed
      intro row held
      cases row <;> exact absurd held (by first | exact List.not_mem_nil | exact id)

end BlockLoop

end VecnoIndexer
