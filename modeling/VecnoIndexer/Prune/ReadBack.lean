import VecnoIndexer.Prune.Chunk
import VecnoIndexer.Transactions.Iterations

/-!
# Fields that were left out and are read back

An excluded field is stored as NULL.  The joins that index the outputs spent run only if
the column they need is kept.  The outpoint of an input is read without asking: the
resolver unwraps it before a commit, and the pruner decodes it from the inputs it
deletes.  These are the only two that miss a field.
-/

namespace VecnoIndexer

open VecnoIndexer.Sql
open VecnoIndexer.Collections
open VecnoIndexer.Transition

/-! ## The columns left out -/

/-- The outpoint is NULL exactly if it is excluded. -/
def TransactionInput.LeavesOut (cliArgs : CliArgs) (row : TransactionInput) : Prop :=
  row.previousOutpointHash.isSome = !cliArgs.isExcluded .txInPreviousOutpoint ∧
    row.previousOutpointIndex.isSome = !cliArgs.isExcluded .txInPreviousOutpoint

/-- The script and its address are NULL exactly if they are excluded. -/
def TransactionOutput.LeavesOut (cliArgs : CliArgs) (row : TransactionOutput) : Prop :=
  row.scriptPublicKey.isSome = !cliArgs.isExcluded .txOutScriptPublicKey ∧
    row.scriptPublicKeyAddress.isSome = !cliArgs.isExcluded .txOutScriptPublicKeyAddress

structure Db.LeavesOut (cliArgs : CliArgs) (db : Db) : Prop where
  inputs : ∀ row ∈ db.transactionsInputs, row.LeavesOut cliArgs
  outputs : ∀ row ∈ db.transactionsOutputs, row.LeavesOut cliArgs

structure TransactionLoop.LeavesOut (cliArgs : CliArgs) (loop : TransactionLoop) : Prop where
  inputs : ∀ row ∈ loop.txInputs, row.LeavesOut cliArgs
  outputs : ∀ row ∈ loop.txOutputs, row.LeavesOut cliArgs

section Columns

variable {cliArgs : CliArgs}

/-- Resolving an input leaves its outpoint. -/
theorem TransactionInput.LeavesOut.congr {first second : TransactionInput}
    (leavesOut : first.LeavesOut cliArgs) (same : first.apartFromTime = second.apartFromTime) :
    second.LeavesOut cliArgs := by
  have hashEq := congrArg TransactionInput.previousOutpointHash same
  have indexEq := congrArg TransactionInput.previousOutpointIndex same
  simp only [TransactionInput.apartFromTime] at hashEq indexEq
  unfold LeavesOut at leavesOut ⊢
  rwa [hashEq, indexEq] at leavesOut

theorem leavesOut_of_mem_inputs {transaction : RpcTransaction} {key : Int} {rows : TransactionRows}
    (mapped : mapRows cliArgs transaction key = some rows) :
    ∀ row ∈ rows.inputs, row.LeavesOut cliArgs := by
  intro row isMapped
  obtain ⟨_, inputsEq, _⟩ := mapRows_eq_some_iff.mp mapped
  simp only [VecnoDbMapper.mapTransactionInputs, Option.bind_eq_bind,
    Option.bind_eq_some_iff] at inputsEq
  obtain ⟨_, _, inputRows⟩ := inputsEq
  obtain ⟨_, _, rowEq⟩ := exists_of_mem_mapM_eq_some inputRows isMapped
  simp only [Option.bind_eq_some_iff] at rowEq
  obtain ⟨_, _, _, _, _, _, eq⟩ := rowEq
  cases eq
  exact ⟨isSome_thenSome _ _, isSome_thenSome _ _⟩

theorem leavesOut_of_mem_outputs {transaction : RpcTransaction} {key : Int} {rows : TransactionRows}
    (mapped : mapRows cliArgs transaction key = some rows) :
    ∀ row ∈ rows.outputs, row.LeavesOut cliArgs := by
  intro row isMapped
  obtain ⟨_, _, outputsEq, _⟩ := mapRows_eq_some_iff.mp mapped
  simp only [VecnoDbMapper.mapTransactionOutputs, Option.bind_eq_bind,
    Option.bind_eq_some_iff] at outputsEq
  obtain ⟨_, _, outputRows⟩ := outputsEq
  obtain ⟨_, _, rowEq⟩ := exists_of_mem_mapM_eq_some outputRows isMapped
  simp only [Option.bind_eq_some_iff] at rowEq
  obtain ⟨_, _, _, _, _, _, _, _, eq⟩ := rowEq
  cases eq
  exact ⟨isSome_thenSome _ _, isSome_thenSome _ _⟩

theorem Db.LeavesOut.congr {db after : Db} (leavesOut : db.LeavesOut cliArgs)
    (inputs : after.transactionsInputs = db.transactionsInputs)
    (outputs : after.transactionsOutputs = db.transactionsOutputs) : after.LeavesOut cliArgs where
  inputs row stored := leavesOut.inputs row (inputs ▸ stored)
  outputs row stored := leavesOut.outputs row (outputs ▸ stored)

theorem FromBatch.leavesOut {loop : TransactionLoop} {db after : Db}
    (fromBatch : FromBatch loop db after) (stored : db.LeavesOut cliArgs)
    (held : loop.LeavesOut cliArgs) : after.LeavesOut cliArgs := by
  constructor
  · intro row isStored
    rcases fromBatch.inputs row isStored with before | ⟨given, isHeld, same⟩
    · exact stored.inputs row before
    · exact (held.inputs given isHeld).congr same
  · intro row isStored
    rcases fromBatch.outputs row isStored with before | isHeld
    · exact stored.outputs row before
    · exact held.outputs row isHeld

theorem TransactionLoop.leavesOut_cleared (loop : TransactionLoop) (now : ℕ) :
    (loop.cleared now).LeavesOut cliArgs :=
  ⟨fun _ held => absurd held List.not_mem_nil, fun _ held => absurd held List.not_mem_nil⟩

/-- The columns left out are the same in the tables and in the batch, whatever happens. -/
theorem leavesOut_invariant (cliArgs : CliArgs) (given : RpcTransaction → Prop) :
    TransactionLoop.IterationInvariant cliArgs given
      (fun loop db => db.LeavesOut cliArgs ∧ loop.LeavesOut cliArgs) (Db.LeavesOut cliArgs) := by
  apply TransactionLoop.iterationInvariant_of_collect
  · exact fun db numbering stored => stored.congr rfl rfl
  · exact fun loop _ held => ⟨held.inputs, held.outputs⟩
  · intro loop subnetworkMap forgotten transaction key received held collected
    obtain ⟨_, _, _, _, ⟨_, rfl⟩ | ⟨rows, mapped, rfl⟩⟩ := TransactionLoop.collect_cases collected
    · exact ⟨held.inputs, held.outputs⟩
    · constructor
      · intro row isHeld
        exact (List.mem_append.mp isHeld).elim (held.inputs row)
          (leavesOut_of_mem_inputs mapped row)
      · intro row isHeld
        exact (List.mem_append.mp isHeld).elim (held.outputs row)
          (leavesOut_of_mem_outputs mapped row)
  · exact fun loop db after stored held fromBatch => fromBatch.leavesOut stored held
  · exact fun loop now => loop.leavesOut_cleared now

end Columns

/-! ## Assembling a batch -/

/-- A transaction as the node sends it: with its verbose data and those of its outputs, and with
numbers that fit their columns. -/
structure RpcTransaction.WellFormed (transaction : RpcTransaction)
    (verboseData : RpcTransactionVerboseData) : Prop where
  verboseData_eq : transaction.verboseData = some verboseData
  computeMass : InI32 verboseData.computeMass.toNat
  blockTime : InI64 verboseData.blockTime.toNat
  inputs_length : transaction.inputs.length ≤ 2 ^ 15
  outputs_length : transaction.outputs.length ≤ 2 ^ 15
  previousIndex : ∀ input ∈ transaction.inputs, InI16 input.previousOutpoint.index.toNat
  amount : ∀ output ∈ transaction.outputs, InI64 output.value.toNat
  address : ∀ output ∈ transaction.outputs, output.verboseData.isSome

section Assembling

variable {cliArgs : CliArgs} {transaction : RpcTransaction}
  {verboseData : RpcTransactionVerboseData}

theorem toI16_of_mem_zipIdx {α : Type} {values : List α} {value : α} {position : ℕ}
    (listed : (value, position) ∈ values.zipIdx) (bound : values.length ≤ 2 ^ 15) :
    toI16 position = some (position : Int) := by
  have inside : position < values.length := by
    have found := List.mem_zipIdx_iff_getElem?.mp listed
    exact (List.getElem?_eq_some_iff.mp found).1
  exact toI16_of_inI16 ⟨by omega, by omega⟩

namespace VecnoDbMapper

theorem exists_mapTransaction (wellFormed : transaction.WellFormed verboseData) (cliArgs : CliArgs)
    (key : Int) : ∃ row, (VecnoDbMapper.new cliArgs).mapTransaction transaction key = some row := by
  have computeMass := toI32_of_inI32 wellFormed.computeMass
  have blockTime := toI64_of_inI64 wellFormed.blockTime
  simp only [mapTransaction, Option.bind_eq_bind, Option.bind_eq_some_iff]
  exact ⟨_, verboseData, wellFormed.verboseData_eq, _, computeMass, _, blockTime, rfl⟩

theorem exists_mapTransactionInputs (wellFormed : transaction.WellFormed verboseData)
    (cliArgs : CliArgs) :
    ∃ rows, (VecnoDbMapper.new cliArgs).mapTransactionInputs transaction = some rows := by
  simp only [mapTransactionInputs, wellFormed.verboseData_eq, Option.bind_eq_bind,
    Option.bind_some]
  apply exists_mapM_eq_some
  rintro ⟨input, position⟩ listed
  have previousIndex := toI16_of_inI16 (wellFormed.previousIndex input
    (List.fst_mem_of_mem_zipIdx listed))
  rw [toI16_of_mem_zipIdx listed wellFormed.inputs_length, previousIndex,
    toI64_of_inI64 wellFormed.blockTime]
  exact ⟨_, rfl⟩

theorem exists_mapTransactionOutputs (wellFormed : transaction.WellFormed verboseData)
    (cliArgs : CliArgs) :
    ∃ rows, (VecnoDbMapper.new cliArgs).mapTransactionOutputs transaction = some rows := by
  simp only [mapTransactionOutputs, wellFormed.verboseData_eq, Option.bind_eq_bind,
    Option.bind_some]
  apply exists_mapM_eq_some
  rintro ⟨output, position⟩ listed
  have isOutput := List.fst_mem_of_mem_zipIdx listed
  obtain ⟨outputVerboseData, hasAddress⟩ :=
    Option.isSome_iff_exists.mp (wellFormed.address output isOutput)
  have amount := toI64_of_inI64 (wellFormed.amount output isOutput)
  rw [hasAddress, toI16_of_mem_zipIdx listed wellFormed.outputs_length, amount,
    toI64_of_inI64 wellFormed.blockTime]
  exact ⟨_, rfl⟩

theorem exists_mapTransactionOutputsAddress (wellFormed : transaction.WellFormed verboseData) :
    ∃ rows, mapTransactionOutputsAddress transaction = some rows := by
  simp only [mapTransactionOutputsAddress, wellFormed.verboseData_eq, Option.bind_eq_bind,
    Option.bind_some]
  apply exists_mapM_eq_some
  intro output isOutput
  obtain ⟨outputVerboseData, hasAddress⟩ :=
    Option.isSome_iff_exists.mp (wellFormed.address output isOutput)
  rw [hasAddress, toI64_of_inI64 wellFormed.blockTime]
  exact ⟨_, rfl⟩

theorem exists_mapTransactionOutputsScript (wellFormed : transaction.WellFormed verboseData) :
    ∃ rows, mapTransactionOutputsScript transaction = some rows := by
  simp only [mapTransactionOutputsScript, wellFormed.verboseData_eq, Option.bind_eq_bind,
    Option.bind_some]
  apply exists_mapM_eq_some
  intro output isOutput
  rw [toI64_of_inI64 wellFormed.blockTime]
  exact ⟨_, rfl⟩

end VecnoDbMapper

/-- What the mapper converts it converts whether the field is excluded or not. -/
theorem exists_mapRows (wellFormed : transaction.WellFormed verboseData) (cliArgs : CliArgs)
    (key : Int) : ∃ rows, mapRows cliArgs transaction key = some rows := by
  obtain ⟨row, rowEq⟩ := VecnoDbMapper.exists_mapTransaction wellFormed cliArgs key
  obtain ⟨inputRows, inputsEq⟩ := VecnoDbMapper.exists_mapTransactionInputs wellFormed cliArgs
  obtain ⟨outputRows, outputsEq⟩ := VecnoDbMapper.exists_mapTransactionOutputs wellFormed cliArgs
  obtain ⟨addressRows, addressesEq⟩ := VecnoDbMapper.exists_mapTransactionOutputsAddress wellFormed
  obtain ⟨scriptRows, scriptsEq⟩ := VecnoDbMapper.exists_mapTransactionOutputsScript wellFormed
  refine ⟨⟨row, inputRows, outputRows, if cliArgs.mapsAddresses then addressRows else [],
    if cliArgs.mapsScripts then scriptRows else []⟩,
    mapRows_eq_some_iff.mpr ⟨rowEq, inputsEq, outputsEq, ?_, ?_⟩⟩
  · rw [addressesEq]
    split_ifs <;> rfl
  · rw [scriptsEq]
    split_ifs <;> rfl

theorem TransactionLoop.isSome_collect (wellFormed : transaction.WellFormed verboseData)
    (cliArgs : CliArgs) (loop : TransactionLoop) (forgotten : Hash → Bool) (key : Int) :
    (loop.collect cliArgs forgotten transaction key).isSome = true := by
  obtain ⟨rows, mapped⟩ := exists_mapRows wellFormed cliArgs key
  simp only [collect, RpcTransaction.transactionId, VecnoDbMapper.mapBlockTransaction, mapped,
    wellFormed.verboseData_eq, Option.map_some, Option.bind_eq_bind, Option.bind_some]
  split_ifs <;> rfl

end Assembling

/-! ## Committing a batch -/

/-- A join needs a column of the outputs. -/
def InsertStatement.Reads (cliArgs : CliArgs) : InsertStatement → Prop
  | addressesFromInputs _ _ => cliArgs.isExcluded .txOutScriptPublicKeyAddress = false
  | scriptsFromInputs _ _ => cliArgs.isExcluded .txOutScriptPublicKey = false
  | _ => True

namespace TransactionLoop

variable {cliArgs : CliArgs} {loop : TransactionLoop} {db : Db}

/-- The joins are issued only if their column is kept. -/
theorem reads_of_mem_batchInserts {txInputs : List TransactionInput} {insert : InsertStatement}
    (member : insert ∈ loop.batchInserts cliArgs txInputs) : insert.Reads cliArgs := by
  cases batchPiece_of_mem member with
  | addressesFromInputs mapped transactionIds =>
      simp only [CliArgs.mapsAddresses, Bool.and_eq_true, Bool.not_eq_true'] at mapped
      exact mapped.2
  | scriptsFromInputs mapped transactionIds =>
      simp only [CliArgs.mapsScripts, Bool.and_eq_true, Bool.not_eq_true'] at mapped
      exact mapped.2.2
  | _ => trivial

/-- A join that is issued meets no NULL. -/
theorem exists_effect (stored : db.LeavesOut cliArgs) {insert : InsertStatement}
    (reads : insert.Reads cliArgs) :
    ∃ affected after, insert.effect db = .ok (affected, after) := by
  have spentOutputs : ∀ {useTx : Bool} {transactionIds : List Hash} {spent : SpentInput},
      spent ∈ db.spentInputs useTx transactionIds → spent.output.LeavesOut cliArgs := by
    intro useTx transactionIds spent isSpent
    obtain ⟨input, _, _, _, _, spends⟩ := exists_of_mem_spentInputs isSpent
    exact stored.outputs _ (spentOutput_eq_some_iff.mp spends).1
  cases insert with
  | addressesFromInputs useTx transactionIds =>
      have converts : ∀ spent ∈ db.spentInputs useTx transactionIds,
          ∃ row, spent.addressTransaction = .ok row := by
        intro spent isSpent
        have hasAddress := (spentOutputs isSpent).2
        rw [reads, Bool.not_false, Option.isSome_iff_exists] at hasAddress
        obtain ⟨address, addressEq⟩ := hasAddress
        exact ⟨⟨address, spent.transactionId, spent.blockTime⟩,
          by rw [SpentInput.addressTransaction, addressEq]⟩
      obtain ⟨rows, converted⟩ := exists_mapM_eq_ok converts
      simp only [InsertStatement.effect, converted]
      exact ⟨_, _, rfl⟩
  | scriptsFromInputs useTx transactionIds =>
      have converts : ∀ spent ∈ db.spentInputs useTx transactionIds,
          ∃ row, spent.scriptTransaction = .ok row := by
        intro spent isSpent
        have hasScript := (spentOutputs isSpent).1
        rw [reads, Bool.not_false, Option.isSome_iff_exists] at hasScript
        obtain ⟨script, scriptEq⟩ := hasScript
        exact ⟨⟨script, spent.transactionId, spent.blockTime⟩,
          by rw [SpentInput.scriptTransaction, scriptEq]⟩
      obtain ⟨rows, converted⟩ := exists_mapM_eq_ok converts
      simp only [InsertStatement.effect, converted]
      exact ⟨_, _, rfl⟩
  | _ => exact ⟨_, _, rfl⟩

theorem completes_executeAll (stored : db.LeavesOut cliArgs) (held : loop.LeavesOut cliArgs)
    {txInputs : List TransactionInput}
    (resolved : ∀ row ∈ txInputs, ∃ given ∈ loop.txInputs, given.apartFromTime = row.apartFromTime)
    {inserts : List InsertStatement}
    (issued : ∀ insert ∈ inserts, insert ∈ loop.batchInserts cliArgs txInputs) :
    ∃ total final, (InsertStatement.executeAll inserts).Completes db total final ∧
      final.LeavesOut cliArgs := by
  induction inserts generalizing db with
  | nil => exact ⟨0, db, Session.completes_pure 0 db, stored⟩
  | cons insert later ih =>
      have isIssued := issued insert List.mem_cons_self
      obtain ⟨affected, after, executed⟩ :=
        exists_effect stored (reads_of_mem_batchInserts isIssued)
      have fromBatch := (FromBatch.refl loop db).leaves (batchInsert_of_mem isIssued) resolved
        (InsertStatement.leaves_of_effect executed)
      obtain ⟨total, final, laterCompletes, leavesOut⟩ := ih (fromBatch.leavesOut stored held)
        fun other member => issued other (List.mem_cons_of_mem insert member)
      exact ⟨affected + total, final, (completes_of_executed executed).unwrap.bind
        (laterCompletes.bind (Session.completes_pure _ final)), leavesOut⟩

/-- If the inputs are resolved, the commit meets nothing that is missing. -/
theorem completes_commit (stored : db.LeavesOut cliArgs) (held : loop.LeavesOut cliArgs)
    {txInputs : List TransactionInput} (resolved : loop.resolvedInputs cliArgs = some txInputs)
    {input : TransactionsInput} (timestampValid : input.timestampValid = true) :
    ∃ final, (loop.commit cliArgs input).Completes db (loop.cleared input.commitNow) final := by
  have same := (matches_resolvedInputs resolved).onto
  have isFirst : ∀ insert ∈ input.firstOrder.order (loop.firstInserts cliArgs txInputs),
      insert ∈ loop.batchInserts cliArgs txInputs :=
    fun insert member => List.mem_append_left _ ((Reordering.mem_order _).mp member)
  have isSecond : ∀ insert ∈ input.secondOrder.order (loop.secondInserts cliArgs),
      insert ∈ loop.batchInserts cliArgs txInputs :=
    fun insert member => List.mem_append_right _ ((Reordering.mem_order _).mp member)
  obtain ⟨firstTotal, middle, first, middleStored⟩ := completes_executeAll stored held same isFirst
  obtain ⟨secondTotal, final, second, _⟩ := completes_executeAll middleStored held same isSecond
  have inserted : (loop.insertBatch cliArgs input).Completes db () final := by
    unfold insertBatch
    rw [resolved]
    exact first.bind (second.bind (Session.completes_pure () final))
  refine ⟨final, inserted.bind ?_⟩
  rw [if_pos timestampValid]
  exact Session.completes_pure _ final

/-- No outpoint is unwrapped in the commit. -/
def ResolvesNothing (cliArgs : CliArgs) (loop : TransactionLoop) : Prop :=
  cliArgs.isDisabled .transactionsInputsTable = true ∨
    cliArgs.isEnabled .transactionsInputsResolve = false ∨ loop.txInputs = []

theorem exists_preResolve_iff {row : TransactionInput} :
    (∃ resolved, loop.preResolve row = some resolved) ↔
      row.previousOutpointHash.isSome = true ∧ row.previousOutpointIndex.isSome = true := by
  unfold preResolve
  cases row.previousOutpointHash with
  | none => simp
  | some transactionId =>
      cases row.previousOutpointIndex with
      | none => simp
      | some index =>
          simp only [Option.bind_eq_bind, Option.bind_some]
          cases loop.pendingOutput transactionId index <;> simp

/-- The inputs of a batch are resolved unless an outpoint that was left out is unwrapped. -/
theorem exists_resolvedInputs_iff (held : loop.LeavesOut cliArgs) :
    (∃ txInputs, loop.resolvedInputs cliArgs = some txInputs) ↔
      cliArgs.isExcluded .txInPreviousOutpoint = false ∨ loop.ResolvesNothing cliArgs := by
  unfold resolvedInputs ResolvesNothing
  split_ifs with resolves
  · simp only [Bool.and_eq_true, Bool.not_eq_true'] at resolves
    constructor
    · rintro ⟨txInputs, resolved⟩
      cases batch : loop.txInputs with
      | nil => exact Or.inr (Or.inr (Or.inr rfl))
      | cons row rest =>
          have isHeld : row ∈ loop.txInputs := batch ▸ List.mem_cons_self
          obtain ⟨given, _, preResolved⟩ := exists_mem_of_mapM_eq_some resolved isHeld
          have present := (exists_preResolve_iff.mp ⟨given, preResolved⟩).1
          rw [(held.inputs row isHeld).1, Bool.not_eq_true'] at present
          exact Or.inl present
    · intro reads
      apply exists_mapM_eq_some
      intro row isHeld
      rw [exists_preResolve_iff, (held.inputs row isHeld).1, (held.inputs row isHeld).2]
      rcases reads with included | disabled | unresolved | nothing
      · simp [included]
      · rw [resolves.1] at disabled
        contradiction
      · rw [resolves.2] at unresolved
        contradiction
      · rw [nothing] at isHeld
        contradiction
  · refine iff_of_true ⟨_, rfl⟩ (Or.inr ?_)
    simp only [Bool.and_eq_true, Bool.not_eq_true', not_and, Bool.not_eq_true] at resolves
    cases disabled : cliArgs.isDisabled .transactionsInputsTable with
    | true => exact Or.inl rfl
    | false => exact Or.inr (Or.inl (resolves disabled))

end TransactionLoop

/-! ## Pruning what is stored -/

/-- No stored input belongs to a transaction whose time a cutoff can be past. -/
def Db.PrunesNoInput (db : Db) : Prop :=
  ∀ input ∈ db.transactionsInputs, ∀ row ∈ db.transactions,
    row.transactionId = input.transactionId → ∀ blockTime, row.blockTime = some blockTime →
      2 ^ 63 - 1 ≤ blockTime

/-- The acceptance of one transaction. -/
def acceptanceOf (transactionId : Hash) : Table TransactionAcceptance.uniqueKey where
  rows := [⟨some transactionId, none⟩]
  unique := List.pairwise_singleton _ _

theorem accepted_acceptanceOf (db : Db) (transactionId : Hash) :
    Db.accepted { db with transactionsAcceptances := acceptanceOf transactionId } transactionId =
      true := by
  simp [Db.accepted, acceptanceOf, Table.lookup, TransactionAcceptance.uniqueKey]

/-- A pruner meets a NULL exactly if it can reach an input whose outpoint was left out. -/
theorem prunes_iff {cliArgs : CliArgs} {db : Db} (stored : db.LeavesOut cliArgs) :
    (∀ acceptances choice cutoff batchSize, InI64 cutoff →
        pruneChunk choice cutoff batchSize { db with transactionsAcceptances := acceptances } ≠
          .error .unexpectedNull) ↔
      cliArgs.isExcluded .txInPreviousOutpoint = false ∨ db.PrunesNoInput := by
  constructor
  · intro prunes
    cases excluded : cliArgs.isExcluded .txInPreviousOutpoint with
    | false => exact Or.inl rfl
    | true =>
        refine Or.inr fun input isInput row isRow sameId blockTime rowTime => ?_
        by_contra early
        have expired : row ∈ expiredRows (2 ^ 63 - 1) db.transactions :=
          mem_expiredRows.mpr ⟨isRow, by rw [Transaction.Expired, rowTime]; omega⟩
        refine prunes (acceptanceOf input.transactionId) (.taking row) (2 ^ 63 - 1) 1
          ⟨by omega, by omega⟩ (pruneChunk_eq_error_iff.mpr ⟨input, isInput,
            accepted_acceptanceOf db input.transactionId, ?_, row,
            LimitChoice.mem_pick_taking expired, sameId⟩)
        have missing := (stored.inputs input isInput).1
        rw [excluded, Bool.not_true, Option.isSome_eq_false_iff, Option.isNone_iff_eq_none]
          at missing
        exact outpoint_eq_error_iff.mpr ⟨rfl, Or.inl missing⟩
  · rintro reads acceptances choice cutoff batchSize inRange failed
    obtain ⟨input, isInput, _, outpointEq, row, picked, sameId⟩ := pruneChunk_eq_error_iff.mp failed
    obtain ⟨isRow, expired⟩ := mem_expiredRows.mp (choice.mem_of_mem_pick picked)
    rcases reads with included | noInput
    · obtain ⟨hashPresent, indexPresent⟩ := stored.inputs input isInput
      rcases (outpoint_eq_error_iff.mp outpointEq).2 with missing | missing
      · rw [missing, included] at hashPresent
        contradiction
      · rw [missing, included] at indexPresent
        contradiction
    · unfold Transaction.Expired at expired
      cases rowTime : row.blockTime with
      | none =>
          rw [rowTime] at expired
          exact expired
      | some blockTime =>
          rw [rowTime] at expired
          have late := noInput input isInput row isRow sameId blockTime rowTime
          have bound := inRange.2
          simp only at expired
          omega

/-! ## The statement -/

/-- A batch beside the tables: processors were started any number of times from empty tables, and
the last one has taken some transactions after some steps. -/
inductive BatchReached (settings : Settings) : TransactionLoop → Db → Prop where
  | taken {base db : Db} {loop received : TransactionLoop} {script rest : Script}
      (processed : Processed settings .empty base) (now : ℕ) (events : List IndexingEvent)
      (running : (runFrom (IndexingWorld.step settings) (.start base now) events).transactionLoop =
        some loop)
      (forgotten : ℕ → Hash → Bool) (transactions : List RpcTransaction)
      (ran : Session.run (loop.receiveAll settings.cliArgs forgotten transactions)
        (runFrom (IndexingWorld.step settings) (.start base now) events).db script =
          .done received db rest) :
      BatchReached settings received db

theorem BatchReached.leavesOut {settings : Settings} {loop : TransactionLoop} {db : Db}
    (reached : BatchReached settings loop db) :
    db.LeavesOut settings.cliArgs ∧ loop.LeavesOut settings.cliArgs := by
  obtain @⟨base, _, before, _, script, rest, processed, now, events, running, forgotten,
    transactions, ran⟩ := reached
  have invariant := leavesOut_invariant settings.cliArgs fun _ => True
  have frame : ∀ db after, SameTransactions db after → db.LeavesOut settings.cliArgs →
      after.LeavesOut settings.cliArgs :=
    fun _ _ same stored => stored.congr same.inputs same.outputs
  have frameHeld : ∀ (loop : TransactionLoop) (db after : Db), SameTransactions db after →
      db.LeavesOut settings.cliArgs ∧ loop.LeavesOut settings.cliArgs →
        after.LeavesOut settings.cliArgs ∧ loop.LeavesOut settings.cliArgs :=
    fun _ db after same => And.imp_left (frame db after same)
  have loads : ∀ now (db : Db), db.LeavesOut settings.cliArgs → db.LeavesOut settings.cliArgs ∧
      (TransactionLoop.loaded now db.subnetworks.rows).LeavesOut settings.cliArgs :=
    fun _ _ stored => ⟨stored, fun _ held => absurd held List.not_mem_nil,
      fun _ held => absurd held List.not_mem_nil⟩
  have baseStored := processed.left_of_invariant invariant frameHeld frame loads
    ⟨fun row isStored => absurd isStored (Table.notMem_empty row),
      fun row isStored => absurd isStored (Table.notMem_empty row)⟩
  obtain ⟨_, held⟩ := holds_of_run invariant frameHeld frame loads baseStored now events
  obtain ⟨_, taken⟩ := invariant.receiveAll before forgotten
    (fun transaction (_ : transaction ∈ transactions) => trivial) _ script (held before running)
  exact taken loop db rest ran

/-- Nothing misses a field that was left out: transactions are assembled, the batch is committed
and what is stored can be pruned. -/
structure ReadsBack (cliArgs : CliArgs) (loop : TransactionLoop) (db : Db) : Prop where
  assembles : ∀ transaction verboseData, transaction.WellFormed verboseData → ∀ forgotten key,
    (loop.collect cliArgs forgotten transaction key).isSome = true
  commits : ∀ input : TransactionsInput, input.timestampValid = true →
    ∃ final, (loop.commit cliArgs input).Completes db (loop.cleared input.commitNow) final
  prunes : ∀ acceptances choice cutoff batchSize, InI64 cutoff →
    pruneChunk choice cutoff batchSize { db with transactionsAcceptances := acceptances } ≠
      .error .unexpectedNull

/-- A commit that completes has resolved the inputs. -/
theorem exists_resolvedInputs_of_commits {cliArgs : CliArgs} {loop : TransactionLoop} {db : Db}
    (commits : ∀ input : TransactionsInput, input.timestampValid = true →
      ∃ final, (loop.commit cliArgs input).Completes db (loop.cleared input.commitNow) final) :
    ∃ txInputs, loop.resolvedInputs cliArgs = some txInputs := by
  let input : TransactionsInput := {
    popped := none
    forgotten := fun _ _ => false
    now := 0
    commitNow := 0
    timestampValid := true
    firstOrder := .listed
    secondOrder := .listed }
  obtain ⟨final, completes⟩ := commits input rfl
  obtain ⟨rest, _, ran⟩ := completes (fun _ => .succeeds) fun _ => rfl
  obtain ⟨⟨left, insertRan⟩, _⟩ := TransactionLoop.done_commit ran
  obtain ⟨txInputs, _, _, _, resolved, _, _⟩ := TransactionLoop.done_insertBatch insertRan
  exact ⟨txInputs, resolved⟩

/-- Whatever is excluded and however the transactions were cut into batches, nothing misses a
field exactly if the outpoint is kept, or neither unwrapped in the commit nor reached by a
pruner. -/
theorem readsBack_iff (settings : Settings) (loop : TransactionLoop) (db : Db)
    (reached : BatchReached settings loop db) :
    ReadsBack settings.cliArgs loop db ↔
      settings.cliArgs.isExcluded .txInPreviousOutpoint = false ∨
        (loop.ResolvesNothing settings.cliArgs ∧ db.PrunesNoInput) := by
  obtain ⟨stored, held⟩ := reached.leavesOut
  have resolves := TransactionLoop.exists_resolvedInputs_iff held
  have prunes := prunes_iff stored
  constructor
  · intro reads
    have unwraps := resolves.mp (exists_resolvedInputs_of_commits reads.commits)
    rcases unwraps with included | resolvesNothing
    · exact Or.inl included
    · exact (prunes.mp reads.prunes).imp_right fun noInput => ⟨resolvesNothing, noInput⟩
  · intro condition
    have resolved : ∃ txInputs, loop.resolvedInputs settings.cliArgs = some txInputs :=
      resolves.mpr (condition.imp_right And.left)
    obtain ⟨txInputs, resolved⟩ := resolved
    exact {
      assembles := fun transaction verboseData wellFormed forgotten key =>
        loop.isSome_collect wellFormed settings.cliArgs forgotten key
      commits := fun input timestampValid =>
        loop.completes_commit stored held resolved timestampValid
      prunes := prunes.mpr (condition.imp_right And.right) }

/-! ## Without outpoints -/

/-- The outpoints are left out; what is enabled varies. -/
def outpointless (enable : Option (List CliEnable)) : Settings where
  cliArgs := { CliArgs.standard with
    enable
    excludeFields := some [.txInPreviousOutpoint] }
  netBps := 1
  checkpoint := 1
  disableVcpWaitForSync := false

/-- The batch with the transaction of one input. -/
def outpointlessLoop : TransactionLoop where
  subnetworkMap := [("00", 1)]
  txIdCache := [8]
  transactions := [⟨8, some 1, some 8, none, none, some 0⟩]
  blockTx := [⟨1, 8⟩]
  txInputs := [⟨8, 0, none, none, some [], some 1, some 0, none, none⟩]
  txOutputs := []
  txAddressTransactions := []
  txScriptTransactions := []
  checkpointBlocks := []
  lastCommitTime := 0

def outpointlessDb : Db :=
  { Db.empty with
    subnetworks := Table.empty.insertIgnore ⟨1, "00"⟩
    subnetworksNextId := 2 }

theorem outpointless_reached (enable : Option (List CliEnable)) :
    BatchReached (outpointless enable) outpointlessLoop outpointlessDb :=
  @BatchReached.taken _ _ _ _ _ (fun _ => .succeeds) (fun _ => .succeeds) .imported 0 [] rfl
    (fun _ _ => false) [spendingTransaction 1] rfl

theorem outpointless_readsBack_iff :
    ReadsBack (outpointless none).cliArgs outpointlessLoop outpointlessDb ↔
      (outpointless none).cliArgs.isExcluded .txInPreviousOutpoint = false ∨
        (outpointlessLoop.ResolvesNothing (outpointless none).cliArgs ∧
          outpointlessDb.PrunesNoInput) :=
  readsBack_iff (outpointless none) outpointlessLoop outpointlessDb (outpointless_reached none)

/-- The block of the transaction is committed at once. -/
def outpointlessCommit : List IndexingEvent :=
  [.transactions
    { popped := some { spentData with transactions := [spendingTransaction 1] }
      forgotten := fun _ _ => false
      now := 10000000000
      commitNow := 10000000000
      timestampValid := true
      firstOrder := .listed
      secondOrder := .listed }
    fun _ => .succeeds]

/-- The commit panics if inputs are resolved, and if they are not the chunk fails that prunes
the transaction. -/
theorem outpointless_missed :
    (∃ loop db, BatchReached (outpointless (some [.transactionsInputsResolve])) loop db ∧
      loop.resolvedInputs (outpointless (some [.transactionsInputsResolve])).cliArgs = none ∧
      ¬ ReadsBack (outpointless (some [.transactionsInputsResolve])).cliArgs loop db) ∧
    ∃ loop db, BatchReached (outpointless none) loop db ∧
      pruneChunk .first 1 1 { db with transactionsAcceptances := acceptanceOf 8 } =
        .error .unexpectedNull ∧
      ¬ ReadsBack (outpointless none).cliArgs loop db := by
  constructor
  · have unresolved : outpointlessLoop.resolvedInputs
        (outpointless (some [.transactionsInputsResolve])).cliArgs = none := rfl
    refine ⟨outpointlessLoop, outpointlessDb, outpointless_reached _, unresolved, fun reads => ?_⟩
    obtain ⟨txInputs, resolved⟩ := exists_resolvedInputs_of_commits reads.commits
    rw [unresolved] at resolved
    contradiction
  · let world := runFrom (IndexingWorld.step (outpointless none)) (.start .empty 0)
      outpointlessCommit
    have running : world.transactionLoop = some (outpointlessLoop.cleared 10000000000) := by
      decide +kernel
    have failed : pruneChunk .first 1 1
        { world.db with transactionsAcceptances := acceptanceOf 8 } =
        .error .unexpectedNull :=
      pruneChunk_eq_error_iff.mpr
        ⟨⟨8, 0, none, none, some [], some 1, some 0, none, none⟩, by decide +kernel,
          accepted_acceptanceOf world.db 8, rfl, ⟨8, some 1, some 8, none, none, some 0⟩,
          by decide +kernel, rfl⟩
    refine ⟨outpointlessLoop.cleared 10000000000, world.db, ?_, failed,
      fun reads => reads.prunes _ _ _ _ ⟨by omega, by omega⟩ failed⟩
    exact @BatchReached.taken _ _ _ _ _ (fun _ => .succeeds) (fun _ => .succeeds) .imported 0
      outpointlessCommit running (fun _ _ => false) [] rfl

end VecnoIndexer
