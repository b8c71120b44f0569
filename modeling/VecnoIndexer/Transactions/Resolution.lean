import VecnoIndexer.Transactions.Sources

/-!
# Resolved inputs are the plain join

With `transactions_inputs_resolve` an input is stored with the script and the amount of
the output it spends.  They come from the outputs of the batch, or from a join that runs
beside the insert of these outputs.  Either way a committed input has what a join of the
final tables yields, if outputs stored before the run are as they are mapped now.
-/

namespace VecnoIndexer

open VecnoIndexer.Sql
open VecnoIndexer.Collections
open VecnoIndexer.Transition

/-! ## The plain join -/

/-- A row of `transactions_inputs_resolved`, with `LEFT JOIN transactions_outputs`. -/
def Db.transactionsInputsResolved (db : Db) (row : TransactionInput) : TransactionInput :=
  let output := db.spentOutput row
  { row with
    previousOutpointScript := output.bind TransactionOutput.scriptPublicKey
    previousOutpointAmount := output.bind TransactionOutput.amount }

theorem eq_transactionsInputsResolved_iff {db : Db} {row : TransactionInput} :
    row = db.transactionsInputsResolved row ↔
      row.previousOutpointScript =
          (db.spentOutput row).bind TransactionOutput.scriptPublicKey ∧
        row.previousOutpointAmount = (db.spentOutput row).bind TransactionOutput.amount := by
  constructor
  · intro same
    have script := congrArg TransactionInput.previousOutpointScript same
    have amount := congrArg TransactionInput.previousOutpointAmount same
    exact ⟨script, amount⟩
  · rintro ⟨script, amount⟩
    simp only [Db.transactionsInputsResolved, ← script, ← amount]

/-- The output an input spends depends on its outpoint only. -/
theorem spentOutput_resolveInput (db middle : Db) (row : TransactionInput) :
    db.spentOutput (middle.resolveInput row) = db.spentOutput row :=
  rfl

/-! ## The statements -/

namespace InsertStatement

/-- A new input is one of those inserted, perhaps resolved. -/
theorem Leaves.input_cases {insert : InsertStatement} {db after : Db}
    (leaves : Leaves db after insert) {row : TransactionInput}
    (stored : row ∈ after.transactionsInputs) :
    row ∈ db.transactionsInputs ∨ ∃ resolve rows, insert = .inputs resolve rows ∧
      ∃ given ∈ rows, row = if resolve then db.resolveInput given else given := by
  cases insert with
  | inputs resolve rows =>
      cases leaves
      refine (Table.mem_or_mem_of_mem_insertAll stored).imp_right fun inserted => ?_
      refine ⟨resolve, rows, rfl, ?_⟩
      cases resolve with
      | false => exact ⟨row, inserted, rfl⟩
      | true =>
          obtain ⟨given, isGiven, resolved⟩ := List.mem_map.mp inserted
          exact ⟨given, isGiven, resolved.symm⟩
  | addressesFromInputs useTx transactionIds =>
      obtain ⟨_, _, rfl⟩ := leaves
      exact Or.inl stored
  | scriptsFromInputs useTx transactionIds =>
      obtain ⟨_, _, rfl⟩ := leaves
      exact Or.inl stored
  | _ =>
      cases leaves
      exact Or.inl stored

/-- A new input was resolved, if at all, with what was stored at some time between. -/
theorem input_cases_of_executeAll {inserts : List InsertStatement} {db final : Db}
    {script rest : Script} {total : ℕ}
    (ran : Session.run (executeAll inserts) db script = .done total final rest)
    {row : TransactionInput} (stored : row ∈ final.transactionsInputs) :
    row ∈ db.transactionsInputs ∨ ∃ middle resolve rows, Grows db middle ∧ Grows middle final ∧
      .inputs resolve rows ∈ inserts ∧
      ∃ given ∈ rows, row = if resolve then middle.resolveInput given else given := by
  have both := executeAll_induction
    (motive := fun inserts db final => Grows db final ∧
      (row ∈ final.transactionsInputs → row ∈ db.transactionsInputs ∨
        ∃ middle resolve rows, Grows db middle ∧ Grows middle final ∧
          .inputs resolve rows ∈ inserts ∧
          ∃ given ∈ rows, row = if resolve then middle.resolveInput given else given))
    (fun db => ⟨Grows.refl db, Or.inl⟩)
    (fun insert later db middle final leaves ⟨grows, added⟩ => by
      refine ⟨leaves.grows.trans grows, fun stored => ?_⟩
      rcases added stored with before | ⟨other, resolve, rows, first, second, isLater, given⟩
      · rcases leaves.input_cases before with old | ⟨resolve, rows, rfl, given⟩
        · exact Or.inl old
        · exact Or.inr ⟨db, resolve, rows, Grows.refl db, leaves.grows.trans grows,
            List.mem_cons_self, given⟩
      · exact Or.inr ⟨other, resolve, rows, leaves.grows.trans first, second,
          List.mem_cons_of_mem insert isLater, given⟩)
    ran
  exact both.2 stored

end InsertStatement

namespace TransactionLoop

variable {cliArgs : CliArgs} {loop after : TransactionLoop} {start db final : Db}
  {popped mapped : List RpcTransaction} {input : TransactionsInput} {script rest : Script}

/-- The inputs of a batch are all inserted in one way. -/
theorem inputs_of_mem_batchInserts {txInputs rows : List TransactionInput} {resolve : Bool}
    (member : .inputs resolve rows ∈ batchInserts cliArgs loop txInputs) :
    cliArgs.isDisabled .transactionsInputsTable = false ∧
      resolve = cliArgs.isEnabled .transactionsInputsResolve ∧ ∀ row ∈ rows, row ∈ txInputs := by
  cases batchPiece_of_mem member with
  | inputs enabled piece => exact ⟨enabled, rfl, piece.among⟩

theorem mem_of_pendingOutput {transactionId : Hash} {index : Int} {output : TransactionOutput}
    (found : loop.pendingOutput transactionId index = some output) :
    output ∈ loop.txOutputs ∧ output.transactionId = transactionId ∧ output.index = index := by
  have isKey := List.find?_some found
  exact ⟨List.mem_reverse.mp (List.mem_of_find?_eq_some found), of_decide_eq_true isKey⟩

theorem ne_of_pendingOutput {transactionId : Hash} {index : Int}
    (nothing : loop.pendingOutput transactionId index = none) {output : TransactionOutput}
    (held : output ∈ loop.txOutputs) :
    ¬ (output.transactionId = transactionId ∧ output.index = index) :=
  of_decide_eq_false (Bool.eq_false_of_not_eq_true
    (List.find?_eq_none.mp nothing output (List.mem_reverse.mpr held)))

/-- An input is resolved from the outputs of the batch, or is as it was mapped. -/
theorem preResolve_cases {row resolved : TransactionInput}
    (preResolved : loop.preResolve row = some resolved) :
    ∃ transactionId index, row.previousOutpointHash = some transactionId ∧
      row.previousOutpointIndex = some index ∧
      ((∃ output, loop.pendingOutput transactionId index = some output ∧ resolved = { row with
          previousOutpointScript := output.scriptPublicKey
          previousOutpointAmount := output.amount }) ∨
        (loop.pendingOutput transactionId index = none ∧ resolved = row)) := by
  simp only [preResolve, Option.bind_eq_bind, Option.bind_eq_some_iff] at preResolved
  obtain ⟨transactionId, hashEq, index, indexEq, eq⟩ := preResolved
  refine ⟨transactionId, index, hashEq, indexEq, ?_⟩
  cases pending : loop.pendingOutput transactionId index with
  | some output =>
      rw [pending] at eq
      exact Or.inl ⟨output, rfl, (Option.some.inj eq).symm⟩
  | none =>
      rw [pending] at eq
      exact Or.inr ⟨rfl, (Option.some.inj eq).symm⟩

end TransactionLoop

/-! ## A commit -/

/-- Outputs of popped transactions that were stored before have the script and the amount
they are mapped to. -/
def StoredAsMapped (cliArgs : CliArgs) (start : Db) (transactions : List RpcTransaction) : Prop :=
  ∀ transaction ∈ transactions, ∀ rows,
    (VecnoDbMapper.new cliArgs).mapTransactionOutputs transaction = some rows →
    ∀ row ∈ rows, ∀ stored ∈ start.transactionsOutputs, stored.primaryKey = row.primaryKey →
      stored.scriptPublicKey = row.scriptPublicKey ∧ stored.amount = row.amount

namespace TransactionLoop

variable {cliArgs : CliArgs} {loop after : TransactionLoop} {start db final : Db}
  {popped mapped : List RpcTransaction} {input : TransactionsInput} {script rest : Script}

/-- After its batch an output is stored with the script and the amount it was held with. -/
theorem Tracks.exists_stored_of_held (tracks : Tracks cliArgs start db loop popped mapped)
    (effects : SameEffectById popped) (asMapped : StoredAsMapped cliArgs start popped)
    (enabled : cliArgs.isDisabled .transactionsOutputsTable = false)
    (ran : Session.run (loop.insertBatch cliArgs input) db script = .done () final rest)
    {output : TransactionOutput} (held : output ∈ loop.txOutputs) :
    ∃ stored ∈ final.transactionsOutputs, stored.primaryKey = output.primaryKey ∧
      stored.scriptPublicKey = output.scriptPublicKey ∧ stored.amount = output.amount := by
  obtain ⟨given, tracked⟩ := tracks.tables (IndexedTable.outputs cliArgs)
  have isPending : output ∈ (IndexedTable.outputs cliArgs).pending loop.pendingRows :=
    IndexedTable.mem_rowsIf.mpr ⟨by rw [enabled]; rfl, held⟩
  obtain ⟨transaction, isPopped, rows, rowsEq, outputMem⟩ :=
    tracks.exists_mapped_of_held tracked (List.mem_append_right given isPending)
  have filled := filled_of_insertBatch (IndexedTable.outputs cliArgs) ran
  obtain ⟨stored, isStored, sameKey⟩ := filled.present output isPending _ rfl
  -- A row given or held with the same key is the same, whichever transaction it is of.
  have alike : ∀ other ∈ given ++ (IndexedTable.outputs cliArgs).pending loop.pendingRows,
      other.apartFromTime = stored.apartFromTime →
        stored.scriptPublicKey = output.scriptPublicKey ∧ stored.amount = output.amount := by
    intro other otherHeld like
    obtain ⟨source, isSource, sourceRows, sourceEq, otherMem⟩ :=
      tracks.exists_mapped_of_held tracked otherHeld
    have otherKey := (IndexedTable.outputs cliArgs).keyed other stored like
    have same := alike_outputs_of_mapped effects isSource isPopped sourceEq rowsEq otherMem
      outputMem (otherKey.trans sameKey)
    have sameScript := congrArg TransactionOutput.scriptPublicKey (like.symm.trans same)
    have sameAmount := congrArg TransactionOutput.amount (like.symm.trans same)
    exact ⟨sameScript, sameAmount⟩
  refine ⟨stored, isStored, sameKey, ?_⟩
  rcases filled.added stored isStored with before | ⟨⟨other, isOther, like⟩ | isJoined, _⟩
  · rcases tracked.filled.added stored before with old | ⟨⟨other, isGiven, like⟩ | isJoined, _⟩
    · obtain ⟨_, mappedRows⟩ := mapRows_of_rowsOf rowsEq
      obtain ⟨_, _, outputsEq, _⟩ := mapRows_eq_some_iff.mp mappedRows
      exact asMapped transaction isPopped rows.outputs outputsEq output
        (IndexedTable.mem_rowsIf.mp outputMem).2 stored old sameKey
    · exact alike other (List.mem_append_left _ isGiven) like
    · exact isJoined.elim
  · exact alike other (List.mem_append_right given isOther) like
  · exact isJoined.elim

/-- A mapped input is not resolved yet. -/
theorem Tracks.unresolved_of_held (tracks : Tracks cliArgs start db loop popped mapped)
    (enabled : cliArgs.isDisabled .transactionsInputsTable = false) {row : TransactionInput}
    (held : row ∈ loop.txInputs) :
    row.previousOutpointScript = none ∧ row.previousOutpointAmount = none := by
  obtain ⟨given, tracked⟩ := tracks.tables (IndexedTable.inputs cliArgs)
  have isPending : row ∈ (IndexedTable.inputs cliArgs).pending loop.pendingRows :=
    IndexedTable.mem_rowsIf.mpr ⟨by rw [enabled]; rfl, held⟩
  obtain ⟨transaction, _, rows, rowsEq, rowMem⟩ :=
    tracks.exists_mapped_of_held tracked (List.mem_append_right given isPending)
  obtain ⟨_, mappedRows⟩ := mapRows_of_rowsOf rowsEq
  obtain ⟨_, inputsEq, _⟩ := mapRows_eq_some_iff.mp mappedRows
  simp only [VecnoDbMapper.mapTransactionInputs, Option.bind_eq_bind,
    Option.bind_eq_some_iff] at inputsEq
  obtain ⟨verboseData, _, inputRows⟩ := inputsEq
  obtain ⟨_, _, rowEq⟩ := exists_of_mem_mapM_eq_some inputRows (IndexedTable.mem_rowsIf.mp rowMem).2
  simp only [Option.bind_eq_some_iff] at rowEq
  obtain ⟨_, _, _, _, _, _, eq⟩ := rowEq
  cases eq
  exact ⟨rfl, rfl⟩

/-- What a batch stores of its inputs is the join with what it leaves. -/
theorem Tracks.resolved_of_insertBatch (tracks : Tracks cliArgs start db loop popped mapped)
    (effects : SameEffectById popped) (asMapped : StoredAsMapped cliArgs start popped)
    (resolves : cliArgs.isEnabled .transactionsInputsResolve = true)
    (enabled : cliArgs.isDisabled .transactionsOutputsTable = false)
    (ran : Session.run (loop.insertBatch cliArgs input) db script = .done () final rest)
    {row : TransactionInput} (stored : row ∈ final.transactionsInputs)
    (isNew : row ∉ db.transactionsInputs) : row = final.transactionsInputsResolved row := by
  obtain ⟨txInputs, total, inserts, left, resolvedEq, same, executed⟩ := done_insertBatch ran
  obtain ⟨middle, resolve, rows, before, later, isInsert, given, isGiven, rowEq⟩ :=
    (InsertStatement.input_cases_of_executeAll executed stored).resolve_left isNew
  obtain ⟨inputsEnabled, resolveEq, among⟩ := inputs_of_mem_batchInserts ((same _).mp isInsert)
  rw [resolveEq, resolves, if_pos rfl] at rowEq
  rw [resolvedInputs, inputsEnabled, resolves] at resolvedEq
  obtain ⟨raw, rawHeld, preResolved⟩ := exists_of_mem_mapM_eq_some resolvedEq (among given isGiven)
  obtain ⟨noScript, noAmount⟩ := tracks.unresolved_of_held inputsEnabled rawHeld
  obtain ⟨transactionId, index, hashEq, indexEq, resolution⟩ := preResolve_cases preResolved
  rw [rowEq, eq_transactionsInputsResolved_iff, spentOutput_resolveInput]
  rcases resolution with ⟨output, pending, rfl⟩ | ⟨nothing, rfl⟩
  · -- The batch has the output: what the join adds is the same.
    obtain ⟨held, rfl, rfl⟩ := mem_of_pendingOutput pending
    obtain ⟨found, isFound, foundKey, sameScript, sameAmount⟩ :=
      tracks.exists_stored_of_held effects asMapped enabled ran held
    have sameKey := Option.some.inj foundKey
    have foundId : found.transactionId = output.transactionId := congrArg Prod.fst sameKey
    have foundIndex : found.index = output.index := congrArg Prod.snd sameKey
    have spends : final.spentOutput { raw with
        previousOutpointScript := output.scriptPublicKey
        previousOutpointAmount := output.amount } = some found :=
      spentOutput_eq_some_iff.mpr ⟨isFound, foundId ▸ hashEq, foundIndex ▸ indexEq⟩
    rw [spends]
    cases joined : middle.spentOutput { raw with
        previousOutpointScript := output.scriptPublicKey
        previousOutpointAmount := output.amount } with
    | none => simp [Db.resolveInput, joined, sameScript, sameAmount]
    | some other =>
        cases (spentOutput_of_grows later joined).symm.trans spends
        simp [Db.resolveInput, joined, sameScript, sameAmount]
  · -- The batch does not have the output: it stores nothing under the key.
    have joined : middle.spentOutput given = final.spentOutput given := by
      cases spends : final.spentOutput given with
      | none =>
          cases spentMiddle : middle.spentOutput given with
          | none => rfl
          | some other =>
              have spentLater := spentOutput_of_grows later spentMiddle
              rw [spends] at spentLater
              contradiction
      | some output =>
          obtain ⟨isStored, outputHash, outputIndex⟩ := spentOutput_eq_some_iff.mp spends
          have filled := filled_of_insertBatch (IndexedTable.outputs cliArgs) ran
          rcases filled.added output isStored with old | ⟨⟨other, isOther, like⟩ | isJoined, _⟩
          · exact spentOutput_eq_some_iff.mpr
              ⟨before.outputs output old, outputHash, outputIndex⟩
          · have otherHeld := (IndexedTable.mem_rowsIf.mp isOther).2
            have sameId := congrArg TransactionOutput.transactionId like
            have sameIndex := congrArg TransactionOutput.index like
            refine absurd ⟨?_, ?_⟩ (ne_of_pendingOutput nothing otherHeld)
            · exact sameId.trans (Option.some.inj (outputHash.symm.trans hashEq))
            · exact sameIndex.trans (Option.some.inj (outputIndex.symm.trans indexEq))
          · exact isJoined.elim
    simp [Db.resolveInput, joined, noScript, noAmount]

end TransactionLoop

/-! ## Whole runs -/

theorem StoredAsMapped.of_append {cliArgs : CliArgs} {start : Db}
    {popped more : List RpcTransaction}
    (asMapped : StoredAsMapped cliArgs start (popped ++ more)) :
    StoredAsMapped cliArgs start popped :=
  fun transaction isPopped => asMapped transaction (List.mem_append_left more isPopped)

/-- The inputs stored so far are the plain join. -/
structure Resolved (cliArgs : CliArgs) (start db : Db) (loop : TransactionLoop)
    (popped : List TransactionData) : Prop extends Sourced cliArgs start db loop popped where
  joined : ∀ row ∈ db.transactionsInputs,
    row ∈ start.transactionsInputs ∨ row = db.transactionsInputsResolved row

namespace Resolved

variable {cliArgs : CliArgs} {start db final : Db} {loop after received : TransactionLoop}
  {popped : List TransactionData} {script rest : Script}

theorem of_same (resolved : Resolved cliArgs start db loop popped)
    (same : SameTransactions db final) : Resolved cliArgs start final loop popped where
  toSourced := resolved.toSourced.of_same same
  joined row stored := by
    simp only [Db.transactionsInputsResolved, Db.spentOutput, same.outputs]
    rw [same.inputs] at stored
    exact resolved.joined row stored

theorem receive (resolved : Resolved cliArgs start db loop popped) {data : TransactionData}
    (inOrder : InOrder start (popped ++ [data])) {forgotten : ℕ → Hash → Bool}
    (ran : Session.run (loop.receive cliArgs forgotten data) db script =
      .done received final rest) : Resolved cliArgs start final received (popped ++ [data]) where
  toSourced := resolved.toSourced.receive inOrder ran
  joined := by
    obtain ⟨numbering, rfl⟩ := TransactionLoop.exists_withNumbering_of_receiveAll ran
    exact resolved.joined

/-- A commit leaves the joins of the inputs stored before, and stores the join of the new. -/
theorem commit (resolved : Resolved cliArgs start db loop popped) (inOrder : InOrder start popped)
    (asMapped : StoredAsMapped cliArgs start (popped.flatMap TransactionData.transactions))
    (resolves : cliArgs.isEnabled .transactionsInputsResolve = true)
    (enabled : cliArgs.isDisabled .transactionsOutputsTable = false) {input : TransactionsInput}
    (ran : Session.run (loop.commit cliArgs input) db script = .done after final rest) :
    Resolved cliArgs start final after popped where
  toSourced := resolved.toSourced.commit inOrder enabled ran
  joined row stored := by
    by_cases old : row ∈ start.transactionsInputs
    · exact Or.inl old
    · refine Or.inr ?_
      by_cases before : row ∈ db.transactionsInputs
      · have joined := (resolved.joined row before).resolve_left old
        rw [eq_transactionsInputsResolved_iff] at joined ⊢
        rw [resolved.toSourced.spentOutput_eq ran before old]
        exact joined
      · obtain ⟨mapped, tracks⟩ := resolved.tracks
        obtain ⟨⟨_, insertRan⟩, _⟩ := TransactionLoop.done_commit ran
        exact tracks.resolved_of_insertBatch inOrder.effects asMapped resolves enabled insertRan
          stored before

end Resolved

/-- Once all is committed, the new inputs have the script and the amount a join of the final
tables yields. -/
theorem IndexingWorld.resolved_of_run (settings : Settings) (start : Db) (now : ℕ)
    (events : List IndexingEvent)
    (resolves : settings.cliArgs.isEnabled .transactionsInputsResolve = true)
    (enabled : settings.cliArgs.isDisabled .transactionsOutputsTable = false)
    (settled : (runFrom (IndexingWorld.step settings) (.start start now) events).Settled)
    (inOrder : InOrder start
      (runFrom (IndexingWorld.step settings) (.start start now) events).poppedTransactions)
    (asMapped : StoredAsMapped settings.cliArgs start
      (runFrom (IndexingWorld.step settings) (.start start now) events).transactions) :
    ∀ row ∈ (runFrom (IndexingWorld.step settings) (.start start now) events).db.transactionsInputs,
      row ∈ start.transactionsInputs ∨
        row = (runFrom (IndexingWorld.step settings) (.start start now)
          events).db.transactionsInputsResolved row := by
  obtain ⟨loop, running, _⟩ := settled
  have resolved := @IndexingWorld.of_running settings start now
    (fun db loop popped => InOrder start popped →
      StoredAsMapped settings.cliArgs start (popped.flatMap TransactionData.transactions) →
      Resolved settings.cliArgs start db loop popped)
    (fun _ _ => ⟨.loaded settings.cliArgs start now, fun _ => Or.inl⟩)
    (fun same holds inOrder asMapped => (holds inOrder asMapped).of_same same)
    (fun ran holds inOrder asMapped => by
      rw [List.flatMap_append] at asMapped
      exact (holds inOrder.of_append asMapped.of_append).receive inOrder ran)
    (fun ran holds inOrder asMapped =>
      (holds inOrder asMapped).commit inOrder asMapped resolves enabled ran)
    events loop running
  exact (resolved inOrder asMapped).joined

/-! ## An output stored without its amount -/

def resolvingSettings : Settings where
  cliArgs := { CliArgs.standard with enable := some [.transactionsInputsResolve] }
  netBps := 1
  checkpoint := 1
  disableVcpWaitForSync := false

/-- The output was stored while amounts were excluded. -/
def withoutAmount : Db :=
  { Db.empty with
    transactionsOutputs := Table.empty.insertIgnore
      ⟨7, 0, none, some [1], some "a", none⟩ }

theorem spentAtOnce_resolved :
    (runFrom (IndexingWorld.step resolvingSettings) (.start .empty 0)
        spentAtOnce).db.transactionsInputs.rows.length = 1 ∧
      ∀ row ∈ (runFrom (IndexingWorld.step resolvingSettings) (.start .empty 0)
          spentAtOnce).db.transactionsInputs,
        row ∈ Db.empty.transactionsInputs ∨
          row = (runFrom (IndexingWorld.step resolvingSettings) (.start .empty 0)
            spentAtOnce).db.transactionsInputsResolved row := by
  have popped : (runFrom (IndexingWorld.step resolvingSettings) (.start .empty 0)
      spentAtOnce).poppedTransactions = [spentData] := by
    decide +kernel
  constructor
  · decide +kernel
  · apply IndexingWorld.resolved_of_run resolvingSettings .empty 0 spentAtOnce
    · rfl
    · rfl
    · decide +kernel
    · rw [popped]
      exact inOrder_spentData .empty
    · intro transaction _ rows _ row _ stored isStored
      exact absurd isStored (Table.notMem_empty stored)

/-- The spender gets the amount of the batch, which the stored output does not have. -/
theorem spentAtOnce_not_resolved :
    (resolvingSettings.cliArgs.isEnabled .transactionsInputsResolve = true ∧
      resolvingSettings.cliArgs.isDisabled .transactionsInputsTable = false ∧
      resolvingSettings.cliArgs.isDisabled .transactionsOutputsTable = false ∧
      resolvingSettings.cliArgs.isExcluded .txInPreviousOutpoint = false) ∧
    (runFrom (IndexingWorld.step resolvingSettings) (.start withoutAmount 0) spentAtOnce).Settled ∧
    InOrder withoutAmount
      (runFrom (IndexingWorld.step resolvingSettings) (.start withoutAmount 0)
        spentAtOnce).poppedTransactions ∧
    ∃ row ∈ (runFrom (IndexingWorld.step resolvingSettings) (.start withoutAmount 0)
        spentAtOnce).db.transactionsInputs,
      row ∉ withoutAmount.transactionsInputs ∧
        row ≠ (runFrom (IndexingWorld.step resolvingSettings) (.start withoutAmount 0)
          spentAtOnce).db.transactionsInputsResolved row := by
  have popped : (runFrom (IndexingWorld.step resolvingSettings) (.start withoutAmount 0)
      spentAtOnce).poppedTransactions = [spentData] := by
    decide +kernel
  refine ⟨⟨rfl, rfl, rfl, rfl⟩, by decide +kernel, ?_, ?_⟩
  · rw [popped]
    exact inOrder_spentData withoutAmount
  · refine ⟨⟨8, 0, some 7, some 0, some [], some 1, some 0, some [1], some 5⟩, ?_, ?_, ?_⟩
    · decide +kernel
    · decide +kernel
    · decide +kernel

end VecnoIndexer
