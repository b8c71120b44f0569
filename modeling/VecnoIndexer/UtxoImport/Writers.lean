import VecnoIndexer.Collections.Fallible
import VecnoIndexer.Mapping.Mapper
import VecnoIndexer.Sql.Inserts
import VecnoIndexer.UtxoImport.Importer

/-!
# The two writers of outputs

The mapper builds the output rows of the transactions in a block, the importer those of the
UTXO set.  The node adds verbose data to an output when its script has an address.  The
importer stores NULL for one that has none, where the mapper panics.
-/

namespace VecnoIndexer

open VecnoIndexer.Sql
open VecnoIndexer.Collections

/-! ## One output -/

/-- The entry the UTXO set holds for an output. -/
def RpcTransactionOutput.utxo (transactionId : Hash) (output : RpcTransactionOutput × ℕ) :
    Utxo where
  transactionId
  index := output.2
  amount := output.1.value.toNat
  scriptPublicKey := output.1.scriptPublicKey

/-- The outputs of a transaction as entries of the UTXO set. -/
def RpcTransaction.utxos (transaction : RpcTransaction) (transactionId : Hash) : List Utxo :=
  transaction.outputs.zipIdx.map (RpcTransactionOutput.utxo transactionId)

/-- A row without its time. -/
def TransactionOutput.content (row : TransactionOutput) : TransactionOutput :=
  { row with blockTime := none }

namespace VecnoDbMapper

/-- The row the mapper builds for an output. -/
def mapTransactionOutput (mapper : VecnoDbMapper) (verboseData : RpcTransactionVerboseData)
    (output : RpcTransactionOutput × ℕ) : Option TransactionOutput := do
  let outputVerboseData ← output.1.verboseData
  let index ← toI16 output.2
  let amount ← toI64 output.1.value.toNat
  let blockTime ← toI64 verboseData.blockTime.toNat
  pure {
    transactionId := verboseData.transactionId
    index
    amount := thenSome mapper.txOutAmount amount
    scriptPublicKey := thenSome mapper.txOutScriptPublicKey output.1.scriptPublicKey.script
    scriptPublicKeyAddress :=
      thenSome mapper.txOutScriptPublicKeyAddress outputVerboseData.scriptPublicKeyAddress
    blockTime := thenSome mapper.txOutBlockTime blockTime }

theorem mapTransactionOutputs_eq {mapper : VecnoDbMapper} {transaction : RpcTransaction}
    {verboseData : RpcTransactionVerboseData}
    (verbose : transaction.verboseData = some verboseData) :
    mapper.mapTransactionOutputs transaction =
      transaction.outputs.zipIdx.mapM (mapper.mapTransactionOutput verboseData) := by
  rw [mapTransactionOutputs, verbose]
  rfl

end VecnoDbMapper

section Output

theorem thenSome_not {α : Type} (excluded : Bool) (value : α) :
    thenSome (!excluded) value = if excluded then none else some value := by
  cases excluded <;> rfl

variable {cliArgs : CliArgs} {env : ImportEnv} {verboseData : RpcTransactionVerboseData}
  {output : RpcTransactionOutput × ℕ}

/-- The importer's row with the time of the mapper's. -/
def timedOutput (cliArgs : CliArgs) (env : ImportEnv) (verboseData : RpcTransactionVerboseData)
    (output : RpcTransactionOutput × ℕ) : TransactionOutput :=
  { (RpcTransactionOutput.utxo verboseData.transactionId output).output cliArgs env with
    blockTime := thenSome (!cliArgs.isExcluded .txOutBlockTime) verboseData.blockTime.toNat }

/-- An output in range is mapped to the row of the importer if it has verbose data. -/
theorem mapTransactionOutput_eq (indexFits : InI16 output.2)
    (amountFits : InI64 output.1.value.toNat)
    (filled : output.1.verboseData = (env.extractAddress output.1.scriptPublicKey).map .mk) :
    (VecnoDbMapper.new cliArgs).mapTransactionOutput verboseData output =
      if (env.extractAddress output.1.scriptPublicKey).isSome ∧
          InI64 verboseData.blockTime.toNat then
        some (timedOutput cliArgs env verboseData output)
      else none := by
  have index : wrapI16 output.2 = output.2 := wrapI16_of_inI16 indexFits
  have amount : wrapI64 output.1.value.toNat = output.1.value.toNat := wrapI64_of_inI64 amountFits
  unfold VecnoDbMapper.mapTransactionOutput
  rw [filled]
  cases address : env.extractAddress output.1.scriptPublicKey with
  | none => rfl
  | some address =>
      by_cases timeFits : InI64 verboseData.blockTime.toNat
      · simp only [toI16, toI64, indexFits, amountFits, timeFits, timedOutput,
          RpcTransactionOutput.utxo, Utxo.output, Utxo.address, includeAddress, VecnoDbMapper.new,
          thenSome_not, index, amount, address, if_true, Option.map_some, Option.bind_eq_bind,
          Option.bind_some, Option.isSome_some, and_self, Option.pure_def]
        cases cliArgs.isExcluded .txOutScriptPublicKeyAddress <;> rfl
      · simp [toI16, toI64, indexFits, amountFits, timeFits]

end Output

/-! ## Whole transactions -/

theorem forall_mem_zipIdx {α : Type} {values : List α} (P : α → Prop) :
    (∀ value ∈ values.zipIdx, P value.1) ↔ ∀ value ∈ values, P value := by
  constructor
  · intro all value listed
    obtain ⟨position, found⟩ := List.getElem?_of_mem listed
    exact all (value, position) (List.mk_mem_zipIdx_iff_getElem?.mpr found)
  · exact fun all value isValue => all value.1 (List.fst_mem_of_mem_zipIdx isValue)

/-- The mapper returns rows, which agree with those of the importer up to a projection, as
does what is stored of them. -/
structure WritersAgree {β : Type} (project : TransactionOutput → β) (cliArgs : CliArgs)
    (env : ImportEnv) (transaction : RpcTransaction) (transactionId : Hash)
    (mapped imported : List TransactionOutput) : Prop where
  returns : (VecnoDbMapper.new cliArgs).mapTransactionOutputs transaction = some mapped
  imports : imported = (transaction.utxos transactionId).map (Utxo.output cliArgs env)
  same : mapped.map project = imported.map project
  stored : ∀ (table : Table TransactionOutput.primaryKey) (key : Hash × Int),
    (((table.insertAll mapped).insertAll imported).lookup key).map project =
      (((table.insertAll imported).insertAll mapped).lookup key).map project

section Transaction

variable {cliArgs : CliArgs} {env : ImportEnv} {transaction : RpcTransaction}
  {verboseData : RpcTransactionVerboseData}

/-- The outputs a transaction is mapped to, if it is. -/
theorem mapTransactionOutputs_iff (verbose : transaction.verboseData = some verboseData)
    (indexes : transaction.outputs.length ≤ 2 ^ 15)
    (amounts : ∀ output ∈ transaction.outputs, output.value.toNat < 2 ^ 63)
    (filled : ∀ output ∈ transaction.outputs,
      output.verboseData = (env.extractAddress output.scriptPublicKey).map .mk)
    {mapped : List TransactionOutput} :
    (VecnoDbMapper.new cliArgs).mapTransactionOutputs transaction = some mapped ↔
      (∀ output ∈ transaction.outputs, (env.extractAddress output.scriptPublicKey).isSome ∧
        InI64 verboseData.blockTime.toNat) ∧
      mapped = transaction.outputs.zipIdx.map (timedOutput cliArgs env verboseData) := by
  have each : ∀ output ∈ transaction.outputs.zipIdx,
      (VecnoDbMapper.new cliArgs).mapTransactionOutput verboseData output =
        if (env.extractAddress output.1.scriptPublicKey).isSome ∧
            InI64 verboseData.blockTime.toNat then
          some (timedOutput cliArgs env verboseData output)
        else none := by
    intro output isOutput
    have position := List.snd_lt_of_mem_zipIdx isOutput
    have listed := List.fst_mem_of_mem_zipIdx isOutput
    have amount := amounts output.1 listed
    exact mapTransactionOutput_eq ⟨by omega, by omega⟩ ⟨by omega, by omega⟩ (filled _ listed)
  rw [VecnoDbMapper.mapTransactionOutputs_eq verbose, mapM_eq_some_iff each]
  exact and_congr_left fun _ => forall_mem_zipIdx fun (output : RpcTransactionOutput) =>
    (env.extractAddress output.scriptPublicKey).isSome ∧ InI64 verboseData.blockTime.toNat

/-- The mapper's rows agree with the importer's up to a projection exactly if they are
mapped, and the projection does not tell the times apart. -/
theorem exists_writersAgree_iff {β : Type} {project : TransactionOutput → β}
    (keyed : ∀ row other, project row = project other →
      TransactionOutput.primaryKey row = TransactionOutput.primaryKey other)
    (verbose : transaction.verboseData = some verboseData)
    (indexes : transaction.outputs.length ≤ 2 ^ 15)
    (amounts : ∀ output ∈ transaction.outputs, output.value.toNat < 2 ^ 63)
    (filled : ∀ output ∈ transaction.outputs,
      output.verboseData = (env.extractAddress output.scriptPublicKey).map .mk) :
    (∃ mapped imported,
        WritersAgree project cliArgs env transaction verboseData.transactionId mapped imported) ↔
      (∀ output ∈ transaction.outputs, (env.extractAddress output.scriptPublicKey).isSome ∧
        InI64 verboseData.blockTime.toNat) ∧
      ∀ output ∈ transaction.outputs.zipIdx,
        project (timedOutput cliArgs env verboseData output) =
          project ((RpcTransactionOutput.utxo verboseData.transactionId output).output cliArgs
            env) := by
  have alike : (transaction.outputs.zipIdx.map (timedOutput cliArgs env verboseData)).map project =
      ((transaction.utxos verboseData.transactionId).map (Utxo.output cliArgs env)).map project ↔
      ∀ output ∈ transaction.outputs.zipIdx,
        project (timedOutput cliArgs env verboseData output) =
          project ((RpcTransactionOutput.utxo verboseData.transactionId output).output cliArgs
            env) := by
    rw [RpcTransaction.utxos, List.map_map, List.map_map, List.map_map]
    exact List.map_inj_left
  have mapped := @mapTransactionOutputs_iff cliArgs env _ _ verbose indexes amounts filled
  constructor
  · rintro ⟨rows, imported, agree⟩
    obtain ⟨complete, rfl⟩ := mapped.mp agree.returns
    have same := agree.same
    rw [agree.imports] at same
    exact ⟨complete, alike.mp same⟩
  · rintro ⟨complete, projected⟩
    have same := alike.mpr projected
    exact ⟨_, _, mapped.mpr ⟨complete, rfl⟩, rfl, same, map_lookup_insertAll_comm keyed same⟩

end Transaction

/-- Rows that agree besides the time have one key. -/
theorem primaryKey_of_content {row other : TransactionOutput}
    (same : row.content = other.content) :
    TransactionOutput.primaryKey row = TransactionOutput.primaryKey other :=
  (congrArg TransactionOutput.primaryKey same :
    TransactionOutput.primaryKey row.content = TransactionOutput.primaryKey other.content)

theorem content_timedOutput {cliArgs : CliArgs} {env : ImportEnv}
    {verboseData : RpcTransactionVerboseData} {output : RpcTransactionOutput × ℕ} :
    (timedOutput cliArgs env verboseData output).content =
      ((RpcTransactionOutput.utxo verboseData.transactionId output).output
        cliArgs env).content := by
  rw [timedOutput, TransactionOutput.content, TransactionOutput.content]

/-- The importer stores no time or zero. -/
theorem timedOutput_eq_iff {cliArgs : CliArgs} {env : ImportEnv}
    {verboseData : RpcTransactionVerboseData} {output : RpcTransactionOutput × ℕ} :
    timedOutput cliArgs env verboseData output =
        (RpcTransactionOutput.utxo verboseData.transactionId output).output cliArgs env ↔
      cliArgs.isExcluded .txOutBlockTime = true ∨ verboseData.blockTime = 0 := by
  have timed : timedOutput cliArgs env verboseData output =
        (RpcTransactionOutput.utxo verboseData.transactionId output).output cliArgs env ↔
      thenSome (!cliArgs.isExcluded .txOutBlockTime) (verboseData.blockTime.toNat : ℤ) =
        if cliArgs.isExcluded .txOutBlockTime then none else some 0 := by
    simp only [timedOutput, Utxo.output, TransactionOutput.mk.injEq, true_and]
  have isZero : verboseData.blockTime.toNat = 0 ↔ verboseData.blockTime = 0 := by
    rw [← UInt64.toNat_inj]
    rfl
  rw [timed, thenSome_not]
  cases cliArgs.isExcluded .txOutBlockTime <;> simp [isZero]

/-- The two writers agree on the columns besides the time exactly if every script has an
address and the time fits its column; they agree on the time as well if it is excluded or
zero. -/
theorem writersAgree_iff (cliArgs : CliArgs) (env : ImportEnv) {transaction : RpcTransaction}
    {verboseData : RpcTransactionVerboseData} (verbose : transaction.verboseData = some verboseData)
    (indexes : transaction.outputs.length ≤ 2 ^ 15)
    (amounts : ∀ output ∈ transaction.outputs, output.value.toNat < 2 ^ 63)
    (filled : ∀ output ∈ transaction.outputs,
      output.verboseData = (env.extractAddress output.scriptPublicKey).map .mk) :
    ((∃ mapped imported, WritersAgree TransactionOutput.content cliArgs env transaction
        verboseData.transactionId mapped imported) ↔
      ∀ output ∈ transaction.outputs, (env.extractAddress output.scriptPublicKey).isSome ∧
        InI64 verboseData.blockTime.toNat) ∧
    ((∃ mapped imported, WritersAgree id cliArgs env transaction
        verboseData.transactionId mapped imported) ↔
      ∀ output ∈ transaction.outputs, (env.extractAddress output.scriptPublicKey).isSome ∧
        InI64 verboseData.blockTime.toNat ∧
        (cliArgs.isExcluded .txOutBlockTime = true ∨ verboseData.blockTime = 0)) := by
  constructor
  · rw [exists_writersAgree_iff (fun _ _ => primaryKey_of_content) verbose indexes amounts filled]
    exact and_iff_left fun output _ => content_timedOutput
  · have keyed (row other : TransactionOutput) (same : id row = id other) :
        TransactionOutput.primaryKey row = TransactionOutput.primaryKey other := by
      rw [id_eq, id_eq] at same
      rw [same]
    rw [exists_writersAgree_iff keyed verbose indexes amounts filled]
    simp only [id_eq, timedOutput_eq_iff]
    constructor
    · rintro ⟨mapped, timeless⟩ output listed
      have each := (forall_mem_zipIdx fun _ => cliArgs.isExcluded .txOutBlockTime = true ∨
        verboseData.blockTime = 0).mp timeless
      exact ⟨(mapped output listed).1, (mapped output listed).2, each output listed⟩
    · intro all
      refine ⟨fun output listed => ⟨(all output listed).1, (all output listed).2.1⟩, ?_⟩
      intro output isOutput
      exact (all output.1 (List.fst_mem_of_mem_zipIdx isOutput)).2.2

/-! ## A script without an address -/

/-- Every script but the empty one has an address. -/
def scriptEnv : ImportEnv where
  extractAddress scriptPublicKey := if scriptPublicKey.script = [] then none else some "payee"
  hostOf _ := none
  defaultP2pPort _ := 0
  hashOrder := .listed

/-- A transaction of one output, as the node sends it. -/
def payment (script : Bytes) (address : Option String) : RpcTransaction where
  inputs := []
  outputs := [⟨5, ⟨0, script⟩, address.map .mk⟩]
  subnetworkId := "00"
  payload := []
  verboseData := some ⟨7, 7, 1, 3, 1000⟩

theorem payment_writersAgree_iff :
    ((∃ mapped imported, WritersAgree TransactionOutput.content .standard scriptEnv
        (payment [1] (some "payee")) 7 mapped imported) ↔
      ∀ output ∈ (payment [1] (some "payee")).outputs,
        (scriptEnv.extractAddress output.scriptPublicKey).isSome ∧ InI64 (1000 : UInt64).toNat) ∧
    ((∃ mapped imported, WritersAgree id .standard scriptEnv
        (payment [1] (some "payee")) 7 mapped imported) ↔
      ∀ output ∈ (payment [1] (some "payee")).outputs,
        (scriptEnv.extractAddress output.scriptPublicKey).isSome ∧ InI64 (1000 : UInt64).toNat ∧
        (CliArgs.standard.isExcluded .txOutBlockTime = true ∨ (1000 : UInt64) = 0)) :=
  @writersAgree_iff .standard scriptEnv (payment [1] (some "payee")) ⟨7, 7, 1, 3, 1000⟩ rfl
    (by decide) (by decide) (by decide)

/-- The mapper panics on the output, and the importer stores it without an address. -/
theorem payment_mapper_panics :
    (∀ output ∈ (payment [] none).outputs, output.value.toNat < 2 ^ 63 ∧ output.verboseData =
      (scriptEnv.extractAddress output.scriptPublicKey).map .mk) ∧
    (VecnoDbMapper.new .standard).mapTransactionOutputs (payment [] none) = none ∧
    ((payment [] none).utxos 7).map (Utxo.output .standard scriptEnv) =
      [⟨7, 0, some 5, some [], none, some 0⟩] ∧
    ¬ ∃ mapped imported, WritersAgree TransactionOutput.content .standard scriptEnv
      (payment [] none) 7 mapped imported := by
  refine ⟨by decide, rfl, by decide +kernel, ?_⟩
  rintro ⟨mapped, imported, agree⟩
  exact Option.some_ne_none _ (agree.returns.symm.trans rfl)

end VecnoIndexer
