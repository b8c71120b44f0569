import VecnoIndexer.Transactions.AddressIndex
import VecnoIndexer.Transactions.Iterations
import VecnoIndexer.UtxoImport.Statements

/-!
# Spending outputs without an address

The importer stores an output whose script has no standard address with a NULL there;
the transaction processor stores an address for all its outputs.  The join that indexes
the addresses of inputs takes the NULL for the key of a row and fails.  So it is exactly
the imported outputs without an address that must not be spent.
-/

namespace VecnoIndexer

open VecnoIndexer.Sql
open VecnoIndexer.Collections
open VecnoIndexer.Transition

/-! ## Outputs since an import -/

/-- The imported outputs are kept, and all others have an address. -/
structure AddressedSince (imported db : Db) : Prop where
  kept : ∀ row ∈ imported.transactionsOutputs, row ∈ db.transactionsOutputs
  added : ∀ row ∈ db.transactionsOutputs,
    row ∈ imported.transactionsOutputs ∨ ∃ address, row.scriptPublicKeyAddress = some address

theorem AddressedSince.refl (imported : Db) : AddressedSince imported imported where
  kept _ := id
  added _ := Or.inl

theorem AddressedSince.of_eq {imported db after : Db} (since : AddressedSince imported db)
    (same : after.transactionsOutputs = db.transactionsOutputs) :
    AddressedSince imported after where
  kept row stored := same ▸ since.kept row stored
  added row stored := since.added row (same ▸ stored)

/-! ## The transaction processor -/

namespace TransactionLoop

variable {cliArgs : CliArgs}

/-- The outputs held have addresses. -/
def Addressed (loop : TransactionLoop) : Prop :=
  ∀ row ∈ loop.txOutputs, ∃ address, row.scriptPublicKeyAddress = some address

theorem addressed_of_mapRows (included : cliArgs.isExcluded .txOutScriptPublicKeyAddress = false)
    {transaction : RpcTransaction} {key : Int} {rows : TransactionRows}
    (mapped : mapRows cliArgs transaction key = some rows) :
    ∀ row ∈ rows.outputs, ∃ address, row.scriptPublicKeyAddress = some address := by
  intro row rowMem
  obtain ⟨_, _, outputsEq, _⟩ := mapRows_eq_some_iff.mp mapped
  simp only [VecnoDbMapper.mapTransactionOutputs, Option.bind_eq_bind,
    Option.bind_eq_some_iff] at outputsEq
  obtain ⟨verboseData, _, outputRows⟩ := outputsEq
  obtain ⟨_, _, rowEq⟩ := exists_of_mem_mapM_eq_some outputRows rowMem
  simp only [Option.bind_eq_some_iff] at rowEq
  obtain ⟨outputVerbose, _, _, _, _, _, _, _, eq⟩ := rowEq
  cases eq
  exact ⟨outputVerbose.scriptPublicKeyAddress, by simp [VecnoDbMapper.new, included, thenSome]⟩

/-- Iterations keep it, however they end, and what they hold has addresses. -/
theorem addressed_invariant (included : cliArgs.isExcluded .txOutScriptPublicKeyAddress = false)
    (imported : Db) :
    IterationInvariant cliArgs (fun _ => True)
      (fun loop db => AddressedSince imported db ∧ loop.Addressed) (AddressedSince imported) := by
  apply iterationInvariant_of_collect
  · exact fun db numbering since => since.of_eq rfl
  · exact fun _ _ => id
  · intro loop subnetworkMap forgotten transaction key received addressed collected
    obtain ⟨_, _, _, _, ⟨_, rfl⟩ | ⟨rows, mappedRows, rfl⟩⟩ := collect_cases collected
    · exact addressed
    · intro row held
      rcases List.mem_append.mp held with before | isNew
      · exact addressed row before
      · exact addressed_of_mapRows included mappedRows row isNew
  · intro loop db after since addressed fromBatch
    constructor
    · exact fun row stored => fromBatch.grows.outputs row (since.kept row stored)
    · intro row stored
      rcases fromBatch.outputs row stored with before | held
      · exact since.added row before
      · exact Or.inr (addressed row held)
  · exact fun _ _ _ held => absurd held List.not_mem_nil

end TransactionLoop

/-! ## Processing after an import -/

/-- However often and however long the processors ran, the outputs without an address are
imported ones. -/
theorem Processed.addressedSince {settings : Settings} {imported db : Db}
    (processed : Processed settings imported db)
    (included : settings.cliArgs.isExcluded .txOutScriptPublicKeyAddress = false) :
    AddressedSince imported db :=
  processed.left_of_invariant (TransactionLoop.addressed_invariant included imported)
    (fun _ _ _ same holds => ⟨holds.1.of_eq same.outputs, holds.2⟩)
    (fun _ _ same since => since.of_eq same.outputs)
    (fun _ _ since => ⟨since, fun _ held => absurd held List.not_mem_nil⟩) (.refl imported)

/-! ## The import -/

/-- The entries of a chunk. -/
def P2pEvent.pairs : P2pEvent → List Utxo
  | .message (.pruningPointUtxoSetChunk pairs) _ => pairs
  | _ => []

/-- The entries sent by peers. -/
def sentUtxos (rounds : List ImportRound) : List Utxo :=
  rounds.flatMap fun round => round.events.flatMap P2pEvent.pairs

section Import

variable {cliArgs : CliArgs} {env : ImportEnv}

theorem mem_pairs_of_outputs_mem_attemptStatements {events : List P2pEvent} {chunkCount : ℕ}
    {allBalances : List (String × Int)} {pairs : List Utxo}
    (issued : .outputs pairs ∈ attemptStatements cliArgs env chunkCount allBalances events) :
    ∀ utxo ∈ pairs, utxo ∈ events.flatMap P2pEvent.pairs := by
  induction events generalizing chunkCount allBalances with
  | nil => exact absurd issued List.not_mem_nil
  | cons event rest ih =>
      have later (count : ℕ) (before : List (String × Int))
          (among : .outputs pairs ∈ attemptStatements cliArgs env count before rest) :
          ∀ utxo ∈ pairs, utxo ∈ (event :: rest).flatMap P2pEvent.pairs :=
        fun utxo isPair => List.mem_append_right event.pairs (ih among utxo isPair)
      cases event with
      | closed => exact absurd issued List.not_mem_nil
      | timedOut => exact absurd issued List.not_mem_nil
      | message payload sendFails =>
          cases payload with
          | version => exact later chunkCount allBalances issued
          | other => exact later chunkCount allBalances issued
          | requestAddresses =>
              cases sendFails with
              | true => exact absurd issued List.not_mem_nil
              | false => exact later chunkCount allBalances issued
          | ping =>
              cases sendFails with
              | true => exact absurd issued List.not_mem_nil
              | false => exact later chunkCount allBalances issued
          | unexpectedPruningPoint => exact absurd issued List.not_mem_nil
          | donePruningPointUtxoSetChunks => exact absurd issued List.not_mem_nil
          | pruningPointUtxoSetChunk chunk =>
              rw [attemptStatements] at issued
              cases added : addAmounts allBalances (balanceDeltas cliArgs env chunk) with
              | none =>
                  rw [added] at issued
                  exact absurd issued List.not_mem_nil
              | some middle =>
                  simp only [added, List.mem_append, List.mem_cons, List.not_mem_nil,
                    reduceCtorEq, ImportStatement.outputs.injEq, false_or, or_false] at issued
                  rcases issued with rfl | issued
                  · exact fun utxo isPair => List.mem_append_left _ isPair
                  · split at issued
                    · exact absurd issued List.not_mem_nil
                    · exact later (chunkCount + 1) middle issued

/-- The outputs of an import are of entries sent to it. -/
theorem mem_sentUtxos_of_outputs_mem {rounds : List ImportRound} {pairs : List Utxo}
    (issued : .outputs pairs ∈ importStatements cliArgs env rounds) :
    ∀ utxo ∈ pairs, utxo ∈ sentUtxos rounds := by
  induction rounds with
  | nil => exact absurd issued List.not_mem_nil
  | cons round rest ih =>
      have later (among : .outputs pairs ∈ importStatements cliArgs env rest) :
          ∀ utxo ∈ pairs, utxo ∈ sentUtxos (round :: rest) :=
        fun utxo isPair => List.mem_append_right _ (ih among utxo isPair)
      unfold importStatements at issued
      split at issued
      · exact absurd issued List.not_mem_nil
      · rcases List.mem_append.mp issued with truncates | issued
        · split at truncates <;> simp at truncates
        · split at issued
          · rcases List.mem_append.mp issued with attempted | retried
            · exact fun utxo isPair => List.mem_append_left _
                (mem_pairs_of_outputs_mem_attemptStatements attempted utxo isPair)
            · split at retried
              · exact later retried
              · exact absurd retried List.not_mem_nil
          · exact later issued

/-- The outputs an import leaves, however it ends, are of entries sent to it. -/
theorem outputs_of_import {rounds : List ImportRound} {initial : Db}
    (noOutputs : initial.transactionsOutputs = .empty) (script : Script) :
    ∀ row ∈
        (Session.run (importUtxoSet cliArgs env rounds) initial script).state.transactionsOutputs,
      ∃ utxo ∈ sentUtxos rounds, row = utxo.output cliArgs env := by
  have issued : (attemptEach SqlError.unavailable (ImportStatement.effect cliArgs env)
      (importStatements cliArgs env rounds)).Keeps fun db =>
        ∀ row ∈ db.transactionsOutputs,
          ∃ utxo ∈ sentUtxos rounds, row = utxo.output cliArgs env := by
    apply keeps_attemptEach
    intro statement isIssued db ofSent row stored
    rw [outputs_effect] at stored
    rcases Table.mem_or_mem_of_mem_insertAll stored with old | given
    · exact ofSent row old
    · cases statement with
      | truncate => exact absurd given List.not_mem_nil
      | acceptances pairs => exact absurd given List.not_mem_nil
      | outputs pairs =>
          obtain ⟨utxo, isPair, rfl⟩ := List.mem_map.mp given
          exact ⟨utxo, mem_sentUtxos_of_outputs_mem isIssued utxo isPair, rfl⟩
  rw [importUtxoSet_eq]
  refine issued.bind (fun _ => ?_) initial script ?_
  · have receives := @receives_importEnd cliArgs env rounds
    cases ended : importEnd cliArgs env rounds with
    | overflow => exact Session.keeps_die _
    | cutOff => exact Session.keeps_pure _ _
    | received allBalances =>
        rw [ended] at receives
        obtain ⟨_, _, added⟩ := receives
        intro db script ofSent
        rw [AttemptEnd.complete, state_writeFinalBalances added]
        exact ofSent
  · intro row stored
    rw [noOutputs] at stored
    exact absurd stored (Table.notMem_empty row)

end Import

/-! ## The statement -/

theorem addressTransaction_eq_error_iff {spent : SpentInput} {error : SqlError} :
    spent.addressTransaction = .error error ↔
      spent.output.scriptPublicKeyAddress = none ∧ error = .notNullViolation := by
  unfold SpentInput.addressTransaction
  cases spent.output.scriptPublicKeyAddress with
  | some address => simp
  | none => simp [eq_comm]

/-- The statement fails exactly if it joins an output without an address. -/
theorem notNullViolation_iff {db : Db} {useTx : Bool} {transactionIds : List Hash} :
    InsertStatement.effect db (.addressesFromInputs useTx transactionIds) =
        .error .notNullViolation ↔
      ∃ spent ∈ db.spentInputs useTx transactionIds,
        spent.output.scriptPublicKeyAddress = none := by
  simp only [InsertStatement.effect]
  cases joined : (db.spentInputs useTx transactionIds).mapM SpentInput.addressTransaction with
  | ok rows =>
      constructor
      · intro failed
        contradiction
      · rintro ⟨spent, isSpent, noAddress⟩
        obtain ⟨row, _, converted⟩ := exists_mem_of_mapM_eq_ok joined isSpent
        rw [addressTransaction_eq_error_iff.mpr ⟨noAddress, rfl⟩] at converted
        contradiction
  | error error =>
      obtain ⟨spent, isSpent, failed⟩ := exists_of_mapM_eq_error joined
      obtain ⟨noAddress, rfl⟩ := addressTransaction_eq_error_iff.mp failed
      exact iff_of_true rfl ⟨spent, isSpent, noAddress⟩

theorem Utxo.index_output (cliArgs : CliArgs) (env : ImportEnv) (utxo : Utxo) :
    (utxo.output cliArgs env).index = wrapI16 utxo.index := by
  simp only [Utxo.output]

/-- After an import and whatever processing, the statement meets no NULL exactly if no input
it joins spends an imported output whose script has no address. -/
theorem addressesFromInputs_iff (settings : Settings) (env : ImportEnv) (rounds : List ImportRound)
    (initial : Db) (script : Script) (noOutputs : initial.transactionsOutputs = .empty)
    (included : settings.cliArgs.isExcluded .txOutScriptPublicKeyAddress = false) {db : Db}
    (processed : Processed settings
      (Session.run (importUtxoSet settings.cliArgs env rounds) initial script).state db)
    (useTx : Bool) (transactionIds : List Hash) :
    InsertStatement.effect db (.addressesFromInputs useTx transactionIds) ≠
        .error .notNullViolation ↔
      ∀ input ∈ db.transactionsInputs, input.transactionId ∈ transactionIds →
        (useTx = true → db.transactions.HasKey input.transactionId) →
        ∀ utxo ∈ sentUtxos rounds, utxo.output settings.cliArgs env ∈
          (Session.run (importUtxoSet settings.cliArgs env rounds) initial
            script).state.transactionsOutputs →
        input.previousOutpointHash = some utxo.transactionId →
        input.previousOutpointIndex = some (wrapI16 utxo.index) →
          env.extractAddress utxo.scriptPublicKey ≠ none := by
  have since := processed.addressedSince included
  have addressEq : ∀ utxo : Utxo, (utxo.output settings.cliArgs env).scriptPublicKeyAddress =
      env.extractAddress utxo.scriptPublicKey := fun utxo => by
    simp [Utxo.output, Utxo.address, includeAddress, included]
  rw [Ne, notNullViolation_iff]
  constructor
  · intro noNull input inputStored among timed utxo _ imported hashEq indexEq noAddress
    have spends : db.spentOutput input = some (utxo.output settings.cliArgs env) :=
      spentOutput_eq_some_iff.mpr
        ⟨since.kept _ imported, hashEq, by rw [Utxo.index_output, indexEq]⟩
    obtain ⟨blockTime, timeEq⟩ := exists_time timed
    exact noNull ⟨_, mem_spentInputs inputStored spends timeEq among,
      (addressEq utxo).trans noAddress⟩
  · rintro addressed ⟨spent, isSpent, noAddress⟩
    obtain ⟨input, inputStored, _, among, timed, spends⟩ := exists_of_mem_spentInputs isSpent
    obtain ⟨outputStored, hashEq, indexEq⟩ := spentOutput_eq_some_iff.mp spends
    rcases since.added spent.output outputStored with imported | ⟨address, hasAddress⟩
    · obtain ⟨utxo, isSent, outputEq⟩ := outputs_of_import noOutputs script spent.output imported
      rw [outputEq] at imported hashEq indexEq noAddress
      rw [Utxo.index_output] at indexEq
      exact addressed input inputStored among timed utxo isSent imported hashEq indexEq
        ((addressEq utxo).symm.trans noAddress)
    · rw [noAddress] at hasAddress
      contradiction

/-! ## A script without an address -/

/-- Some script has no standard address. -/
def bareEnv : ImportEnv where
  extractAddress script := if script.script = [1] then none else some "a"
  hostOf _ := none
  defaultP2pPort _ := 0
  hashOrder := .listed

/-- A set of one entry, sent to its end. -/
def bareRound : ImportRound where
  peer := some "peer"
  connected := true
  events := [.message (.pruningPointUtxoSetChunk [⟨7, 0, 5, ⟨0, [1]⟩⟩]) false,
    .message .donePruningPointUtxoSetChunks false]

def bareImport : Db :=
  (Session.run (importUtxoSet indexingSettings.cliArgs bareEnv [bareRound]) .empty
    fun _ => .succeeds).state

/-- A block whose only transaction spends the entry. -/
def spendImported : List IndexingEvent :=
  [.transactions
    { popped := some { spentData with transactions := [spendingTransaction 1] }
      forgotten := fun _ _ => false
      now := 10000000000
      commitNow := 10000000000
      timestampValid := true
      firstOrder := .listed
      secondOrder := .listed }
    fun _ => .succeeds]

theorem spendImported_iff :
    InsertStatement.effect
        (runFrom (IndexingWorld.step indexingSettings) (.start bareImport 0) spendImported).db
        (.addressesFromInputs false [8]) ≠ .error .notNullViolation ↔
      ∀ input ∈ (runFrom (IndexingWorld.step indexingSettings) (.start bareImport 0)
          spendImported).db.transactionsInputs, input.transactionId ∈ ([8] : List Hash) →
        (false = true → (runFrom (IndexingWorld.step indexingSettings) (.start bareImport 0)
          spendImported).db.transactions.HasKey input.transactionId) →
        ∀ utxo ∈ sentUtxos [bareRound], utxo.output indexingSettings.cliArgs bareEnv ∈
          bareImport.transactionsOutputs →
        input.previousOutpointHash = some utxo.transactionId →
        input.previousOutpointIndex = some (wrapI16 utxo.index) →
          bareEnv.extractAddress utxo.scriptPublicKey ≠ none :=
  addressesFromInputs_iff indexingSettings bareEnv [bareRound] .empty (fun _ => .succeeds) rfl rfl
    (.started .imported 0 spendImported) false [8]

/-- The statement of the commit fails, and the process dies. -/
theorem spendImported_fails :
    InsertStatement.effect
        (runFrom (IndexingWorld.step indexingSettings) (.start bareImport 0) spendImported).db
        (.addressesFromInputs false [8]) = .error .notNullViolation ∧
      (runFrom (IndexingWorld.step indexingSettings) (.start bareImport 0)
        spendImported).transactionLoop.isNone = true := by
  constructor
  · rw [notNullViolation_iff]
    decide +kernel
  · decide +kernel

end VecnoIndexer
