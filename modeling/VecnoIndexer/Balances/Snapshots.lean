import VecnoIndexer.Balances.Correctness
import VecnoIndexer.Balances.Unspent

/-!
# From one UTXO snapshot to the next

The snapshot at a blue score holds the outputs that are imported or accepted up to
that score and not spent by a transaction accepted up to it.  Created minus spent
amounts of an interval are the difference of two snapshots, so an update that
returns moves balances that are one snapshot to the other.
-/

namespace VecnoIndexer

open VecnoIndexer.Sql
open VecnoIndexer.Collections
open VecnoIndexer.Ledger

/-! ## Snapshots -/

/-- The blue score at which a block accepts the transaction. An imported
transaction has none. -/
def Db.acceptingScore (db : Db) (transactionId : Hash) : Option Int :=
  (db.acceptingBlock transactionId).bind Block.blueScore

/-- The transaction is accepted by a block with at most this blue score. -/
def Db.minedUpTo (db : Db) (score : Int) (transactionId : Hash) : Bool :=
  (db.acceptingScore transactionId).any fun blueScore => decide (blueScore ≤ score)

/-- What an address holds at a blue score: the outputs created by imported
transactions or ones accepted up to the score, without those that transactions
accepted up to it spend. -/
def Db.snapshot (db : Db) (score : Int) (address : String) : Int :=
  total db.transactionsOutputs.rows (amountTo address)
    (Unspent (CreatedBy (db.acceptedUpTo score)) (SpentBy (db.minedUpTo score))
      db.transactionsInputs.rows)

/-- What consensus guarantees of the stored transactions: no output is spent by two
inputs of accepted transactions, and what such an input spends is
stored and was imported or accepted no later. An acceptance whose block has no score
counts nowhere, so nothing is asked of it. -/
structure Db.SpendsInOrder (db : Db) : Prop where
  single : ∀ first ∈ db.transactionsInputs, ∀ second ∈ db.transactionsInputs,
    db.acceptingScore first.transactionId ≠ none →
    db.acceptingScore second.transactionId ≠ none →
    ∀ output ∈ db.transactionsOutputs, first.References output → second.References output →
      first = second
  createdFirst : ∀ input ∈ db.transactionsInputs, ∀ score,
    db.acceptingScore input.transactionId = some score →
    ∃ output ∈ db.transactionsOutputs, input.References output ∧
      db.acceptedUpTo score output.transactionId = true

section Snapshot

variable {db : Db}

theorem minedUpTo_iff {score : Int} {transactionId : Hash} :
    db.minedUpTo score transactionId = true ↔
      ∃ blueScore, db.acceptingScore transactionId = some blueScore ∧ blueScore ≤ score := by
  simp only [Db.minedUpTo, Option.any_eq_true, decide_eq_true_eq]

theorem acceptedUpTo_mono {lower upper : Int} (ordered : lower ≤ upper) {transactionId : Hash}
    (accepted : db.acceptedUpTo lower transactionId = true) :
    db.acceptedUpTo upper transactionId = true := by
  unfold Db.acceptedUpTo at accepted ⊢
  split at accepted
  · contradiction
  · split at accepted
    · rfl
    · split at accepted
      · contradiction
      · simp only [decide_eq_true_eq] at accepted ⊢
        omega

/-- An outpoint names one output. -/
theorem eq_of_references {input : TransactionInput} {first second : TransactionOutput}
    (firstMem : first ∈ db.transactionsOutputs) (secondMem : second ∈ db.transactionsOutputs)
    (firstReferences : input.References first) (secondReferences : input.References second) :
    first = second := by
  have sameId : first.transactionId = second.transactionId :=
    Option.some.inj (firstReferences.1.symm.trans secondReferences.1)
  have sameIndex : first.index = second.index :=
    Option.some.inj (firstReferences.2.symm.trans secondReferences.2)
  apply Table.eq_of_key_eq firstMem secondMem rfl
  rw [TransactionOutput.primaryKey, sameId, sameIndex]

/-- Up to every score, the inputs spend each output once and only created ones. -/
theorem Db.SpendsInOrder.spendsOnce (valid : db.SpendsInOrder) (score : Int) :
    SpendsOnce (CreatedBy (db.acceptedUpTo score)) (SpentBy (db.minedUpTo score))
      db.transactionsOutputs.rows db.transactionsInputs.rows where
  single := by
    have distinct : db.transactionsInputs.rows.Nodup :=
      db.transactionsInputs.unique.imp fun {first second} differ equal => by
        subst equal
        rcases differ with noKey | keysNe
        · exact nomatch noKey
        · exact keysNe rfl
    apply distinct.imp_of_mem
    intro first second firstMem secondMem different output outputMem firstSpends secondSpends
    obtain ⟨firstScore, firstAccepted, _⟩ := minedUpTo_iff.mp firstSpends.1
    obtain ⟨secondScore, secondAccepted, _⟩ := minedUpTo_iff.mp secondSpends.1
    apply different
    exact valid.single first firstMem second secondMem (by simp [firstAccepted])
      (by simp [secondAccepted]) output outputMem firstSpends.2 secondSpends.2
  createdFirst := by
    rintro input inputMem output outputMem ⟨mined, references⟩
    obtain ⟨blueScore, accepted, below⟩ := minedUpTo_iff.mp mined
    obtain ⟨spent, spentMem, spentReferences, created⟩ :=
      valid.createdFirst input inputMem blueScore accepted
    rw [eq_of_references outputMem spentMem references spentReferences]
    exact acceptedUpTo_mono below created

/-- What an input's acceptance adds from one score to the next. -/
theorem minedUpTo_split (db : Db) {lower upper : Int} (ordered : lower ≤ upper)
    (transactionId : Hash) (amount : Int) :
    (if db.minedUpTo upper transactionId = true then amount else 0) =
      (if db.minedUpTo lower transactionId = true then amount else 0) +
        ((db.acceptingBlock transactionId).map fun block =>
          if scoreBetween block.blueScore (some lower) (some upper) = true then amount
          else 0).getD 0 := by
  unfold Db.minedUpTo Db.acceptingScore
  cases db.acceptingBlock transactionId with
  | none => simp
  | some block =>
      cases score : block.blueScore with
      | none => simp [score, scoreBetween]
      | some blueScore =>
          simp only [score, scoreBetween, Option.bind_some, Option.any_some, Option.map_some,
            Option.getD_some, decide_eq_true_eq]
          split_ifs <;> omega

/-- The snapshot moves by the net delta of the interval. -/
theorem snapshot_add (valid : db.SpendsInOrder) {lower upper : Int} (ordered : lower ≤ upper)
    (address : String) :
    db.snapshot upper address = db.snapshot lower address + netDelta db lower upper address := by
  have atLower := total_created_eq _ _ (amountTo address) (valid.spendsOnce lower)
  have atUpper := total_created_eq _ _ (amountTo address) (valid.spendsOnce upper)
  have created := total_createdBy_acceptedUpTo db ordered address
  have spent := sum_spentBy_add db (minedUpTo_split db ordered) address
  unfold Db.snapshot netDelta
  omega

/-- An update that returns moves balances that are one snapshot to the next. -/
theorem snapshot_of_update (hashOrder : Reordering (String × Int)) {db after : Db}
    {fromCheckpoint toCheckpoint : String} {lower upper : Int} {script rest : Script}
    (valid : db.SpendsInOrder) (fromScore : db.CheckpointScore fromCheckpoint lower)
    (toScore : db.CheckpointScore toCheckpoint upper) (ordered : lower ≤ upper)
    (balance : ∀ address, db.balanceOf address = db.snapshot lower address)
    (ran : Session.run (updateBalancesFromUtxoChanges hashOrder fromCheckpoint toCheckpoint)
      db script = .done () after rest) :
    ∀ address, after.balanceOf address = after.snapshot upper address := by
  obtain ⟨balances, rfl, updated⟩ := update_of_done hashOrder fromScore toScore ran
  intro address
  calc balanceIn balances address
      = db.balanceOf address + netDelta db lower upper address := updated address
    _ = db.snapshot lower address + netDelta db lower upper address := by rw [balance]
    _ = db.snapshot upper address := (snapshot_add valid ordered address).symm

end Snapshot

/-! ## An import that is spent -/

/-- Block 2 accepts transaction 7, which spends the 3 that the imported transaction 6
pays to `payee` and pays 5 to it. -/
def spentImportDb : Db :=
  { Db.empty with
    blocks := Table.empty.insertAll [scoredBlock 1 0, scoredBlock 2 1]
    transactionsAcceptances := Table.empty.insertAll [⟨some 6, none⟩, ⟨some 7, some 2⟩]
    transactionsOutputs := Table.empty.insertAll
      [⟨6, 0, some 3, none, some "payee", none⟩, ⟨7, 0, some 5, none, some "payee", none⟩]
    transactionsInputs := Table.empty.insertAll
      [⟨7, 0, some 6, some 0, none, none, none, none, none⟩]
    balances := Table.empty.insertAll [⟨"payee", 3⟩] }

theorem spentImportDb_spendsInOrder : spentImportDb.SpendsInOrder := by
  have inputs : ∀ input ∈ spentImportDb.transactionsInputs,
      input = ⟨7, 0, some 6, some 0, none, none, none, none, none⟩ := by
    intro input inputMem
    exact List.mem_singleton.mp inputMem
  constructor
  · intro first firstMem second secondMem _ _ _ _ _ _
    rw [inputs first firstMem, inputs second secondMem]
  · intro input inputMem score accepted
    rw [inputs input inputMem] at accepted ⊢
    have scoreEq : spentImportDb.acceptingScore 7 = some 1 := by decide +kernel
    cases accepted.symm.trans scoreEq
    exact ⟨⟨6, 0, some 3, none, some "payee", none⟩, by decide +kernel, by decide,
      by decide +kernel⟩

theorem spentImportDb_fits : DeltaFits spentImportDb 0 1 := by
  have balances : ∀ row ∈ spentImportDb.balances.rows, row.scriptPublicKeyAddress = "payee" := by
    decide +kernel
  apply deltaFits_of_payee _ balances <;> decide +kernel

/-- The update takes `payee` from the imported 3 to the 5. -/
theorem spentImport_snapshot :
    spentImportDb.snapshot 0 "payee" = 3 ∧ spentImportDb.snapshot 1 "payee" = 5 ∧
      ∃ after rest,
        Session.run (updateBalancesFromUtxoChanges .listed (Hash.encode 1) (Hash.encode 2))
          spentImportDb (fun _ => .succeeds) = .done () after rest ∧
        ∀ address, after.balanceOf address = after.snapshot 1 address := by
  have fromScore : spentImportDb.CheckpointScore (Hash.encode 1) 0 :=
    ⟨1, Hash.fromStr_encode 1, by decide⟩
  have toScore : spentImportDb.CheckpointScore (Hash.encode 2) 1 :=
    ⟨2, Hash.fromStr_encode 2, by decide⟩
  have balance : ∀ address,
      spentImportDb.balanceOf address = spentImportDb.snapshot 0 address := by
    intro address
    by_cases payee : address = "payee"
    · subst payee
      decide +kernel
    · have outputs : spentImportDb.transactionsOutputs.rows =
          [⟨6, 0, some 3, none, some "payee", none⟩,
            ⟨7, 0, some 5, none, some "payee", none⟩] := rfl
      have absent : spentImportDb.balances.lookup address = none := by
        rw [Table.lookup_eq_none_iff]
        rintro ⟨row, rowMem, rowKey⟩
        cases List.mem_singleton.mp rowMem
        exact payee (Option.some.inj rowKey).symm
      simp [Db.balanceOf, balanceIn, absent, Db.snapshot, total, outputs, amountTo, Ne.symm payee]
  obtain ⟨balances, rest, _, ran, _⟩ := run_updateBalancesFromUtxoChanges .listed fromScore toScore
    spentImportDb_fits fun _ => rfl
  exact ⟨by decide +kernel, by decide +kernel, _, rest, ran,
    snapshot_of_update .listed spentImportDb_spendsInOrder fromScore toScore (by decide) balance
      ran⟩

end VecnoIndexer
