import VecnoIndexer.Balances.Delta
import VecnoIndexer.Ledger.Unspent

/-!
# Unspent outputs of an address

The sum of the amounts of an address's outputs that are accepted and not spent by
an accepted transaction.  Restricted to acceptances up to a blue score, the
created amounts minus the spent ones grow by the net delta of an interval when
the score moves over it.
-/

namespace VecnoIndexer

open VecnoIndexer.Sql
open VecnoIndexer.Collections
open VecnoIndexer.Ledger

/-- The outpoint of an input is an output. -/
def TransactionInput.References (input : TransactionInput) (output : TransactionOutput) : Prop :=
  input.previousOutpointHash = some output.transactionId ∧
    input.previousOutpointIndex = some output.index

instance (input : TransactionInput) : DecidablePred input.References :=
  fun _ => inferInstanceAs (Decidable (_ ∧ _))

/-- What an output contributes to the balance of an address. -/
def amountTo (address : String) (output : TransactionOutput) : Int :=
  if output.scriptPublicKeyAddress = some address then output.amount.getD 0 else 0

section Accepted

variable (db : Db) (accepted : Hash → Bool)

def CreatedBy (output : TransactionOutput) : Prop :=
  accepted output.transactionId = true

def SpentBy (input : TransactionInput) (output : TransactionOutput) : Prop :=
  accepted input.transactionId = true ∧ input.References output

instance : DecidablePred (CreatedBy accepted) :=
  fun output => inferInstanceAs (Decidable (accepted output.transactionId = true))

instance (input : TransactionInput) : DecidablePred (SpentBy accepted input) :=
  fun _ => inferInstanceAs (Decidable (_ ∧ _))

/-- The unspent outputs of an address under a choice of accepted transactions. -/
def Db.unspentOf (address : String) : Int :=
  total db.transactionsOutputs.rows (amountTo address)
    (Unspent (CreatedBy accepted) (SpentBy accepted) db.transactionsInputs.rows)

/-- Created minus spent amounts under a choice of accepted transactions. -/
def Db.ledgerOf (address : String) : Int :=
  total db.transactionsOutputs.rows (amountTo address) (CreatedBy accepted) -
    (db.transactionsInputs.rows.map fun input =>
      total db.transactionsOutputs.rows (amountTo address) (SpentBy accepted input)).sum

/-- The accepted transactions spend each output once and only accepted outputs. -/
def Db.SpendsValid : Prop :=
  SpendsOnce (CreatedBy accepted) (SpentBy accepted) db.transactionsOutputs.rows
    db.transactionsInputs.rows

variable {db accepted}

theorem ledgerOf_eq_unspentOf (valid : db.SpendsValid accepted) (address : String) :
    db.ledgerOf accepted address = db.unspentOf accepted address := by
  have split := total_created_eq _ _ (amountTo address) valid
  unfold Db.ledgerOf Db.unspentOf
  omega

end Accepted

/-- The transaction has an acceptance row. -/
def Db.accepted (db : Db) (transactionId : Hash) : Bool :=
  (db.transactionsAcceptances.lookup transactionId).isSome

/-- The transaction is accepted without a block, or by a block with at most this
blue score. -/
def Db.acceptedUpTo (db : Db) (score : Int) (transactionId : Hash) : Bool :=
  match db.transactionsAcceptances.lookup transactionId with
  | none => false
  | some row =>
      match row.blockHash with
      | none => true
      | some blockHash =>
          match db.scoreOf blockHash with
          | none => false
          | some blueScore => decide (blueScore ≤ score)

/-- The sum of an address's outputs that are accepted and not referenced by an
input of an accepted transaction. -/
def Db.unspentBalance (db : Db) (address : String) : Int :=
  db.unspentOf db.accepted address

/-! ## The ledger along blue scores -/

theorem sum_map_filterMap {α β : Type} (f : α → Option β) (g : β → Int) (values : List α) :
    ((values.filterMap f).map g).sum = (values.map fun value => ((f value).map g).getD 0).sum := by
  induction values with
  | nil => rfl
  | cons value rest ih => cases found : f value <;> simp [found, ih]

/-- The transaction's acceptance counts for a score from its block's score on. -/
theorem acceptedUpTo_split (db : Db) {lower upper : Int} (ordered : lower ≤ upper)
    (transactionId : Hash) (amount : Int) :
    (if db.acceptedUpTo upper transactionId = true then amount else 0) =
      (if db.acceptedUpTo lower transactionId = true then amount else 0) +
        ((db.acceptingBlock transactionId).map fun block =>
          if scoreBetween block.blueScore (some lower) (some upper) = true then amount
          else 0).getD 0 := by
  unfold Db.acceptedUpTo Db.acceptingBlock
  cases db.transactionsAcceptances.lookup transactionId with
  | none => simp
  | some row =>
      cases rowBlock : row.blockHash with
      | none => simp [rowBlock]
      | some blockHash =>
          cases stored : db.blocks.lookup blockHash with
          | none => simp [rowBlock, stored, Db.scoreOf]
          | some block =>
              cases score : block.blueScore with
              | none => simp [rowBlock, stored, score, Db.scoreOf, scoreBetween]
              | some blueScore =>
                  simp only [rowBlock, stored, score, Db.scoreOf, scoreBetween,
                    Option.bind_eq_bind, Option.bind_some, Option.map_some, Option.getD_some,
                    decide_eq_true_eq]
                  split_ifs <;> omega

theorem total_createdBy (db : Db) (accepted : Hash → Bool) (address : String) :
    total db.transactionsOutputs.rows (amountTo address) (CreatedBy accepted) =
      (db.transactionsOutputs.rows.map fun output =>
        if accepted output.transactionId = true then amountTo address output else 0).sum :=
  rfl

/-- What the created outputs add over an interval. -/
theorem total_createdBy_acceptedUpTo (db : Db) {lower upper : Int} (ordered : lower ≤ upper)
    (address : String) :
    total db.transactionsOutputs.rows (amountTo address) (CreatedBy (db.acceptedUpTo upper)) =
      total db.transactionsOutputs.rows (amountTo address) (CreatedBy (db.acceptedUpTo lower)) +
        sumBetween (createdSources db) lower upper address := by
  unfold sumBetween createdSources
  rw [total_createdBy, total_createdBy, sum_map_filterMap, ← List.sum_map_add]
  apply congrArg List.sum
  apply List.map_congr_left
  intro output _
  rw [acceptedUpTo_split db ordered]
  cases db.acceptingBlock output.transactionId with
  | none => simp
  | some block =>
      by_cases paid : output.scriptPublicKeyAddress = some address <;>
        simp [DeltaSource.contribution, amountTo, paid]

/-- At most one output row carries a referenced key. -/
theorem total_references (db : Db) (address : String) (input : TransactionInput) :
    total db.transactionsOutputs.rows (amountTo address) input.References =
      ((db.previousOutput input).map (amountTo address)).getD 0 := by
  cases found : db.previousOutput input with
  | none =>
      apply total_eq_zero
      rintro output outputMem ⟨hashEq, indexEq⟩
      have stored : db.transactionsOutputs.lookup (output.transactionId, output.index) =
          some output := Table.lookup_eq_some_iff.mpr ⟨outputMem, rfl⟩
      simp [Db.previousOutput, hashEq, indexEq, stored] at found
  | some output =>
      simp only [Db.previousOutput, Option.bind_eq_bind, Option.bind_eq_some_iff,
        Table.lookup_eq_some_iff] at found
      obtain ⟨hash, hashEq, index, indexEq, outputMem, outputKey⟩ := found
      cases outputKey
      apply total_eq_of_single _ outputMem ⟨hashEq, indexEq⟩
      apply db.transactionsOutputs.unique.imp
      rintro first second (noKey | keysDiffer) ⟨firstHash, firstIndex⟩ ⟨secondHash, secondIndex⟩
      · contradiction
      · apply keysDiffer
        rw [firstHash] at secondHash
        rw [firstIndex] at secondIndex
        rw [TransactionOutput.primaryKey, TransactionOutput.primaryKey,
          Option.some.inj secondHash, Option.some.inj secondIndex]

/-- What an input spends if its transaction is accepted. -/
theorem total_spentBy (db : Db) (accepted : Hash → Bool) (address : String)
    (input : TransactionInput) :
    total db.transactionsOutputs.rows (amountTo address) (SpentBy accepted input) =
      if accepted input.transactionId = true then
        ((db.previousOutput input).map (amountTo address)).getD 0
      else 0 := by
  split
  · rename_i inputAccepted
    rw [← total_references]
    apply total_congr
    intro output _
    simp [SpentBy, inputAccepted]
  · rename_i notAccepted
    apply total_eq_zero
    exact fun output _ spent => notAccepted spent.1

/-- What the accepted inputs spend over an interval, for every choice of accepted
transactions that grows by those of the interval. -/
theorem sum_spentBy_add (db : Db) {lower upper : Int} {earlier later : Hash → Bool}
    (grows : ∀ transactionId amount, (if later transactionId = true then amount else 0) =
      (if earlier transactionId = true then amount else 0) +
        ((db.acceptingBlock transactionId).map fun block =>
          if scoreBetween block.blueScore (some lower) (some upper) = true then amount
          else (0 : Int)).getD 0)
    (address : String) :
    (db.transactionsInputs.rows.map fun input => total db.transactionsOutputs.rows
        (amountTo address) (SpentBy later input)).sum =
      (db.transactionsInputs.rows.map fun input => total db.transactionsOutputs.rows
        (amountTo address) (SpentBy earlier input)).sum +
        sumBetween (spentSources db) lower upper address := by
  simp only [total_spentBy]
  unfold sumBetween spentSources
  rw [sum_map_filterMap, ← List.sum_map_add]
  apply congrArg List.sum
  apply List.map_congr_left
  intro input _
  rw [grows]
  cases db.acceptingBlock input.transactionId with
  | none => simp
  | some block =>
      cases db.previousOutput input with
      | none => simp
      | some output =>
          by_cases paid : output.scriptPublicKeyAddress = some address <;>
            simp [DeltaSource.contribution, amountTo, paid]

/-- Moving the score over an interval changes the ledger by its net delta. -/
theorem ledgerOf_acceptedUpTo (db : Db) {lower upper : Int} (ordered : lower ≤ upper)
    (address : String) :
    db.ledgerOf (db.acceptedUpTo upper) address =
      db.ledgerOf (db.acceptedUpTo lower) address + netDelta db lower upper address := by
  have created := total_createdBy_acceptedUpTo db ordered address
  have spent := sum_spentBy_add db (acceptedUpTo_split db ordered) address
  unfold Db.ledgerOf netDelta
  omega

end VecnoIndexer
