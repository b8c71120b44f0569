import VecnoIndexer.Balances.Update
import Mathlib.Data.List.Dedup
import Mathlib.Tactic.Ring

/-!
# The net delta of an interval

What an update between two checkpoints is for: to add to every balance the
amounts created minus the amounts spent by transactions whose accepting block's
blue score lies in the interval.  The net delta is additive in the interval.  An
update that is executed in full adds exactly it, and one cut off no later than
at its first write leaves the database as it was.
-/

namespace VecnoIndexer

open VecnoIndexer.Sql
open VecnoIndexer.Collections

/-! ## Sums over an interval of blue scores -/

/-- The blue score stored for a block. -/
def Db.scoreOf (db : Db) (hash : Hash) : Option Int :=
  (db.blocks.lookup hash).bind Block.blueScore

/-- What one joined row adds to the total of an address over an interval. -/
def DeltaSource.contribution (source : DeltaSource) (lower upper : Int) (address : String) :
    Int :=
  if source.address = some address ∧
      scoreBetween source.blueScore (some lower) (some upper) = true then
    source.amount.getD 0
  else
    0

/-- The total of an address over an interval. -/
def sumBetween (sources : List DeltaSource) (lower upper : Int) (address : String) : Int :=
  (sources.map fun source => source.contribution lower upper address).sum

/-- Created minus spent amounts of an address over an interval. -/
def netDelta (db : Db) (lower upper : Int) (address : String) : Int :=
  sumBetween (createdSources db) lower upper address -
    sumBetween (spentSources db) lower upper address

theorem contribution_add (source : DeltaSource) {lower middle upper : Int}
    (first : lower ≤ middle) (second : middle ≤ upper) (address : String) :
    source.contribution lower upper address =
      source.contribution lower middle address + source.contribution middle upper address := by
  unfold DeltaSource.contribution
  cases scoreEq : source.blueScore with
  | none => simp [scoreBetween]
  | some score =>
      by_cases addressEq : source.address = some address
      · simp only [addressEq, scoreBetween, decide_eq_true_eq, true_and]
        split_ifs <;> omega
      · simp [addressEq]

theorem sumBetween_add (sources : List DeltaSource) {lower middle upper : Int}
    (first : lower ≤ middle) (second : middle ≤ upper) (address : String) :
    sumBetween sources lower upper address =
      sumBetween sources lower middle address + sumBetween sources middle upper address := by
  unfold sumBetween
  rw [← List.sum_map_add]
  exact congrArg List.sum
    (List.map_congr_left fun source _ => contribution_add source first second address)

/-- Adjacent intervals add up. -/
theorem netDelta_add (db : Db) {lower middle upper : Int}
    (first : lower ≤ middle) (second : middle ≤ upper) (address : String) :
    netDelta db lower upper address =
      netDelta db lower middle address + netDelta db middle upper address := by
  unfold netDelta
  rw [sumBetween_add (createdSources db) first second,
    sumBetween_add (spentSources db) first second]
  omega

theorem sumBetween_self (sources : List DeltaSource) (score : Int) (address : String) :
    sumBetween sources score score address = 0 := by
  have additive := sumBetween_add sources (le_refl score) (le_refl score) address
  omega

@[simp]
theorem netDelta_self (db : Db) (score : Int) (address : String) :
    netDelta db score score address = 0 := by
  simp [netDelta, sumBetween_self]

/-- The net delta depends on the tables it joins only. -/
theorem netDelta_congr {first second : Db}
    (outputs : first.transactionsOutputs = second.transactionsOutputs)
    (inputs : first.transactionsInputs = second.transactionsInputs)
    (acceptances : first.transactionsAcceptances = second.transactionsAcceptances)
    (blocks : first.blocks = second.blocks) :
    netDelta first = netDelta second := by
  funext lower upper address
  simp only [netDelta, createdSources, spentSources, Db.acceptingBlock, Db.previousOutput,
    outputs, inputs, acceptances, blocks]

/-- A block row of which only the hash and the blue score are set. -/
def scoredBlock (hash : Hash) (blueScore : Int) : Block where
  hash := hash
  acceptedIdMerkleRoot := none
  mergeSetBluesHashes := none
  mergeSetRedsHashes := none
  selectedParentHash := none
  bits := none
  blueScore := some blueScore
  blueWork := none
  daaScore := none
  hashMerkleRoot := none
  nonce := none
  pruningPoint := none
  timestamp := none
  utxoCommitment := none
  version := none

/-! ## The rows of one interval query -/

/-- Rows that list a function from addresses to totals: one row for each address
listed, and every address with a non-zero total is listed. -/
structure Lists (rows : List DeltaRow) (total : String → Int) : Prop where
  nodup : (rows.map DeltaRow.address).Nodup
  value : ∀ row ∈ rows, row.totalAmount = total row.address
  complete : ∀ address, total address ≠ 0 → address ∈ rows.map DeltaRow.address

theorem totalAmount_filter (sources : List DeltaSource) (lower upper : Int)
    (address : String) :
    totalAmount (sources.filter fun source =>
        scoreBetween source.blueScore (some lower) (some upper) && source.address.isSome)
      address = sumBetween sources lower upper address := by
  unfold totalAmount sumBetween
  induction sources with
  | nil => rfl
  | cons source rest ih =>
      rw [List.map_cons, List.sum_cons, ← ih]
      by_cases within : scoreBetween source.blueScore (some lower) (some upper) = true
      · by_cases addressEq : source.address = some address
        · simp [DeltaSource.contribution, within, addressEq]
        · cases sourceAddress : source.address with
          | none => simp [DeltaSource.contribution, within, sourceAddress]
          | some other =>
              rw [sourceAddress] at addressEq
              simp [DeltaSource.contribution, within, sourceAddress, addressEq]
      · simp [DeltaSource.contribution, within]

theorem totalAmount_eq_zero_of_notMem {sources : List DeltaSource} {address : String}
    (absent : address ∉ sources.filterMap DeltaSource.address) :
    totalAmount sources address = 0 := by
  have noRows : (sources.filter fun source => source.address = some address) = [] := by
    rw [List.filter_eq_nil_iff]
    intro source sourceMem
    have notSome : source.address ≠ some address := fun equal =>
      absent (List.mem_filterMap.mpr ⟨source, sourceMem, equal⟩)
    simpa using notSome
  simp [totalAmount, noRows]

/-- What grouping returns lists the totals. -/
theorem lists_of_groupByAddress {sources : List DeltaSource} {rows : List DeltaRow}
    (grouped : groupByAddress sources = .ok rows) : Lists rows (totalAmount sources) := by
  let addresses := (sources.filterMap DeltaSource.address).dedup
  obtain rfl : addresses.map (fun address => ⟨address, totalAmount sources address⟩) = rows := by
    unfold groupByAddress at grouped
    dsimp only at grouped
    split at grouped
    · exact Except.ok.inj grouped
    · contradiction
  have rowAddresses : (addresses.map fun address =>
      (⟨address, totalAmount sources address⟩ : DeltaRow)).map DeltaRow.address = addresses := by
    simp [Function.comp_def]
  refine ⟨?_, ?_, ?_⟩
  · rw [rowAddresses]
    exact List.nodup_dedup _
  · intro row rowMem
    obtain ⟨address, _, rfl⟩ := List.mem_map.mp rowMem
    rfl
  · intro address nonzero
    rw [rowAddresses, List.mem_dedup]
    by_contra absent
    exact nonzero (totalAmount_eq_zero_of_notMem absent)

/-- Rows whose totals all fit are grouped. -/
theorem exists_groupByAddress {sources : List DeltaSource}
    (fits : ∀ address, InI64 (totalAmount sources address)) :
    ∃ rows, groupByAddress sources = .ok rows :=
  ⟨_, if_pos fun address _ => fits address⟩

section Query

variable {sources : Db → List DeltaSource} {fromCheckpoint toCheckpoint : String}
  {fromHash toHash : Hash} {db : Db} {script : Script} {lower upper : Int}

/-- What a query selects are the sources of its interval. -/
theorem totalAmount_selectSources (fromScore : db.scoreOf fromHash = some lower)
    (toScore : db.scoreOf toHash = some upper) :
    totalAmount (selectSources db (sources db) fromHash toHash) =
      sumBetween (sources db) lower upper := by
  obtain ⟨fromBlock, fromFound, fromBlue⟩ := Option.bind_eq_some_iff.mp fromScore
  obtain ⟨toBlock, toFound, toBlue⟩ := Option.bind_eq_some_iff.mp toScore
  funext address
  rw [← totalAmount_filter (sources db) lower upper address]
  simp only [selectSources, fromFound, toFound, fromBlue, toBlue]

/-- A query that returns lists the totals of its interval. -/
theorem lists_of_done (fromText : Hash.fromStr fromCheckpoint = some fromHash)
    (toText : Hash.fromStr toCheckpoint = some toHash)
    (fromScore : db.scoreOf fromHash = some lower) (toScore : db.scoreOf toHash = some upper)
    {rows : List DeltaRow} {after : Db} {rest : Script}
    (ran : Session.run (selectDeltas sources fromCheckpoint toCheckpoint) db script =
      .done rows after rest) :
    Lists rows (sumBetween (sources db) lower upper) ∧ after = db := by
  have executed := Session.executed_of_run_statement ran
  simp only [fromText, toText] at executed
  cases grouped : groupByAddress (selectSources db (sources db) fromHash toHash) with
  | error error =>
      rw [grouped] at executed
      contradiction
  | ok groups =>
      rw [grouped] at executed
      cases executed
      have lists := lists_of_groupByAddress grouped
      rw [totalAmount_selectSources fromScore toScore] at lists
      exact ⟨lists, rfl⟩

/-- An executed query whose totals all fit lists the totals of its interval. -/
theorem run_selectDeltas (succeeds : script 0 = .succeeds)
    (fromText : Hash.fromStr fromCheckpoint = some fromHash)
    (toText : Hash.fromStr toCheckpoint = some toHash)
    (fromScore : db.scoreOf fromHash = some lower)
    (toScore : db.scoreOf toHash = some upper)
    (fits : ∀ address, InI64 (sumBetween (sources db) lower upper address)) :
    ∃ rows, Lists rows (sumBetween (sources db) lower upper) ∧
      Session.run (selectDeltas sources fromCheckpoint toCheckpoint) db script =
        .done rows db script.tail := by
  have totals : totalAmount (selectSources db (sources db) fromHash toHash) =
      sumBetween (sources db) lower upper := totalAmount_selectSources fromScore toScore
  rw [← totals] at fits ⊢
  obtain ⟨rows, grouped⟩ := exists_groupByAddress fits
  refine ⟨rows, lists_of_groupByAddress grouped, Session.run_statement_of_succeeds succeeds ?_⟩
  simp only [fromText, toText, grouped, Except.map]

end Query

end VecnoIndexer
