import VecnoIndexer.Balances.Snapshots

/-!
# Updates of adjacent intervals

An update from one checkpoint to a second and another from there to a third leave
the balances that one update over both intervals leaves, whatever the database
holds.  An update over an empty interval leaves the database as it was, even where
it is cut off.
-/

namespace VecnoIndexer

open VecnoIndexer.Sql
open VecnoIndexer.Collections

/-! ## The empty interval -/

theorem scoreBetween_self (blueScore score : Option Int) :
    scoreBetween blueScore score score = false := by
  cases blueScore with
  | none => rfl
  | some own =>
      cases score with
      | none => rfl
      | some bound =>
          apply decide_eq_false
          rintro ⟨above, upTo⟩
          exact absurd upTo (not_le_of_gt above)

theorem selectSources_self (db : Db) (sources : List DeltaSource) (hash : Hash) :
    selectSources db sources hash hash = [] := by
  unfold selectSources
  cases db.blocks.lookup hash with
  | none => rfl
  | some block =>
      simp only [scoreBetween_self, Bool.false_and]
      exact List.filter_false sources

/-- A query over an empty interval returns no rows, or it fails, or the process dies. -/
theorem run_selectDeltas_self (sources : Db → List DeltaSource) {checkpoint : String}
    {hash : Hash} (text : Hash.fromStr checkpoint = some hash) (db : Db) (script : Script) :
    Session.run (selectDeltas sources checkpoint checkpoint) db script =
        .done [] db script.tail ∨
      (∃ error, Session.run (selectDeltas sources checkpoint checkpoint) db script =
        .failed error db script.tail) ∨
      Session.run (selectDeltas sources checkpoint checkpoint) db script = .killed db := by
  by_cases executed : script 0 = .succeeds
  · refine Or.inl (Session.run_statement_of_succeeds executed ?_)
    simp only [text, selectSources_self]
    rfl
  · rcases Session.run_statement_of_not_succeeds executed with failed | killed
    · exact Or.inr (Or.inl ⟨_, failed⟩)
    · exact Or.inr (Or.inr killed)

/-- An update over an empty interval changes nothing, wherever it stops. -/
theorem state_updateBalancesFromUtxoChanges_self (hashOrder : Reordering (String × Int))
    {checkpoint : String} {hash : Hash} (text : Hash.fromStr checkpoint = some hash) (db : Db)
    (script : Script) :
    (Session.run (updateBalancesFromUtxoChanges hashOrder checkpoint checkpoint)
      db script).state = db := by
  rw [updateBalancesFromUtxoChanges, Session.run_bind]
  rcases run_selectDeltas_self createdSources text db script with ran | ⟨error, ran⟩ | ran
  · rw [ran]
    simp only
    rw [Session.run_bind]
    rcases run_selectDeltas_self spentSources text db script.tail with ran | ⟨error, ran⟩ | ran
    · rw [ran]
      rfl
    · rw [ran]
      rfl
    · rw [ran]
      rfl
  · rw [ran]
    rfl
  · rw [ran]
    rfl

/-! ## Two intervals -/

/-- Two updates over adjacent intervals leave what one over both leaves, and one over an
empty interval leaves everything. -/
theorem update_compose (firstOrder secondOrder wholeOrder selfOrder : Reordering (String × Int))
    {first second third : String} {db middle final whole : Db} {lower between upper : Int}
    {firstScript secondScript wholeScript firstRest secondRest wholeRest : Script}
    (firstScore : db.CheckpointScore first lower)
    (secondScore : db.CheckpointScore second between)
    (thirdScore : db.CheckpointScore third upper)
    (lowerOrdered : lower ≤ between) (upperOrdered : between ≤ upper)
    (firstRan : Session.run (updateBalancesFromUtxoChanges firstOrder first second)
      db firstScript = .done () middle firstRest)
    (secondRan : Session.run (updateBalancesFromUtxoChanges secondOrder second third)
      middle secondScript = .done () final secondRest)
    (wholeRan : Session.run (updateBalancesFromUtxoChanges wholeOrder first third)
      db wholeScript = .done () whole wholeRest) :
    (∀ address, final.balanceOf address = whole.balanceOf address) ∧
      ∀ script, (Session.run (updateBalancesFromUtxoChanges selfOrder first first)
        db script).state = db := by
  constructor
  · obtain ⟨middleBalances, rfl, middleBalance⟩ :=
      update_of_done firstOrder firstScore secondScore firstRan
    let moved : Db := { db with balances := middleBalances }
    have movedScore : moved.CheckpointScore second between := secondScore
    obtain ⟨finalBalances, rfl, finalBalance⟩ :=
      update_of_done secondOrder movedScore thirdScore secondRan
    obtain ⟨wholeBalances, rfl, wholeBalance⟩ :=
      update_of_done wholeOrder firstScore thirdScore wholeRan
    have sameSources : netDelta moved = netDelta db := netDelta_congr rfl rfl rfl rfl
    intro address
    calc balanceIn finalBalances address
        = balanceIn middleBalances address + netDelta db between upper address := by
          rw [finalBalance, sameSources]
          rfl
      _ = db.balanceOf address +
            (netDelta db lower between address + netDelta db between upper address) := by
          rw [middleBalance, add_assoc]
      _ = db.balanceOf address + netDelta db lower upper address := by
          rw [← netDelta_add db lowerOrdered upperOrdered]
      _ = balanceIn wholeBalances address := (wholeBalance address).symm
  · obtain ⟨hash, text, _⟩ := firstScore
    exact state_updateBalancesFromUtxoChanges_self selfOrder text db

/-- Where the whole update fits and the sums of the second interval do, the second of two
updates fits. -/
theorem DeltaFits.of_moved {db : Db} {balances : Table Balance.primaryKey}
    {lower between upper : Int} (whole : DeltaFits db lower upper)
    (second : DeltaFits db between upper)
    (lowerOrdered : lower ≤ between) (upperOrdered : between ≤ upper)
    (moved : ∀ address, balanceIn balances address =
      db.balanceOf address + netDelta db lower between address) :
    DeltaFits { db with balances } between upper where
  created := second.created
  createdNegated := second.createdNegated
  spent := second.spent
  spentNegated := second.spentNegated
  net := second.net
  balance := by
    intro address
    have sum : balanceIn balances address + netDelta db between upper address =
        db.balanceOf address + netDelta db lower upper address := by
      rw [moved, netDelta_add db lowerOrdered upperOrdered, add_assoc]
    have fits := whole.balance address
    rw [← sum] at fits
    exact fits

/-! ## An output paid in one interval and spent in the next -/

/-- Block 3 accepts transaction 8, which spends what transaction 7 pays. -/
def passedOnDb : Db :=
  { spentImportDb with
    blocks := spentImportDb.blocks.insertAll [scoredBlock 3 2]
    transactionsAcceptances := spentImportDb.transactionsAcceptances.insertAll [⟨some 8, some 3⟩]
    transactionsOutputs := spentImportDb.transactionsOutputs.insertAll
      [⟨8, 0, some 4, none, some "payee", none⟩]
    transactionsInputs := spentImportDb.transactionsInputs.insertAll
      [⟨8, 0, some 7, some 0, none, none, none, none, none⟩] }

theorem passedOnDb_fits {lower upper : Int}
    (created : InI64 (sumBetween (createdSources passedOnDb) lower upper "payee"))
    (createdNegated : InI64 (-sumBetween (createdSources passedOnDb) lower upper "payee"))
    (spent : InI64 (sumBetween (spentSources passedOnDb) lower upper "payee"))
    (spentNegated : InI64 (-sumBetween (spentSources passedOnDb) lower upper "payee"))
    (net : InI64 (netDelta passedOnDb lower upper "payee"))
    (balance : InI64 (passedOnDb.balanceOf "payee" + netDelta passedOnDb lower upper "payee")) :
    DeltaFits passedOnDb lower upper :=
  deltaFits_of_payee (by decide +kernel) (by decide +kernel) created createdNegated spent
    spentNegated net balance

/-- In both ways `payee` is left with 4. -/
theorem passedOn_compose : ∃ middle final whole firstRest secondRest wholeRest,
    Session.run (updateBalancesFromUtxoChanges .listed (Hash.encode 1) (Hash.encode 2))
      passedOnDb (fun _ => .succeeds) = .done () middle firstRest ∧
    Session.run (updateBalancesFromUtxoChanges .listed (Hash.encode 2) (Hash.encode 3))
      middle (fun _ => .succeeds) = .done () final secondRest ∧
    Session.run (updateBalancesFromUtxoChanges .listed (Hash.encode 1) (Hash.encode 3))
      passedOnDb (fun _ => .succeeds) = .done () whole wholeRest ∧
    whole.balanceOf "payee" = 4 ∧
    ∀ address, final.balanceOf address = whole.balanceOf address := by
  have firstScore : passedOnDb.CheckpointScore (Hash.encode 1) 0 :=
    ⟨1, Hash.fromStr_encode 1, by decide⟩
  have secondScore : passedOnDb.CheckpointScore (Hash.encode 2) 1 :=
    ⟨2, Hash.fromStr_encode 2, by decide⟩
  have thirdScore : passedOnDb.CheckpointScore (Hash.encode 3) 2 :=
    ⟨3, Hash.fromStr_encode 3, by decide⟩
  have firstFits : DeltaFits passedOnDb 0 1 := by
    apply passedOnDb_fits <;> decide +kernel
  have lastFits : DeltaFits passedOnDb 1 2 := by
    apply passedOnDb_fits <;> decide +kernel
  have wholeFits : DeltaFits passedOnDb 0 2 := by
    apply passedOnDb_fits <;> decide +kernel
  have up : Script.Up fun _ => .succeeds := fun _ => rfl
  obtain ⟨middle, firstRest, _, firstRan, moved⟩ :=
    run_updateBalancesFromUtxoChanges .listed firstScore secondScore firstFits up
  have secondFits := wholeFits.of_moved lastFits (by decide) (by decide) moved
  let movedDb : Db := { passedOnDb with balances := middle }
  have movedScore : movedDb.CheckpointScore (Hash.encode 2) 1 := secondScore
  obtain ⟨final, secondRest, _, secondRan, _⟩ :=
    run_updateBalancesFromUtxoChanges .listed movedScore thirdScore secondFits up
  obtain ⟨whole, wholeRest, _, wholeRan, wholeBalance⟩ :=
    run_updateBalancesFromUtxoChanges .listed firstScore thirdScore wholeFits up
  have four : balanceIn whole "payee" = 4 := by
    rw [wholeBalance]
    decide +kernel
  exact ⟨_, _, _, firstRest, secondRest, wholeRest, firstRan, secondRan, wholeRan, four,
    (update_compose .listed .listed .listed .listed firstScore secondScore thirdScore (by decide)
      (by decide) firstRan secondRan wholeRan).1⟩

end VecnoIndexer
