import VecnoIndexer.Balances.Chunked
import VecnoIndexer.Balances.Delta
import VecnoIndexer.Collections.Fallible

/-!
# Correctness of a balance update

The rows of both queries, merged and aggregated, are the non-zero net
deltas of the interval; the chunked upserts add each of them to its balance and
touch nothing else.  Under a script that executes every statement the update
therefore adds the net delta to every balance.  Under a script that goes down
no later than at the first upsert it changes nothing.
-/

namespace VecnoIndexer

open VecnoIndexer.Sql
open VecnoIndexer.Collections

/-! ## Merging and aggregating -/

/-- The deltas by address. -/
def deltaEntries (balanceDeltas : List Balance) : List (String × Int) :=
  balanceDeltas.map fun delta => (delta.scriptPublicKeyAddress, delta.balance)

section Aggregated

variable {balanceDeltas : List Balance} {entries : List (String × Int)}

/-- What is aggregated are the sums that are not zero. -/
theorem mem_of_aggregateDeltas (aggregated : aggregateDeltas balanceDeltas = some entries)
    {address : String} {value : Int} :
    (address, value) ∈ entries ↔
      value ≠ 0 ∧ value = entrySum (deltaEntries balanceDeltas) address := by
  obtain ⟨totals, added, rfl⟩ := Option.map_eq_some_iff.mp aggregated
  rw [List.mem_filter, (sumsOf_of_addAmounts added).mem_iff, decide_eq_true_eq]
  constructor
  · rintro ⟨⟨_, valueEq⟩, nonzero⟩
    exact ⟨nonzero, valueEq⟩
  · rintro ⟨nonzero, valueEq⟩
    refine ⟨⟨?_, valueEq⟩, nonzero⟩
    by_contra absent
    exact nonzero (valueEq.trans (entrySum_eq_zero_of_notMem absent))

theorem nodup_keys_of_aggregateDeltas (aggregated : aggregateDeltas balanceDeltas = some entries) :
    (entries.map Prod.fst).Nodup := by
  obtain ⟨totals, added, rfl⟩ := Option.map_eq_some_iff.mp aggregated
  exact (List.filter_sublist.map Prod.fst).nodup (sumsOf_of_addAmounts added).nodup

theorem entrySum_of_aggregateDeltas (aggregated : aggregateDeltas balanceDeltas = some entries)
    (address : String) :
    entrySum entries address = entrySum (deltaEntries balanceDeltas) address := by
  by_cases zero : entrySum (deltaEntries balanceDeltas) address = 0
  · rw [zero]
    apply entrySum_eq_zero_of_notMem
    intro listed
    obtain ⟨⟨_, value⟩, member, rfl⟩ := List.mem_map.mp listed
    obtain ⟨nonzero, valueEq⟩ := (mem_of_aggregateDeltas aggregated).mp member
    exact nonzero (valueEq.trans zero)
  · exact entrySum_eq_of_mem (nodup_keys_of_aggregateDeltas aggregated)
      ((mem_of_aggregateDeltas aggregated).mpr ⟨zero, rfl⟩)

/-- Deltas are aggregated where no sum on the way overflows. -/
theorem exists_aggregateDeltas (fits : SumsFit (deltaEntries balanceDeltas)) :
    ∃ entries, aggregateDeltas balanceDeltas = some entries := by
  obtain ⟨totals, added⟩ := fits.exists_addAmounts
  exact ⟨_, Option.map_eq_some_iff.mpr ⟨totals, added, rfl⟩⟩

end Aggregated

/-- The amounts of the rows that are not zero. -/
def nonzeroEntries (image : Int → Int) (rows : List DeltaRow) : List (String × Int) :=
  (rows.filter fun row => row.totalAmount ≠ 0).map fun row => (row.address, image row.totalAmount)

theorem Lists.nodup_nonzeroEntries {rows : List DeltaRow} {total : String → Int}
    (lists : Lists rows total) (image : Int → Int) :
    ((nonzeroEntries image rows).map Prod.fst).Nodup := by
  rw [nonzeroEntries, List.map_map]
  exact (List.filter_sublist.map DeltaRow.address).nodup lists.nodup

/-- The rows of one address in a listing, after the zero rows are dropped, sum up
to its total, under any map of totals that keeps zero. -/
theorem Lists.entrySum_nonzero {rows : List DeltaRow} {total : String → Int}
    (lists : Lists rows total) (image : Int → Int) (zero : image 0 = 0)
    (address : String) :
    entrySum (nonzeroEntries image rows) address = image (total address) := by
  have keys : (nonzeroEntries image rows).map Prod.fst =
      (rows.filter fun row => row.totalAmount ≠ 0).map DeltaRow.address := by
    simp [nonzeroEntries, Function.comp_def]
  have nodup := lists.nodup_nonzeroEntries image
  by_cases totalEq : total address = 0
  · rw [totalEq, zero]
    apply entrySum_eq_zero_of_notMem
    rw [keys]
    intro listed
    obtain ⟨row, rowMem, rfl⟩ := List.mem_map.mp listed
    obtain ⟨inRows, nonzero⟩ := List.mem_filter.mp rowMem
    rw [lists.value row inRows, totalEq] at nonzero
    simp at nonzero
  · obtain ⟨row, rowMem, rfl⟩ := List.mem_map.mp (lists.complete address totalEq)
    apply entrySum_eq_of_mem nodup
    rw [← lists.value row rowMem] at totalEq ⊢
    exact List.mem_map.mpr ⟨row, List.mem_filter.mpr ⟨rowMem, by simpa using totalEq⟩, rfl⟩

theorem mergeDeltas_eq_some_iff {created spent : List DeltaRow} {deltas : List Balance} :
    mergeDeltas created spent = some deltas ↔
      (∀ row ∈ spent, row.totalAmount ≠ 0 → InI64 (-row.totalAmount)) ∧
        deltas = ((created.filter fun row => row.totalAmount ≠ 0).map fun row =>
            ⟨row.address, row.totalAmount⟩) ++
          (spent.filter fun row => row.totalAmount ≠ 0).map fun row =>
            ⟨row.address, -row.totalAmount⟩ := by
  have converts (row : DeltaRow) : negateRow row =
      if InI64 (-row.totalAmount) then some ⟨row.address, -row.totalAmount⟩ else none := by
    unfold negateRow checkedI64
    split <;> rfl
  rw [mergeDeltas, Option.map_eq_some_iff]
  simp only [mapM_eq_some_iff fun row _ => converts row, List.mem_filter, decide_eq_true_eq]
  constructor
  · rintro ⟨_, ⟨negated, rfl⟩, rfl⟩
    exact ⟨fun row isRow nonzero => negated row ⟨isRow, nonzero⟩, rfl⟩
  · rintro ⟨negated, rfl⟩
    exact ⟨_, ⟨fun row ⟨isRow, nonzero⟩ => negated row isRow nonzero, rfl⟩, rfl⟩

theorem deltaEntries_of_mergeDeltas {created spent : List DeltaRow} {deltas : List Balance}
    (merged : mergeDeltas created spent = some deltas) :
    deltaEntries deltas =
      nonzeroEntries id created ++ nonzeroEntries (fun total => -total) spent := by
  obtain ⟨_, rfl⟩ := mergeDeltas_eq_some_iff.mp merged
  simp [deltaEntries, nonzeroEntries, Function.comp_def]

/-- Deltas whose absolute values are `i64`s are sorted. -/
theorem sortByMagnitude_eq_some {deltas : List Balance}
    (fits : ∀ delta ∈ deltas, InI64 delta.balance.natAbs) : sortByMagnitude deltas = some () := by
  unfold sortByMagnitude
  split
  · rw [mapM_eq_some_map fun delta isDelta => checkedI64_of_inI64 (fits delta isDelta)]
    rfl
  · rfl

section Merged

variable {created spent : List DeltaRow} {createdTotal spentTotal : String → Int}
  {deltas : List Balance}

/-- The merged deltas of an address sum up to the difference of the totals. -/
theorem entrySum_of_mergeDeltas (createdLists : Lists created createdTotal)
    (spentLists : Lists spent spentTotal) (merged : mergeDeltas created spent = some deltas)
    (address : String) :
    entrySum (deltaEntries deltas) address = createdTotal address - spentTotal address := by
  rw [deltaEntries_of_mergeDeltas merged, entrySum_append,
    createdLists.entrySum_nonzero id rfl address,
    spentLists.entrySum_nonzero (fun total => -total) rfl address]
  exact (sub_eq_add_neg _ _).symm

/-- Where the totals and their differences are `i64`s, so are the sums on the way. -/
theorem sumsFit_of_mergeDeltas (createdLists : Lists created createdTotal)
    (spentLists : Lists spent spentTotal) (merged : mergeDeltas created spent = some deltas)
    (fits : ∀ address, InI64 (createdTotal address))
    (net : ∀ address, InI64 (createdTotal address - spentTotal address)) :
    SumsFit (deltaEntries deltas) := by
  intro first isPrefix address
  rw [deltaEntries_of_mergeDeltas merged] at isPrefix
  have createdSum := createdLists.entrySum_nonzero id rfl address
  have spentSum := spentLists.entrySum_nonzero (fun total => -total) rfl address
  have zeroFits : InI64 0 := by decide
  rcases List.prefix_or_prefix_of_prefix isPrefix (List.prefix_append _ _) with within | beyond
  · rcases entrySum_prefix (createdLists.nodup_nonzeroEntries id) within address with eq | eq
    · rwa [eq]
    · rw [eq, createdSum]
      exact fits address
  · obtain ⟨second, rfl⟩ := beyond
    have within := (List.prefix_append_right_inj _).mp isPrefix
    rw [entrySum_append, createdSum]
    rcases entrySum_prefix (spentLists.nodup_nonzeroEntries fun total => -total) within address
      with eq | eq
    · rw [eq, add_zero]
      exact fits address
    · rw [eq, spentSum, id, ← sub_eq_add_neg]
      exact net address

/-- Where the totals and their negatives are `i64`s, the deltas are merged and sorted. -/
theorem exists_mergeDeltas (createdLists : Lists created createdTotal)
    (spentLists : Lists spent spentTotal)
    (createdFits : ∀ address, InI64 (createdTotal address) ∧ InI64 (-createdTotal address))
    (spentFits : ∀ address, InI64 (spentTotal address) ∧ InI64 (-spentTotal address)) :
    ∃ deltas, mergeDeltas created spent = some deltas ∧ sortByMagnitude deltas = some () := by
  have negated : ∀ row ∈ spent, row.totalAmount ≠ 0 → InI64 (-row.totalAmount) := by
    intro row isRow _
    rw [spentLists.value row isRow]
    exact (spentFits row.address).2
  have magnitude {total : Int} (fits : InI64 total ∧ InI64 (-total)) : InI64 total.natAbs := by
    obtain ⟨⟨_, _⟩, _, _⟩ := fits
    constructor <;> omega
  refine ⟨_, mergeDeltas_eq_some_iff.mpr ⟨negated, rfl⟩, sortByMagnitude_eq_some ?_⟩
  intro delta isDelta
  rcases List.mem_append.mp isDelta with isCreated | isSpent
  · obtain ⟨row, isRow, rfl⟩ := List.mem_map.mp isCreated
    have fits := createdFits row.address
    rw [← createdLists.value row (List.mem_of_mem_filter isRow)] at fits
    exact magnitude fits
  · obtain ⟨row, isRow, rfl⟩ := List.mem_map.mp isSpent
    have fits := spentFits row.address
    rw [← spentLists.value row (List.mem_of_mem_filter isRow)] at fits
    rw [Int.natAbs_neg]
    exact magnitude fits

end Merged

/-! ## The chunked upserts -/

/-- The chunks in which aggregated deltas are written. -/
def balanceChunks (hashOrder : Reordering (String × Int)) (entries : List (String × Int)) :
    List (List (String × Int)) :=
  chunks incrementalChunkSize (hashOrder.order entries)

section Incremental

variable (hashOrder : Reordering (String × Int)) {balanceDeltas : List Balance}
  {entries : List (String × Int)}

theorem updateBalancesIncremental_eq (balanceDeltas : List Balance) :
    updateBalancesIncremental hashOrder balanceDeltas =
      Session.orDie (aggregateDeltas balanceDeltas) >>= fun entries =>
        upsertBalanceChunks (balanceChunks hashOrder entries) := by
  unfold updateBalancesIncremental balanceChunks
  cases balanceDeltas with
  | nil =>
      have noEntries : hashOrder.order [] = [] := List.perm_nil.mp (hashOrder.perm [])
      have aggregated : aggregateDeltas [] = some [] := rfl
      rw [aggregated, Session.orDie, Session.pure_bind, noEntries]
      rfl
  | cons delta rest => rfl

theorem flatten_balanceChunks (entries : List (String × Int)) :
    (balanceChunks hashOrder entries).flatten.Perm entries := by
  unfold balanceChunks
  rw [flatten_chunks (by decide)]
  exact hashOrder.perm _

theorem nodup_of_perm {pieces : List (List (String × Int))}
    (aggregated : aggregateDeltas balanceDeltas = some entries)
    (perm : pieces.flatten.Perm entries) : (pieces.flatten.map Prod.fst).Nodup :=
  (perm.map Prod.fst).nodup_iff.mpr (nodup_keys_of_aggregateDeltas aggregated)

/-- Executed in full, an incremental update adds the aggregated deltas, for every order in
which the map is read. -/
theorem completes_updateBalancesIncremental {db : Db}
    (aggregated : aggregateDeltas balanceDeltas = some entries) (fits : ChunkFits db entries) :
    ∃ total after,
      (updateBalancesIncremental hashOrder balanceDeltas).Completes db total after ∧
        Added db entries after := by
  have perm := flatten_balanceChunks hashOrder entries
  have chunksFit : ∀ chunk ∈ balanceChunks hashOrder entries, ChunkFits db chunk := by
    intro chunk isChunk entry entryMem
    exact fits entry (perm.mem_iff.mp (List.mem_flatten.mpr ⟨chunk, isChunk, entryMem⟩))
  obtain ⟨total, after, completes, added⟩ :=
    completes_upsertBalanceChunks (nodup_of_perm aggregated perm) chunksFit
  rw [updateBalancesIncremental_eq, aggregated]
  exact ⟨total, after, completes, added.of_perm perm⟩

end Incremental

/-! ## The whole update -/

/-- No sum, negated or not, and no resulting balance of an update over an interval
overflows. -/
structure DeltaFits (db : Db) (lower upper : Int) : Prop where
  created : ∀ address, InI64 (sumBetween (createdSources db) lower upper address)
  createdNegated : ∀ address, InI64 (-sumBetween (createdSources db) lower upper address)
  spent : ∀ address, InI64 (sumBetween (spentSources db) lower upper address)
  spentNegated : ∀ address, InI64 (-sumBetween (spentSources db) lower upper address)
  net : ∀ address, InI64 (netDelta db lower upper address)
  balance : ∀ address, InI64 (db.balanceOf address + netDelta db lower upper address)

/-- Where only one address is paid, its sums decide whether an update fits. -/
theorem deltaFits_of_payee {db : Db} {lower upper : Int} {payee : String}
    (only : ∀ source ∈ createdSources db ++ spentSources db, source.address = some payee)
    (balances : ∀ row ∈ db.balances.rows, row.scriptPublicKeyAddress = payee)
    (created : InI64 (sumBetween (createdSources db) lower upper payee))
    (createdNegated : InI64 (-sumBetween (createdSources db) lower upper payee))
    (spent : InI64 (sumBetween (spentSources db) lower upper payee))
    (spentNegated : InI64 (-sumBetween (spentSources db) lower upper payee))
    (net : InI64 (netDelta db lower upper payee))
    (balance : InI64 (db.balanceOf payee + netDelta db lower upper payee)) :
    DeltaFits db lower upper := by
  have other {sources : List DeltaSource}
      (sourcesOnly : ∀ source ∈ sources, source.address = some payee) {address : String}
      (different : payee ≠ address) : sumBetween sources lower upper address = 0 := by
    apply List.sum_eq_zero
    intro value valueMem
    obtain ⟨source, sourceMem, rfl⟩ := List.mem_map.mp valueMem
    apply if_neg
    rintro ⟨sourceAddress, _⟩
    rw [sourcesOnly source sourceMem] at sourceAddress
    exact different (Option.some.inj sourceAddress)
  have otherCreated {address : String} (different : payee ≠ address) :=
    other (fun source sourceMem => only source (List.mem_append_left _ sourceMem)) different
  have otherSpent {address : String} (different : payee ≠ address) :=
    other (fun source sourceMem => only source (List.mem_append_right _ sourceMem)) different
  have otherBalance {address : String} (different : payee ≠ address) :
      db.balanceOf address = 0 := by
    have absent : db.balances.lookup address = none := by
      rw [Table.lookup_eq_none_iff]
      rintro ⟨row, rowMem, rowKey⟩
      exact different ((balances row rowMem).symm.trans (Option.some.inj rowKey))
    simp [Db.balanceOf, balanceIn, absent]
  constructor <;> intro address <;> by_cases same : payee = address
  all_goals first
    | subst same; assumption
    | simp [netDelta, otherCreated same, otherSpent same, otherBalance same, InI64]

/-- A checkpoint text whose block is stored with a blue score. -/
def Db.CheckpointScore (db : Db) (checkpoint : String) (score : Int) : Prop :=
  ∃ hash, Hash.fromStr checkpoint = some hash ∧ db.scoreOf hash = some score

section Update

variable (hashOrder : Reordering (String × Int)) {fromCheckpoint toCheckpoint : String}
  {db : Db} {lower upper : Int} {script : Script}

/-- Deltas that are applied in full add the differences of the totals. -/
theorem completes_applyDeltas {created spent : List DeltaRow}
    (createdLists : Lists created (sumBetween (createdSources db) lower upper))
    (spentLists : Lists spent (sumBetween (spentSources db) lower upper))
    (fits : DeltaFits db lower upper) :
    ∃ balances, (applyDeltas hashOrder created spent).Completes db () { db with balances } ∧
      ∀ address, balanceIn balances address =
        db.balanceOf address + netDelta db lower upper address := by
  obtain ⟨deltas, merged, sorted⟩ := exists_mergeDeltas createdLists spentLists
    (fun address => ⟨fits.created address, fits.createdNegated address⟩)
    (fun address => ⟨fits.spent address, fits.spentNegated address⟩)
  have sums := entrySum_of_mergeDeltas createdLists spentLists merged
  unfold applyDeltas
  rw [merged, Session.orDie, Session.pure_bind, sorted]
  cases deltas with
  | nil =>
      refine ⟨db.balances, Session.completes_pure () db, fun address => ?_⟩
      have zero : (0 : Int) = netDelta db lower upper address := sums address
      rw [← zero, add_zero]
      rfl
  | cons delta rest =>
      obtain ⟨entries, aggregated⟩ := exists_aggregateDeltas
        (sumsFit_of_mergeDeltas createdLists spentLists merged fits.created fits.net)
      have entriesFit : ChunkFits db entries := by
        rintro ⟨address, value⟩ entryMem
        obtain ⟨_, valueEq⟩ := (mem_of_aggregateDeltas aggregated).mp entryMem
        rw [valueEq, sums]
        exact fits.balance address
      obtain ⟨total, after, completes, added⟩ :=
        completes_updateBalancesIncremental hashOrder aggregated entriesFit
      refine ⟨after.balances, ?_, fun address => ?_⟩
      · rw [← added.others]
        exact completes.bind (Session.completes_pure () after)
      · have balance := added.balanceOf address
        rw [entrySum_of_aggregateDeltas aggregated, sums] at balance
        exact balance

/-- An update all of whose statements are executed adds the net delta of its
interval to every balance and changes nothing else. -/
theorem run_updateBalancesFromUtxoChanges
    (fromScore : db.CheckpointScore fromCheckpoint lower)
    (toScore : db.CheckpointScore toCheckpoint upper)
    (fits : DeltaFits db lower upper) (up : script.Up) :
    ∃ balances rest, rest.Up ∧
      Session.run (updateBalancesFromUtxoChanges hashOrder fromCheckpoint toCheckpoint)
        db script = .done () { db with balances } rest ∧
      ∀ address, balanceIn balances address =
        db.balanceOf address + netDelta db lower upper address := by
  obtain ⟨fromHash, fromText, fromScore⟩ := fromScore
  obtain ⟨toHash, toText, toScore⟩ := toScore
  obtain ⟨created, createdLists, ranCreated⟩ :=
    run_selectDeltas (up 0) fromText toText fromScore toScore fits.created
  obtain ⟨spent, spentLists, ranSpent⟩ :=
    run_selectDeltas (up.tail 0) fromText toText fromScore toScore fits.spent
  obtain ⟨balances, completes, balance⟩ :=
    completes_applyDeltas hashOrder createdLists spentLists fits
  obtain ⟨rest, restUp, ran⟩ := completes _ up.tail.tail
  refine ⟨balances, rest, restUp, ?_, balance⟩
  rw [updateBalancesFromUtxoChanges, Session.run_bind_of_done ranCreated,
    Session.run_bind_of_done ranSpent, ran]

/-! An update that returns met no overflow, and had every statement executed. -/

/-- Deltas that were applied have added the differences of the totals. -/
theorem applied_of_done {created spent : List DeltaRow} {createdTotal spentTotal : String → Int}
    (createdLists : Lists created createdTotal) (spentLists : Lists spent spentTotal) {after : Db}
    {rest : Script}
    (ran : Session.run (applyDeltas hashOrder created spent) db script = .done () after rest) :
    ∃ balances, after = { db with balances } ∧
      ∀ address, balanceIn balances address =
        db.balanceOf address + (createdTotal address - spentTotal address) := by
  obtain ⟨deltas, merged, ran⟩ := Session.done_of_run_orDie ran
  have sums := entrySum_of_mergeDeltas createdLists spentLists merged
  cases deltas with
  | nil =>
      cases ran
      refine ⟨db.balances, rfl, fun address => ?_⟩
      have zero : (0 : Int) = createdTotal address - spentTotal address := sums address
      rw [← zero, add_zero]
      rfl
  | cons delta rest =>
      obtain ⟨_, _, ran⟩ := Session.done_of_run_orDie ran
      obtain ⟨updated, final, left, ran, ended⟩ := Session.done_of_run_bind ran
      cases ended
      rw [updateBalancesIncremental_eq] at ran
      obtain ⟨entries, aggregated, ran⟩ := Session.done_of_run_orDie ran
      have perm := flatten_balanceChunks hashOrder entries
      obtain ⟨_, added⟩ := added_of_done (nodup_of_perm aggregated perm) ran
      replace added := added.of_perm perm
      refine ⟨_, added.others, fun address => ?_⟩
      have balance := added.balanceOf address
      rw [entrySum_of_aggregateDeltas aggregated, sums] at balance
      exact balance

/-- An update that returns has added the net delta of its interval to every balance
and changed nothing else. -/
theorem update_of_done (fromScore : db.CheckpointScore fromCheckpoint lower)
    (toScore : db.CheckpointScore toCheckpoint upper) {after : Db} {rest : Script}
    (ran : Session.run (updateBalancesFromUtxoChanges hashOrder fromCheckpoint toCheckpoint)
      db script = .done () after rest) :
    ∃ balances, after = { db with balances } ∧
      ∀ address, balanceIn balances address =
        db.balanceOf address + netDelta db lower upper address := by
  obtain ⟨fromHash, fromText, fromScore⟩ := fromScore
  obtain ⟨toHash, toText, toScore⟩ := toScore
  obtain ⟨created, _, _, ranCreated, queried⟩ := Session.done_of_run_bind ran
  obtain ⟨createdLists, rfl⟩ := lists_of_done fromText toText fromScore toScore ranCreated
  obtain ⟨spent, _, _, ranSpent, applied⟩ := Session.done_of_run_bind queried
  obtain ⟨spentLists, rfl⟩ := lists_of_done fromText toText fromScore toScore ranSpent
  exact applied_of_done hashOrder createdLists spentLists applied

theorem staysDown_upsertBalanceChunks (pieces : List (List (String × Int))) :
    (upsertBalanceChunks pieces).StaysDown := by
  induction pieces with
  | nil => exact Session.staysDown_pure 0
  | cons chunk pieces ih =>
      refine (Session.staysDown_statement _ _).bind fun affected => ?_
      exact ih.bind fun total => Session.staysDown_pure _

theorem staysDown_updateBalancesIncremental (balanceDeltas : List Balance) :
    (updateBalancesIncremental hashOrder balanceDeltas).StaysDown := by
  rw [updateBalancesIncremental_eq]
  exact (Session.staysDown_orDie _).bind fun entries => staysDown_upsertBalanceChunks _

theorem staysDown_applyDeltas (created spent : List DeltaRow) :
    (applyDeltas hashOrder created spent).StaysDown := by
  apply (Session.staysDown_orDie _).bind
  intro deltas
  split
  · exact Session.staysDown_pure ()
  · apply (Session.staysDown_orDie _).bind
    intro _
    exact (staysDown_updateBalancesIncremental hashOrder deltas).bind fun _ =>
      Session.staysDown_pure ()

/-- When the database goes down no later than at the first upsert, the update
changes nothing. The two queries are the statements that may still be
executed. -/
theorem untouched_updateBalancesFromUtxoChanges
    (fromScore : db.CheckpointScore fromCheckpoint lower)
    (toScore : db.CheckpointScore toCheckpoint upper)
    (fits : DeltaFits db lower upper) (down : script.DownWithin 2) :
    (Session.run (updateBalancesFromUtxoChanges hashOrder fromCheckpoint toCheckpoint)
      db script).Untouched db := by
  obtain ⟨fromHash, fromText, fromScore⟩ := fromScore
  obtain ⟨toHash, toText, toScore⟩ := toScore
  have afterQueries : ∀ created : List DeltaRow, Session.StaysDown
      (selectDeltas spentSources fromCheckpoint toCheckpoint >>= applyDeltas hashOrder created) :=
    fun created => (Session.staysDown_statement _ _).bind (staysDown_applyDeltas hashOrder created)
  unfold updateBalancesFromUtxoChanges
  rcases down with down | ⟨firstSucceeds, down⟩
  · exact (Session.staysDown_statement _ _).bind afterQueries db script down
  · obtain ⟨created, _, ranCreated⟩ :=
      run_selectDeltas firstSucceeds fromText toText fromScore toScore fits.created
    rw [Session.run_bind_of_done ranCreated]
    rcases down with down | ⟨secondSucceeds, down⟩
    · exact afterQueries created db script.tail down
    · obtain ⟨spent, _, ranSpent⟩ :=
        run_selectDeltas secondSucceeds fromText toText fromScore toScore fits.spent
      rw [Session.run_bind_of_done ranSpent]
      exact staysDown_applyDeltas hashOrder created spent db script.tail.tail down

end Update

end VecnoIndexer
