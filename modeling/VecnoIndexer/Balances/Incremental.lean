import VecnoIndexer.Balances.Correctness
import Mathlib.Data.Set.Card

/-!
# What an incremental update writes

An incremental update upserts one row for each address whose deltas have a non-zero
sum.  The rows are written in chunks, each a statement of its own, so an update
that returns is pointwise addition, whichever way it is cut, while one that fails
keeps the chunks before the one the database refuses.
-/

namespace VecnoIndexer

open VecnoIndexer.Sql
open VecnoIndexer.Collections

/-! ## The chunk loop -/

/-- The chunks before one that the database refuses are executed. What is refused is a
statement that fails or one that would overflow a balance. -/
structure RefusedAfter (db : Db) (script : Script) (written : List (List (String × Int)))
    (refused : List (String × Int)) : Prop where
  executed : ∀ n < written.length, script n = .succeeds
  fits : ∀ chunk ∈ written, ChunkFits db chunk
  refused : script written.length = .fails ∨
    script written.length = .succeeds ∧ ¬ ChunkFits db refused

section Loop

variable {db middle after : Db} {script rest : Script} {chunk refused : List (String × Int)}
  {pieces written later : List (List (String × Int))}

/-- The first chunk is written before what is refused after the others. -/
theorem refusedAfter_cons_iff (added : Added db chunk middle) (fits : ChunkFits db chunk)
    (succeeds : script 0 = .succeeds)
    (disjoint : ∀ other ∈ written ++ refused :: later,
      ∀ entry ∈ other, entry.1 ∉ chunk.map Prod.fst) :
    RefusedAfter db script (chunk :: written) refused ↔
      RefusedAfter middle script.tail written refused := by
  have refusedFits := added.chunkFits_iff
    (disjoint refused (List.mem_append_right _ List.mem_cons_self))
  have writtenFits : ∀ other ∈ written, (ChunkFits middle other ↔ ChunkFits db other) :=
    fun other otherMem =>
      added.chunkFits_iff (disjoint other (List.mem_append_left _ otherMem))
  constructor
  · intro after
    refine ⟨fun n below => ?_, fun other otherMem => ?_, ?_⟩
    · exact after.executed (n + 1) (Nat.succ_lt_succ below)
    · exact (writtenFits other otherMem).mpr (after.fits other (List.mem_cons_of_mem _ otherMem))
    · rw [refusedFits]
      exact after.refused
  · intro after
    refine ⟨fun n below => ?_, fun other otherMem => ?_, ?_⟩
    · cases n with
      | zero => exact succeeds
      | succ n => exact after.executed n (Nat.lt_of_succ_lt_succ below)
    · rcases List.mem_cons.mp otherMem with rfl | laterMem
      · exact fits
      · exact (writtenFits other laterMem).mp (after.fits other laterMem)
    · rw [← refusedFits]
      exact after.refused

/-- A statement that failed was refused. -/
theorem refusedAfter_of_failed {error : SqlError} (nodup : (chunk.map Prod.fst).Nodup)
    (ran : Session.run (statement (upsertBalances chunk)) db script = .failed error after rest) :
    RefusedAfter db script [] chunk ∧ after = db := by
  rw [statement, Session.run_statement] at ran
  cases outcome : script 0 with
  | succeeds =>
      rw [outcome] at ran
      by_cases fits : ChunkFits db chunk
      · obtain ⟨written, ok, _⟩ := upsertBalances_of_fits nodup fits
        simp only [ok] at ran
        cases ran
      · rw [upsertBalances_of_not_fits fits] at ran
        cases ran
        exact ⟨⟨fun _ below => absurd below (Nat.not_lt_zero _), by simp,
          Or.inr ⟨outcome, fits⟩⟩, rfl⟩
  | fails =>
      rw [outcome] at ran
      cases ran
      exact ⟨⟨fun _ below => absurd below (Nat.not_lt_zero _), by simp, Or.inl outcome⟩, rfl⟩
  | killed =>
      rw [outcome] at ran
      cases ran

/-- A loop that failed kept the chunks before the one that was refused. -/
theorem refused_of_failed {error : SqlError} (nodup : (pieces.flatten.map Prod.fst).Nodup)
    (ran : Session.run (upsertBalanceChunks pieces) db script = .failed error after rest) :
    ∃ written refused later, pieces = written ++ refused :: later ∧
      RefusedAfter db script written refused ∧ Added db written.flatten after ∧
        (written = [] → after = db) := by
  induction pieces generalizing db script with
  | nil => cases ran
  | cons chunk pieces ih =>
      obtain ⟨chunkNodup, restNodup⟩ := nodup_of_cons nodup
      rcases Session.failed_of_run_bind ran with failed | ⟨affected, middle, left, firstRan, ran⟩
      · obtain ⟨isRefused, rfl⟩ := refusedAfter_of_failed chunkNodup failed
        exact ⟨[], chunk, pieces, rfl, isRefused, Added.refl _, fun _ => rfl⟩
      · obtain ⟨fits, _, added⟩ := added_of_run_statement chunkNodup firstRan
        obtain ⟨succeeds, rfl⟩ := Session.succeeds_of_run_statement firstRan
        rcases Session.failed_of_run_bind ran with failed | ⟨_, _, _, _, ran⟩
        · obtain ⟨written, refused, later, rfl, isRefused, restAdded, _⟩ := ih restNodup failed
          refine ⟨chunk :: written, refused, later, rfl, ?_, added.trans restAdded,
            fun impossible => by contradiction⟩
          exact (refusedAfter_cons_iff added fits succeeds fun _ otherMem =>
            disjoint_of_nodup nodup otherMem).mpr isRefused
        · cases ran

/-- A refused chunk makes the loop fail after it has written the chunks before. -/
theorem failed_of_refused
    (nodup : ((written ++ refused :: later).flatten.map Prod.fst).Nodup)
    (isRefused : RefusedAfter db script written refused) :
    ∃ error after rest,
      Session.run (upsertBalanceChunks (written ++ refused :: later)) db script =
        .failed error after rest ∧ Added db written.flatten after := by
  induction written generalizing db script with
  | nil =>
      obtain ⟨refusedNodup, _⟩ := nodup_of_cons nodup
      rw [List.nil_append, upsertBalanceChunks, Session.run_bind, statement,
        Session.run_statement]
      rcases isRefused.refused with fails | ⟨succeeds, overflows⟩
      · rw [show script 0 = .fails from fails]
        exact ⟨_, _, _, rfl, Added.refl db⟩
      · rw [show script 0 = .succeeds from succeeds, upsertBalances_of_not_fits overflows]
        exact ⟨_, _, _, rfl, Added.refl db⟩
  | cons chunk written ih =>
      obtain ⟨chunkNodup, restNodup⟩ := nodup_of_cons nodup
      have succeeds : script 0 = .succeeds := isRefused.executed 0 (Nat.succ_pos _)
      have fits := isRefused.fits chunk List.mem_cons_self
      obtain ⟨middle, executed, added⟩ := upsertBalances_of_fits chunkNodup fits
      have restRefused := (refusedAfter_cons_iff added fits succeeds fun _ otherMem =>
        disjoint_of_nodup nodup otherMem).mp isRefused
      obtain ⟨error, after, rest, ran, restAdded⟩ := ih restNodup restRefused
      have first : Session.run (statement (upsertBalances chunk)) db script =
          .done chunk.length middle script.tail :=
        Session.run_statement_of_succeeds succeeds executed
      refine ⟨error, after, rest, ?_, added.trans restAdded⟩
      rw [List.cons_append, upsertBalanceChunks, Session.run_bind_of_done first,
        Session.run_bind, ran]

end Loop

/-! ## An update that returns -/

/-- The sum of the deltas of an address. -/
def deltaSum (balanceDeltas : List Balance) (address : String) : Int :=
  entrySum (deltaEntries balanceDeltas) address

section Update

variable (hashOrder : Reordering (String × Int)) {balanceDeltas : List Balance}
  {entries : List (String × Int)}

theorem mem_addresses_iff (aggregated : aggregateDeltas balanceDeltas = some entries)
    {address : String} :
    address ∈ entries.map Prod.fst ↔ deltaSum balanceDeltas address ≠ 0 := by
  constructor
  · intro listed
    obtain ⟨⟨_, value⟩, member, rfl⟩ := List.mem_map.mp listed
    obtain ⟨nonzero, valueEq⟩ := (mem_of_aggregateDeltas aggregated).mp member
    intro zero
    exact nonzero (valueEq.trans zero)
  · intro nonzero
    exact List.mem_map.mpr
      ⟨(address, deltaSum balanceDeltas address),
        (mem_of_aggregateDeltas aggregated).mpr ⟨nonzero, rfl⟩, rfl⟩

theorem length_of_aggregateDeltas (aggregated : aggregateDeltas balanceDeltas = some entries) :
    entries.length = Set.ncard {address | deltaSum balanceDeltas address ≠ 0} := by
  let addresses := entries.map Prod.fst
  have same : {address | deltaSum balanceDeltas address ≠ 0} = ↑addresses.toFinset := by
    ext address
    rw [Finset.mem_coe, List.mem_toFinset, mem_addresses_iff aggregated]
    rfl
  rw [same, Set.ncard_coe_finset,
    List.toFinset_card_of_nodup (nodup_keys_of_aggregateDeltas aggregated), List.length_map]

/-- An update that returns adds to each balance the sum of its deltas, leaves the rows of
addresses whose deltas sum up to zero, and counts the others; no order of the list and no
cutting of the aggregated deltas makes a difference. -/
theorem pointwise_of_done {db after : Db} {script rest : Script} {updated : ℕ}
    (ran : Session.run (updateBalancesIncremental hashOrder balanceDeltas) db script =
      .done updated after rest) :
    (∀ address,
        after.balanceOf address = db.balanceOf address + deltaSum balanceDeltas address) ∧
      (∀ address, deltaSum balanceDeltas address = 0 →
        after.balances.lookup address = db.balances.lookup address) ∧
      updated = Set.ncard {address | deltaSum balanceDeltas address ≠ 0} ∧
      after = { db with balances := after.balances } ∧
      ∀ {other : List Balance} {otherEntries : List (String × Int)}
        {pieces : List (List (String × Int))} {otherScript otherRest : Script}
        {count : ℕ} {final : Db}, other.Perm balanceDeltas →
          aggregateDeltas other = some otherEntries → pieces.flatten.Perm otherEntries →
          Session.run (upsertBalanceChunks pieces) db otherScript = .done count final otherRest →
            count = updated ∧ ∀ row, row ∈ final.balances ↔ row ∈ after.balances := by
  rw [updateBalancesIncremental_eq] at ran
  obtain ⟨entries, aggregated, ran⟩ := Session.done_of_run_orDie ran
  have perm := flatten_balanceChunks hashOrder entries
  obtain ⟨counted, added⟩ := added_of_done (nodup_of_perm aggregated perm) ran
  replace added := added.of_perm perm
  have notListed : ∀ address, deltaSum balanceDeltas address = 0 →
      address ∉ entries.map Prod.fst :=
    fun address zero listed => (mem_addresses_iff aggregated).mp listed zero
  refine ⟨fun address => ?_, fun address zero => ?_, ?_, added.others, ?_⟩
  · rw [added.balanceOf, entrySum_of_aggregateDeltas aggregated, deltaSum]
  · rw [added.row, rowAfter_of_notMem (notListed address zero)]
  · rw [counted, perm.length_eq, length_of_aggregateDeltas aggregated]
  · intro other otherEntries pieces otherScript otherRest count final otherPerm otherAggregated cut
      otherRan
    have sameSum : deltaSum other = deltaSum balanceDeltas :=
      funext fun address => entrySum_perm (otherPerm.map _) address
    obtain ⟨otherCounted, otherAdded⟩ := added_of_done (nodup_of_perm otherAggregated cut) otherRan
    replace otherAdded := otherAdded.of_perm cut
    constructor
    · rw [otherCounted, cut.length_eq, length_of_aggregateDeltas otherAggregated, counted,
        perm.length_eq, length_of_aggregateDeltas aggregated, sameSum]
    · have sameRow : ∀ address,
          final.balances.lookup address = after.balances.lookup address := by
        intro address
        rw [otherAdded.row, added.row]
        unfold rowAfter
        rw [entrySum_of_aggregateDeltas otherAggregated, entrySum_of_aggregateDeltas aggregated,
          ← deltaSum, ← deltaSum]
        simp only [mem_addresses_iff otherAggregated, mem_addresses_iff aggregated, sameSum]
      intro row
      have stored (balances : Table Balance.primaryKey) :
          row ∈ balances ↔ balances.lookup row.scriptPublicKeyAddress = some row := by
        rw [Table.lookup_eq_some_iff]
        exact (and_iff_left rfl).symm
      rw [stored, stored, sameRow]

end Update

/-! ## Deltas that cancel out -/

/-- `first` receives 3, and `second` receives 2 and spends it. -/
def cancellingDeltas : List Balance :=
  [⟨"first", 3⟩, ⟨"second", 2⟩, ⟨"second", -2⟩]

def paidDb : Db :=
  { Db.empty with balances := Table.empty.insertAll [⟨"first", 4⟩] }

theorem cancellingDeltas_pointwise : ∃ after rest,
    Session.run (updateBalancesIncremental .listed cancellingDeltas) paidDb
      (fun _ => .succeeds) = .done 1 after rest ∧
    after.balanceOf "first" = 7 ∧ after.balances.lookup "second" = none := by
  have sums : ∀ address,
      deltaSum cancellingDeltas address = if "first" = address then 3 else 0 := by
    intro address
    simp only [deltaSum, deltaEntries, cancellingDeltas, List.map_cons, List.map_nil,
      entrySum_cons, entrySum_nil]
    split_ifs <;> rfl
  refine ⟨_, _, rfl, ?_⟩
  obtain ⟨balance, untouched, _⟩ := pointwise_of_done .listed
    (show Session.run (updateBalancesIncremental .listed cancellingDeltas) paidDb
      (fun _ => .succeeds) = .done 1 _ _ from rfl)
  constructor
  · rw [balance, sums]
    decide
  · rw [untouched _ (by rw [sums]; rfl)]
    rfl

/-! ## An update that fails -/

section Failing

variable (hashOrder : Reordering (String × Int)) {balanceDeltas : List Balance}

/-- The deltas are aggregated without an overflow, and of the chunks one that is not the first
is refused, and the ones before it are executed. -/
def StopsLate (hashOrder : Reordering (String × Int)) (balanceDeltas : List Balance) (db : Db)
    (script : Script) : Prop :=
  ∃ entries first written refused later, aggregateDeltas balanceDeltas = some entries ∧
    balanceChunks hashOrder entries = (first :: written) ++ refused :: later ∧
      RefusedAfter db script (first :: written) refused

/-- Adding an entry that is not zero changes the balances. -/
theorem Added.balances_ne {db after : Db} {entries : List (String × Int)}
    (added : Added db entries after) (nodup : (entries.map Prod.fst).Nodup) {address : String}
    {value : Int} (member : (address, value) ∈ entries) (nonzero : value ≠ 0) :
    after.balances ≠ db.balances := by
  intro same
  have balance := added.balanceOf address
  rw [entrySum_eq_of_mem nodup member] at balance
  have unchanged : after.balanceOf address = db.balanceOf address := by
    unfold Db.balanceOf
    rw [same]
  omega

/-- The chunks written before a refused one stay. -/
theorem failed_of_stopsLate {db : Db} {script : Script}
    (late : StopsLate hashOrder balanceDeltas db script) :
    ∃ error after rest,
      Session.run (updateBalancesIncremental hashOrder balanceDeltas) db script =
        .failed error after rest ∧ after.balances ≠ db.balances := by
  obtain ⟨entries, first, written, refused, later, aggregated, cut, isRefused⟩ := late
  have perm := flatten_balanceChunks hashOrder entries
  have nodup := nodup_of_perm aggregated perm
  rw [cut] at nodup perm
  obtain ⟨error, after, rest, ran, added⟩ := failed_of_refused nodup isRefused
  refine ⟨error, after, rest, ?_, ?_⟩
  · rw [updateBalancesIncremental_eq, aggregated, Session.orDie, Session.pure_bind, cut]
    exact ran
  · have writtenNodup : ((first :: written).flatten.map Prod.fst).Nodup := by
      rw [List.flatten_append, List.map_append] at nodup
      exact (List.nodup_append.mp nodup).1
    have firstMem : first ∈ balanceChunks hashOrder entries := by
      rw [cut]
      exact List.mem_cons_self
    obtain ⟨entry, entryMem⟩ :=
      List.exists_mem_of_ne_nil first (ne_nil_of_mem_chunks (by decide) firstMem)
    have inWritten : entry ∈ (first :: written).flatten :=
      List.mem_flatten.mpr ⟨first, List.mem_cons_self, entryMem⟩
    have isEntry : entry ∈ entries := by
      apply perm.subset
      rw [List.flatten_append]
      exact List.mem_append_left _ inWritten
    exact added.balances_ne writtenNodup inWritten
      ((mem_of_aggregateDeltas aggregated).mp isEntry).1

/-- An update that fails leaves the balances as they were exactly where it is not a chunk
after the first that is refused. -/
theorem untouched_iff_not_stopsLate (balanceDeltas : List Balance) (db : Db) (script : Script) :
    (∀ error after rest,
      Session.run (updateBalancesIncremental hashOrder balanceDeltas) db script =
        .failed error after rest → after.balances = db.balances) ↔
      ¬ StopsLate hashOrder balanceDeltas db script := by
  constructor
  · intro untouched late
    obtain ⟨error, after, rest, ran, changed⟩ := failed_of_stopsLate hashOrder late
    exact changed (untouched error after rest ran)
  · intro notLate error after rest ran
    rw [updateBalancesIncremental_eq] at ran
    obtain ⟨entries, aggregated, ran⟩ := Session.failed_of_run_orDie ran
    have nodup := nodup_of_perm aggregated (flatten_balanceChunks hashOrder entries)
    obtain ⟨written, refused, later, cut, isRefused, _, unwritten⟩ := refused_of_failed nodup ran
    cases written with
    | nil => rw [unwritten rfl]
    | cons first written =>
        exact absurd ⟨entries, first, written, refused, later, aggregated, cut, isRefused⟩ notLate

end Failing

/-! ## More addresses than a chunk holds -/

/-- One delta for each of `count` addresses. -/
def manyDeltas (count : ℕ) : List Balance :=
  (List.range count).map fun n => ⟨String.ofList (List.replicate n 'a'), 1⟩

/-- The second statement fails. -/
def secondFails : Script :=
  fun n => if n = 1 then .fails else .succeeds

/-- Each address has its one delta. -/
theorem deltaEntries_manyDeltas (count : ℕ) :
    deltaEntries (manyDeltas count) =
      (List.range count).map fun n => (String.ofList (List.replicate n 'a'), 1) := by
  simp [deltaEntries, manyDeltas]

theorem nodup_deltaEntries_manyDeltas (count : ℕ) :
    ((deltaEntries (manyDeltas count)).map Prod.fst).Nodup := by
  have injective : Function.Injective fun n => String.ofList (List.replicate n 'a') := by
    intro first second equal
    have sameChars := String.ofList_injective equal
    simpa using congrArg List.length sameChars
  rw [deltaEntries_manyDeltas, List.map_map]
  exact List.nodup_range.map injective

theorem entrySum_manyDeltas {count : ℕ} {address : String}
    (isAddress : address ∈ (deltaEntries (manyDeltas count)).map Prod.fst) :
    entrySum (deltaEntries (manyDeltas count)) address = 1 := by
  obtain ⟨⟨_, value⟩, member, rfl⟩ := List.mem_map.mp isAddress
  rw [entrySum_eq_of_mem (nodup_deltaEntries_manyDeltas count) member]
  rw [deltaEntries_manyDeltas] at member
  obtain ⟨_, _, eq⟩ := List.mem_map.mp member
  exact (Prod.mk.inj eq).2.symm

/-- No two deltas are added up. -/
theorem sumsFit_manyDeltas (count : ℕ) : SumsFit (deltaEntries (manyDeltas count)) := by
  apply SumsFit.of_nonneg
  · intro entry isEntry
    rw [deltaEntries_manyDeltas] at isEntry
    obtain ⟨_, _, rfl⟩ := List.mem_map.mp isEntry
    exact zero_le_one
  · intro address
    by_cases isAddress : address ∈ (deltaEntries (manyDeltas count)).map Prod.fst
    · rw [entrySum_manyDeltas isAddress]
      decide
    · rw [entrySum_eq_zero_of_notMem isAddress]
      decide

theorem length_manyDeltas_le {count : ℕ} {entries : List (String × Int)}
    (aggregated : aggregateDeltas (manyDeltas count) = some entries) : count ≤ entries.length := by
  have nodup := nodup_deltaEntries_manyDeltas count
  have listed : (deltaEntries (manyDeltas count)).map Prod.fst ⊆ entries.map Prod.fst := by
    intro address isAddress
    rw [mem_addresses_iff aggregated, deltaSum, entrySum_manyDeltas isAddress]
    exact one_ne_zero
  have fewer := (List.subperm_of_subset nodup listed).length_le
  rwa [List.length_map, List.length_map, deltaEntries_manyDeltas, List.length_map,
    List.length_range] at fewer

/-- More addresses than a chunk holds take two chunks, and the second is refused. -/
theorem stopsLate_manyDeltas {count : ℕ} (more : incrementalChunkSize < count) :
    StopsLate .listed (manyDeltas count) Db.empty secondFails := by
  obtain ⟨entries, aggregated⟩ := exists_aggregateDeltas (sumsFit_manyDeltas count)
  obtain ⟨first, refused, later, cut⟩ :=
    exists_two_chunks (by decide) (more.trans_le (length_manyDeltas_le aggregated))
  refine ⟨entries, first, [], refused, later, aggregated, cut, ?_, ?_, Or.inl rfl⟩
  · intro n below
    cases Nat.lt_one_iff.mp below
    rfl
  · intro chunk chunkMem entry entryMem
    cases List.mem_singleton.mp chunkMem
    have isChunk : first ∈ chunks incrementalChunkSize entries := by
      rw [cut]
      exact List.mem_cons_self
    obtain ⟨nonzero, valueEq⟩ :=
      (mem_of_aggregateDeltas aggregated).mp (mem_of_mem_chunk isChunk entryMem)
    have isAddress : entry.1 ∈ (deltaEntries (manyDeltas count)).map Prod.fst := by
      by_contra absent
      exact nonzero (valueEq.trans (entrySum_eq_zero_of_notMem absent))
    have noRow : Db.empty.balanceOf entry.1 = 0 := rfl
    rw [noRow, zero_add, valueEq, entrySum_manyDeltas isAddress]
    decide

/-- Of one address more than a chunk holds, the first 25,000 keep their deltas. -/
theorem manyDeltas_not_untouched : ∃ error after rest,
    Session.run (updateBalancesIncremental .listed (manyDeltas (incrementalChunkSize + 1)))
      Db.empty secondFails = .failed error after rest ∧
      after.balances ≠ Db.empty.balances :=
  failed_of_stopsLate .listed (stopsLate_manyDeltas (Nat.lt_succ_self incrementalChunkSize))

end VecnoIndexer
