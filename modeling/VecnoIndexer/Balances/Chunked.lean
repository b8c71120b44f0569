import VecnoIndexer.Balances.Update

/-!
# Balances written in chunks

Keyed amounts are added to the balances by upserts of whole rows, a chunk a statement.
`Added` says what such statements leave: the row of each listed address, moved by the sum
of its amounts, and all other rows as they were.  Entries added after others are those of
both, so a loop over chunks with distinct addresses adds all of them, however they are cut.
-/

namespace VecnoIndexer

open VecnoIndexer.Sql
open VecnoIndexer.Collections

/-! ## Chunks as written -/

/-- The row an address has after entries were added to the balances. -/
def rowAfter (db : Db) (entries : List (String × Int)) (address : String) : Option Balance :=
  if address ∈ entries.map Prod.fst then
    some ⟨address, db.balanceOf address + entrySum entries address⟩
  else
    db.balances.lookup address

/-- No balance a chunk writes overflows. -/
def ChunkFits (db : Db) (chunk : List (String × Int)) : Prop :=
  ∀ entry ∈ chunk, InI64 (db.balanceOf entry.1 + entry.2)

instance (db : Db) (chunk : List (String × Int)) : Decidable (ChunkFits db chunk) :=
  inferInstanceAs (Decidable (∀ entry ∈ chunk, _))

/-- Entries were added to the balances, and nothing else was changed. -/
structure Added (db : Db) (entries : List (String × Int)) (after : Db) : Prop where
  others : after = { db with balances := after.balances }
  row : ∀ address, after.balances.lookup address = rowAfter db entries address

@[simp]
theorem rowAfter_nil (db : Db) (address : String) :
    rowAfter db [] address = db.balances.lookup address :=
  rfl

theorem rowAfter_of_mem {db : Db} {entries : List (String × Int)} {address : String}
    (listed : address ∈ entries.map Prod.fst) :
    rowAfter db entries address =
      some ⟨address, db.balanceOf address + entrySum entries address⟩ :=
  if_pos listed

theorem rowAfter_of_notMem {db : Db} {entries : List (String × Int)} {address : String}
    (absent : address ∉ entries.map Prod.fst) :
    rowAfter db entries address = db.balances.lookup address :=
  if_neg absent

/-- The row that upserting rows with distinct addresses leaves. -/
theorem lookup_foldl_upsert (old : String → Int) {entries : List (String × Int)}
    (nodup : (entries.map Prod.fst).Nodup) (balances : Table Balance.primaryKey)
    (address : String) :
    ((entries.map fun entry => (⟨entry.1, old entry.1 + entry.2⟩ : Balance)).foldl
        Table.upsert balances).lookup address =
      if address ∈ entries.map Prod.fst then
        some ⟨address, old address + entrySum entries address⟩
      else balances.lookup address := by
  induction entries generalizing balances with
  | nil => rfl
  | cons entry rest ih =>
      have rowKey : Balance.primaryKey ⟨entry.1, old entry.1 + entry.2⟩ = some entry.1 := rfl
      rw [List.map_cons, List.nodup_cons] at nodup
      rw [List.map_cons, List.foldl_cons, ih nodup.2, entrySum_cons]
      by_cases equal : entry.1 = address
      · subst equal
        have listed : entry.1 ∈ (entry :: rest).map Prod.fst := List.mem_cons_self
        rw [if_neg nodup.1, Table.lookup_upsert_self rowKey, if_pos listed, if_pos rfl,
          entrySum_eq_zero_of_notMem nodup.1, add_zero]
      · have other : address ≠ entry.1 := Ne.symm equal
        rw [Table.lookup_upsert_ne rowKey other, if_neg equal, zero_add]
        simp only [List.map_cons, List.mem_cons, other, false_or]

namespace Added

variable {db middle after : Db} {first second : List (String × Int)}

theorem refl (db : Db) : Added db [] db :=
  ⟨rfl, fun _ => rfl⟩

theorem balanceOf (added : Added db first after) (address : String) :
    after.balanceOf address = db.balanceOf address + entrySum first address := by
  unfold Db.balanceOf balanceIn
  rw [added.row]
  by_cases listed : address ∈ first.map Prod.fst
  · rw [rowAfter_of_mem listed]
    rfl
  · rw [rowAfter_of_notMem listed, entrySum_eq_zero_of_notMem listed, add_zero]

/-- Entries added after others. -/
theorem trans (earlier : Added db first middle) (later : Added middle second after) :
    Added db (first ++ second) after where
  others := by
    rw [later.others, earlier.others]
  row := by
    intro address
    rw [later.row]
    by_cases inSecond : address ∈ second.map Prod.fst
    · have listed : address ∈ (first ++ second).map Prod.fst := by
        rw [List.map_append]
        exact List.mem_append_right _ inSecond
      rw [rowAfter_of_mem inSecond, rowAfter_of_mem listed, earlier.balanceOf, entrySum_append,
        add_assoc]
    · rw [rowAfter_of_notMem inSecond, earlier.row]
      by_cases inFirst : address ∈ first.map Prod.fst
      · have listed : address ∈ (first ++ second).map Prod.fst := by
          rw [List.map_append]
          exact List.mem_append_left _ inFirst
        rw [rowAfter_of_mem inFirst, rowAfter_of_mem listed, entrySum_append,
          entrySum_eq_zero_of_notMem inSecond, add_zero]
      · have absent : address ∉ (first ++ second).map Prod.fst := by
          rw [List.map_append, List.mem_append]
          rintro (listed | listed)
          · exact inFirst listed
          · exact inSecond listed
        rw [rowAfter_of_notMem inFirst, rowAfter_of_notMem absent]

/-- The order of entries does not matter. -/
theorem of_perm (perm : first.Perm second) (added : Added db first after) :
    Added db second after where
  others := added.others
  row := by
    intro address
    rw [added.row]
    unfold rowAfter
    rw [entrySum_perm perm]
    simp only [(perm.map Prod.fst).mem_iff]

/-- Entries for other addresses fit as before. -/
theorem chunkFits_iff (added : Added db first after)
    (disjoint : ∀ entry ∈ second, entry.1 ∉ first.map Prod.fst) :
    ChunkFits after second ↔ ChunkFits db second := by
  have sameBalance : ∀ entry ∈ second, after.balanceOf entry.1 = db.balanceOf entry.1 := by
    intro entry entryMem
    rw [added.balanceOf, entrySum_eq_zero_of_notMem (disjoint entry entryMem), add_zero]
  constructor
  · intro fits entry entryMem
    rw [← sameBalance entry entryMem]
    exact fits entry entryMem
  · intro fits entry entryMem
    rw [sameBalance entry entryMem]
    exact fits entry entryMem

end Added

/-! ## One chunk -/

section Chunk

variable {db : Db} {chunk : List (String × Int)}

theorem upsertBalances_of_fits (nodup : (chunk.map Prod.fst).Nodup) (fits : ChunkFits db chunk) :
    ∃ after, upsertBalances chunk db = .ok (chunk.length, after) ∧ Added db chunk after := by
  let rows : List Balance := chunk.map fun entry => ⟨entry.1, db.balanceOf entry.1 + entry.2⟩
  have allFit : ∀ row ∈ rows, InI64 row.balance := by
    intro row rowMem
    obtain ⟨entry, entryMem, rfl⟩ := List.mem_map.mp rowMem
    exact fits entry entryMem
  refine ⟨{ db with balances := rows.foldl Table.upsert db.balances }, ?_, rfl, ?_⟩
  · simp only [upsertBalances]
    rw [if_pos allFit, List.length_map]
  · exact lookup_foldl_upsert db.balanceOf nodup db.balances

theorem upsertBalances_of_not_fits (overflows : ¬ ChunkFits db chunk) :
    upsertBalances chunk db = .error .numericValueOutOfRange := by
  apply if_neg
  intro allFit
  apply overflows
  intro entry entryMem
  exact allFit _ (List.mem_map.mpr ⟨entry, entryMem, rfl⟩)

end Chunk

/-! ## The loop over chunks -/

section Loop

variable {db after : Db} {script rest : Script} {chunk : List (String × Int)}
  {pieces : List (List (String × Int))}

/-- Chunks have no address in common. -/
theorem disjoint_of_nodup (nodup : ((chunk :: pieces).flatten.map Prod.fst).Nodup)
    {other : List (String × Int)} (otherMem : other ∈ pieces) :
    ∀ entry ∈ other, entry.1 ∉ chunk.map Prod.fst := by
  rw [List.flatten_cons, List.map_append, List.nodup_append] at nodup
  obtain ⟨_, _, disjoint⟩ := nodup
  intro entry entryMem listed
  have inPieces : entry.1 ∈ pieces.flatten.map Prod.fst :=
    List.mem_map.mpr ⟨entry, List.mem_flatten.mpr ⟨other, otherMem, entryMem⟩, rfl⟩
  exact disjoint entry.1 listed entry.1 inPieces rfl

theorem nodup_of_cons (nodup : ((chunk :: pieces).flatten.map Prod.fst).Nodup) :
    (chunk.map Prod.fst).Nodup ∧ (pieces.flatten.map Prod.fst).Nodup := by
  rw [List.flatten_cons, List.map_append, List.nodup_append] at nodup
  exact ⟨nodup.1, nodup.2.1⟩

/-- A chunk whose statement returned was added. -/
theorem added_of_run_statement {affected : ℕ} (nodup : (chunk.map Prod.fst).Nodup)
    (ran : Session.run (statement (upsertBalances chunk)) db script = .done affected after rest) :
    ChunkFits db chunk ∧ affected = chunk.length ∧ Added db chunk after := by
  have executed := Session.executed_of_run_statement ran
  by_cases fits : ChunkFits db chunk
  · obtain ⟨written, ok, added⟩ := upsertBalances_of_fits nodup fits
    rw [ok] at executed
    cases executed
    exact ⟨fits, rfl, added⟩
  · rw [upsertBalances_of_not_fits fits] at executed
    contradiction

/-- A loop that returned added every chunk. -/
theorem added_of_done {total : ℕ} (nodup : (pieces.flatten.map Prod.fst).Nodup)
    (ran : Session.run (upsertBalanceChunks pieces) db script = .done total after rest) :
    total = pieces.flatten.length ∧ Added db pieces.flatten after := by
  induction pieces generalizing db script total rest with
  | nil =>
      cases ran
      exact ⟨rfl, Added.refl _⟩
  | cons chunk pieces ih =>
      obtain ⟨chunkNodup, restNodup⟩ := nodup_of_cons nodup
      obtain ⟨affected, middle, left, firstRan, ran⟩ := Session.done_of_run_bind ran
      obtain ⟨others, final, last, restRan, ran⟩ := Session.done_of_run_bind ran
      cases ran
      obtain ⟨_, rfl, first⟩ := added_of_run_statement chunkNodup firstRan
      obtain ⟨rfl, second⟩ := ih restNodup restRan
      rw [List.flatten_cons, List.length_append]
      exact ⟨rfl, first.trans second⟩

/-- Executed in full, the loop adds every chunk. -/
theorem completes_upsertBalanceChunks (nodup : (pieces.flatten.map Prod.fst).Nodup)
    (fits : ∀ chunk ∈ pieces, ChunkFits db chunk) :
    ∃ total after, (upsertBalanceChunks pieces).Completes db total after ∧
      Added db pieces.flatten after := by
  induction pieces generalizing db with
  | nil => exact ⟨0, db, Session.completes_pure 0 db, Added.refl db⟩
  | cons chunk pieces ih =>
      obtain ⟨chunkNodup, restNodup⟩ := nodup_of_cons nodup
      obtain ⟨middle, executed, added⟩ :=
        upsertBalances_of_fits chunkNodup (fits chunk List.mem_cons_self)
      -- The addresses of later chunks have not been written yet.
      have restFits : ∀ other ∈ pieces, ChunkFits middle other := by
        intro other otherMem
        apply (added.chunkFits_iff (disjoint_of_nodup nodup otherMem)).mpr
        exact fits other (List.mem_cons_of_mem chunk otherMem)
      obtain ⟨total, after, completes, restAdded⟩ := ih restNodup restFits
      have first : (statement (upsertBalances chunk)).Completes db chunk.length middle :=
        completes_of_executed executed
      exact ⟨_, after, first.bind (completes.bind (Session.completes_pure _ after)),
        added.trans restAdded⟩

end Loop

end VecnoIndexer
