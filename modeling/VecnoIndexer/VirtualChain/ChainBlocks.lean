import VecnoIndexer.VirtualChain.Polls

/-!
# Chain blocks marked without their acceptances

With acceptances disabled, a batch stores one row for each added chain block, with
the block alone.  The unique key of the table is the transaction, which is NULL in
such a row, so no constraint keeps a block from being marked twice.  The polls do:
the marks are those of the selected chain, each block once, and
`select_is_chain_block` tells the blocks of the chain.
-/

namespace VecnoIndexer

open VecnoIndexer.Sql
open VecnoIndexer.Collections
open VecnoIndexer.Chain
open VecnoIndexer.Transition

/-- The row of a chain block whose acceptances are not stored. -/
def chainBlock (hash : Hash) : TransactionAcceptance :=
  ⟨none, some hash⟩

/-- `SELECT EXISTS(SELECT 1 FROM transactions_acceptances WHERE block_hash = $1)` -/
def selectIsChainBlock (blockHash : Hash) : DbM Bool :=
  statement fun db =>
    .ok (db.transactionsAcceptances.rows.any (·.blockHash = some blockHash), db)

/-! ## Statements on marks -/

theorem inBlocks_append {first second : List Hash} {row : TransactionAcceptance} :
    row.InBlocks (first ++ second) ↔ row.InBlocks first ∨ row.InBlocks second := by
  cases rowBlock : row.blockHash <;> simp [TransactionAcceptance.InBlocks, rowBlock]

@[simp]
theorem inBlocks_chainBlock {blockHashes : List Hash} {hash : Hash} :
    (chainBlock hash).InBlocks blockHashes ↔ hash ∈ blockHashes :=
  Iff.rfl

theorem deleteAcceptances_append (first second : List Hash) (db : Db) :
    (deleteAcceptances second (deleteAcceptances first db).2).2 =
      (deleteAcceptances (first ++ second) db).2 := by
  simp only [deleteAcceptances]
  rw [Table.deleteWhere_deleteWhere _ fun _ => inBlocks_append]

theorem deleteAcceptances_nil (db : Db) : (deleteAcceptances [] db).2 = db := by
  simp only [deleteAcceptances]
  rw [Table.deleteWhere_eq_self]
  intro row _
  rw [not_inBlocks_iff]
  simp

/-- Whatever the pieces, they delete what one statement would. -/
theorem completes_forPieces_delete (pieces : List (List Hash)) (db : Db) :
    ∃ count, (forPieces deleteTransactionAcceptances pieces).Completes db count
      (deleteAcceptances pieces.flatten db).2 := by
  induction pieces generalizing db with
  | nil =>
      rw [List.flatten_nil, deleteAcceptances_nil]
      exact ⟨0, Session.completes_pure 0 db⟩
  | cons piece rest ih =>
      obtain ⟨count, completes⟩ := ih (deleteAcceptances piece db).2
      have first : (deleteTransactionAcceptances piece).Completes db
          (deleteAcceptances piece db).1 (deleteAcceptances piece db).2 := by
        unfold deleteTransactionAcceptances
        exact completes_of_executed rfl
      rw [List.flatten_cons, ← deleteAcceptances_append]
      exact ⟨_, first.unwrap.bind (completes.bind (Session.completes_pure _ _))⟩

/-- The statements of a batch that stores the chain blocks alone. -/
theorem completes_commitBatch_disabled {cliArgs : CliArgs}
    (disabled : cliArgs.isDisabled .transactionAcceptance = true)
    (completion : Reordering (List TransactionAcceptance)) (removed added : List Hash)
    (accepted : List AcceptedTransactionIds) (db : Db) :
    ∃ count, (commitBatch cliArgs completion removed added accepted).Completes db count
      (insertAcceptances (added.map chainBlock) (deleteAcceptances removed db).2).2 := by
  obtain ⟨count, deletes⟩ :=
    completes_forPieces_delete (chunks (removeBatchSize cliArgs.batchScale) removed) db
  obtain ⟨_, inserts⟩ := completes_forPieces_insert
    ((chunks (removeBatchSize cliArgs.batchScale) added).map (List.map chainBlock))
    (deleteAcceptances removed db).2
  rw [← List.map_flatten, flatten_chunks (removeBatchSize_pos cliArgs.batchScale)] at inserts
  rw [flatten_chunks (removeBatchSize_pos cliArgs.batchScale)] at deletes
  refine ⟨count, ?_⟩
  apply deletes.bind
  rw [disabled]
  exact inserts.bind (Session.completes_pure count _)

/-! ## The marks of a selected chain -/

/-- The table holds the imported rows and one row for each block of a chain. -/
def Marks (imported : List TransactionAcceptance) (path : List Hash) (db : Db) : Prop :=
  db.transactionsAcceptances.rows.Perm (imported ++ path.map chainBlock)

/-- A batch marks the chain to the last added block. -/
theorem Marks.commit {imported : List TransactionAcceptance} {common removed added : List Hash}
    {db : Db} (marks : Marks imported (common ++ removed) db)
    (noBlock : ∀ row ∈ imported, row.blockHash = none) (distinct : (common ++ removed).Nodup) :
    Marks imported (common ++ added)
      (insertAcceptances (added.map chainBlock) (deleteAcceptances removed.reverse db).2).2 := by
  have importedKept : imported.filter (fun row => ¬ row.InBlocks removed.reverse) = imported := by
    apply List.filter_eq_self.mpr
    intro row listed
    rw [decide_eq_true_iff, not_inBlocks_iff, noBlock row listed]
    nofun
  have commonKept : (common.map chainBlock).filter (fun row => ¬ row.InBlocks removed.reverse) =
      common.map chainBlock := by
    apply List.filter_eq_self.mpr
    rintro _ listed
    obtain ⟨hash, inCommon, rfl⟩ := List.mem_map.mp listed
    rw [decide_eq_true_iff, inBlocks_chainBlock, List.mem_reverse]
    exact List.disjoint_of_nodup_append distinct inCommon
  have removedGone : (removed.map chainBlock).filter (fun row => ¬ row.InBlocks removed.reverse) =
      [] := by
    apply List.filter_eq_nil_iff.mpr
    rintro _ listed
    obtain ⟨hash, inRemoved, rfl⟩ := List.mem_map.mp listed
    simpa using inRemoved
  have remaining := marks.filter fun row => decide ¬ row.InBlocks removed.reverse
  rw [List.map_append, List.filter_append, List.filter_append, importedKept, commonKept,
    removedGone, List.append_nil] at remaining
  have rows : (insertAcceptances (added.map chainBlock)
      (deleteAcceptances removed.reverse db).2).2.transactionsAcceptances.rows =
      (db.transactionsAcceptances.rows.filter fun row => ¬ row.InBlocks removed.reverse) ++
        added.map chainBlock := by
    apply Table.rows_insertAll_of_null
    intro row listed
    obtain ⟨hash, _, rfl⟩ := List.mem_map.mp listed
    rfl
  rw [Marks, rows, List.map_append, ← List.append_assoc]
  exact remaining.append_right _

/-- `select_is_chain_block` tells the blocks of the chain. -/
theorem Marks.selectIsChainBlock {imported : List TransactionAcceptance} {path : List Hash}
    {db : Db} (marks : Marks imported path db)
    (noBlock : ∀ row ∈ imported, row.blockHash = none) (hash : Hash) :
    (selectIsChainBlock hash).Completes db (decide (hash ∈ path)) db := by
  have answer : db.transactionsAcceptances.rows.any (·.blockHash = some hash) =
      decide (hash ∈ path) := by
    rw [marks.any_eq, List.any_append, List.any_map, Bool.eq_iff_iff, Bool.or_eq_true,
      List.any_eq_true, List.any_eq_true, decide_eq_true_iff]
    constructor
    · rintro (⟨row, listed, rowBlock⟩ | ⟨block, onPath, blockEq⟩)
      · rw [decide_eq_true_iff, noBlock row listed] at rowBlock
        contradiction
      · rw [Function.comp_apply, decide_eq_true_iff] at blockEq
        exact Option.some.inj blockEq ▸ onPath
    · exact fun onPath => Or.inr ⟨hash, onPath, by simp [chainBlock]⟩
  rw [← answer]
  exact completes_of_executed rfl

/-! ## Runs of polls -/

/-- The node answers `get_block`, and it answers from the start of the poll with the
blocks removed and added for some chain it then has, if at all. -/
def VcpPoll.AnsweredFrom (tree : BlockTree Hash) (world : VcpWorld) (poll : VcpPoll) : Prop :=
  (∀ block, ∃ header, poll.input.getBlock block = some header ∧ header.hash = block) ∧
    ∀ vcp response start, world.vcp = some vcp → poll.input.response = some response →
      tree.IsPath start → tree.tip start = vcp.startHash →
      ∃ current common removed added accepted, tree.IsPath current ∧
        Forks start current common removed added ∧ response = ⟨removed.reverse, added, accepted⟩

section Runs

variable {tree : BlockTree Hash} {cliArgs : CliArgs} {imported : List TransactionAcceptance}
  {world : VcpWorld}

/-- The step lemma. -/
theorem marks_of_poll {poll : VcpPoll}
    (disabled : cliArgs.isDisabled .transactionAcceptance = true)
    (noBlock : ∀ row ∈ imported, row.blockHash = none)
    (marks : world.AtChain tree (Marks imported)) (up : poll.script.Up)
    (answered : poll.AnsweredFrom tree world) :
    (world.poll cliArgs poll).AtChain tree (Marks imported) := by
  apply marks.poll up
  intro vcp path response running isPath tipEq held responseEq enough
  obtain ⟨current, common, removed, added, accepted, currentPath, ⟨rfl, rfl, _⟩, rfl⟩ :=
    answered.2 vcp response path running responseEq isPath tipEq
  refine completes_pollBatch_of _ isPath currentPath tipEq held ?_ answered.1 ?_ enough
  · rw [disabled]
    nofun
  · intro count _
    obtain ⟨rowsRemoved, completes⟩ := completes_commitBatch_disabled disabled
      poll.input.completion removed.reverse (added.take count) (accepted.take count) world.db
    exact ⟨rowsRemoved, _, completes, held.commit noBlock isPath.nodup⟩

/-- In every run whose statements are all executed, the marks are those of the
selected chain, and a query for a block tells whether it is on the chain. -/
theorem marks_of_run {polls : List VcpPoll}
    (disabled : cliArgs.isDisabled .transactionAcceptance = true)
    (noBlock : ∀ row ∈ imported, row.blockHash = none)
    (marks : world.AtChain tree (Marks imported))
    (answered : Along (VcpWorld.poll cliArgs)
      (fun middle poll => poll.script.Up ∧ poll.AnsweredFrom tree middle) world polls) :
    (runFrom (VcpWorld.poll cliArgs) world polls).AtChain tree fun path db =>
      Marks imported path db ∧
        ∀ hash, (selectIsChainBlock hash).Completes db (decide (hash ∈ path)) db := by
  obtain ⟨vcp, path, running, isPath, tipEq, held⟩ := invariant_of_along
    (fun _ _ kept polled => marks_of_poll disabled noBlock kept polled.1 polled.2) marks answered
  exact ⟨vcp, path, running, isPath, tipEq, held, held.selectIsChainBlock noBlock⟩

end Runs

/-! ## The fork of blocks 3 and 4 -/

def markingArgs : CliArgs :=
  { CliArgs.standard with disable := some [.transactionAcceptance] }

/-- The marks of blocks 2 and 3, with an imported transaction. -/
def markedRows : List TransactionAcceptance :=
  [⟨some 9, none⟩, chainBlock 2, chainBlock 3]

def markedWorld : VcpWorld where
  db := { Db.empty with transactionsAcceptances := Table.empty.insertAll markedRows }
  vcp := some ⟨3, true, 0, []⟩

theorem forkPoll_answeredFrom : forkPoll.AnsweredFrom forkTree markedWorld := by
  refine ⟨fun block => ⟨⟨block, 0, 0, 0⟩, rfl, rfl⟩, ?_⟩
  rintro vcp response start ⟨⟩ ⟨⟩ startPath startTip
  have startEq : start = [2, 3] :=
    startPath.eq_of_tip_eq (by unfold BlockTree.IsPath; decide) startTip
  subst startEq
  refine ⟨[4], [], [2, 3], [4], _, by unfold BlockTree.IsPath; decide, ⟨rfl, rfl, ?_⟩, rfl⟩
  rintro block ⟨⟩
  decide

theorem markedWorld_marks :
    (runFrom (VcpWorld.poll markingArgs) markedWorld [forkPoll]).AtChain forkTree fun path db =>
      Marks [⟨some 9, none⟩] path db ∧
        ∀ hash, (selectIsChainBlock hash).Completes db (decide (hash ∈ path)) db :=
  marks_of_run (by decide) (by decide)
    ⟨_, [2, 3], rfl, by unfold BlockTree.IsPath; decide, by decide, List.Perm.refl _⟩
    ⟨⟨fun _ => rfl, forkPoll_answeredFrom⟩, trivial⟩

end VecnoIndexer
