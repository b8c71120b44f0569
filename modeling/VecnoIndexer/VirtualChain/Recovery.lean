import VecnoIndexer.VirtualChain.Polls

/-!
# Batches cut by a crash

A crash may cut a batch between any two of its statements.  A table is anchored
at a block if the rows of the block and of its past are those of the chain that
ends at it.  A table that follows a chain is anchored at every block of it, and
stays so while a batch is executed until a delete names the block.
-/

namespace VecnoIndexer

open VecnoIndexer.Sql
open VecnoIndexer.Collections
open VecnoIndexer.Chain
open VecnoIndexer.Transition

/-! ## Statements that may be cut -/

section Cut

variable {α : Type}

/-- The elements of the pieces whose statements are executed. -/
def executedPieces : Script → List (List α) → List α
  | _, [] => []
  | script, piece :: rest =>
      if script 0 = .succeeds then piece ++ executedPieces script.tail rest else []

theorem executedPieces_prefix (script : Script) (pieces : List (List α)) :
    executedPieces script pieces <+: pieces.flatten := by
  induction pieces generalizing script with
  | nil => exact List.nil_prefix
  | cons piece rest ih =>
      rw [executedPieces, List.flatten_cons]
      split
      · exact List.prefix_append_right_inj piece |>.mpr (ih script.tail)
      · exact List.nil_prefix

theorem strict_insertTransactionAcceptances (rows : List TransactionAcceptance) :
    (insertTransactionAcceptances rows).Strict := by
  unfold insertTransactionAcceptances
  exact strict_of_statement _

theorem strict_removeChainBlocks (batchScale : BatchScale) (removed : List Hash) :
    (removeChainBlocks batchScale removed).Strict :=
  strict_forPieces strict_deleteTransactionAcceptances _

theorem strict_commitBatch (cliArgs : CliArgs)
    (completion : Reordering (List TransactionAcceptance)) (removed added : List Hash)
    (accepted : List AcceptedTransactionIds) :
    (commitBatch cliArgs completion removed added accepted).Strict := by
  refine (strict_removeChainBlocks _ _).bind fun rowsRemoved => ?_
  split
  · exact (strict_forPieces strict_insertTransactionAcceptances _).bind
      fun _ => Session.strict_pure _
  · exact (strict_forPieces strict_insertTransactionAcceptances _).bind
      fun _ => Session.strict_pure _

theorem strict_pollVirtualChain (cliArgs : CliArgs) (vcp : VcpState) (input : VcpInput) :
    (pollVirtualChain cliArgs vcp input).Strict := by
  unfold pollVirtualChain
  split
  · exact Session.strict_pure _
  · refine Session.Strict.bind ?_ fun _ => Session.strict_pure _
    unfold pollResponse
    split
    · unfold pollBatch
      simp only
      split
      · exact Session.strict_die
      · split_ifs
        · exact Session.strict_pure _
        · exact (strict_removeChainBlocks _ _).bind fun _ => Session.strict_die
        · exact (strict_commitBatch _ _ _ _ _).bind fun _ => Session.strict_pure _
    · exact Session.strict_pure _

/-- A delete cut anywhere has deleted the rows of the executed pieces. -/
theorem state_forPieces_delete (pieces : List (List Hash)) (db : Db) (script : Script) :
    ∃ acceptances,
      (Session.run (forPieces deleteTransactionAcceptances pieces) db script).state =
        db.withAcceptances acceptances ∧
      ∀ row, row ∈ acceptances ↔ row ∈ db.transactionsAcceptances ∧
        ∀ hash, row.blockHash = some hash → hash ∉ executedPieces script pieces := by
  induction pieces generalizing db script with
  | nil => exact ⟨db.transactionsAcceptances, rfl, by simp [executedPieces]⟩
  | cons piece rest ih =>
      have first : Session.run (deleteTransactionAcceptances piece).unwrap db script =
          if script 0 = .succeeds then
            .done (deleteAcceptances piece db).1 (deleteAcceptances piece db).2 script.tail
          else .killed db := by
        cases outcome : script 0 <;>
          simp [deleteTransactionAcceptances, statement, Session.run_unwrap,
            Session.run_statement, outcome]
      by_cases succeeds : script 0 = .succeeds
      · rw [if_pos succeeds] at first
        obtain ⟨acceptances, stateEq, mem_iff⟩ := ih (deleteAcceptances piece db).2 script.tail
        refine ⟨acceptances, ?_, ?_⟩
        · rw [forPieces, Session.run_bind_of_done first, Session.run_bind]
          cases ran : Session.run (forPieces deleteTransactionAcceptances rest)
            (deleteAcceptances piece db).2 script.tail <;> rw [ran] at stateEq <;> exact stateEq
        · intro row
          rw [mem_iff, executedPieces, if_pos succeeds, mem_deleteAcceptances]
          simp only [List.mem_append, not_or]
          constructor
          · rintro ⟨⟨rowMem, notFirst⟩, notRest⟩
            exact ⟨rowMem, fun hash rowBlock => ⟨notFirst hash rowBlock, notRest hash rowBlock⟩⟩
          · rintro ⟨rowMem, outside⟩
            exact ⟨⟨rowMem, fun hash rowBlock => (outside hash rowBlock).1⟩,
              fun hash rowBlock => (outside hash rowBlock).2⟩
      · rw [if_neg succeeds] at first
        refine ⟨db.transactionsAcceptances, ?_, ?_⟩
        · rw [forPieces, Session.run_bind, first]
          rfl
        · simp [executedPieces, succeeds]

/-- All the removed blocks are deleted before the first insert. -/
theorem executedPieces_of_done {pieces : List (List Hash)} {db final : Db}
    {script rest : Script} {count : Nat}
    (ran : Session.run (forPieces deleteTransactionAcceptances pieces) db script =
      .done count final rest) :
    executedPieces script pieces = pieces.flatten := by
  induction pieces generalizing db final script rest count with
  | nil => rfl
  | cons piece later ih =>
      obtain ⟨_, middle, left, firstRan, ran⟩ := Session.done_of_run_bind ran
      obtain ⟨_, _, _, laterRan, _⟩ := Session.done_of_run_bind ran
      cases outcome : script 0 with
      | succeeds =>
          have leftEq : left = script.tail := by
            simp only [deleteTransactionAcceptances, statement, Session.run_unwrap,
              Session.run_statement, outcome] at firstRan
            cases firstRan
            rfl
          rw [executedPieces, if_pos outcome, ← leftEq, ih laterRan, List.flatten_cons]
      | fails =>
          simp [deleteTransactionAcceptances, statement, Session.run_unwrap,
            Session.run_statement, outcome] at firstRan
      | killed =>
          simp [deleteTransactionAcceptances, statement, Session.run_unwrap,
            Session.run_statement, outcome] at firstRan

/-- Inserts cut anywhere have added some of the rows given. -/
theorem state_forPieces_insert (pieces : List (List TransactionAcceptance)) (db : Db)
    (script : Script) :
    ∃ acceptances,
      (Session.run (forPieces insertTransactionAcceptances pieces) db script).state =
        db.withAcceptances acceptances ∧
      (∀ row ∈ db.transactionsAcceptances, row ∈ acceptances) ∧
      ∀ row ∈ acceptances, row ∈ db.transactionsAcceptances ∨ row ∈ pieces.flatten := by
  have keeps : (forPieces insertTransactionAcceptances pieces).Keeps fun state =>
      ∃ acceptances, state = db.withAcceptances acceptances ∧
        (∀ row ∈ db.transactionsAcceptances, row ∈ acceptances) ∧
        ∀ row ∈ acceptances, row ∈ db.transactionsAcceptances ∨ row ∈ pieces.flatten := by
    apply keeps_forPieces
    intro piece pieceMem
    apply keeps_insertTransactionAcceptances
    rintro state ⟨acceptances, rfl, kept, added⟩
    refine ⟨acceptances.insertAll piece, rfl, ?_, ?_⟩
    · exact fun row rowMem => Table.mem_insertAll_of_mem (kept row rowMem)
    · intro row rowMem
      rcases Table.mem_or_mem_of_mem_insertAll rowMem with old | new
      · exact added row old
      · exact Or.inr (List.mem_flatten.mpr ⟨piece, pieceMem, new⟩)
  exact keeps db script ⟨db.transactionsAcceptances, rfl, fun _ rowMem => rowMem, fun _ => Or.inl⟩

end Cut

/-- The blocks named by the executed delete statements of a batch. -/
def deletedBlocks (batchScale : BatchScale) (script : Script) (removed : List Hash) : List Hash :=
  executedPieces script (chunks (removeBatchSize batchScale) removed)

theorem deletedBlocks_prefix (batchScale : BatchScale) (script : Script) (removed : List Hash) :
    deletedBlocks batchScale script removed <+: removed := by
  have executed := executedPieces_prefix script (chunks (removeBatchSize batchScale) removed)
  rwa [flatten_chunks (removeBatchSize_pos batchScale)] at executed

/-- A batch cut anywhere: the rows of the deleted blocks are gone, the others are
left, and rows of added blocks come only after all deletes. -/
theorem state_commitBatch {cliArgs : CliArgs}
    (enabled : cliArgs.isDisabled .transactionAcceptance = false)
    (completion : Reordering (List TransactionAcceptance)) (removed added : List Hash)
    (accepted : List AcceptedTransactionIds) (db : Db) (script : Script) :
    ∃ acceptances,
      (Session.run (commitBatch cliArgs completion removed added accepted) db script).state =
        db.withAcceptances acceptances ∧
      (∀ row ∈ db.transactionsAcceptances, (∀ hash, row.blockHash = some hash →
        hash ∉ deletedBlocks cliArgs.batchScale script removed) → row ∈ acceptances) ∧
      ∀ row ∈ acceptances,
        (row ∈ db.transactionsAcceptances ∧ ∀ hash, row.blockHash = some hash →
          hash ∉ deletedBlocks cliArgs.batchScale script removed) ∨
        (deletedBlocks cliArgs.batchScale script removed = removed ∧
          row ∈ acceptanceRows accepted) := by
  obtain ⟨remaining, removedState, mem_remaining⟩ :=
    state_forPieces_delete (chunks (removeBatchSize cliArgs.batchScale) removed) db script
  rw [commitBatch, Session.run_bind]
  cases ran : Session.run (removeChainBlocks cliArgs.batchScale removed) db script with
  | done count middle rest =>
      unfold removeChainBlocks at ran
      have complete := executedPieces_of_done ran
      rw [flatten_chunks (removeBatchSize_pos cliArgs.batchScale)] at complete
      rw [ran] at removedState
      change middle = db.withAcceptances remaining at removedState
      subst removedState
      obtain ⟨acceptances, insertState, kept, added⟩ := state_forPieces_insert
        (acceptancePieces cliArgs.batchScale completion accepted) (db.withAcceptances remaining)
        rest
      refine ⟨acceptances, ?_, ?_, ?_⟩
      · simp only [enabled, Bool.false_eq_true, if_false, Session.run_bind]
        cases inserts : Session.run (acceptTransactions cliArgs.batchScale completion accepted)
          (db.withAcceptances remaining) rest <;>
          rw [acceptTransactions] at inserts <;> rw [inserts] at insertState <;>
          exact insertState
      · exact fun row rowMem outside => kept row ((mem_remaining row).mpr ⟨rowMem, outside⟩)
      · intro row rowMem
        rcases added row rowMem with old | new
        · exact Or.inl ((mem_remaining row).mp old)
        · exact Or.inr ⟨complete, (flatten_acceptancePieces_perm _ _ _).mem_iff.mp new⟩
  | failed error middle rest =>
      unfold removeChainBlocks at ran
      rw [ran] at removedState
      refine ⟨remaining, removedState, ?_, ?_⟩
      · exact fun row rowMem outside => (mem_remaining row).mpr ⟨rowMem, outside⟩
      · exact fun row rowMem => Or.inl ((mem_remaining row).mp rowMem)
  | killed middle =>
      unfold removeChainBlocks at ran
      rw [ran] at removedState
      refine ⟨remaining, removedState, ?_, ?_⟩
      · exact fun row rowMem outside => (mem_remaining row).mpr ⟨rowMem, outside⟩
      · exact fun row rowMem => Or.inl ((mem_remaining row).mp rowMem)

/-! ## Rows anchored at a checkpoint -/

namespace ChainNode

variable {node : ChainNode} {past : node.tree.Past}
  {acceptances : Table TransactionAcceptance.uniqueKey} {checkpoint : Hash}

/-- The rows of a block and of its past are those of the chain that ends at it. -/
structure Anchored (node : ChainNode) (past : node.tree.Past) (checkpoint : Hash)
    (acceptances : Table TransactionAcceptance.uniqueKey) : Prop where
  imported : node.ImportedBelow acceptances
  known : ∀ row ∈ acceptances, ∀ block, row.blockHash = some block → node.tree.OnChain block
  anchored : ∃ path, node.tree.IsPath path ∧ node.tree.tip path = checkpoint ∧
    ∀ row, (row ∈ acceptances ∧ ∃ block, row.blockHash = some block ∧
      (block = checkpoint ∨ past.inPast checkpoint block)) ↔ node.AcceptedBy path row

/-- Rows of chains through a checkpoint are anchored at it if those of its own
chain are complete. -/
theorem anchored_of_chains {earlier : List Hash} (isPath : node.tree.IsPath earlier)
    (imported : node.ImportedBelow acceptances)
    (complete : ∀ row, node.AcceptedBy earlier row → row ∈ acceptances)
    (sound : ∀ row ∈ acceptances, row.blockHash ≠ none → ∃ later,
      node.tree.IsPath (earlier ++ later) ∧ node.AcceptedBy (earlier ++ later) row) :
    node.Anchored past (node.tree.tip earlier) acceptances where
  imported := imported
  known := by
    intro row rowMem block rowBlock
    obtain ⟨later, laterPath, accepted⟩ := sound row rowMem (by simp [rowBlock])
    obtain ⟨other, otherMem, otherBlock⟩ := accepted.blockHash
    rw [rowBlock] at otherBlock
    cases otherBlock
    exact ⟨_, laterPath, otherMem⟩
  anchored := by
    refine ⟨earlier, isPath, rfl, fun row => ?_⟩
    constructor
    · rintro ⟨rowMem, block, rowBlock, notAfter⟩
      obtain ⟨later, laterPath, other, otherMem, transactionId, accepted, rfl⟩ :=
        sound row rowMem (by simp [rowBlock])
      cases rowBlock
      exact ⟨block, (past.mem_iff laterPath otherMem).mpr notAfter, transactionId, accepted, rfl⟩
    · intro accepted
      obtain ⟨block, blockMem, rowBlock⟩ := accepted.blockHash
      exact ⟨complete row accepted, block, rowBlock, past.eq_tip_or_inPast isPath blockMem⟩

/-- A table that follows a chain is anchored at every block of it. -/
theorem Follows.anchored {earlier later : List Hash}
    (isPath : node.tree.IsPath (earlier ++ later))
    (follows : node.Follows (earlier ++ later) acceptances)
    (imported : node.ImportedBelow acceptances) :
    node.Anchored past (node.tree.tip earlier) acceptances := by
  refine anchored_of_chains isPath.of_append imported ?_ ?_
  · rintro row ⟨block, blockMem, rest⟩
    exact ((follows row).mpr ⟨block, List.mem_append_left later blockMem, rest⟩).1
  · exact fun row rowMem hasBlock => ⟨later, isPath, (follows row).mp ⟨rowMem, hasBlock⟩⟩

/-- Deleting rows of blocks outside the past of the checkpoint. -/
theorem Anchored.delete (anchored : node.Anchored past checkpoint acceptances)
    {cleared : List Hash}
    (outside : ∀ block ∈ cleared, block ≠ checkpoint ∧ ¬ past.inPast checkpoint block)
    {remaining : Table TransactionAcceptance.uniqueKey}
    (mem_remaining : ∀ row, row ∈ remaining ↔ row ∈ acceptances ∧
      ∀ hash, row.blockHash = some hash → hash ∉ cleared) :
    node.Anchored past checkpoint remaining where
  imported := anchored.imported.delete fun row rowMem => ((mem_remaining row).mp rowMem).1
  known row rowMem := anchored.known row ((mem_remaining row).mp rowMem).1
  anchored := by
    obtain ⟨path, isPath, tipEq, mem_iff⟩ := anchored.anchored
    refine ⟨path, isPath, tipEq, fun row => ?_⟩
    rw [← mem_iff row, mem_remaining]
    constructor
    · exact fun ⟨⟨rowMem, _⟩, atOrBefore⟩ => ⟨rowMem, atOrBefore⟩
    · rintro ⟨rowMem, block, rowBlock, notAfter⟩
      refine ⟨⟨rowMem, fun hash rowHash inCleared => ?_⟩, block, rowBlock, notAfter⟩
      rw [rowBlock] at rowHash
      cases rowHash
      obtain ⟨different, notPast⟩ := outside block inCleared
      rcases notAfter with equal | inPast
      · exact different equal
      · exact notPast inPast

/-- Deleting the rows of all blocks outside the past of the checkpoint leaves its
chain. -/
theorem Anchored.follows (anchored : node.Anchored past checkpoint acceptances)
    {cleared : List Hash}
    (outside : ∀ block ∈ cleared, block ≠ checkpoint ∧ ¬ past.inPast checkpoint block)
    (complete : ∀ block, node.tree.OnChain block → block ≠ checkpoint →
      ¬ past.inPast checkpoint block → block ∈ cleared)
    {remaining : Table TransactionAcceptance.uniqueKey}
    (mem_remaining : ∀ row, row ∈ remaining ↔ row ∈ acceptances ∧
      ∀ hash, row.blockHash = some hash → hash ∉ cleared) :
    ∃ path, node.tree.IsPath path ∧ node.tree.tip path = checkpoint ∧
      node.Follows path remaining ∧ node.ImportedBelow remaining := by
  have left := anchored.delete outside mem_remaining
  obtain ⟨path, isPath, tipEq, mem_iff⟩ := left.anchored
  refine ⟨path, isPath, tipEq, fun row => ?_, left.imported⟩
  rw [← mem_iff row]
  constructor
  · rintro ⟨rowMem, hasBlock⟩
    obtain ⟨block, rowBlock⟩ := Option.ne_none_iff_exists'.mp hasBlock
    refine ⟨rowMem, block, rowBlock, ?_⟩
    by_contra after
    rw [not_or] at after
    have inCleared := complete block (left.known row rowMem block rowBlock) after.1 after.2
    exact ((mem_remaining row).mp rowMem).2 block rowBlock inCleared
  · rintro ⟨rowMem, block, rowBlock, _⟩
    exact ⟨rowMem, by simp [rowBlock]⟩

end ChainNode

/-! ## A poll that may be cut -/

section Cut

variable {node : ChainNode} {past : node.tree.Past} {cliArgs : CliArgs} {db : Db}
  {vcp : VcpState} {poll : VcpPoll}

/-- A checkpoint lies on the selected chain that ends at a block, or is the base. -/
def ChainNode.ChainThrough (node : ChainNode) (block checkpoint : Hash) : Prop :=
  ∃ earlier later, node.tree.IsPath (earlier ++ later) ∧
    node.tree.tip (earlier ++ later) = block ∧ node.tree.tip earlier = checkpoint

/-- A poll that the process survives is as good as one whose statements are all
executed. -/
theorem VcpWorld.Follows.of_done
    (enabled : cliArgs.isDisabled .transactionAcceptance = false)
    (follows : VcpWorld.Follows node ⟨db, some vcp⟩)
    (answers : node.AnswersPoll ⟨db, some vcp⟩ poll) {after : VcpState}
    {checkpoint : Option CheckpointBlock} {final : Db} {rest : Script}
    (ran : Session.run
      (pollVirtualChain cliArgs { vcp with tipDistance := poll.tipDistance } poll.input)
      db poll.script = .done (after, checkpoint) final rest) :
    VcpWorld.Follows node ⟨final, some after⟩ := by
  obtain ⟨_, _, ranUp⟩ := strict_pollVirtualChain cliArgs _ poll.input _ _ _ _ _ ran
    (fun _ => .succeeds) fun _ => rfl
  let executed : VcpPoll := { poll with script := fun _ => .succeeds }
  have polled : (VcpWorld.poll cliArgs ⟨db, some vcp⟩ executed).Follows node :=
    follows.poll enabled (fun _ => rfl) answers
  simp only [VcpWorld.poll, executed, ranUp] at polled
  exact polled

/-- The executed deletes of a batch spare the chain of a checkpoint they do not
name: they run from the end of the chain down. -/
theorem notMem_deletedBlocks {earlier later common removed : List Hash} {script : Script}
    (isPath : node.tree.IsPath (earlier ++ later)) (split : earlier ++ later = common ++ removed)
    (spares : node.tree.tip earlier ∉
      deletedBlocks cliArgs.batchScale script removed.reverse) :
    ∀ block ∈ earlier, block ∉ deletedBlocks cliArgs.batchScale script removed.reverse := by
  intro block blockMem inDeleted
  obtain ⟨kept, keptEq⟩ := deletedBlocks_prefix cliArgs.batchScale script removed.reverse
  generalize deletedBlocks cliArgs.batchScale script removed.reverse = deleted
    at spares inDeleted keptEq
  -- Newest first, the chain is the deleted blocks followed by the others.
  have reversed : later.reverse ++ earlier.reverse = deleted ++ (kept ++ common.reverse) := by
    rw [← List.reverse_append, split, List.reverse_append, ← keptEq, List.append_assoc]
  have notLater : block ∉ later := fun inLater =>
    List.disjoint_of_nodup_append isPath.nodup blockMem inLater
  rcases List.append_eq_append_iff.mp reversed with ⟨middle, deletedEq, earlierEq⟩ |
    ⟨middle, laterEq, _⟩
  · cases earlier using List.reverseRecOn with
    | nil => contradiction
    | append_singleton init last =>
        rw [BlockTree.tip_concat] at spares
        rw [List.reverse_append, List.reverse_singleton, List.singleton_append] at earlierEq
        cases middle with
        | nil =>
            rw [List.append_nil] at deletedEq
            rw [deletedEq] at inDeleted
            exact notLater (List.mem_reverse.mp inDeleted)
        | cons newest older =>
            rw [List.cons_append, List.cons.injEq] at earlierEq
            apply spares
            rw [deletedEq, earlierEq.1]
            exact List.mem_append_right _ List.mem_cons_self
  · apply notLater
    rw [← List.mem_reverse, laterEq]
    exact List.mem_append_left middle inDeleted

/-- A chain part that ends before the removed blocks lies before the fork. -/
theorem exists_common_eq_append {earlier later common removed : List Hash}
    (split : earlier ++ later = common ++ removed)
    (spares : node.tree.tip earlier ∉ removed) : ∃ rest, common = earlier ++ rest := by
  rcases List.append_eq_append_iff.mp split with
    ⟨middle, commonEq, _⟩ | ⟨middle, earlierEq, removedEq⟩
  · exact ⟨middle, commonEq⟩
  · cases middle using List.reverseRecOn with
    | nil => exact ⟨[], by rw [earlierEq, List.append_nil, List.append_nil]⟩
    | append_singleton init last =>
        rw [← List.append_assoc] at earlierEq
        rw [earlierEq, BlockTree.tip_concat, removedEq] at spares
        simp at spares

/-- Whatever statements of a batch are executed, the table stays anchored at a
checkpoint on the chain that no executed delete names. -/
theorem anchored_state_commitBatch
    (enabled : cliArgs.isDisabled .transactionAcceptance = false)
    {earlier later common removed added : List Hash}
    (isPath : node.tree.IsPath (earlier ++ later)) (split : earlier ++ later = common ++ removed)
    (currentPath : node.tree.IsPath (common ++ added))
    (follows : node.Follows (earlier ++ later) db.transactionsAcceptances)
    (imported : node.ImportedBelow db.transactionsAcceptances) {script : Script}
    (spares : node.tree.tip earlier ∉
      deletedBlocks cliArgs.batchScale script removed.reverse)
    (completion : Reordering (List TransactionAcceptance)) (count : ℕ) :
    node.Anchored past (node.tree.tip earlier) (Session.run
      (commitBatch cliArgs completion removed.reverse (added.take count)
        ((node.acceptedIds added).take count)) db script).state.transactionsAcceptances := by
  obtain ⟨acceptances, stateEq, kept, sound⟩ := state_commitBatch enabled completion
    removed.reverse (added.take count) ((node.acceptedIds added).take count) db script
  have spared := notMem_deletedBlocks isPath split spares
  have ids : (node.acceptedIds added).take count = node.acceptedIds (added.take count) := by
    rw [ChainNode.acceptedIds, ChainNode.acceptedIds, List.map_take]
  rw [stateEq]
  simp only [ids, node.mem_acceptanceRows_acceptedIds] at sound
  apply ChainNode.anchored_of_chains isPath.of_append
  · intro row rowMem noBlock
    rcases sound row rowMem with ⟨old, _⟩ | ⟨_, new⟩
    · exact imported row old noBlock
    · obtain ⟨block, _, rowBlock⟩ := new.blockHash
      rw [noBlock] at rowBlock
      contradiction
  · rintro row ⟨block, blockMem, transactionId, accepted, rfl⟩
    have stored := (follows _).mpr
      ⟨block, List.mem_append_left later blockMem, transactionId, accepted, rfl⟩
    apply kept _ stored.1
    rintro hash ⟨⟩
    exact spared block blockMem
  · intro row rowMem hasBlock
    rcases sound row rowMem with ⟨old, _⟩ | ⟨allDeleted, new⟩
    · exact ⟨later, isPath, (follows row).mp ⟨old, hasBlock⟩⟩
    · rw [allDeleted, List.mem_reverse] at spares
      obtain ⟨rest, rfl⟩ := exists_common_eq_append split spares
      have truncated : node.tree.IsPath (earlier ++ (rest ++ added.take count)) := by
        rw [← List.take_append_drop count added, ← List.append_assoc] at currentPath
        rw [← List.append_assoc]
        exact currentPath.of_append
      obtain ⟨block, blockMem, accepted⟩ := new
      exact ⟨_, truncated, block,
        List.mem_append_right earlier (List.mem_append_right rest blockMem), accepted⟩

/-- Whatever statements of a poll are executed, the table stays anchored at a
checkpoint on its chain that no executed delete names. -/
theorem anchored_state_poll
    (enabled : cliArgs.isDisabled .transactionAcceptance = false)
    (follows : VcpWorld.Follows node ⟨db, some vcp⟩)
    (answers : node.AnswersPoll ⟨db, some vcp⟩ poll) {checkpoint : Hash}
    (through : node.ChainThrough vcp.startHash checkpoint)
    (spares : ∀ response, poll.input.response = some response → checkpoint ∉
      deletedBlocks cliArgs.batchScale poll.script response.removedChainBlockHashes) :
    node.Anchored past checkpoint (Session.run
      (pollVirtualChain cliArgs { vcp with tipDistance := poll.tipDistance } poll.input)
      db poll.script).state.transactionsAcceptances := by
  obtain ⟨_, path, running, isPath, tipEq, pathFollows, imported⟩ := follows
  cases running
  obtain ⟨earlier, later, throughPath, throughTip, rfl⟩ := through
  have pathEq : path = earlier ++ later :=
    isPath.eq_of_tip_eq throughPath (tipEq.trans throughTip.symm)
  subst pathEq
  have unchanged : node.Anchored past (node.tree.tip earlier) db.transactionsAcceptances :=
    pathFollows.anchored isPath imported
  unfold pollVirtualChain
  cases responseEq : poll.input.response with
  | none => exact unchanged
  | some response =>
      simp only
      rw [Session.state_bind (by exact fun _ _ _ => rfl), pollResponse]
      split
      · rename_i enough
        obtain ⟨current, currentPath, common, removed, added, forks, rfl⟩ :=
          answers.2 vcp response (earlier ++ later) rfl responseEq isPath tipEq
        obtain ⟨startEq, rfl, _⟩ := forks
        unfold pollBatch
        simp only
        split
        · exact unchanged
        · split_ifs
          · exact unchanged
          · rename_i missing
            rw [ChainNode.acceptedIds, List.length_map] at missing
            omega
          · rw [Session.state_bind (by exact fun _ _ _ => rfl)]
            exact anchored_state_commitBatch enabled isPath startEq currentPath pathFollows
              imported (spares _ responseEq) _ _
      · exact unchanged

end Cut

end VecnoIndexer
