import VecnoIndexer.VirtualChain.Acceptances

/-!
# Runs of polls

A poll moves the table from the chain of its start to the chain of the next one,
whatever the fork, the tip distance, the sizes and the completion order of the
statements; a poll with too few added blocks moves neither.
-/

namespace VecnoIndexer

open VecnoIndexer.Sql
open VecnoIndexer.Collections
open VecnoIndexer.Chain
open VecnoIndexer.Transition

/-- The database and, while the process is alive, the processor. -/
structure VcpWorld where
  db : Db
  vcp : Option VcpState

/-- What one poll meets. The tip distance is given anew at each poll, so that
every value it may have adapted to is covered. -/
structure VcpPoll where
  tipDistance : ℕ
  input : VcpInput
  script : Script

/-- The world a poll leaves: a process that does not end it is dead. -/
def VcpWorld.ofExec : Exec SqlError Db (VcpState × Option CheckpointBlock) → VcpWorld
  | .done (vcp, _) db _ => ⟨db, some vcp⟩
  | .failed _ db _ => ⟨db, none⟩
  | .killed db => ⟨db, none⟩

def VcpWorld.poll (cliArgs : CliArgs) (world : VcpWorld) (poll : VcpPoll) : VcpWorld :=
  match world.vcp with
  | none => world
  | some vcp =>
      .ofExec (Session.run
        (pollVirtualChain cliArgs { vcp with tipDistance := poll.tipDistance } poll.input)
        world.db poll.script)

/-- The processor is alive, and the database is that of the selected chain that ends
at the start of the next poll. -/
def VcpWorld.AtChain (tree : BlockTree Hash) (holds : List Hash → Db → Prop)
    (world : VcpWorld) : Prop :=
  ∃ vcp path, world.vcp = some vcp ∧ tree.IsPath path ∧ tree.tip path = vcp.startHash ∧
    holds path world.db

/-- The rows with a block are those of the selected chain that ends at the start
of the next poll. -/
def VcpWorld.Follows (node : ChainNode) (world : VcpWorld) : Prop :=
  ∃ vcp path, world.vcp = some vcp ∧ node.tree.IsPath path ∧
    node.tree.tip path = vcp.startHash ∧
    node.Follows path world.db.transactionsAcceptances ∧
    node.ImportedBelow world.db.transactionsAcceptances

/-- The node answers `get_block`, and it answers from the start of the poll for
some chain it then has, if at all. -/
def ChainNode.AnswersPoll (node : ChainNode) (world : VcpWorld) (poll : VcpPoll) : Prop :=
  (∀ block, ∃ header, poll.input.getBlock block = some header ∧ header.hash = block) ∧
    ∀ vcp response start, world.vcp = some vcp → poll.input.response = some response →
      node.tree.IsPath start → node.tree.tip start = vcp.startHash →
      ∃ current, node.tree.IsPath current ∧ node.Answers start current response

section Poll

variable {node : ChainNode} {cliArgs : CliArgs} {db : Db}

/-- A batch replaces the acceptances of the removed blocks by those of the added
ones. -/
theorem completes_commitBatch
    (enabled : cliArgs.isDisabled .transactionAcceptance = false)
    (completion : Reordering (List TransactionAcceptance))
    {common removed added : List Hash} (startPath : node.tree.IsPath (common ++ removed))
    (nextPath : node.tree.IsPath (common ++ added))
    (follows : node.Follows (common ++ removed) db.transactionsAcceptances)
    (imported : node.ImportedBelow db.transactionsAcceptances) :
    ∃ count acceptances,
      (commitBatch cliArgs completion removed.reverse added (node.acceptedIds added)).Completes
        db count (db.withAcceptances acceptances) ∧
      node.Follows (common ++ added) acceptances ∧ node.ImportedBelow acceptances := by
  obtain ⟨count, remaining, deletes, mem_remaining⟩ :=
    deletesBlocks_removeChainBlocks cliArgs.batchScale removed.reverse db
  simp only [List.mem_reverse] at mem_remaining
  have commonFollows := follows.delete startPath rfl mem_remaining
  have commonImported := imported.delete fun row rowMem => ((mem_remaining row).mp rowMem).1
  let pieces := acceptancePieces cliArgs.batchScale completion (node.acceptedIds added)
  obtain ⟨_, inserts⟩ := completes_forPieces_insert pieces (db.withAcceptances remaining)
  have mem_rows (row : TransactionAcceptance) :
      row ∈ pieces.flatten ↔ node.AcceptedBy added row :=
    (flatten_acceptancePieces_perm _ _ _).mem_iff.trans node.mem_acceptanceRows_acceptedIds
  refine ⟨count, remaining.insertAll pieces.flatten, ?_,
    commonFollows.insert nextPath commonImported mem_rows⟩
  apply deletes.bind
  rw [enabled]
  exact inserts.bind (Session.completes_pure count _)

/-- A poll with enough added blocks moves the start to the end of the batch, and
what is said of a chain with it, if the batch commits so. -/
theorem completes_pollBatch_of {tree : BlockTree Hash} {holds : List Hash → Db → Prop}
    (vcp : VcpState) {input : VcpInput} {common removed added : List Hash}
    {accepted : List AcceptedTransactionIds}
    (startPath : tree.IsPath (common ++ removed)) (currentPath : tree.IsPath (common ++ added))
    (startTip : tree.tip (common ++ removed) = vcp.startHash)
    (held : holds (common ++ removed) db)
    (ids : cliArgs.isDisabled .transactionAcceptance = false → added.length ≤ accepted.length)
    (headers : ∀ block, ∃ header, input.getBlock block = some header ∧ header.hash = block)
    (commits : ∀ count, tree.IsPath (common ++ added.take count) → ∃ rowsRemoved final,
      (commitBatch cliArgs input.completion removed.reverse (added.take count)
        (accepted.take count)).Completes db rowsRemoved final ∧
      holds (common ++ added.take count) final)
    (enough : vcp.tipDistance < added.length) :
    ∃ after checkpoint path final,
      (pollBatch cliArgs vcp input ⟨removed.reverse, added, accepted⟩).Completes db
        (after, checkpoint) final ∧
      tree.IsPath path ∧ tree.tip path = after.startHash ∧ holds path final := by
  obtain ⟨count, countEq⟩ : ∃ count, count = added.length - vcp.tipDistance := ⟨_, rfl⟩
  have nonempty : added.take count ≠ [] := by
    intro empty
    have lengths := congrArg List.length empty
    rw [List.length_take, List.length_nil] at lengths
    omega
  obtain ⟨header, headerEq, headerHash⟩ := headers ((added.take count).getLast nonempty)
  have last : (added.take count).getLast?.bind input.getBlock = some header := by
    rw [List.getLast?_eq_getLast_of_ne_nil nonempty]
    exact headerEq
  by_cases shutdown : input.shutdown = true
  · refine ⟨vcp, none, common ++ removed, db, ?_, startPath, startTip, held⟩
    simp only [pollBatch, ← countEq, last, shutdown, if_true]
    exact Session.completes_pure _ _
  · have truncated : tree.IsPath (common ++ added.take count) := by
      rw [← List.take_append_drop count added, ← List.append_assoc] at currentPath
      exact currentPath.of_append
    obtain ⟨rowsRemoved, final, committed, nextHeld⟩ := commits count truncated
    refine ⟨{ vcp.adjustTipDistance cliArgs rowsRemoved with startHash := header.hash },
      some (vcpCheckpoint header), common ++ added.take count, final, ?_, truncated, ?_,
      nextHeld⟩
    · have enoughIds : ¬ (cliArgs.isDisabled .transactionAcceptance = false ∧
          accepted.length < count) := by
        rintro ⟨isEnabled, short⟩
        have covered := ids isEnabled
        omega
      simp only [pollBatch, ← countEq, last, shutdown, Bool.false_eq_true, if_false]
      rw [if_neg enoughIds]
      exact committed.bind (Session.completes_pure _ _)
    · rw [headerHash]
      simp [BlockTree.tip, nonempty]

/-- A poll with enough added blocks commits a batch and moves the start to the
end of it. -/
theorem completes_pollBatch (vcp : VcpState) {input : VcpInput} {response : VirtualChain}
    {start current : List Hash}
    (enabled : cliArgs.isDisabled .transactionAcceptance = false)
    (startPath : node.tree.IsPath start) (currentPath : node.tree.IsPath current)
    (startTip : node.tree.tip start = vcp.startHash)
    (follows : node.Follows start db.transactionsAcceptances)
    (imported : node.ImportedBelow db.transactionsAcceptances)
    (answers : node.Answers start current response)
    (headers : ∀ block, ∃ header, input.getBlock block = some header ∧ header.hash = block)
    (enough : vcp.tipDistance < response.addedChainBlockHashes.length) :
    ∃ after checkpoint path final,
      (pollBatch cliArgs vcp input response).Completes db (after, checkpoint) final ∧
      node.tree.IsPath path ∧ node.tree.tip path = after.startHash ∧
      node.Follows path final.transactionsAcceptances ∧
      node.ImportedBelow final.transactionsAcceptances := by
  obtain ⟨common, removed, added, forks, rfl⟩ := answers
  obtain ⟨rfl, rfl, _⟩ := forks
  apply completes_pollBatch_of vcp startPath currentPath startTip ⟨follows, imported⟩
    (by simp [ChainNode.acceptedIds]) headers _ enough
  intro count truncated
  have ids : (node.acceptedIds added).take count = node.acceptedIds (added.take count) := by
    rw [ChainNode.acceptedIds, ChainNode.acceptedIds, List.map_take]
  obtain ⟨rowsRemoved, acceptances, committed, next⟩ :=
    completes_commitBatch enabled input.completion startPath truncated follows imported
  rw [ids]
  exact ⟨rowsRemoved, db.withAcceptances acceptances, committed, next⟩

/-- A poll keeps what is said of the chain if its batch does. -/
theorem VcpWorld.AtChain.poll {tree : BlockTree Hash} {holds : List Hash → Db → Prop}
    {world : VcpWorld} {poll : VcpPoll} (atChain : world.AtChain tree holds)
    (up : poll.script.Up)
    (batch : ∀ vcp path response, world.vcp = some vcp → tree.IsPath path →
      tree.tip path = vcp.startHash → holds path world.db →
      poll.input.response = some response →
      poll.tipDistance < response.addedChainBlockHashes.length →
      ∃ after checkpoint next final,
        (pollBatch cliArgs { vcp with tipDistance := poll.tipDistance } poll.input
          response).Completes world.db (after, checkpoint) final ∧
        tree.IsPath next ∧ tree.tip next = after.startHash ∧ holds next final) :
    (world.poll cliArgs poll).AtChain tree holds := by
  obtain ⟨vcp, path, running, isPath, tipEq, held⟩ := atChain
  simp only [VcpWorld.poll, running]
  cases response : poll.input.response with
  | none =>
      simp only [pollVirtualChain, response, Session.run_pure]
      exact ⟨_, path, rfl, isPath, tipEq, held⟩
  | some chain =>
      simp only [pollVirtualChain, response, pollResponse]
      split
      · rename_i enough
        obtain ⟨after, checkpoint, next, final, completes, moved⟩ :=
          batch vcp path chain running isPath tipEq held response enough
        obtain ⟨rest, _, ran⟩ := completes poll.script up
        rw [Session.run_bind_of_done ran]
        exact ⟨_, next, rfl, moved⟩
      · exact ⟨_, path, rfl, isPath, tipEq, held⟩

/-- The step lemma. -/
theorem VcpWorld.Follows.poll {world : VcpWorld} {poll : VcpPoll}
    (enabled : cliArgs.isDisabled .transactionAcceptance = false)
    (follows : world.Follows node) (up : poll.script.Up)
    (answers : node.AnswersPoll world poll) : (world.poll cliArgs poll).Follows node := by
  obtain ⟨headers, answered⟩ := answers
  have atChain : world.AtChain node.tree fun path db =>
      node.Follows path db.transactionsAcceptances ∧
        node.ImportedBelow db.transactionsAcceptances := follows
  apply atChain.poll up
  rintro vcp path response running isPath tipEq ⟨pathFollows, imported⟩ responseEq enough
  obtain ⟨current, currentPath, answer⟩ :=
    answered vcp response path running responseEq isPath tipEq
  exact completes_pollBatch { vcp with tipDistance := poll.tipDistance } enabled isPath
    currentPath tipEq pathFollows imported answer headers enough

/-- In every run whose statements are all executed, the acceptance table follows the virtual
chain. -/
theorem follows_of_run {world : VcpWorld} {polls : List VcpPoll}
    (enabled : cliArgs.isDisabled .transactionAcceptance = false)
    (follows : world.Follows node)
    (answers : Along (VcpWorld.poll cliArgs)
      (fun middle poll => poll.script.Up ∧ node.AnswersPoll middle poll) world polls) :
    (runFrom (VcpWorld.poll cliArgs) world polls).Follows node :=
  invariant_of_along (fun _ _ held answered => held.poll enabled answered.1 answered.2)
    follows answers

end Poll

/-! ## A fork -/

/-- Blocks 2 and 4 continue the base 1, block 3 continues block 2, and block 5
block 3. -/
def forkTree : BlockTree Hash where
  parent block :=
    if block = 2 ∨ block = 4 then some 1 else if block = 3 then some 2
    else if block = 5 then some 3 else none
  base := 1
  base_parent := by decide

theorem forkTree_parent {block parent : Hash} (parentEq : forkTree.parent block = some parent) :
    (block, parent) ∈ [(2, 1), (4, 1), (3, 2), ((5, 3) : Hash × Hash)] := by
  simp only [forkTree] at parentEq
  split_ifs at parentEq with first second third
  · cases parentEq
    rcases first with rfl | rfl <;> decide
  · subst second
    cases parentEq
    decide
  · subst third
    cases parentEq
    decide

def forkAccepts (block : Hash) : List Hash :=
  if block = 2 then [10] else if block = 3 then [11] else if block = 4 then [12]
  else if block = 5 then [13] else []

theorem mem_forkAccepts_iff {block transactionId : Hash} :
    transactionId ∈ forkAccepts block ↔
      (block = 2 ∧ transactionId = 10) ∨ (block = 3 ∧ transactionId = 11) ∨
        (block = 4 ∧ transactionId = 12) ∨ (block = 5 ∧ transactionId = 13) := by
  unfold forkAccepts
  split_ifs with two three four five
  · simp [two]
  · simp [three]
  · simp [four]
  · simp [five]
  · simp only [two, three, four, five, false_and, or_false, List.not_mem_nil]

/-- No transaction is accepted by two of the blocks. -/
def forkNode : ChainNode where
  tree := forkTree
  accepts := forkAccepts
  acceptedOnce := by
    intro path _ transactionId first second _ _ firstAccepts secondAccepts
    rw [mem_forkAccepts_iff] at firstAccepts secondAccepts
    rcases firstAccepts with ⟨rfl, rfl⟩ | ⟨rfl, rfl⟩ | ⟨rfl, rfl⟩ | ⟨rfl, rfl⟩ <;>
      simpa [eq_comm] using secondAccepts

/-- The table after blocks 2 and 3, with an imported transaction. -/
def forkRows : List TransactionAcceptance :=
  [⟨some 9, none⟩, ⟨some 10, some 2⟩, ⟨some 11, some 3⟩]

def forkWorld : VcpWorld where
  db := { Db.empty with transactionsAcceptances := Table.empty.insertAll forkRows }
  vcp := some ⟨3, true, 0, []⟩

theorem forkWorld_follows : forkWorld.Follows forkNode := by
  have rows : forkWorld.db.transactionsAcceptances.rows = forkRows := by decide
  refine ⟨⟨3, true, 0, []⟩, [2, 3], rfl, ?_, by decide, ?_, ?_⟩
  · unfold BlockTree.IsPath
    decide
  · rintro ⟨transactionId, blockHash⟩
    rw [Table.mem_def, rows]
    constructor
    · rintro ⟨rowMem, hasBlock⟩
      simp only [forkRows, List.mem_cons, List.not_mem_nil, or_false,
        TransactionAcceptance.mk.injEq] at rowMem
      rcases rowMem with ⟨rfl, rfl⟩ | ⟨rfl, rfl⟩ | ⟨rfl, rfl⟩
      · contradiction
      · exact ⟨2, by decide, 10, by decide, rfl⟩
      · exact ⟨3, by decide, 11, by decide, rfl⟩
    · rintro ⟨block, blockMem, accepted, acceptedMem, rowEq⟩
      cases rowEq
      change accepted ∈ forkAccepts block at acceptedMem
      rw [mem_forkAccepts_iff] at acceptedMem
      rcases acceptedMem with ⟨rfl, rfl⟩ | ⟨rfl, rfl⟩ | ⟨rfl, rfl⟩ | ⟨rfl, rfl⟩
      · decide
      · decide
      · exact absurd blockMem (by decide)
      · exact absurd blockMem (by decide)
  · intro row rowMem noBlock transactionId rowId block _ accepted
    change transactionId ∈ forkAccepts block at accepted
    rw [mem_forkAccepts_iff] at accepted
    rw [Table.mem_def, rows] at rowMem
    simp only [forkRows, List.mem_cons, List.not_mem_nil, or_false] at rowMem
    rcases rowMem with rfl | rfl | rfl
    · cases rowId
      revert accepted
      simp
    · contradiction
    · contradiction

/-- The chain moves from block 3 to block 4. -/
def forkPoll : VcpPoll where
  tipDistance := 0
  input := {
    response := some ⟨[3, 2], [4], [⟨4, [12]⟩]⟩
    getBlock := fun hash => some ⟨hash, 0, 0, 0⟩
    shutdown := false
    completion := .listed }
  script := fun _ => .succeeds

theorem forkPoll_answers : forkNode.AnswersPoll forkWorld forkPoll := by
  refine ⟨fun block => ⟨⟨block, 0, 0, 0⟩, rfl, rfl⟩, ?_⟩
  rintro vcp response start ⟨⟩ ⟨⟩ startPath startTip
  have startEq : start = [2, 3] :=
    startPath.eq_of_tip_eq (by unfold BlockTree.IsPath; decide) startTip
  subst startEq
  refine ⟨[4], by unfold BlockTree.IsPath; decide, [], [2, 3], [4], ⟨rfl, rfl, ?_⟩, rfl⟩
  rintro block ⟨⟩
  decide

theorem forkWorld_poll_follows :
    (runFrom (VcpWorld.poll .standard) forkWorld [forkPoll]).Follows forkNode :=
  follows_of_run rfl forkWorld_follows ⟨⟨fun _ => rfl, forkPoll_answers⟩, trivial⟩

end VecnoIndexer
