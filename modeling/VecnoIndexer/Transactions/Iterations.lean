import VecnoIndexer.Sql.Triples
import VecnoIndexer.Transactions.Resolution

/-!
# However an iteration ends

What the transaction processor leaves when an iteration returns, when a statement fails
and when the process dies between two statements.  A batch leaves no rows but its own,
and what holds after each transaction taken and after each commit holds after every
iteration.
-/

namespace VecnoIndexer

open VecnoIndexer.Sql
open VecnoIndexer.Collections
open VecnoIndexer.Transition

/-! ## The rows a batch may leave -/

/-- The rows stored are those stored before or those of the batch, some of them resolved. -/
structure FromBatch (loop : TransactionLoop) (db after : Db) : Prop where
  grows : Grows db after
  subnetworks : after.subnetworks = db.subnetworks
  subnetworksNextId : after.subnetworksNextId = db.subnetworksNextId
  transactions : ∀ row ∈ after.transactions, row ∈ db.transactions ∨ row ∈ loop.transactions
  inputs : ∀ row ∈ after.transactionsInputs, row ∈ db.transactionsInputs ∨
    ∃ held ∈ loop.txInputs, held.apartFromTime = row.apartFromTime
  outputs : ∀ row ∈ after.transactionsOutputs, row ∈ db.transactionsOutputs ∨ row ∈ loop.txOutputs

namespace FromBatch

variable {loop : TransactionLoop} {db middle after : Db}

theorem refl (loop : TransactionLoop) (db : Db) : FromBatch loop db db where
  grows := .refl db
  subnetworks := rfl
  subnetworksNextId := rfl
  transactions _ := Or.inl
  inputs _ := Or.inl
  outputs _ := Or.inl

/-- One more statement of the batch. -/
theorem leaves (fromBatch : FromBatch loop db middle) {cliArgs : CliArgs}
    {txInputs : List TransactionInput} {insert : InsertStatement}
    (ofBatch : TransactionLoop.BatchInsert cliArgs loop txInputs insert)
    (resolved : ∀ row ∈ txInputs, ∃ held ∈ loop.txInputs, held.apartFromTime = row.apartFromTime)
    (leaves : InsertStatement.Leaves middle after insert) : FromBatch loop db after where
  grows := fromBatch.grows.trans leaves.grows
  subnetworks := leaves.sameOthers.subnetworks.trans fromBatch.subnetworks
  subnetworksNextId := leaves.sameOthers.subnetworksNextId.trans fromBatch.subnetworksNextId
  transactions row stored := by
    cases ofBatch with
    | transactions enabled rows pending =>
        cases leaves
        exact (Table.mem_or_mem_of_mem_insertAll stored).elim (fromBatch.transactions row)
          fun given => Or.inr (pending row given)
    | addressesFromInputs useTx transactionIds =>
        obtain ⟨_, _, rfl⟩ := leaves
        exact fromBatch.transactions row stored
    | scriptsFromInputs useTx transactionIds =>
        obtain ⟨_, _, rfl⟩ := leaves
        exact fromBatch.transactions row stored
    | _ =>
        cases leaves
        exact fromBatch.transactions row stored
  inputs row stored := by
    rcases leaves.input_cases stored with before | ⟨resolve, rows, rfl, given, isGiven, rfl⟩
    · exact fromBatch.inputs row before
    · cases ofBatch with
      | inputs enabled _ _ pending =>
          obtain ⟨held, isHeld, same⟩ := resolved given (pending given isGiven)
          refine Or.inr ⟨held, isHeld, ?_⟩
          cases resolve with
          | false => exact same
          | true => exact same.trans (FilledTable.apartFromTime_resolveInput middle given).symm
  outputs row stored := by
    cases ofBatch with
    | outputs enabled rows pending =>
        cases leaves
        exact (Table.mem_or_mem_of_mem_insertAll stored).elim (fromBatch.outputs row)
          fun given => Or.inr (pending row given)
    | addressesFromInputs useTx transactionIds =>
        obtain ⟨_, _, rfl⟩ := leaves
        exact fromBatch.outputs row stored
    | scriptsFromInputs useTx transactionIds =>
        obtain ⟨_, _, rfl⟩ := leaves
        exact fromBatch.outputs row stored
    | _ =>
        cases leaves
        exact fromBatch.outputs row stored

end FromBatch

/-- Statements executed one after another keep what each of them keeps. -/
theorem InsertStatement.keeps_executeAll {property : Db → Prop} {inserts : List InsertStatement}
    (leaves : ∀ insert ∈ inserts, ∀ db after, Leaves db after insert → property db →
      property after) : (executeAll inserts).Keeps property := by
  induction inserts with
  | nil => exact Session.keeps_pure _ _
  | cons insert later ih =>
      have first : insert.execute.Keeps property :=
        Session.keeps_statement fun db _ after holds executed =>
          leaves insert List.mem_cons_self db after (leaves_of_effect executed) holds
      refine first.unwrap.bind fun _ => (ih fun other member => ?_).bind fun _ =>
        Session.keeps_pure _ _
      exact leaves other (List.mem_cons_of_mem insert member)

namespace TransactionLoop

/-- A batch keeps what its statements keep, at whatever statement it ends. -/
theorem keeps_insertBatch_of_leaves {property : Db → Prop} (cliArgs : CliArgs)
    (loop : TransactionLoop) (input : TransactionsInput)
    (leaves : ∀ insert, BatchInsert cliArgs loop ((loop.resolvedInputs cliArgs).getD []) insert →
      ∀ db after, InsertStatement.Leaves db after insert → property db → property after) :
    (loop.insertBatch cliArgs input).Keeps property := by
  unfold insertBatch
  cases resolved : loop.resolvedInputs cliArgs with
  | none =>
      rw [resolved, Option.getD_none] at leaves
      refine Session.Keeps.bind (InsertStatement.keeps_executeAll fun insert member =>
        leaves insert (batchInsert_of_mem ?_)) fun _ => Session.keeps_die _
      rw [Reordering.mem_order] at member
      simp only [batchInserts, firstInserts, List.append_assoc]
      rcases List.mem_append.mp member with isTransactions | isAddresses
      · exact List.mem_append_left _ isTransactions
      · exact List.mem_append_right _ (List.mem_append_left _ isAddresses)
  | some txInputs =>
      rw [resolved, Option.getD_some] at leaves
      refine Session.Keeps.bind (InsertStatement.keeps_executeAll fun insert member =>
        leaves insert (batchInsert_of_mem ?_)) fun _ => Session.Keeps.bind
          (InsertStatement.keeps_executeAll fun insert member =>
            leaves insert (batchInsert_of_mem ?_)) fun _ => Session.keeps_pure _ _
      · exact List.mem_append_left _ ((Reordering.mem_order _).mp member)
      · exact List.mem_append_right _ ((Reordering.mem_order _).mp member)

/-- A batch leaves no rows but its own, at whatever statement it ends. -/
theorem keeps_insertBatch (cliArgs : CliArgs) (loop : TransactionLoop)
    (input : TransactionsInput) (db : Db) :
    (loop.insertBatch cliArgs input).Keeps (FromBatch loop db) := by
  refine keeps_insertBatch_of_leaves cliArgs loop input fun insert ofBatch middle after leaves
    fromBatch => fromBatch.leaves ofBatch ?_ leaves
  cases resolved : loop.resolvedInputs cliArgs with
  | none => exact fun _ isInput => absurd isInput List.not_mem_nil
  | some txInputs => exact (matches_resolvedInputs resolved).onto

end TransactionLoop

/-! ## Taking a transaction -/

/-- Asking for the key of a subnetwork leaves the other tables as they are. -/
theorem keeps_subnetworkKey {property : Db → Prop}
    (frame : ∀ db numbering, property db → property (Db.withNumbering db numbering))
    (subnetworkMap : SubnetworkMap) (subnetworkId : String) :
    (subnetworkKey subnetworkMap subnetworkId).Keeps property := by
  unfold subnetworkKey
  split
  · exact Session.keeps_pure _ _
  · refine Session.Keeps.bind (Session.Keeps.unwrap ?_) fun _ => Session.keeps_pure _ _
    refine Session.Keeps.bind (Session.keeps_statement ?_) fun returned => ?_
    · intro db returned after holds executed
      split_ifs at executed
      cases executed
      exact frame db ⟨subnetworkMap, _, _⟩ holds
    · cases returned with
      | some id => exact Session.keeps_pure _ _
      | none => exact Session.keeps_fail _ _

namespace TransactionLoop

theorem keeps_receiveTransaction {property : Db → Prop}
    (frame : ∀ db numbering, property db → property (Db.withNumbering db numbering))
    (cliArgs : CliArgs) (loop : TransactionLoop) (forgotten : Hash → Bool)
    (transaction : RpcTransaction) :
    (loop.receiveTransaction cliArgs forgotten transaction).Keeps property := by
  refine Session.Keeps.bind (keeps_subnetworkKey frame _ _) fun ⟨key, subnetworkMap⟩ => ?_
  simp only
  split
  · exact Session.keeps_pure _ _
  · exact Session.keeps_die _

/-! ## The rule for iterations -/

/-- `holds` is kept by what an iteration consists of, and `left` is what is left of it if the
process ends. The transactions popped are `given`. -/
structure IterationInvariant (cliArgs : CliArgs) (given : RpcTransaction → Prop)
    (holds : TransactionLoop → Db → Prop) (left : Db → Prop) : Prop where
  leaves : ∀ loop db, holds loop db → left db
  notes : ∀ loop db checkpointBlocks, holds loop db →
    holds { loop with checkpointBlocks := checkpointBlocks } db
  receives : ∀ (loop : TransactionLoop) (forgotten : Hash → Bool) (transaction : RpcTransaction),
    given transaction →
      (loop.receiveTransaction cliArgs forgotten transaction).Ensures (holds loop) holds left
  commits : ∀ (loop : TransactionLoop) (input : TransactionsInput),
    (loop.insertBatch cliArgs input).Ensures (holds loop)
      (fun _ => holds (loop.cleared input.commitNow)) left

namespace IterationInvariant

variable {cliArgs : CliArgs} {given : RpcTransaction → Prop} {holds : TransactionLoop → Db → Prop}
  {left : Db → Prop}

theorem receiveAll (invariant : IterationInvariant cliArgs given holds left)
    (loop : TransactionLoop) (forgotten : ℕ → Hash → Bool) {transactions : List RpcTransaction}
    (popped : ∀ transaction ∈ transactions, given transaction) :
    (loop.receiveAll cliArgs forgotten transactions).Ensures (holds loop) holds left := by
  induction transactions generalizing loop forgotten with
  | nil => exact Session.ensures_pure (fun _ => id) (invariant.leaves loop)
  | cons transaction later ih =>
      refine (invariant.receives loop _ transaction (popped _ List.mem_cons_self)).bind
        fun received => ?_
      exact ih received _ fun other among => popped other (List.mem_cons_of_mem transaction among)

theorem receive (invariant : IterationInvariant cliArgs given holds left) (loop : TransactionLoop)
    (forgotten : ℕ → Hash → Bool) {data : TransactionData}
    (popped : ∀ transaction ∈ data.transactions, given transaction) :
    (loop.receive cliArgs forgotten data).Ensures (holds loop) holds left :=
  (invariant.receiveAll _ forgotten popped).mono (fun db => invariant.notes loop db _)
    (fun _ _ => id) fun _ => id

theorem commit (invariant : IterationInvariant cliArgs given holds left) (loop : TransactionLoop)
    (input : TransactionsInput) :
    (loop.commit cliArgs input).Ensures (holds loop) holds left := by
  refine (invariant.commits loop input).bind fun _ => ?_
  split_ifs
  · exact Session.ensures_pure (fun _ => id) (invariant.leaves _)
  · exact Session.ensures_die (invariant.leaves _)

/-- What is kept by taking a transaction and by committing a batch is kept by an iteration,
however it ends. -/
theorem iterate (invariant : IterationInvariant cliArgs given holds left) (loop : TransactionLoop)
    (input : TransactionsInput)
    (popped : ∀ data, input.popped = some data → ∀ transaction ∈ data.transactions,
      given transaction) :
    (loop.iterate cliArgs input).Ensures (holds loop) (fun result => holds result.1) left := by
  unfold TransactionLoop.iterate
  split
  · exact Session.ensures_pure (fun _ => id) (invariant.leaves loop)
  · rename_i data isPopped
    refine (invariant.receive loop input.forgotten (popped data isPopped)).bind fun received => ?_
    split_ifs
    · refine (invariant.commit received input).bind fun committed => ?_
      exact Session.ensures_pure (fun _ => id) (invariant.leaves committed)
    · exact Session.ensures_pure (fun _ => id) (invariant.leaves received)

end IterationInvariant

/-- The rule for what does not depend on the subnetworks: a property of the tables that batches
keep, beside one of the rows held that mapped rows have. -/
theorem iterationInvariant_of_batches {cliArgs : CliArgs} {given : RpcTransaction → Prop}
    {kept : Db → Prop} {held : TransactionLoop → Prop}
    (frame : ∀ db numbering, kept db → kept (Db.withNumbering db numbering))
    (notes : ∀ (loop : TransactionLoop) (checkpointBlocks : List CheckpointBlock), held loop →
      held { loop with checkpointBlocks })
    (collects : ∀ (loop : TransactionLoop) (subnetworkMap : SubnetworkMap)
      (forgotten : Hash → Bool) (transaction : RpcTransaction) (key : Int)
      (received : TransactionLoop), given transaction → held loop →
        collect cliArgs { loop with subnetworkMap } forgotten transaction key = some received →
          held received)
    (commits : ∀ loop input, held loop → (loop.insertBatch cliArgs input).Keeps kept)
    (clears : ∀ (loop : TransactionLoop) (now : ℕ), held (loop.cleared now)) :
    IterationInvariant cliArgs given (fun loop db => kept db ∧ held loop) kept where
  leaves _ _ := And.left
  notes loop _ checkpointBlocks := And.imp_right (notes loop checkpointBlocks)
  receives loop forgotten transaction isGiven := by
    intro db script ⟨keptHere, heldHere⟩
    have left :=
      keeps_receiveTransaction frame cliArgs loop forgotten transaction db script keptHere
    refine ⟨left, fun received final rest ran => ?_⟩
    rw [ran] at left
    obtain ⟨key, numbering, _, _, collected⟩ := done_receiveTransaction ran
    exact ⟨left, collects loop _ forgotten transaction key received isGiven heldHere collected⟩
  commits loop input := by
    intro db script ⟨keptHere, heldHere⟩
    have left := commits loop input heldHere db script keptHere
    refine ⟨left, fun _ final rest ran => ⟨?_, clears loop input.commitNow⟩⟩
    rw [ran] at left
    exact left

/-- The same for tables of which only the rows of a batch matter. -/
theorem iterationInvariant_of_collect {cliArgs : CliArgs} {given : RpcTransaction → Prop}
    {kept : Db → Prop} {held : TransactionLoop → Prop}
    (frame : ∀ db numbering, kept db → kept (Db.withNumbering db numbering))
    (notes : ∀ (loop : TransactionLoop) (checkpointBlocks : List CheckpointBlock), held loop →
      held { loop with checkpointBlocks })
    (collects : ∀ (loop : TransactionLoop) (subnetworkMap : SubnetworkMap)
      (forgotten : Hash → Bool) (transaction : RpcTransaction) (key : Int)
      (received : TransactionLoop), held loop →
        collect cliArgs { loop with subnetworkMap } forgotten transaction key = some received →
          held received)
    (commits : ∀ loop db after, kept db → held loop → FromBatch loop db after → kept after)
    (clears : ∀ (loop : TransactionLoop) (now : ℕ), held (loop.cleared now)) :
    IterationInvariant cliArgs given (fun loop db => kept db ∧ held loop) kept := by
  refine iterationInvariant_of_batches frame notes
    (fun loop known forgotten transaction key received _ =>
      collects loop known forgotten transaction key received) ?_ clears
  intro loop input isHeld db script holds
  exact commits loop db _ holds isHeld
    (keeps_insertBatch cliArgs loop input db db script (FromBatch.refl loop db))

end TransactionLoop

/-! ## Beside the block processor -/

namespace BlockLoop

theorem keeps_clearAcceptances {property : Db → Prop}
    (acceptances : ∀ db transactionsAcceptances, property db →
      property { db with transactionsAcceptances })
    (settings : Settings) (loop : BlockLoop) (synced : Bool) :
    (loop.clearAcceptances settings synced).Keeps property := by
  unfold clearAcceptances
  split_ifs
  · refine Session.Keeps.bind ?_ fun _ => Session.keeps_pure _ _
    exact keeps_forPieces fun piece _ =>
      keeps_deleteTransactionAcceptances fun db holds => acceptances db _ holds
  · exact Session.keeps_pure _ _

/-- A commit inserts the rows of its batch and deletes acceptances. -/
theorem keeps_commit {property : Db → Prop} {received : BlockLoop}
    (blocks : ∀ db rows, rows ⊆ received.blocks → property db →
      property { db with blocks := db.blocks.insertAll rows })
    (blockParent : ∀ db rows, rows ⊆ received.blocksParents → property db →
      property { db with blockParent := db.blockParent.insertAll rows })
    (acceptances : ∀ db transactionsAcceptances, property db →
      property { db with transactionsAcceptances })
    (settings : Settings) (synced : Bool) (input : BlockInput) :
    (received.commit settings synced input).Keeps property := by
  have inserts : (received.insertBatch settings.cliArgs).Keeps property := by
    refine Session.Keeps.bind ?_ fun _ => Session.Keeps.bind ?_ fun _ => Session.keeps_pure _ _
    · split_ifs
      · exact Session.keeps_pure _ _
      · exact keeps_forPieces fun piece isPiece => keeps_insertInto fun db holds =>
          blocks db piece (fun row listed => mem_of_mem_chunk isPiece listed) holds
    · split_ifs
      · exact Session.keeps_pure _ _
      · exact keeps_forPieces fun piece isPiece => keeps_insertInto fun db holds =>
          blockParent db piece (fun row listed => mem_of_mem_chunk isPiece listed) holds
  refine inserts.bind fun _ => ?_
  split_ifs
  · exact (keeps_clearAcceptances acceptances settings received synced).bind
      fun _ => Session.keeps_pure _ _
  · exact Session.keeps_die _

/-- An iteration takes a block and perhaps commits. -/
theorem keeps_iterate_of_commit {property : Db → Prop} {settings : Settings} {loop : BlockLoop}
    {input : BlockInput}
    (commits : ∀ blockData received, input.popped = some blockData →
      loop.receive settings.cliArgs blockData.block = some received →
      (received.commit settings blockData.synced input).Keeps property) :
    (loop.iterate settings input).Keeps property := by
  unfold iterate
  split
  · exact Session.keeps_pure _ _
  · rename_i blockData popped
    split
    · exact Session.keeps_die _
    · rename_i received taken
      split_ifs
      · exact (commits blockData received popped taken).bind fun _ => Session.keeps_pure _ _
      · exact Session.keeps_pure _ _

/-- An iteration keeps what does not depend on its tables. -/
theorem keeps_iterate {property : Db → Prop}
    (frame : ∀ db after, SameTransactions db after → property db → property after)
    (settings : Settings) (loop : BlockLoop) (input : BlockInput) :
    (loop.iterate settings input).Keeps property :=
  keeps_iterate_of_commit fun _ _ _ _ =>
    keeps_commit (fun db _ _ => frame db _ ⟨rfl, rfl, rfl, rfl, rfl, rfl⟩)
      (fun db _ _ => frame db _ ⟨rfl, rfl, rfl, rfl, rfl, rfl⟩)
      (fun db _ => frame db _ ⟨rfl, rfl, rfl, rfl, rfl, rfl⟩) settings _ input

end BlockLoop

/-- The rule for a step of either processor or of another component. -/
theorem IndexingWorld.holds_step {settings : Settings} {holds : TransactionLoop → Db → Prop}
    {left : Db → Prop}
    (invariant : TransactionLoop.IterationInvariant settings.cliArgs (fun _ => True) holds left)
    (frame : ∀ loop db after, SameTransactions db after → holds loop db → holds loop after)
    (frameLeft : ∀ db after, SameTransactions db after → left db → left after)
    (world : IndexingWorld) (event : IndexingEvent)
    (before : left world.db ∧ ∀ loop, world.transactionLoop = some loop → holds loop world.db) :
    left (world.step settings event).db ∧
      ∀ loop, (world.step settings event).transactionLoop = some loop →
        holds loop (world.step settings event).db := by
  have stepped := world.stepped settings event
  generalize world.step settings event = next at stepped ⊢
  have framed : ∀ db after, SameTransactions db after →
      (left db ∧ ∀ loop, world.transactionLoop = some loop → holds loop db) →
      left after ∧ ∀ loop, world.transactionLoop = some loop → holds loop after :=
    fun db after same held => ⟨frameLeft db after same held.1, fun loop running =>
      frame loop db after same (held.2 loop running)⟩
  cases stepped with
  | idle => exact before
  | @blocks loop _ input _ _ script _ _ ran =>
      have kept := loop.keeps_iterate framed settings input world.db script before
      rw [ran] at kept
      exact kept
  | @blocksDie loop input script _ =>
      refine ⟨(loop.keeps_iterate framed settings input world.db script before).1, ?_⟩
      rintro _ ⟨⟩
  | @transactions loop _ input _ _ script _ running ran =>
      obtain ⟨kept, held⟩ := invariant.iterate loop input (fun _ _ _ _ => trivial) world.db script
        (before.2 loop running)
      rw [ran] at kept
      refine ⟨kept, ?_⟩
      rintro _ ⟨⟩
      exact held _ _ _ ran
  | @transactionsDie loop input script running =>
      refine ⟨(invariant.iterate loop input (fun _ _ _ _ => trivial) world.db script
        (before.2 loop running)).1, ?_⟩
      rintro _ ⟨⟩
  | other change => exact framed _ _ (sameTransactions_restore world.db _) before

/-! ## Any number of starts -/

/-- The databases the processors leave, started any number of times and ended at any
statement. -/
inductive Processed (settings : Settings) (imported : Db) : Db → Prop where
  | imported : Processed settings imported imported
  | started {db : Db} (processed : Processed settings imported db) (now : ℕ)
      (events : List IndexingEvent) :
      Processed settings imported
        (runFrom (IndexingWorld.step settings) (.start db now) events).db

/-- The rule for runs: what starts with `left` alone has `holds` again. -/
theorem holds_of_run {settings : Settings} {holds : TransactionLoop → Db → Prop} {left : Db → Prop}
    (invariant : TransactionLoop.IterationInvariant settings.cliArgs (fun _ => True) holds left)
    (frame : ∀ loop db after, SameTransactions db after → holds loop db → holds loop after)
    (frameLeft : ∀ db after, SameTransactions db after → left db → left after)
    (loads : ∀ now (db : Db), left db → holds (.loaded now db.subnetworks.rows) db) {db : Db}
    (before : left db) (now : ℕ) (events : List IndexingEvent) :
    let world := runFrom (IndexingWorld.step settings) (.start db now) events
    left world.db ∧ ∀ loop, world.transactionLoop = some loop → holds loop world.db :=
  @invariant_of_run _ _ (IndexingWorld.step settings)
    (fun world => left world.db ∧ ∀ loop, world.transactionLoop = some loop → holds loop world.db)
    (IndexingWorld.holds_step invariant frame frameLeft) (.start db now) events
    ⟨before, fun loop running => by cases running; exact loads now db before⟩

theorem Processed.left_of_invariant {settings : Settings} {imported db : Db}
    (processed : Processed settings imported db) {holds : TransactionLoop → Db → Prop}
    {left : Db → Prop}
    (invariant : TransactionLoop.IterationInvariant settings.cliArgs (fun _ => True) holds left)
    (frame : ∀ loop db after, SameTransactions db after → holds loop db → holds loop after)
    (frameLeft : ∀ db after, SameTransactions db after → left db → left after)
    (loads : ∀ now (db : Db), left db → holds (.loaded now db.subnetworks.rows) db)
    (start : left imported) : left db := by
  induction processed with
  | imported => exact start
  | started processed now events before =>
      exact (holds_of_run invariant frame frameLeft loads before now events).1

end VecnoIndexer
